import CityScene.Proofs.Tree.Listing

/-!
# Walks through a forest

A walk can be taken one tree at a time: `next?` takes the top tree off a stack and puts its children
there, the first child on top.  The top of the stack is at its end, so a walk starts from the forest
reversed.  What is still to come is the listing of the stack from the top (`next?_reverse`), and so
any number of calls yields a front part of the whole walk, which ends when every tree has been met
(`visit_reverse`).

That every tree is met once is a matter of places, as equal trees may stand in different places.  A
place is the path to it (`at?`), by the number of a child on each level, and in pre-order the paths
ascend lexicographically (`pairwise_forestPaths`).
-/

namespace CityScene.Tree

variable {α : Type}

/-! ### One tree at a time -/

/-- The tree on top of the stack, at its end, and the stack with its children in its place. -/
def next? (stack : List (Tree α)) : Option (Tree α × List (Tree α)) :=
  stack.getLast?.map fun t => (t, stack.dropLast ++ t.children.reverse)

/-- The trees that some number of calls yield, and the stack after them. -/
def visit : Nat → List (Tree α) → List (Tree α) × List (Tree α)
  | 0, stack => ([], stack)
  | n + 1, stack =>
    match next? stack with
    | none => ([], stack)
    | some (t, stack) => (t :: (visit n stack).1, (visit n stack).2)

theorem next?_reverse (a : α) (cs stack : List (Tree α)) :
    next? (node a cs :: stack).reverse = some (node a cs, (cs ++ stack).reverse) := by
  rw [next?, List.reverse_cons, List.getLast?_concat, Option.map_some, List.dropLast_concat,
    List.reverse_append, children]

/-- **Calls yield the walk from its front, and the stack is empty once all of it has come.** -/
theorem visit_reverse (n : Nat) (forest : List (Tree α)) :
    (visit n forest.reverse).1 = (walk forest).take n ∧
      ((visit n forest.reverse).2 = [] ↔ (walk forest).length ≤ n) := by
  induction n generalizing forest with
  | zero => cases forest with
    | nil => simp [visit, walk]
    | cons t stack =>
      obtain ⟨a, cs⟩ := t
      simp [visit, walk]
  | succ n ih =>
    cases forest with
    | nil => simp [visit, next?, walk]
    | cons t stack =>
      obtain ⟨a, cs⟩ := t
      obtain ⟨hyields, hends⟩ := ih (cs ++ stack)
      rw [visit, next?_reverse, walk, List.take_succ_cons, List.length_cons,
        Nat.add_le_add_iff_right]
      exact ⟨congrArg (node a cs :: ·) hyields, hends⟩

mutual

theorem length_subtrees : ∀ t : Tree α, t.subtrees.length = t.size
  | node a cs => by rw [subtrees, size, List.length_cons, length_forestSubtrees, Nat.add_comm]

theorem length_forestSubtrees :
    ∀ forest : List (Tree α), (forestSubtrees forest).length = forestSize forest
  | [] => rfl
  | t :: rest => by
    rw [forestSubtrees, forestSize, List.length_append, length_subtrees, length_forestSubtrees]

end

/-! ### Places -/

/-- The tree at the end of a path down from a tree. -/
def below? : List Nat → Tree α → Option (Tree α)
  | [], t => some t
  | i :: path, t => t.children[i]?.bind (below? path)

/-- The tree at a place of a forest. -/
def at? (forest : List (Tree α)) : List Nat → Option (Tree α)
  | [] => none
  | i :: path => forest[i]?.bind (below? path)

mutual

/-- The paths down from a tree, in pre-order. -/
def paths : Tree α → List (List Nat)
  | node _ cs => [] :: forestPaths 0 cs

/-- The paths into a forest whose first tree has the number `i`. -/
def forestPaths (i : Nat) : List (Tree α) → List (List Nat)
  | [] => []
  | t :: rest => t.paths.map (i :: ·) ++ forestPaths (i + 1) rest

end

theorem below?_node (a : α) (cs : List (Tree α)) {path : List Nat} (h : path ≠ []) :
    below? path (node a cs) = at? cs path := by
  cases path with
  | nil => exact absurd rfl h
  | cons i path => rfl

theorem exists_of_mem_forestPaths {path : List Nat} {i : Nat} {forest : List (Tree α)}
    (h : path ∈ forestPaths i forest) : ∃ j rest, path = j :: rest ∧ i ≤ j := by
  induction forest generalizing i with
  | nil => cases h
  | cons t forest ih =>
    rcases List.mem_append.1 h with h | h
    · obtain ⟨rest, -, rfl⟩ := List.mem_map.1 h
      exact ⟨i, rest, rfl, Nat.le_refl i⟩
    · obtain ⟨j, rest, hpath, hj⟩ := ih h
      exact ⟨j, rest, hpath, Nat.le_of_succ_le hj⟩

mutual

/-- **At the paths from a tree stand the subtrees, in pre-order.** -/
theorem map_below?_paths : ∀ t : Tree α, t.paths.map (below? · t) = t.subtrees.map some
  | node a cs => by
    have hbelow : (forestPaths 0 cs).map (below? · (node a cs)) = (forestPaths 0 cs).map (at? cs) :=
      List.map_congr_left fun path hpath => below?_node a cs fun hnil => by
        obtain ⟨j, rest, hcons, -⟩ := exists_of_mem_forestPaths hpath
        exact List.cons_ne_nil j rest (hcons.symm.trans hnil)
    rw [paths, subtrees, List.map_cons, List.map_cons, hbelow]
    exact congrArg (some (node a cs) :: ·) (map_at?_forestPaths [] cs)

theorem map_at?_forestPaths (before : List (Tree α)) : ∀ forest : List (Tree α),
    (forestPaths before.length forest).map (at? (before ++ forest)) =
      (forestSubtrees forest).map some
  | [] => rfl
  | t :: rest => by
    have hfirst : (t.paths.map (before.length :: ·)).map (at? (before ++ t :: rest)) =
        t.paths.map (below? · t) := by
      rw [List.map_map]
      refine List.map_congr_left fun path _ => ?_
      rw [Function.comp_apply, at?, List.getElem?_append_right (Nat.le_refl _), Nat.sub_self]
      rfl
    have hrest := map_at?_forestPaths (before ++ [t]) rest
    rw [List.length_append, List.length_singleton, List.append_assoc] at hrest
    rw [forestPaths, forestSubtrees, List.map_append, List.map_append, hfirst, map_below?_paths]
    exact congrArg (t.subtrees.map some ++ ·) hrest

end

mutual

/-- **In pre-order the paths ascend.** -/
theorem pairwise_paths : ∀ t : Tree α, t.paths.Pairwise (List.Lex (· < ·))
  | node a cs => by
    refine List.pairwise_cons.2 ⟨fun path hpath => ?_, pairwise_forestPaths 0 cs⟩
    obtain ⟨j, rest, rfl, -⟩ := exists_of_mem_forestPaths hpath
    exact List.Lex.nil

theorem pairwise_forestPaths (i : Nat) : ∀ forest : List (Tree α),
    (forestPaths i forest).Pairwise (List.Lex (· < ·))
  | [] => List.Pairwise.nil
  | t :: rest => by
    have hfirst : (t.paths.map (i :: ·)).Pairwise (List.Lex (· < ·)) :=
      List.pairwise_map.2 ((pairwise_paths t).imp List.Lex.cons)
    refine List.pairwise_append.2 ⟨hfirst, pairwise_forestPaths (i + 1) rest, ?_⟩
    intro path hpath other hother
    obtain ⟨path, -, rfl⟩ := List.mem_map.1 hpath
    obtain ⟨j, other, rfl, hj⟩ := exists_of_mem_forestPaths hother
    exact List.Lex.rel hj

end

mutual

theorem mem_paths : ∀ (t : Tree α) {path : List Nat} {u : Tree α},
    below? path t = some u → path ∈ t.paths
  | node a cs, [], _, _ => List.mem_cons_self
  | node a cs, j :: path, u, h => by
    have hmem : (0 + j) :: path ∈ forestPaths 0 cs := mem_forestPaths 0 cs h
    rw [Nat.zero_add] at hmem
    exact List.mem_cons_of_mem _ hmem

theorem mem_forestPaths (i : Nat) : ∀ (forest : List (Tree α)) {j : Nat} {path : List Nat}
    {u : Tree α}, at? forest (j :: path) = some u → (i + j) :: path ∈ forestPaths i forest
  | t :: rest, 0, path, u, h =>
    List.mem_append_left _ (List.mem_map_of_mem (mem_paths t h))
  | t :: rest, j + 1, path, u, h => by
    have hmem : (i + 1 + j) :: path ∈ forestPaths (i + 1) rest := mem_forestPaths (i + 1) rest h
    rw [Nat.add_assoc, Nat.add_comm 1] at hmem
    exact List.mem_append_right _ hmem

end

/-- **The walk meets every place of the forest once, in lexicographic order.** -/
theorem exists_places (forest : List (Tree α)) : ∃ places : List (List Nat),
    places.Pairwise (List.Lex (· < ·)) ∧ (∀ path, path ∈ places ↔ (at? forest path).isSome = true) ∧
      places.map (at? forest) = (walk forest).map some := by
  have hmap : (forestPaths 0 forest).map (at? forest) = (forestSubtrees forest).map some :=
    map_at?_forestPaths [] forest
  refine ⟨forestPaths 0 forest, pairwise_forestPaths 0 forest,
    fun path => ⟨fun h => ?_, fun h => ?_⟩, by rw [hmap, walk_eq]⟩
  · have hat : at? forest path ∈ (forestSubtrees forest).map some := hmap ▸ List.mem_map_of_mem h
    obtain ⟨t, -, ht⟩ := List.mem_map.1 hat
    rw [← ht]
    rfl
  · obtain ⟨t, ht⟩ := Option.isSome_iff_exists.1 h
    cases path with
    | nil => cases ht
    | cons j path =>
      have hmem := mem_forestPaths 0 forest ht
      rwa [Nat.zero_add] at hmem

end CityScene.Tree
