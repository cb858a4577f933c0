import CityScene.Proofs.Tree.Listing

/-!
# Pruning trees

Pruning takes nodes away from the leaves up.  A node is dropped by what it looks like once
everything below it is pruned, so a node over nothing but dropped nodes is judged as a leaf.

What is left holds no node that should have been dropped (`drop_eq_false_of_mem_forestPrune`).  If
only leaves without a value are ever dropped, no value is lost (`flatMap_forestLabels_forestPrune`).
-/

namespace CityScene.Tree

variable {α β γ : Type}

mutual

/-- What is left of a tree: nothing if its root is dropped. -/
def prune (drop : Tree α → Bool) : Tree α → List (Tree α)
  | node a cs =>
    let left := node a (forestPrune drop cs)
    if drop left then [] else [left]

/-- What is left of a forest. -/
def forestPrune (drop : Tree α → Bool) : List (Tree α) → List (Tree α)
  | [] => []
  | t :: rest => t.prune drop ++ forestPrune drop rest

end

variable {drop : Tree α → Bool}

theorem forestPrune_append (s t : List (Tree α)) :
    forestPrune drop (s ++ t) = forestPrune drop s ++ forestPrune drop t := by
  induction s with
  | nil => rfl
  | cons a s ih => rw [List.cons_append, forestPrune, forestPrune, ih, List.append_assoc]

theorem forestPrune_singleton (t : Tree α) : forestPrune drop [t] = t.prune drop := by
  rw [forestPrune, forestPrune, List.append_nil]

/-- A tree is pruned away, or a tree with the same root is left. -/
theorem prune_cases (t : Tree α) :
    t.prune drop = [] ∨ ∃ left, t.prune drop = [left] ∧ left.label = t.label := by
  obtain ⟨a, cs⟩ := t
  rw [prune]
  split
  · exact .inl rfl
  · exact .inr ⟨_, rfl, rfl⟩

mutual

/-- **No node is left that should have been dropped.** -/
theorem drop_eq_false_of_mem_prune {u : Tree α} : ∀ {t : Tree α},
      u ∈ forestSubtrees (t.prune drop) → drop u = false
  | node a cs, h => by
    rw [prune] at h
    split at h
    · exact absurd h List.not_mem_nil
    · next hkept =>
      rw [forestSubtrees, forestSubtrees, List.append_nil, subtrees] at h
      rcases List.mem_cons.1 h with rfl | h
      · exact Bool.eq_false_iff.2 hkept
      · exact drop_eq_false_of_mem_forestPrune h

theorem drop_eq_false_of_mem_forestPrune {u : Tree α} : ∀ {forest : List (Tree α)},
      u ∈ forestSubtrees (forestPrune drop forest) → drop u = false
  | [], h => absurd h List.not_mem_nil
  | t :: rest, h => by
    rw [forestPrune, forestSubtrees_append] at h
    rcases List.mem_append.1 h with h | h
    · exact drop_eq_false_of_mem_prune h
    · exact drop_eq_false_of_mem_forestPrune h

end

mutual

/-- The labels that are left are as they were, in the same order. -/
theorem forestLabels_prune_sublist : ∀ t : Tree α,
      (forestLabels (t.prune drop)).Sublist t.labels
  | node a cs => by
    rw [prune, labels]
    split
    · exact List.nil_sublist _
    · rw [forestLabels, forestLabels, List.append_nil, labels]
      exact (forestLabels_forestPrune_sublist cs).cons_cons a

theorem forestLabels_forestPrune_sublist : ∀ forest : List (Tree α),
      (forestLabels (forestPrune drop forest)).Sublist (forestLabels forest)
  | [] => List.Sublist.refl _
  | t :: rest => by
    rw [forestPrune, forestLabels_append, forestLabels]
    exact (forestLabels_prune_sublist t).append (forestLabels_forestPrune_sublist rest)

end

mutual

theorem flatMap_forestLabels_prune {value : α → List γ}
    (h : ∀ t, drop t = true → t.children = [] ∧ value t.label = []) : ∀ t : Tree α,
      (forestLabels (t.prune drop)).flatMap value = t.labels.flatMap value
  | node a cs => by
    rw [prune, labels, List.flatMap_cons, ← flatMap_forestLabels_forestPrune h cs]
    split
    · next hdrop =>
      obtain ⟨hchildren, hvalue⟩ := h _ hdrop
      rw [show forestPrune drop cs = [] from hchildren, show value a = [] from hvalue]
      rfl
    · rw [forestLabels, forestLabels, List.append_nil, labels, List.flatMap_cons]

/-- **Dropping leaves without a value loses no value.** -/
theorem flatMap_forestLabels_forestPrune {value : α → List γ}
    (h : ∀ t, drop t = true → t.children = [] ∧ value t.label = []) : ∀ forest : List (Tree α),
      (forestLabels (forestPrune drop forest)).flatMap value = (forestLabels forest).flatMap value
  | [] => rfl
  | t :: rest => by
    rw [forestPrune, forestLabels_append, forestLabels, List.flatMap_append, List.flatMap_append,
      flatMap_forestLabels_prune h t, flatMap_forestLabels_forestPrune h rest]

end

mutual

theorem prune_map {drop' : Tree β → Bool} {f : α → β} (h : ∀ t, drop' (t.map f) = drop t) :
    ∀ t : Tree α, (t.map f).prune drop' = forestMap f (t.prune drop)
  | node a cs => by
    have hleft : node (f a) (forestPrune drop' (forestMap f cs)) =
        (node a (forestPrune drop cs)).map f := by
      rw [forestPrune_map h cs, Tree.map]
    rw [Tree.map, prune, prune, hleft, h]
    split <;> rfl

/-- A change of labels that does not show in what is dropped may come before or after. -/
theorem forestPrune_map {drop' : Tree β → Bool} {f : α → β} (h : ∀ t, drop' (t.map f) = drop t) :
    ∀ forest : List (Tree α),
      forestPrune drop' (forestMap f forest) = forestMap f (forestPrune drop forest)
  | [] => rfl
  | t :: rest => by
    rw [forestMap, forestPrune, forestPrune, forestMap_append, prune_map h t,
      forestPrune_map h rest]

end

end CityScene.Tree
