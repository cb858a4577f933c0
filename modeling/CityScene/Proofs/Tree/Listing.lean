import CityScene.Tree
import Mathlib.Tactic.Common

/-!
# Listings of trees

The listings of `CityScene.Tree` in terms of each other: the outline with its depths forgotten gives
the labels, and so do the subtrees with everything below them forgotten.  The walk with a stack is
the listing of subtrees by recursion (`walk_eq`).
-/

namespace CityScene.Tree

variable {α β γ : Type}

/-! ### Forests one after the other -/

theorem forestOutline_append (depth : Nat) (s t : List (Tree α)) :
    forestOutline depth (s ++ t) = forestOutline depth s ++ forestOutline depth t := by
  induction s with
  | nil => rfl
  | cons a s ih => rw [List.cons_append, forestOutline, forestOutline, ih, List.append_assoc]

theorem forestSubtrees_append (s t : List (Tree α)) :
    forestSubtrees (s ++ t) = forestSubtrees s ++ forestSubtrees t := by
  induction s with
  | nil => rfl
  | cons a s ih => rw [List.cons_append, forestSubtrees, forestSubtrees, ih, List.append_assoc]

theorem forestLabels_append (s t : List (Tree α)) :
    forestLabels (s ++ t) = forestLabels s ++ forestLabels t := by
  induction s with
  | nil => rfl
  | cons a s ih => rw [List.cons_append, forestLabels, forestLabels, ih, List.append_assoc]

theorem mem_forestLabels {a : α} {forest : List (Tree α)} :
    a ∈ forestLabels forest ↔ ∃ t ∈ forest, a ∈ t.labels := by
  induction forest with
  | nil => simp [forestLabels]
  | cons t rest ih => simp [forestLabels, ih]

/-! ### One listing from another -/

/-- Putting the children of the first tree in its place keeps the pre-order. -/
theorem walk_eq (forest : List (Tree α)) : walk forest = forestSubtrees forest := by
  fun_induction walk forest with
  | case1 => rfl
  | case2 a cs stack ih =>
    rw [ih, forestSubtrees_append, forestSubtrees, subtrees, List.cons_append]

mutual

theorem map_snd_outline (depth : Nat) : ∀ t : Tree α, (t.outline depth).map Prod.snd = t.labels
  | node a cs => by rw [outline, labels, List.map_cons, map_snd_forestOutline]

theorem map_snd_forestOutline (depth : Nat) :
    ∀ forest : List (Tree α), (forestOutline depth forest).map Prod.snd = forestLabels forest
  | [] => rfl
  | t :: rest => by
    rw [forestOutline, forestLabels, List.map_append, map_snd_outline, map_snd_forestOutline]

end

mutual

theorem map_label_subtrees : ∀ t : Tree α, t.subtrees.map label = t.labels
  | node a cs => by rw [subtrees, labels, List.map_cons, map_label_forestSubtrees, label]

theorem map_label_forestSubtrees :
    ∀ forest : List (Tree α), (forestSubtrees forest).map label = forestLabels forest
  | [] => rfl
  | t :: rest => by
    rw [forestSubtrees, forestLabels, List.map_append, map_label_subtrees,
      map_label_forestSubtrees]

end

/-! ### Parts of trees -/

mutual

theorem subtrees_subset {t : Tree α} : ∀ {u : Tree α}, t ∈ u.subtrees → t.subtrees ⊆ u.subtrees
  | node a cs, h => by
    rcases List.mem_cons.1 h with rfl | h
    · exact List.Subset.refl _
    · exact List.subset_cons_of_subset _ (subtrees_subset_forestSubtrees h)

theorem subtrees_subset_forestSubtrees {t : Tree α} : ∀ {forest : List (Tree α)},
      t ∈ forestSubtrees forest → t.subtrees ⊆ forestSubtrees forest
  | u :: rest, h => by
    rcases List.mem_append.1 h with h | h
    · exact List.subset_append_of_subset_left _ (subtrees_subset h)
    · exact List.subset_append_of_subset_right _ (subtrees_subset_forestSubtrees h)

end

theorem forestLabels_subset {t : Tree α} {forest : List (Tree α)} (h : t ∈ forestSubtrees forest) :
    forestLabels [t] ⊆ forestLabels forest := by
  rw [← map_label_forestSubtrees, ← map_label_forestSubtrees, forestSubtrees, forestSubtrees,
    List.append_nil]
  exact List.map_subset _ (subtrees_subset_forestSubtrees h)

/-! ### Changed labels -/

mutual

/-- A change of labels that a view of them does not see does not change the outline of the view. -/
theorem outline_map {f : α → β} {view : α → γ} {view' : β → γ} (h : ∀ a, view' (f a) = view a)
    (depth : Nat) : ∀ t : Tree α,
      ((t.map f).outline depth).map (Prod.map id view') = (t.outline depth).map (Prod.map id view)
  | node a cs => by
    rw [Tree.map, outline, outline, List.map_cons, List.map_cons, forestOutline_map h, Prod.map,
      Prod.map, h]

theorem forestOutline_map {f : α → β} {view : α → γ} {view' : β → γ}
    (h : ∀ a, view' (f a) = view a) (depth : Nat) : ∀ forest : List (Tree α),
      (forestOutline depth (forestMap f forest)).map (Prod.map id view') =
        (forestOutline depth forest).map (Prod.map id view)
  | [] => rfl
  | t :: rest => by
    rw [forestMap, forestOutline, forestOutline, List.map_append, List.map_append, outline_map h,
      forestOutline_map h]

end

mutual

theorem labels_map (f : α → β) : ∀ t : Tree α, (t.map f).labels = t.labels.map f
  | node a cs => by rw [Tree.map, labels, labels, List.map_cons, forestLabels_map]

theorem forestLabels_map (f : α → β) :
    ∀ forest : List (Tree α), forestLabels (forestMap f forest) = (forestLabels forest).map f
  | [] => rfl
  | t :: rest => by
    rw [forestMap, forestLabels, forestLabels, List.map_append, labels_map, forestLabels_map]

end

mutual

theorem subtrees_map (f : α → β) : ∀ t : Tree α, (t.map f).subtrees = t.subtrees.map (Tree.map f)
  | node a cs => by
    rw [Tree.map, subtrees, subtrees, List.map_cons, Tree.map, forestSubtrees_map]

theorem forestSubtrees_map (f : α → β) : ∀ forest : List (Tree α),
      forestSubtrees (forestMap f forest) = (forestSubtrees forest).map (Tree.map f)
  | [] => rfl
  | t :: rest => by
    rw [forestMap, forestSubtrees, forestSubtrees, List.map_append, subtrees_map,
      forestSubtrees_map]

end

theorem forestMap_append (f : α → β) (s t : List (Tree α)) :
    forestMap f (s ++ t) = forestMap f s ++ forestMap f t := by
  induction s with
  | nil => rfl
  | cons a s ih => rw [List.cons_append, forestMap, forestMap, ih, List.cons_append]

theorem label_map (f : α → β) (t : Tree α) : (t.map f).label = f t.label := by
  cases t
  rfl

mutual

theorem map_map (f : α → β) (g : β → γ) : ∀ t : Tree α, (t.map f).map g = t.map (g ∘ f)
  | node a cs => by rw [Tree.map, Tree.map, Tree.map, forestMap_forestMap]; rfl

theorem forestMap_forestMap (f : α → β) (g : β → γ) :
    ∀ forest : List (Tree α), forestMap g (forestMap f forest) = forestMap (g ∘ f) forest
  | [] => rfl
  | t :: rest => by rw [forestMap, forestMap, forestMap, map_map, forestMap_forestMap]

end

mutual

theorem map_self : ∀ t : Tree α, t.map (fun a => a) = t
  | node a cs => by rw [Tree.map, forestMap_self]

theorem forestMap_self : ∀ forest : List (Tree α), forestMap (fun a => a) forest = forest
  | [] => rfl
  | t :: rest => by rw [forestMap, map_self, forestMap_self]

end

end CityScene.Tree
