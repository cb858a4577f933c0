import CityScene.Proofs.Model.Polygons
import CityScene.Proofs.Tree.Walk

/-!
# Going through the objects of a model

Objects are looked up by a walk with a stack, while painting and tessellating go through them by
recursion.  Both go in pre-order, so both meet the same polygons, in the same order: a polygon that
a reference finds is one that paint reaches.
-/

namespace CityScene.Model

theorem polygons_eq_flatMap_walk (m : Model) :
    m.polygons = (Tree.walk m.objects).flatMap (·.label.polygons) := by
  rw [polygons, ← Tree.map_label_forestSubtrees, ← Tree.walk_eq, List.flatMap_map]

theorem containsPolygon_iff {m : Model} {id : String} :
    m.containsPolygon id = true ↔ ∃ p ∈ m.polygons, p.id = some id := by
  rw [containsPolygon_eq, List.contains_iff_mem, List.mem_map]

/-- **Paint reaches the polygons that references find.** -/
theorem mem_reachedIds {m : Model} {paints : List (String × Paint)} {id : String} :
    id ∈ m.reachedIds paints ↔
      m.containsPolygon id = true ∧ id ∈ paints.map Prod.fst := by
  rw [reachedIds, List.mem_filter, List.mem_filterMap, containsPolygon_iff, List.any_eq_true]
  simp

/-- **All ways through the objects go in pre-order.**  Calls of the walk yield it from its front
until it has met every place of the forest once, in lexicographic order, which is the order of the
recursion.  Painting and tessellating go through the same polygons in the same order.  So the object
that is found under an identifier is the first in pre-order that has it, and a polygon is found
exactly if paint reaches it. -/
theorem traversals_preorder (m : Model) :
    (∀ n, (Tree.visit n m.objects.reverse).1 = (Tree.walk m.objects).take n ∧
      ((Tree.visit n m.objects.reverse).2 = [] ↔ Tree.forestSize m.objects ≤ n)) ∧
    (∃ places : List (List Nat), places.Pairwise (List.Lex (· < ·)) ∧
      (∀ path, path ∈ places ↔ (Tree.at? m.objects path).isSome = true) ∧
      places.map (Tree.at? m.objects) = (Tree.walk m.objects).map some) ∧
    Tree.walk m.objects = Tree.forestSubtrees m.objects ∧
    m.polygons = (Tree.walk m.objects).flatMap (·.label.polygons) ∧
    (∀ change, (m.mapPolygons change).polygons = m.polygons.map change) ∧
    (∀ id o, m.findObject? id = some o ↔ ∃ before after,
      Tree.walk m.objects = before ++ o :: after ∧ o.label.id = id ∧
        ∀ other ∈ before, other.label.id ≠ id) ∧
    (∀ id, m.findObject? id = none ↔ ∀ o ∈ Tree.walk m.objects, o.label.id ≠ id) ∧
    (∀ id, m.containsPolygon id = true ↔ ∃ p ∈ m.polygons, p.id = some id) ∧
    ∀ paints id, id ∈ m.reachedIds paints ↔
      m.containsPolygon id = true ∧ id ∈ paints.map Prod.fst := by
  have hvisit (n : Nat) := Tree.visit_reverse n m.objects
  have hsize : (Tree.walk m.objects).length = Tree.forestSize m.objects := by
    rw [Tree.walk_eq, Tree.length_forestSubtrees]
  refine ⟨fun n => ⟨(hvisit n).1, hsize ▸ (hvisit n).2⟩, Tree.exists_places m.objects,
    Tree.walk_eq m.objects, m.polygons_eq_flatMap_walk, m.polygons_mapPolygons, fun id o => ?_,
    fun id => ?_, fun id => containsPolygon_iff, fun paints id => mem_reachedIds⟩
  · rw [findObject?, Tree.find?, List.find?_eq_some_iff_append]
    constructor
    · rintro ⟨hid, before, after, hwalk, hbefore⟩
      exact ⟨before, after, hwalk, by simpa using hid, by simpa using hbefore⟩
    · rintro ⟨before, after, hwalk, hid, hbefore⟩
      exact ⟨by simpa using hid, before, after, hwalk, by simpa using hbefore⟩
  · rw [findObject?, Tree.find?, List.find?_eq_none]
    simp

end CityScene.Model
