import CityScene.Proofs.Model.Polygons
import CityScene.Proofs.Tree.Pruning

/-!
# Models without empty objects

An object is empty if it carries no geometry and no coverage and nothing stands below it.  Pruning
takes empty objects away, and with them all that become empty by that.

What goes carries no polygon and no point.  So completing a model finds the same targets and the
same references with or without those objects (`Model.finalize_pruned`), and the envelope of an
object that goes was empty, which nothing around it notices (`Tight.envelope_eq_empty`).
-/

namespace CityScene

namespace CityObject

/-- The objects that are left when empty ones are taken away from the leaves up. -/
def pruned (objects : List CityObject) : List CityObject :=
  Tree.forestPrune isEmpty objects

theorem pruned_append (s t : List CityObject) : pruned (s ++ t) = pruned s ++ pruned t :=
  Tree.forestPrune_append s t

/-- An object is judged by what is left below it. -/
theorem pruned_node (f : Feature) (children : List CityObject) :
    pruned [.node f children] =
      if isEmpty (.node f (pruned children)) then [] else [.node f (pruned children)] := by
  rw [pruned, Tree.forestPrune_singleton, Tree.prune, pruned]

/-- An object goes, or an object with the same feature is left. -/
theorem pruned_cases (o : CityObject) :
    pruned [o] = [] ∨ ∃ left, pruned [o] = [left] ∧ left.label = o.label := by
  rw [pruned, Tree.forestPrune_singleton]
  exact Tree.prune_cases o

theorem eq_nil_of_isEmpty {o : CityObject} (h : isEmpty o = true) :
    o.children = [] ∧ o.label.geometries = [] ∧ o.label.implicits = [] ∧
      o.label.coverage = none := by
  simp only [isEmpty, Bool.and_eq_true, List.isEmpty_iff, Option.isNone_iff_eq_none] at h
  exact ⟨h.1.1.1, h.1.1.2, h.1.2, h.2⟩

/-- What is read off geometry, and is nothing where there is none, is not lost with empty objects.
-/
theorem flatMap_forestLabels_pruned {γ : Type} {value : Feature → List γ}
    (h : ∀ f, f.geometries = [] → f.implicits = [] → f.coverage = none → value f = [])
    (objects : List CityObject) : (Tree.forestLabels (pruned objects)).flatMap value =
      (Tree.forestLabels objects).flatMap value := by
  refine Tree.flatMap_forestLabels_forestPrune (fun o ho => ?_) objects
  obtain ⟨hchildren, hgeometries, himplicits, hcoverage⟩ := eq_nil_of_isEmpty ho
  exact ⟨hchildren, h o.label hgeometries himplicits hcoverage⟩

/-- Nor is anything else that is true of features by their geometry. -/
theorem exists_mem_forestLabels_pruned {P : Feature → Prop}
    (h : ∀ f, f.geometries = [] → f.implicits = [] → f.coverage = none → ¬ P f)
    (objects : List CityObject) :
    (∃ f ∈ Tree.forestLabels (pruned objects), P f) ↔ ∃ f ∈ Tree.forestLabels objects, P f := by
  classical
  have hmem (objects : List CityObject) : (∃ f ∈ Tree.forestLabels objects, P f) ↔
      (Tree.forestLabels objects).flatMap (fun f => if P f then [f] else []) ≠ [] := by
    simp [List.flatMap_eq_nil_iff]
  rw [hmem, hmem, flatMap_forestLabels_pruned]
  exact fun f hgeometries himplicits hcoverage =>
    if_neg (h f hgeometries himplicits hcoverage)

end CityObject

/-! ### Envelopes -/

theorem carried_pruned (objects : List CityObject) (p : Vec3 Float) :
    Carried (CityObject.pruned objects) p ↔ Carried objects p := by
  refine CityObject.exists_mem_forestLabels_pruned (fun f hgeometries himplicits hcoverage => ?_) _
  rw [Feature.carries_iff, hgeometries, himplicits, hcoverage]
  simp

/-- **An object that is pruned away had nothing in its envelope.** -/
theorem Tight.envelope_eq_empty {o : CityObject} (h : Tight [o])
    (hgone : CityObject.pruned [o] = []) : o.label.envelope = .empty := by
  refine h.isHullOf.eq_empty fun p hp => ?_
  rw [← carried_pruned, hgone] at hp
  obtain ⟨f, hf, -⟩ := hp
  exact absurd hf List.not_mem_nil

/-! ### Models -/

namespace Model

def pruned (m : Model) : Model :=
  { m with objects := CityObject.pruned m.objects }

theorem polygons_pruned (m : Model) : m.pruned.polygons = m.polygons := by
  refine CityObject.flatMap_forestLabels_pruned (fun f hgeometries _ _ => ?_) m.objects
  rw [Feature.polygons, hgeometries, List.flatMap_nil]

/-- Changes of polygons keep what is empty, and so commute with pruning. -/
theorem pruned_mapPolygons (m : Model) (change : Polygon → Polygon) :
    (m.mapPolygons change).pruned = m.pruned.mapPolygons change := by
  rw [mapPolygons_eq_mapEach, mapPolygons_eq_mapEach, pruned, pruned, mapEach, mapEach]
  congr 1
  exact Tree.forestPrune_map (CityObject.isEmpty_map change fun p => p) m.objects

theorem tessellateAll_pruned (m : Model) (smooth : Bool) :
    m.pruned.tessellateAll smooth =
      ((m.tessellateAll smooth).1.pruned, (m.tessellateAll smooth).2) := by
  rw [tessellateAll, tessellateAll, ← pruned_mapPolygons, polygons_pruned, polygons_pruned]

theorem unseen_pruned : Unseen pruned where
  withPending _ _ := rfl
  ids m := by rw [polygons_pruned]
  isAnswered _ := rfl
  paints _ := rfl
  mapPolygons m paints := (m.pruned_mapPolygons (paintPolygon paints)).symm

/-- **Completing a model does not look for empty objects.** -/
theorem finalize_pruned (m : Model) : m.pruned.finalize = (m.finalize.1.pruned, m.finalize.2) :=
  unseen_pruned.finalize m

end Model

end CityScene
