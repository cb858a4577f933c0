import CityScene.Model.Tessellation
import CityScene.Proofs.Model.Polygons
import Mathlib.Data.List.Forall2

/-!
# Tessellating a model

A polygon is tessellated once: afterwards it is not pending any more
(`Polygon.mesh_tessellate_ne_pending`), and a polygon that is not pending stays as it is, whatever
the options (`Polygon.tessellate_of_ne_pending`).  Both pass from polygons to a model, whose objects
list their polygons in document order.  So the first round settles every polygon of an object and
reports the failures, and the rounds after it find nothing to do
(`Model.tessellateAll_settles`).
-/

namespace CityScene

/-! ### Polygons -/

/-- The polygon as it is before it is tessellated. -/
def Polygon.withoutMesh (p : Polygon) : Polygon :=
  { p with mesh := .pending }

theorem KeepsRings.withoutMesh : KeepsRings Polygon.withoutMesh :=
  ⟨fun _ => rfl, fun _ => rfl, fun _ => rfl⟩

namespace Polygon

theorem withoutMesh_paint (p : Polygon) (a : Paint) :
    (p.paint a).withoutMesh = p.withoutMesh.paint a := by
  cases a <;> rfl

theorem withoutMesh_tessellate (p : Polygon) (smooth : Bool) :
    (p.tessellate smooth).withoutMesh = p.withoutMesh := by
  rw [tessellate]
  split <;> rfl

theorem withoutMesh_of_pending {p : Polygon} (h : p.mesh = .pending) : p.withoutMesh = p := by
  rw [withoutMesh, ← h]

/-- Painting does not get in the way of tessellation. -/
theorem tessellate_paint (p : Polygon) (a : Paint) (smooth : Bool) :
    (p.paint a).tessellate smooth = (p.tessellate smooth).paint a := by
  have hmesh : (p.paint a).mesh = p.mesh := by cases a <;> rfl
  have htessellation : (p.paint a).tessellation smooth = p.tessellation smooth := by
    cases a <;> rfl
  rw [tessellate, tessellate, hmesh]
  cases hp : p.mesh with
  | pending => rw [htessellation]; cases a <;> rfl
  | _ => rfl

theorem mesh_tessellate_ne_pending (p : Polygon) (smooth : Bool) :
    (p.tessellate smooth).mesh ≠ .pending := by
  rw [tessellate]
  cases hp : p.mesh with
  | pending =>
    show p.tessellation smooth ≠ .pending
    rw [tessellation]
    split
    · intro h; cases h
    · intro h; cases h
  | _ => intro h; rw [hp] at h; cases h

theorem tessellate_of_ne_pending {p : Polygon} (h : p.mesh ≠ .pending) (smooth : Bool) :
    p.tessellate smooth = p := by
  rw [tessellate]
  split
  · next hp => exact absurd hp h
  · rfl

/-- A polygon is tessellated once. -/
theorem tessellate_tessellate (p : Polygon) (smooth later : Bool) :
    (p.tessellate smooth).tessellate later = p.tessellate smooth :=
  tessellate_of_ne_pending (p.mesh_tessellate_ne_pending smooth) later

theorem isTessellated_eq_false_iff {p : Polygon} : p.isTessellated = false ↔ p.mesh = .pending := by
  rw [isTessellated]
  split
  · next h => exact iff_of_true rfl h
  · next h => exact iff_of_false Bool.noConfusion h

end Polygon

/-! ### Reports -/

/-- What is kept by a test, next to what comes of those that it keeps. -/
theorem forall₂_filter_filterMap {α β : Type} {R : α → β → Prop} {test : α → Bool}
    {f : α → Option β} (htest : ∀ a, test a = (f a).isSome) (hR : ∀ a b, f a = some b → R a b)
    (l : List α) : List.Forall₂ R (l.filter test) (l.filterMap f) := by
  induction l with
  | nil => exact .nil
  | cons a l ih =>
    cases hf : f a with
    | none => rwa [List.filter_cons_of_neg (by simp [htest, hf]), List.filterMap_cons_none hf]
    | some b =>
      rw [List.filter_cons_of_pos (by simp [htest, hf]), List.filterMap_cons_some hf]
      exact .cons (hR a b hf) ih

namespace Model

/-- A polygon that was pending and has failed gets a report, and no other polygon does. -/
theorem isSome_tessellationReport? (before after : Polygon) :
    (tessellationReport? before after).isSome =
      decide (before.mesh = .pending ∧ after.failure?.isSome = true) := by
  rw [tessellationReport?]
  split
  · next h =>
    refine (decide_eq_false fun hpending => ?_).symm
    rw [Polygon.isTessellated_eq_false_iff.2 hpending.1] at h
    cases h
  · next h =>
    rw [Option.isSome_map]
    simp [Polygon.isTessellated_eq_false_iff.1 (Bool.eq_false_iff.2 h)]

theorem failure?_of_tessellationReport? {before after : Polygon} {d : Diagnostic}
    (h : tessellationReport? before after = some d) :
    ∃ failure, after.mesh = .failed failure ∧ d = ⟨.tessellation failure, after.id⟩ := by
  rw [tessellationReport?] at h
  split at h
  · cases h
  · obtain ⟨failure, hfailure, rfl⟩ := Option.map_eq_some_iff.1 h
    rw [Polygon.failure?] at hfailure
    split at hfailure
    · next hmesh =>
      cases hfailure
      exact ⟨failure, hmesh, rfl⟩
    · cases hfailure

/-! ### Models -/

/-- The polygons of the features, in the order in which a walk with a stack meets them. -/
theorem polygons_eq_flatMap_features (m : Model) :
    m.polygons = m.features.flatMap (·.polygons) := by
  rw [features, Tree.walk_eq, Tree.map_label_forestSubtrees, polygons]

theorem mapPolygons_comp (m : Model) (f g : Polygon → Polygon) :
    (m.mapPolygons f).mapPolygons g = m.mapPolygons (g ∘ f) := by
  rw [mapPolygons, mapPolygons, mapPolygons, Tree.forestMap_forestMap,
    ← Feature.mapPolygons_comp]
  rfl

theorem polygons_tessellateAll (m : Model) (smooth : Bool) :
    (m.tessellateAll smooth).1.polygons = m.polygons.map (·.tessellate smooth) :=
  m.polygons_mapPolygons _

/-- No polygon of an object is left pending. -/
theorem mesh_ne_pending_of_tessellateAll {m : Model} {smooth : Bool} {p : Polygon}
    (hp : p ∈ (m.tessellateAll smooth).1.polygons) : p.mesh ≠ .pending := by
  rw [polygons_tessellateAll] at hp
  obtain ⟨q, -, rfl⟩ := List.mem_map.1 hp
  exact q.mesh_tessellate_ne_pending smooth

/-- Tessellation does not show in a model without the meshes of its objects' polygons. -/
theorem mapPolygons_withoutMesh_tessellateAll (m : Model) (smooth : Bool) :
    (m.tessellateAll smooth).1.mapPolygons Polygon.withoutMesh =
      m.mapPolygons Polygon.withoutMesh := by
  have hpolygon : Polygon.withoutMesh ∘ (·.tessellate smooth) = Polygon.withoutMesh :=
    funext fun p => p.withoutMesh_tessellate smooth
  rw [tessellateAll, mapPolygons_comp, hpolygon]

/-- A second round changes nothing and has nothing to report. -/
theorem tessellateAll_tessellateAll (m : Model) (smooth later : Bool) :
    (m.tessellateAll smooth).1.tessellateAll later = ((m.tessellateAll smooth).1, []) := by
  have honce : (·.tessellate later) ∘ (·.tessellate smooth) = (Polygon.tessellate · smooth) :=
    funext fun p => p.tessellate_tessellate smooth later
  have hmodel : (m.tessellateAll smooth).1.mapPolygons (·.tessellate later) =
      (m.tessellateAll smooth).1 := by
    rw [tessellateAll, mapPolygons_comp, honce]
  rw [tessellateAll.eq_1 (m.tessellateAll smooth).1, hmodel]
  refine congrArg (Prod.mk _) (List.filterMap_eq_nil_iff.2 fun (p, q) hpq => ?_)
  have hp := mesh_ne_pending_of_tessellateAll (List.of_mem_zip hpq).1
  show tessellationReport? p q = none
  rw [tessellationReport?, if_pos]
  exact Bool.not_eq_false _ ▸ mt Polygon.isTessellated_eq_false_iff.1 hp

/-- Tessellating a model several times, with one option after the other, and all reports. -/
def tessellateEach (m : Model) : List Bool → Model × List Diagnostic
  | [] => (m, [])
  | smooth :: later =>
    let (after, reports) := m.tessellateAll smooth
    let (last, further) := after.tessellateEach later
    (last, reports ++ further)

/-- Nor has any later round. -/
theorem tessellateEach_tessellateAll (m : Model) (smooth : Bool) (later : List Bool) :
    (m.tessellateAll smooth).1.tessellateEach later = ((m.tessellateAll smooth).1, []) := by
  induction later with
  | nil => rfl
  | cons next later ih =>
    rw [tessellateEach, tessellateAll_tessellateAll]
    dsimp only
    rw [ih]
    rfl

/-- **Tessellating a model settles the polygons of its objects.**  None is left pending, and those
that were not pending are as before.  Nothing but meshes of these polygons has changed.  There is
one report for each polygon that was pending and has failed, in the order of a depth-first walk
through the objects.  Rounds that follow, with whatever options, change and report nothing. -/
theorem tessellateAll_settles (m : Model) (smooth : Bool) :
    let after := (m.tessellateAll smooth).1
    let polygonsBefore := m.features.flatMap (·.polygons)
    let polygonsAfter := after.features.flatMap (·.polygons)
    (∀ p ∈ polygonsAfter, p.mesh ≠ .pending) ∧
    List.Forall₂ (fun p q => p.mesh ≠ .pending → q = p) polygonsBefore polygonsAfter ∧
    after.mapPolygons Polygon.withoutMesh = m.mapPolygons Polygon.withoutMesh ∧
    List.Forall₂ (fun change report => ∃ failure, change.2.mesh = .failed failure ∧
        report = ⟨.tessellation failure, change.2.id⟩)
      ((polygonsBefore.zip polygonsAfter).filter fun change =>
        change.1.mesh = .pending ∧ change.2.failure?.isSome)
      (m.tessellateAll smooth).2 ∧
    ∀ later : List Bool, after.tessellateEach later = (after, []) := by
  intro after polygonsBefore polygonsAfter
  have hbefore : polygonsBefore = m.polygons := m.polygons_eq_flatMap_features.symm
  have hafter : polygonsAfter = after.polygons := after.polygons_eq_flatMap_features.symm
  rw [hbefore, hafter]
  refine ⟨fun p hp => mesh_ne_pending_of_tessellateAll hp, ?_,
    m.mapPolygons_withoutMesh_tessellateAll smooth, ?_, m.tessellateEach_tessellateAll smooth⟩
  · rw [polygons_tessellateAll, List.forall₂_map_right_iff]
    exact List.forall₂_same.2 fun p _ hp => Polygon.tessellate_of_ne_pending hp smooth
  · exact forall₂_filter_filterMap (fun (p, q) => (isSome_tessellationReport? p q).symm)
      (fun (_, _) _ h => failure?_of_tessellationReport? h) (m.polygons.zip after.polygons)

end Model

end CityScene
