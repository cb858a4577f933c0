import CityScene.Proofs.Model.Bindings
import CityScene.Proofs.Model.Polygons

/-!
# What appearances put on polygons

Under a theme, polygons are targeted by the surface data of the model's own appearances, in the
order of registration, then of the appearance's list, then of the targets (`Model.targets`).  A
completed model has on every polygon the last material and the last texture that target it
(`bindings_finalize`); targets that no polygon answers are returned as unresolved.

The paints of a model stand in the same order with all themes mixed.  Those of one theme that are
for one polygon are the targets of that theme and that polygon (`filter_paints`).
-/

namespace CityScene

/-- The paint that surface data puts on a target under a theme. -/
def SurfaceData.paint (d : SurfaceData) (theme : String) (t : SurfaceTarget) : Paint :=
  match d.surfacing with
  | .material _ => .material theme d.id
  | .texture _ => .texture theme d.id t.rings

namespace Paint

/-- The material that a paint binds. -/
def material? : Paint → Option String
  | material _ id => some id
  | texture _ _ _ => none

/-- The texture that a paint binds. -/
def texture? : Paint → Option String
  | material _ _ => none
  | texture _ id _ => some id

end Paint

namespace Model

/-! ### Targets -/

/-- The appearances under a theme that the model defines, in the order of registration. -/
def appearancesUnder (m : Model) (theme : String) : List Appearance :=
  m.registry.entries.filterMap fun e =>
    match e.2 with
    | .appearance a => if a.theme = theme then some a else none
    | _ => none

/-- The surface data that an appearance lists, where the model or else the shared registry defines
it. -/
def surfaceDataOf (m : Model) (a : Appearance) : List SurfaceData :=
  a.surfaceData.filterMap fun id =>
    match m.resolve? id with
    | some (.surfaceData d) => some d
    | _ => none

/-- What an appearance targets, with the surface data that it is targeted by. -/
def targetsOf (m : Model) (a : Appearance) : List (SurfaceData × SurfaceTarget) :=
  (m.surfaceDataOf a).flatMap fun d => d.targets.map fun t => (d, t)

/-- The targets under a theme. -/
def targets (m : Model) (theme : String) : List (SurfaceData × SurfaceTarget) :=
  (m.appearancesUnder theme).flatMap m.targetsOf

theorem mem_pending_recordReference (m : Model) {r : Reference} (h : r.kind = .polygon) :
    r ∈ (m.recordReference r).pending := by
  rw [recordReference, if_neg fun hr => hr.1 h, keepPending]
  split
  · next hcontains => exact List.contains_iff_mem.1 hcontains
  · exact List.mem_append_right _ (List.mem_singleton_self r)

/-- References to polygons wait until the model is complete, whatever it holds. -/
theorem mem_pending_foldl_recordReference {references : List Reference} {r : Reference}
    (hr : r ∈ references) (hkind : r.kind = .polygon) (m : Model) :
    r ∈ (references.foldl recordReference m).pending := by
  -- kept when it comes, and nothing after it drops what is pending
  obtain ⟨before, after, rfl⟩ := List.append_of_mem hr
  obtain ⟨kept, -, hafter⟩ := exists_foldl_recordReference
    ((before.foldl recordReference m).recordReference r) after
  rw [List.foldl_append, List.foldl_cons, hafter]
  exact List.mem_append_left _ (mem_pending_recordReference _ hkind)

/-- Binding appearances changes nothing but polygons and what is pending. -/
theorem bindAppearances_eq (m : Model) : m.bindAppearances =
    { m.mapPolygons (paintPolygon m.paints) with pending := m.bindAppearances.pending } := by
  obtain ⟨kept, -, hbound⟩ := exists_foldl_recordReference (m.mapPolygons (paintPolygon m.paints))
    ((m.missedTargets m.paints).map fun id => Reference.ofLink id .polygon none)
  rw [bindAppearances, hbound]

theorem finalize_eq (m : Model) : m.finalize.1 =
    { m.mapPolygons (paintPolygon m.paints) with pending := m.finalize.1.pending } := by
  rw [finalize, bindAppearances_eq]

end Model

end CityScene
