import CityScene.Model.Tessellation
import CityScene.Proofs.Model.Painting

/-!
# What completing a model keeps

Completing a model and tessellating it do no more to a polygon than tessellate it or put paints on
it.  So a property of polygons that these two keep (`Polygon.Stable`) holds of a completed model if
it has held of the model before.  The geometries of objects change by their polygons only, and
templates do not change at all.
-/

namespace CityScene

/-- A property of polygons that neither tessellation nor paint takes away. -/
structure Polygon.Stable (P : Polygon → Prop) : Prop where
  tessellate : ∀ p smooth, P p → P (p.tessellate smooth)
  paint : ∀ p a, P p → P (Polygon.paint p a)

namespace Polygon.Stable

variable {P : Polygon → Prop}

theorem foldl_paint (hP : Stable P) (paints : List Paint) {p : Polygon} (hp : P p) :
    P (paints.foldl Polygon.paint p) := by
  induction paints generalizing p with
  | nil => exact hp
  | cons a paints ih => exact ih (hP.paint p a hp)

theorem paintPolygon (hP : Stable P) (paints : List (String × Paint)) {p : Polygon} (hp : P p) :
    P (Model.paintPolygon paints p) := by
  rw [Model.paintPolygon]
  split
  · exact hp
  · exact hP.foldl_paint _ hp

end Polygon.Stable

/-! ### Geometries and templates -/

/-- The geometry of an inline template. -/
def Template.inlined? (t : Template) : Option Geometry :=
  match t with
  | .inline geometry => some geometry
  | _ => .none

/-- The geometry of a definition, if that is a template. -/
def Definition.template? (d : Definition) : Option Geometry :=
  match d with
  | .template geometry => some geometry
  | _ => none

namespace Model

/-- The geometries of all objects, in document order. -/
def geometries (m : Model) : List Geometry :=
  (Tree.forestLabels m.objects).flatMap (·.geometries)

/-- The geometries of all templates, those that objects carry inline before the defined ones. -/
def templates (m : Model) : List Geometry :=
  (Tree.forestLabels m.objects).flatMap (fun f => f.implicits.filterMap (·.template.inlined?)) ++
    m.registry.entries.filterMap (·.2.template?)

theorem polygons_eq (m : Model) : m.polygons = m.geometries.flatMap (·.polygons) :=
  List.flatMap_assoc.symm

theorem geometries_mapPolygons (m : Model) (change : Polygon → Polygon) :
    (m.mapPolygons change).geometries = m.geometries.map (·.mapPolygons change) := by
  rw [geometries, mapPolygons, Tree.forestLabels_map, List.flatMap_map, geometries,
    List.map_flatMap]
  rfl

theorem templates_mapPolygons (m : Model) (change : Polygon → Polygon) :
    (m.mapPolygons change).templates = m.templates := by
  rw [templates, mapPolygons, Tree.forestLabels_map, List.flatMap_map, templates]
  rfl

theorem geometries_finalize (m : Model) :
    m.finalize.1.geometries = m.geometries.map (·.mapPolygons (paintPolygon m.paints)) := by
  rw [finalize_eq]
  exact m.geometries_mapPolygons _

theorem templates_finalize (m : Model) : m.finalize.1.templates = m.templates := by
  rw [finalize_eq]
  exact m.templates_mapPolygons _

theorem geometries_tessellateAll (m : Model) (smooth : Bool) :
    (m.tessellateAll smooth).1.geometries =
      m.geometries.map (·.mapPolygons (·.tessellate smooth)) :=
  m.geometries_mapPolygons _

theorem templates_tessellateAll (m : Model) (smooth : Bool) :
    (m.tessellateAll smooth).1.templates = m.templates :=
  m.templates_mapPolygons _

end Model

/-! ### Stable properties of models -/

section Stable

variable {P : Polygon → Prop}

theorem Polygon.Stable.finalize (hP : Stable P) {m : Model} (hm : ∀ p ∈ m.polygons, P p) :
    ∀ p ∈ m.finalize.1.polygons, P p := by
  rw [Model.finalize_eq]
  show ∀ p ∈ (m.mapPolygons _).polygons, P p
  rw [Model.polygons_mapPolygons, List.forall_mem_map]
  exact fun p hp => hP.paintPolygon m.paints (hm p hp)

theorem Polygon.Stable.tessellateAll (hP : Stable P) {m : Model} (hm : ∀ p ∈ m.polygons, P p)
    (smooth : Bool) : ∀ p ∈ (m.tessellateAll smooth).1.polygons, P p := by
  rw [Model.tessellateAll, Model.polygons_mapPolygons, List.forall_mem_map]
  exact fun p hp => hP.tessellate p smooth (hm p hp)

end Stable

end CityScene
