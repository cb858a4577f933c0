import CityScene.Diagnostic
import CityScene.Model.Basic

/-!
# Tessellating a model

Every polygon of every object gets its mesh at most once; a polygon whose tessellation failed is not
tried again.
-/

namespace CityScene.Model

/-- The report on a polygon that had no mesh before and has failed to get one. -/
def tessellationReport? (before after : Polygon) : Option Diagnostic :=
  if before.isTessellated then none
  else after.failure?.map fun failure => ⟨.tessellation failure, after.id⟩

/-- Tessellates every polygon that is still pending and reports those that fail. -/
def tessellateAll (m : Model) (smooth : Bool) : Model × List Diagnostic :=
  let after := m.mapPolygons (·.tessellate smooth)
  (after, (m.polygons.zip after.polygons).filterMap fun (p, q) => tessellationReport? p q)

end CityScene.Model
