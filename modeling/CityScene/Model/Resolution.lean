import CityScene.Model.Binding

/-!
# Resolving references

References are recorded while a document is read.  One that is already answered is not kept; the
others stay pending until `finalize`, which first binds appearances, since painting may find targets
missing.
-/

namespace CityScene.Model

/-- Some object holds a polygon with this identifier. -/
def containsPolygon (m : Model) (id : String) : Bool :=
  m.features.any fun f => f.polygons.any (·.id == some id)

/-- A definition of the right kind, or a polygon, answers the reference. -/
def answers (m : Model) (r : Reference) : Bool :=
  match r.kind with
  | .polygon => m.containsPolygon r.id
  | kind => (m.resolve? r.id).any (·.kind == kind)

/-- Keeps a reference as pending, once. -/
def keepPending (m : Model) (r : Reference) : Model :=
  if m.pending.contains r then m else { m with pending := m.pending ++ [r] }

/-- Records a reference unless it is answered.  Polygon references always wait, as the objects are
not complete before the end. -/
def recordReference (m : Model) (r : Reference) : Model :=
  if r.kind ≠ .polygon ∧ m.answers r then m else m.keepPending r

/-- Paints all polygons, and records the targets that no polygon answers. -/
def bindAppearances (m : Model) : Model :=
  let paints := m.paints
  let missed := (m.missedTargets paints).map fun id => Reference.ofLink id .polygon none
  missed.foldl recordReference (m.mapPolygons (paintPolygon paints))

/-- The references of a list that are the first to mention their identifier as that kind. -/
def firstMentions : List Reference → List Reference
  | [] => []
  | r :: rest =>
    r :: (firstMentions rest).filter fun s => ¬ (s.id = r.id ∧ s.kind = r.kind)

/-- Binds appearances and drops the pending references that are answered by now.  Of the others the
first for each identifier and kind is returned. -/
def finalize (m : Model) : Model × List Reference :=
  let bound := m.bindAppearances
  let left := bound.pending.filter (!bound.answers ·)
  ({ bound with pending := left }, firstMentions left)

end CityScene.Model
