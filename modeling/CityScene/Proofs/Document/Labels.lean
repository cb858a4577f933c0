import CityScene.Proofs.Document.Frames
import CityScene.Proofs.Model.Stable
import CityScene.Proofs.Surface.Ring

/-!
# Labels of geometry

Points are moved to another reference system one position text at a time, and only where a service
is configured, a system is in effect and the service does not decline (`Placed`).  The label of a
geometry is chosen later, when its property closes: the destination if the configuration names one,
and otherwise what the document states (`labels_readEvents`).

The two do not look at each other.  So geometry that nothing was done to is labelled with the
destination as well (`label_declinedTriangle`).
-/

namespace CityScene.Document

/-- The points that have been collected for an open element. -/
def Frame.points : Frame → List (Vec3 Float)
  | geometry g => g.polygons.flatMap fun p => p.rings.flatMap (·.points)
  | polygon p => (p.exterior.toList ++ p.interiors).flatMap (·.points)
  | boundary _ accepted => accepted.toList.flatMap (·.points)
  | ring r => r.points
  | _ => []

/-- A point is read from a position text, where a system is in effect or none is, inside a template
or outside. -/
def ReadAs (config : Config) (events : List Event) (system : Option String) (inTemplate : Bool)
    (p : Vec3 Float) : Prop :=
  ∃ b e outer t kind points, Meets config events b (.closed e.name) ∧ b.stack = e :: outer ∧
    e.frame = .text t ∧ t.element = .positions kind ∧
    kind.read t.attributes (b.dimension? e.srs t.attributes) (Text.trimmed t.content) =
      .ok points ∧ p ∈ points ∧
    system = (e.srs <|> b.model.srs) ∧ inTemplate = Stack.inTemplate outer

/-- Points stand where the service has moved them, or as they are written where it moves nothing. -/
inductive Placed (config : Config) (events : List Event) (p : Vec3 Float) : Prop
  | moved {r : Reprojection} {name : String} {q : Vec3 Float} (hr : config.reprojection = some r)
      (hread : ReadAs config events (some name) false q) (hmoved : r.transform name q = some p)
  | kept {system : Option String} {inTemplate : Bool}
      (hread : ReadAs config events system inTemplate p)
      (hkept : ∀ r name, config.reprojection = some r → system = some name → inTemplate = false →
        r.transform name p = none)

variable {config : Config} {events : List Event}

/-- What a position text gives to its ring. -/
theorem placed_reproject {b : Builder} {e : OpenElement} {outer : Stack} {t : TextParts}
    {kind : PositionText} {points : List (Vec3 Float)}
    (hmeets : Meets config events b (.closed e.name)) (hs : b.stack = e :: outer)
    (hframe : e.frame = .text t) (ht : t.element = .positions kind)
    (hread : kind.read t.attributes (b.dimension? e.srs t.attributes) (Text.trimmed t.content) =
      .ok points) :
    ∀ p ∈ Builder.reproject config { b with stack := outer } e.srs points,
      Placed config events p := by
  have hwritten : ∀ q ∈ points,
      ReadAs config events (e.srs <|> b.model.srs) (Stack.inTemplate outer) q := fun q hq =>
    ⟨b, e, outer, t, kind, points, hmeets, hs, hframe, ht, hread, hq, rfl, rfl⟩
  rw [Builder.reproject]
  dsimp only
  split
  · next r name hr hsystem =>
    rw [hsystem] at hwritten
    cases htemplate : Stack.inTemplate outer with
    | true =>
      rw [if_pos rfl]
      exact fun p hp => .kept (hwritten p hp) fun _ _ _ _ hfalse => by
        rw [htemplate] at hfalse; cases hfalse
    | false =>
      rw [if_neg Bool.false_ne_true]
      rw [htemplate] at hwritten
      intro p hp
      obtain ⟨q, hq, rfl⟩ := List.mem_map.1 hp
      cases hmoved : r.transform name q with
      | some p => exact .moved hr (hwritten q hq) hmoved
      | none =>
        refine .kept (hwritten q hq) fun r' name' hr' hname _ => ?_
        rw [← Option.some.inj (hr.symm.trans hr'), ← Option.some.inj hname]
        exact hmoved
  · next hnone =>
    exact fun p hp => .kept (hwritten p hp) fun r name hr hname _ => absurd hname (hnone r name hr)

theorem points_of_not_isSpatial {f : Frame} (hf : f.isSpatial = false) : f.points = [] := by
  cases f with
  | geometry | polygon | boundary | ring => cases hf
  | _ => rfl

/-- Where no point has been collected, none is out of place. -/
theorem placed_of_points_eq_nil {f : Frame} (hf : f.points = []) :
    ∀ p ∈ f.points, Placed config events p := by
  rw [hf]
  exact fun _ hp => absurd hp List.not_mem_nil

/-- Where an accepted ring is added to those of a polygon, its points are the only new ones. -/
theorem points_addRing (p : PolygonParts) (role : RingRole) (ring : LinearRing) :
    (Frame.polygon (p.addRing role ring)).points ⊆ ring.points ++ (Frame.polygon p).points := by
  intro q hq
  cases role with
  | exterior =>
    obtain ⟨r, hr, hqr⟩ := List.mem_flatMap.1 hq
    rcases List.mem_cons.1 hr with rfl | hr
    · exact List.mem_append_left _ hqr
    · exact List.mem_append_right _ (List.mem_flatMap.2 ⟨r, List.mem_append_right _ hr, hqr⟩)
  | interior =>
    obtain ⟨r, hr, hqr⟩ := List.mem_flatMap.1 hq
    rw [PolygonParts.addRing, ← List.append_assoc] at hr
    rcases List.mem_append.1 hr with hr | hr
    · exact List.mem_append_right _ (List.mem_flatMap.2 ⟨r, hr, hqr⟩)
    · exact List.mem_append_left _ (List.mem_singleton.1 hr ▸ hqr)

/-- Points go from ring to boundary, polygon and geometry. -/
theorem placed_laws (config : Config) (events : List Event) :
    FrameLaws config events fun f => ∀ p ∈ f.points, Placed config events p where
  other hf := placed_of_points_eq_nil (points_of_not_isSpatial hf)
  begun _ _ _ hbegun := by
    cases hbegun with
    | other _ hf => exact placed_of_points_eq_nil (points_of_not_isSpatial hf)
    | _ => exact placed_of_points_eq_nil rfl
  noted hnoted h := by
    cases hnoted with
    | nothing => exact h
    | geometry g kind id srs =>
      rw [Frame.points, GeometryParts.polygons_note]
      exact h
    | other _ hf' => exact placed_of_points_eq_nil (points_of_not_isSpatial hf')
    | _ => exact placed_of_points_eq_nil rfl
  handed hmeets hs hframe hf hsource h := by
    cases hf with
    | nothing | refusal | noPoints => exact h
    | polygon hvalid hexterior g =>
      intro q hq
      rw [Frame.points, List.flatMap_append] at hq
      rcases List.mem_append.1 hq with hq | hq
      · exact h q hq
      · rw [List.flatMap_singleton, (Config.keepsRings_meshed config).rings] at hq
        rw [Frame.points, hexterior] at hsource
        exact hsource q hq
    | boundary role ring p =>
      intro q hq
      rcases List.mem_append.1 (points_addRing p role ring hq) with hq | hq
      · exact hsource q (List.mem_flatMap.2 ⟨ring, List.mem_singleton_self ring, hq⟩)
      · exact h q hq
    | ring hvalid hring role old =>
      intro q hq
      rw [Frame.points, Option.toList_some, List.flatMap_singleton] at hq
      exact hsource q (LinearRing.points_subset_of_ofPoints hring hq)
    | points ht hread r =>
      intro q hq
      rcases List.mem_append.1 hq with hq | hq
      · exact h q hq
      · exact placed_reproject hmeets hs hframe ht hread q hq
    | other _ _ hf' => exact placed_of_points_eq_nil (points_of_not_isSpatial hf')
    | _ => exact placed_of_points_eq_nil rfl

/-- **The label does not depend on what was done to the points.**  It is the destination whenever
the configuration names one, and otherwise what was noted of the document; the points have been
moved or left where they are one by one. -/
theorem labels_readEvents {outcome : Outcome} (h : readEvents config events = .ok outcome)
    {g : Geometry} (hg : g ∈ outcome.model.geometries) :
    ∃ parts, Completes config events (.geometry parts) ∧ parts.isTemplate = false ∧
      g.lod = parts.lod ∧ g.id = parts.id ∧
      g.polygons.map (·.rings) = parts.polygons.map (·.rings) ∧
      g.srs = (config.destination? <|> parts.srs) ∧
      ∀ p ∈ g.polygons.flatMap fun p => p.rings.flatMap (·.points), Placed config events p := by
  obtain ⟨f, hf, hg⟩ := List.mem_flatMap.1 hg
  obtain ⟨given, change, hgiven, hchange, rfl⟩ := stocked_of_readEvents h hf
  obtain ⟨before, hbefore, rfl⟩ := List.mem_map.1 hg
  obtain ⟨parts, hends, htemplate, rfl⟩ := hgiven.geometries before hbefore
  have hrings : ((Builder.geometryOf config parts).mapPolygons change).polygons.map (·.rings) =
      parts.polygons.map (·.rings) := by
    rw [Geometry.mapPolygons, List.map_map]
    exact List.map_congr_left fun p _ => hchange.rings p
  refine ⟨parts, hends, htemplate, rfl, rfl, hrings, ?_, fun p hp => ?_⟩
  · rw [Geometry.mapPolygons, Builder.geometryOf, htemplate]
    rfl
  · rw [← List.flatMap_map, hrings, List.flatMap_map] at hp
    exact (placed_laws config events).of_completes hends p hp

/-- A service that declines every point, with a destination all the same. -/
def declining : Config where
  reprojection := some { transform := fun _ _ => none, destination := some "EPSG:4978" }

/-- A triangle in a named system. -/
def declinedTriangle : List Event :=
  [.opened "bldg:Building" [("gml:id", "B")],
   .opened "bldg:lod1MultiSurface" [],
   .opened "gml:MultiSurface" [("srsName", "EPSG:25832")],
   .opened "gml:Polygon" [], .opened "gml:exterior" [], .opened "gml:LinearRing" [],
   .opened "gml:posList" [], .text "0 0 0 4 0 0 4 3 0", .closed "gml:posList",
   .closed "gml:LinearRing", .closed "gml:exterior", .closed "gml:Polygon",
   .closed "gml:MultiSurface",
   .closed "bldg:lod1MultiSurface",
   .closed "bldg:Building"]

theorem exists_declinedTriangle :
    ∃ outcome, readEvents declining declinedTriangle = .ok outcome ∧
      outcome.model.geometries.map (fun g => (g.srs, g.polygons.map (·.exterior.points))) =
        [(some "EPSG:4978", [[⟨0, 0, 0⟩, ⟨4, 0, 0⟩, ⟨4, 3, 0⟩]])] :=
  exists_of_toOption_map (by decide +kernel)

theorem labels_declinedTriangle :
    ∃ outcome, readEvents declining declinedTriangle = .ok outcome ∧
      ∃ g ∈ outcome.model.geometries, ∃ parts,
        Completes declining declinedTriangle (.geometry parts) ∧ parts.isTemplate = false ∧
        g.lod = parts.lod ∧ g.id = parts.id ∧
        g.polygons.map (·.rings) = parts.polygons.map (·.rings) ∧
        g.srs = (some "EPSG:4978" <|> parts.srs) ∧
        ∀ p ∈ g.polygons.flatMap fun p => p.rings.flatMap (·.points),
          Placed declining declinedTriangle p := by
  obtain ⟨outcome, h, hlabels⟩ := exists_declinedTriangle
  obtain ⟨g, hg, -⟩ := List.mem_map.1 (hlabels ▸ List.mem_singleton_self _)
  exact ⟨outcome, h, g, hg, labels_readEvents h hg⟩

/-- Every point stands where it is written, and yet the label is the destination. -/
theorem label_declinedTriangle :
    ∃ outcome, readEvents declining declinedTriangle = .ok outcome ∧
      ∃ g ∈ outcome.model.geometries, g.srs = some "EPSG:4978" ∧
        g.polygons.map (·.exterior.points) = [[⟨0, 0, 0⟩, ⟨4, 0, 0⟩, ⟨4, 3, 0⟩]] := by
  obtain ⟨outcome, h, hlabels⟩ := exists_declinedTriangle
  obtain ⟨g, hg, hlabel⟩ := List.mem_map.1 (hlabels ▸ List.mem_singleton_self _)
  exact ⟨outcome, h, g, hg, Prod.mk.inj hlabel⟩

end CityScene.Document
