import CityScene.Proofs.Document.Contents
import CityScene.Proofs.Document.Meshes
import CityScene.Proofs.Tessellation.Basic

/-!
# The rings of a document

However wild a document is, the rings of the model that is read from it are fit to be tessellated:
their points are finite and three of them are different, and no geometry is without a polygon
(`rings_readEvents`).  Every ring is checked before it gets into a polygon, so this holds of what is
read as it is read; completing the model changes no ring.
-/

namespace CityScene

/-- All points are finite, and three of them are different. -/
def LinearRing.IsSound (r : LinearRing) : Prop :=
  (∀ p ∈ r.points, p.isFinite = true) ∧ 3 ≤ distinctCount r.points

/-- The rings are sound, and tessellation does not say otherwise if it has been tried. -/
def Polygon.IsSound (p : Polygon) : Prop :=
  (∀ r ∈ p.rings, r.IsSound) ∧
    ∀ failure, p.mesh = .failed failure → failure.isRingFault = false

namespace Polygon

/-- Sound rings are not refused by tessellation. -/
theorem isRingFault_of_tessellate {p : Polygon} (h : ∀ r ∈ p.rings, r.IsSound) {smooth : Bool}
    {failure : Tessellation.Failure Float}
    (hfailure : Tessellation.tessellate p.exterior.points (p.interiors.map (·.points)) smooth =
      .error failure) : failure.isRingFault = false := by
  refine Tessellation.isRingFault_of_tessellateWith hfailure fun ring hring => ?_
  obtain ⟨r, hr, rfl⟩ : ∃ r ∈ p.rings, r.points = ring := List.mem_map.1 hring
  exact h r hr

theorem stable_isSound : Stable IsSound where
  tessellate p smooth h := by
    rw [tessellate]
    split
    · refine ⟨h.1, fun failure hfailed => ?_⟩
      dsimp only at hfailed
      rw [tessellation] at hfailed
      split at hfailed
      · cases hfailed
      · next hfailure =>
        cases hfailed
        exact isRingFault_of_tessellate h.1 hfailure
    · exact h
  paint p a h := by cases a <;> exact h

end Polygon

namespace Config

variable {config : Config}

/-- The places that points are moved to are finite. -/
def MovesFinitely (config : Config) : Prop :=
  ∀ r, config.reprojection = some r → ∀ name p q, p.isFinite = true →
    r.transform name p = some q → q.isFinite = true

theorem isFinite_of_givesPoint (h : config.MovesFinitely) {p : Vec3 Float}
    (hp : config.GivesPoint p) : p.isFinite = true := by
  rcases hp with hp | ⟨r, hr, name, q, hq, hmoved⟩
  · exact hp
  · exact h r hr name q p hq hmoved

theorem isSound_of_givesRing (h : config.MovesFinitely) {r : LinearRing}
    (hr : config.GivesRing r) : r.IsSound := by
  obtain ⟨points, hpoints, haccepted⟩ := hr
  exact ⟨fun p hp => isFinite_of_givesPoint h
    (hpoints p (LinearRing.points_subset_of_ofPoints haccepted hp)),
    (LinearRing.of_ofPoints_eq_ok haccepted).2.2⟩

theorem isSound_of_givesPolygon (h : config.MovesFinitely) {p : Polygon}
    (hp : config.GivesPolygon p) : p.IsSound := by
  obtain ⟨pending, hrings, hmesh, -, rfl⟩ := hp
  have hsound : pending.IsSound :=
    ⟨fun r hr => isSound_of_givesRing h (hrings r hr), fun _ hfailed => by
      rw [hmesh] at hfailed
      cases hfailed⟩
  exact Polygon.stable_isSound.meshed config hsound

end Config

namespace Document

/-- No geometry is without a polygon, and the rings of all polygons are sound. -/
def SoundModel (m : Model) : Prop :=
  ∀ g ∈ m.geometries ++ m.templates, g.polygons ≠ [] ∧ ∀ p ∈ g.polygons, p.IsSound

/-- A change of the polygons of objects gets to no template and leaves no geometry empty. -/
theorem SoundModel.mapPolygons {m m' : Model} {change : Polygon → Polygon}
    (h : SoundModel m) (hchange : ∀ p, p.IsSound → (change p).IsSound)
    (hgeometries : m'.geometries = m.geometries.map (·.mapPolygons change))
    (htemplates : m'.templates = m.templates) : SoundModel m' := by
  intro g hg
  rw [hgeometries, htemplates] at hg
  rcases List.mem_append.1 hg with hg | hg
  · obtain ⟨g₀, hg₀, rfl⟩ := List.mem_map.1 hg
    obtain ⟨hne, hsound⟩ := h g₀ (List.mem_append_left _ hg₀)
    exact ⟨mt List.map_eq_nil_iff.1 hne,
      List.forall_mem_map.2 fun p hp => hchange p (hsound p hp)⟩
  · exact h g (List.mem_append_right _ hg)

theorem SoundModel.tessellateAll {m : Model} (h : SoundModel m) (smooth : Bool) :
    SoundModel (m.tessellateAll smooth).1 :=
  h.mapPolygons (fun p => Polygon.stable_isSound.tessellate p smooth)
    (m.geometries_tessellateAll smooth) (m.templates_tessellateAll smooth)

theorem SoundModel.finalize {m : Model} (h : SoundModel m) : SoundModel m.finalize.1 :=
  h.mapPolygons (fun _ => Polygon.stable_isSound.paintPolygon m.paints) m.geometries_finalize
    m.templates_finalize

theorem soundModel_readEvents {config : Config} (hmoves : config.MovesFinitely)
    {events : List Event} {outcome : Outcome} (h : readEvents config events = .ok outcome) :
    SoundModel outcome.model := by
  obtain ⟨b, hb, -, rfl⟩ := Builder.exists_of_readEvents_eq_ok h
  have hsound : SoundModel b.model := fun g hg => by
    obtain ⟨hne, hpolygons⟩ := (Config.gives_of_applyAll hb).model.givesGeometry hg
    exact ⟨hne, fun p hp => Config.isSound_of_givesPolygon hmoves (hpolygons p hp)⟩
  by_cases hmode : config.mode = .deferred
  · rw [Builder.complete_of_deferred hmode]
    exact (hsound.tessellateAll config.smooth).finalize
  · rw [Builder.complete_of_not_deferred hmode]
    exact hsound.finalize

theorem of_isRingFault_eq_false {failure : Tessellation.Failure Float}
    (h : failure.isRingFault = false) :
    (∀ ring count, failure ≠ .tooFewPoints ring count) ∧
      ∀ ring, failure ≠ .nonFiniteCoordinate ring := by
  constructor
  · rintro ring count rfl
    cases h
  · rintro ring rfl
    cases h

/-- **The rings of a document are fit to be tessellated.**  In a model that is read without moving
points, or with moving finite points to finite ones, every geometry has a polygon, be it that of an
object or a template, and the rings of all polygons have finite points only, at least three of them
different.  So tessellation refuses none of their rings on its own. -/
theorem rings_readEvents {config : Config} (hmoves : config.MovesFinitely) {events : List Event}
    {outcome : Outcome} (h : readEvents config events = .ok outcome) :
    ∀ g ∈ outcome.model.geometries ++ outcome.model.templates, g.polygons ≠ [] ∧
      ∀ p ∈ g.polygons,
        (∀ r ∈ p.rings, (∀ q ∈ r.points, q.isFinite = true) ∧
          ∃ picked : List (Vec3 Float), picked.Sublist r.points ∧ 3 ≤ picked.length ∧
            picked.Pairwise fun q q' => (q == q') = false) ∧
        (∀ smooth failure, Tessellation.tessellate p.exterior.points (p.interiors.map (·.points))
            smooth = .error failure →
          (∀ ring count, failure ≠ .tooFewPoints ring count) ∧
            ∀ ring, failure ≠ .nonFiniteCoordinate ring) ∧
        ∀ failure, p.mesh = .failed failure →
          (∀ ring count, failure ≠ .tooFewPoints ring count) ∧
            ∀ ring, failure ≠ .nonFiniteCoordinate ring := by
  intro g hg
  obtain ⟨hne, hpolygons⟩ := soundModel_readEvents hmoves h g hg
  refine ⟨hne, fun p hp => ⟨fun r hr => ?_, fun smooth failure hfailure => ?_,
    fun failure hfailed => of_isRingFault_eq_false ((hpolygons p hp).2 failure hfailed)⟩⟩
  · obtain ⟨hfinite, hcount⟩ := (hpolygons p hp).1 r hr
    obtain ⟨picked, hsublist, hlength, hpairwise⟩ := exists_distinct_sublist r.points
    exact ⟨hfinite, picked, hsublist, hlength ▸ hcount, hpairwise⟩
  · exact of_isRingFault_eq_false (Polygon.isRingFault_of_tessellate (hpolygons p hp).1 hfailure)

/-- Points are moved by swapping the first two axes. -/
def swappedAxes : Config where
  mode := .deferred
  reprojection := some { transform := fun _ p => some ⟨p.y, p.x, p.z⟩ }

/-- A triangle in a named system, with a hole that has two different points only. -/
def namedTriangle : List Event :=
  let ring (role text : String) : List Event :=
    [.opened role [], .opened "gml:LinearRing" [], .opened "gml:posList" [], .text text,
     .closed "gml:posList", .closed "gml:LinearRing", .closed role]
  let triangle : List Event := ring "gml:exterior" "0 1 2 4 1 2 4 3 2 0 1 2"
  [.opened "bldg:Building" [],
   .opened "bldg:lod1MultiSurface" [("srsName", "EPSG:4326")],
   .opened "gml:Polygon" []] ++ triangle ++ [.closed "gml:Polygon",
   .opened "gml:Polygon" []] ++ triangle ++ ring "gml:interior" "1 1 2 2 1 2 1 1 2" ++
  [.closed "gml:Polygon",
   .closed "bldg:lod1MultiSurface",
   .closed "bldg:Building"]

theorem rings_namedTriangle :
    ∃ outcome, readEvents swappedAxes namedTriangle = .ok outcome ∧
      outcome.model.geometries.map (·.polygons.map fun p => p.rings.map (·.points)) =
        [[[[⟨1, 0, 2⟩, ⟨1, 4, 2⟩, ⟨3, 4, 2⟩]]]] ∧
      ∀ g ∈ outcome.model.geometries, ∀ p ∈ g.polygons, ∀ r ∈ p.rings,
        ∀ q ∈ r.points, q.isFinite = true := by
  have hmoves : swappedAxes.MovesFinitely := by
    rintro r hr name p q hp hq
    cases hr
    cases hq
    obtain ⟨hxy, hz⟩ := Bool.and_eq_true_iff.1 hp
    obtain ⟨hx, hy⟩ := Bool.and_eq_true_iff.1 hxy
    exact isFinite_mk hy hx hz
  have hpoints : (readEvents swappedAxes namedTriangle).toOption.map
      (·.model.geometries.map (·.polygons.map fun p => p.rings.map (·.points))) =
        some [[[[⟨1, 0, 2⟩, ⟨1, 4, 2⟩, ⟨3, 4, 2⟩]]]] := by decide +kernel
  obtain ⟨outcome, h⟩ := exists_readEvents_of_gridless swappedAxes
    (nestAll_eq_nil_iff.1 (by decide) : WellNested namedTriangle) (by decide)
  rw [h] at hpoints
  exact ⟨outcome, h, Option.some.inj hpoints, fun g hg p hp r hr =>
    ((rings_readEvents hmoves h g (List.mem_append_left _ hg)).2 p hp).1 r hr |>.1⟩

end Document

end CityScene
