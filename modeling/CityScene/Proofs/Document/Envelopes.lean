import CityScene.Proofs.Document.Nesting
import CityScene.Proofs.Feature.Points

/-!
# The envelopes of a document

While a document is read, the envelope of an open object is the hull of what its finished children
carry, and the envelope of the model is the hull of what the finished objects carry; all finished
objects are tight (`Scaffold.IsTight`).  What an object carries itself comes in at once when it is
closed, so it does not matter in which order its geometry and its children were read.

Completing the document changes no ring, so the finished model is tight, too
(`isTight_readEvents`), and everything about its envelopes follows from what hulls are.
-/

namespace CityScene.Document

open Envelope

/-- The envelope of an open object is the hull of what is below it, and the objects below are
tight. -/
def ObjectCore.IsTight (core : ObjectCore) : Prop :=
  IsHullOf core.envelope (Carried core.children) ∧ Tight core.children

theorem ObjectCore.IsTight.add {core : ObjectCore} (h : core.IsTight) {child : CityObject}
    (hchild : Tight [child]) : (core.add child).IsTight := by
  refine ⟨?_, tight_append h.2 hchild⟩
  exact (h.1.union hchild.isHullOf).congr fun p => (carried_append _ _ p).symm

/-- All open objects are tight. -/
def TightLevels (levels : List Level) : Prop :=
  ∀ l ∈ levels, ∀ core, l.object = some core → core.IsTight

theorem TightLevels.attachTo {child : CityObject} {s t : List Level} (h : TightLevels s)
    (hchild : Tight [child]) (ht : attachTo child s = some t) : TightLevels t := by
  induction s generalizing t with
  | nil => cases ht
  | cons l outer ih =>
    have hl := h l List.mem_cons_self
    have houter : TightLevels outer := fun l' hl' => h l' (List.mem_cons_of_mem _ hl')
    rw [Document.attachTo] at ht
    split at ht
    · next core hobject =>
      obtain rfl := Option.some.inj ht
      intro l' hl' core' hobject'
      rcases List.mem_cons.1 hl' with rfl | hl'
      · obtain rfl := Option.some.inj hobject'
        exact (hl core hobject).add hchild
      · exact houter l' hl' core' hobject'
    · obtain ⟨outer', houter', rfl⟩ := Option.map_eq_some_iff.1 ht
      intro l' hl'
      rcases List.mem_cons.1 hl' with rfl | hl'
      · exact hl
      · exact ih houter houter' l' hl'

namespace Scaffold

/-- The envelopes of the model and of all objects, open and finished, are hulls of what is there. -/
structure IsTight (s : Scaffold) : Prop where
  envelope : IsHullOf s.envelope (Carried s.objects)
  objects : Tight s.objects
  levels : TightLevels s.levels

theorem IsTight.push {s : Scaffold} (h : s.IsTight) {l : Level}
    (hl : ∀ core, l.object = some core → core.IsTight) : (s.push l).IsTight where
  envelope := h.envelope
  objects := h.objects
  levels l' hl' := by
    rcases List.mem_cons.1 hl' with rfl | hl'
    · exact hl
    · exact h.levels l' hl'

theorem IsTight.pop {s : Scaffold} (h : s.IsTight) : s.pop.IsTight where
  envelope := h.envelope
  objects := h.objects
  levels l hl := h.levels l (List.mem_of_mem_tail hl)

theorem IsTight.attach {s : Scaffold} (h : s.IsTight) {o : CityObject} (ho : Tight [o]) :
    (s.attach o).IsTight := by
  rw [Scaffold.attach]
  split
  · next levels hlevels => exact ⟨h.envelope, h.objects, h.levels.attachTo ho hlevels⟩
  · refine ⟨?_, tight_append h.objects ho, h.levels⟩
    exact (h.envelope.union ho.isHullOf).congr fun p => (carried_append _ _ p).symm

end Scaffold

namespace Builder

/-- **Every step keeps the envelopes tight.** -/
theorem ScaffoldStep.isTight {config : Config} {b : Builder} {e : Event} {s : Scaffold}
    (h : ScaffoldStep config b e s) (hb : b.scaffold.IsTight) : s.IsTight := by
  cases h with
  | offset bytes => exact hb
  | text content => exact hb
  | opened name attributes =>
    refine hb.push fun core hcore => ?_
    obtain ⟨⟨kind, id⟩, -, rfl⟩ := Option.map_eq_some_iff.1 hcore
    exact ⟨isHullOf_nothing, tight_nil⟩
  | closed hlevels hobject => exact hb.pop
  | dropped hlevels hprune => exact hb.pop
  | @attached l outer core f envelope hlevels hobject hid hkind henvelope hown =>
    have hcore : core.IsTight :=
      hb.levels l (by rw [hlevels]; exact List.mem_cons_self) core hobject
    refine hb.pop.attach (tight_node ?_ hown hcore.2)
    rw [henvelope]
    exact hcore.1

end Builder

theorem isTight_start (config : Config) : (Builder.start config).scaffold.IsTight :=
  ⟨isHullOf_nothing, tight_nil, fun _ hl => absurd hl List.not_mem_nil⟩

/-- **The finished model of a document is tight.** -/
theorem isTight_readEvents {config : Config} {events : List Event} {outcome : Outcome}
    (h : readEvents config events = .ok outcome) : outcome.model.IsTight := by
  obtain ⟨b, hb, -, rfl⟩ := Builder.exists_of_readEvents_eq_ok h
  have htight : b.scaffold.IsTight :=
    Builder.applyAll_invariant (P := fun b => b.scaffold.IsTight)
      (fun hstep hb => hstep.scaffold.isTight hb) hb
      (isTight_start config)
  exact (b.complete_sameShape config).isTight ⟨htight.envelope, htight.objects⟩

/-- **Every envelope of a document is the least box around what is there.**  The envelope of an
object of the finished model is the hull of the points that the object and all objects below carry,
and the envelope of the model is the hull of all of them.  So an envelope is invalid exactly if
there is no finite point, contains the envelopes of everything below, and has its lower corner below
the upper one.  Completing and tessellating a model, whether it was read or not, change no envelope.
-/
theorem envelopes_readEvents {config : Config} {events : List Event} {outcome : Outcome}
    (h : readEvents config events = .ok outcome) :
    let m := outcome.model
    (∀ t ∈ Tree.forestSubtrees m.objects,
      IsHullOf t.label.envelope (Carried [t]) ∧
      (t.label.envelope.isValid = false ↔ ∀ p, Carried [t] p → p.isFinite = false) ∧
      (∀ lower upper, t.label.envelope = .box lower upper → lower ≤ upper) ∧
      (∀ u ∈ t.subtrees, t.label.envelope.containsEnvelope u.label.envelope = true) ∧
      m.envelope.containsEnvelope t.label.envelope = true) ∧
    IsHullOf m.envelope (Carried m.objects) ∧
    (m.envelope.isValid = false ↔ ∀ p, Carried m.objects p → p.isFinite = false) ∧
    (∀ lower upper, m.envelope = .box lower upper → lower ≤ upper) ∧
    ∀ (m' : Model) (smooth : Bool), m'.finalize.1.envelopes = m'.envelopes ∧
      (m'.tessellateAll smooth).1.envelopes = m'.envelopes := by
  intro m
  obtain ⟨hmodel, htight⟩ : m.IsTight := isTight_readEvents h
  refine ⟨fun t ht => ?_, hmodel, hmodel.isValid_eq_false_iff,
    fun _ _ hbox => (hbox ▸ hmodel).lower_le_upper, fun m' smooth => ?_⟩
  · have hhull := htight t ht
    refine ⟨hhull, hhull.isValid_eq_false_iff, fun _ _ hbox => (hbox ▸ hhull).lower_le_upper,
      fun u hu => ?_, ?_⟩
    · have hu' : u ∈ Tree.forestSubtrees [t] := List.mem_append_left _ hu
      exact hhull.containsEnvelope (htight u (Tree.subtrees_subset_forestSubtrees ht hu))
        fun _ => Carried.mono (Tree.forestLabels_subset hu')
    · exact hmodel.containsEnvelope hhull fun _ => Carried.mono (Tree.forestLabels_subset ht)
  · exact ⟨(Model.SameShape.finalize m').envelopes_eq,
      (Model.SameShape.tessellateAll m' smooth).envelopes_eq⟩

/-- A surface with one polygon. -/
def surfaceAround (corners : String) : List Event :=
  [.opened "gml:MultiSurface" [], .opened "gml:surfaceMember" [], .opened "gml:Polygon" [],
   .opened "gml:exterior" [], .opened "gml:LinearRing" [], .opened "gml:posList" [],
   .text corners, .closed "gml:posList", .closed "gml:LinearRing", .closed "gml:exterior",
   .closed "gml:Polygon", .closed "gml:surfaceMember", .closed "gml:MultiSurface"]

/-- A building with one triangle, and a part of it that is a triangle placed elsewhere: stretched to
double size, moved along `x` by fifty and then by its reference point.  Beside them lies a relief, whose
grid has its last corner high up. -/
def placedPart : List Event :=
  [.opened "bldg:Building" [("gml:id", "B")], .opened "bldg:lod1MultiSurface" []] ++
  surfaceAround "0 0 0 4 0 0 4 3 0" ++
  [.closed "bldg:lod1MultiSurface", .opened "bldg:consistsOfBuildingPart" [],
   .opened "bldg:BuildingPart" [], .opened "bldg:lod1ImplicitRepresentation" [],
   .opened "core:ImplicitGeometry" [], .opened "core:transformationMatrix" [],
   .text "4 0 0 100 0 4 0 0 0 0 4 0 0 0 0 2", .closed "core:transformationMatrix",
   .opened "core:referencePoint" [], .opened "gml:Point" [], .opened "gml:pos" [],
   .text "-10 -20 -5", .closed "gml:pos", .closed "gml:Point", .closed "core:referencePoint",
   .opened "core:relativeGMLGeometry" []] ++
  surfaceAround "1 0 0 0 6 0 0 0 8" ++
  [.closed "core:relativeGMLGeometry", .closed "core:ImplicitGeometry",
   .closed "bldg:lod1ImplicitRepresentation", .closed "bldg:BuildingPart",
   .closed "bldg:consistsOfBuildingPart", .closed "bldg:Building",
   .opened "dem:RasterRelief" [], .opened "gml:RectifiedGridCoverage" [],
   .opened "gml:high" [], .text "1 1", .closed "gml:high",
   .opened "gml:origin" [], .opened "gml:Point" [], .opened "gml:pos" [], .text "0 0 0",
   .closed "gml:pos", .closed "gml:Point", .closed "gml:origin",
   .opened "gml:offsetVector" [], .text "1 0 0", .closed "gml:offsetVector",
   .opened "gml:offsetVector" [], .text "0 -50 0", .closed "gml:offsetVector",
   .opened "gml:tupleList" [], .text "0 0 0 99", .closed "gml:tupleList",
   .closed "gml:RectifiedGridCoverage", .closed "dem:RasterRelief"]

/-- Every side of the box is a coordinate of the reference point, of a placed point of the template, of
a corner of the grid or of the building. -/
theorem envelopes_placedPart :
    ∃ outcome, readEvents { mode := .disabled } placedPart = .ok outcome ∧
      outcome.model.envelope = .box ⟨-10, -50, -5⟩ ⟨42, 3, 99⟩ ∧
      IsHullOf outcome.model.envelope (Carried outcome.model.objects) ∧
      ∀ t ∈ Tree.forestSubtrees outcome.model.objects,
        outcome.model.envelope.containsEnvelope t.label.envelope = true := by
  have hbox : (readEvents { mode := .disabled } placedPart).toOption.map (·.model.envelope) =
      some (.box ⟨-10, -50, -5⟩ ⟨42, 3, 99⟩) := by decide +kernel
  obtain ⟨outcome, h, hbox⟩ := exists_of_toOption_map hbox
  obtain ⟨hobjects, hmodel, -⟩ := envelopes_readEvents h
  exact ⟨outcome, h, hbox, hmodel, fun t ht => (hobjects t ht).2.2.2.2⟩

end CityScene.Document
