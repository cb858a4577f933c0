import CityScene.Proofs.Document.Runs
import Mathlib.Data.List.Forall2

/-!
# What becomes of open elements

An open element changes by what stands in it, and by nothing else.  A tag tells it something when it
opens (`Noted`), and hands it something when it closes (`Handed`); a new element begins with nothing
collected (`Begun`).  These list every way in which the frames change that geometry is read into;
that there is no other is `Builder.openElement_changed` and `Builder.closeFrame_hands`, with one
lemma for each kind of frame that closes.

What such frames have when they begin and keep when they are told something, they have when they
close (`FrameLaws.of_completes`).  All geometry of a finished model was handed to an object by an
element of the document (`stocked_of_readEvents`).
-/

namespace CityScene.Document

/-- Geometry or its level of detail is read into the frame. -/
def Frame.isSpatial : Frame → Bool
  | object _ | geometry _ | polygon _ | boundary _ _ | ring _ => true
  | implicitProperty _ | implicitGeometry _ => true
  | _ => false

namespace GeometryParts

variable (g : GeometryParts) (kind : GeometryKind) (id srs : Option String)

theorem lod_note : (g.note kind id srs).lod = g.lod := by
  rw [note]
  split <;> rfl

theorem isTemplate_note : (g.note kind id srs).isTemplate = g.isTemplate := by
  rw [note]
  split <;> rfl

theorem polygons_note : (g.note kind id srs).polygons = g.polygons := by
  rw [note]
  split <;> rfl

end GeometryParts

/-! ### Changes of frames -/

/-- What an opening tag makes of a frame further out. -/
inductive Noted : Frame → Frame → Prop
  | nothing (f : Frame) : Noted f f
  | geometry (g : GeometryParts) (kind : GeometryKind) (id srs : Option String) :
      Noted (.geometry g) (.geometry (g.note kind id srs))
  | appearance (o : ObjectParts) (id : String) :
      Noted (.object o) (.object { o with feature := o.feature.addAppearance id })
  | template (i : ImplicitGeometry) (id : String) :
      Noted (.implicitGeometry i) (.implicitGeometry { i with template := .reference id })
  | other {f f' : Frame} (hf : f.isSpatial = false) (hf' : f'.isSpatial = false) : Noted f f'

/-- The frame that an element begins with, opened with some reference system in effect where the
open elements are `s`. -/
inductive Begun (config : Config) (s : Stack) (srs : Option String) : Element → Frame → Prop
  | object (kind : Kind) (id : String) (grid : Option GridParts) :
      Begun config s srs (.object kind) (.object { feature := { id, kind }, grid })
  | geometryProperty (lod : Option Nat) (hlod : config.acceptsLod (lod.getD s.reliefLod) = true) :
      Begun config s srs (.geometryProperty lod)
        (.geometry { lod := lod.getD s.reliefLod, srs, isTemplate := false })
  | template : Begun config s srs .relativeGeometry
      (.geometry { lod := s.implicitLod?.getD 0, srs, isTemplate := true })
  | implicitProperty (lod : Nat) (hlod : config.acceptsLod lod = true) :
      Begun config s srs (.implicitProperty lod) (.implicitProperty lod)
  | implicitGeometry : Begun config s srs .implicitGeometry
      (.implicitGeometry { lod := s.implicitLod?.getD 0 })
  | polygon (id : Option String) : Begun config s srs .polygon (.polygon { id })
  | boundary (role : RingRole) : Begun config s srs (.boundary role) (.boundary role none)
  | ring (id : Option String) : Begun config s srs .ring (.ring { id })
  | other (element : Element) {f : Frame} (hf : f.isSpatial = false) : Begun config s srs element f

/-- What the closing of an element makes of a frame further out, where the element has the given
frame and reference system, and is off the stack of `b` by then.  Faults are reported. -/
inductive Handed (config : Config) (b : Builder) (srs : Option String)
    (reports : List Diagnostic) : Frame → Frame → Frame → Prop
  | nothing (source f : Frame) : Handed config b srs reports source f f
  | child {o : ObjectParts} {coverage : Option GridCoverage} {object : CityObject}
      (hfinish : o.finish coverage = .ok object) (parent : ObjectParts) :
      Handed config b srs reports (.object o) (.object parent) (.object (parent.addChild object))
  | geometry {g : GeometryParts} (hg : g.isTemplate = false) (o : ObjectParts) :
      Handed config b srs reports (.geometry g) (.object o)
        (.object { o with feature :=
          { o.feature with geometries := o.feature.geometries ++ [Builder.geometryOf config g] } })
  | template {g : GeometryParts} (hg : g.isTemplate = true) (i : ImplicitGeometry) :
      Handed config b srs reports (.geometry g) (.implicitGeometry i)
        (.implicitGeometry { i with template := .inline (Builder.geometryOf config g) })
  | implicit (i : ImplicitGeometry) (o : ObjectParts) :
      Handed config b srs reports (.implicitGeometry i) (.object o)
        (.object { o with feature :=
          { o.feature with implicits := o.feature.implicits ++ [i] } })
  | polygon {p : PolygonParts} {exterior : LinearRing} (hvalid : p.isInvalid = false)
      (hexterior : p.exterior = some exterior) (g : GeometryParts) :
      Handed config b srs reports (.polygon p) (.geometry g)
        (.geometry { g with polygons := g.polygons ++
          [config.meshed { id := p.id, exterior, interiors := p.interiors }] })
  | boundary (role : RingRole) (ring : LinearRing) (p : PolygonParts) :
      Handed config b srs reports (.boundary role (some ring)) (.polygon p)
        (.polygon (p.addRing role ring))
  | ring {r : RingParts} {ring : LinearRing} (hvalid : r.isInvalid = false)
      (hring : LinearRing.ofPoints r.id r.points config.closedRings = .ok ring) (role : RingRole)
      (old : Option LinearRing) :
      Handed config b srs reports (.ring r) (.boundary role old) (.boundary role (some ring))
  | refusal (r : RingParts) (p : PolygonParts)
      (hreports : ∃ d ∈ reports, d.kind = .invalidRing) :
      Handed config b srs reports (.ring r) (.polygon p) (.polygon { p with isInvalid := true })
  | points {t : TextParts} {kind : PositionText} {points : List (Vec3 Float)}
      (ht : t.element = .positions kind)
      (hread : kind.read t.attributes (b.dimension? srs t.attributes) (Text.trimmed t.content) =
        .ok points) (r : RingParts) :
      Handed config b srs reports (.text t) (.ring r)
        (.ring { r with points := r.points ++ b.reproject config srs points })
  | noPoints (t : TextParts) (r : RingParts) :
      Handed config b srs reports (.text t) (.ring r) (.ring { r with isInvalid := true })
  /-- A feature takes in what is not geometry. -/
  | described (source : Frame) (o : ObjectParts) {f : Feature}
      (hgeometries : f.geometries = o.feature.geometries)
      (himplicits : f.implicits = o.feature.implicits) :
      Handed config b srs reports source (.object o) (.object { o with feature := f })
  | grid (source : Frame) (o : ObjectParts) (grid : Option GridParts) :
      Handed config b srs reports source (.object o) (.object { o with grid })
  /-- An implicit geometry takes in what is neither its template nor its level of detail. -/
  | placed (source : Frame) {i i' : ImplicitGeometry} (hlod : i'.lod = i.lod)
      (htemplate : i'.template = i.template) :
      Handed config b srs reports source (.implicitGeometry i) (.implicitGeometry i')
  | other (source : Frame) {f f' : Frame} (hf : f.isSpatial = false) (hf' : f'.isSpatial = false) :
      Handed config b srs reports source f f'

/-! ### Stacks -/

namespace Stack

/-- The same elements are open, and their frames have changed as `R` says. -/
def Changed (R : Frame → Frame → Prop) (s s' : Stack) : Prop :=
  List.Forall₂ (fun e e' => e'.name = e.name ∧ e'.srs = e.srs ∧ R e.frame e'.frame) s s'

variable {R : Frame → Frame → Prop} {s : Stack}

theorem Changed.refl (hR : ∀ f, R f f) (s : Stack) : s.Changed R s :=
  List.forall₂_same.2 fun e _ => ⟨rfl, rfl, hR e.frame⟩

theorem Changed.trans {R' R'' : Frame → Frame → Prop} {t u : Stack} (h : s.Changed R t)
    (h' : t.Changed R' u) (hR : ∀ {f g k}, R f g → R' g k → R'' f k) : s.Changed R'' u := by
  induction h generalizing u with
  | nil => cases h'; exact .nil
  | cons he _ ih =>
    cases h' with
    | cons he' houter' =>
      exact .cons ⟨he'.1.trans he.1, he'.2.1.trans he.2.1, hR he.2.2 he'.2.2⟩ (ih houter')

theorem Changed.updateOwner (hR : ∀ f, R f f) {change : Frame → Frame}
    (hchange : ∀ f, s.owner? = some f → R f (change f)) :
    s.Changed R (s.updateOwner change) := by
  induction s with
  | nil => exact .nil
  | cons e outer ih =>
    rw [Stack.updateOwner]
    by_cases ht : e.frame.isTransparent = true
    · rw [if_pos ht]
      rw [owner?_of_isTransparent outer ht] at hchange
      exact .cons ⟨rfl, rfl, hR _⟩ (ih hchange)
    · rw [if_neg ht]
      rw [owner?_of_not_isTransparent outer (by simpa using ht)] at hchange
      exact .cons ⟨rfl, rfl, hchange _ rfl⟩ (Changed.refl hR outer)

theorem Changed.updateNearest (hR : ∀ f, R f f) {stop : Frame → Bool}
    {change : Frame → Option Frame} (hchange : ∀ f g, change f = some g → R f g) (s : Stack) :
    s.Changed R (s.updateNearest stop change) := by
  induction s with
  | nil => exact .nil
  | cons e outer ih =>
    rw [Stack.updateNearest]
    split
    · next g hg => exact .cons ⟨rfl, rfl, hchange _ _ hg⟩ (Changed.refl hR outer)
    · split
      · exact Changed.refl hR _
      · exact .cons ⟨rfl, rfl, hR _⟩ ih

theorem Changed.updateObject (hR : ∀ f, R f f) {change : ObjectParts → ObjectParts}
    (hchange : ∀ o, R (.object o) (.object (change o))) (s : Stack) :
    s.Changed R (s.updateObject change) :=
  updateNearest hR (fun f g hg => by cases f <;> cases hg; exact hchange _) s

theorem Changed.updateGeometry (hR : ∀ f, R f f) {change : GeometryParts → GeometryParts}
    (hchange : ∀ g, R (.geometry g) (.geometry (change g))) (s : Stack) :
    s.Changed R (s.updateGeometry change) :=
  updateNearest hR (fun f g hg => by cases f <;> cases hg; exact hchange _) s

theorem Changed.updatePolygon (hR : ∀ f, R f f) {change : PolygonParts → PolygonParts}
    (hchange : ∀ p, R (.polygon p) (.polygon (change p))) (s : Stack) :
    s.Changed R (s.updatePolygon change) :=
  updateNearest hR (fun f g hg => by cases f <;> cases hg; exact hchange _) s

theorem Changed.updateImplicit (hR : ∀ f, R f f) {change : ImplicitGeometry → ImplicitGeometry}
    (hchange : ∀ i, R (.implicitGeometry i) (.implicitGeometry (change i))) (s : Stack) :
    s.Changed R (s.updateImplicit change) :=
  updateNearest hR (fun f g hg => by cases f <;> cases hg; exact hchange _) s

theorem Changed.updateAppearance (hR : ∀ f, R f f) {change : Appearance → Appearance}
    (hchange : ∀ a, R (.appearance a) (.appearance (change a))) (s : Stack) :
    s.Changed R (s.updateAppearance change) :=
  updateNearest hR (fun f g hg => by cases f <;> cases hg; exact hchange _) s

/-- What holds of all frames still does if the changes keep it. -/
theorem Changed.forall {s' : Stack} (h : s.Changed R s') {F : Frame → Prop}
    (hF : ∀ f f', R f f' → F f → F f') (hs : ∀ e ∈ s, F e.frame) : ∀ e ∈ s', F e.frame := by
  induction h with
  | nil => exact hs
  | cons he _ ih =>
    obtain ⟨hfirst, houter⟩ := List.forall_mem_cons.1 hs
    exact List.forall_mem_cons.2 ⟨hF _ _ he.2.2 hfirst, ih houter⟩

end Stack

namespace Builder

variable {config : Config} {b : Builder}

/-! ### Opening -/

/-- What an opening tag does before its element is pushed. -/
structure Notes (b b' : Builder) : Prop where
  diagnostics : b'.diagnostics = b.diagnostics
  objects : b'.model.objects = b.model.objects
  stack : b.stack.Changed Noted b'.stack

theorem Notes.refl (b : Builder) : Notes b b :=
  ⟨rfl, rfl, .refl .nothing b.stack⟩

theorem notes_withStack {s : Stack} (h : b.stack.Changed Noted s) : Notes b { b with stack := s } :=
  ⟨rfl, rfl, h⟩

theorem Notes.recordReference {b' : Builder} (h : Notes b b') (id : String) (kind : ReferenceKind)
    (referrer : Option String) : Notes b (b'.recordReference id kind referrer) := by
  refine ⟨h.diagnostics, ?_, h.stack⟩
  rw [← h.objects, Builder.recordReference]
  rcases b'.model.recordReference_cases (.ofLink id kind referrer) with hr | hr <;> rw [hr]

theorem notes_mentionSystem (b : Builder) (name : String) (attributes : Markup.Attributes) :
    Notes b (b.mentionSystem name attributes) ∧
      (b.mentionSystem name attributes).stack = b.stack := by
  have hmodel (m : Model) (hm : m.objects = b.model.objects) : Notes b { b with model := m } :=
    ⟨rfl, hm, .refl .nothing b.stack⟩
  rw [mentionSystem]
  refine ⟨(hmodel _ ?_).recordReference _ _ _, rfl⟩
  split <;> rfl

theorem notes_identify (b : Builder) (id : Option String) (stem : String) :
    Notes b (b.identify id stem).1 := by
  cases id with
  | some id => exact .refl b
  | none => exact ⟨rfl, rfl, .refl .nothing b.stack⟩

theorem notes_noteGeometry (b : Builder) (kind : GeometryKind) (id srs : Option String) :
    Notes b (b.noteGeometry kind id srs) :=
  ⟨rfl, rfl, .updateGeometry .nothing (fun g => .geometry g kind id srs) b.stack⟩

theorem notes_onLink (b : Builder) (attributes : Markup.Attributes)
    {action : Builder → String → Builder} (h : ∀ link, Notes b (action b link)) :
    Notes b (b.onLink attributes action) := by
  rw [onLink]
  split
  · exact h _
  · exact .refl b

theorem notes_referToAppearance (b : Builder) (link : String) :
    Notes b (b.referToAppearance link) :=
  (notes_withStack (.updateObject .nothing (fun o => .appearance o _) b.stack)).recordReference
    _ _ _

theorem notes_referToSurfaceData (b : Builder) (link : String) :
    Notes b (b.referToSurfaceData link) :=
  (notes_withStack (.updateAppearance .nothing (fun _ => .other rfl rfl) b.stack)).recordReference
    _ _ _

theorem notes_referToTemplate (b : Builder) (link : String) : Notes b (b.referToTemplate link) :=
  (notes_withStack (.updateImplicit .nothing (fun i => .template i _) b.stack)).recordReference
    _ _ _

theorem openFrame_notes (config : Config) (b : Builder) (name : String)
    (attributes : Markup.Attributes) (srs : Option String) :
    Notes b (b.openFrame config name attributes srs).1 ∧
      Begun config b.stack srs (Element.ofTag name attributes)
        (b.openFrame config name attributes srs).2 := by
  unfold openFrame
  cases Element.ofTag name attributes with
  | object kind =>
    dsimp only
    split
    · exact ⟨notes_identify b _ _, .object kind _ _⟩
    · exact ⟨.refl b, .other _ rfl⟩
  | geometryProperty lod =>
    dsimp only
    split
    · next hlod => exact ⟨.refl b, .geometryProperty lod hlod⟩
    · exact ⟨.refl b, .other _ rfl⟩
  | implicitProperty lod =>
    dsimp only
    split
    · next hlod => exact ⟨.refl b, .implicitProperty lod hlod⟩
    · exact ⟨.refl b, .other _ rfl⟩
  | geometry kind => exact ⟨notes_noteGeometry b _ _ _, .other _ rfl⟩
  | polygon => exact ⟨notes_noteGeometry b _ _ _, .polygon _⟩
  | boundary role =>
    dsimp only
    split
    · exact ⟨.refl b, .boundary role⟩
    · exact ⟨.refl b, .other _ rfl⟩
  | ring => exact ⟨.refl b, .ring _⟩
  | appearance => exact ⟨notes_identify b _ _, .other _ rfl⟩
  | appearanceProperty => exact ⟨notes_onLink b _ (notes_referToAppearance b), .other _ rfl⟩
  | material => exact ⟨notes_identify b _ _, .other _ rfl⟩
  | texture kind => exact ⟨notes_identify b _ _, .other _ rfl⟩
  | surfaceDataProperty => exact ⟨notes_onLink b _ (notes_referToSurfaceData b), .other _ rfl⟩
  | implicitGeometry => exact ⟨.refl b, .implicitGeometry⟩
  | relativeGeometry =>
    dsimp only
    split
    · exact ⟨notes_referToTemplate b _, .other _ rfl⟩
    · exact ⟨.refl b, .template⟩
  | _ => exact ⟨.refl b, .other _ rfl⟩

/-- **What an opening tag does.**  Frames further out are told something, and the new element begins
with nothing collected. -/
theorem openElement_changed (config : Config) (b : Builder) (name : String)
    (attributes : Markup.Attributes) :
    ∃ e outer, (b.openElement config name attributes).stack = e :: outer ∧ e.name = name ∧
      Begun config b.stack e.srs (Element.ofTag (Markup.localName name) attributes) e.frame ∧
      b.stack.Changed Noted outer ∧
      (b.openElement config name attributes).diagnostics = b.diagnostics ∧
      (b.openElement config name attributes).model.objects = b.model.objects := by
  -- mentioning a system does not show in the stack
  have henter (m : Builder) (srs : Option String) (hm : Notes b m) (hstack : m.stack = b.stack) :
      ∃ e outer, (m.enter config name attributes srs).stack = e :: outer ∧ e.name = name ∧
        Begun config b.stack e.srs (Element.ofTag (Markup.localName name) attributes) e.frame ∧
        b.stack.Changed Noted outer ∧
        (m.enter config name attributes srs).diagnostics = b.diagnostics ∧
        (m.enter config name attributes srs).model.objects = b.model.objects := by
    obtain ⟨hnotes, hbegun⟩ := m.openFrame_notes config (Markup.localName name) attributes srs
    rw [hstack] at hbegun
    exact ⟨_, _, rfl, rfl, hbegun, hstack ▸ hnotes.stack, hnotes.diagnostics.trans hm.diagnostics,
      hnotes.objects.trans hm.objects⟩
  rw [openElement_eq]
  split
  · exact ⟨_, _, rfl, rfl, .other _ rfl, .refl .nothing b.stack, rfl, rfl⟩
  · split
    · next system _ =>
      obtain ⟨hmentioned, hstack⟩ := b.notes_mentionSystem system attributes
      exact henter _ _ hmentioned hstack
    · exact henter b _ (.refl b) rfl

/-! ### Closing -/

/-- What closing an element does, which is off the stack of `b` by then: reports are added, frames
further out are handed something, and the object of the element may become one of the model. -/
def Hands (config : Config) (b : Builder) (srs : Option String) (source : Frame) (b' : Builder) :
    Prop :=
  ∃ reports, b'.diagnostics = b.diagnostics ++ reports ∧
    b.stack.Changed (Handed config b srs reports source) b'.stack ∧
    (b'.model.objects = b.model.objects ∨ ∃ o coverage object, source = .object o ∧
      o.finish coverage = .ok object ∧ b'.model.objects = b.model.objects ++ [object])

section Closing

variable {srs : Option String} {source : Frame}

theorem hands_quietly {b' : Builder}
    (hstack : b.stack.Changed (Handed config b srs [] source) b'.stack)
    (hdiagnostics : b'.diagnostics = b.diagnostics)
    (hobjects : b'.model.objects = b.model.objects) :
    Hands config b srs source b' :=
  ⟨[], hdiagnostics.trans (List.append_nil _).symm, hstack, .inl hobjects⟩

theorem hands_refl (config : Config) (b : Builder) (srs : Option String) (source : Frame) :
    Hands config b srs source b :=
  hands_quietly (.refl (.nothing source) b.stack) rfl rfl

theorem hands_report {s : Stack} {problem : Problem} {element : Option String}
    (hstack : b.stack.Changed (Handed config b srs [⟨problem, element⟩] source) s) :
    Hands config b srs source ({ b with stack := s }.report problem element) :=
  ⟨[⟨problem, element⟩], rfl, hstack, .inl rfl⟩

theorem closeGeometry_hands (config : Config) (b : Builder) (srs : Option String)
    (g : GeometryParts) : Hands config b srs (.geometry g) (b.closeGeometry config g) := by
  rw [closeGeometry]
  split
  · exact hands_refl ..
  · dsimp only
    split
    · next ht =>
      have hregister : (b.registerTemplate (geometryOf config g)).stack = b.stack ∧
          (b.registerTemplate (geometryOf config g)).diagnostics = b.diagnostics ∧
          (b.registerTemplate (geometryOf config g)).model.objects = b.model.objects := by
        rw [registerTemplate]
        split <;> exact ⟨rfl, rfl, rfl⟩
      obtain ⟨hstack, hdiagnostics, hobjects⟩ := hregister
      refine hands_quietly ?_ hdiagnostics hobjects
      rw [hstack]
      exact .updateImplicit (.nothing _) (.template ht) b.stack
    · next ht =>
      have ht : g.isTemplate = false := by simpa using ht
      exact hands_quietly (.updateObject (.nothing _) (.geometry ht) b.stack) rfl rfl

theorem closePolygon_hands (config : Config) (b : Builder) (srs : Option String)
    (p : PolygonParts) : Hands config b srs (.polygon p) (b.closePolygon config p) := by
  rw [closePolygon]
  split
  · exact hands_refl ..
  · next hvalid =>
    have hvalid : p.isInvalid = false := by simpa using hvalid
    split
    · exact hands_report (.refl (.nothing _) b.stack)
    · next exterior hexterior =>
      let polygon := config.meshed { id := p.id, exterior, interiors := p.interiors }
      have hreport : ∃ reports, (b.reportMesh polygon).diagnostics = b.diagnostics ++ reports ∧
          (b.reportMesh polygon).stack = b.stack ∧ (b.reportMesh polygon).model = b.model := by
        rw [reportMesh]
        split
        · exact ⟨_, rfl, rfl, rfl⟩
        · exact ⟨[], (List.append_nil _).symm, rfl, rfl⟩
      obtain ⟨reports, hdiagnostics, hstack, hmodel⟩ := hreport
      refine ⟨reports, hdiagnostics, ?_, .inl (congrArg Model.objects hmodel)⟩
      show b.stack.Changed _ ((b.reportMesh polygon).stack.updateGeometry _)
      rw [hstack]
      exact .updateGeometry (.nothing _) (.polygon hvalid hexterior) b.stack

theorem closeBoundary_hands (config : Config) (b : Builder) (srs : Option String) (role : RingRole)
    (ring : Option LinearRing) :
    Hands config b srs (.boundary role ring) (b.closeBoundary role ring) := by
  cases ring with
  | none => exact hands_refl ..
  | some ring =>
    refine hands_quietly (.updateOwner (.nothing _) fun f _ => ?_) rfl rfl
    cases f with
    | polygon p => exact .boundary role ring p
    | _ => exact .nothing _ _

theorem closeRing_hands (config : Config) (b : Builder) (srs : Option String) (r : RingParts) :
    Hands config b srs (.ring r) (b.closeRing config r) := by
  rw [closeRing]
  dsimp only
  split
  · next ring haccepted =>
    split at haccepted
    · cases haccepted
    · next hvalid =>
      have hvalid : r.isInvalid = false := by simpa using hvalid
      refine hands_quietly (.updateOwner (.nothing _) fun f _ => ?_) rfl rfl
      cases f with
      | boundary role old => exact .ring hvalid haccepted role old
      | _ => exact .nothing _ _
  · exact hands_report (.updatePolygon (.nothing _)
      (fun p => .refusal r p ⟨_, List.mem_singleton_self _, rfl⟩) b.stack)

theorem geometries_addAppearance (f : Feature) (id : String) :
    (f.addAppearance id).geometries = f.geometries := by
  rw [Feature.addAppearance]
  split <;> rfl

theorem implicits_addAppearance (f : Feature) (id : String) :
    (f.addAppearance id).implicits = f.implicits := by
  rw [Feature.addAppearance]
  split <;> rfl

theorem handed_takeProperty {reports : List Diagnostic} {f f' : Frame} {property : Property}
    {attributes : Markup.Attributes} {text : String}
    (h : f.takeProperty property attributes text = .ok f') :
    Handed config b srs reports source f f' := by
  cases f with
  | object o =>
    rw [Frame.takeProperty] at h
    split at h
    · obtain ⟨grid, -, h⟩ := exists_of_bind_eq_ok h
      cases h
      exact .grid source o _
    · cases h
      exact .nothing source _
  | implicitGeometry i =>
    obtain ⟨i', htake, h⟩ := exists_of_bind_eq_ok h
    cases h
    unfold ImplicitGeometry.take at htake
    split at htake
    · cases htake; exact .placed source rfl rfl
    · cases htake; exact .placed source rfl rfl
    · obtain ⟨_, -, htake⟩ := exists_of_bind_eq_ok htake
      cases htake
      exact .placed source rfl rfl
    · cases htake; exact .nothing source _
  | surfaceData d =>
    obtain ⟨_, -, h⟩ := exists_of_bind_eq_ok h
    cases h
    exact .other source rfl rfl
  | textureTarget t =>
    obtain ⟨_, -, h⟩ := exists_of_bind_eq_ok h
    cases h
    exact .other source rfl rfl
  | generic g => cases h; exact .other source rfl rfl
  | appearance a => cases h; exact .other source rfl rfl
  | address a => cases h; exact .other source rfl rfl
  | _ => cases h; exact .nothing source _

theorem setAttribute_hands (config : Config) (b : Builder) (srs : Option String) (source : Frame)
    (name text : String) (type : ValueType) (unit : Option String) (problem : Problem) :
    Hands config b srs source (b.setAttribute name text type unit problem) := by
  rw [setAttribute]
  split
  · exact hands_quietly
      (.updateObject (.nothing _) (fun o => .described source o rfl rfl) b.stack) rfl rfl
  · exact hands_report
      (.updateObject (.nothing _) (fun o => .described source o rfl rfl) b.stack)

theorem closeText_hands (config : Config) (b : Builder) (srs : Option String) (t : TextParts) :
    Hands config b srs (.text t) (b.closeText config srs t) := by
  rw [closeText]
  split
  · next kind ht =>
    rw [closePositions]
    split
    · next points hread =>
      refine hands_quietly (.updateOwner (.nothing _) fun f _ => ?_) rfl rfl
      cases f with
      | ring r => exact .points ht hread r
      | envelope e => cases kind <;> exact .other _ rfl rfl
      | point property value => exact .other _ rfl rfl
      | _ => exact .nothing _ _
    · refine hands_report (.updateOwner (.nothing _) fun f _ => ?_)
      cases f with
      | ring r => exact .noPoints t r
      | _ => exact .nothing _ _
  · next property _ =>
    rw [closeProperty]
    split
    · exact hands_refl ..
    · next owner howner =>
      split
      · next f' hf' =>
        refine hands_quietly (.updateOwner (.nothing _) fun f hf => ?_) rfl rfl
        obtain rfl := Option.some.inj (howner.symm.trans hf)
        exact handed_takeProperty hf'
      · exact hands_report (.refl (.nothing _) b.stack)
  · next name _ =>
    have hmodel (text : String) : Hands config b srs (.text t) (b.setModelText name text) := by
      have hstack : b.stack.Changed (Handed config b srs [] (.text t)) b.stack :=
        .refl (.nothing _) b.stack
      unfold setModelText
      split <;> exact hands_quietly hstack rfl rfl
    rw [closeThematic]
    split
    · exact setAttribute_hands ..
    · exact hmodel _
    · exact hmodel _
    · exact hands_refl ..

theorem closeGeneric_hands (config : Config) (b : Builder) (srs : Option String)
    (g : GenericParts) : Hands config b srs (.generic g) (b.closeGeneric g) := by
  rw [closeGeneric]
  split
  · exact hands_report (.refl (.nothing _) b.stack)
  · split
    · exact hands_refl ..
    · exact setAttribute_hands ..

theorem closeEnvelope_hands (config : Config) (b : Builder) (srs : Option String)
    (e : EnvelopeParts) : Hands config b srs (.envelope e) (b.closeEnvelope e) := by
  have hstack : b.stack.Changed (Handed config b srs [] (.envelope e)) b.stack :=
    .refl (.nothing _) b.stack
  rw [closeEnvelope]
  dsimp only
  split
  · exact hands_refl ..
  · split
    · exact hands_quietly
        (.updateObject (.nothing _) (fun o => .described _ o rfl rfl) b.stack) rfl rfl
    · exact hands_quietly hstack rfl rfl
    · exact hands_quietly hstack rfl rfl
    · exact hands_refl ..

theorem closePoint_hands (config : Config) (b : Builder) (srs : Option String)
    (property : PointProperty) (value : Option (Vec3 Float)) :
    Hands config b srs (.point property value) (b.closePoint property value) := by
  cases value with
  | none => exact hands_refl ..
  | some p =>
    refine hands_quietly (.updateOwner (.nothing _) fun f _ => ?_) rfl rfl
    cases f with
    | object o =>
      cases property with
      | origin => exact .grid _ o _
      | referencePoint => exact .nothing _ _
    | implicitGeometry i =>
      cases property with
      | origin => exact .nothing _ _
      | referencePoint => exact .placed _ rfl rfl
    | _ => exact .nothing _ _

theorem closeObject_hands {b' : Builder} {o : ObjectParts}
    (h : b.closeObject config o = .ok b') : Hands config b srs (.object o) b' := by
  obtain ⟨m, coverage, object, hgrid, hfinish, rfl⟩ := closeObject_eq_ok_iff.1 h
  obtain ⟨reports, rfl⟩ := exists_reports_of_closeGrid hgrid
  split
  · exact ⟨reports, rfl, .refl (.nothing _) b.stack, .inl rfl⟩
  · rw [attachObject]
    split
    · refine ⟨reports, rfl, ?_, .inl rfl⟩
      exact .updateObject (.nothing _) (fun parent => .child hfinish parent) b.stack
    · have hobjects : (b.model.addObject object).objects = b.model.objects ++ [object] := rfl
      exact ⟨reports, rfl, .refl (.nothing _) b.stack,
        .inr ⟨o, coverage, object, rfl, hfinish, hobjects⟩⟩

theorem closeAddress_hands (config : Config) (b : Builder) (srs : Option String) (a : Address) :
    Hands config b srs (.address a) (b.closeAddress a) := by
  rw [closeAddress]
  split
  · exact hands_refl ..
  · exact hands_quietly
      (.updateObject (.nothing _) (fun o => .described _ o rfl rfl) b.stack) rfl rfl

/-- **What a closing tag does.** -/
theorem closeFrame_hands {b' : Builder} (h : b.closeFrame config srs source = .ok b') :
    Hands config b srs source b' := by
  have hok {c : Builder} (heq : (.ok c : Except Overflow Builder) = .ok b')
      (hc : Hands config b srs source c) : Hands config b srs source b' :=
    Except.ok.inj heq ▸ hc
  cases source with
  | object o => exact closeObject_hands h
  | geometry g => exact hok h (closeGeometry_hands ..)
  | polygon p => exact hok h (closePolygon_hands ..)
  | boundary role ring => exact hok h (closeBoundary_hands ..)
  | ring r => exact hok h (closeRing_hands ..)
  | text t => exact hok h (closeText_hands ..)
  | generic g => exact hok h (closeGeneric_hands ..)
  | appearance a =>
    refine hok h (hands_quietly (.updateObject (.nothing _) (fun o => ?_) b.stack) rfl rfl)
    exact .described _ o (geometries_addAppearance _ _) (implicits_addAppearance _ _)
  | surfaceData d =>
    exact hok h (hands_quietly
      (.updateAppearance (.nothing _) (fun _ => .other _ rfl rfl) b.stack) rfl rfl)
  | textureTarget t =>
    refine hok h (hands_quietly (.updateOwner (.nothing _) fun f _ => ?_) rfl rfl)
    cases f with
    | surfaceData d => exact .other _ rfl rfl
    | _ => exact .nothing _ _
  | envelope e => exact hok h (closeEnvelope_hands ..)
  | address a => exact hok h (closeAddress_hands ..)
  | implicitGeometry i =>
    exact hok h (hands_quietly (.updateObject (.nothing _) (.implicit i) b.stack) rfl rfl)
  | point property value => exact hok h (closePoint_hands ..)
  | model | transparent | skipped | implicitProperty => exact hok h (hands_refl ..)

end Closing

end Builder

/-! ### Accepted events -/

namespace Builder

variable {config : Config} {b b' : Builder} {name : String}

theorem eq_of_apply_opened {attributes : Markup.Attributes}
    (h : b.apply config (.opened name attributes) = .ok b') :
    b' = b.openElement config name attributes := by
  rw [apply] at h
  split at h
  · cases h
  · exact (Except.ok.inj h).symm

theorem eq_of_apply_text {content : String} (h : b.apply config (.text content) = .ok b') :
    b' = b.addText content := by
  rw [apply] at h
  split at h
  · cases h
  · exact (Except.ok.inj h).symm

theorem exists_of_apply_closed (h : b.apply config (.closed name) = .ok b') :
    ∃ e outer, b.stack = e :: outer ∧ e.name = name ∧
      ({ b with stack := outer } : Builder).closeFrame config e.srs e.frame = .ok b' := by
  rw [apply] at h
  split at h
  · cases h
  · exact exists_of_closeElement h

end Builder

/-! ### Runs -/

section Runs

variable {config : Config} {events : List Event} {F : Frame → Prop}

/-- Reading the events gets to one of them, in this state. -/
def Meets (config : Config) (events : List Event) (b : Builder) (e : Event) : Prop :=
  ∃ before after, events = before ++ e :: after ∧
    (Builder.start config).applyAll config before = .ok b

/-- Reading the events gets to the end of an element, for which this has been collected. -/
def Completes (config : Config) (events : List Event) (f : Frame) : Prop :=
  ∃ b e outer, Meets config events b (.closed e.name) ∧ b.stack = e :: outer ∧ e.frame = f

/-- What new frames have, and frames that are told something keep, while the events are read. -/
structure FrameLaws (config : Config) (events : List Event) (F : Frame → Prop) : Prop where
  other : ∀ {f}, f.isSpatial = false → F f
  begun : ∀ {b name attributes srs element f}, Meets config events b (.opened name attributes) →
    Element.ofTag (Markup.localName name) attributes = element → (∀ x ∈ b.stack, F x.frame) →
    Begun config b.stack srs element f → F f
  noted : ∀ {f f'}, Noted f f' → F f → F f'
  handed : ∀ {b e outer reports source f f'}, Meets config events b (.closed e.name) →
    b.stack = e :: outer → e.frame = source →
    Handed config { b with stack := outer } e.srs reports source f f' → F source → F f → F f'

theorem FrameLaws.takeText (h : FrameLaws config events F) (content : String) {f : Frame}
    (hf : F f) : F (f.takeText content) := by
  cases f with
  | text t => exact h.other rfl
  | _ => exact hf

/-- What the open elements have, they have after an event, and an object of the model is new only
where its element closes. -/
theorem FrameLaws.apply (h : FrameLaws config events F) {b b' : Builder} {e : Event}
    (hmeets : Meets config events b e) (hb : b.apply config e = .ok b')
    (hstack : ∀ x ∈ b.stack, F x.frame) :
    (∀ x ∈ b'.stack, F x.frame) ∧ ∀ o ∈ b'.model.objects, o ∈ b.model.objects ∨
      ∃ parts coverage, Completes config events (.object parts) ∧ parts.finish coverage = .ok o := by
  have hsame {m : Model} (hm : m.objects = b.model.objects) : ∀ o ∈ m.objects,
      o ∈ b.model.objects ∨
        ∃ parts coverage, Completes config events (.object parts) ∧ parts.finish coverage = .ok o :=
    fun o ho => .inl (hm ▸ ho)
  cases e with
  | offset bytes =>
    obtain rfl := Except.ok.inj hb
    exact ⟨hstack, hsame rfl⟩
  | opened name attributes =>
    obtain rfl := Builder.eq_of_apply_opened hb
    obtain ⟨x, outer, hnew, -, hbegun, houter, -, hobjects⟩ :=
      b.openElement_changed config name attributes
    rw [hnew]
    exact ⟨List.forall_mem_cons.2 ⟨h.begun hmeets rfl hstack hbegun,
      houter.forall (fun _ _ => h.noted) hstack⟩, hsame hobjects⟩
  | text content =>
    obtain rfl := Builder.eq_of_apply_text hb
    rw [Builder.addText]
    split
    · exact ⟨hstack, hsame rfl⟩
    · next x outer hs =>
      obtain ⟨hx, houter⟩ := List.forall_mem_cons.1 (hs ▸ hstack)
      exact ⟨List.forall_mem_cons.2 ⟨h.takeText content hx, houter⟩, hsame rfl⟩
  | closed name =>
    obtain ⟨x, outer, hs, rfl, hclose⟩ := Builder.exists_of_apply_closed hb
    obtain ⟨hx, houter⟩ := List.forall_mem_cons.1 (hs ▸ hstack)
    obtain ⟨reports, -, hchanged, hobjects⟩ := Builder.closeFrame_hands hclose
    refine ⟨hchanged.forall (fun _ _ hf => h.handed hmeets hs rfl hf hx) houter, ?_⟩
    rcases hobjects with hobjects | ⟨parts, coverage, object, hparts, hfinish, hobjects⟩
    · exact hsame hobjects
    · intro o ho
      rw [hobjects] at ho
      rcases List.mem_append.1 ho with ho | ho
      · exact .inl ho
      · obtain rfl := List.mem_singleton.1 ho
        exact .inr ⟨parts, coverage, ⟨b, x, outer, hmeets, hs, hparts⟩, hfinish⟩

theorem FrameLaws.applyAll (h : FrameLaws config events F) {before after : List Event} {b : Builder}
    (hevents : events = before ++ after)
    (hb : (Builder.start config).applyAll config before = .ok b) :
    (∀ x ∈ b.stack, F x.frame) ∧ ∀ o ∈ b.model.objects,
      ∃ parts coverage, Completes config events (.object parts) ∧ parts.finish coverage = .ok o := by
  induction before using List.reverseRecOn generalizing b after with
  | nil =>
    obtain rfl := Except.ok.inj hb
    exact ⟨fun _ hx => absurd hx List.not_mem_nil, fun _ ho => absurd ho List.not_mem_nil⟩
  | append_singleton before e ih =>
    obtain ⟨m, hm, he⟩ := Builder.applyAll_append_eq_ok hb
    obtain ⟨m', hm', hnil⟩ := Builder.applyAll_cons_eq_ok he
    obtain rfl := Except.ok.inj hnil
    rw [List.append_assoc] at hevents
    obtain ⟨hstack, hobjects⟩ := ih hevents hm
    obtain ⟨hstack', hnew⟩ := h.apply ⟨before, after, hevents, hm⟩ hm' hstack
    exact ⟨hstack', fun o ho => (hnew o ho).elim (hobjects o) id⟩

/-- **What begins and is kept, closing elements have.** -/
theorem FrameLaws.of_completes (h : FrameLaws config events F) {f : Frame}
    (hf : Completes config events f) : F f := by
  obtain ⟨b, e, outer, ⟨before, after, hevents, hb⟩, hs, rfl⟩ := hf
  exact (h.applyAll hevents hb).1 e (hs ▸ List.mem_cons_self)

/-! ### What objects hold -/

/-- What an object holds was handed to it by elements of the document. -/
structure Stocked (config : Config) (events : List Event) (f : Feature) : Prop where
  geometries : ∀ g ∈ f.geometries, ∃ parts, Completes config events (.geometry parts) ∧
    parts.isTemplate = false ∧ g = Builder.geometryOf config parts
  implicits : ∀ i ∈ f.implicits, Completes config events (.implicitGeometry i)

theorem Stocked.of_eq {f f' : Feature} (h : Stocked config events f)
    (hgeometries : f'.geometries = f.geometries) (himplicits : f'.implicits = f.implicits) :
    Stocked config events f' :=
  ⟨hgeometries ▸ h.geometries, himplicits ▸ h.implicits⟩

/-- The feature of an object is stocked, and so are those of all objects below it. -/
def StockedFrame (config : Config) (events : List Event) : Frame → Prop
  | .object o => Stocked config events o.feature ∧
      ∀ f ∈ Tree.forestLabels o.children, Stocked config events f
  | _ => True

/-- A finished object holds what its frame has collected. -/
theorem StockedFrame.finish {o : ObjectParts} (h : StockedFrame config events (.object o))
    {coverage : Option GridCoverage} {object : CityObject}
    (hfinish : o.finish coverage = .ok object) :
    ∀ f ∈ object.labels, Stocked config events f := by
  obtain ⟨envelope, -, rfl⟩ := exists_of_map_eq_ok hfinish
  rw [Tree.labels]
  exact List.forall_mem_cons.2 ⟨h.1.of_eq rfl rfl, h.2⟩

theorem stockedFrame_of_not_isSpatial {f : Frame} (hf : f.isSpatial = false) :
    StockedFrame config events f := by
  cases f with
  | object o => cases hf
  | _ => exact trivial

theorem stockedFrame_handed {b : Builder} {e : OpenElement} {outer : Stack}
    {reports : List Diagnostic} {source f f' : Frame}
    (hmeets : Meets config events b (.closed e.name)) (hs : b.stack = e :: outer)
    (hframe : e.frame = source)
    (hf : Handed config { b with stack := outer } e.srs reports source f f')
    (hsource : StockedFrame config events source) (h : StockedFrame config events f) :
    StockedFrame config events f' := by
  have hends : Completes config events source := ⟨b, e, outer, hmeets, hs, hframe⟩
  cases hf with
  | child hfinish parent =>
    refine ⟨h.1.of_eq rfl rfl, fun f hmem => ?_⟩
    rw [ObjectParts.addChild, Tree.forestLabels_append, Tree.forestLabels, Tree.forestLabels,
      List.append_nil] at hmem
    exact (List.mem_append.1 hmem).elim (h.2 f) (hsource.finish hfinish f)
  | geometry hg o =>
    refine ⟨⟨fun g hmem => ?_, h.1.implicits⟩, h.2⟩
    rcases List.mem_append.1 hmem with hmem | hmem
    · exact h.1.geometries g hmem
    · exact ⟨_, hends, hg, List.mem_singleton.1 hmem⟩
  | implicit i o =>
    refine ⟨⟨h.1.geometries, fun j hmem => ?_⟩, h.2⟩
    rcases List.mem_append.1 hmem with hmem | hmem
    · exact h.1.implicits j hmem
    · exact List.mem_singleton.1 hmem ▸ hends
  | described source o hgeometries himplicits => exact ⟨h.1.of_eq hgeometries himplicits, h.2⟩
  | other source _ hf' => exact stockedFrame_of_not_isSpatial hf'
  | nothing | grid => exact h
  | _ => exact trivial

theorem stockedFrame_laws (config : Config) (events : List Event) :
    FrameLaws config events (StockedFrame config events) where
  other := stockedFrame_of_not_isSpatial
  begun _ _ _ hbegun := by
    cases hbegun with
    | object kind id grid =>
      exact ⟨⟨fun _ hg => absurd hg List.not_mem_nil, fun _ hi => absurd hi List.not_mem_nil⟩,
        fun _ hf => absurd hf List.not_mem_nil⟩
    | other _ hf => exact stockedFrame_of_not_isSpatial hf
    | _ => exact trivial
  noted hnoted h := by
    cases hnoted with
    | nothing => exact h
    | appearance o id =>
      exact ⟨h.1.of_eq (Builder.geometries_addAppearance _ _) (Builder.implicits_addAppearance _ _),
        h.2⟩
    | other _ hf' => exact stockedFrame_of_not_isSpatial hf'
    | _ => exact trivial
  handed := stockedFrame_handed

theorem stocked_of_applyAll {b : Builder}
    (hb : (Builder.start config).applyAll config events = .ok b) :
    ∀ f ∈ Tree.forestLabels b.model.objects, Stocked config events f := by
  have hlaws := stockedFrame_laws config events
  intro f hf
  obtain ⟨o, ho, hf⟩ := Tree.mem_forestLabels.1 hf
  obtain ⟨parts, coverage, hends, hfinish⟩ :=
    (hlaws.applyAll (List.append_nil events).symm hb).2 o ho
  exact (hlaws.of_completes hends).finish hfinish f hf

/-- **All geometry of a model was handed to its object**; only its polygons have changed since. -/
theorem stocked_of_readEvents {outcome : Outcome} (h : readEvents config events = .ok outcome)
    {f : Feature} (hf : f ∈ Tree.forestLabels outcome.model.objects) :
    ∃ given change, Stocked config events given ∧ KeepsRings change ∧
      f = given.mapPolygons change := by
  obtain ⟨b, hb, -, rfl⟩ := Builder.exists_of_readEvents_eq_ok h
  obtain ⟨-, -, change, hchange, hobjects⟩ := b.complete_sameShape config
  rw [hobjects, Tree.forestLabels_map] at hf
  obtain ⟨given, hgiven, rfl⟩ := List.mem_map.1 hf
  exact ⟨given, change, stocked_of_applyAll hb given hgiven, hchange, rfl⟩

end Runs

end CityScene.Document
