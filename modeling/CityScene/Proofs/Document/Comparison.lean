import CityScene.Proofs.Document.View

/-!
# Reading twice

A `Comparison` is of two configurations under which the same events are read.  It says how what is
built under the first looks under the second, and how the reports of the two runs compare.  Its laws
are about the few things that a configuration can do on its own: which elements it leaves out, what
it makes of rings, polygons and points, and which finished objects it keeps.

`Alike` relates the states of the two runs.  There is one lemma for each thing that a tag or a text
does; each says that alike states are taken to alike states.  Together they make up those on whole
tags, `Alike.openElement` and `Alike.closeFrame`.
-/

namespace CityScene

/-- What is kept of a finished object. -/
def Config.kept (config : Config) (o : CityObject) : List CityObject :=
  if config.prune && o.isEmpty then [] else [o]

/-- A polygon that has just been put together, with its mesh if it gets that at once. -/
def Config.meshed (config : Config) (p : Polygon) : Polygon :=
  if config.mode = .eager then p.tessellate config.smooth else p

/-- The report on a polygon without a mesh, where tessellation failed. -/
def Polygon.reports (p : Polygon) (element : Option String) : List Diagnostic :=
  p.failure?.toList.map fun failure => ⟨.tessellation failure, element⟩

theorem Config.keepsRings_meshed (config : Config) : KeepsRings config.meshed := by
  unfold meshed
  split
  · exact .tessellate config.smooth
  · exact ⟨fun _ => rfl, fun _ => rfl, fun _ => rfl⟩

namespace Document

/-- Opens an element that is not left out, with the reference system in effect in it. -/
def Builder.enter (config : Config) (b : Builder) (name : String) (attributes : Markup.Attributes)
    (srs : Option String) : Builder :=
  let opened := b.openFrame config (Markup.localName name) attributes srs
  { opened.1 with stack := ⟨name, srs, opened.2⟩ :: opened.1.stack }

theorem Builder.openElement_eq (config : Config) (b : Builder) (name : String)
    (attributes : Markup.Attributes) :
    b.openElement config name attributes =
      if b.stack.head?.any (·.frame.isSkipped) then
        { b with stack := ⟨name, b.stack.srs?, .skipped⟩ :: b.stack }
      else
        match attributes.value? "srsName" with
        | some system => (b.mentionSystem system attributes).enter config name attributes system
        | none => b.enter config name attributes b.stack.srs? := by
  cases h : attributes.value? "srsName" <;> simp only [openElement, h, enter] <;> rfl

/-- An element that names no reference system, and of which only the frame is new. -/
theorem Builder.openElement_of_openFrame {config : Config} {b : Builder} {name : String}
    {attributes : Markup.Attributes} {frame : Frame}
    (hskip : b.stack.head?.any (·.frame.isSkipped) = false)
    (hsystem : attributes.value? "srsName" = none)
    (hframe : b.openFrame config (Markup.localName name) attributes b.stack.srs? = (b, frame)) :
    b.openElement config name attributes =
      { b with stack := ⟨name, b.stack.srs?, frame⟩ :: b.stack } := by
  rw [openElement_eq, hskip, hsystem]
  show b.enter config name attributes b.stack.srs? = _
  rw [enter, hframe]

/-- Attaching the second objects looks like attaching the first, to an object or to the model. -/
structure View.Attaches (v : View) (kept kept' : List CityObject) : Prop where
  object : ∀ o, kept'.foldl ObjectParts.addChild (v.object o) =
    v.object (kept.foldl ObjectParts.addChild o)
  model : ∀ m, kept'.foldl Model.addObject (v.model m) = v.model (kept.foldl Model.addObject m)

/-- What is kept of a finished object is attached alike, whatever its coverage is. -/
def View.Keeps (v : View) (config config' : Config) (o : ObjectParts) : Prop :=
  ∀ coverage object object', o.finish coverage = .ok object →
    (v.object o).finish coverage = .ok object' →
    v.Attaches (config.kept object) (config'.kept object')

/-- Two configurations, and how what is built under the first looks under the second. -/
structure Comparison where
  config : Config
  config' : Config
  view : View
  /-- How the reports so far compare. -/
  logs : List Diagnostic → List Diagnostic → Prop
  /-- What is known of the first run. -/
  sound : Builder → Prop := fun _ => True
  lods : config'.lods = config.lods
  kinds : config'.kinds = config.kinds
  closedRings : config'.closedRings = config.closedRings
  reprojection : config'.reprojection = config.reprojection
  keepsRings : KeepsRings view.polygon
  meshed : ∀ p, p.mesh = .pending → config'.meshed p = view.polygon (config.meshed p)
  forest_nil : view.forest [] = []
  logs_report : ∀ {l l'} d, logs l l' → logs (l ++ [d]) (l' ++ [d])
  logs_meshed : ∀ {l l'} p element, p.mesh = .pending → logs l l' →
    logs (l ++ (config.meshed p).reports element) (l' ++ (config'.meshed p).reports element)
  sound_apply : ∀ {b b₁ e}, sound b → b.apply config e = .ok b₁ → sound b₁ := by
    exact fun h _ => h
  /-- Keeping a finished object looks like keeping what it looks like. -/
  keeps : ∀ {b e outer o}, sound b → b.stack = e :: outer → e.frame = .object o →
    view.Keeps config config' o

namespace Comparison

/-- The second state is what the first looks like under the other configuration. -/
structure Alike (C : Comparison) (p : Padding) (i : Option Nat) (b b' : Builder) : Prop where
  model : b'.model = C.view.model b.model
  stack : C.view.Stacks p i b.stack b'.stack
  diagnostics : C.logs b.diagnostics b'.diagnostics
  generated : b'.generated = b.generated
  isAborted : b'.isAborted = b.isAborted

namespace Alike

variable {C : Comparison} {p : Padding} {i : Option Nat} {b b' : Builder}

/-! ### Single changes -/

theorem withStack (h : C.Alike p i b b') {j : Option Nat} {s s' : Stack}
    (hs : C.view.Stacks p j s s') :
    C.Alike p j { b with stack := s } { b' with stack := s' } where
  model := h.model
  stack := hs
  diagnostics := h.diagnostics
  generated := h.generated
  isAborted := h.isAborted

theorem withModel (h : C.Alike p i b b') {m m' : Model} (hm : m' = C.view.model m) :
    C.Alike p i { b with model := m } { b' with model := m' } where
  model := hm
  stack := h.stack
  diagnostics := h.diagnostics
  generated := h.generated
  isAborted := h.isAborted

theorem withDiagnostics (h : C.Alike p i b b') {l l' : List Diagnostic} (hl : C.logs l l') :
    C.Alike p i { b with diagnostics := l } { b' with diagnostics := l' } where
  model := h.model
  stack := h.stack
  diagnostics := hl
  generated := h.generated
  isAborted := h.isAborted

theorem objectId?_eq (h : C.Alike p i b b') : b'.stack.objectId? = b.stack.objectId? :=
  h.stack.objectId?_eq

theorem report (h : C.Alike p i b b') (problem : Problem) (element : Option String) :
    C.Alike p i (b.report problem element) (b'.report problem element) :=
  h.withDiagnostics (C.logs_report _ h.diagnostics)

theorem updateFeature (h : C.Alike p i b b') {change change' : Feature → Feature}
    (hchange : ∀ f, change' (C.view.feature f) = C.view.feature (change f)) :
    C.Alike p i (b.updateFeature change) (b'.updateFeature change') := by
  refine h.withStack (h.stack.updateObject fun o => ?_)
  simp only [View.object, hchange]

theorem register (h : C.Alike p i b b') (id : String) {d d' : Definition}
    (hd : d' = d.mapPolygons C.view.polygon) :
    C.Alike p i { b with model := b.model.register id d }
      { b' with model := b'.model.register id d' } := by
  refine h.withModel ?_
  rw [h.model, hd, Model.register, Model.register, View.model, View.model, Table.map_insert]

theorem recordReference (h : C.Alike p i b b') (id : String) {kind : ReferenceKind}
    (referrer : Option String) (hkind : kind ≠ .polygon) :
    C.Alike p i (b.recordReference id kind referrer) (b'.recordReference id kind referrer) := by
  refine h.withModel ?_
  generalize hr : Reference.ofLink id kind referrer = r
  have hne : r.kind ≠ .polygon := by rw [← hr]; exact hkind
  have hanswers : (C.view.model b.model).answers r = b.model.answers r := by
    rw [Model.answers_of_ne hne, Model.answers_of_ne hne]
    exact Model.isAnswered_congr b.model (C.view.model b.model) rfl rfl r.mention
  rw [h.model, Model.recordReference, Model.recordReference, hanswers]
  split
  · rfl
  · rw [Model.keepPending, Model.keepPending, View.model]
    split <;> rfl

theorem identify (h : C.Alike p i b b') (id : Option String) (stem : String) :
    C.Alike p i (b.identify id stem).1 (b'.identify id stem).1 ∧
      (b'.identify id stem).2 = (b.identify id stem).2 := by
  cases id with
  | some id => exact ⟨h, rfl⟩
  | none =>
    rw [Builder.identify, Builder.identify, h.generated]
    exact ⟨⟨h.model, h.stack, h.diagnostics, rfl, h.isAborted⟩, rfl⟩

/-! ### Reading the state -/

theorem systemDimension?_eq (h : C.Alike p i b b') (srs : Option String) :
    b'.systemDimension? srs = b.systemDimension? srs := by
  rw [Builder.systemDimension?, Builder.systemDimension?, h.model]
  cases srs with
  | none => rfl
  | some name =>
    rw [Option.bind_some, Option.bind_some]
    rcases Model.resolve?_cases b.model (C.view.model b.model) rfl rfl name with
      hsame | ⟨geometry, geometry', htemplate, htemplate'⟩
    · rw [hsame]
    · rw [htemplate, htemplate']

theorem reproject_eq (h : C.Alike p i b b') (srs : Option String) (points : List (Vec3 Float)) :
    b'.reproject C.config' srs points = b.reproject C.config srs points := by
  rw [Builder.reproject, Builder.reproject, C.reprojection, h.stack.inTemplate_eq, h.model]
  rfl

/-! ### Opening -/

theorem mentionSystem (h : C.Alike p i b b') (name : String) (attributes : Markup.Attributes) :
    C.Alike p i (b.mentionSystem name attributes) (b'.mentionSystem name attributes) := by
  have hcontains : b'.model.registry.contains name = b.model.registry.contains name := by
    rw [h.model]
    exact Table.contains_map _ _ _
  rw [Builder.mentionSystem, Builder.mentionSystem, hcontains, h.objectId?_eq]
  split
  · exact (h.withModel h.model).recordReference _ _ (by decide)
  · exact (h.register name rfl).recordReference _ _ (by decide)

theorem noteGeometry (h : C.Alike p i b b') (kind : GeometryKind) (id srs : Option String) :
    C.Alike p i (b.noteGeometry kind id srs) (b'.noteGeometry kind id srs) := by
  refine h.withStack (h.stack.updateGeometry fun g => ?_)
  rw [GeometryParts.note, GeometryParts.note, View.geometry]
  split <;> rfl

theorem onLink (h : C.Alike p i b b') (attributes : Markup.Attributes)
    {action : Builder → String → Builder}
    (haction : ∀ link, C.Alike p i (action b link) (action b' link)) :
    C.Alike p i (b.onLink attributes action) (b'.onLink attributes action) := by
  rw [Builder.onLink, Builder.onLink]
  split
  · exact haction _
  · exact h

theorem feature_addAppearance (v : View) (f : Feature) (id : String) :
    (v.feature f).addAppearance id = v.feature (f.addAppearance id) := by
  have happearances : (v.feature f).appearances = f.appearances := rfl
  rw [Feature.addAppearance, Feature.addAppearance, happearances]
  split <;> rfl

theorem referToAppearance (h : C.Alike p i b b') (link : String) :
    C.Alike p i (b.referToAppearance link) (b'.referToAppearance link) := by
  rw [Builder.referToAppearance, Builder.referToAppearance, h.objectId?_eq]
  refine (h.withStack (h.stack.updateObject fun o => ?_)).recordReference _ _ (by decide)
  rw [View.object, feature_addAppearance]
  rfl

theorem referToSurfaceData (h : C.Alike p i b b') (link : String) :
    C.Alike p i (b.referToSurfaceData link) (b'.referToSurfaceData link) := by
  rw [Builder.referToSurfaceData, Builder.referToSurfaceData, h.stack.appearance?_eq]
  exact (h.withStack (h.stack.updateAppearance _)).recordReference _ _ (by decide)

theorem referToTemplate (h : C.Alike p i b b') (link : String) :
    C.Alike p i (b.referToTemplate link) (b'.referToTemplate link) := by
  rw [Builder.referToTemplate, Builder.referToTemplate, h.objectId?_eq]
  exact (h.withStack (h.stack.updateImplicit fun g => rfl)).recordReference _ _ (by decide)

theorem acceptsKind_eq (C : Comparison) (kind : Kind) :
    C.config'.acceptsKind kind = C.config.acceptsKind kind := by
  rw [Config.acceptsKind, Config.acceptsKind, C.kinds]

theorem acceptsLod_eq (C : Comparison) (lod : Nat) :
    C.config'.acceptsLod lod = C.config.acceptsLod lod := by
  rw [Config.acceptsLod, Config.acceptsLod, C.lods]

/-- An element with an identifier of its own, or with a new one, holds nothing yet that could look
different. -/
theorem openIdentified (h : C.Alike p i b b') (id : Option String) (stem : String)
    (frame : String → Frame) (hframe : ∀ id, C.view.frame (frame id) = frame id) :
    C.Alike p i (b.identify id stem).1 (b'.identify id stem).1 ∧
      frame (b'.identify id stem).2 = C.view.frame (frame (b.identify id stem).2) := by
  obtain ⟨hstate, hid⟩ := h.identify id stem
  refine ⟨hstate, ?_⟩
  rw [hid, hframe]

/-- What opens in both runs looks the same, and so does what opening it changes further out. -/
theorem openFrame (h : C.Alike p i b b') (name : String) (attributes : Markup.Attributes)
    (srs : Option String) :
    C.Alike p i (b.openFrame C.config name attributes srs).1
        (b'.openFrame C.config' name attributes srs).1 ∧
      (b'.openFrame C.config' name attributes srs).2 =
        C.view.frame (b.openFrame C.config name attributes srs).2 := by
  unfold Builder.openFrame
  cases Element.ofTag name attributes with
  | object kind =>
    dsimp only
    rw [acceptsKind_eq]
    split
    · let opened (id : String) : Frame :=
        .object { feature := { id, kind }
                  grid := if kind = .rectifiedGridCoverage then some {} else none }
      refine h.openIdentified (attributes.value? "id") kind.idStem opened fun id => ?_
      rw [View.frame, View.object, C.forest_nil]
      rfl
    · exact ⟨h, rfl⟩
  | geometryProperty lod =>
    dsimp only
    rw [h.stack.reliefLod_eq, acceptsLod_eq]
    split <;> exact ⟨h, rfl⟩
  | implicitProperty lod =>
    dsimp only
    rw [acceptsLod_eq]
    split <;> exact ⟨h, rfl⟩
  | geometry kind => exact ⟨h.noteGeometry _ _ _, rfl⟩
  | polygon => exact ⟨h.noteGeometry _ _ _, rfl⟩
  | boundary role =>
    dsimp only
    rw [h.stack.owner?_eq]
    cases b.stack.owner? with
    | none => exact ⟨h, rfl⟩
    | some f => cases f <;> exact ⟨h, rfl⟩
  | appearance => exact h.openIdentified _ _ (fun id => .appearance { id }) fun _ => rfl
  | appearanceProperty => exact ⟨h.onLink _ h.referToAppearance, rfl⟩
  | material =>
    exact h.openIdentified _ _ (fun id => .surfaceData { id, surfacing := .material {} })
      fun _ => rfl
  | texture kind =>
    exact h.openIdentified _ _ (fun id => .surfaceData { id, surfacing := .texture { kind } })
      fun _ => rfl
  | surfaceDataProperty => exact ⟨h.onLink _ h.referToSurfaceData, rfl⟩
  | implicitGeometry =>
    dsimp only
    rw [h.stack.implicitLod?_eq]
    exact ⟨h, rfl⟩
  | relativeGeometry =>
    dsimp only
    rw [h.stack.implicitLod?_eq]
    split
    · exact ⟨h.referToTemplate _, rfl⟩
    · exact ⟨h, rfl⟩
  | _ => exact ⟨h, rfl⟩

theorem enter (h : C.Alike p i b b') (name : String) (attributes : Markup.Attributes)
    (srs : Option String) :
    C.Alike p (i.map (· + 1)) (b.enter C.config name attributes srs)
      (b'.enter C.config' name attributes srs) := by
  obtain ⟨hstate, hnew⟩ := h.openFrame (Markup.localName name) attributes srs
  rw [Builder.enter, Builder.enter, hnew]
  exact hstate.withStack (hstate.stack.cons ⟨name, srs, _⟩)

theorem openElement (h : C.Alike p i b b') (name : String) (attributes : Markup.Attributes) :
    C.Alike p (i.map (· + 1)) (b.openElement C.config name attributes)
      (b'.openElement C.config' name attributes) := by
  rw [Builder.openElement_eq, Builder.openElement_eq, h.stack.isSkipped_eq, h.stack.srs?_eq]
  split
  · exact h.withStack (h.stack.cons ⟨name, b.stack.srs?, .skipped⟩)
  · cases attributes.value? "srsName" with
    | none => exact h.enter name attributes _
    | some system => exact (h.mentionSystem system attributes).enter name attributes _

/-! ### Texts -/

/-- Character data goes to the innermost element.  On top of the padding it would be lost, so there
the element around must not collect it. -/
theorem addText (h : C.Alike p i b b') (content : String)
    (hi : i = some 0 → p.inText = false) :
    C.Alike p i (b.addText content) (b'.addText content) := by
  have hframe (f : Frame) : (C.view.frame f).takeText content =
      C.view.frame (f.takeText content) := by cases f <;> rfl
  rw [Builder.addText, Builder.addText]
  have hstack := h.stack
  generalize hs : b.stack = s at hstack
  generalize hs' : b'.stack = s' at hstack
  cases hstack with
  | nil => exact h
  | cons e hstack =>
    refine h.withStack ?_
    have hcons := hstack.cons { e with frame := e.frame.takeText content }
    rw [View.element, ← hframe] at hcons
    exact hcons
  | @padding x _ s' hx hstack =>
    have hpadding : x.frame.takeText content = x.frame := by rw [hx.frame]; rfl
    have htop : ∀ e ∈ s.head?, e.frame.takeText content = e.frame := by
      intro e he
      have hcollects := mt (hx.outer e he).2 (by simp [hi rfl])
      cases hf : e.frame with
      | text t => rw [hf] at hcollects; exact absurd rfl hcollects
      | _ => rfl
    dsimp only
    rw [hpadding]
    cases s with
    | nil =>
      have hpadded : C.view.Stacks p (some 0) b.stack (x :: s') := by
        rw [hs]
        exact .padding hx hstack
      exact h.withStack hpadded
    | cons e outer =>
      dsimp only
      rw [htop e rfl]
      exact h.withStack (.padding hx hstack)

theorem dimension?_eq (h : C.Alike p i b b') (srs : Option String)
    (attributes : Markup.Attributes) :
    b'.dimension? srs attributes = b.dimension? srs attributes := by
  rw [Builder.dimension?, Builder.dimension?, h.systemDimension?_eq]

theorem closePositions (h : C.Alike p i b b') (srs : Option String) (kind : PositionText)
    (attributes : Markup.Attributes) (text : String) :
    C.Alike p i (b.closePositions C.config srs kind attributes text)
      (b'.closePositions C.config' srs kind attributes text) := by
  rw [Builder.closePositions, Builder.closePositions, h.dimension?_eq]
  split
  · dsimp only
    rw [h.reproject_eq]
    refine h.withStack (h.stack.updateOwner fun f _ => ?_)
    cases f with
    | envelope e => cases kind <;> exact ⟨rfl, rfl⟩
    | _ => exact ⟨rfl, rfl⟩
  · rw [h.objectId?_eq]
    refine (h.withStack (h.stack.updateOwner fun f _ => ?_)).report _ _
    cases f <;> exact ⟨rfl, rfl⟩

/-- An implicit geometry takes a text whatever its template is. -/
theorem take_mapPolygons (g : ImplicitGeometry) (change : Polygon → Polygon)
    (property : Property) (text : String) :
    (g.mapPolygons change).take property text =
      (g.take property text).map (·.mapPolygons change) := by
  cases property with
  | transformationMatrix =>
    simp only [ImplicitGeometry.take]
    cases readMatrix text <;> rfl
  | _ => rfl

/-- A frame takes a text in the same way whatever polygons and objects it holds. -/
theorem takeProperty_frame (v : View) (f : Frame) (property : Property)
    (attributes : Markup.Attributes) (text : String) :
    (v.frame f).takeProperty property attributes text =
      (f.takeProperty property attributes text).map v.frame := by
  cases f with
  | object o =>
    obtain ⟨feature, children, grid⟩ := o
    cases grid with
    | none => rfl
    | some grid =>
      simp only [View.frame, View.object, Frame.takeProperty]
      cases grid.take property text <;> rfl
  | surfaceData d =>
    simp only [View.frame, Frame.takeProperty]
    cases d.take property text <;> rfl
  | textureTarget t =>
    simp only [View.frame, Frame.takeProperty]
    cases t.take property (attributes.value? "ring") text <;> rfl
  | implicitGeometry g =>
    simp only [View.frame, Frame.takeProperty, take_mapPolygons]
    cases g.take property text <;> rfl
  | _ => rfl

theorem role_takeProperty {f g : Frame} {property : Property} {attributes : Markup.Attributes}
    {text : String} (h : f.takeProperty property attributes text = .ok g) : g.role = f.role := by
  cases f with
  | surfaceData d => obtain ⟨_, -, hg⟩ := exists_of_bind_eq_ok h; cases hg; rfl
  | textureTarget t => obtain ⟨_, -, hg⟩ := exists_of_bind_eq_ok h; cases hg; rfl
  | implicitGeometry i => obtain ⟨_, -, hg⟩ := exists_of_bind_eq_ok h; cases hg; rfl
  | object o =>
    rw [Frame.takeProperty] at h
    split at h
    · obtain ⟨_, -, hg⟩ := exists_of_bind_eq_ok h
      cases hg
      rfl
    · cases h
      rfl
  | _ => cases h; rfl

theorem closeProperty (h : C.Alike p i b b') (property : Property)
    (attributes : Markup.Attributes) (text : String) :
    C.Alike p i (b.closeProperty property attributes text)
      (b'.closeProperty property attributes text) := by
  rw [Builder.closeProperty, Builder.closeProperty, h.stack.owner?_eq, h.objectId?_eq]
  cases howner : b.stack.owner? with
  | none => exact h
  | some owner =>
    dsimp only [Option.map_some]
    rw [takeProperty_frame]
    cases htake : owner.takeProperty property attributes text with
    | error fault => exact h.report _ _
    | ok g =>
      refine h.withStack (h.stack.updateOwner fun f hf => ?_)
      obtain rfl := Option.some.inj (howner.symm.trans hf)
      exact ⟨rfl, role_takeProperty htake⟩

theorem setAttribute (h : C.Alike p i b b') (name text : String) (type : ValueType)
    (unit : Option String) (problem : Problem) :
    C.Alike p i (b.setAttribute name text type unit problem)
      (b'.setAttribute name text type unit problem) := by
  rw [Builder.setAttribute, Builder.setAttribute, h.objectId?_eq]
  split
  · refine h.updateFeature fun f => ?_
    rfl
  · refine (h.updateFeature fun f => ?_).report _ _
    rfl

theorem setModelText (h : C.Alike p i b b') (name text : String) :
    C.Alike p i (b.setModelText name text) (b'.setModelText name text) := by
  unfold Builder.setModelText
  split
  · exact h.withModel (by rw [h.model]; rfl)
  · exact h.withModel (by rw [h.model]; rfl)
  · exact h

theorem closeThematic (h : C.Alike p i b b') (name : String) (attributes : Markup.Attributes)
    (text : String) :
    C.Alike p i (b.closeThematic name attributes text)
      (b'.closeThematic name attributes text) := by
  rw [Builder.closeThematic, Builder.closeThematic, h.stack.owner?_eq]
  cases b.stack.owner? with
  | none => exact h.setModelText name text
  | some f =>
    cases f with
    | object o => exact h.setAttribute _ _ _ _ _
    | model => exact h.setModelText name text
    | _ => exact h

theorem closeText (h : C.Alike p i b b') (srs : Option String) (t : TextParts) :
    C.Alike p i (b.closeText C.config srs t) (b'.closeText C.config' srs t) := by
  rw [Builder.closeText, Builder.closeText]
  cases t.element with
  | positions kind => exact h.closePositions _ _ _ _
  | property property => exact h.closeProperty _ _ _
  | thematic name => exact h.closeThematic _ _ _

/-! ### Geometry -/

theorem closeBoundary (h : C.Alike p i b b') (role : RingRole) (ring : Option LinearRing) :
    C.Alike p i (b.closeBoundary role ring) (b'.closeBoundary role ring) := by
  cases ring with
  | none => exact h
  | some ring =>
    refine h.withStack (h.stack.updateOwner fun f _ => ?_)
    cases f <;> exact ⟨rfl, rfl⟩

theorem closeRing (h : C.Alike p i b b') (r : RingParts) :
    C.Alike p i (b.closeRing C.config r) (b'.closeRing C.config' r) := by
  rw [Builder.closeRing, Builder.closeRing, C.closedRings, h.stack.polygon?_eq, h.objectId?_eq]
  dsimp only
  split
  · refine h.withStack (h.stack.updateOwner fun f _ => ?_)
    cases f <;> exact ⟨rfl, rfl⟩
  · exact (h.withStack (h.stack.updatePolygon _)).report _ _

theorem reportMesh_eq (b : Builder) (p : Polygon) :
    b.reportMesh p =
      { b with diagnostics := b.diagnostics ++ p.reports (p.id <|> b.stack.objectId?) } := by
  rw [Builder.reportMesh, Polygon.reports]
  cases p.failure? with
  | none => rw [Option.toList_none, List.map_nil, List.append_nil]
  | some failure => rfl

/-- A polygon may get its mesh in one run and not in the other. -/
theorem closePolygon (h : C.Alike p i b b') (parts : PolygonParts) :
    C.Alike p i (b.closePolygon C.config parts) (b'.closePolygon C.config' parts) := by
  rw [Builder.closePolygon, Builder.closePolygon, h.objectId?_eq]
  split
  · exact h
  · cases parts.exterior with
    | none => exact h.report _ _
    | some exterior =>
      dsimp only
      let pending : Polygon := { id := parts.id, exterior, interiors := parts.interiors }
      have hmeshed : C.config'.meshed pending = C.view.polygon (C.config.meshed pending) :=
        C.meshed pending rfl
      show C.Alike p i
        { b.reportMesh (C.config.meshed pending) with
          stack := (b.reportMesh (C.config.meshed pending)).stack.updateGeometry
            fun g => { g with polygons := g.polygons ++ [C.config.meshed pending] } }
        { b'.reportMesh (C.config'.meshed pending) with
          stack := (b'.reportMesh (C.config'.meshed pending)).stack.updateGeometry
            fun g => { g with polygons := g.polygons ++ [C.config'.meshed pending] } }
      rw [reportMesh_eq, reportMesh_eq, h.objectId?_eq, C.config.keepsRings_meshed.id,
        C.config'.keepsRings_meshed.id]
      refine (h.withDiagnostics (C.logs_meshed pending _ rfl h.diagnostics)).withStack
        (h.stack.updateGeometry fun g => ?_)
      simp only [View.geometry, List.map_append, List.map_singleton, hmeshed]

theorem geometryOf_eq (C : Comparison) (g : GeometryParts) :
    Builder.geometryOf C.config' (C.view.geometry g) =
      (Builder.geometryOf C.config g).mapPolygons C.view.polygon := by
  simp only [Builder.geometryOf, Config.destination?, C.reprojection]
  rfl

theorem registerTemplate (h : C.Alike p i b b') (geometry : Geometry) :
    C.Alike p i (b.registerTemplate geometry)
      (b'.registerTemplate (geometry.mapPolygons C.view.polygon)) := by
  have hid : (geometry.mapPolygons C.view.polygon).id = geometry.id := rfl
  rw [Builder.registerTemplate, Builder.registerTemplate, hid]
  cases geometry.id with
  | none => exact h
  | some id => exact h.register id rfl

theorem closeGeometry (h : C.Alike p i b b') (g : GeometryParts) :
    C.Alike p i (b.closeGeometry C.config g)
      (b'.closeGeometry C.config' (C.view.geometry g)) := by
  have hempty : (C.view.geometry g).polygons.isEmpty = g.polygons.isEmpty := List.isEmpty_map
  have htemplate : (C.view.geometry g).isTemplate = g.isTemplate := rfl
  rw [Builder.closeGeometry, Builder.closeGeometry, hempty, htemplate, geometryOf_eq]
  generalize Builder.geometryOf C.config g = geometry
  split
  · exact h
  · split
    · have hregistered := h.registerTemplate geometry
      exact hregistered.withStack (hregistered.stack.updateImplicit fun i => rfl)
    · refine h.updateFeature fun f => ?_
      simp only [View.feature, Feature.mapEach, List.map_append, List.map_singleton]

/-! ### Everything else -/

theorem closeGeneric (h : C.Alike p i b b') (g : GenericParts) :
    C.Alike p i (b.closeGeneric g) (b'.closeGeneric g) := by
  rw [Builder.closeGeneric, Builder.closeGeneric, h.objectId?_eq, h.stack.object?_eq,
    Option.isNone_map]
  split
  · exact h.report _ _
  · split
    · exact h
    · exact h.setAttribute _ _ _ _ _

theorem closeAppearance (h : C.Alike p i b b') (a : Appearance) :
    C.Alike p i (b.closeAppearance a) (b'.closeAppearance a) :=
  (h.register a.id rfl).updateFeature fun f => feature_addAppearance C.view f a.id

theorem closeSurfaceData (h : C.Alike p i b b') (d : SurfaceData) :
    C.Alike p i (b.closeSurfaceData d) (b'.closeSurfaceData d) :=
  (h.register d.id rfl).withStack (h.stack.updateAppearance _)

theorem closeTarget (h : C.Alike p i b b') (target : SurfaceTarget) :
    C.Alike p i (b.closeTarget target) (b'.closeTarget target) := by
  refine h.withStack (h.stack.updateOwner fun f _ => ?_)
  cases f <;> exact ⟨rfl, rfl⟩

theorem closeAddress (h : C.Alike p i b b') (a : Address) :
    C.Alike p i (b.closeAddress a) (b'.closeAddress a) := by
  rw [Builder.closeAddress, Builder.closeAddress]
  split
  · exact h
  · refine h.updateFeature fun f => ?_
    rfl

theorem closeEnvelope (h : C.Alike p i b b') (e : EnvelopeParts) :
    C.Alike p i (b.closeEnvelope e) (b'.closeEnvelope e) := by
  rw [Builder.closeEnvelope, Builder.closeEnvelope, h.stack.owner?_eq]
  dsimp only
  split
  · exact h
  · cases b.stack.owner? with
    | none => exact h.withModel (by rw [h.model]; rfl)
    | some f =>
      cases f with
      | object o =>
        refine h.updateFeature fun f => ?_
        rfl
      | model => exact h.withModel (by rw [h.model]; rfl)
      | _ => exact h

theorem closeImplicit (h : C.Alike p i b b') (g : ImplicitGeometry) :
    C.Alike p i (b.updateFeature fun f => { f with implicits := f.implicits ++ [g] })
      (b'.updateFeature fun f =>
        { f with implicits := f.implicits ++ [g.mapPolygons C.view.polygon] }) := by
  refine h.updateFeature fun f => ?_
  simp only [View.feature, Feature.mapEach, List.map_append, List.map_singleton]

theorem closePoint (h : C.Alike p i b b') (property : PointProperty)
    (value : Option (Vec3 Float)) :
    C.Alike p i (b.closePoint property value) (b'.closePoint property value) := by
  cases value with
  | none => exact h
  | some point =>
    refine h.withStack (h.stack.updateOwner fun f _ => ?_)
    cases f with
    | object o => dsimp only [View.frame]; split <;> exact ⟨rfl, rfl⟩
    | implicitGeometry g => dsimp only [View.frame]; split <;> exact ⟨rfl, rfl⟩
    | _ => exact ⟨rfl, rfl⟩

/-! ### Objects -/

theorem closeGrid (h : C.Alike p i b b') {o : ObjectParts} {m : Builder}
    {coverage : Option GridCoverage} (hgrid : b.closeGrid o = .ok (m, coverage)) :
    ∃ m', b'.closeGrid (C.view.object o) = .ok (m', coverage) ∧ C.Alike p i m m' := by
  have hgrid' : b'.closeGrid (C.view.object o) = b'.closeGrid o := rfl
  rw [hgrid']
  rw [Builder.closeGrid] at hgrid ⊢
  cases hparts : o.grid with
  | none =>
    rw [hparts] at hgrid
    cases hgrid
    exact ⟨b', rfl, h⟩
  | some grid =>
    rw [hparts] at hgrid
    obtain ⟨result, hbuild, hresult⟩ := exists_of_map_eq_ok hgrid
    dsimp only
    rw [hbuild]
    cases result with
    | ok coverage =>
      cases hresult
      exact ⟨b', rfl, h⟩
    | error fault =>
      cases hresult
      exact ⟨_, rfl, h.report _ _⟩

/-- Attaches finished objects to the innermost open object, or else to the model. -/
def attachAll (b : Builder) (objects : List CityObject) : Builder :=
  match b.stack.object? with
  | some _ =>
    { b with stack := b.stack.updateObject fun parent => objects.foldl .addChild parent }
  | none => { b with model := objects.foldl .addObject b.model }

theorem updateObject_self (s : Stack) : s.updateObject (fun o => o) = s := by
  induction s with
  | nil => rfl
  | cons e s ih =>
    obtain ⟨name, srs, frame⟩ := e
    cases frame with
    | object o => rfl
    | _ => exact congrArg (List.cons _) ih

theorem closeObject_eq (config : Config) {b m : Builder} {o : ObjectParts}
    {coverage : Option GridCoverage} {object : CityObject}
    (hgrid : b.closeGrid o = .ok (m, coverage)) (hfinish : o.finish coverage = .ok object) :
    b.closeObject config o = .ok (attachAll m (config.kept object)) := by
  refine Builder.closeObject_eq_ok_iff.2 ⟨m, coverage, object, hgrid, hfinish, ?_⟩
  rw [Config.kept, attachAll]
  split
  · split
    · simp only [List.foldl_nil, updateObject_self]
    · rfl
  · rfl

theorem closeObject (h : C.Alike p i b b') {o : ObjectParts}
    (hkeeps : C.view.Keeps C.config C.config' o) {m : Builder}
    (hclose : b.closeObject C.config o = .ok m) :
    ∃ m', b'.closeObject C.config' (C.view.object o) = .ok m' ∧ C.Alike p i m m' := by
  obtain ⟨a, coverage, object, hgrid, hfinish, -⟩ := Builder.closeObject_eq_ok_iff.1 hclose
  obtain ⟨a', hgrid', halike⟩ := h.closeGrid hgrid
  obtain ⟨object', hfinish'⟩ : ∃ object', (C.view.object o).finish coverage = .ok object' :=
    Builder.exists_finish_object_iff.2 (Builder.exists_finish_object_iff.1 ⟨object, hfinish⟩)
  have hkept := hkeeps coverage object object' hfinish hfinish'
  rw [closeObject_eq C.config hgrid hfinish] at hclose
  obtain rfl := Except.ok.inj hclose
  refine ⟨_, closeObject_eq C.config' hgrid' hfinish', ?_⟩
  rw [attachAll, attachAll, halike.stack.object?_eq]
  cases a.stack.object? with
  | some _ => exact halike.withStack (halike.stack.updateObject hkept.object)
  | none => exact halike.withModel (by rw [halike.model, hkept.model])

theorem closeFrame (h : C.Alike p i b b') (srs : Option String) (f : Frame)
    (hkeeps : ∀ o, f = .object o → C.view.Keeps C.config C.config' o) {m : Builder}
    (hclose : b.closeFrame C.config srs f = .ok m) :
    ∃ m', b'.closeFrame C.config' srs (C.view.frame f) = .ok m' ∧ C.Alike p i m m' := by
  have hok {c c' : Builder} (halike : C.Alike p i c c')
      (hc : (.ok c : Except Overflow Builder) = .ok m) :
      ∃ m', (.ok c' : Except Overflow Builder) = .ok m' ∧ C.Alike p i m m' := by
    obtain rfl := Except.ok.inj hc
    exact ⟨c', rfl, halike⟩
  cases f with
  | object o => exact h.closeObject (hkeeps o rfl) hclose
  | geometry g => exact hok (h.closeGeometry g) hclose
  | polygon parts => exact hok (h.closePolygon parts) hclose
  | boundary role ring => exact hok (h.closeBoundary role ring) hclose
  | ring r => exact hok (h.closeRing r) hclose
  | text t => exact hok (h.closeText srs t) hclose
  | generic g => exact hok (h.closeGeneric g) hclose
  | appearance a => exact hok (h.closeAppearance a) hclose
  | surfaceData d => exact hok (h.closeSurfaceData d) hclose
  | textureTarget t => exact hok (h.closeTarget t) hclose
  | envelope e => exact hok (h.closeEnvelope e) hclose
  | address a => exact hok (h.closeAddress a) hclose
  | implicitGeometry g => exact hok (h.closeImplicit g) hclose
  | point property value => exact hok (h.closePoint property value) hclose
  | model | transparent | skipped | implicitProperty => exact hok h hclose

end Alike

end Comparison

end Document

end CityScene
