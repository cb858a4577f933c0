import CityScene.Proofs.Document.Comparison
import CityScene.Proofs.Document.Step
import CityScene.Proofs.Document.Values
import CityScene.Proofs.Model.Stable
import CityScene.Proofs.Surface.Ring
import CityScene.Proofs.Table.History

/-!
# Where polygons come from

Everything that a model holds was put together from the texts of its document: points are what
position texts are read as, perhaps moved; rings are accepted from such points; polygons have such
rings, and a mesh if they get that at once; geometries have such polygons, at least one.
`Config.GivesModel` says so of a finished model, and `Config.Gives` of a state of reading, with what
is still being put together in the open elements.  It holds of every state (`gives_of_applyAll`).
-/

namespace CityScene

/-- What tessellation does not take away stays when a polygon gets its mesh. -/
theorem Polygon.Stable.meshed {P : Polygon → Prop} (hP : Polygon.Stable P) (config : Config)
    {p : Polygon} (hp : P p) : P (config.meshed p) := by
  rw [Config.meshed]
  split
  · exact hP.tessellate p config.smooth hp
  · exact hp

namespace Config

/-! ### What a configuration lets documents give -/

/-- Points are finite as they are written, or where such a point is moved. -/
def GivesPoint (config : Config) (p : Vec3 Float) : Prop :=
  p.isFinite = true ∨ ∃ r, config.reprojection = some r ∧
    ∃ name q, q.isFinite = true ∧ r.transform name q = some p

/-- Rings are accepted from points. -/
def GivesRing (config : Config) (r : LinearRing) : Prop :=
  ∃ points, (∀ p ∈ points, config.GivesPoint p) ∧
    LinearRing.ofPoints r.id points config.closedRings = .ok r

/-- Polygons have rings, and are not bound to anything. -/
def GivesPolygon (config : Config) (p : Polygon) : Prop :=
  ∃ pending : Polygon, (∀ r ∈ pending.rings, config.GivesRing r) ∧ pending.mesh = .pending ∧
    pending.bindings = [] ∧ config.meshed pending = p

/-- Geometries have polygons, at least one. -/
def GivesGeometry (config : Config) (g : Geometry) : Prop :=
  g.polygons ≠ [] ∧ ∀ p ∈ g.polygons, config.GivesPolygon p

def GivesTemplate (config : Config) : Template → Prop
  | .inline geometry => config.GivesGeometry geometry
  | _ => True

def GivesDefinition (config : Config) : Definition → Prop
  | .template geometry => config.GivesGeometry geometry
  | _ => True

def GivesFeature (config : Config) (f : Feature) : Prop :=
  (∀ g ∈ f.geometries, config.GivesGeometry g) ∧ ∀ i ∈ f.implicits, config.GivesTemplate i.template

def GivesObjects (config : Config) (objects : List CityObject) : Prop :=
  ∀ f ∈ Tree.forestLabels objects, config.GivesFeature f

/-- All that a finished model holds is given. -/
structure GivesModel (config : Config) (m : Model) : Prop where
  objects : config.GivesObjects m.objects
  registry : ∀ e ∈ m.registry.entries, config.GivesDefinition e.2

theorem givesObjects_nil (config : Config) : config.GivesObjects [] :=
  fun _ hf => absurd hf List.not_mem_nil

theorem GivesObjects.append {config : Config} {s t : List CityObject} (hs : config.GivesObjects s)
    (ht : config.GivesObjects t) : config.GivesObjects (s ++ t) := fun f hf => by
  rw [Tree.forestLabels_append] at hf
  exact (List.mem_append.1 hf).elim (hs f) (ht f)

end Config

namespace Config.GivesModel

variable {config : Config} {m : Model}

theorem register (h : config.GivesModel m) (id : String) {d : Definition}
    (hd : config.GivesDefinition d) : config.GivesModel (m.register id d) where
  objects := h.objects
  registry := by
    rintro ⟨name, d'⟩ he
    rw [Model.register, Table.mem_entries_iff, Table.get?_insert] at he
    split at he
    · exact Option.some.inj he ▸ hd
    · exact h.registry (name, d') (Table.mem_entries_iff.2 he)

theorem recordReference (h : config.GivesModel m) (r : Reference) :
    config.GivesModel (m.recordReference r) := by
  rcases m.recordReference_cases r with hr | hr <;> rw [hr] <;> exact ⟨h.objects, h.registry⟩

/-- Every geometry, of an object or a template, is one that documents can give. -/
theorem givesGeometry (h : config.GivesModel m) {g : Geometry}
    (hg : g ∈ m.geometries ++ m.templates) : config.GivesGeometry g := by
  rw [Model.templates, List.mem_append, List.mem_append] at hg
  rcases hg with hg | hg | hg
  · obtain ⟨f, hf, hg⟩ := List.mem_flatMap.1 hg
    exact (h.objects f hf).1 g hg
  · obtain ⟨f, hf, hg⟩ := List.mem_flatMap.1 hg
    obtain ⟨i, hi, hinline⟩ := List.mem_filterMap.1 hg
    have htemplate := (h.objects f hf).2 i hi
    cases ht : i.template with
    | inline geometry => rw [ht] at hinline htemplate; cases hinline; exact htemplate
    | _ => rw [ht] at hinline; cases hinline
  · obtain ⟨e, he, hdefined⟩ := List.mem_filterMap.1 hg
    have hdefinition := h.registry e he
    cases hd : e.2 with
    | template geometry => rw [hd] at hdefined hdefinition; cases hdefined; exact hdefinition
    | _ => rw [hd] at hdefined; cases hdefined

end Config.GivesModel

/-! ### States of reading -/

open Document

namespace Config

/-- What has been collected for an open element. -/
def GivesFrame (config : Config) : Frame → Prop
  | .object o => config.GivesFeature o.feature ∧ config.GivesObjects o.children
  | .geometry g => ∀ p ∈ g.polygons, config.GivesPolygon p
  | .polygon p => (∀ r ∈ p.exterior, config.GivesRing r) ∧ ∀ r ∈ p.interiors, config.GivesRing r
  | .boundary _ ring => ∀ r ∈ ring, config.GivesRing r
  | .ring r => ∀ p ∈ r.points, config.GivesPoint p
  | .implicitGeometry i => config.GivesTemplate i.template
  | _ => True

def GivesStack (config : Config) (s : Stack) : Prop :=
  ∀ e ∈ s, config.GivesFrame e.frame

/-- Everything that has been put together so far comes from the document. -/
structure Gives (config : Config) (b : Builder) : Prop where
  model : config.GivesModel b.model
  stack : config.GivesStack b.stack

namespace GivesStack

variable {config : Config} {s : Stack}

theorem cons {e : OpenElement} (he : config.GivesFrame e.frame) (hs : config.GivesStack s) :
    config.GivesStack (e :: s) :=
  List.forall_mem_cons.2 ⟨he, hs⟩

theorem updateNearest {stop : Frame → Bool} {change : Frame → Option Frame}
    (hs : config.GivesStack s)
    (hchange : ∀ f g, change f = some g → config.GivesFrame f → config.GivesFrame g) :
    config.GivesStack (s.updateNearest stop change) := by
  induction s with
  | nil => exact hs
  | cons e outer ih =>
    obtain ⟨he, houter⟩ := List.forall_mem_cons.1 hs
    rw [Stack.updateNearest]
    split
    · next g hg => exact cons (hchange _ _ hg he) houter
    · split
      · exact hs
      · exact cons he (ih houter)

theorem updateOwner {change : Frame → Frame} (hs : config.GivesStack s)
    (hchange : ∀ f, s.owner? = some f → config.GivesFrame f → config.GivesFrame (change f)) :
    config.GivesStack (s.updateOwner change) := by
  induction s with
  | nil => exact hs
  | cons e outer ih =>
    obtain ⟨he, houter⟩ := List.forall_mem_cons.1 hs
    rw [Stack.updateOwner]
    by_cases ht : e.frame.isTransparent = true
    · have howner : Stack.owner? (e :: outer) = Stack.owner? outer := by simp [Stack.owner?, ht]
      rw [if_pos ht]
      exact cons he (ih houter (howner ▸ hchange))
    · have howner : Stack.owner? (e :: outer) = some e.frame := by simp [Stack.owner?, ht]
      rw [if_neg ht]
      exact cons (hchange _ howner he) houter

theorem updateObject {change : ObjectParts → ObjectParts} (hs : config.GivesStack s)
    (hchange : ∀ o, config.GivesFrame (.object o) → config.GivesFrame (.object (change o))) :
    config.GivesStack (s.updateObject change) :=
  hs.updateNearest fun f g hg hf => by cases f <;> cases hg; exact hchange _ hf

theorem updateGeometry {change : GeometryParts → GeometryParts} (hs : config.GivesStack s)
    (hchange : ∀ g, config.GivesFrame (.geometry g) → config.GivesFrame (.geometry (change g))) :
    config.GivesStack (s.updateGeometry change) :=
  hs.updateNearest fun f g hg hf => by cases f <;> cases hg; exact hchange _ hf

theorem updatePolygon {change : PolygonParts → PolygonParts} (hs : config.GivesStack s)
    (hchange : ∀ p, config.GivesFrame (.polygon p) → config.GivesFrame (.polygon (change p))) :
    config.GivesStack (s.updatePolygon change) :=
  hs.updateNearest fun f g hg hf => by cases f <;> cases hg; exact hchange _ hf

theorem updateImplicit {change : ImplicitGeometry → ImplicitGeometry} (hs : config.GivesStack s)
    (hchange : ∀ i, config.GivesTemplate i.template → config.GivesTemplate (change i).template) :
    config.GivesStack (s.updateImplicit change) :=
  hs.updateNearest fun f g hg hf => by cases f <;> cases hg; exact hchange _ hf

theorem updateAppearance (change : Appearance → Appearance) (hs : config.GivesStack s) :
    config.GivesStack (s.updateAppearance change) :=
  hs.updateNearest fun f g hg _ => by cases f <;> cases hg; exact trivial

end GivesStack

namespace Gives

variable {config : Config} {b : Builder}

theorem withStack (h : config.Gives b) {s : Stack} (hs : config.GivesStack s) :
    config.Gives { b with stack := s } :=
  ⟨h.model, hs⟩

theorem report (h : config.Gives b) (problem : Problem) (element : Option String) :
    config.Gives (b.report problem element) :=
  ⟨h.model, h.stack⟩

theorem recordReference (h : config.Gives b) (id : String) (kind : ReferenceKind)
    (referrer : Option String) : config.Gives (b.recordReference id kind referrer) :=
  ⟨h.model.recordReference _, h.stack⟩

theorem register (h : config.Gives b) (id : String) {d : Definition}
    (hd : config.GivesDefinition d) :
    config.Gives { b with model := b.model.register id d } :=
  ⟨h.model.register id hd, h.stack⟩

theorem updateFeature (h : config.Gives b) {change : Feature → Feature}
    (hchange : ∀ f, config.GivesFeature f → config.GivesFeature (change f)) :
    config.Gives (b.updateFeature change) :=
  h.withStack (h.stack.updateObject fun _ ho => ⟨hchange _ ho.1, ho.2⟩)

theorem identify (h : config.Gives b) (id : Option String) (stem : String) :
    config.Gives (b.identify id stem).1 := by
  cases id with
  | some id => exact h
  | none => exact ⟨h.model, h.stack⟩

/-! ### Opening -/

theorem mentionSystem (h : config.Gives b) (name : String) (attributes : Markup.Attributes) :
    config.Gives (b.mentionSystem name attributes) := by
  rw [Builder.mentionSystem]
  split
  · exact h.recordReference _ _ _
  · exact (h.register name (d := .referenceSystem _) trivial).recordReference _ _ _

theorem noteGeometry (h : config.Gives b) (kind : GeometryKind) (id srs : Option String) :
    config.Gives (b.noteGeometry kind id srs) := by
  refine h.withStack (h.stack.updateGeometry fun g hg => ?_)
  rw [GeometryParts.note]
  split <;> exact hg

theorem givesFeature_addAppearance {f : Feature} (hf : config.GivesFeature f) (id : String) :
    config.GivesFeature (f.addAppearance id) := by
  rw [Feature.addAppearance]
  split <;> exact hf

theorem onLink (h : config.Gives b) (attributes : Markup.Attributes)
    {action : Builder → String → Builder} (haction : ∀ link, config.Gives (action b link)) :
    config.Gives (b.onLink attributes action) := by
  rw [Builder.onLink]
  split
  · exact haction _
  · exact h

theorem referToAppearance (h : config.Gives b) (link : String) :
    config.Gives (b.referToAppearance link) := by
  refine (h.withStack (h.stack.updateObject fun o ho => ?_)).recordReference _ _ _
  exact ⟨givesFeature_addAppearance ho.1 _, ho.2⟩

theorem referToSurfaceData (h : config.Gives b) (link : String) :
    config.Gives (b.referToSurfaceData link) :=
  (h.withStack (h.stack.updateAppearance _)).recordReference _ _ _

theorem referToTemplate (h : config.Gives b) (link : String) :
    config.Gives (b.referToTemplate link) := by
  refine (h.withStack (h.stack.updateImplicit fun i _ => ?_)).recordReference _ _ _
  exact trivial

/-- Nothing has been collected yet for a new element. -/
theorem openFrame (h : config.Gives b) (name : String) (attributes : Markup.Attributes)
    (srs : Option String) : config.Gives (b.openFrame config name attributes srs).1 ∧
      config.GivesFrame (b.openFrame config name attributes srs).2 := by
  unfold Builder.openFrame
  cases Element.ofTag name attributes with
  | object kind =>
    dsimp only
    split
    · exact ⟨h.identify _ _, ⟨nofun, nofun⟩, config.givesObjects_nil⟩
    · exact ⟨h, trivial⟩
  | geometryProperty lod =>
    dsimp only
    split
    · exact ⟨h, nofun⟩
    · exact ⟨h, trivial⟩
  | implicitProperty lod =>
    dsimp only
    split <;> exact ⟨h, trivial⟩
  | geometry kind => exact ⟨h.noteGeometry _ _ _, trivial⟩
  | polygon => exact ⟨h.noteGeometry _ _ _, nofun, nofun⟩
  | boundary role =>
    dsimp only
    split
    · exact ⟨h, nofun⟩
    · exact ⟨h, trivial⟩
  | ring => exact ⟨h, nofun⟩
  | appearance => exact ⟨h.identify _ _, trivial⟩
  | appearanceProperty => exact ⟨h.onLink _ h.referToAppearance, trivial⟩
  | material => exact ⟨h.identify _ _, trivial⟩
  | texture kind => exact ⟨h.identify _ _, trivial⟩
  | surfaceDataProperty => exact ⟨h.onLink _ h.referToSurfaceData, trivial⟩
  | relativeGeometry =>
    dsimp only
    split
    · exact ⟨h.referToTemplate _, trivial⟩
    · exact ⟨h, nofun⟩
  | _ => exact ⟨h, trivial⟩

theorem enter (h : config.Gives b) (name : String) (attributes : Markup.Attributes)
    (srs : Option String) : config.Gives (b.enter config name attributes srs) := by
  obtain ⟨hopened, hframe⟩ := h.openFrame (Markup.localName name) attributes srs
  exact hopened.withStack (hopened.stack.cons hframe)

theorem openElement (h : config.Gives b) (name : String) (attributes : Markup.Attributes) :
    config.Gives (b.openElement config name attributes) := by
  rw [Builder.openElement_eq]
  split
  · exact h.withStack (h.stack.cons trivial)
  · split
    · exact (h.mentionSystem _ attributes).enter name attributes _
    · exact h.enter name attributes _

/-! ### Texts -/

theorem addText (h : config.Gives b) (content : String) : config.Gives (b.addText content) := by
  rw [Builder.addText]
  split
  · exact h
  · next e outer hstack =>
    obtain ⟨he, houter⟩ := List.forall_mem_cons.1 (hstack ▸ h.stack)
    refine h.withStack (.cons ?_ houter)
    cases hf : e.frame <;> rw [hf] at he <;> exact he

/-- Finite points may be moved, but stay points that can be given. -/
theorem givesPoint_reproject (config : Config) (b : Builder) (srs : Option String)
    {points : List (Vec3 Float)} (hpoints : ∀ p ∈ points, p.isFinite = true) :
    ∀ p ∈ b.reproject config srs points, config.GivesPoint p := by
  have hgiven : ∀ p ∈ points, config.GivesPoint p := fun p hp => .inl (hpoints p hp)
  rw [Builder.reproject]
  split
  · next r name hr _ =>
    split
    · exact hgiven
    · intro p hp
      obtain ⟨q, hq, rfl⟩ := List.mem_map.1 hp
      cases hmoved : r.transform name q with
      | none => exact hgiven q hq
      | some p => exact .inr ⟨r, hr, name, q, hpoints q hq, hmoved⟩
  · exact hgiven

theorem closePositions (h : config.Gives b) (srs : Option String) (kind : PositionText)
    (attributes : Markup.Attributes) (text : String) :
    config.Gives (b.closePositions config srs kind attributes text) := by
  rw [Builder.closePositions]
  split
  · next points hread =>
    have hpoints := givesPoint_reproject config b srs fun p hp =>
      PositionText.isFinite_of_read hread hp
    -- only a ring collects the points, all other frames hold none that count
    refine h.withStack (h.stack.updateOwner fun f _ hf => ?_)
    cases f with
    | ring r => exact fun p hp => (List.mem_append.1 hp).elim (hf p) (hpoints p)
    | envelope e => cases kind <;> exact trivial
    | _ => exact hf
  · refine (h.withStack (h.stack.updateOwner fun f _ hf => ?_)).report _ _
    cases f <;> exact hf

theorem givesFrame_takeProperty {f g : Frame} {property : Property}
    {attributes : Markup.Attributes} {text : String}
    (hg : f.takeProperty property attributes text = .ok g) (hf : config.GivesFrame f) :
    config.GivesFrame g := by
  cases f with
  | object o =>
    rw [Frame.takeProperty] at hg
    split at hg
    · obtain ⟨grid, -, hg⟩ := exists_of_bind_eq_ok hg
      cases hg
      exact hf
    · cases hg
      exact hf
  | surfaceData d => obtain ⟨_, -, hg⟩ := exists_of_bind_eq_ok hg; cases hg; exact trivial
  | textureTarget t => obtain ⟨_, -, hg⟩ := exists_of_bind_eq_ok hg; cases hg; exact trivial
  | implicitGeometry i =>
    obtain ⟨i', htake, hg⟩ := exists_of_bind_eq_ok hg
    cases hg
    have htemplate : i'.template = i.template := by
      unfold ImplicitGeometry.take at htake
      split at htake
      · cases htake; rfl
      · cases htake; rfl
      · obtain ⟨_, -, htake⟩ := exists_of_bind_eq_ok htake; cases htake; rfl
      · cases htake; rfl
    rw [GivesFrame, htemplate]
    exact hf
  | _ => cases hg; exact hf

theorem closeProperty (h : config.Gives b) (property : Property) (attributes : Markup.Attributes)
    (text : String) : config.Gives (b.closeProperty property attributes text) := by
  rw [Builder.closeProperty]
  split
  · exact h
  · next owner howner =>
    split
    · next g hg =>
      refine h.withStack (h.stack.updateOwner fun f hf hgives => ?_)
      obtain rfl := Option.some.inj (howner.symm.trans hf)
      exact givesFrame_takeProperty hg hgives
    · exact h.report _ _

theorem setAttribute (h : config.Gives b) (name text : String) (type : ValueType)
    (unit : Option String) (problem : Problem) :
    config.Gives (b.setAttribute name text type unit problem) := by
  rw [Builder.setAttribute]
  split
  · exact h.updateFeature fun _ hf => hf
  · refine (h.updateFeature fun f hf => ?_).report _ _
    exact hf

theorem setModelText (h : config.Gives b) (name text : String) :
    config.Gives (b.setModelText name text) := by
  unfold Builder.setModelText
  split
  · exact ⟨⟨h.model.objects, h.model.registry⟩, h.stack⟩
  · exact ⟨⟨h.model.objects, h.model.registry⟩, h.stack⟩
  · exact h

theorem closeText (h : config.Gives b) (srs : Option String) (t : TextParts) :
    config.Gives (b.closeText config srs t) := by
  rw [Builder.closeText]
  cases t.element with
  | positions kind => exact h.closePositions _ _ _ _
  | property property => exact h.closeProperty _ _ _
  | thematic name =>
    dsimp only
    rw [Builder.closeThematic]
    split
    · exact h.setAttribute _ _ _ _ _
    · exact h.setModelText _ _
    · exact h.setModelText _ _
    · exact h

theorem closeGeneric (h : config.Gives b) (g : GenericParts) : config.Gives (b.closeGeneric g) := by
  rw [Builder.closeGeneric]
  split
  · exact h.report _ _
  · split
    · exact h
    · exact h.setAttribute _ _ _ _ _

/-! ### Geometry -/

theorem closeRing (h : config.Gives b) {r : RingParts} (hr : config.GivesFrame (.ring r)) :
    config.Gives (b.closeRing config r) := by
  rw [Builder.closeRing]
  dsimp only
  split
  · next ring haccepted =>
    split at haccepted
    · cases haccepted
    · have hid := (LinearRing.of_ofPoints_eq_ok haccepted).1
      -- what goes to the boundary has been checked just now
      have hring : config.GivesRing ring := ⟨r.points, hr, by rw [hid, haccepted]⟩
      refine h.withStack (h.stack.updateOwner fun f _ hf => ?_)
      cases f with
      | boundary role _ => exact fun r hr => Option.some.inj hr ▸ hring
      | _ => exact hf
  · refine (h.withStack (h.stack.updatePolygon fun p hp => ?_)).report _ _
    exact hp

theorem closeBoundary (h : config.Gives b) (role : RingRole) {ring : Option LinearRing}
    (hring : config.GivesFrame (.boundary role ring)) :
    config.Gives (b.closeBoundary role ring) := by
  cases ring with
  | none => exact h
  | some ring =>
    have hgiven : config.GivesRing ring := hring ring rfl
    refine h.withStack (h.stack.updateOwner fun f _ hf => ?_)
    cases f with
    | polygon p =>
      cases role with
      | exterior => exact ⟨fun r hr => Option.some.inj hr ▸ hgiven, hf.2⟩
      | interior =>
        refine ⟨hf.1, fun r hr => ?_⟩
        rcases List.mem_append.1 hr with hr | hr
        · exact hf.2 r hr
        · exact List.mem_singleton.1 hr ▸ hgiven
    | _ => exact hf

theorem closePolygon (h : config.Gives b) {p : PolygonParts}
    (hp : config.GivesFrame (.polygon p)) : config.Gives (b.closePolygon config p) := by
  rw [Builder.closePolygon]
  split
  · exact h
  · split
    · exact h.report _ _
    · next exterior hexterior =>
      let pending : Polygon := { id := p.id, exterior, interiors := p.interiors }
      have hpolygon : config.GivesPolygon (config.meshed pending) :=
        ⟨pending, List.forall_mem_cons.2 ⟨hp.1 exterior hexterior, hp.2⟩, rfl, rfl, rfl⟩
      have hreport : config.Gives (b.reportMesh (config.meshed pending)) := by
        rw [Builder.reportMesh]
        split
        · exact h.report _ _
        · exact h
      refine hreport.withStack (hreport.stack.updateGeometry fun g hg q hq => ?_)
      rcases List.mem_append.1 hq with hq | hq
      · exact hg q hq
      · exact List.mem_singleton.1 hq ▸ hpolygon

theorem closeGeometry (h : config.Gives b) {g : GeometryParts}
    (hg : config.GivesFrame (.geometry g)) : config.Gives (b.closeGeometry config g) := by
  rw [Builder.closeGeometry]
  split
  · exact h
  · next hne =>
    have hgeometry : config.GivesGeometry (Builder.geometryOf config g) :=
      ⟨fun hnil => hne (List.isEmpty_iff.2 hnil), hg⟩
    dsimp only
    split
    · have hregister : config.Gives (b.registerTemplate (Builder.geometryOf config g)) := by
        rw [Builder.registerTemplate]
        split
        · exact h.register _ hgeometry
        · exact h
      exact hregister.withStack (hregister.stack.updateImplicit fun _ _ => hgeometry)
    · refine h.updateFeature fun f hf => ⟨fun g' hg' => ?_, hf.2⟩
      rcases List.mem_append.1 hg' with hg' | hg'
      · exact hf.1 g' hg'
      · exact List.mem_singleton.1 hg' ▸ hgeometry

/-! ### Objects -/

theorem attachObject (h : config.Gives b) {o : CityObject} (ho : config.GivesObjects [o]) :
    config.Gives (b.attachObject o) := by
  rw [Builder.attachObject]
  split
  · exact h.withStack (h.stack.updateObject fun _ hparts => ⟨hparts.1, hparts.2.append ho⟩)
  · exact ⟨⟨h.model.objects.append ho, h.model.registry⟩, h.stack⟩

theorem closeObject {b' : Builder} (h : config.Gives b) {o : ObjectParts}
    (ho : config.GivesFrame (.object o)) (hclose : b.closeObject config o = .ok b') :
    config.Gives b' := by
  obtain ⟨m, coverage, object, hgrid, hfinish, rfl⟩ := Builder.closeObject_eq_ok_iff.1 hclose
  have hm : config.Gives m := by
    rcases Builder.closeGrid_cases hgrid with rfl | ⟨fault, rfl⟩
    · exact h
    · exact h.report _ _
  have hobject : config.GivesObjects [object] := by
    obtain ⟨envelope, -, rfl⟩ := exists_of_map_eq_ok hfinish
    rw [GivesObjects, Tree.forestLabels, Tree.forestLabels, List.append_nil, Tree.labels]
    exact List.forall_mem_cons.2 ⟨ho.1, ho.2⟩
  split
  · exact hm
  · exact hm.attachObject hobject

/-! ### Everything else -/

theorem closeSurfaceData (h : config.Gives b) (d : SurfaceData) :
    config.Gives (b.closeSurfaceData d) := by
  have hregister := h.register d.id (d := .surfaceData d) trivial
  exact hregister.withStack (h.stack.updateAppearance _)

theorem closeAppearance (h : config.Gives b) (a : Appearance) :
    config.Gives (b.closeAppearance a) :=
  (h.register a.id (d := .appearance a) trivial).updateFeature fun _ hf =>
    givesFeature_addAppearance hf a.id

theorem closeTarget (h : config.Gives b) (target : SurfaceTarget) :
    config.Gives (b.closeTarget target) := by
  refine h.withStack (h.stack.updateOwner fun f _ hf => ?_)
  cases f <;> exact hf

theorem closeEnvelope (h : config.Gives b) (e : EnvelopeParts) :
    config.Gives (b.closeEnvelope e) := by
  rw [Builder.closeEnvelope]
  dsimp only
  split
  · exact h
  · split
    · exact h.updateFeature fun _ hf => hf
    · exact ⟨⟨h.model.objects, h.model.registry⟩, h.stack⟩
    · exact ⟨⟨h.model.objects, h.model.registry⟩, h.stack⟩
    · exact h

theorem closeAddress (h : config.Gives b) (a : Address) : config.Gives (b.closeAddress a) := by
  rw [Builder.closeAddress]
  split
  · exact h
  · exact h.updateFeature fun _ hf => hf

theorem closePoint (h : config.Gives b) (property : PointProperty) (value : Option (Vec3 Float)) :
    config.Gives (b.closePoint property value) := by
  cases value with
  | none => exact h
  | some p =>
    refine h.withStack (h.stack.updateOwner fun f _ hf => ?_)
    cases f with
    | object o => dsimp only; split <;> exact hf
    | implicitGeometry i => dsimp only; split <;> exact hf
    | _ => exact hf

/-- An implicit geometry joins those of the object around it. -/
theorem closeImplicit (h : config.Gives b) {i : ImplicitGeometry}
    (hi : config.GivesFrame (.implicitGeometry i)) :
    config.Gives (b.updateFeature fun f => { f with implicits := f.implicits ++ [i] }) := by
  refine h.updateFeature fun f hf => ⟨hf.1, fun j hj => ?_⟩
  rcases List.mem_append.1 hj with hj | hj
  · exact hf.2 j hj
  · exact List.mem_singleton.1 hj ▸ hi

theorem closeFrame {b' : Builder} (h : config.Gives b) {srs : Option String} {f : Frame}
    (hf : config.GivesFrame f) (hclose : b.closeFrame config srs f = .ok b') : config.Gives b' := by
  have hok {c : Builder} (hc : config.Gives c) (heq : (.ok c : Except Overflow Builder) = .ok b') :
      config.Gives b' := Except.ok.inj heq ▸ hc
  cases f with
  | object o => exact h.closeObject hf hclose
  | geometry g => exact hok (h.closeGeometry hf) hclose
  | polygon p => exact hok (h.closePolygon hf) hclose
  | boundary role ring => exact hok (h.closeBoundary role hf) hclose
  | ring r => exact hok (h.closeRing hf) hclose
  | text t => exact hok (h.closeText srs t) hclose
  | generic g => exact hok (h.closeGeneric g) hclose
  | appearance a => exact hok (h.closeAppearance a) hclose
  | surfaceData d => exact hok (h.closeSurfaceData d) hclose
  | textureTarget t => exact hok (h.closeTarget t) hclose
  | envelope e => exact hok (h.closeEnvelope e) hclose
  | address a => exact hok (h.closeAddress a) hclose
  | implicitGeometry i => exact hok (h.closeImplicit hf) hclose
  | point property value => exact hok (h.closePoint property value) hclose
  | model | transparent | skipped | implicitProperty => exact hok h hclose

/-! ### Runs -/

/-- **An accepted event adds nothing but what the document gives.** -/
theorem apply {b' : Builder} {e : Event} (h : config.Gives b) (hb : b.apply config e = .ok b') :
    config.Gives b' := by
  cases e with
  | offset bytes => cases hb; exact ⟨h.model, h.stack⟩
  | opened name attributes =>
    rw [Builder.apply] at hb
    split at hb <;> cases hb
    exact h.openElement name attributes
  | text content =>
    rw [Builder.apply] at hb
    split at hb <;> cases hb
    exact h.addText content
  | closed name =>
    rw [Builder.apply] at hb
    split at hb
    · cases hb
    · obtain ⟨e, outer, hstack, -, hclose⟩ := Builder.exists_of_closeElement hb
      obtain ⟨he, houter⟩ := List.forall_mem_cons.1 (hstack ▸ h.stack)
      exact (h.withStack houter).closeFrame he hclose

theorem applyAll {b' : Builder} {events : List Event} (h : config.Gives b)
    (hb : b.applyAll config events = .ok b') : config.Gives b' := by
  induction events generalizing b with
  | nil => cases hb; exact h
  | cons e events ih =>
    obtain ⟨m, he, hrest⟩ := Builder.applyAll_cons_eq_ok hb
    exact ih (h.apply he) hrest

end Gives

/-- **All that is read comes from the document.** -/
theorem gives_of_applyAll {config : Config} {events : List Event} {b : Builder}
    (h : (Builder.start config).applyAll config events = .ok b) : config.Gives b := by
  have hstart : config.Gives (Builder.start config) :=
    ⟨⟨config.givesObjects_nil, fun _ he => absurd he List.not_mem_nil⟩,
      fun _ he => absurd he List.not_mem_nil⟩
  exact hstart.applyAll h

end Config

end CityScene
