import CityScene.Proofs.Document.Frames
import CityScene.Proofs.Table.History

/-!
# What documents define

Two things are registered while a document is read.  An opening tag registers the reference system
that it names, if nothing is registered under that name yet (`Builder.mention?`); and the end of an
element registers what has been put together for it, if that is an appearance, surface data or a
template (`Frame.definition?`).

Apart from that, an event keeps the registry and the roles of the open elements, and it brings in no
identifiers but those that its tag gives (`Builder.Keeps`).  That is so for opening tags once the
system is registered (`openElement_keeps`), and for closing tags once the definition is
(`closeFrame_keeps`).
-/

namespace CityScene

theorem Table.contains_insert_self {α : Type} (t : Table α) (name : String) (value : α) :
    (t.insert name value).contains name = true := by
  rw [contains_eq_isSome, get?_insert, if_pos rfl]
  rfl

theorem Table.contains_insert {α : Type} {t : Table α} {name : String}
    (h : t.contains name = true) (other : String) (value : α) :
    (t.insert other value).contains name = true := by
  rw [contains_eq_isSome] at h ⊢
  rw [get?_insert]
  split
  · rfl
  · exact h

/-- A definition other than a reference system is registered under the identifier. -/
def Model.defines (m : Model) (id : String) : Bool :=
  (m.registry.get? id).any fun d => d.kind ≠ .referenceSystem

namespace Document

/-! ### Definitions and identifiers of frames -/

namespace Frame

/-- What the end of the element registers, and the identifier that it registers it under. -/
def definition? (config : Config) : Frame → Option (String × Definition)
  | geometry g =>
    if g.isTemplate && !g.polygons.isEmpty then
      g.id.map fun id => (id, .template (Builder.geometryOf config g))
    else none
  | appearance a => some (a.id, .appearance a)
  | surfaceData d => some (d.id, .surfaceData d)
  | _ => none

/-- The identifiers that the frame holds: those of objects, and of what is still to be
registered. -/
def ids : Frame → List String
  | object o => o.feature.id :: (Tree.forestLabels o.children).map (·.id)
  | geometry g => if g.isTemplate then g.id.toList else []
  | appearance a => [a.id]
  | surfaceData d => [d.id]
  | _ => []

/-- The identifiers that are handed on when the element ends. -/
def objectIds : Frame → List String
  | object o => (object o).ids
  | _ => []

/-- What of a frame nothing changes but the end of an object further in, or the tag of a
geometry. -/
def badge (f : Frame) : (Bool × Bool) × List String :=
  (f.role, f.ids)

def SameRole (f f' : Frame) : Prop :=
  f'.role = f.role

def SameBadge (f f' : Frame) : Prop :=
  f'.badge = f.badge

theorem SameRole.refl (f : Frame) : SameRole f f := rfl

theorem SameBadge.refl (f : Frame) : SameBadge f f := rfl

variable {config : Config} {f : Frame} {id : String} {d : Definition}

theorem ids_of_definition? (h : f.definition? config = some (id, d)) : f.ids = [id] := by
  cases f with
  | geometry g =>
    rw [definition?] at h
    split at h
    · next htemplate =>
      obtain ⟨id', hid, h⟩ := Option.map_eq_some_iff.1 h
      cases h
      rw [ids, if_pos (Bool.and_eq_true_iff.1 htemplate).1, hid]
      rfl
    · cases h
  | appearance a => cases h; rfl
  | surfaceData data => cases h; rfl
  | _ => cases h

theorem kind_of_definition? (h : f.definition? config = some (id, d)) :
    d.kind ≠ .referenceSystem := by
  cases f with
  | geometry g =>
    rw [definition?] at h
    split at h
    · obtain ⟨_, -, h⟩ := Option.map_eq_some_iff.1 h
      cases h
      nofun
    · cases h
  | appearance a => cases h; nofun
  | surfaceData data => cases h; nofun
  | _ => cases h

theorem badge_takeText (content : String) (f : Frame) : (f.takeText content).badge = f.badge := by
  cases f <;> rfl

theorem badge_takePoints (kind : PositionText) (points : List (Vec3 Float)) (f : Frame) :
    (f.takePoints kind points).badge = f.badge := by
  cases f with
  | envelope e => cases kind <;> rfl
  | _ => rfl

theorem badge_missPoints (f : Frame) : f.missPoints.badge = f.badge := by
  cases f <;> rfl

/-- Surface data keep their identifier. -/
theorem id_take {data data' : SurfaceData} {property : Property} {text : String}
    (h : data.take property text = .ok data') : data'.id = data.id := by
  unfold SurfaceData.take at h
  split at h
  · obtain ⟨_, -, h⟩ := exists_of_bind_eq_ok h
    cases h
    rfl
  · cases h
    rfl
  · obtain ⟨_, -, h⟩ := exists_of_bind_eq_ok h
    cases h
    rfl

theorem badge_takeProperty {f g : Frame} {property : Property} {attributes : Markup.Attributes}
    {text : String} (h : f.takeProperty property attributes text = .ok g) : g.badge = f.badge := by
  cases f with
  | surfaceData data =>
    obtain ⟨data', htake, h⟩ := exists_of_bind_eq_ok h
    cases h
    exact congrArg (fun id => ((false, false), [id])) (id_take htake)
  | textureTarget t => obtain ⟨_, -, h⟩ := exists_of_bind_eq_ok h; cases h; rfl
  | implicitGeometry i => obtain ⟨_, -, h⟩ := exists_of_bind_eq_ok h; cases h; rfl
  | object o =>
    rw [takeProperty] at h
    split at h
    · obtain ⟨_, -, h⟩ := exists_of_bind_eq_ok h
      cases h
      rfl
    · cases h
      rfl
  | appearance a =>
    cases h
    rw [badge, ids]
    split <;> rfl
  | _ => cases h; rfl

end Frame

/-! ### Identifiers of open elements -/

/-- The identifiers of the objects in a forest. -/
def objectIds (forest : List CityObject) : List String :=
  (Tree.forestLabels forest).map (·.id)

theorem objectIds_append (s t : List CityObject) :
    objectIds (s ++ t) = objectIds s ++ objectIds t := by
  rw [objectIds, Tree.forestLabels_append, List.map_append, objectIds, objectIds]

/-- An object that is finished hands on the identifiers that its frame holds. -/
theorem objectIds_finish {o : ObjectParts} {coverage : Option GridCoverage} {object : CityObject}
    (h : o.finish coverage = .ok object) : objectIds [object] = (Frame.object o).ids := by
  obtain ⟨envelope, -, rfl⟩ := exists_of_map_eq_ok h
  rw [objectIds, Tree.forestLabels, Tree.forestLabels, List.append_nil]
  rfl

namespace Stack

/-- The identifiers that the open elements hold. -/
def ids (s : Stack) : List String :=
  s.flatMap (·.frame.ids)

theorem ids_cons (e : OpenElement) (s : Stack) : ids (e :: s) = e.frame.ids ++ s.ids :=
  List.flatMap_cons

variable {s : Stack}

theorem Changed.ids_eq {s' : Stack} (h : s.Changed Frame.SameBadge s') :
    s'.ids = s.ids := by
  induction h with
  | nil => rfl
  | @cons e e' _ _ he _ ih =>
    have hids : e'.frame.ids = e.frame.ids := congrArg Prod.snd he.2.2
    rw [ids_cons, ids_cons, hids, ih]

/-- One frame is changed, so all frames together gain no more than that one. -/
theorem count_ids_updateNearest {stop : Frame → Bool} {change : Frame → Option Frame}
    {more : List String} {id : String}
    (h : ∀ f g, change f = some g → g.ids.count id ≤ f.ids.count id + more.count id) (s : Stack) :
    (s.updateNearest stop change).ids.count id ≤ s.ids.count id + more.count id := by
  induction s with
  | nil => exact Nat.zero_le _
  | cons e outer ih =>
    rw [updateNearest]
    split
    · next g hg =>
      have hfirst := h _ _ hg
      rw [ids_cons, ids_cons, List.count_append, List.count_append]
      dsimp only
      omega
    · split
      · exact Nat.le_add_right _ _
      · rw [ids_cons, ids_cons, List.count_append, List.count_append]
        omega

/-- A tag that is noted gives its identifier to one geometry at most. -/
theorem count_ids_note (kind : GeometryKind) (given srs : Option String) (id : String) (s : Stack) :
    (s.updateGeometry (·.note kind given srs)).ids.count id ≤
      s.ids.count id + given.toList.count id := by
  refine count_ids_updateNearest (fun f g hg => ?_) s
  cases f with
  | geometry parts =>
    obtain rfl := Option.some.inj hg
    have hid : (parts.note kind given srs).id = given ∨
        (parts.note kind given srs).id = parts.id := by
      rw [GeometryParts.note]
      split
      · exact .inl rfl
      · exact .inr rfl
    rw [Frame.ids, Frame.ids, GeometryParts.isTemplate_note]
    split
    · rcases hid with hid | hid <;> rw [hid] <;> omega
    · exact Nat.zero_le _
  | _ => cases hg

/-- An object takes in the identifiers of a child. -/
theorem count_ids_addChild (child : CityObject) (id : String) (s : Stack) :
    (s.updateObject (·.addChild child)).ids.count id ≤
      s.ids.count id + (objectIds [child]).count id := by
  refine count_ids_updateNearest (fun f g hg => ?_) s
  cases f with
  | object o =>
    obtain rfl := Option.some.inj hg
    have hids : (Frame.object (o.addChild child)).ids = (Frame.object o).ids ++ objectIds [child] :=
      congrArg (o.feature.id :: ·) (objectIds_append o.children [child])
    rw [hids, List.count_append]
  | _ => cases hg

end Stack

namespace Builder

/-- The identifiers of all objects, finished and open, and of what is still to be registered. -/
def held (b : Builder) : List String :=
  objectIds b.model.objects ++ b.stack.ids

/-- The state with a definition registered, if there is one. -/
def define (b : Builder) : Option (String × Definition) → Builder
  | some (id, d) => { b with model := b.model.register id d }
  | none => b

theorem stack_define (b : Builder) (entry : Option (String × Definition)) :
    (b.define entry).stack = b.stack := by
  cases entry <;> rfl

/-- The registry and the roles of the open elements stay, and identifiers are only added. -/
structure Keeps (more : List String) (b b' : Builder) : Prop where
  registry : b'.model.registry = b.model.registry
  stack : b.stack.Changed Frame.SameRole b'.stack
  held : ∀ id, b'.held.count id ≤ b.held.count id + more.count id

namespace Keeps

variable {b b' : Builder} {more : List String}

theorem refl (b : Builder) : Keeps [] b b :=
  ⟨rfl, .refl .refl b.stack, fun _ => Nat.le_refl _⟩

theorem of_stack {s : Stack} (h : b.stack.Changed Frame.SameBadge s) :
    Keeps [] b { b with stack := s } where
  registry := rfl
  stack := List.Forall₂.imp (fun _ _ he => ⟨he.1, he.2.1, congrArg Prod.fst he.2.2⟩) h
  held id := by
    rw [Builder.held, Builder.held, h.ids_eq]
    exact Nat.le_refl _

theorem trans {b'' : Builder} {more' : List String} (h : Keeps more b b')
    (h' : Keeps more' b' b'') : Keeps (more ++ more') b b'' where
  registry := h'.registry.trans h.registry
  stack := h.stack.trans h'.stack fun hf hg => hg.trans hf
  held id := by
    have hfirst := h.held id
    have hsecond := h'.held id
    rw [List.count_append]
    omega

theorem report (h : Keeps more b b') (problem : Problem) (element : Option String) :
    Keeps more b (b'.report problem element) :=
  ⟨h.registry, h.stack, h.held⟩

theorem recordReference (h : Keeps more b b') (id : String) (kind : ReferenceKind)
    (referrer : Option String) : Keeps more b (b'.recordReference id kind referrer) := by
  have hmodel := b'.model.recordReference_cases (.ofLink id kind referrer)
  refine ⟨?_, h.stack, fun x => ?_⟩
  · rw [← h.registry, Builder.recordReference]
    rcases hmodel with hr | hr <;> rw [hr]
  · rw [Builder.recordReference, Builder.held]
    rcases hmodel with hr | hr <;> rw [hr] <;> exact h.held x

end Keeps

/-! ### Texts and closing tags -/

section Closing

variable {config : Config} {b : Builder}

theorem keeps_updateFeature {change : Feature → Feature} (h : ∀ f, (change f).id = f.id) :
    Keeps [] b (b.updateFeature change) :=
  .of_stack (.updateObject .refl
    (fun o => congrArg (fun id => ((false, false), id :: objectIds o.children)) (h o.feature)) _)

theorem keeps_updateOwner {change : Frame → Frame}
    (h : ∀ f, b.stack.owner? = some f → (change f).badge = f.badge) :
    Keeps [] b { b with stack := b.stack.updateOwner change } :=
  .of_stack (.updateOwner .refl h)

theorem closeGeometry_keeps (config : Config) (b : Builder) (g : GeometryParts) :
    Keeps [] (b.define ((Frame.geometry g).definition? config)) (b.closeGeometry config g) := by
  rw [closeGeometry, Frame.definition?]
  cases hempty : g.polygons.isEmpty with
  | true =>
    rw [if_pos rfl, Bool.not_true, Bool.and_false, if_neg Bool.false_ne_true]
    exact .refl b
  | false =>
    rw [if_neg Bool.false_ne_true, Bool.not_false, Bool.and_true]
    dsimp only
    split
    · have hregister : b.registerTemplate (geometryOf config g) =
          b.define (g.id.map fun id => (id, .template (geometryOf config g))) := by
        rw [registerTemplate, show (geometryOf config g).id = g.id from rfl]
        cases g.id <;> rfl
      rw [hregister]
      exact .of_stack (.updateImplicit .refl (fun _ => by rfl) _)
    · exact keeps_updateFeature fun _ => rfl

theorem closePolygon_keeps (config : Config) (b : Builder) (p : PolygonParts) :
    Keeps [] b (b.closePolygon config p) := by
  rw [closePolygon]
  split
  · exact .refl b
  · split
    · exact (Keeps.refl b).report _ _
    · have hstack (polygon : Polygon) : b.stack.Changed Frame.SameBadge
          (b.stack.updateGeometry fun g => { g with polygons := g.polygons ++ [polygon] }) :=
        .updateGeometry .refl (fun _ => by rfl) _
      dsimp only [reportMesh]
      split
      · exact (Keeps.of_stack (hstack _)).report _ _
      · exact .of_stack (hstack _)

theorem closeBoundary_keeps (b : Builder) (role : RingRole) (ring : Option LinearRing) :
    Keeps [] b (b.closeBoundary role ring) := by
  cases ring with
  | none => exact .refl b
  | some ring => exact keeps_updateOwner fun f _ => by cases f <;> rfl

theorem closeRing_keeps (config : Config) (b : Builder) (r : RingParts) :
    Keeps [] b (b.closeRing config r) := by
  rw [closeRing]
  dsimp only
  split
  · exact keeps_updateOwner fun f _ => by cases f <;> rfl
  · exact (Keeps.of_stack (.updatePolygon .refl (fun _ => by rfl) _)).report _ _

theorem setAttribute_keeps (b : Builder) (name text : String) (type : ValueType)
    (unit : Option String) (problem : Problem) :
    Keeps [] b (b.setAttribute name text type unit problem) := by
  rw [setAttribute]
  split
  · exact keeps_updateFeature fun _ => rfl
  · exact (keeps_updateFeature fun _ => by rfl).report _ _

theorem closeText_keeps (config : Config) (b : Builder) (srs : Option String) (t : TextParts) :
    Keeps [] b (b.closeText config srs t) := by
  rw [closeText]
  split
  · rw [closePositions]
    split
    · exact keeps_updateOwner fun f _ => f.badge_takePoints _ _
    · exact (keeps_updateOwner fun f _ => f.badge_missPoints).report _ _
  · rw [closeProperty]
    split
    · exact .refl b
    · next owner howner =>
      split
      · next g hg =>
        refine keeps_updateOwner fun f hf => ?_
        obtain rfl := Option.some.inj (howner.symm.trans hf)
        exact Frame.badge_takeProperty hg
      · exact (Keeps.refl b).report _ _
  · next name _ =>
    have hmodel (text : String) : Keeps [] b (b.setModelText name text) := by
      have hb := Keeps.refl b
      unfold setModelText
      split
      · exact ⟨rfl, hb.stack, hb.held⟩
      · exact ⟨rfl, hb.stack, hb.held⟩
      · exact hb
    rw [closeThematic]
    split
    · exact setAttribute_keeps ..
    · exact hmodel _
    · exact hmodel _
    · exact .refl b

theorem closeGeneric_keeps (b : Builder) (g : GenericParts) : Keeps [] b (b.closeGeneric g) := by
  rw [closeGeneric]
  split
  · exact (Keeps.refl b).report _ _
  · split
    · exact .refl b
    · exact setAttribute_keeps ..

theorem closeEnvelope_keeps (b : Builder) (e : EnvelopeParts) : Keeps [] b (b.closeEnvelope e) := by
  have hb := Keeps.refl b
  rw [closeEnvelope]
  dsimp only
  split
  · exact hb
  · split
    · exact keeps_updateFeature fun _ => rfl
    · exact ⟨rfl, hb.stack, hb.held⟩
    · exact ⟨rfl, hb.stack, hb.held⟩
    · exact hb

theorem closePoint_keeps (b : Builder) (property : PointProperty) (value : Option (Vec3 Float)) :
    Keeps [] b (b.closePoint property value) := by
  cases value with
  | none => exact .refl b
  | some p =>
    refine keeps_updateOwner fun f _ => ?_
    cases f with
    | object o => cases property <;> rfl
    | implicitGeometry i => cases property <;> rfl
    | _ => rfl

theorem closeObject_keeps {b' : Builder} {o : ObjectParts} (h : b.closeObject config o = .ok b') :
    Keeps (Frame.object o).ids b b' := by
  obtain ⟨m, coverage, object, hgrid, hfinish, rfl⟩ := closeObject_eq_ok_iff.1 h
  have hids := objectIds_finish hfinish
  obtain ⟨reports, rfl⟩ := exists_reports_of_closeGrid hgrid
  split
  · exact ⟨rfl, .refl .refl b.stack, fun id => Nat.le_add_right _ _⟩
  · rw [attachObject]
    split
    · refine ⟨rfl, .updateObject .refl (fun _ => by rfl) b.stack, fun id => ?_⟩
      have hcount := Stack.count_ids_addChild object id b.stack
      rw [hids] at hcount
      rw [held, held, List.count_append, List.count_append]
      dsimp only
      omega
    · refine ⟨rfl, .refl .refl b.stack, fun id => ?_⟩
      have hobjects := objectIds_append b.model.objects [object]
      rw [hids] at hobjects
      rw [held, held, List.count_append, List.count_append]
      dsimp only [Model.addObject]
      rw [hobjects, List.count_append]
      omega

theorem addText_keeps (b : Builder) (content : String) : Keeps [] b (b.addText content) := by
  rw [addText]
  split
  · exact .refl b
  · next e outer hs =>
    refine .of_stack ?_
    rw [hs]
    exact .cons ⟨rfl, rfl, e.frame.badge_takeText content⟩ (Stack.Changed.refl .refl outer)

theorem closeAppearance_keeps (b : Builder) (a : Appearance) :
    Keeps [] (b.define (some (a.id, .appearance a))) (b.closeAppearance a) := by
  refine keeps_updateFeature fun f => ?_
  rw [Feature.addAppearance]
  split <;> rfl

theorem closeAddress_keeps (b : Builder) (a : Address) : Keeps [] b (b.closeAddress a) := by
  rw [closeAddress]
  split
  · exact .refl b
  · exact keeps_updateFeature fun _ => rfl

/-- **What the end of an element leaves.**  Its definition is registered, and apart from that only
the identifiers of an object are handed on. -/
theorem closeFrame_keeps {b' : Builder} {srs : Option String} {f : Frame}
    (h : b.closeFrame config srs f = .ok b') :
    Keeps f.objectIds (b.define (f.definition? config)) b' := by
  have hok {c : Builder} (heq : (.ok c : Except Overflow Builder) = .ok b')
      (hc : Keeps f.objectIds (b.define (f.definition? config)) c) :
      Keeps f.objectIds (b.define (f.definition? config)) b' := Except.ok.inj heq ▸ hc
  cases f with
  | object o => exact closeObject_keeps h
  | geometry g => exact hok h (closeGeometry_keeps ..)
  | polygon p => exact hok h (closePolygon_keeps ..)
  | boundary role ring => exact hok h (closeBoundary_keeps ..)
  | ring r => exact hok h (closeRing_keeps ..)
  | text t => exact hok h (closeText_keeps ..)
  | generic g => exact hok h (closeGeneric_keeps ..)
  | appearance a => exact hok h (closeAppearance_keeps ..)
  | surfaceData d => exact hok h (.of_stack (.updateAppearance .refl (fun _ => by rfl) _))
  | textureTarget t => exact hok h (keeps_updateOwner fun f _ => by cases f <;> rfl)
  | envelope e => exact hok h (closeEnvelope_keeps ..)
  | address a => exact hok h (closeAddress_keeps ..)
  | implicitGeometry i => exact hok h (keeps_updateFeature fun _ => by rfl)
  | point property value => exact hok h (closePoint_keeps ..)
  | model | transparent | skipped | implicitProperty => exact hok h (.refl b)

end Closing

end Builder

/-! ### Opening -/

/-- What is put in front of the number where such an element gets an identifier, if it needs one. -/
def Element.stem? (config : Config) : Element → Option String
  | .object kind => if config.acceptsKind kind then some kind.idStem else none
  | .appearance => some "Appearance"
  | .material => some "Material"
  | .texture _ => some "Texture"
  | _ => none

/-- The dimension that a tag states for the reference system that it names. -/
def statedDimension? (attributes : Markup.Attributes) : Option Nat :=
  (attributes.value? "srsDimension").bind fun d =>
    Decimal.readCount? (Decimal.greatest 8) (Text.trim d.toList)

namespace Builder

variable {config : Config} {b : Builder}

/-- The reference system that a tag names, as it states it, unless the tag is left out. -/
def namedSystem? (b : Builder) (attributes : Markup.Attributes) : Option ReferenceSystem :=
  if b.stack.head?.any (·.frame.isSkipped) then none
  else (attributes.value? "srsName").map fun name => ⟨name, statedDimension? attributes⟩

/-- What is registered for a system that is named, if nothing is registered under its name. -/
def mention (b : Builder) (system : ReferenceSystem) : Option (String × Definition) :=
  if b.model.registry.contains system.name then none
  else some (system.name, .referenceSystem system)

/-- What an opening tag registers. -/
def mention? (b : Builder) (attributes : Markup.Attributes) : Option (String × Definition) :=
  (b.namedSystem? attributes).bind b.mention

/-- The identifier that is generated for an element with this local name, if it needs one and has
none. -/
def anonymousId? (config : Config) (b : Builder) (name : String) (attributes : Markup.Attributes) :
    Option String :=
  if (attributes.value? "id").isSome then none
  else ((Element.ofTag name attributes).stem? config).map fun stem => s!"{stem}_{b.generated + 1}"

/-- The identifiers that a tag brings in, written and generated. -/
def givenIds (config : Config) (b : Builder) (name : String) (attributes : Markup.Attributes) :
    List String :=
  (attributes.value? "id").toList ++ (b.anonymousId? config name attributes).toList

theorem identify_keeps (b : Builder) (id : Option String) (stem : String) :
    Keeps [] b (b.identify id stem).1 := by
  cases id with
  | some id => exact .refl b
  | none => exact ⟨rfl, .refl .refl b.stack, fun _ => Nat.le_refl _⟩

/-- An element that needs an identifier holds the one that is given. -/
theorem givenIds_of_stem {name stem : String} {attributes : Markup.Attributes}
    (h : (Element.ofTag name attributes).stem? config = some stem) :
    b.givenIds config name attributes = [(b.identify (attributes.value? "id") stem).2] := by
  rw [givenIds, anonymousId?, h]
  cases attributes.value? "id" <;> rfl

theorem mentionSystem_keeps (b : Builder) (name : String) (attributes : Markup.Attributes) :
    Keeps [] (b.define (b.mention ⟨name, statedDimension? attributes⟩))
      (b.mentionSystem name attributes) := by
  rw [mentionSystem, mention]
  dsimp only
  split
  · exact (Keeps.refl b).recordReference _ _ _
  · exact (Keeps.refl _).recordReference _ _ _

theorem noteGeometry_keeps (b : Builder) (kind : GeometryKind) (id srs : Option String) :
    Keeps id.toList b (b.noteGeometry kind id srs) where
  registry := rfl
  stack := .updateGeometry .refl (fun _ => by rfl) _
  held x := by
    have hcount := Stack.count_ids_note kind id srs x b.stack
    rw [held, held, noteGeometry, List.count_append, List.count_append]
    dsimp only
    omega

theorem onLink_keeps (b : Builder) (attributes : Markup.Attributes)
    {action : Builder → String → Builder} (h : ∀ link, Keeps [] b (action b link)) :
    Keeps [] b (b.onLink attributes action) := by
  rw [onLink]
  split
  · exact h _
  · exact .refl b

theorem referToAppearance_keeps (b : Builder) (link : String) :
    Keeps [] b (b.referToAppearance link) := by
  refine (Keeps.of_stack (.updateObject .refl (fun o => ?_) b.stack)).recordReference _ _ _
  rw [Frame.SameBadge, Feature.addAppearance]
  split <;> rfl

theorem referToSurfaceData_keeps (b : Builder) (link : String) :
    Keeps [] b (b.referToSurfaceData link) :=
  (Keeps.of_stack (.updateAppearance .refl (fun _ => by rfl) b.stack)).recordReference _ _ _

theorem referToTemplate_keeps (b : Builder) (link : String) :
    Keeps [] b (b.referToTemplate link) :=
  (Keeps.of_stack (.updateImplicit .refl (fun _ => by rfl) b.stack)).recordReference _ _ _

/-- The identifiers of a tag go to its own frame, or to a geometry further out. -/
theorem openFrame_keeps (config : Config) (b : Builder) (name : String)
    (attributes : Markup.Attributes) (srs : Option String) :
    ∃ more, Keeps more b (b.openFrame config name attributes srs).1 ∧
      (more ++ (b.openFrame config name attributes srs).2.ids).Sublist
        (b.givenIds config name attributes) := by
  -- elements with an identifier of their own
  have hidentify {stem : String}
      (hstem : (Element.ofTag name attributes).stem? config = some stem) :
      ∃ more, Keeps more b (b.identify (attributes.value? "id") stem).1 ∧
        (more ++ [(b.identify (attributes.value? "id") stem).2]).Sublist
          (b.givenIds config name attributes) :=
    ⟨[], identify_keeps _ _ _, by rw [givenIds_of_stem hstem]; exact .refl _⟩
  -- elements that bring in no identifier
  have hnothing {b' : Builder} (h : Keeps [] b b') : ∃ more, Keeps more b b' ∧
      (more ++ []).Sublist (b.givenIds config name attributes) := ⟨[], h, List.nil_sublist _⟩
  unfold openFrame
  cases helement : Element.ofTag name attributes with
  | object kind =>
    dsimp only
    split
    · next hkind => exact hidentify (by rw [helement, Element.stem?, if_pos hkind])
    · exact hnothing (.refl b)
  | appearance => exact hidentify (by rw [helement]; rfl)
  | material => exact hidentify (by rw [helement]; rfl)
  | texture kind => exact hidentify (by rw [helement]; rfl)
  | geometry kind =>
    refine ⟨_, noteGeometry_keeps b kind _ srs, ?_⟩
    show ((attributes.value? "id").toList ++ []).Sublist _
    rw [List.append_nil]
    exact List.sublist_append_left _ _
  | polygon => exact hnothing (noteGeometry_keeps b .polygon none srs)
  | geometryProperty lod => dsimp only; split <;> exact hnothing (.refl b)
  | implicitProperty lod => dsimp only; split <;> exact hnothing (.refl b)
  | boundary role => dsimp only; split <;> exact hnothing (.refl b)
  | appearanceProperty => exact hnothing (onLink_keeps b _ (referToAppearance_keeps b))
  | surfaceDataProperty => exact hnothing (onLink_keeps b _ (referToSurfaceData_keeps b))
  | relativeGeometry =>
    dsimp only
    split
    · exact hnothing (referToTemplate_keeps b _)
    · exact hnothing (.refl b)
  | _ => exact hnothing (.refl b)

/-- **What an opening tag leaves.**  The system that it is the first to name is registered; then its
identifiers are handed on, and its element is pushed.  An element that is not left out has the
system of its tag, or else that of the element around it. -/
theorem openElement_keeps (config : Config) (b : Builder) (name : String)
    (attributes : Markup.Attributes) :
    ∃ m e more, b.openElement config name attributes = { m with stack := e :: m.stack } ∧
      Keeps more (b.define (b.mention? attributes)) m ∧
      (more ++ e.frame.ids).Sublist
        (if b.stack.head?.any (·.frame.isSkipped) then []
          else b.givenIds config (Markup.localName name) attributes) ∧
      (e.frame.isSkipped = false → b.stack.head?.any (·.frame.isSkipped) = false ∧
        e.srs = (attributes.value? "srsName" <|> b.stack.srs?)) := by
  rw [openElement_eq]
  by_cases hskip : b.stack.head?.any (·.frame.isSkipped) = true
  · rw [if_pos hskip, if_pos hskip, mention?, namedSystem?, if_pos hskip]
    exact ⟨b, _, [], rfl, .refl b, .refl _, nofun⟩
  · rw [if_neg hskip, if_neg hskip, mention?, namedSystem?, if_neg hskip]
    have hread : b.stack.head?.any (·.frame.isSkipped) = false := Bool.eq_false_iff.2 hskip
    cases attributes.value? "srsName" with
    | none =>
      obtain ⟨more, hkeeps, hids⟩ :=
        b.openFrame_keeps config (Markup.localName name) attributes b.stack.srs?
      exact ⟨_, _, more, rfl, hkeeps, hids, fun _ => ⟨hread, rfl⟩⟩
    | some system =>
      let mentioned := b.mentionSystem system attributes
      obtain ⟨more, hkeeps, hids⟩ :=
        mentioned.openFrame_keeps config (Markup.localName name) attributes (some system)
      have hgiven : mentioned.givenIds config (Markup.localName name) attributes =
          b.givenIds config (Markup.localName name) attributes := by
        rw [givenIds, givenIds, anonymousId?, anonymousId?, generated_mentionSystem]
      rw [hgiven] at hids
      exact ⟨_, _, more, rfl, (b.mentionSystem_keeps system attributes).trans hkeeps, hids,
        fun _ => ⟨hread, rfl⟩⟩

end Builder

end Document

end CityScene
