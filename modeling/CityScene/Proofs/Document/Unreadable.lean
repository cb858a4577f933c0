import CityScene.Proofs.Document.Encodings
import CityScene.Proofs.Document.Nesting

/-!
# Texts that cannot be read

`Builder.textFault?` says in advance what is wrong with the text of the innermost element: for
positions, what their reader says, and for a property, what the reader of its form says.  Which form
a property has depends on what it stands in, as `Frame.form?` lists; in any other place its text is
not read at all.

What a frame then does with a property is compared with that list once (`fault?_takeProperty`).
From it follows that an unreadable text does no harm beyond its report
(`closeElement_unreadable`): nothing is taken over by halves, and only a ring remembers that a
coordinate is missing.
-/

namespace CityScene.Document

/-! ### Forms of values -/

/-- The fault that ends reading. -/
def fault? {α : Type} : Except ValueFault α → Option ValueFault
  | .ok _ => none
  | .error fault => some fault

theorem fault?_eq_some {α : Type} {x : Except ValueFault α} {fault : ValueFault}
    (h : fault? x = some fault) : x = .error fault := by
  cases x with
  | ok a => cases h
  | error e => rw [Option.some.inj h]

/-- What is done with a value once it is read cannot fail. -/
theorem fault?_bind {α β : Type} {f : α → Except ValueFault β} (hf : ∀ a, fault? (f a) = none)
    (x : Except ValueFault α) : fault? (x >>= f) = fault? x := by
  cases x with
  | ok a => exact hf a
  | error e => rfl

/-- How the text of a property is read. -/
inductive Form
  | flag (field : String)
  | fraction (field : String)
  | colour
  | colourAlpha
  | wrapMode
  | textureCoordinates
  | matrix
  | integers (field : String)
  | vector (field : String)
  | samples

/-- What is wrong with a text of the form. -/
def Form.fault? (text : String) : Form → Option ValueFault
  | flag field => Document.fault? (readFlag field text)
  | fraction field => Document.fault? (readFraction field text)
  | colour => Document.fault? (readColour text)
  | colourAlpha => Document.fault? (readColourAlpha text)
  | wrapMode => Document.fault? (readWrapMode text)
  | textureCoordinates => Document.fault? (readTextureCoordinates text)
  | matrix => Document.fault? (readMatrix text)
  | integers field => Document.fault? (readIntegers field text)
  | vector field => Document.fault? (readPoint field text)
  | samples => Document.fault? (readSamples text)

/-- The forms of the properties of materials. -/
def materialForm? : Property → Option Form
  | .diffuseColour | .emissiveColour | .specularColour => some .colour
  | .ambientIntensity => some (.fraction "ambientIntensity")
  | .shininess => some (.fraction "shininess")
  | .transparency => some (.fraction "transparency")
  | .isSmooth => some (.flag "isSmooth")
  | _ => none

/-- The forms of the properties of textures. -/
def textureForm? : Property → Option Form
  | .wrapMode => some .wrapMode
  | .borderColour => some .colourAlpha
  | _ => none

def surfacingForm? : Surfacing → Property → Option Form
  | .material _ => materialForm?
  | .texture _ => textureForm?

/-- The forms of the parts of grids. -/
def gridForm? : Property → Option Form
  | .gridLow => some (.integers "low")
  | .gridHigh => some (.integers "high")
  | .offsetVector => some (.vector "offsetVector")
  | .tupleList => some .samples
  | _ => none

/-- The form that a property has in a frame.  There is none for free text, and where the property
does not belong. -/
def Frame.form? (property : Property) : Frame → Option Form
  | .surfaceData d =>
    if property = .isFront then some (.flag "isFront") else surfacingForm? d.surfacing property
  | .textureTarget _ => if property = .textureCoordinates then some .textureCoordinates else none
  | .implicitGeometry _ => if property = .transformationMatrix then some .matrix else none
  | .object o => if o.grid.isSome then gridForm? property else none
  | _ => none

/-! ### What is taken over -/

variable {property : Property} {text : String}

theorem fault?_takeMaterial (m : Material) :
    fault? (m.take property text) = (materialForm? property).bind (·.fault? text) := by
  cases property with
  | diffuseColour | emissiveColour | specularColour | ambientIntensity | shininess
  | transparency | isSmooth =>
    rw [materialForm?, Option.bind_some, Form.fault?]
    exact fault?_bind (fun _ => rfl) _
  | _ => rfl

theorem fault?_takeTexture (t : Texture) :
    fault? (t.take property text) = (textureForm? property).bind (·.fault? text) := by
  cases property with
  | wrapMode | borderColour =>
    rw [textureForm?, Option.bind_some, Form.fault?]
    exact fault?_bind (fun _ => rfl) _
  | _ => rfl

theorem fault?_takeSurfacing (s : Surfacing) :
    fault? (s.take property text) = (surfacingForm? s property).bind (·.fault? text) := by
  cases s with
  | material m =>
    exact (fault?_bind (fun _ => rfl) (m.take property text)).trans (fault?_takeMaterial m)
  | texture t =>
    exact (fault?_bind (fun _ => rfl) (t.take property text)).trans (fault?_takeTexture t)

theorem fault?_takeSurfaceData (d : SurfaceData) :
    fault? (d.take property text) =
      ((Frame.surfaceData d).form? property).bind (·.fault? text) := by
  cases property with
  | isFront => exact fault?_bind (fun _ => rfl) (readFlag "isFront" text)
  | target =>
    show none = (surfacingForm? d.surfacing .target).bind _
    cases d.surfacing <;> rfl
  | _ => exact (fault?_bind (fun _ => rfl) _).trans (fault?_takeSurfacing d.surfacing)

theorem fault?_takeGrid (g : GridParts) :
    fault? (g.take property text) = (gridForm? property).bind (·.fault? text) := by
  cases property with
  | gridLow | gridHigh | offsetVector | tupleList =>
    rw [gridForm?, Option.bind_some, Form.fault?]
    exact fault?_bind (fun _ => rfl) _
  | _ => rfl

/-- **A frame refuses the text of a property exactly if it is not of the form** that the property
has in this frame. -/
theorem fault?_takeProperty (owner : Frame) (attributes : Markup.Attributes) :
    fault? (owner.takeProperty property attributes text) =
      (owner.form? property).bind (·.fault? text) := by
  cases owner with
  | surfaceData d =>
    refine (fault?_bind (fun _ => rfl) (d.take property text)).trans ?_
    exact fault?_takeSurfaceData d
  | textureTarget t =>
    refine (fault?_bind (fun _ => rfl) (t.take property (attributes.value? "ring") text)).trans ?_
    cases property with
    | textureCoordinates => exact fault?_bind (fun _ => rfl) _
    | _ => rfl
  | implicitGeometry g =>
    refine (fault?_bind (fun _ => rfl) (g.take property text)).trans ?_
    cases property with
    | transformationMatrix => exact fault?_bind (fun _ => rfl) _
    | _ => rfl
  | object o =>
    rw [Frame.takeProperty, Frame.form?]
    cases hgrid : o.grid with
    | none => rfl
    | some grid =>
      refine (fault?_bind (fun _ => rfl) (grid.take property text)).trans ?_
      exact fault?_takeGrid grid
  | _ => rfl

/-! ### What is left of the open elements -/

/-- The open elements stay as they are, save that a ring which owns what stands inside of them
becomes invalid. -/
inductive Stack.Spoiled : Stack → Stack → Prop
  | same {s : Stack} (h : ∀ r, s.owner? ≠ some (.ring r)) : Spoiled s s
  | ring {inner further : Stack} {e : OpenElement} {r : RingParts}
      (htransparent : ∀ x ∈ inner, x.frame.isTransparent = true) (hframe : e.frame = .ring r) :
      Spoiled (inner ++ e :: further)
        (inner ++ { e with frame := .ring { r with isInvalid := true } } :: further)

theorem Frame.missPoints_eq_self {f : Frame} (h : ∀ r, f ≠ .ring r) : f.missPoints = f := by
  cases f with
  | ring r => exact absurd rfl (h r)
  | _ => rfl

/-- A missing coordinate is noted by rings only, and only by the owner. -/
theorem Stack.spoiled_missPoints (s : Stack) : Spoiled s (s.updateOwner Frame.missPoints) := by
  induction s with
  | nil => exact .same nofun
  | cons e outer ih =>
    cases ht : e.frame.isTransparent with
    | true =>
      have howner := owner?_of_isTransparent outer ht
      rw [updateOwner_of_isTransparent outer ht]
      generalize updateOwner Frame.missPoints outer = changed at ih ⊢
      cases ih with
      | same h => exact .same (howner ▸ h)
      | @ring inner further x r htransparent hframe =>
        have htransparent' : ∀ y ∈ e :: inner, y.frame.isTransparent = true :=
          List.forall_mem_cons.2 ⟨ht, htransparent⟩
        exact @Spoiled.ring (e :: inner) further x r htransparent' hframe
    | false =>
      have howner := owner?_of_not_isTransparent outer ht
      rw [updateOwner_of_not_isTransparent outer ht]
      by_cases hring : ∃ r, e.frame = .ring r
      · obtain ⟨r, hframe⟩ := hring
        rw [hframe]
        exact @Spoiled.ring [] outer e r (fun _ hx => absurd hx List.not_mem_nil) hframe
      · have hother : ∀ r, e.frame ≠ .ring r := fun r hr => hring ⟨r, hr⟩
        rw [Frame.missPoints_eq_self hother]
        refine .same fun r hr => hother r ?_
        exact Option.some.inj (howner.symm.trans hr)

namespace Builder

variable {fault : ValueFault}

theorem closePositions_of_fault (config : Config) (b : Builder) {srs : Option String}
    {kind : PositionText} {attributes : Markup.Attributes}
    (h : fault? (kind.read attributes (b.dimension? srs attributes) text) = some fault) :
    b.closePositions config srs kind attributes text =
      { b with
        stack := b.stack.updateOwner Frame.missPoints
        diagnostics := b.diagnostics ++ [⟨.value fault, b.stack.objectId?⟩] } := by
  rw [closePositions, fault?_eq_some h]
  rfl

theorem closeProperty_of_fault (b : Builder) (attributes : Markup.Attributes) {owner : Frame}
    (howner : b.stack.owner? = some owner)
    (h : (owner.form? property).bind (·.fault? text) = some fault) :
    b.closeProperty property attributes text =
      { b with diagnostics := b.diagnostics ++ [⟨.value fault, b.stack.objectId?⟩] } := by
  rw [← fault?_takeProperty owner attributes] at h
  rw [closeProperty, howner]
  dsimp only
  rw [fault?_eq_some h]
  rfl

/-- What is wrong with the text of the innermost element.  The attributes of the schema take any
text. -/
def textFault? (b : Builder) : Option ValueFault :=
  match b.stack with
  | ⟨_, srs, .text t⟩ :: outer =>
    let text := Text.trimmed t.content
    match t.element with
    | .positions kind => fault? (kind.read t.attributes (b.dimension? srs t.attributes) text)
    | .property property =>
      (Stack.owner? outer).bind fun owner => (owner.form? property).bind (·.fault? text)
    | .thematic _ => none
  | _ => none

theorem closeElement_of_textFault (config : Config) {b : Builder} {e : OpenElement}
    {outer : Stack} (hs : b.stack = e :: outer) (h : b.textFault? = some fault) :
    ∃ stack, Stack.Spoiled outer stack ∧
      b.closeElement config e.name = .ok { b with
        stack, diagnostics := b.diagnostics ++ [⟨.value fault, b.stack.objectId?⟩] } := by
  obtain ⟨name, srs, frame⟩ := e
  rw [textFault?, hs] at h
  cases frame with
  | text t =>
    dsimp only at h
    -- an element with a text is no object, so the innermost object is found further out
    have hobject : b.stack.objectId? = Stack.objectId? outer := by
      rw [hs]
      rfl
    rw [hobject, closeElement, hs]
    dsimp only
    rw [if_pos rfl, closeFrame, closeText]
    cases helement : t.element with
    | positions kind =>
      rw [helement] at h
      have hclose := closePositions_of_fault config { b with stack := outer } h
      exact ⟨_, Stack.spoiled_missPoints outer, congrArg Except.ok hclose⟩
    | property property =>
      rw [helement] at h
      obtain ⟨owner, howner, hfault⟩ := Option.bind_eq_some_iff.1 h
      have hclose := closeProperty_of_fault { b with stack := outer } t.attributes howner hfault
      refine ⟨outer, .same fun r hr => ?_, congrArg Except.ok hclose⟩
      -- no property has a form in a ring
      obtain rfl := Option.some.inj (howner.symm.trans hr)
      cases hfault
    | thematic name =>
      rw [helement] at h
      cases h
  | _ => cases h

end Builder

/-- **An unreadable text does no harm beyond its report.**  An element with such a text is closed,
and its fault is added to the reports, as an invalid value at the innermost open object.  Nothing
else changes: neither the model, with what is registered and what is pending in it, nor what is
collected for any element that is still open, save that a ring which the text belongs to becomes
invalid. -/
theorem closeElement_unreadable (config : Config) {b : Builder} {e : OpenElement} {outer : Stack}
    {fault : ValueFault} (hs : b.stack = e :: outer) (h : b.textFault? = some fault) :
    ∃ stack, Stack.Spoiled outer stack ∧
      b.closeElement config e.name = .ok { b with
        stack, diagnostics := b.diagnostics ++ [⟨.value fault, b.stack.objectId?⟩] } ∧
      (b.isAborted = false → b.feed config (.closed e.name) = ({ b with
        stack, diagnostics := b.diagnostics ++ [⟨.value fault, b.stack.objectId?⟩] }, none)) ∧
      (Problem.value fault).kind = .invalidValue := by
  obtain ⟨stack, hspoiled, hclose⟩ := Builder.closeElement_of_textFault config hs h
  refine ⟨stack, hspoiled, hclose, fun hactive => Builder.feed_of_ok ?_, rfl⟩
  rw [Builder.apply_closed config hactive, hclose]

/-- A coordinate is not a number, so the ring becomes invalid. -/
theorem closeElement_brokenCorner :
    ∃ b e outer stack,
      (Builder.start {}).applyAll {} (toRing ++ [.opened "gml:posList" [], .text "0 0 x"]) = .ok b ∧
      b.stack = e :: outer ∧ Stack.Spoiled outer stack ∧
      b.feed {} (.closed e.name) = ({ b with
        stack
        diagnostics := b.diagnostics ++ [⟨.value (.unexpected "posList" "x"
          "finite floating-point number"), some "Building_1"⟩] }, none) := by
  have hstate : ((Builder.start {}).applyAll {}
      (toRing ++ [.opened "gml:posList" [], .text "0 0 x"])).toOption.map
        (fun b => (b.textFault?, b.stack.objectId?, b.isAborted)) =
      some (some (.unexpected "posList" "x" "finite floating-point number"),
        some "Building_1", false) := by
    decide +kernel
  obtain ⟨b, hb, hstate⟩ := exists_of_toOption_map hstate
  obtain ⟨hfault, hstate⟩ := Prod.mk.inj hstate
  obtain ⟨hobject, hactive⟩ := Prod.mk.inj hstate
  cases hs : b.stack with
  | nil =>
    rw [Builder.textFault?, hs] at hfault
    cases hfault
  | cons e outer =>
    obtain ⟨stack, hspoiled, -, hfeed, -⟩ := closeElement_unreadable {} hs hfault
    rw [hobject] at hfeed
    exact ⟨b, e, outer, stack, hb, hs, hspoiled, hfeed hactive⟩

end CityScene.Document
