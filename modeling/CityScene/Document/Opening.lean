import CityScene.Document.Builder

/-!
# Opening elements

What an opening tag does: it may mention a reference system, register references and tell frames
further out, and it gives the frame of the new element.
-/

namespace CityScene.Document.Builder

/-- An object refers to an appearance. -/
def referToAppearance (b : Builder) (link : String) : Builder :=
  let id := Text.withoutFragmentMark link
  let change (o : ObjectParts) := { o with feature := o.feature.addAppearance id }
  { b with stack := b.stack.updateObject change }.recordReference id .appearance b.stack.objectId?

/-- An appearance refers to surface data. -/
def referToSurfaceData (b : Builder) (link : String) : Builder :=
  let id := Text.withoutFragmentMark link
  let change (a : Appearance) := { a with surfaceData := a.surfaceData ++ [id] }
  let referrer := b.stack.appearance?.map (·.id)
  { b with stack := b.stack.updateAppearance change }.recordReference id .surfaceData referrer

/-- An implicit geometry refers to its template. -/
def referToTemplate (b : Builder) (link : String) : Builder :=
  let id := Text.withoutFragmentMark link
  let change (g : ImplicitGeometry) := { g with template := .reference id }
  { b with stack := b.stack.updateImplicit change }.recordReference id .template b.stack.objectId?

/-- Notes a geometry element in the geometry around it. -/
def noteGeometry (b : Builder) (kind : GeometryKind) (id srs : Option String) : Builder :=
  { b with stack := b.stack.updateGeometry (·.note kind id srs) }

/-- Runs `action` on a link, if there is one. -/
def onLink (b : Builder) (attributes : Markup.Attributes) (action : Builder → String → Builder) :
    Builder :=
  match attributes.value? "href" with
  | some link => action b link
  | none => b

/-- The frame of a new element, and what opening it changes further out. -/
def openFrame (config : Config) (b : Builder) (name : String) (attributes : Markup.Attributes)
    (srs : Option String) : Builder × Frame :=
  let id := attributes.value? "id"
  match Element.ofTag name attributes with
  | .model => (b, .model)
  | .object kind =>
    if config.acceptsKind kind then
      let (b, id) := b.identify id kind.idStem
      let grid := if kind = .rectifiedGridCoverage then some {} else none
      (b, .object { feature := { id, kind }, grid })
    else (b, .skipped)
  | .geometryProperty lod =>
    let lod := lod.getD b.stack.reliefLod
    if config.acceptsLod lod then (b, .geometry { lod, srs, isTemplate := false })
    else (b, .skipped)
  | .implicitProperty lod =>
    (b, if config.acceptsLod lod then .implicitProperty lod else .skipped)
  | .curveProperty => (b, .skipped)
  | .geometry kind => (b.noteGeometry kind id srs, .transparent)
  | .polygon => (b.noteGeometry .polygon none srs, .polygon { id })
  | .boundary role =>
    match b.stack.owner? with
    | some (.polygon _) => (b, .boundary role none)
    | _ => (b, .transparent)
  | .ring => (b, .ring { id })
  | .text element => (b, .text { element, attributes })
  | .genericAttribute type => (b, .generic { name := attributes.value? "name", type })
  | .appearance =>
    let (b, id) := b.identify id "Appearance"
    (b, .appearance { id })
  | .appearanceProperty => (b.onLink attributes referToAppearance, .transparent)
  | .material =>
    let (b, id) := b.identify id "Material"
    (b, .surfaceData { id, surfacing := .material {} })
  | .texture kind =>
    let (b, id) := b.identify id "Texture"
    (b, .surfaceData { id, surfacing := .texture { kind } })
  | .surfaceDataProperty => (b.onLink attributes referToSurfaceData, .transparent)
  | .textureTarget =>
    let polygon := Text.withoutFragmentMark ((attributes.value? "uri").getD "")
    (b, .textureTarget ⟨polygon, []⟩)
  | .envelope => (b, .envelope { srs })
  | .address => (b, .address {})
  | .implicitGeometry => (b, .implicitGeometry { lod := b.stack.implicitLod?.getD 0 })
  | .relativeGeometry =>
    match attributes.value? "href" with
    | some link => (b.referToTemplate link, .transparent)
    | none => (b, .geometry { lod := b.stack.implicitLod?.getD 0, srs, isTemplate := true })
  | .pointProperty property => (b, .point property none)
  | .unknown => (b, .transparent)

/-- Opens an element.  Inside a skipped element everything is skipped, and reference systems named
there are not mentioned. -/
def openElement (config : Config) (b : Builder) (name : String) (attributes : Markup.Attributes) :
    Builder :=
  if b.stack.head?.any (·.frame.isSkipped) then
    { b with stack := ⟨name, b.stack.srs?, .skipped⟩ :: b.stack }
  else
    let own := attributes.value? "srsName"
    let srs := own <|> b.stack.srs?
    let mentioned := match own with
      | some system => b.mentionSystem system attributes
      | none => b
    let (opened, frame) := mentioned.openFrame config (Markup.localName name) attributes srs
    { opened with stack := ⟨name, srs, frame⟩ :: opened.stack }

end CityScene.Document.Builder
