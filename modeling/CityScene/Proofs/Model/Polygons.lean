import CityScene.Proofs.Feature.Points
import CityScene.Proofs.Model.References

/-!
# All polygons of a model

A model holds polygons in three places: in the geometries of its objects, in the templates that its
objects carry inline, and in the templates that it defines under an identifier.
`Model.mapEach own placed` changes the first by `own`, and those of templates by `placed`.

A change that leaves rings alone is not seen by envelopes, and not by look-ups, which only ask for
appearances, surface data and reference systems.  So completing a model commutes with it as long as
it gets on with painting (`Model.finalize_mapEach`).
-/

namespace CityScene

namespace Dictionary

variable {α β γ : Type}

/-- The dictionary with every value changed. -/
def map (f : α → β) (d : Dictionary α) : Dictionary β :=
  ⟨d.bindings.map (Prod.map id f), by
    rw [List.map_map]
    exact d.distinct⟩

theorem ext_bindings {d e : Dictionary α} (h : d.bindings = e.bindings) : d = e := by
  obtain ⟨bindings, distinct⟩ := d
  obtain rfl : bindings = e.bindings := h
  rfl

theorem get?_map (f : α → β) (d : Dictionary α) (key : String) :
    (d.map f).get? key = (d.get? key).map f := by
  rw [get?, get?, map, List.find?_map, Option.map_map, Option.map_map]
  rfl

theorem map_insert (f : α → β) (d : Dictionary α) (key : String) (value : α) :
    (d.insert key value).map f = (d.map f).insert key (f value) := by
  refine ext_bindings ?_
  have hkept : (d.bindings.map (Prod.map id f)).filter (·.1 != key) =
      (d.bindings.filter (·.1 != key)).map (Prod.map id f) := List.filter_map
  simp only [map, insert, List.map_append, hkept]
  rfl

theorem map_map (f : α → β) (g : β → γ) (d : Dictionary α) :
    (d.map f).map g = d.map (g ∘ f) :=
  ext_bindings (List.map_map ..)

theorem map_self {f : α → α} (h : ∀ a, f a = a) (d : Dictionary α) : d.map f = d := by
  have hentry (e : String × α) : Prod.map id f e = e := Prod.ext rfl (h e.2)
  exact ext_bindings (List.map_id'' hentry _)

end Dictionary

namespace Table

variable {α β γ : Type}

/-- The table with every value changed. -/
def map (f : α → β) (t : Table α) : Table β where
  values := t.values.map f
  order := t.order
  inStep := ⟨t.inStep.nodup, fun name => by
    rw [t.inStep.mem_iff, Dictionary.contains_eq_isSome, Dictionary.contains_eq_isSome,
      Dictionary.get?_map, Option.isSome_map]⟩

theorem ext_order {s t : Table α} (hvalues : s.values = t.values) (horder : s.order = t.order) :
    s = t := by
  obtain ⟨values, order, inStep⟩ := s
  obtain rfl : values = t.values := hvalues
  obtain rfl : order = t.order := horder
  rfl

theorem get?_map (f : α → β) (t : Table α) (name : String) :
    (t.map f).get? name = (t.get? name).map f :=
  t.values.get?_map f name

theorem contains_map (f : α → β) (t : Table α) (name : String) :
    (t.map f).contains name = t.contains name := by
  rw [contains_eq_isSome, contains_eq_isSome, get?_map, Option.isSome_map]

theorem entries_map (f : α → β) (t : Table α) :
    (t.map f).entries = t.entries.map (Prod.map id f) := by
  rw [entries, entries, List.map_filterMap]
  refine List.filterMap_congr fun name _ => ?_
  rw [show (t.map f).values = t.values.map f from rfl, Dictionary.get?_map, Option.map_map,
    Option.map_map]
  rfl

theorem map_insert (f : α → β) (t : Table α) (name : String) (value : α) :
    (t.insert name value).map f = (t.map f).insert name (f value) := by
  have hnew : ((t.map f).values.get? name).isNone = (t.values.get? name).isNone := by
    rw [map, Dictionary.get?_map, Option.isNone_map]
  refine ext_order (t.values.map_insert f name value) ?_
  simp only [insert, exchange, hnew]
  rfl

theorem map_map (f : α → β) (g : β → γ) (t : Table α) : (t.map f).map g = t.map (g ∘ f) :=
  ext_order (t.values.map_map f g) rfl

theorem map_self {f : α → α} (h : ∀ a, f a = a) (t : Table α) : t.map f = t :=
  ext_order (t.values.map_self h) rfl

end Table

/-! ### Templates, features and definitions -/

/-- The template with every polygon of an inline geometry changed. -/
def Template.mapPolygons (t : Template) (change : Polygon → Polygon) : Template :=
  match t with
  | .inline geometry => .inline (geometry.mapPolygons change)
  | t => t

/-- The polygons of an inline geometry. -/
def Template.polygons : Template → List Polygon
  | .inline geometry => geometry.polygons
  | _ => []

/-- The implicit geometry with every polygon of its template changed. -/
def ImplicitGeometry.mapPolygons (g : ImplicitGeometry) (change : Polygon → Polygon) :
    ImplicitGeometry :=
  { g with template := g.template.mapPolygons change }

/-- The feature with the polygons of its geometries and those of its templates changed. -/
def Feature.mapEach (f : Feature) (own placed : Polygon → Polygon) : Feature :=
  { f with
    geometries := f.geometries.map (·.mapPolygons own)
    implicits := f.implicits.map (·.mapPolygons placed) }

/-- The definition with every polygon of a template changed. -/
def Definition.mapPolygons (d : Definition) (change : Polygon → Polygon) : Definition :=
  match d with
  | .template geometry => .template (geometry.mapPolygons change)
  | d => d

/-- The polygons of a template. -/
def Definition.polygons : Definition → List Polygon
  | .template geometry => geometry.polygons
  | _ => []

theorem ImplicitGeometry.mapPolygons_self (g : ImplicitGeometry) :
    g.mapPolygons (fun p => p) = g := by
  obtain ⟨lod, mimeType, libraryObject, transformation, referencePoint, template⟩ := g
  cases template with
  | inline geometry =>
    rw [mapPolygons, Template.mapPolygons]
    exact congrArg (fun a => ImplicitGeometry.mk _ _ _ _ _ (.inline a))
      (congrFun Geometry.mapPolygons_self geometry)
  | _ => rfl

theorem ImplicitGeometry.map_mapPolygons_self (implicits : List ImplicitGeometry) :
    implicits.map (·.mapPolygons fun p => p) = implicits := by
  simp only [mapPolygons_self, List.map_id']

theorem Feature.mapEach_self (f : Feature) : f.mapEach (fun p => p) (fun p => p) = f := by
  rw [mapEach, Geometry.mapPolygons_self, List.map_id', ImplicitGeometry.map_mapPolygons_self]

theorem Definition.mapPolygons_self (d : Definition) : d.mapPolygons (fun p => p) = d := by
  cases d with
  | template geometry =>
    exact congrArg Definition.template (congrFun Geometry.mapPolygons_self geometry)
  | _ => rfl

theorem ImplicitGeometry.mapPolygons_comp (f g : Polygon → Polygon) (i : ImplicitGeometry) :
    (i.mapPolygons f).mapPolygons g = i.mapPolygons (g ∘ f) := by
  obtain ⟨lod, mimeType, libraryObject, transformation, referencePoint, template⟩ := i
  cases template with
  | inline geometry =>
    exact congrArg (fun a => ImplicitGeometry.mk _ _ _ _ _ (.inline a))
      (congrFun (Geometry.mapPolygons_comp f g) geometry)
  | _ => rfl

theorem Feature.mapEach_comp (own placed own' placed' : Polygon → Polygon) (f : Feature) :
    (f.mapEach own placed).mapEach own' placed' = f.mapEach (own' ∘ own) (placed' ∘ placed) := by
  have hown : (f.geometries.map (·.mapPolygons own)).map (·.mapPolygons own') =
      f.geometries.map (·.mapPolygons (own' ∘ own)) := by
    rw [List.map_map, ← Geometry.mapPolygons_comp]
    rfl
  have hplaced : (f.implicits.map (·.mapPolygons placed)).map (·.mapPolygons placed') =
      f.implicits.map (·.mapPolygons (placed' ∘ placed)) := by
    rw [List.map_map]
    exact List.map_congr_left fun i _ => i.mapPolygons_comp placed placed'
  simp only [mapEach, hown, hplaced]

theorem Definition.mapPolygons_comp (f g : Polygon → Polygon) (d : Definition) :
    (d.mapPolygons f).mapPolygons g = d.mapPolygons (g ∘ f) := by
  cases d with
  | template geometry =>
    exact congrArg Definition.template (congrFun (Geometry.mapPolygons_comp f g) geometry)
  | _ => rfl

/-! ### Envelopes -/

theorem KeepsRings.rings {change : Polygon → Polygon} (h : KeepsRings change) (p : Polygon) :
    (change p).rings = p.rings := by
  rw [Polygon.rings, Polygon.rings, h.exterior, h.interiors]

/-- Placed points are points of rings. -/
theorem ImplicitGeometry.worldPoints_mapPolygons {change : Polygon → Polygon}
    (h : KeepsRings change) (g : ImplicitGeometry) :
    (g.mapPolygons change).worldPoints = g.worldPoints := by
  obtain ⟨lod, mimeType, libraryObject, transformation, referencePoint, template⟩ := g
  cases template with
  | inline geometry =>
    have hpoints : (geometry.mapPolygons change).polygons.flatMap (fun p => p.rings.flatMap
        (·.points)) = geometry.polygons.flatMap (fun p => p.rings.flatMap (·.points)) := by
      rw [Geometry.mapPolygons, List.flatMap_map]
      exact List.flatMap_congr fun p _ => by rw [h.rings]
    simp only [mapPolygons, Template.mapPolygons, worldPoints, hpoints]
    rfl
  | _ => rfl

theorem Feature.ownEnvelope_mapEach {own placed : Polygon → Polygon} (hown : KeepsRings own)
    (hplaced : KeepsRings placed) (f : Feature) :
    (f.mapEach own placed).ownEnvelope = f.ownEnvelope := by
  have himplicit (g : ImplicitGeometry) : (g.mapPolygons placed).envelope = g.envelope := by
    rw [ImplicitGeometry.envelope, g.worldPoints_mapPolygons hplaced, ImplicitGeometry.envelope]
  simp only [ownEnvelope, mapEach, List.foldl_map, Geometry.envelope_mapPolygons hown, himplicit]

theorem CityObject.isEmpty_map (own placed : Polygon → Polygon) (o : CityObject) :
    isEmpty (o.map (·.mapEach own placed)) = isEmpty o := by
  obtain ⟨f, children⟩ := o
  have hchildren : (Tree.forestMap (·.mapEach own placed) children).isEmpty = children.isEmpty := by
    cases children <;> rfl
  have hgeometries : (f.mapEach own placed).geometries.isEmpty = f.geometries.isEmpty :=
    List.isEmpty_map
  have himplicits : (f.mapEach own placed).implicits.isEmpty = f.implicits.isEmpty :=
    List.isEmpty_map
  simp only [isEmpty, Tree.map, Tree.children, Tree.label, hchildren, hgeometries, himplicits]
  rfl

/-! ### Models -/

namespace Model

/-- The model with the polygons of its objects' geometries changed by `own`, and those of all
templates changed by `placed`. -/
def mapEach (m : Model) (own placed : Polygon → Polygon) : Model :=
  { m with
    objects := Tree.forestMap (·.mapEach own placed) m.objects
    registry := m.registry.map (·.mapPolygons placed) }

/-- The polygons of all templates, those that objects carry inline before the defined ones. -/
def templatePolygons (m : Model) : List Polygon :=
  (Tree.forestLabels m.objects).flatMap (fun f => f.implicits.flatMap (·.template.polygons)) ++
    m.registry.entries.flatMap (·.2.polygons)

theorem mapEach_comp (m : Model) (own placed own' placed' : Polygon → Polygon) :
    (m.mapEach own placed).mapEach own' placed' = m.mapEach (own' ∘ own) (placed' ∘ placed) := by
  have hobjects : Tree.forestMap (·.mapEach own' placed')
        (Tree.forestMap (·.mapEach own placed) m.objects) =
      Tree.forestMap (·.mapEach (own' ∘ own) (placed' ∘ placed)) m.objects := by
    rw [Tree.forestMap_forestMap]
    congr 1
    funext f
    exact f.mapEach_comp own placed own' placed'
  have hregistry : (m.registry.map (·.mapPolygons placed)).map (·.mapPolygons placed') =
      m.registry.map (·.mapPolygons (placed' ∘ placed)) := by
    rw [Table.map_map]
    congr 1
    funext d
    exact d.mapPolygons_comp placed placed'
  simp only [mapEach, hobjects, hregistry]

/-- The polygons of objects alone can be changed, too. -/
theorem mapPolygons_eq_mapEach (m : Model) (change : Polygon → Polygon) :
    m.mapPolygons change = m.mapEach change fun p => p := by
  have hfeature (f : Feature) : f.mapPolygons change = f.mapEach change fun p => p := by
    rw [Feature.mapPolygons, Feature.mapEach, ImplicitGeometry.map_mapPolygons_self]
  rw [mapPolygons, mapEach, Table.map_self Definition.mapPolygons_self]
  simp only [hfeature]

theorem polygons_mapEach (m : Model) (own placed : Polygon → Polygon) :
    (m.mapEach own placed).polygons = m.polygons.map own := by
  rw [polygons, polygons, mapEach, Tree.forestLabels_map, List.flatMap_map, List.map_flatMap]
  refine List.flatMap_congr fun f _ => ?_
  rw [Feature.polygons, Feature.polygons, Feature.mapEach, List.flatMap_map, List.map_flatMap]
  rfl

theorem polygons_mapPolygons (m : Model) (change : Polygon → Polygon) :
    (m.mapPolygons change).polygons = m.polygons.map change := by
  rw [mapPolygons_eq_mapEach, polygons_mapEach]

theorem templatePolygons_mapEach (m : Model) (own placed : Polygon → Polygon) :
    (m.mapEach own placed).templatePolygons = m.templatePolygons.map placed := by
  have htemplate (t : Template) : (t.mapPolygons placed).polygons = t.polygons.map placed := by
    cases t <;> rfl
  have hdefinition (d : Definition) :
      (d.mapPolygons placed).polygons = d.polygons.map placed := by
    cases d <;> rfl
  simp only [templatePolygons, mapEach, Tree.forestLabels_map, Table.entries_map, List.flatMap_map,
    List.map_append, List.map_flatMap, Feature.mapEach, ImplicitGeometry.mapPolygons, htemplate,
    hdefinition, Prod.map]

/-- What is looked up is the same, unless it is a template in both models. -/
theorem resolve?_cases (m m' : Model) {placed : Polygon → Polygon}
    (hregistry : m'.registry = m.registry.map (·.mapPolygons placed))
    (hshared : m'.shared = m.shared) (id : String) :
    m'.resolve? id = m.resolve? id ∨ ∃ geometry geometry',
      m.resolve? id = some (.template geometry) ∧ m'.resolve? id = some (.template geometry') := by
  rw [resolve?, resolve?, definition?, definition?, hregistry, hshared, Table.get?_map]
  cases m.registry.get? (bareId id) with
  | none => exact .inl rfl
  | some d =>
    cases d with
    | template geometry => exact .inr ⟨geometry, _, rfl, rfl⟩
    | _ => exact .inl rfl

theorem isAnswered_congr (m m' : Model) {placed : Polygon → Polygon}
    (hregistry : m'.registry = m.registry.map (·.mapPolygons placed))
    (hshared : m'.shared = m.shared) (p : Mention) : m'.isAnswered p = m.isAnswered p := by
  rw [isAnswered, isAnswered]
  rcases resolve?_cases m m' hregistry hshared p.1 with h | ⟨geometry, geometry', h, h'⟩
  · rw [h]
  · rw [h, h']
    rfl

/-! ### Completing a model -/

theorem containsPolygon_eq (m : Model) (id : String) :
    m.containsPolygon id = (m.polygons.map (·.id)).contains (some id) := by
  rw [containsPolygon, features, Tree.walk_eq, Tree.map_label_forestSubtrees, polygons,
    List.contains_eq_any_beq, List.any_map, List.any_flatMap]
  congr 1
  funext f
  congr 1
  funext p
  exact Bool.beq_comm

/-- The polygons that answer targets are known by their identifiers. -/
theorem missedTargets_eq (m : Model) (paints : List (String × Paint)) :
    m.missedTargets paints = ((paints.map Prod.fst).filter fun id =>
      !(((m.polygons.map (·.id)).reduceOption).filter fun id =>
        paints.any (·.1 == id)).contains id).eraseDups := by
  have hids : (m.polygons.map (·.id)).reduceOption = m.polygons.filterMap (·.id) :=
    List.filterMap_map
  rw [missedTargets, reachedIds, hids]

/-- A change of models that shows neither in what is looked up nor in the identifiers of polygons,
and that does not get in the way of painting. -/
structure Unseen (change : Model → Model) : Prop where
  withPending : ∀ m pending, change { m with pending } = { change m with pending }
  ids : ∀ m, (change m).polygons.map (·.id) = m.polygons.map (·.id)
  isAnswered : ∀ m, (change m).isAnswered = m.isAnswered
  paints : ∀ m, (change m).paints = m.paints
  mapPolygons : ∀ m paints, (change m).mapPolygons (paintPolygon paints) =
    change (m.mapPolygons (paintPolygon paints))

namespace Unseen

variable {change : Model → Model}

theorem pending (h : Unseen change) (m : Model) : (change m).pending = m.pending := by
  have hsame := congrArg Model.pending (h.withPending m m.pending)
  exact hsame

theorem answers (h : Unseen change) (m : Model) (r : Reference) :
    (change m).answers r = m.answers r := by
  by_cases hkind : r.kind = .polygon
  · rw [Model.answers, Model.answers, hkind]
    dsimp only
    rw [containsPolygon_eq, containsPolygon_eq, h.ids]
  · rw [answers_of_ne hkind, answers_of_ne hkind, h.isAnswered]

theorem recordReference (h : Unseen change) (m : Model) (r : Reference) :
    (change m).recordReference r = change (m.recordReference r) := by
  rw [Model.recordReference, Model.recordReference, h.answers]
  split
  · rfl
  · rw [keepPending, keepPending, h.pending]
    split
    · rfl
    · exact (h.withPending m _).symm

theorem bindAppearances (h : Unseen change) (m : Model) :
    (change m).bindAppearances = change m.bindAppearances := by
  have hmissed : (change m).missedTargets m.paints = m.missedTargets m.paints := by
    rw [missedTargets_eq, missedTargets_eq, h.ids]
  rw [Model.bindAppearances, Model.bindAppearances, h.paints, hmissed, h.mapPolygons]
  exact List.foldl_hom change fun m r => h.recordReference m r

/-- **Completing a model commutes with changes that it does not see.** -/
theorem finalize (h : Unseen change) (m : Model) :
    (change m).finalize = (change m.finalize.1, m.finalize.2) := by
  have hleft : ((change m).bindAppearances.pending.filter fun r =>
        !(change m).bindAppearances.answers r) =
      m.bindAppearances.pending.filter fun r => !m.bindAppearances.answers r := by
    rw [h.bindAppearances, h.pending]
    exact List.filter_congr fun r _ => by rw [h.answers]
  rw [Model.finalize, Model.finalize, hleft, h.bindAppearances]
  exact congrArg (·, _) (h.withPending m.bindAppearances _).symm

end Unseen

variable {own placed : Polygon → Polygon}

theorem appearancePaints_mapEach (m : Model) (own placed : Polygon → Polygon) (a : Appearance) :
    (m.mapEach own placed).appearancePaints a = m.appearancePaints a := by
  rw [appearancePaints, appearancePaints]
  refine List.flatMap_congr fun id _ => ?_
  rcases resolve?_cases m (m.mapEach own placed) rfl rfl id with h | ⟨geometry, geometry', h, h'⟩
  · rw [h]
  · rw [h, h']

theorem paints_mapEach (m : Model) (own placed : Polygon → Polygon) :
    (m.mapEach own placed).paints = m.paints := by
  have hentries : (m.mapEach own placed).registry.entries =
      m.registry.entries.map (Prod.map id (·.mapPolygons placed)) := Table.entries_map ..
  rw [paints, paints, hentries, List.flatMap_map]
  refine List.flatMap_congr fun entry _ => ?_
  obtain ⟨name, d⟩ := entry
  cases d with
  | appearance a => exact m.appearancePaints_mapEach own placed a
  | _ => rfl

theorem paintPolygon_comm (hown : KeepsRings own)
    (hpaint : ∀ p a, own (Polygon.paint p a) = (own p).paint a) (paints : List (String × Paint))
    (p : Polygon) : paintPolygon paints (own p) = own (paintPolygon paints p) := by
  rw [paintPolygon, paintPolygon, hown.id]
  cases p.id with
  | none => rfl
  | some id =>
    dsimp only
    generalize (paints.filter (·.1 == id)).map Prod.snd = put
    induction put generalizing p with
    | nil => rfl
    | cons a put ih => rw [List.foldl_cons, List.foldl_cons, ← hpaint, ih]

theorem mapPolygons_mapEach (hown : KeepsRings own)
    (hpaint : ∀ p a, own (Polygon.paint p a) = (own p).paint a) (paints : List (String × Paint))
    (m : Model) : (m.mapEach own placed).mapPolygons (paintPolygon paints) =
      (m.mapPolygons (paintPolygon paints)).mapEach own placed := by
  have hpolygon (p : Polygon) : paintPolygon paints (own p) = own (paintPolygon paints p) :=
    paintPolygon_comm hown hpaint paints p
  have hfeature (f : Feature) : (f.mapEach own placed).mapPolygons (paintPolygon paints) =
      (f.mapPolygons (paintPolygon paints)).mapEach own placed := by
    simp only [Feature.mapEach, Feature.mapPolygons, Geometry.mapPolygons, List.map_map,
      Function.comp_def, hpolygon]
  have hobjects : Tree.forestMap (·.mapPolygons (paintPolygon paints))
        (Tree.forestMap (·.mapEach own placed) m.objects) =
      Tree.forestMap (·.mapEach own placed)
        (Tree.forestMap (·.mapPolygons (paintPolygon paints)) m.objects) := by
    rw [Tree.forestMap_forestMap, Tree.forestMap_forestMap]
    congr 1
    funext f
    exact hfeature f
  rw [mapPolygons, mapPolygons, mapEach, mapEach, hobjects]

theorem unseen_mapEach (hown : KeepsRings own)
    (hpaint : ∀ p a, own (Polygon.paint p a) = (own p).paint a) :
    Unseen (·.mapEach own placed) where
  withPending _ _ := rfl
  ids m := by
    rw [polygons_mapEach, List.map_map]
    exact List.map_congr_left fun p _ => hown.id p
  isAnswered m := funext fun p => isAnswered_congr m (m.mapEach own placed) rfl rfl p
  paints m := m.paints_mapEach own placed
  mapPolygons m paints := mapPolygons_mapEach hown hpaint paints m

/-- **Completing a model does not look at meshes or into templates.** -/
theorem finalize_mapEach (hown : KeepsRings own)
    (hpaint : ∀ p a, own (Polygon.paint p a) = (own p).paint a) (m : Model) :
    (m.mapEach own placed).finalize = (m.finalize.1.mapEach own placed, m.finalize.2) :=
  (unseen_mapEach hown hpaint).finalize m

end Model

end CityScene
