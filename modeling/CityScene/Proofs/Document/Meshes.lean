import CityScene.Proofs.Document.References
import CityScene.Proofs.Document.Runs
import CityScene.Proofs.Model.Tessellation

/-!
# Meshes

When polygons are tessellated, and with which option, shows in their meshes and in the reports on
failures, and nowhere else: without these two, the outcomes of any two modes are equal
(`withoutMeshes_readEvents`).  For that, both runs are compared with one in which nothing is
tessellated.

In eager mode every polygon is tessellated, wherever it stands.  Put off to the end, tessellation
gets to the polygons of objects only.  Those of templates are left pending, and this is all in which
the models of the two modes differ (`readEvents_deferred`).
-/

namespace CityScene

theorem Polygon.withoutMesh_meshed (config : Config) (p : Polygon) :
    (config.meshed p).withoutMesh = p.withoutMesh := by
  rw [Config.meshed]
  split
  · exact p.withoutMesh_tessellate config.smooth
  · rfl

/-- The model with no polygon tessellated. -/
def Model.withoutMeshes (m : Model) : Model :=
  m.mapEach Polygon.withoutMesh Polygon.withoutMesh

theorem Model.finalize_withoutMeshes (m : Model) :
    m.withoutMeshes.finalize = (m.finalize.1.withoutMeshes, m.finalize.2) :=
  finalize_mapEach .withoutMesh Polygon.withoutMesh_paint m

/-- Completing a model commutes with changes of templates. -/
theorem Model.finalize_templates (m : Model) (change : Polygon → Polygon) :
    (m.mapEach (fun p => p) change).finalize.1 = m.finalize.1.mapEach (fun p => p) change := by
  have hself : KeepsRings fun p => p := ⟨fun _ => rfl, fun _ => rfl, fun _ => rfl⟩
  rw [finalize_mapEach hself fun _ _ => rfl]

theorem Model.withoutMeshes_tessellateAll (m : Model) (smooth : Bool) :
    (m.tessellateAll smooth).1.withoutMeshes = m.withoutMeshes := by
  have hpolygon : Polygon.withoutMesh ∘ (·.tessellate smooth) = Polygon.withoutMesh :=
    funext fun p => p.withoutMesh_tessellate smooth
  rw [tessellateAll, mapPolygons_eq_mapEach, withoutMeshes, mapEach_comp, hpolygon]
  rfl

/-- The reports of a sequence that are not on tessellation. -/
def withoutFailures (reports : List Diagnostic) : List Diagnostic :=
  reports.filter fun d => d.kind != .tessellationFailure

theorem withoutFailures_append (s t : List Diagnostic) :
    withoutFailures (s ++ t) = withoutFailures s ++ withoutFailures t :=
  List.filter_append ..

theorem withoutFailures_eq_nil {reports : List Diagnostic}
    (h : ∀ d ∈ reports, d.kind = .tessellationFailure) : withoutFailures reports = [] := by
  refine List.filter_eq_nil_iff.2 fun d hd => ?_
  rw [h d hd]
  decide

theorem withoutFailures_reports (p : Polygon) (element : Option String) :
    withoutFailures (p.reports element) = [] := by
  refine withoutFailures_eq_nil fun d hd => ?_
  obtain ⟨failure, -, rfl⟩ := List.mem_map.1 hd
  rfl

namespace Document

/-- The outcome with no polygon tessellated, and no report on a failure to do so. -/
def Outcome.withoutMeshes (o : Outcome) : Outcome where
  model := o.model.withoutMeshes
  diagnostics := withoutFailures o.diagnostics
  unresolved := o.unresolved

/-! ### Completing documents -/

/-- The outcome for a model that has got its meshes. -/
def concluded (reports : List Diagnostic) (m : Model) : Outcome where
  model := m.finalize.1
  diagnostics := reports ++ m.finalize.2.map fun r => ⟨.dangling r, r.referrer⟩
  unresolved := m.finalize.2

theorem Builder.complete_of_deferred {config : Config} (h : config.mode = .deferred)
    (b : Builder) : b.complete config =
      concluded (b.diagnostics ++ (b.model.tessellateAll config.smooth).2)
        (b.model.tessellateAll config.smooth).1 := by
  rw [complete, if_pos h]
  rfl

theorem Builder.complete_of_not_deferred {config : Config} (h : config.mode ≠ .deferred)
    (b : Builder) : b.complete config = concluded b.diagnostics b.model := by
  rw [complete, if_neg h]
  show concluded (b.diagnostics ++ []) b.model = _
  rw [List.append_nil]

theorem withoutMeshes_concluded {l l' : List Diagnostic} {m m' : Model}
    (hl : withoutFailures l = withoutFailures l') (hm : m.withoutMeshes = m'.withoutMeshes) :
    (concluded l m).withoutMeshes = (concluded l' m').withoutMeshes := by
  have hfinalize : (m.finalize.1.withoutMeshes, m.finalize.2) =
      (m'.finalize.1.withoutMeshes, m'.finalize.2) := by
    rw [← m.finalize_withoutMeshes, hm, m'.finalize_withoutMeshes]
  obtain ⟨hmodel, hunresolved⟩ := Prod.mk.inj hfinalize
  simp only [Outcome.withoutMeshes, concluded, withoutFailures_append, hl, hmodel, hunresolved]

/-- Tessellation at the end does not show in what is left without meshes. -/
theorem Builder.withoutMeshes_complete (config : Config) (b : Builder) :
    (b.complete config).withoutMeshes = (concluded b.diagnostics b.model).withoutMeshes := by
  by_cases h : config.mode = .deferred
  · have hfailures : withoutFailures (b.model.tessellateAll config.smooth).2 = [] :=
      withoutFailures_eq_nil fun d hd => Model.kind_of_mem_tessellateAll hd
    rw [complete_of_deferred h]
    refine withoutMeshes_concluded ?_ (b.model.withoutMeshes_tessellateAll config.smooth)
    rw [withoutFailures_append, hfailures, List.append_nil]
  · rw [complete_of_not_deferred h]

/-! ### Two modes -/

namespace Comparison

/-- A reading compared with one that tessellates nothing. -/
def withoutMeshes (config : Config) : Comparison :=
  ofPolygons config .disabled false Polygon.withoutMesh
    (fun l l' => withoutFailures l = withoutFailures l') .withoutMesh
    (fun p hp => by
      rw [Polygon.withoutMesh_meshed, Polygon.withoutMesh_of_pending hp]
      rfl)
    (fun d h => by rw [withoutFailures_append, withoutFailures_append, h])
    (fun p element _ h => by
      rw [withoutFailures_append, withoutFailures_append, withoutFailures_reports,
        withoutFailures_reports, h])

end Comparison

/-- **The mode of tessellation shows in meshes only.**  A document that is read in one mode is read
in any other, smooth or not, with an outcome that differs in nothing but the meshes of polygons and
the reports on failed tessellation. -/
theorem withoutMeshes_readEvents {config : Config} {events : List Event} {outcome : Outcome}
    (h : readEvents config events = .ok outcome) (mode : TessellationMode) (smooth : Bool) :
    ∃ outcome', readEvents { config with mode, smooth } events = .ok outcome' ∧
      outcome'.withoutMeshes = outcome.withoutMeshes := by
  obtain ⟨b, hb, hstack, rfl⟩ := Builder.exists_of_readEvents_eq_ok h
  -- both runs are alike to the same run, in which nothing is tessellated
  obtain ⟨d, hd, halike⟩ :=
    (Comparison.Alike.start (.withoutMeshes config) {} rfl rfl).applyAll_none trivial hb
  have hstart := Comparison.Alike.start (.withoutMeshes { config with mode, smooth }) {} rfl rfl
  obtain ⟨b', hb', halike'⟩ := hstart.exists_applyAll trivial hd
  have hstack' : b'.stack = [] := halike'.stack_eq_nil_iff.1 (halike.stack_eq_nil_iff.2 hstack)
  refine ⟨_, Builder.readEvents_of_applyAll hb' hstack', ?_⟩
  have hmodel : b'.model.withoutMeshes = b.model.withoutMeshes :=
    halike'.model.symm.trans halike.model
  have hreports : withoutFailures b'.diagnostics = withoutFailures b.diagnostics :=
    halike'.diagnostics.trans halike.diagnostics.symm
  rw [b.withoutMeshes_complete, b'.withoutMeshes_complete]
  exact withoutMeshes_concluded hreports hmodel

/-- A building with a triangle, and a triangle that is placed.  The second is a template with an
identifier, so it is also registered. -/
def placedTriangle : List Event :=
  let triangle : List Event :=
    [.opened "gml:Polygon" [], .opened "gml:exterior" [], .opened "gml:LinearRing" [],
     .opened "gml:posList" [], .text "0 0 0 4 0 0 4 3 0", .closed "gml:posList",
     .closed "gml:LinearRing", .closed "gml:exterior", .closed "gml:Polygon"]
  [.opened "bldg:Building" [("gml:id", "B")],
   .opened "bldg:lod1MultiSurface" []] ++ triangle ++ [.closed "bldg:lod1MultiSurface",
   .opened "bldg:lod1ImplicitRepresentation" [],
   .opened "core:ImplicitGeometry" [],
   .opened "core:relativeGMLGeometry" [],
   .opened "gml:MultiSurface" [("gml:id", "T")]] ++ triangle ++ [.closed "gml:MultiSurface",
   .closed "core:relativeGMLGeometry",
   .closed "core:ImplicitGeometry",
   .closed "bldg:lod1ImplicitRepresentation",
   .closed "bldg:Building"]

theorem wellNested_placedTriangle : WellNested placedTriangle :=
  nestAll_eq_nil_iff.1 (by decide)

theorem gridless_placedTriangle : ∀ e ∈ placedTriangle, e.opensGrid = false := by
  decide

theorem withoutMeshes_placedTriangle :
    ∃ outcome outcome', readEvents {} placedTriangle = .ok outcome ∧
      readEvents { mode := .disabled, smooth := true } placedTriangle = .ok outcome' ∧
      outcome'.withoutMeshes = outcome.withoutMeshes := by
  obtain ⟨outcome, h⟩ :=
    exists_readEvents_of_gridless {} wellNested_placedTriangle gridless_placedTriangle
  obtain ⟨outcome', h', hequal⟩ := withoutMeshes_readEvents h .disabled true
  exact ⟨outcome, outcome', h, h', hequal⟩

/-! ### Where tessellation gets to -/

namespace Builder

variable {config : Config} {events : List Event} {b : Builder}

/-- A change that no new polygon shows, no polygon of a state shows. -/
theorem mapEach_of_applyAll {change : Polygon → Polygon} (hchange : KeepsRings change)
    (hmeshed : ∀ p, p.mesh = .pending → change (config.meshed p) = config.meshed p)
    (h : (start config).applyAll config events = .ok b) :
    b.model.mapEach change change = b.model := by
  let C := Comparison.ofPolygons config config.mode config.smooth change Eq hchange
    (fun p hp => (hmeshed p hp).symm) (fun _ h => by rw [h]) (fun _ _ _ h => by rw [h])
  obtain ⟨b', hb', halike⟩ := (Comparison.Alike.start C {} rfl rfl).applyAll_none trivial h
  obtain rfl : b = b' := Except.ok.inj (h.symm.trans hb')
  exact halike.model.symm

/-- In eager mode every polygon has been tessellated. -/
theorem tessellate_of_applyAll (hmode : config.mode = .eager)
    (h : (start config).applyAll config events = .ok b) :
    b.model.mapEach (·.tessellate config.smooth) (·.tessellate config.smooth) = b.model := by
  refine mapEach_of_applyAll (.tessellate config.smooth) (fun p _ => ?_) h
  rw [Config.meshed, if_pos hmode]
  exact p.tessellate_tessellate config.smooth config.smooth

/-- In any other mode no polygon has been tessellated before the end. -/
theorem withoutMeshes_of_applyAll (hmode : config.mode ≠ .eager)
    (h : (start config).applyAll config events = .ok b) : b.model.withoutMeshes = b.model := by
  refine mapEach_of_applyAll .withoutMesh (fun p hp => ?_) h
  rw [Config.meshed, if_neg hmode]
  exact Polygon.withoutMesh_of_pending hp

end Builder

/-- In eager mode no polygon is left pending. -/
theorem mesh_ne_pending_of_eager {config : Config} {events : List Event} {outcome : Outcome}
    (hmode : config.mode = .eager) (h : readEvents config events = .ok outcome) {p : Polygon}
    (hp : p ∈ outcome.model.polygons ++ outcome.model.templatePolygons) : p.mesh ≠ .pending := by
  obtain ⟨b, hb, -, rfl⟩ := Builder.exists_of_readEvents_eq_ok h
  let tessellated (m : Model) : Model :=
    m.mapEach (·.tessellate config.smooth) (·.tessellate config.smooth)
  have hb' : tessellated b.model = b.model := Builder.tessellate_of_applyAll hmode hb
  have hmodel : tessellated b.model.finalize.1 = b.model.finalize.1 := by
    have hfinalize : (tessellated b.model).finalize =
        (tessellated b.model.finalize.1, b.model.finalize.2) :=
      Model.finalize_mapEach (.tessellate config.smooth)
        (fun p a => p.tessellate_paint a config.smooth) b.model
    rw [hb'] at hfinalize
    exact (congrArg Prod.fst hfinalize).symm
  rw [Builder.complete_of_not_deferred (by rw [hmode]; decide), concluded, ← hmodel,
    Model.polygons_mapEach, Model.templatePolygons_mapEach, ← List.map_append] at hp
  obtain ⟨q, -, rfl⟩ := List.mem_map.1 hp
  exact q.mesh_tessellate_ne_pending config.smooth

/-- Tessellation at the end leaves the polygons of templates pending. -/
theorem mesh_eq_pending_of_deferred {config : Config} {events : List Event} {outcome : Outcome}
    (hmode : config.mode = .deferred) (h : readEvents config events = .ok outcome) {p : Polygon}
    (hp : p ∈ outcome.model.templatePolygons) : p.mesh = .pending := by
  obtain ⟨b, hb, -, rfl⟩ := Builder.exists_of_readEvents_eq_ok h
  have hpending : b.model.withoutMeshes = b.model :=
    Builder.withoutMeshes_of_applyAll (by rw [hmode]; decide) hb
  have htemplates : (b.model.tessellateAll config.smooth).1.mapEach (fun p => p)
      Polygon.withoutMesh = (b.model.tessellateAll config.smooth).1 := by
    rw [Model.tessellateAll, Model.mapPolygons_eq_mapEach, ← hpending, Model.withoutMeshes,
      Model.mapEach_comp, Model.mapEach_comp, Model.mapEach_comp]
    rfl
  rw [Builder.complete_of_deferred hmode, concluded] at hp
  dsimp only at hp
  rw [← htemplates, Model.finalize_templates, Model.templatePolygons_mapEach] at hp
  obtain ⟨q, -, rfl⟩ := List.mem_map.1 hp
  rfl

/-- A reading compared with one that tessellates every polygon as it is complete. -/
def Comparison.eager (config : Config) : Comparison :=
  ofPolygons config .eager config.smooth (·.tessellate config.smooth) (fun _ _ => True)
    (.tessellate config.smooth)
    (fun p _ => by
      have hmeshed : Config.meshed { config with mode := .eager } p = p.tessellate config.smooth :=
        if_pos rfl
      rw [hmeshed, Config.meshed]
      split
      · exact (p.tessellate_tessellate config.smooth config.smooth).symm
      · rfl)
    (fun _ _ => trivial) (fun _ _ _ _ => trivial)

/-- **Tessellation at the end misses templates.**  Where a document is read with tessellation put
off, eager mode has the same model, save that the polygons of templates are tessellated in it, too.
So there none is left pending, while with tessellation put off all those of templates are. -/
theorem readEvents_deferred (config : Config) {events : List Event} {deferred : Outcome}
    (h : readEvents { config with mode := .deferred } events = .ok deferred) :
    ∃ eager, readEvents { config with mode := .eager } events = .ok eager ∧
      eager.model = deferred.model.mapEach (fun p => p) (·.tessellate config.smooth) ∧
      (∀ p ∈ eager.model.polygons ++ eager.model.templatePolygons, p.mesh ≠ .pending) ∧
      ∀ p ∈ deferred.model.templatePolygons, p.mesh = .pending := by
  have htemplates : ∀ p ∈ deferred.model.templatePolygons, p.mesh = .pending := fun p hp =>
    mesh_eq_pending_of_deferred rfl h hp
  obtain ⟨b, hb, hstack, rfl⟩ := Builder.exists_of_readEvents_eq_ok h
  obtain ⟨b', hb', halike⟩ :=
    (Comparison.Alike.start (.eager { config with mode := .deferred }) {} rfl trivial).applyAll_none
      trivial hb
  have heager := Builder.readEvents_of_applyAll hb' (halike.stack_eq_nil_iff.2 hstack)
  refine ⟨_, heager, ?_, fun p hp => mesh_ne_pending_of_eager rfl heager hp, htemplates⟩
  have hmodel : b'.model = (b.model.tessellateAll config.smooth).1.mapEach (fun p => p)
      (·.tessellate config.smooth) := by
    rw [Model.tessellateAll, Model.mapPolygons_eq_mapEach, Model.mapEach_comp]
    exact halike.model
  have hmode : TessellationMode.eager ≠ .deferred := by decide
  rw [Builder.complete_of_not_deferred hmode, Builder.complete_of_deferred rfl, concluded,
    concluded, hmodel, Model.finalize_templates]

/-- The triangle is in two templates, the one that is placed and the one that is registered. -/
theorem exists_deferred_placedTriangle :
    ∃ deferred, readEvents { mode := .deferred } placedTriangle = .ok deferred ∧
      deferred.model.templatePolygons.map (·.mesh) = [.pending, .pending] := by
  have hmeshes : (readEvents { mode := .deferred } placedTriangle).toOption.map
      (·.model.templatePolygons.map (·.mesh)) = some [.pending, .pending] := by decide +kernel
  obtain ⟨deferred, h⟩ := exists_readEvents_of_gridless { mode := .deferred }
    wellNested_placedTriangle gridless_placedTriangle
  rw [h] at hmeshes
  exact ⟨deferred, h, Option.some.inj hmeshes⟩

theorem deferred_placedTriangle :
    ∃ eager deferred, readEvents { mode := .deferred } placedTriangle = .ok deferred ∧
      readEvents { mode := .eager } placedTriangle = .ok eager ∧
      eager.model = deferred.model.mapEach (fun p => p) (·.tessellate false) ∧
      (∀ p ∈ eager.model.polygons ++ eager.model.templatePolygons, p.mesh ≠ .pending) ∧
      ∀ p ∈ deferred.model.templatePolygons, p.mesh = .pending := by
  obtain ⟨deferred, h, -⟩ := exists_deferred_placedTriangle
  obtain ⟨eager, heager, hmeshes⟩ := readEvents_deferred {} h
  exact ⟨eager, deferred, h, heager, hmeshes⟩

/-- The two modes do not have the same meshes. -/
theorem eager_placedTriangle_ne_deferred :
    ∃ eager deferred, readEvents { mode := .eager } placedTriangle = .ok eager ∧
      readEvents { mode := .deferred } placedTriangle = .ok deferred ∧
      eager.model.templatePolygons.map (·.mesh) ≠
        deferred.model.templatePolygons.map (·.mesh) := by
  obtain ⟨deferred, hdeferred, hmeshes⟩ := exists_deferred_placedTriangle
  obtain ⟨eager, heager⟩ := exists_readEvents_of_gridless { mode := .eager }
    wellNested_placedTriangle gridless_placedTriangle
  refine ⟨eager, deferred, heager, hdeferred, fun hequal => ?_⟩
  have hpending : .pending ∈ eager.model.templatePolygons.map (·.mesh) := by
    rw [hequal, hmeshes]
    exact List.mem_cons_self
  obtain ⟨p, hp, hmesh⟩ := List.mem_map.1 hpending
  exact mesh_ne_pending_of_eager rfl heager (List.mem_append_right _ hp) hmesh

end Document

end CityScene
