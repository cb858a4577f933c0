import CityScene.Proofs.Document.Envelopes
import CityScene.Proofs.Document.Meshes
import CityScene.Proofs.Model.Pruning

/-!
# Dropping empty objects

Under the option to prune, an object that is empty when it is closed is not attached to anything.
Its children were decided on before, so in the end this is the same as to read everything and prune
the finished model (`readEvents_pruned`).

The two runs are compared with the children of every open object pruned in the second.  Where an
object is kept in the first run only, its envelope is empty, since the scaffold of a run is tight;
so it leaves no trace in the envelope of what it is attached to (`attaches_withoutEmpty`).
-/

namespace CityScene.Document

/-! ### Objects that are closed -/

/-- In a tight state, an object is tight once it is closed. -/
theorem Scaffold.IsTight.finish {b : Builder} {e : OpenElement} {outer : Stack} {o : ObjectParts}
    {coverage : Option GridCoverage} {object : CityObject} (h : b.scaffold.IsTight)
    (hstack : b.stack = e :: outer) (hframe : e.frame = .object o)
    (hfinish : o.finish coverage = .ok object) : Tight [object] := by
  have hlevel : e.level ∈ b.scaffold.levels := by
    rw [Builder.scaffold, hstack]
    exact List.mem_cons_self
  have hcore : e.level.object = some o.core := by rw [OpenElement.level, hframe]; rfl
  obtain ⟨henvelope, hchildren⟩ := h.levels e.level hlevel o.core hcore
  obtain ⟨envelope, hown, rfl⟩ := exists_of_map_eq_ok hfinish
  exact tight_node (f := { o.feature with coverage }) henvelope hown hchildren

namespace Comparison

/-- The view under which finished objects are pruned. -/
def withoutEmpty : View :=
  ⟨fun p => p, CityObject.pruned⟩

/-- Deciding on an object over pruned children is pruning it. -/
theorem kept_withoutEmpty {config : Config} (hprune : config.prune = true) {o : ObjectParts}
    {coverage : Option GridCoverage} {object object' : CityObject}
    (h : o.finish coverage = .ok object)
    (h' : (withoutEmpty.object o).finish coverage = .ok object') :
    config.kept object' = CityObject.pruned [object] := by
  have hfeature : (withoutEmpty.object o).feature = o.feature := Feature.mapEach_self o.feature
  obtain ⟨envelope, hown, rfl⟩ := exists_of_map_eq_ok h
  obtain ⟨envelope', hown', rfl⟩ := exists_of_map_eq_ok h'
  rw [hfeature] at hown' ⊢
  obtain rfl := Except.ok.inj (hown.symm.trans hown')
  rw [Config.kept, hprune, Bool.true_and, CityObject.pruned_node]
  rfl

theorem addChild_withoutEmpty {child : CityObject} (htight : Tight [child]) (parent : ObjectParts) :
    (CityObject.pruned [child]).foldl ObjectParts.addChild (withoutEmpty.object parent) =
      withoutEmpty.object (parent.addChild child) := by
  have hchildren : CityObject.pruned (parent.children ++ [child]) =
      CityObject.pruned parent.children ++ CityObject.pruned [child] :=
    CityObject.pruned_append parent.children [child]
  rw [ObjectParts.addChild, View.object, View.object]
  dsimp only [withoutEmpty]
  rw [hchildren]
  rcases CityObject.pruned_cases child with hgone | ⟨left, hleft, hlabel⟩
  · rw [hgone, htight.envelope_eq_empty hgone, List.append_nil]
    rfl
  · rw [hleft, List.foldl_cons, List.foldl_nil, ObjectParts.addChild, hlabel]
    rfl

theorem addObject_withoutEmpty {o : CityObject} (htight : Tight [o]) (m : Model) :
    (CityObject.pruned [o]).foldl Model.addObject (withoutEmpty.model m) =
      withoutEmpty.model (m.addObject o) := by
  have hobjects : CityObject.pruned (m.objects ++ [o]) =
      CityObject.pruned m.objects ++ CityObject.pruned [o] :=
    CityObject.pruned_append m.objects [o]
  rw [Model.addObject, View.model, View.model]
  dsimp only [withoutEmpty]
  rw [hobjects]
  rcases CityObject.pruned_cases o with hgone | ⟨left, hleft, hlabel⟩
  · rw [hgone, htight.envelope_eq_empty hgone, List.append_nil]
    rfl
  · rw [hleft, List.foldl_cons, List.foldl_nil, Model.addObject, hlabel]

/-- Keeping a tight object looks like keeping what is left of it. -/
theorem attaches_withoutEmpty {o : CityObject} (htight : Tight [o]) :
    withoutEmpty.Attaches [o] (CityObject.pruned [o]) where
  object := addChild_withoutEmpty htight
  model := addObject_withoutEmpty htight

/-- A reading that keeps empty objects compared with one that does not. -/
def pruning (config : Config) : Comparison where
  config := { config with prune := false }
  config' := { config with prune := true }
  view := withoutEmpty
  logs := Eq
  sound b := b.scaffold.IsTight
  lods := rfl
  kinds := rfl
  closedRings := rfl
  reprojection := rfl
  keepsRings := ⟨fun _ => rfl, fun _ => rfl, fun _ => rfl⟩
  meshed _ _ := rfl
  forest_nil := rfl
  logs_report := (same config).logs_report
  logs_meshed _ _ _ h := by rw [h]; rfl
  sound_apply h happly := (Builder.step_of_apply happly).scaffold.isTight h
  keeps h hstack hframe coverage object object' hfinish hfinish' := by
    rw [kept_withoutEmpty rfl hfinish hfinish']
    exact attaches_withoutEmpty (h.finish hstack hframe hfinish)

end Comparison

/-! ### Documents -/

/-- The outcome with the finished model pruned. -/
def Outcome.pruned (o : Outcome) : Outcome :=
  { o with model := o.model.pruned }

/-- Completing a document does not look for empty objects. -/
theorem Builder.complete_pruned {config config' : Config} {b b' : Builder}
    (hmode : config'.mode = config.mode) (hsmooth : config'.smooth = config.smooth)
    (hmodel : b'.model = b.model.pruned) (hdiagnostics : b'.diagnostics = b.diagnostics) :
    b'.complete config' = (b.complete config).pruned := by
  by_cases h : config.mode = .deferred
  · rw [complete_of_deferred h, complete_of_deferred (hmode.trans h), hsmooth, hmodel,
      hdiagnostics, Model.tessellateAll_pruned, concluded, concluded, Model.finalize_pruned]
    rfl
  · rw [complete_of_not_deferred h, complete_of_not_deferred (by rwa [hmode]), hmodel,
      hdiagnostics, concluded, concluded, Model.finalize_pruned]
    rfl

/-- Reading without empty objects gives the outcome of reading with them, pruned. -/
theorem readEvents_of_prune {config : Config} {events : List Event} {outcome : Outcome}
    (h : readEvents { config with prune := false } events = .ok outcome) :
    readEvents { config with prune := true } events = .ok outcome.pruned := by
  obtain ⟨b, hb, hstack, rfl⟩ := Builder.exists_of_readEvents_eq_ok h
  obtain ⟨b', hb', halike⟩ :=
    (Comparison.Alike.start (.pruning config) {} rfl rfl).applyAll_none
      (isTight_start { config with prune := false }) hb
  have hmodel : b'.model = b.model.pruned := by
    have hregistry : b.model.registry.map (·.mapPolygons Comparison.withoutEmpty.polygon) =
        b.model.registry := Table.map_self Definition.mapPolygons_self b.model.registry
    have hview : b'.model = Comparison.withoutEmpty.model b.model := halike.model
    rw [hview, View.model, hregistry]
    rfl
  have hread := Builder.readEvents_of_applyAll hb' (halike.stack_eq_nil_iff.2 hstack)
  exact hread.trans
    (congrArg Except.ok (Builder.complete_pruned rfl rfl hmodel halike.diagnostics.symm))

/-- A document that is read without empty objects is read with them. -/
theorem exists_readEvents_of_prune (config : Config) {events : List Event} {outcome : Outcome}
    (h : readEvents { config with prune := true } events = .ok outcome) :
    ∃ kept, readEvents { config with prune := false } events = .ok kept := by
  obtain ⟨b', hb', hstack', -⟩ := Builder.exists_of_readEvents_eq_ok h
  obtain ⟨b, hb, halike⟩ :=
    (Comparison.Alike.start (.pruning config) {} rfl rfl).exists_applyAll
      (isTight_start { config with prune := false }) hb'
  exact ⟨_, Builder.readEvents_of_applyAll hb (halike.stack_eq_nil_iff.1 hstack')⟩

/-- **Pruning objects as they are closed is pruning the finished model.**  A document that is read
is read with the option to prune and without it.  The two models differ in nothing but their
objects, and those of the one are those of the other without the objects that are empty, taken away
from the leaves up.  The features that remain are as they were, envelopes and generated identifiers
included, and no object at any depth is empty.  The reports and the unresolved references are the
same. -/
theorem readEvents_pruned {config : Config} {events : List Event} {outcome : Outcome}
    (h : readEvents config events = .ok outcome) :
    ∃ kept pruned, readEvents { config with prune := false } events = .ok kept ∧
      readEvents { config with prune := true } events = .ok pruned ∧
      pruned.model = { kept.model with objects := CityObject.pruned kept.model.objects } ∧
      (Tree.forestLabels pruned.model.objects).Sublist (Tree.forestLabels kept.model.objects) ∧
      (∀ o ∈ Tree.forestSubtrees pruned.model.objects, CityObject.isEmpty o = false) ∧
      pruned.diagnostics = kept.diagnostics ∧ pruned.unresolved = kept.unresolved := by
  obtain ⟨kept, hkept⟩ : ∃ kept, readEvents { config with prune := false } events = .ok kept := by
    cases hprune : config.prune with
    | false => exact ⟨outcome, by rwa [← hprune]⟩
    | true => exact exists_readEvents_of_prune config (by rwa [← hprune])
  refine ⟨kept, kept.pruned, hkept, readEvents_of_prune hkept, rfl, ?_, fun o ho => ?_, rfl, rfl⟩
  · exact Tree.forestLabels_forestPrune_sublist kept.model.objects
  · exact Tree.drop_eq_false_of_mem_forestPrune ho

/-- A building with two parts, one with an empty room and one at the origin.  Only the building has
an identifier in the document. -/
def emptyRoom : List Event :=
  [.opened "bldg:Building" [("gml:id", "B")],
   .opened "bldg:BuildingPart" [],
   .opened "bldg:Room" [], .closed "bldg:Room",
   .closed "bldg:BuildingPart",
   .opened "bldg:BuildingPart" [],
   .opened "bldg:lod1ImplicitRepresentation" [],
   .opened "core:ImplicitGeometry" [], .closed "core:ImplicitGeometry",
   .closed "bldg:lod1ImplicitRepresentation",
   .closed "bldg:BuildingPart",
   .closed "bldg:Building"]

theorem readEvents_emptyRoom :
    ∃ kept pruned, readEvents { prune := false } emptyRoom = .ok kept ∧
      readEvents { prune := true } emptyRoom = .ok pruned ∧
      (Tree.forestLabels kept.model.objects).map (·.id) =
        ["B", "BuildingPart_1", "Room_2", "BuildingPart_3"] ∧
      (Tree.forestLabels pruned.model.objects).map (·.id) = ["B", "BuildingPart_3"] ∧
      pruned.model = { kept.model with objects := CityObject.pruned kept.model.objects } := by
  have hids : (readEvents { prune := false } emptyRoom).toOption.map
      (fun o => ((Tree.forestLabels o.model.objects).map (·.id),
        (Tree.forestLabels (CityObject.pruned o.model.objects)).map (·.id))) =
      some (["B", "BuildingPart_1", "Room_2", "BuildingPart_3"], ["B", "BuildingPart_3"]) := by
    decide +kernel
  obtain ⟨outcome, h⟩ := exists_readEvents_of_gridless {} (nestAll_eq_nil_iff.1 (by decide) :
    WellNested emptyRoom) (by decide)
  obtain ⟨kept, pruned, hkept, hpruned, hmodel, -⟩ := readEvents_pruned h
  rw [hkept] at hids
  obtain ⟨hall, hleft⟩ := Prod.mk.inj (Option.some.inj hids)
  exact ⟨kept, pruned, hkept, hpruned, hall, by rw [hmodel]; exact hleft, hmodel⟩

end CityScene.Document
