import CityScene.Proofs.Document.Frames

/-!
# Levels of detail

A level of detail is the one in the name of a property, or that of the relief around it, or that of
the implicit property around an implicit geometry.  Whichever it is, it has been checked against the
range of the configuration when the property was opened, so all geometry of a model is in the range
(`lods_readEvents`).

An implicit geometry that is in no implicit property has level zero, and this is checked nowhere.
It is the only way out of the range, and it is one (`lod_unplacedGeometry`).
-/

namespace CityScene.Document

/-- The innermost frame in which something is found is one of the stack. -/
theorem Stack.exists_of_nearest? {α : Type} {stop : Frame → Bool} {select : Frame → Option α}
    {s : Stack} {a : α} (h : s.nearest? stop select = some a) :
    ∃ e ∈ s, select e.frame = some a := by
  induction s with
  | nil => cases h
  | cons e outer ih =>
    rw [nearest?] at h
    split at h
    · next hselect => exact ⟨e, List.mem_cons_self, hselect.trans h⟩
    · split at h
      · cases h
      · obtain ⟨x, hx, hselect⟩ := ih h
        exact ⟨x, List.mem_cons_of_mem _ hx, hselect⟩

/-- An implicit geometry opens where no level of detail is given for it. -/
def OpensUnplaced (config : Config) (events : List Event) : Prop :=
  ∃ b name attributes, Meets config events b (.opened name attributes) ∧
    Element.ofTag (Markup.localName name) attributes = .implicitGeometry ∧
    b.stack.implicitLod? = none

/-- The level of detail is read under the configuration, or it is that of an implicit geometry
without one. -/
def LodFits (config : Config) (events : List Event) (lod : Nat) : Prop :=
  config.acceptsLod lod = true ∨ lod = 0 ∧ OpensUnplaced config events

/-- The level of detail of a frame fits.  That of a template does not count. -/
def LodFitsFrame (config : Config) (events : List Event) : Frame → Prop
  | .geometry g => g.isTemplate = false → config.acceptsLod g.lod = true
  | .implicitProperty lod => config.acceptsLod lod = true
  | .implicitGeometry i => LodFits config events i.lod
  | _ => True

variable {config : Config} {events : List Event}

/-- What stands around an implicit geometry gives it a level that fits. -/
theorem lodFits_implicitLod? {s : Stack} (hs : ∀ x ∈ s, LodFitsFrame config events x.frame)
    {lod : Nat} (h : s.implicitLod? = some lod) : LodFits config events lod := by
  obtain ⟨x, hx, hlod⟩ := Stack.exists_of_nearest? h
  have hfits := hs x hx
  cases hframe : x.frame with
  | implicitProperty n =>
    rw [hframe] at hlod hfits
    exact .inl (Option.some.inj hlod ▸ hfits)
  | implicitGeometry i =>
    rw [hframe] at hlod hfits
    exact Option.some.inj hlod ▸ hfits
  | _ => rw [hframe] at hlod; cases hlod

theorem lodFitsFrame_of_not_isSpatial {f : Frame} (hf : f.isSpatial = false) :
    LodFitsFrame config events f := by
  cases f with
  | geometry | implicitProperty | implicitGeometry => cases hf
  | _ => exact trivial

theorem lodFitsFrame_laws (config : Config) (events : List Event) :
    FrameLaws config events (LodFitsFrame config events) where
  other := lodFitsFrame_of_not_isSpatial
  begun {b name attributes srs element f} hmeets helement hstack hbegun := by
    cases hbegun with
    | geometryProperty lod hlod => exact fun _ => hlod
    | template => exact nofun
    | implicitProperty lod hlod => exact hlod
    | implicitGeometry =>
      show LodFits config events _
      cases hlod : b.stack.implicitLod? with
      | some lod => exact lodFits_implicitLod? hstack hlod
      | none => exact .inr ⟨rfl, b, name, attributes, hmeets, helement, hlod⟩
    | other _ hf => exact lodFitsFrame_of_not_isSpatial hf
    | _ => exact trivial
  noted hnoted h := by
    cases hnoted with
    | nothing | template => exact h
    | geometry g kind id srs =>
      rw [LodFitsFrame, GeometryParts.lod_note, GeometryParts.isTemplate_note]
      exact h
    | other _ hf' => exact lodFitsFrame_of_not_isSpatial hf'
    | _ => exact trivial
  handed _ _ _ hf _ h := by
    cases hf with
    | nothing | template | polygon => exact h
    | placed _ hlod _ =>
      rw [LodFitsFrame, hlod]
      exact h
    | other _ _ hf' => exact lodFitsFrame_of_not_isSpatial hf'
    | _ => exact trivial

/-- **Geometry is in the range of levels of detail**, and so are implicit geometries, but for those
of level zero in a document with one that no level of detail is given for. -/
theorem lods_readEvents {outcome : Outcome} (h : readEvents config events = .ok outcome)
    {f : Feature} (hf : f ∈ Tree.forestLabels outcome.model.objects) :
    (∀ g ∈ f.geometries, config.lods.least ≤ g.lod ∧ g.lod ≤ config.lods.greatest) ∧
      ∀ i ∈ f.implicits, (config.lods.least ≤ i.lod ∧ i.lod ≤ config.lods.greatest) ∨
        i.lod = 0 ∧ OpensUnplaced config events := by
  have hrange {lod : Nat} : config.acceptsLod lod = true ↔
      config.lods.least ≤ lod ∧ lod ≤ config.lods.greatest := by
    simp [Config.acceptsLod, LodRange.contains]
  have hlaws := lodFitsFrame_laws config events
  obtain ⟨given, change, hgiven, -, rfl⟩ := stocked_of_readEvents h hf
  refine ⟨fun g hg => ?_, fun i hi => ?_⟩
  · obtain ⟨before, hbefore, rfl⟩ := List.mem_map.1 hg
    obtain ⟨parts, hends, htemplate, rfl⟩ := hgiven.geometries before hbefore
    exact hrange.1 (hlaws.of_completes hends htemplate)
  · have hfits : LodFits config events i.lod := hlaws.of_completes (hgiven.implicits i hi)
    exact hfits.imp_left hrange.1

/-- A building with an implicit geometry that is in no implicit property. -/
def unplacedGeometry : List Event :=
  [.opened "bldg:Building" [("gml:id", "B")], .opened "core:ImplicitGeometry" [],
   .closed "core:ImplicitGeometry", .closed "bldg:Building"]

theorem exists_unplacedGeometry (config : Config) :
    ∃ outcome, readEvents config unplacedGeometry = .ok outcome :=
  exists_readEvents_of_gridless config
    (nestAll_eq_nil_iff.1 (by decide) : WellNested unplacedGeometry) (by decide)

theorem lods_unplacedGeometry :
    ∃ outcome, readEvents { lods := .between 1 2 } unplacedGeometry = .ok outcome ∧
      ∀ f ∈ Tree.forestLabels outcome.model.objects,
        (∀ g ∈ f.geometries, 1 ≤ g.lod ∧ g.lod ≤ 2) ∧
          ∀ i ∈ f.implicits, (1 ≤ i.lod ∧ i.lod ≤ 2) ∨
            i.lod = 0 ∧ OpensUnplaced { lods := .between 1 2 } unplacedGeometry := by
  obtain ⟨outcome, h⟩ := exists_unplacedGeometry { lods := .between 1 2 }
  exact ⟨outcome, h, fun f hf => lods_readEvents h hf⟩

/-- Without an implicit property the range does not count. -/
theorem lod_unplacedGeometry :
    ∃ outcome, readEvents { lods := .between 1 2 } unplacedGeometry = .ok outcome ∧
      ∃ f ∈ Tree.forestLabels outcome.model.objects, ∃ i ∈ f.implicits,
        ¬ (1 ≤ i.lod ∧ i.lod ≤ 2) := by
  obtain ⟨outcome, h, hlods⟩ : ∃ outcome,
      readEvents { lods := .between 1 2 } unplacedGeometry = .ok outcome ∧
        (Tree.forestLabels outcome.model.objects).flatMap (fun f => f.implicits.map (·.lod)) =
          [0] :=
    exists_of_toOption_map (by decide +kernel)
  obtain ⟨f, hf, hlod⟩ := List.mem_flatMap.1 (hlods ▸ List.mem_singleton_self 0)
  obtain ⟨i, hi, hi'⟩ := List.mem_map.1 hlod
  exact ⟨outcome, h, f, hf, i, hi, by omega⟩

end CityScene.Document
