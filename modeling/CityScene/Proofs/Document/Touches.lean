import CityScene.Proofs.Document.Scaffold

/-!
# Tags and texts as touches

Whatever a tag or a text does to content is some touches in a row.  That is so for text
(`addText_touches`), for all that an opening tag does before its element is pushed
(`openFrame_touches`), and for closing any element but a city object once it is popped
(`closeFrame_touches`); there is one lemma for each kind of frame.

Frames that take in values are the delicate case: a frame may be that of an object, and then its
identity, its envelope and its children must stay.  The lemmas on `core?` and `levels` say that they
do.
-/

namespace CityScene.Document.Builder

/-! ### Opening and text -/

theorem touches_filled {b : Builder} {s : Stack} (h : s.levels = b.stack.levels) :
    Touches b { b with stack := s } :=
  (Touch.filled b s h).touches

theorem addText_touches (b : Builder) (content : String) : Touches b (b.addText content) := by
  rw [addText]
  split
  · exact .refl
  · next e outer he =>
    refine touches_filled ?_
    rw [he, Stack.levels_cons, Stack.levels_cons, OpenElement.level, Frame.core?_takeText]
    rfl

theorem identify_touches (b : Builder) (id : Option String) (stem : String) :
    Touches b (b.identify id stem).1 := by
  cases id with
  | some id => exact .refl
  | none => exact (Touch.numbered b).touches

theorem mentionSystem_touches (b : Builder) (name : String) (attributes : Markup.Attributes) :
    Touches b (b.mentionSystem name attributes) := by
  rw [mentionSystem]
  split
  · exact (Touch.mentioned _ _).touches
  · exact (Touch.defined b _ _).touches.tail (.mentioned _ _)

theorem noteGeometry_touches (b : Builder) (kind : GeometryKind) (id srs : Option String) :
    Touches b (b.noteGeometry kind id srs) :=
  touches_filled (Stack.levels_updateGeometry _ _)

theorem core_addAppearance (o : ObjectParts) (id : String) :
    ({ o with feature := o.feature.addAppearance id } : ObjectParts).core = o.core := by
  simp only [Feature.addAppearance]
  split <;> rfl

theorem referToAppearance_touches (b : Builder) (link : String) :
    Touches b (b.referToAppearance link) :=
  (touches_filled (Stack.levels_updateObject (fun o => core_addAppearance o _) _)).tail
    (.mentioned _ _)

theorem referToSurfaceData_touches (b : Builder) (link : String) :
    Touches b (b.referToSurfaceData link) :=
  (touches_filled (Stack.levels_updateAppearance _ _)).tail (.mentioned _ _)

theorem referToTemplate_touches (b : Builder) (link : String) :
    Touches b (b.referToTemplate link) :=
  (touches_filled (Stack.levels_updateImplicit _ _)).tail (.mentioned _ _)

theorem onLink_touches (b : Builder) (attributes : Markup.Attributes)
    {action : Builder → String → Builder} (h : ∀ b link, Touches b (action b link)) :
    Touches b (b.onLink attributes action) := by
  rw [onLink]
  split
  · exact h b _
  · exact .refl

theorem openFrame_touches (config : Config) (b : Builder) (name : String)
    (attributes : Markup.Attributes) (srs : Option String) :
    Touches b (b.openFrame config name attributes srs).1 := by
  unfold openFrame
  cases Element.ofTag name attributes with
  | object kind => dsimp only; split; exacts [identify_touches _ _ _, .refl]
  | geometryProperty lod => dsimp only; split <;> exact .refl
  | geometry kind => exact noteGeometry_touches _ _ _ _
  | polygon => exact noteGeometry_touches _ _ _ _
  | boundary role => dsimp only; split <;> exact .refl
  | appearance => exact identify_touches _ _ _
  | appearanceProperty => exact onLink_touches _ _ referToAppearance_touches
  | material => exact identify_touches _ _ _
  | texture kind => exact identify_touches _ _ _
  | surfaceDataProperty => exact onLink_touches _ _ referToSurfaceData_touches
  | relativeGeometry => dsimp only; split; exacts [referToTemplate_touches _ _, .refl]
  | _ => exact .refl

/-! ### Closing -/

theorem report_touches (b : Builder) {problem : Problem} (h : problem.kind ≠ .danglingReference)
    (element : Option String) : Touches b (b.report problem element) :=
  (Touch.reported b problem element h).touches

theorem updateFeature_touches (b : Builder) {change : Feature → Feature}
    (h : ∀ o : ObjectParts, ({ o with feature := change o.feature } : ObjectParts).core = o.core) :
    Touches b (b.updateFeature change) :=
  touches_filled (Stack.levels_updateObject h _)

theorem closeGeometry_touches (config : Config) (b : Builder) (g : GeometryParts) :
    Touches b (b.closeGeometry config g) := by
  rw [closeGeometry]
  split
  · exact .refl
  · dsimp only
    split
    · have hreg : Touches b (b.registerTemplate (geometryOf config g)) := by
        rw [registerTemplate]
        split
        · exact (Touch.defined _ _ _).touches
        · exact .refl
      exact hreg.trans (touches_filled (Stack.levels_updateImplicit _ _))
    · exact updateFeature_touches _ fun _ => rfl

theorem closePolygon_touches (config : Config) (b : Builder) (p : PolygonParts) :
    Touches b (b.closePolygon config p) := by
  rw [closePolygon]
  split
  · exact .refl
  · split
    · exact report_touches _ (by nofun) _
    · dsimp only
      refine Relation.ReflTransGen.trans ?_ (touches_filled (Stack.levels_updateGeometry _ _))
      rw [reportMesh]
      split
      · exact report_touches _ (by nofun) _
      · exact .refl

theorem closeBoundary_touches (b : Builder) (role : RingRole) (ring : Option LinearRing) :
    Touches b (b.closeBoundary role ring) := by
  cases ring with
  | none => exact .refl
  | some ring => exact touches_filled (Stack.levels_updateOwner _ fun f _ => by cases f <;> rfl)

theorem closeRing_touches (config : Config) (b : Builder) (r : RingParts) :
    Touches b (b.closeRing config r) := by
  rw [closeRing]
  dsimp only
  split
  · exact touches_filled (Stack.levels_updateOwner _ fun f _ => by cases f <;> rfl)
  · exact (touches_filled (Stack.levels_updatePolygon _ _)).trans
      (report_touches _ (by nofun) _)

theorem closePositions_touches (config : Config) (b : Builder) (srs : Option String)
    (kind : PositionText) (attributes : Markup.Attributes) (text : String) :
    Touches b (b.closePositions config srs kind attributes text) := by
  rw [closePositions]
  split
  · exact touches_filled (Stack.levels_updateOwner _ fun f _ => f.core?_takePoints _ _)
  · exact (touches_filled (Stack.levels_updateOwner _ fun f _ => f.core?_missPoints)).trans
      (report_touches _ (by nofun) _)

theorem closeProperty_touches (b : Builder) (property : Property) (attributes : Markup.Attributes)
    (text : String) : Touches b (b.closeProperty property attributes text) := by
  rw [closeProperty]
  split
  · exact .refl
  · next owner howner =>
    split
    · next g hg =>
      refine touches_filled (Stack.levels_updateOwner _ fun f hf => ?_)
      obtain rfl := Option.some.inj (howner.symm.trans hf)
      exact Frame.core?_takeProperty hg
    · exact report_touches _ (by nofun) _

theorem setAttribute_touches (b : Builder) (name text : String) (type : ValueType)
    (unit : Option String) {problem : Problem} (h : problem.kind ≠ .danglingReference) :
    Touches b (b.setAttribute name text type unit problem) := by
  rw [setAttribute]
  split
  · exact updateFeature_touches _ fun _ => rfl
  · exact (updateFeature_touches _ fun _ => rfl).trans (report_touches _ h _)

theorem closeThematic_touches (b : Builder) (name : String) (attributes : Markup.Attributes)
    (text : String) : Touches b (b.closeThematic name attributes text) := by
  have hmodel : Touches b (b.setModelText name text) := by
    unfold setModelText
    split
    · exact (Touch.labelled b _ _ _ _).touches
    · exact (Touch.labelled b _ _ _ _).touches
    · exact .refl
  rw [closeThematic]
  split
  · exact setAttribute_touches _ _ _ _ _ (by nofun)
  · exact hmodel
  · exact hmodel
  · exact .refl

theorem closeText_touches (config : Config) (b : Builder) (srs : Option String) (t : TextParts) :
    Touches b (b.closeText config srs t) := by
  rw [closeText]
  cases t.element with
  | positions kind => exact closePositions_touches _ _ _ _ _ _
  | property property => exact closeProperty_touches _ _ _ _
  | thematic name => exact closeThematic_touches _ _ _ _

theorem closeGeneric_touches (b : Builder) (g : GenericParts) : Touches b (b.closeGeneric g) := by
  rw [closeGeneric]
  split
  · exact report_touches _ (by nofun) _
  · split
    · exact .refl
    · exact setAttribute_touches _ _ _ _ _ (by nofun)

theorem closeAppearance_touches (b : Builder) (a : Appearance) : Touches b (b.closeAppearance a) :=
  (Touch.defined b _ _).touches.trans (updateFeature_touches _ fun o => core_addAppearance o _)

theorem closeSurfaceData_touches (b : Builder) (d : SurfaceData) :
    Touches b (b.closeSurfaceData d) :=
  (Touch.defined b _ _).touches.trans (touches_filled (Stack.levels_updateAppearance _ _))

theorem closeTarget_touches (b : Builder) (target : SurfaceTarget) :
    Touches b (b.closeTarget target) :=
  touches_filled (Stack.levels_updateOwner _ fun f _ => by cases f <;> rfl)

theorem closeAddress_touches (b : Builder) (a : Address) : Touches b (b.closeAddress a) := by
  rw [closeAddress]
  split
  · exact .refl
  · exact updateFeature_touches _ fun _ => rfl

theorem closeEnvelope_touches (b : Builder) (e : EnvelopeParts) :
    Touches b (b.closeEnvelope e) := by
  rw [closeEnvelope]
  dsimp only
  split
  · exact .refl
  · split
    · exact updateFeature_touches _ fun _ => rfl
    · exact (Touch.labelled b _ _ _ _).touches
    · exact (Touch.labelled b _ _ _ _).touches
    · exact .refl

theorem closePoint_touches (b : Builder) (property : PointProperty)
    (value : Option (Vec3 Float)) : Touches b (b.closePoint property value) := by
  cases value with
  | none => exact .refl
  | some p =>
    refine touches_filled (Stack.levels_updateOwner _ fun f _ => ?_)
    cases f with
    | object o =>
      dsimp only
      split
      · simp only [Frame.core?, Frame.object?, Option.map_some, ObjectParts.core,
          Option.isSome_map]
      · rfl
    | implicitGeometry g => dsimp only; split <;> rfl
    | _ => rfl

/-- **Closing anything but a city object only touches what is around it**, and never overflows. -/
theorem closeFrame_touches (config : Config) (b : Builder) (srs : Option String) {f : Frame}
    (h : f.isObject = false) : ∃ b', b.closeFrame config srs f = .ok b' ∧ Touches b b' := by
  cases f with
  | object o => cases h
  | geometry g => exact ⟨_, rfl, closeGeometry_touches _ _ _⟩
  | polygon p => exact ⟨_, rfl, closePolygon_touches _ _ _⟩
  | boundary role ring => exact ⟨_, rfl, closeBoundary_touches _ _ _⟩
  | ring r => exact ⟨_, rfl, closeRing_touches _ _ _⟩
  | text t => exact ⟨_, rfl, closeText_touches _ _ _ _⟩
  | generic g => exact ⟨_, rfl, closeGeneric_touches _ _⟩
  | appearance a => exact ⟨_, rfl, closeAppearance_touches _ _⟩
  | surfaceData d => exact ⟨_, rfl, closeSurfaceData_touches _ _⟩
  | textureTarget t => exact ⟨_, rfl, closeTarget_touches _ _⟩
  | envelope e => exact ⟨_, rfl, closeEnvelope_touches _ _⟩
  | address a => exact ⟨_, rfl, closeAddress_touches _ _⟩
  | implicitGeometry g => exact ⟨_, rfl, updateFeature_touches _ fun _ => rfl⟩
  | point property value => exact ⟨_, rfl, closePoint_touches _ _ _⟩
  | model | transparent | skipped | implicitProperty => exact ⟨b, rfl, .refl⟩

end CityScene.Document.Builder
