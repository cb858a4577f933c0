import CityScene.Proofs.Attribute.Settings
import CityScene.Proofs.Document.Dimensions

/-!
# The attributes of the objects of a state

The roster of a state lists its objects, the finished ones and the open ones, with their attributes,
in pre-order.  An open object is told by its height, the number of elements from it outwards.

Elements are opened and closed inside an object without a trace on its attributes, but for two: a
thematic element that ends right inside an object, and a generic attribute that ends anywhere in
it.  Each gives the innermost object a setting (`Frame.setting?`).  An event makes of the roster
what its setting, if it has one, and the opening of an object make of it (`roster_apply`).
-/

namespace CityScene.Document

/-- An object of a state: its height, which is zero once it is finished, and its sheet. -/
abbrev Member := Nat × Sheet

/-- The sheets of the objects of a forest, in pre-order. -/
def sheets (forest : List CityObject) : List Sheet :=
  (Tree.forestLabels forest).map Feature.sheet

theorem sheets_append (s t : List CityObject) : sheets (s ++ t) = sheets s ++ sheets t := by
  rw [sheets, Tree.forestLabels_append, List.map_append, sheets, sheets]

/-- An object that is finished has the sheet of its parts. -/
theorem sheets_finish {o : ObjectParts} {coverage : Option GridCoverage} {object : CityObject}
    (h : o.finish coverage = .ok object) :
    sheets [object] = o.feature.sheet :: sheets o.children := by
  obtain ⟨envelope, -, rfl⟩ := exists_of_map_eq_ok h
  rw [sheets, Tree.forestLabels, Tree.forestLabels, List.append_nil]
  rfl

/-! ### Settings of elements -/

/-- The height of the innermost object. -/
def Stack.objectHeight? : Stack → Option Nat
  | [] => none
  | e :: outer => if e.frame.isObject then some (outer.length + 1) else objectHeight? outer

/-- The setting that a thematic element gives, where it ends right in an object. -/
def TextParts.setting? (t : TextParts) (s : Stack) : Option Setting :=
  match t.element with
  | .thematic name =>
    if s.owner?.any (·.isObject) then
      some ⟨name, Text.trimmed t.content, t.attributes.value? "uom", none⟩
    else none
  | _ => none

/-- The setting that a generic attribute gives, if it has a name. -/
def GenericParts.setting? (g : GenericParts) : Option Setting :=
  if (g.name.getD "").isEmpty then none
  else some ⟨g.name.getD "", g.value.getD "", g.unit, some g.type⟩

/-! ### Frames -/

namespace Frame

/-- The members of the frame at a height: its object, and those finished below it. -/
def members (height : Nat) : Frame → List Member
  | object o => (height, o.feature.sheet) :: (sheets o.children).map (0, ·)
  | _ => []

/-- The objects in the frame have the same attributes, and the text collected in it is the same. -/
structure Undisturbed (f f' : Frame) : Prop where
  members : ∀ height, f'.members height = f.members height
  text : f'.text? = f.text?
  skipped : f'.isSkipped = f.isSkipped

theorem Undisturbed.refl (f : Frame) : Undisturbed f f := ⟨fun _ => rfl, rfl, rfl⟩

theorem members_of_not_isObject {f : Frame} (h : f.isObject = false) (height : Nat) :
    f.members height = [] := by
  cases f <;> first | rfl | cases h

theorem undisturbed_feature (o : ObjectParts) {f : Feature} (h : f.sheet = o.feature.sheet) :
    Undisturbed (.object o) (.object { o with feature := f }) :=
  ⟨fun height => by rw [members, members, h], rfl, rfl⟩

theorem sheet_addAppearance (f : Feature) (id : String) :
    (f.addAppearance id).sheet = f.sheet := by
  rw [Feature.addAppearance]
  split <;> rfl

theorem members_takeText (content : String) (f : Frame) (height : Nat) :
    (f.takeText content).members height = f.members height := by
  cases f <;> rfl

theorem undisturbed_takePoints (kind : PositionText) (points : List (Vec3 Float)) (f : Frame) :
    Undisturbed f (f.takePoints kind points) := by
  cases f with
  | envelope e => cases kind <;> exact ⟨fun _ => rfl, rfl, rfl⟩
  | _ => exact ⟨fun _ => rfl, rfl, rfl⟩

theorem undisturbed_missPoints (f : Frame) : Undisturbed f f.missPoints := by
  cases f <;> exact ⟨fun _ => rfl, rfl, rfl⟩

theorem undisturbed_takeProperty {f g : Frame} {property : Property}
    {attributes : Markup.Attributes} {text : String}
    (h : f.takeProperty property attributes text = .ok g) : Undisturbed f g := by
  cases f with
  | surfaceData d =>
    obtain ⟨_, -, h⟩ := exists_of_bind_eq_ok h
    cases h
    exact ⟨fun _ => rfl, rfl, rfl⟩
  | textureTarget t =>
    obtain ⟨_, -, h⟩ := exists_of_bind_eq_ok h
    cases h
    exact ⟨fun _ => rfl, rfl, rfl⟩
  | implicitGeometry i =>
    obtain ⟨_, -, h⟩ := exists_of_bind_eq_ok h
    cases h
    exact ⟨fun _ => rfl, rfl, rfl⟩
  | object o =>
    rw [takeProperty] at h
    split at h
    · obtain ⟨_, -, h⟩ := exists_of_bind_eq_ok h
      cases h
      exact ⟨fun _ => rfl, rfl, rfl⟩
    · cases h
      exact .refl _
  | _ => cases h; exact ⟨fun _ => rfl, rfl, rfl⟩

/-- The setting that the end of the element gives the innermost object, where `s` is open around
it. -/
def setting? (s : Stack) : Frame → Option Setting
  | text t => t.setting? s
  | generic g => g.setting?
  | _ => none

/-- The setting that the end of the element gives the object at a height. -/
def given? (s : Stack) (height : Nat) (f : Frame) : Option Setting :=
  if s.objectHeight? = some height then f.setting? s else none

end Frame

/-- A new object has no attributes yet. -/
theorem Begun.members_eq {config : Config} {s : Stack} {srs : Option String} {element : Element}
    {f : Frame} (h : Begun config s srs element f) (height : Nat) :
    f.members height = (f.core?.map fun core => (height, ⟨core.id, core.kind, ∅⟩)).toList := by
  cases h with
  | other element hf => cases f <;> first | rfl | cases hf
  | _ => rfl

/-! ### Open elements -/

namespace Stack

/-- The members of the open objects, the outermost first, and of those finished below them. -/
def roster : Stack → List Member
  | [] => []
  | e :: outer => roster outer ++ e.frame.members (outer.length + 1)

variable {s : Stack}

theorem roster_cons_of_not_isObject {e : OpenElement} (h : e.frame.isObject = false)
    (outer : Stack) : roster (e :: outer) = outer.roster := by
  rw [roster, Frame.members_of_not_isObject h, List.append_nil]

theorem le_length_of_mem_roster {p : Member} (h : p ∈ s.roster) : p.1 ≤ s.length := by
  induction s with
  | nil => cases h
  | cons e outer ih =>
    rw [List.length_cons]
    rcases List.mem_append.1 h with h | h
    · exact Nat.le_succ_of_le (ih h)
    · cases hf : e.frame with
      | object o =>
        rw [hf, Frame.members] at h
        rcases List.mem_cons.1 h with rfl | h
        · exact Nat.le_refl _
        · obtain ⟨_, -, rfl⟩ := List.mem_map.1 h
          exact Nat.zero_le _
      | _ => rw [hf] at h; cases h

theorem objectHeight?_le_length {height : Nat} (h : s.objectHeight? = some height) :
    0 < height ∧ height ≤ s.length := by
  induction s with
  | nil => cases h
  | cons e outer ih =>
    rw [objectHeight?] at h
    rw [List.length_cons]
    split at h
    · obtain rfl := Option.some.inj h
      exact ⟨Nat.succ_pos _, Nat.le_refl _⟩
    · obtain ⟨hpos, hle⟩ := ih h
      exact ⟨hpos, Nat.le_succ_of_le hle⟩

theorem Changed.length_eq {R : Frame → Frame → Prop} {s' : Stack} (h : s.Changed R s') :
    s'.length = s.length :=
  (List.Forall₂.length_eq h).symm

theorem Changed.roster_eq {s' : Stack} (h : s.Changed Frame.Undisturbed s') :
    s'.roster = s.roster := by
  induction h with
  | nil => rfl
  | @cons e e' outer outer' he houter ih =>
    have hlength : outer'.length = outer.length := Changed.length_eq houter
    rw [roster, roster, ih, hlength, he.2.2.members]

/-! Objects among the open elements. -/

theorem object?_cons_of_not_isObject {e : OpenElement} (h : e.frame.isObject = false)
    (outer : Stack) : object? (e :: outer) = outer.object? := by
  rw [object?, nearest?]
  cases hf : e.frame <;> first | rfl | (rw [hf] at h; cases h)

theorem updateObject_cons_of_not_isObject {e : OpenElement} (h : e.frame.isObject = false)
    (change : ObjectParts → ObjectParts) (outer : Stack) :
    updateObject change (e :: outer) = e :: outer.updateObject change := by
  rw [updateObject, updateNearest]
  cases hf : e.frame <;> first | rfl | (rw [hf] at h; cases h)

theorem objectHeight?_cons_of_not_isObject {e : OpenElement} (h : e.frame.isObject = false)
    (outer : Stack) : objectHeight? (e :: outer) = outer.objectHeight? := by
  rw [objectHeight?, h, if_neg Bool.false_ne_true]

theorem objectHeight?_cons_object (name : String) (srs : Option String) (o : ObjectParts)
    (outer : Stack) :
    objectHeight? (⟨name, srs, .object o⟩ :: outer) = some (outer.length + 1) := rfl

theorem object_cases (e : OpenElement) :
    (∃ name srs o, e = ⟨name, srs, .object o⟩) ∨ e.frame.isObject = false := by
  obtain ⟨name, srs, f⟩ := e
  cases f with
  | object o => exact .inl ⟨name, srs, o, rfl⟩
  | _ => exact .inr rfl

/-- The object that an element stands right in is the innermost one. -/
theorem object?_of_owner? {o : ObjectParts} (h : s.owner? = some (.object o)) :
    s.object? = some o := by
  induction s with
  | nil => cases h
  | cons e outer ih =>
    by_cases ht : e.frame.isTransparent = true
    · have hobject : e.frame.isObject = false := by
        cases hf : e.frame <;> first | rfl | (rw [hf] at ht; cases ht)
      rw [owner?_of_isTransparent outer ht] at h
      rw [object?_cons_of_not_isObject hobject]
      exact ih h
    · rw [owner?_of_not_isTransparent outer (by simpa using ht)] at h
      rw [object?, nearest?, Option.some.inj h]
      rfl

theorem objectHeight?_eq_none_iff : s.objectHeight? = none ↔ s.object? = none := by
  induction s with
  | nil => exact iff_of_true rfl rfl
  | cons e outer ih =>
    rcases object_cases e with ⟨name, srs, o, rfl⟩ | hobject
    · exact iff_of_false (Option.some_ne_none _) (Option.some_ne_none _)
    · rw [objectHeight?_cons_of_not_isObject hobject, object?_cons_of_not_isObject hobject]
      exact ih

theorem roster_of_object? (h : s.object? = none) : s.roster = [] := by
  induction s with
  | nil => rfl
  | cons e outer ih =>
    rcases object_cases e with ⟨name, srs, o, rfl⟩ | hobject
    · cases h
    · rw [object?_cons_of_not_isObject hobject] at h
      rw [roster_cons_of_not_isObject hobject, ih h]

/-- An object that is attached comes last, with those below it. -/
theorem roster_addChild (child : CityObject) (h : s.object? ≠ none) :
    (s.updateObject (·.addChild child)).roster = s.roster ++ (sheets [child]).map (0, ·) := by
  induction s with
  | nil => exact absurd rfl h
  | cons e outer ih =>
    rcases object_cases e with ⟨name, srs, o, rfl⟩ | hobject
    · show Stack.roster outer ++ Frame.members (outer.length + 1) (.object (o.addChild child)) = _
      rw [Frame.members, ObjectParts.addChild, sheets_append, List.map_append, roster,
        Frame.members, List.append_assoc]
      rfl
    · rw [object?_cons_of_not_isObject hobject] at h
      rw [updateObject_cons_of_not_isObject hobject, roster_cons_of_not_isObject hobject,
        roster_cons_of_not_isObject hobject, ih h]

end Stack

/-- The member with a setting, where that is given to the object at its height. -/
def assign (setting? : Nat → Option Setting) (p : Member) : Member :=
  (p.1, p.2.takeAll (setting? p.1).toList)

theorem map_assign_of_none {setting? : Nat → Option Setting} {l : List Member}
    (h : ∀ p ∈ l, setting? p.1 = none) : l.map (assign setting?) = l := by
  refine (List.map_congr_left fun p hp => ?_).trans (List.map_id l)
  rw [assign, h p hp]
  rfl

/-- The members of finished objects stay as they are. -/
theorem map_assign_finished {setting? : Nat → Option Setting} (h : setting? 0 = none)
    (l : List Sheet) : (l.map ((0 : Nat), ·)).map (assign setting?) = l.map (0, ·) :=
  map_assign_of_none fun p hp => by
    obtain ⟨_, -, rfl⟩ := List.mem_map.1 hp
    exact h

/-- The innermost object takes in a setting. -/
theorem Stack.roster_setAttribute {s : Stack} {o : ObjectParts} (h : s.object? = some o)
    (setting : Setting) :
    (s.updateObject fun parts => { parts with
      feature := parts.feature.setAttribute setting.name (setting.kept o.feature.kind) }).roster =
      s.roster.map (assign fun height =>
        if s.objectHeight? = some height then some setting else none) := by
  induction s with
  | nil => cases h
  | cons e outer ih =>
    rcases object_cases e with ⟨name, srs, o', rfl⟩ | hobject
    · obtain rfl : o' = o := Option.some.inj h
      rw [objectHeight?_cons_object, roster, List.map_append, map_assign_of_none, Frame.members,
        List.map_cons, map_assign_finished (if_neg (by simp)), assign, if_pos rfl]
      · rfl
      · intro p hp
        have := le_length_of_mem_roster hp
        rw [if_neg]
        intro heq
        have := Option.some.inj heq
        omega
    · rw [object?_cons_of_not_isObject hobject] at h
      rw [updateObject_cons_of_not_isObject hobject, roster_cons_of_not_isObject hobject,
        roster_cons_of_not_isObject hobject, objectHeight?_cons_of_not_isObject hobject, ih h]

/-- The innermost object has the member at its height. -/
theorem Stack.exists_of_mem_roster {s : Stack} {p : Member} (hp : p ∈ s.roster)
    (hheight : s.objectHeight? = some p.1) : ∃ o, s.object? = some o ∧ p.2 = o.feature.sheet := by
  induction s with
  | nil => cases hp
  | cons e outer ih =>
    rcases object_cases e with ⟨name, srs, o, rfl⟩ | hobject
    · refine ⟨o, rfl, ?_⟩
      rw [objectHeight?_cons_object, Option.some.injEq] at hheight
      rcases List.mem_append.1 hp with hp | hp
      · have := le_length_of_mem_roster hp
        omega
      · rcases List.mem_cons.1 hp with rfl | hp
        · rfl
        · obtain ⟨_, -, rfl⟩ := List.mem_map.1 hp
          cases hheight
    · rw [objectHeight?_cons_of_not_isObject hobject] at hheight
      rw [roster_cons_of_not_isObject hobject] at hp
      rw [object?_cons_of_not_isObject hobject]
      exact ih hp hheight

namespace Builder

variable {config : Config} {b b' : Builder}

/-! ### Opening tags -/

theorem undisturbed_updateFeature (b : Builder) {change : Feature → Feature}
    (h : ∀ f, (change f).sheet = f.sheet) :
    b.stack.Changed Frame.Undisturbed (b.updateFeature change).stack :=
  .updateObject .refl (fun o => Frame.undisturbed_feature o (h o.feature)) b.stack

theorem onLink_undisturbed (b : Builder) (attributes : Markup.Attributes)
    {action : Builder → String → Builder}
    (h : ∀ link, b.stack.Changed Frame.Undisturbed (action b link).stack) :
    b.stack.Changed Frame.Undisturbed (b.onLink attributes action).stack := by
  rw [onLink]
  split
  · exact h _
  · exact .refl .refl _

theorem openFrame_undisturbed (config : Config) (b : Builder) (name : String)
    (attributes : Markup.Attributes) (srs : Option String) :
    b.stack.Changed Frame.Undisturbed (b.openFrame config name attributes srs).1.stack := by
  have hidentify (id : Option String) (stem : String) :
      b.stack.Changed Frame.Undisturbed (b.identify id stem).1.stack := by
    cases id <;> exact .refl .refl _
  have hnote (kind : GeometryKind) (id : Option String) :
      b.stack.Changed Frame.Undisturbed (b.noteGeometry kind id srs).stack :=
    .updateGeometry .refl (fun _ => ⟨fun _ => rfl, rfl, rfl⟩) _
  unfold openFrame
  cases Element.ofTag name attributes with
  | object kind => dsimp only; split; exacts [hidentify _ _, .refl .refl _]
  | geometryProperty lod => dsimp only; split <;> exact .refl .refl _
  | geometry kind => exact hnote _ _
  | polygon => exact hnote _ _
  | boundary role => dsimp only; split <;> exact .refl .refl _
  | appearance => exact hidentify _ _
  | appearanceProperty =>
    exact b.onLink_undisturbed _ fun link => .updateObject .refl
      (fun o => Frame.undisturbed_feature o (Frame.sheet_addAppearance _ _)) _
  | material => exact hidentify _ _
  | texture kind => exact hidentify _ _
  | surfaceDataProperty =>
    exact b.onLink_undisturbed _ fun link =>
      .updateAppearance .refl (fun _ => ⟨fun _ => rfl, rfl, rfl⟩) _
  | relativeGeometry =>
    dsimp only
    split
    · exact .updateImplicit .refl (fun _ => ⟨fun _ => rfl, rfl, rfl⟩) _
    · exact .refl .refl _
  | _ => exact .refl .refl _

theorem openElement_undisturbed (config : Config) (b : Builder) (name : String)
    (attributes : Markup.Attributes) :
    ∃ e outer, (b.openElement config name attributes).stack = e :: outer ∧
      b.stack.Changed Frame.Undisturbed outer := by
  rw [openElement_eq]
  split
  · exact ⟨_, _, rfl, .refl .refl _⟩
  · split
    · next system _ =>
      exact ⟨_, _, rfl, openFrame_undisturbed config (b.mentionSystem system attributes) _ _ _⟩
    · exact ⟨_, _, rfl, openFrame_undisturbed config b _ _ _⟩

/-! ### Closing tags that give no setting -/

section Closing

theorem closeGeometry_undisturbed (config : Config) (b : Builder) (g : GeometryParts) :
    b.stack.Changed Frame.Undisturbed (b.closeGeometry config g).stack := by
  rw [closeGeometry]
  split
  · exact .refl .refl _
  · dsimp only
    split
    · have hstack : (b.registerTemplate (geometryOf config g)).stack = b.stack := by
        rw [registerTemplate]
        split <;> rfl
      rw [hstack]
      exact .updateImplicit .refl (fun _ => ⟨fun _ => rfl, rfl, rfl⟩) _
    · exact b.undisturbed_updateFeature fun _ => by rfl

theorem closePolygon_undisturbed (config : Config) (b : Builder) (p : PolygonParts) :
    b.stack.Changed Frame.Undisturbed (b.closePolygon config p).stack := by
  rw [closePolygon]
  split
  · exact .refl .refl _
  · split
    · exact .refl .refl _
    · have hstack (polygon : Polygon) : (b.reportMesh polygon).stack = b.stack := by
        rw [reportMesh]
        split <;> rfl
      dsimp only
      rw [hstack]
      exact .updateGeometry .refl (fun _ => ⟨fun _ => rfl, rfl, rfl⟩) b.stack

theorem closeRing_undisturbed (config : Config) (b : Builder) (r : RingParts) :
    b.stack.Changed Frame.Undisturbed (b.closeRing config r).stack := by
  rw [closeRing]
  dsimp only
  split
  · exact .updateOwner .refl fun f _ => by cases f <;> exact ⟨fun _ => rfl, rfl, rfl⟩
  · exact .updatePolygon .refl (fun _ => ⟨fun _ => rfl, rfl, rfl⟩) _

theorem closeProperty_undisturbed (b : Builder) (property : Property)
    (attributes : Markup.Attributes) (text : String) :
    b.stack.Changed Frame.Undisturbed (b.closeProperty property attributes text).stack := by
  rw [closeProperty]
  split
  · exact .refl .refl _
  · next owner howner =>
    split
    · next g hg =>
      refine .updateOwner .refl fun f hf => ?_
      obtain rfl := Option.some.inj (howner.symm.trans hf)
      exact Frame.undisturbed_takeProperty hg
    · exact .refl .refl _

theorem closePositions_undisturbed (config : Config) (b : Builder) (srs : Option String)
    (kind : PositionText) (attributes : Markup.Attributes) (text : String) :
    b.stack.Changed Frame.Undisturbed
      (b.closePositions config srs kind attributes text).stack := by
  rw [closePositions]
  split
  · exact .updateOwner .refl fun f _ => f.undisturbed_takePoints _ _
  · exact .updateOwner .refl fun f _ => f.undisturbed_missPoints

/-- A thematic text that does not stand right in an object is one of the model, if anything. -/
theorem closeThematic_undisturbed {b : Builder} (h : b.stack.owner?.any (·.isObject) = false)
    (name : String) (attributes : Markup.Attributes) (text : String) :
    b.stack.Changed Frame.Undisturbed (b.closeThematic name attributes text).stack := by
  have hmodel : (b.setModelText name text).stack = b.stack := by
    unfold setModelText
    split <;> rfl
  rw [closeThematic]
  split
  · next howner => rw [howner] at h; cases h
  · rw [hmodel]; exact .refl .refl _
  · rw [hmodel]; exact .refl .refl _
  · exact .refl .refl _

theorem closeText_undisturbed (config : Config) {b : Builder} (srs : Option String) {t : TextParts}
    (h : (Frame.text t).setting? b.stack = none) :
    b.stack.Changed Frame.Undisturbed (b.closeText config srs t).stack := by
  rw [closeText]
  cases ht : t.element with
  | positions kind => exact closePositions_undisturbed ..
  | property property => exact closeProperty_undisturbed ..
  | thematic name =>
    refine closeThematic_undisturbed ?_ ..
    rw [Frame.setting?, TextParts.setting?, ht] at h
    by_contra howner
    rw [Bool.not_eq_false] at howner
    dsimp only at h
    rw [if_pos howner] at h
    cases h

theorem closeEnvelope_undisturbed (b : Builder) (e : EnvelopeParts) :
    b.stack.Changed Frame.Undisturbed (b.closeEnvelope e).stack := by
  rw [closeEnvelope]
  dsimp only
  split
  · exact .refl .refl _
  · split
    · exact b.undisturbed_updateFeature fun _ => by rfl
    · exact .refl .refl _
    · exact .refl .refl _
    · exact .refl .refl _

/-- An attribute without a name is no setting of any object. -/
theorem closeGeneric_undisturbed {b : Builder} {g : GenericParts}
    (h : (Frame.generic g).setting? b.stack = none) :
    b.stack.Changed Frame.Undisturbed (b.closeGeneric g).stack := by
  rw [Frame.setting?, GenericParts.setting?] at h
  rw [closeGeneric]
  split
  · exact .refl .refl _
  · next hname => rw [if_neg hname] at h; cases h

theorem closeBoundary_undisturbed (b : Builder) (role : RingRole) (ring : Option LinearRing) :
    b.stack.Changed Frame.Undisturbed (b.closeBoundary role ring).stack := by
  cases ring with
  | none => exact .refl .refl _
  | some ring => exact .updateOwner .refl fun f _ => by cases f <;> exact ⟨fun _ => rfl, rfl, rfl⟩

theorem closeAddress_undisturbed (b : Builder) (a : Address) :
    b.stack.Changed Frame.Undisturbed (b.closeAddress a).stack := by
  rw [closeAddress]
  split
  · exact .refl .refl _
  · exact b.undisturbed_updateFeature fun _ => by rfl

theorem closePoint_undisturbed (b : Builder) (property : PointProperty)
    (value : Option (Vec3 Float)) :
    b.stack.Changed Frame.Undisturbed (b.closePoint property value).stack := by
  cases value with
  | none => exact .refl .refl _
  | some p =>
    refine .updateOwner .refl fun f _ => ?_
    cases f with
    | object o => cases property <;> exact ⟨fun _ => rfl, rfl, rfl⟩
    | implicitGeometry g => cases property <;> exact ⟨fun _ => rfl, rfl, rfl⟩
    | _ => exact .refl _

/-- **What gives no setting leaves all attributes as they are.** -/
theorem closeFrame_undisturbed {config : Config} {b b' : Builder} {srs : Option String} {f : Frame}
    (hobject : f.isObject = false) (hsetting : f.setting? b.stack = none)
    (h : b.closeFrame config srs f = .ok b') : b.stack.Changed Frame.Undisturbed b'.stack := by
  have hok {c : Builder} (heq : (.ok c : Except Overflow Builder) = .ok b')
      (hc : b.stack.Changed Frame.Undisturbed c.stack) :
      b.stack.Changed Frame.Undisturbed b'.stack := Except.ok.inj heq ▸ hc
  cases f with
  | object o => cases hobject
  | geometry g => exact hok h (closeGeometry_undisturbed ..)
  | polygon p => exact hok h (closePolygon_undisturbed ..)
  | boundary role ring => exact hok h (closeBoundary_undisturbed ..)
  | ring r => exact hok h (closeRing_undisturbed ..)
  | text t => exact hok h (closeText_undisturbed config srs hsetting)
  | generic g => exact hok h (closeGeneric_undisturbed hsetting)
  | appearance a =>
    exact hok h (b.undisturbed_updateFeature fun f => Frame.sheet_addAppearance f a.id)
  | surfaceData d =>
    exact hok h (.updateAppearance .refl (fun _ => ⟨fun _ => rfl, rfl, rfl⟩) _)
  | textureTarget t =>
    exact hok h
      (.updateOwner .refl fun f _ => by cases f <;> exact ⟨fun _ => rfl, rfl, rfl⟩)
  | envelope e => exact hok h (closeEnvelope_undisturbed ..)
  | address a => exact hok h (closeAddress_undisturbed ..)
  | implicitGeometry g => exact hok h (b.undisturbed_updateFeature fun _ => by rfl)
  | point property value => exact hok h (closePoint_undisturbed ..)
  | model | transparent | skipped | implicitProperty => exact hok h (.refl .refl _)

end Closing

/-! ### Closing tags that give a setting -/

variable {f : Frame} {srs : Option String} {setting : Setting} {o : ObjectParts}

/-- A setting comes from a thematic element right in an object or from a generic attribute. -/
theorem setting?_cases {s : Stack} (h : f.setting? s = some setting) :
    (∃ t name parts, f = .text t ∧ t.element = .thematic name ∧ s.owner? = some (.object parts) ∧
      setting = ⟨name, Text.trimmed t.content, t.attributes.value? "uom", none⟩) ∨
    ∃ g, f = .generic g ∧ (g.name.getD "").isEmpty = false ∧
      setting = ⟨g.name.getD "", g.value.getD "", g.unit, some g.type⟩ := by
  cases f with
  | text t =>
    rw [Frame.setting?, TextParts.setting?] at h
    cases ht : t.element with
    | thematic name =>
      rw [ht] at h
      dsimp only at h
      split at h
      · next howner =>
        obtain rfl := Option.some.inj h
        obtain ⟨parts, hparts⟩ : ∃ parts, s.owner? = some (.object parts) := by
          cases hf : s.owner? with
          | none => rw [hf] at howner; cases howner
          | some f =>
            rw [hf] at howner
            cases f <;> first | exact ⟨_, rfl⟩ | cases howner
        exact .inl ⟨t, name, parts, rfl, ht, hparts, rfl⟩
      · cases h
    | _ => rw [ht] at h; cases h
  | generic g =>
    rw [Frame.setting?, GenericParts.setting?] at h
    split at h
    · cases h
    · next hname =>
      exact .inr ⟨g, rfl, by simpa using hname, (Option.some.inj h).symm⟩
  | _ => cases h

/-- The innermost object is set the attribute as its kind has it. -/
theorem closeFrame_of_setting? (h : f.setting? b.stack = some setting)
    (ho : b.stack.object? = some o) :
    b.closeFrame config srs f = .ok (b.setAttribute setting.name setting.text
      (setting.type o.feature.kind) setting.unit (setting.problem o.feature.kind)) := by
  rcases setting?_cases h with ⟨t, name, parts, rfl, ht, howner, rfl⟩ | ⟨g, rfl, hname, rfl⟩
  · obtain rfl : parts = o := Option.some.inj ((Stack.object?_of_owner? howner).symm.trans ho)
    rw [closeFrame, closeText, ht]
    dsimp only
    rw [closeThematic, howner]
    rfl
  · rw [closeFrame, closeGeneric]
    dsimp only
    rw [if_neg (by simp [hname]), ho]
    rfl

/-- Where no object is open, there is nothing to set. -/
theorem closeFrame_of_object? (h : f.setting? b.stack = some setting)
    (ho : b.stack.object? = none) : b.closeFrame config srs f = .ok b := by
  rcases setting?_cases h with ⟨t, name, parts, -, -, howner, -⟩ | ⟨g, rfl, hname, -⟩
  · rw [Stack.object?_of_owner? howner] at ho
    cases ho
  · rw [closeFrame, closeGeneric, ho, if_neg (by simp [hname])]
    rfl

theorem setAttribute_eq (b : Builder) (setting : Setting) (kind : Kind) (problem : Problem) :
    b.setAttribute setting.name setting.text (setting.type kind) setting.unit problem =
      if (setting.value? kind).isSome then
        b.updateFeature (·.setAttribute setting.name (setting.kept kind))
      else (b.updateFeature (·.setAttribute setting.name (setting.kept kind))).report problem
        b.stack.objectId? := by
  rw [setAttribute, Setting.kept, Setting.value?]
  cases Value.parseAs? setting.text (setting.type kind) setting.unit <;> rfl

/-! ### The roster of a state -/

/-- The members of all objects, the finished ones and the open ones. -/
def roster (b : Builder) : List Member :=
  (sheets b.model.objects).map (0, ·) ++ b.stack.roster

theorem le_depth_of_mem_roster {p : Member} (h : p ∈ b.roster) : p.1 ≤ b.depth := by
  rcases List.mem_append.1 h with h | h
  · obtain ⟨_, -, rfl⟩ := List.mem_map.1 h
    exact Nat.zero_le _
  · exact Stack.le_length_of_mem_roster h

theorem roster_of_undisturbed (hstack : b.stack.Changed Frame.Undisturbed b'.stack)
    (hobjects : b'.model.objects = b.model.objects) : b'.roster = b.roster := by
  rw [roster, roster, hstack.roster_eq, hobjects]

theorem roster_attachObject (b : Builder) (o : CityObject) :
    (b.attachObject o).roster = b.roster ++ (sheets [o]).map (0, ·) := by
  rw [attachObject]
  split
  · next parts h =>
    have hopen : b.stack.object? ≠ none := by rw [h]; exact Option.some_ne_none parts
    have hstack : (b.stack.updateObject (·.addChild o)).roster =
        b.stack.roster ++ (sheets [o]).map (0, ·) := Stack.roster_addChild o hopen
    rw [roster, roster, hstack, List.append_assoc]
  · next h =>
    have hobjects : (b.model.addObject o).objects = b.model.objects ++ [o] := rfl
    rw [roster, roster, Stack.roster_of_object? h, hobjects, sheets_append, List.map_append,
      List.append_nil, List.append_nil]

theorem given?_zero (s : Stack) (f : Frame) : f.given? s 0 = none := by
  rw [Frame.given?, if_neg]
  intro h
  exact absurd (Stack.objectHeight?_le_length h).1 (Nat.lt_irrefl 0)

theorem given?_object (o : ObjectParts) (s : Stack) (height : Nat) :
    (Frame.object o).given? s height = none :=
  ite_self none

/-- **An element that ends gives its setting, and nothing else, to the roster.** -/
theorem roster_closeFrame (hobject : f.isObject = false)
    (h : b.closeFrame config srs f = .ok b') :
    b'.roster = b.roster.map (assign (f.given? b.stack)) := by
  obtain ⟨-, -, -, hobjects⟩ := closeFrame_hands h
  have hobjects : b'.model.objects = b.model.objects := by
    rcases hobjects with hobjects | ⟨o, -, -, rfl, -⟩
    · exact hobjects
    · cases hobject
  cases hsetting : f.setting? b.stack with
  | none =>
    rw [roster_of_undisturbed (closeFrame_undisturbed hobject hsetting h) hobjects,
      map_assign_of_none]
    intro p _
    rw [Frame.given?, hsetting, ite_self]
  | some setting =>
    cases ho : b.stack.object? with
    | none =>
      rw [closeFrame_of_object? hsetting ho] at h
      obtain rfl := Except.ok.inj h
      rw [map_assign_of_none]
      intro p _
      rw [Frame.given?, Stack.objectHeight?_eq_none_iff.2 ho,
        if_neg (Option.some_ne_none _).symm]
    | some o =>
      have hupdate : (b.updateFeature
          (·.setAttribute setting.name (setting.kept o.feature.kind))).roster =
            b.roster.map (assign (f.given? b.stack)) := by
        rw [roster, roster, List.map_append, map_assign_finished (given?_zero _ _)]
        refine congrArg (_ ++ ·) ((Stack.roster_setAttribute ho setting).trans ?_)
        rw [← hsetting]
        rfl
      rw [closeFrame_of_setting? hsetting ho] at h
      obtain rfl := Except.ok.inj h
      rw [setAttribute_eq]
      split
      · exact hupdate
      · exact hupdate

/-! ### Events -/

/-- The setting that an event gives the object at a height. -/
def setting? (b : Builder) (e : Event) (height : Nat) : Option Setting :=
  match e, b.stack with
  | .closed _, e :: outer => e.frame.given? outer height
  | _, _ => none

/-- The member for the object that an event opens, if it opens one. -/
def opened? (config : Config) (b : Builder) : Event → Option Member
  | .opened name attributes =>
    (b.objectOf? config name attributes).map fun object => (b.depth + 1, ⟨object.2, object.1, ∅⟩)
  | _ => none

/-- The member is that of a finished object if it is higher than the open elements. -/
def retire (depth : Nat) (p : Member) : Member :=
  (if depth < p.1 then 0 else p.1, p.2)

theorem map_retire_of_le {depth : Nat} {l : List Member} (h : ∀ p ∈ l, p.1 ≤ depth) :
    l.map (retire depth) = l := by
  refine (List.map_congr_left fun p hp => ?_).trans (List.map_id l)
  rw [retire, if_neg (Nat.not_lt.2 (h p hp))]
  rfl

theorem roster_openElement (config : Config) (b : Builder) (name : String)
    (attributes : Markup.Attributes) :
    (b.openElement config name attributes).roster =
      b.roster ++ (b.opened? config (.opened name attributes)).toList := by
  obtain ⟨e, outer, hstack, -, hbegun, -, -, hobjects⟩ :=
    b.openElement_changed config name attributes
  obtain ⟨_, _, hstack', hchanged⟩ := b.openElement_undisturbed config name attributes
  obtain ⟨rfl, rfl⟩ := List.cons.inj (hstack.symm.trans hstack')
  have hmembers : e.frame.members (b.depth + 1) =
      (b.opened? config (.opened name attributes)).toList := by
    have hstep := (openElement_step config b name attributes).scaffold
    generalize hs : (b.openElement config name attributes).scaffold = s at hstep
    cases hstep
    have hlevels := congrArg Scaffold.levels hs
    rw [scaffold, hstack, Scaffold.push, Stack.levels_cons, List.cons.injEq] at hlevels
    have hcore : e.frame.core? = _ := congrArg Level.object hlevels.1
    rw [hbegun.members_eq, opened?, hcore]
    cases b.objectOf? config name attributes <;> rfl
  rw [roster, roster, hstack, Stack.roster, hobjects, hchanged.roster_eq, hchanged.length_eq,
    ← List.append_assoc]
  exact congrArg (_ ++ ·) hmembers

/-- Closing an object retires it, and drops it if it was empty and empty objects are left out. -/
theorem roster_closeObject {e : OpenElement} {outer : Stack} (hs : b.stack = e :: outer)
    (ho : e.frame = .object o)
    (hclose : ({ b with stack := outer } : Builder).closeObject config o = .ok b') :
    ∃ dropped, b.roster.map (retire outer.length) = b'.roster ++ dropped ∧
      (∀ p ∈ dropped, p.1 = 0) ∧ (config.prune = false → dropped = []) := by
  have hretired : b.roster.map (retire outer.length) =
      { b with stack := outer }.roster ++ (o.feature.sheet :: sheets o.children).map (0, ·) := by
    have hrest : b.roster = { b with stack := outer }.roster ++
        ((outer.length + 1, o.feature.sheet) :: (sheets o.children).map (0, ·)) := by
      rw [roster, roster, hs, Stack.roster, ho, List.append_assoc]
      rfl
    have hopen : ({ b with stack := outer }.roster).map (retire outer.length) =
        { b with stack := outer }.roster :=
      map_retire_of_le fun p hp => le_depth_of_mem_roster hp
    have hbelow : ((sheets o.children).map ((0 : Nat), ·)).map (retire outer.length) =
        (sheets o.children).map (0, ·) :=
      map_retire_of_le fun p hp => by
        obtain ⟨_, -, rfl⟩ := List.mem_map.1 hp
        exact Nat.zero_le _
    rw [hrest, List.map_append, hopen, List.map_cons, hbelow, retire, if_pos (Nat.lt_succ_self _)]
    rfl
  obtain ⟨m, coverage, object, hgrid, hfinish, rfl⟩ := closeObject_eq_ok_iff.1 hclose
  have hm : m.roster = ({ b with stack := outer } : Builder).roster := by
    obtain ⟨reports, rfl⟩ := exists_reports_of_closeGrid hgrid
    rfl
  rw [hretired, ← sheets_finish hfinish]
  split
  · next hdropped =>
    refine ⟨_, by rw [hm], fun p hp => ?_, fun hprune => ?_⟩
    · obtain ⟨_, -, rfl⟩ := List.mem_map.1 hp
      rfl
    · rw [hprune] at hdropped
      cases hdropped
  · refine ⟨[], ?_, fun p hp => absurd hp List.not_mem_nil, fun _ => rfl⟩
    rw [roster_attachObject, hm, List.append_nil]

theorem depth_closeFrame (h : b.closeFrame config srs f = .ok b') : b'.depth = b.depth := by
  obtain ⟨_, -, hstack, -⟩ := closeFrame_hands h
  exact hstack.length_eq

theorem setting?_closed {e : OpenElement} {outer : Stack} (hs : b.stack = e :: outer)
    (name : String) : b.setting? (.closed name) = fun height => e.frame.given? outer height := by
  funext height
  unfold setting?
  rw [hs]

/-- **What an event makes of the roster.**  An object that is dropped is finished by then. -/
theorem roster_apply {e : Event} (h : b.apply config e = .ok b') :
    ∃ dropped, (b.roster.map (assign (b.setting? e))).map (retire b'.depth) ++
          (b.opened? config e).toList = b'.roster ++ dropped ∧
      (∀ p ∈ dropped, p.1 = 0) ∧ (config.prune = false → dropped = []) := by
  have hsame (hdepth : b.depth ≤ b'.depth) (hsetting : ∀ height, b.setting? e height = none) :
      (b.roster.map (assign (b.setting? e))).map (retire b'.depth) = b.roster := by
    rw [map_assign_of_none fun p _ => hsetting p.1, map_retire_of_le]
    exact fun p hp => (le_depth_of_mem_roster hp).trans hdepth
  cases e with
  | offset bytes =>
    obtain rfl := Except.ok.inj h
    exact ⟨[], congrArg (· ++ []) (hsame (Nat.le_refl _) fun _ => rfl),
      fun p hp => absurd hp List.not_mem_nil, fun _ => rfl⟩
  | text content =>
    obtain rfl := eq_of_apply_text h
    have hroster : (b.addText content).roster = b.roster ∧
        (b.addText content).depth = b.depth := by
      rw [addText]
      split
      · exact ⟨rfl, rfl⟩
      · next e outer hs =>
        rw [roster, roster, hs, Stack.roster, Frame.members_takeText, depth, depth, hs]
        exact ⟨rfl, rfl⟩
    refine ⟨[], ?_, fun p hp => absurd hp List.not_mem_nil, fun _ => rfl⟩
    rw [hsame (Nat.le_of_eq hroster.2.symm) fun _ => rfl, hroster.1]
    rfl
  | opened name attributes =>
    obtain rfl := eq_of_apply_opened h
    obtain ⟨e, outer, hstack, -, -, houter, -, -⟩ := b.openElement_changed config name attributes
    have hdepth : b.depth ≤ (b.openElement config name attributes).depth := by
      rw [depth, depth, hstack, List.length_cons, houter.length_eq]
      exact Nat.le_succ _
    refine ⟨[], ?_, fun p hp => absurd hp List.not_mem_nil, fun _ => rfl⟩
    rw [hsame hdepth fun _ => rfl, roster_openElement, List.append_nil]
  | closed name =>
    obtain ⟨e, outer, hs, -, hclose⟩ := exists_of_apply_closed h
    have hdepth : b'.depth = outer.length := depth_closeFrame hclose
    have hopened : b.opened? config (.closed name) = none := rfl
    rw [setting?_closed hs, hdepth, hopened, Option.toList_none, List.append_nil]
    rcases Stack.object_cases e with ⟨name, srs, o, rfl⟩ | hobject
    · rw [map_assign_of_none fun p _ => given?_object o outer p.1]
      exact roster_closeObject hs rfl hclose
    · have hroster : b.roster = { b with stack := outer }.roster := by
        rw [roster, roster, hs, Stack.roster_cons_of_not_isObject hobject]
      refine ⟨[], ?_, fun p hp => absurd hp List.not_mem_nil, fun _ => rfl⟩
      rw [roster_closeFrame hobject hclose, List.append_nil, hroster, map_retire_of_le]
      intro p hp
      obtain ⟨q, hq, rfl⟩ := List.mem_map.1 hp
      exact le_depth_of_mem_roster hq

/-- What is reported stays reported. -/
theorem diagnostics_subset_of_apply {e : Event} (h : b.apply config e = .ok b') :
    b.diagnostics ⊆ b'.diagnostics := by
  cases e with
  | offset bytes => obtain rfl := Except.ok.inj h; exact List.Subset.refl _
  | text content =>
    obtain rfl := eq_of_apply_text h
    rw [addText]
    split <;> exact List.Subset.refl _
  | opened name attributes =>
    obtain rfl := eq_of_apply_opened h
    obtain ⟨-, -, -, -, -, -, hdiagnostics, -⟩ := b.openElement_changed config name attributes
    rw [hdiagnostics]
    exact List.Subset.refl _
  | closed name =>
    obtain ⟨e, outer, -, -, hclose⟩ := exists_of_apply_closed h
    obtain ⟨reports, hdiagnostics, -, -⟩ := closeFrame_hands hclose
    rw [hdiagnostics]
    exact List.subset_append_left _ _

/-- **A setting with a text that is not of the type is reported**, with the identifier of the
object. -/
theorem reported_apply {e : Event} (h : b.apply config e = .ok b') {p : Member}
    (hp : p ∈ b.roster) (hsetting : b.setting? e p.1 = some setting)
    (hvalue : setting.value? p.2.kind = none) :
    ⟨setting.problem p.2.kind, some p.2.id⟩ ∈ b'.diagnostics := by
  cases e with
  | closed name =>
    obtain ⟨e, outer, hs, -, hclose⟩ := exists_of_apply_closed h
    rw [setting?_closed hs] at hsetting
    dsimp only at hsetting
    rw [Frame.given?] at hsetting
    split at hsetting
    · next hheight =>
      have hobject : e.frame.isObject = false := by
        rcases setting?_cases hsetting with ⟨_, _, _, hf, -⟩ | ⟨_, hf, -⟩ <;> rw [hf] <;> rfl
      -- finished objects have no height
      have hopen : p ∈ Stack.roster outer := by
        rw [roster, hs, Stack.roster_cons_of_not_isObject hobject] at hp
        rcases List.mem_append.1 hp with hp | hp
        · obtain ⟨_, -, rfl⟩ := List.mem_map.1 hp
          exact absurd (Stack.objectHeight?_le_length hheight).1 (Nat.lt_irrefl 0)
        · exact hp
      obtain ⟨o, ho, hsheet⟩ := Stack.exists_of_mem_roster hopen hheight
      have hvalue : setting.value? o.feature.kind = none := by rw [hsheet] at hvalue; exact hvalue
      have hid : Stack.objectId? outer = some o.feature.id := by rw [Stack.objectId?, ho]; rfl
      rw [closeFrame_of_setting? (b := { b with stack := outer }) hsetting ho] at hclose
      obtain rfl := Except.ok.inj hclose
      rw [setAttribute_eq, hvalue, Option.isSome_none, if_neg Bool.false_ne_true, report, hid,
        hsheet]
      exact List.mem_append_right _ (List.mem_singleton_self _)
    · cases hsetting
  | _ => cases hsetting

end Builder

end CityScene.Document
