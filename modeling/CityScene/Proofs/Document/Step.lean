import CityScene.Proofs.Document.Touches

/-!
# What an accepted event does

`Step config b e b'` lists every way in which an event can be accepted, and `step_of_apply` shows
that there is no other.  Each constructor is some touches of content and one structural change: an
element is pushed, an element is popped, or an object is attached where its element stood.

From there on frames need not be looked at.  A property of states that touches, other stacks and
further objects keep is kept by every step (`Step.keeps`).  What a step makes of the scaffold is a
`ScaffoldStep`, and properties of whole documents follow by induction on the events
(`applyAll_cons_eq_ok`, `applyAll_invariant`, `exists_of_readEvents_eq_ok`).
-/

namespace CityScene.Document

/-! ### Attaching objects -/

/-- An object with one more object below it. -/
def ObjectCore.add (c : ObjectCore) (child : CityObject) : ObjectCore :=
  { c with envelope := c.envelope.union child.label.envelope, children := c.children ++ [child] }

/-- The finished object of a feature, with its own envelope. -/
def finished (f : Feature) (envelope : Envelope Float) (children : List CityObject) : CityObject :=
  .node { f with envelope } children

/-- The levels with an object attached to the innermost open object, if one is open. -/
def attachTo (child : CityObject) : List Level → Option (List Level)
  | [] => none
  | l :: outer =>
    match l.object with
    | some core => some ({ l with object := some (core.add child) } :: outer)
    | none => (attachTo child outer).map (l :: ·)

/-- Attaching an object shows only where the core of an object is looked into. -/
theorem map_attachTo {α : Type} {view : Level → α} {child : CityObject}
    (hview : ∀ l core, l.object = some core →
      view { l with object := some (core.add child) } = view l)
    {s t : List Level} (h : attachTo child s = some t) : t.map view = s.map view := by
  induction s generalizing t with
  | nil => cases h
  | cons l outer ih =>
    rw [attachTo] at h
    split at h
    · next core hobject =>
      obtain rfl := Option.some.inj h
      rw [List.map_cons, List.map_cons, hview l core hobject]
    · obtain ⟨t, ht, rfl⟩ := Option.map_eq_some_iff.1 h
      rw [List.map_cons, List.map_cons, ih ht]

namespace Scaffold

def push (s : Scaffold) (l : Level) : Scaffold :=
  { s with levels := l :: s.levels }

def pop (s : Scaffold) : Scaffold :=
  { s with levels := s.levels.tail }

/-- The scaffold with an object attached to the innermost open object, or else to the model. -/
def attach (s : Scaffold) (o : CityObject) : Scaffold :=
  match attachTo o s.levels with
  | some levels => { s with levels }
  | none =>
    { s with objects := s.objects ++ [o], envelope := s.envelope.union o.label.envelope }

end Scaffold

theorem attachTo_levels (child : CityObject) (s : Stack) :
    attachTo child s.levels =
      if s.object?.isSome then some (s.updateObject (·.addChild child)).levels else none := by
  induction s with
  | nil => rfl
  | cons e outer ih =>
    obtain ⟨name, srs, frame⟩ := e
    cases frame with
    | object o => rfl
    | _ =>
      show (attachTo child (Stack.levels outer)).map _ = _
      rw [ih]
      by_cases h : (Stack.object? outer).isSome = true
      · rw [if_pos h]
        exact (if_pos h).symm
      · rw [if_neg h]
        exact (if_neg h).symm

namespace Builder

theorem scaffold_attachObject (b : Builder) (o : CityObject) :
    (b.attachObject o).scaffold = b.scaffold.attach o := by
  have hlevels := attachTo_levels o b.stack
  rw [attachObject]
  split
  · next h =>
    rw [h, Option.isSome_some, if_pos rfl] at hlevels
    rw [Scaffold.attach, show b.scaffold.levels = b.stack.levels from rfl, hlevels]
    rfl
  · next h =>
    rw [h, Option.isSome_none, if_neg (by decide)] at hlevels
    rw [Scaffold.attach, show b.scaffold.levels = b.stack.levels from rfl, hlevels]
    rfl

/-! ### Steps -/

/-- The kind of city object that an element is, if objects of that kind are read. -/
def objectKind? (config : Config) : Element → Option Kind
  | .object kind => if config.acceptsKind kind then some kind else none
  | _ => none

/-- The kind and the identifier of the city object that an opening tag begins, if it begins one: the
kind is read, and the element is not inside one that is left out. -/
def objectOf? (config : Config) (b : Builder) (name : String) (attributes : Markup.Attributes) :
    Option (Kind × String) :=
  if b.stack.head?.any (·.frame.isSkipped) then none
  else
    (objectKind? config (Element.ofTag (Markup.localName name) attributes)).map fun kind =>
      (kind, (attributes.value? "id").getD s!"{kind.idStem}_{b.generated + 1}")

/-- An object on which nothing has been collected yet. -/
def freshCore (kind : Kind) (id : String) : ObjectCore :=
  ⟨id, kind, .empty, [], kind = .rectifiedGridCoverage⟩

theorem generated_mentionSystem (b : Builder) (name : String) (attributes : Markup.Attributes) :
    (b.mentionSystem name attributes).generated = b.generated := by
  rw [mentionSystem]
  split <;> rfl

theorem core?_openFrame (config : Config) (b : Builder) (name : String)
    (attributes : Markup.Attributes) (srs : Option String) :
    (b.openFrame config name attributes srs).2.core? =
      (objectKind? config (Element.ofTag name attributes)).map fun kind =>
        freshCore kind ((attributes.value? "id").getD s!"{kind.idStem}_{b.generated + 1}") := by
  unfold openFrame
  cases Element.ofTag name attributes with
  | object kind =>
    by_cases h : config.acceptsKind kind = true
    · have hgrid : (if kind = .rectifiedGridCoverage then some ({} : GridParts) else none).isSome =
          decide (kind = .rectifiedGridCoverage) := by split <;> simp [*]
      simp only [h, if_true, objectKind?, Option.map_some, Frame.core?, Frame.object?,
        ObjectParts.core, hgrid]
      cases attributes.value? "id" <;> rfl
    · simp only [h, objectKind?]
      rfl
  | geometryProperty lod => dsimp only; split <;> rfl
  | implicitProperty lod => dsimp only; split <;> rfl
  | boundary role => dsimp only; split <;> rfl
  | relativeGeometry => dsimp only; split <;> rfl
  | _ => rfl

/-- What an accepted event does. -/
inductive Step (config : Config) : Builder → Event → Builder → Prop
  | offset (b : Builder) (bytes : Nat) :
      Step config b (.offset bytes) { b with offset := some bytes }
  | text {b b' : Builder} (content : String) (h : Touches b b') : Step config b (.text content) b'
  | opened {b b' : Builder} {name : String} {attributes : Markup.Attributes} {e : OpenElement}
      (h : Touches b b')
      (hlevel : e.level =
        ⟨name, (b.objectOf? config name attributes).map fun (kind, id) => freshCore kind id⟩) :
      Step config b (.opened name attributes) { b' with stack := e :: b'.stack }
  | closed {b b' : Builder} {e : OpenElement} {outer : Stack} (hstack : b.stack = e :: outer)
      (hframe : e.frame.isObject = false) (h : Touches { b with stack := outer } b') :
      Step config b (.closed e.name) b'
  /-- The object of the element was empty and is left out. -/
  | dropped {b b' : Builder} {e : OpenElement} {outer : Stack} {o : ObjectParts}
      {coverage : Option GridCoverage} {object : CityObject} (hstack : b.stack = e :: outer)
      (hframe : e.frame = .object o) (hfinish : o.finish coverage = .ok object)
      (hempty : (config.prune && object.isEmpty) = true)
      (h : Touches { b with stack := outer } b') : Step config b (.closed e.name) b'
  | attached {b b' : Builder} {e : OpenElement} {outer : Stack} {o : ObjectParts}
      {coverage : Option GridCoverage} {object : CityObject} (hstack : b.stack = e :: outer)
      (hframe : e.frame = .object o) (hfinish : o.finish coverage = .ok object)
      (hkept : (config.prune && object.isEmpty) = false)
      (h : Touches { b with stack := outer } b') :
      Step config b (.closed e.name) (b'.attachObject object)

theorem openElement_step (config : Config) (b : Builder) (name : String)
    (attributes : Markup.Attributes) :
    Step config b (.opened name attributes) (b.openElement config name attributes) := by
  rw [openElement]
  by_cases hskip : b.stack.head?.any (·.frame.isSkipped) = true
  · rw [if_pos hskip]
    refine .opened .refl ?_
    rw [objectOf?, if_pos hskip]
    rfl
  · rw [if_neg hskip]
    dsimp only
    -- whether a system is mentioned or not, nothing that the new frame depends on changes
    have hframe : ∀ (m : Builder) (srs : Option String), Touches b m → m.generated = b.generated →
        Step config b (.opened name attributes)
          (let opened := m.openFrame config (Markup.localName name) attributes srs
          { opened.1 with stack := ⟨name, srs, opened.2⟩ :: opened.1.stack }) := by
      intro m srs htouch hgen
      refine .opened (htouch.trans (openFrame_touches _ _ _ _ _)) ?_
      rw [OpenElement.level, core?_openFrame, hgen, objectOf?, if_neg hskip, Option.map_map]
      rfl
    split
    · exact hframe _ _ (mentionSystem_touches _ _ _) (generated_mentionSystem _ _ _)
    · exact hframe _ _ .refl rfl

/-- Putting a grid together reports at most that it has a fault. -/
theorem closeGrid_cases {b b' : Builder} {o : ObjectParts} {coverage : Option GridCoverage}
    (h : b.closeGrid o = .ok (b', coverage)) :
    b' = b ∨ ∃ fault, b' = b.report (.grid fault) (some o.feature.id) := by
  rw [closeGrid] at h
  split at h
  · cases h
    exact .inl rfl
  · obtain ⟨result, -, h⟩ := exists_of_map_eq_ok h
    cases result with
    | ok coverage => cases h; exact .inl rfl
    | error fault => cases h; exact .inr ⟨fault, rfl⟩

theorem exists_reports_of_closeGrid {b b' : Builder} {o : ObjectParts}
    {coverage : Option GridCoverage} (h : b.closeGrid o = .ok (b', coverage)) :
    ∃ reports, b' = { b with diagnostics := b.diagnostics ++ reports } := by
  rcases closeGrid_cases h with rfl | ⟨fault, rfl⟩
  · exact ⟨[], by rw [List.append_nil]⟩
  · exact ⟨_, rfl⟩

theorem closeGrid_touches {b b' : Builder} {o : ObjectParts} {coverage : Option GridCoverage}
    (h : b.closeGrid o = .ok (b', coverage)) : Touches b b' := by
  rcases closeGrid_cases h with rfl | ⟨fault, rfl⟩
  · exact .refl
  · exact report_touches _ (by nofun) _

/-- An object is closed in two computations that may overflow. -/
theorem closeObject_eq_ok_iff {config : Config} {b b' : Builder} {o : ObjectParts} :
    b.closeObject config o = .ok b' ↔ ∃ m coverage object,
      b.closeGrid o = .ok (m, coverage) ∧ o.finish coverage = .ok object ∧
      (if config.prune && object.isEmpty then m else m.attachObject object) = b' := by
  constructor
  · intro h
    obtain ⟨⟨m, coverage⟩, hgrid, h⟩ := exists_of_bind_eq_ok h
    obtain ⟨object, hfinish, h⟩ := exists_of_bind_eq_ok h
    exact ⟨m, coverage, object, hgrid, hfinish, Except.ok.inj h⟩
  · rintro ⟨m, coverage, object, hgrid, hfinish, rfl⟩
    rw [closeObject, hgrid]
    show (o.finish coverage).bind _ = _
    rw [hfinish]
    rfl

/-- A closing tag that is accepted closes the frame of the innermost element. -/
theorem exists_of_closeElement {config : Config} {b b' : Builder} {name : String}
    (h : b.closeElement config name = .ok b') : ∃ e outer, b.stack = e :: outer ∧ e.name = name ∧
      ({ b with stack := outer } : Builder).closeFrame config e.srs e.frame = .ok b' := by
  rw [closeElement] at h
  split at h
  · cases h
  · next e outer hstack =>
    split at h
    · next hname =>
      refine ⟨e, outer, hstack, hname, ?_⟩
      cases hclose : ({ b with stack := outer } : Builder).closeFrame config e.srs e.frame with
      | error fault => rw [hclose] at h; cases h
      | ok m => rw [hclose] at h; obtain rfl := Except.ok.inj h; rfl
    · cases h

theorem closeElement_of_closeFrame {config : Config} {b b' : Builder} {e : OpenElement}
    {outer : Stack} (hstack : b.stack = e :: outer)
    (h : ({ b with stack := outer } : Builder).closeFrame config e.srs e.frame = .ok b') :
    b.closeElement config e.name = .ok b' := by
  rw [closeElement, hstack]
  dsimp only
  rw [if_pos rfl, h]
  rfl

theorem Frame.eq_object_of_isObject {f : Frame} (h : f.isObject = true) : ∃ o, f = .object o := by
  cases f with
  | object o => exact ⟨o, rfl⟩
  | _ => cases h

theorem closeElement_step {config : Config} {b b' : Builder} {name : String}
    (h : b.closeElement config name = .ok b') : Step config b (.closed name) b' := by
  obtain ⟨e, outer, hstack, rfl, hclose⟩ := exists_of_closeElement h
  by_cases hobject : e.frame.isObject = true
  · obtain ⟨o, ho⟩ := Frame.eq_object_of_isObject hobject
    rw [ho] at hclose
    obtain ⟨m, coverage, object, hgrid, hfinish, rfl⟩ := closeObject_eq_ok_iff.1 hclose
    have htouch := closeGrid_touches hgrid
    split
    · next hempty => exact .dropped hstack ho hfinish hempty htouch
    · next hkept => exact .attached hstack ho hfinish (by simpa using hkept) htouch
  · have hobject : e.frame.isObject = false := by simpa using hobject
    obtain ⟨m, hm, htouch⟩ := closeFrame_touches config { b with stack := outer } e.srs hobject
    obtain rfl := Except.ok.inj (hclose.symm.trans hm)
    exact .closed hstack hobject htouch

/-- **An accepted event is one of the steps.** -/
theorem step_of_apply {config : Config} {b b' : Builder} {e : Event}
    (h : b.apply config e = .ok b') : Step config b e b' := by
  cases e with
  | offset bytes => obtain rfl := Except.ok.inj h; exact .offset _ _
  | opened name attributes =>
    rw [apply] at h
    split at h
    · cases h
    · obtain rfl := Except.ok.inj h; exact openElement_step _ _ _ _
  | text content =>
    rw [apply] at h
    split at h
    · cases h
    · obtain rfl := Except.ok.inj h; exact .text _ (addText_touches _ _)
  | closed name =>
    rw [apply] at h
    split at h
    · cases h
    · exact closeElement_step h

/-- What touches, other stacks and further objects keep, every step keeps. -/
theorem Step.keeps {config : Config} {P : Builder → Prop}
    (htouch : ∀ {b b' : Builder}, Touch b b' → P b → P b')
    (hoffset : ∀ {b : Builder} (offset : Option Nat), P b → P { b with offset })
    (hstack : ∀ {b : Builder} (stack : Stack), P b → P { b with stack })
    (hobject : ∀ {b : Builder} (o : CityObject), P b → P { b with model := b.model.addObject o })
    {b b' : Builder} {e : Event} (h : Step config b e b') (hb : P b) : P b' := by
  have htouches : ∀ {b b' : Builder}, Touches b b' → P b → P b' := fun h hb => by
    induction h with
    | refl => exact hb
    | tail _ h ih => exact htouch h ih
  cases h with
  | offset bytes => exact hoffset _ hb
  | text content h => exact htouches h hb
  | opened h _ => exact hstack _ (htouches h hb)
  | closed _ _ h => exact htouches h (hstack _ hb)
  | dropped _ _ _ _ h => exact htouches h (hstack _ hb)
  | attached _ _ _ _ h =>
    rw [attachObject]
    split
    · exact hstack _ (htouches h (hstack _ hb))
    · exact hobject _ (htouches h (hstack _ hb))

/-! ### The scaffold along a step -/

/-- What a step makes of the scaffold. -/
inductive ScaffoldStep (config : Config) (b : Builder) : Event → Scaffold → Prop
  | offset (bytes : Nat) : ScaffoldStep config b (.offset bytes) b.scaffold
  | text (content : String) : ScaffoldStep config b (.text content) b.scaffold
  | opened (name : String) (attributes : Markup.Attributes) :
      ScaffoldStep config b (.opened name attributes)
        (b.scaffold.push
          ⟨name, (b.objectOf? config name attributes).map fun (kind, id) => freshCore kind id⟩)
  | closed {l : Level} {outer : List Level} (hlevels : b.scaffold.levels = l :: outer)
      (hobject : l.object = none) : ScaffoldStep config b (.closed l.name) b.scaffold.pop
  | dropped {l : Level} {outer : List Level} (hlevels : b.scaffold.levels = l :: outer)
      (hprune : config.prune = true) : ScaffoldStep config b (.closed l.name) b.scaffold.pop
  | attached {l : Level} {outer : List Level} {core : ObjectCore} {f : Feature}
      {envelope : Envelope Float} (hlevels : b.scaffold.levels = l :: outer)
      (hobject : l.object = some core) (hid : f.id = core.id) (hkind : f.kind = core.kind)
      (henvelope : f.envelope = core.envelope) (hown : f.ownEnvelope = .ok envelope) :
      ScaffoldStep config b (.closed l.name)
        (b.scaffold.pop.attach (finished f envelope core.children))

theorem Touches.scaffold_pop {b b' : Builder} {e : OpenElement} {outer : Stack}
    (hstack : b.stack = e :: outer) (h : Touches { b with stack := outer } b') :
    b'.scaffold = b.scaffold.pop := by
  rw [h.scaffold_eq, scaffold, scaffold, hstack]
  rfl

theorem Step.scaffold {config : Config} {b b' : Builder} {e : Event} (h : Step config b e b') :
    ScaffoldStep config b e b'.scaffold := by
  have hlevels : ∀ {e : OpenElement} {outer : Stack}, b.stack = e :: outer →
      b.scaffold.levels = e.level :: Stack.levels outer := fun h => by rw [Builder.scaffold, h]; rfl
  cases h with
  | offset bytes => exact .offset bytes
  | text content h => rw [h.scaffold_eq]; exact .text content
  | @opened b' name attributes e h hlevel =>
    have hpush : (Builder.scaffold { b' with stack := e :: b'.stack }) =
        b'.scaffold.push e.level := rfl
    rw [hpush, h.scaffold_eq, hlevel]
    exact .opened name attributes
  | closed hstack hframe h =>
    rw [h.scaffold_pop hstack]
    exact .closed (hlevels hstack) (Frame.core?_eq_none hframe)
  | dropped hstack hframe hfinish hempty h =>
    rw [h.scaffold_pop hstack]
    exact .dropped (hlevels hstack) (Bool.and_eq_true_iff.1 hempty).1
  | @attached b' e outer o coverage object hstack hframe hfinish hkept h =>
    rw [scaffold_attachObject, h.scaffold_pop hstack]
    have hcore : e.level.object = some o.core := by rw [OpenElement.level, hframe]; rfl
    obtain ⟨envelope, hown, rfl⟩ := exists_of_map_eq_ok hfinish
    exact .attached (f := { o.feature with coverage }) (hlevels hstack) hcore rfl rfl rfl hown

/-! ### Runs -/

theorem applyAll_cons_eq_ok {config : Config} {b b' : Builder} {e : Event} {events : List Event}
    (h : b.applyAll config (e :: events) = .ok b') :
    ∃ m, b.apply config e = .ok m ∧ m.applyAll config events = .ok b' := by
  rw [applyAll, List.foldlM_cons] at h
  exact exists_of_bind_eq_ok h

/-- What every step keeps, a run keeps. -/
theorem applyAll_invariant {config : Config} {P : Builder → Prop}
    (hstep : ∀ {b b' e}, Step config b e b' → P b → P b') {events : List Event} {b b' : Builder}
    (h : b.applyAll config events = .ok b') (hb : P b) : P b' := by
  induction events generalizing b with
  | nil => obtain rfl := Except.ok.inj h; exact hb
  | cons e events ih =>
    obtain ⟨m, he, hrest⟩ := applyAll_cons_eq_ok h
    exact ih hrest (hstep (step_of_apply he) hb)

/-- A document that is read was accepted event by event, and no element is left open. -/
theorem exists_of_readEvents_eq_ok {config : Config} {events : List Event} {outcome : Outcome}
    (h : readEvents config events = .ok outcome) :
    ∃ b, (start config).applyAll config events = .ok b ∧ b.stack = [] ∧
      outcome = b.complete config := by
  obtain ⟨b, hb, hfinish⟩ := exists_of_bind_eq_ok h
  refine ⟨b, hb, ?_⟩
  rw [finish] at hfinish
  split at hfinish
  · cases hfinish
  · split at hfinish
    · cases hfinish
    · next hstack => exact ⟨hstack, (Except.ok.inj hfinish).symm⟩

end Builder

end CityScene.Document
