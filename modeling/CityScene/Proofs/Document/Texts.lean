import CityScene.Proofs.Document.Roster

/-!
# The texts of open elements

What is written in an element right away, between its tags and outside the elements in it, can be
told from the events alone (`writtenAfter`).  An element of which the text counts collects just
that (`Tracks`), as no other element takes any of it or adds to it; only elements that are left out
collect nothing.

So the setting that the end of an element gives can be told by its tag and by what is written in it
(`Written.setting?_eq`).
-/

namespace CityScene.Document

/-- An open element as it is written: its tag, and the character data right in it so far. -/
structure Written where
  name : String
  attributes : Markup.Attributes
  content : String := ""

/-- The open elements as they are written after an event, innermost first. -/
def writtenAfter (written : List Written) : Event → List Written
  | .opened name attributes => { name, attributes } :: written
  | .closed _ => written.tail
  | .text content =>
    match written with
    | [] => []
    | w :: outer => { w with content := w.content ++ content } :: outer
  | .offset _ => written

namespace Written

/-- The parts of an element of which the text counts. -/
def text? (w : Written) : Option TextParts :=
  match Element.ofTag (Markup.localName w.name) w.attributes with
  | .text element => some { element, attributes := w.attributes, content := w.content }
  | _ => none

/-- The setting that the end of the element gives.  A thematic element is one by its tag, and its
text is what is written in it. -/
def setting? (w : Written) (s : Stack) : Frame → Option Setting
  | .generic g => g.setting?
  | _ => w.text?.bind (·.setting? s)

end Written

/-- The innermost element is left out. -/
def Stack.isSkipped (s : Stack) : Bool :=
  s.head?.any (·.frame.isSkipped)

/-- The frames of open elements collect what is written in them. -/
inductive Collects : List Written → Stack → Prop
  | nil : Collects [] []
  | cons {w : Written} {written : List Written} {e : OpenElement} {outer : Stack}
      (htext : e.frame.text? = if outer.isSkipped then none else w.text?)
      (houter : Collects written outer) : Collects (w :: written) (e :: outer)

namespace Frame

/-- The text collected in the frame is the same. -/
def SameText (f f' : Frame) : Prop :=
  f'.text? = f.text? ∧ f'.isSkipped = f.isSkipped

theorem SameText.refl (f : Frame) : SameText f f := ⟨rfl, rfl⟩

end Frame

theorem Stack.Changed.sameText {s s' : Stack} (h : s.Changed Frame.Undisturbed s') :
    s.Changed Frame.SameText s' :=
  List.Forall₂.imp (fun _ _ he => ⟨he.1, he.2.1, he.2.2.text, he.2.2.skipped⟩) h

theorem Stack.Changed.isSkipped_same {s s' : Stack} (h : s.Changed Frame.SameText s') :
    s'.isSkipped = s.isSkipped := by
  cases h with
  | nil => rfl
  | cons he _ => exact he.2.2.2

theorem Collects.changed {written : List Written} {s s' : Stack} (h : Collects written s)
    (hs : s.Changed Frame.SameText s') : Collects written s' := by
  induction h generalizing s' with
  | nil =>
    cases hs
    exact .nil
  | cons htext _ ih =>
    cases hs with
    | cons he houter =>
      refine .cons ?_ (ih houter)
      rw [he.2.2.1, Stack.Changed.isSkipped_same houter]
      exact htext

/-- What is left out is not right in an object. -/
theorem TextParts.setting?_of_isSkipped {s : Stack} (h : s.isSkipped = true) (t : TextParts) :
    t.setting? s = none := by
  obtain ⟨e, outer, rfl, he⟩ : ∃ e outer, s = e :: outer ∧ e.frame = .skipped := by
    cases s with
    | nil => cases h
    | cons e outer =>
      refine ⟨e, outer, rfl, ?_⟩
      change e.frame.isSkipped = true at h
      cases hf : e.frame <;> first | rfl | (rw [hf] at h; cases h)
  have howner : (Stack.owner? (e :: outer)).any (·.isObject) = false := by
    rw [Stack.owner?_of_not_isTransparent outer (by rw [he]; rfl), he]
    rfl
  rw [setting?, howner]
  cases t.element <;> rfl

/-- **The setting of an element is told by what is written.** -/
theorem Collects.setting?_eq {w : Written} {written : List Written} {e : OpenElement}
    {outer : Stack} (h : Collects (w :: written) (e :: outer)) :
    e.frame.setting? outer = w.setting? outer e.frame := by
  have hother (hnone : (if outer.isSkipped then none else w.text?) = none) :
      w.text?.bind (·.setting? outer) = none := by
    cases hskip : outer.isSkipped with
    | true =>
      cases w.text? with
      | none => rfl
      | some t => exact t.setting?_of_isSkipped hskip
    | false =>
      rw [hskip, if_neg Bool.false_ne_true] at hnone
      rw [hnone]
      rfl
  cases h with
  | cons htext _ =>
    cases hf : e.frame with
    | text t =>
      rw [hf, Frame.text?] at htext
      split at htext
      · cases htext
      · rw [Written.setting?, ← htext]
        · rfl
        · nofun
    | generic g => rfl
    | _ =>
      rw [hf] at htext
      exact (hother htext.symm).symm

namespace Builder

variable {config : Config} {b b' : Builder}

theorem closeObject_sameText {o : ObjectParts} (h : b.closeObject config o = .ok b') :
    b.stack.Changed Frame.SameText b'.stack := by
  obtain ⟨m, coverage, object, hgrid, -, rfl⟩ := closeObject_eq_ok_iff.1 h
  obtain ⟨reports, rfl⟩ := exists_reports_of_closeGrid hgrid
  split
  · exact .refl .refl b.stack
  · rw [attachObject]
    split
    · exact .updateObject .refl (fun _ => ⟨rfl, rfl⟩) b.stack
    · exact .refl .refl b.stack

/-- **No closing tag changes the text of another element.** -/
theorem closeFrame_sameText {srs : Option String} {f : Frame}
    (h : b.closeFrame config srs f = .ok b') : b.stack.Changed Frame.SameText b'.stack := by
  by_cases hobject : f.isObject = true
  · cases f with
    | object o => exact closeObject_sameText h
    | _ => cases hobject
  have hobject : f.isObject = false := by simpa using hobject
  cases hsetting : f.setting? b.stack with
  | none => exact (closeFrame_undisturbed hobject hsetting h).sameText
  | some setting =>
    cases ho : b.stack.object? with
    | none =>
      rw [closeFrame_of_object? hsetting ho] at h
      obtain rfl := Except.ok.inj h
      exact .refl .refl _
    | some o =>
      have hupdate : b.stack.Changed Frame.SameText (b.updateFeature
          (·.setAttribute setting.name (setting.kept o.feature.kind))).stack :=
        .updateObject .refl (fun _ => ⟨rfl, rfl⟩) _
      rw [closeFrame_of_setting? hsetting ho] at h
      obtain rfl := Except.ok.inj h
      rw [setAttribute_eq]
      split
      · exact hupdate
      · exact hupdate

/-- A new element collects what is written in it, unless it is left out. -/
theorem text?_openFrame (config : Config) (b : Builder) (name : String)
    (attributes : Markup.Attributes) (srs : Option String) :
    (b.openFrame config (Markup.localName name) attributes srs).2.text? =
      Written.text? { name, attributes } := by
  rw [Written.text?]
  unfold openFrame
  cases Element.ofTag (Markup.localName name) attributes with
  | object kind => dsimp only; split <;> rfl
  | geometryProperty lod => dsimp only; split <;> rfl
  | implicitProperty lod => dsimp only; split <;> rfl
  | boundary role => dsimp only; split <;> rfl
  | relativeGeometry => dsimp only; split <;> rfl
  | _ => rfl

/-! ### Events -/

theorem collects_openElement {written : List Written} (h : Collects written b.stack)
    (config : Config) (name : String) (attributes : Markup.Attributes) :
    Collects ({ name, attributes } :: written) (b.openElement config name attributes).stack := by
  rw [openElement_eq]
  split
  · next hskip => exact .cons (if_pos hskip).symm h
  · next hskip =>
    have henter (m : Builder) (srs : Option String) (hm : m.stack = b.stack) :
        Collects ({ name, attributes } :: written) (m.enter config name attributes srs).stack := by
      have hchanged :=
        (m.openFrame_undisturbed config (Markup.localName name) attributes srs).sameText
      rw [hm] at hchanged
      refine .cons ?_ (h.changed hchanged)
      rw [hchanged.isSkipped_same]
      exact (m.text?_openFrame ..).trans (if_neg hskip).symm
    split
    · exact henter _ _ rfl
    · exact henter _ _ rfl

theorem collects_addText {written : List Written} (h : Collects written b.stack)
    (content : String) :
    Collects (writtenAfter written (.text content)) (b.addText content).stack := by
  let append (t : TextParts) : TextParts := { t with content := t.content ++ content }
  have hframe (f : Frame) : (f.takeText content).text? = f.text?.map append := by
    cases f <;> rfl
  have hwritten (w : Written) :
      Written.text? { w with content := w.content ++ content } = w.text?.map append := by
    rw [Written.text?, Written.text?]
    cases Element.ofTag (Markup.localName w.name) w.attributes <;> rfl
  rw [addText]
  cases hs : b.stack with
  | nil =>
    rw [hs] at h
    cases h
    rw [hs]
    exact .nil
  | cons e outer =>
    rw [hs] at h
    cases h with
    | cons htext houter =>
      refine .cons ?_ houter
      rw [hframe, hwritten, htext]
      split <;> rfl

/-- **Open elements go on collecting what is written in them.** -/
theorem collects_apply {written : List Written} {e : Event} (h : Collects written b.stack)
    (he : b.apply config e = .ok b') : Collects (writtenAfter written e) b'.stack := by
  cases e with
  | offset bytes =>
    obtain rfl := Except.ok.inj he
    exact h
  | text content =>
    obtain rfl := eq_of_apply_text he
    exact collects_addText h content
  | opened name attributes =>
    obtain rfl := eq_of_apply_opened he
    exact collects_openElement h config name attributes
  | closed name =>
    obtain ⟨e, outer, hs, -, hclose⟩ := exists_of_apply_closed he
    rw [hs] at h
    cases h with
    | cons _ houter => exact houter.changed (closeFrame_sameText hclose)

/-- The setting that an event gives the object at a height, told by what is written. -/
def stated? (written : List Written) (b : Builder) (e : Event) (height : Nat) : Option Setting :=
  match e, written, b.stack with
  | .closed _, w :: _, e :: outer =>
    if Stack.objectHeight? outer = some height then w.setting? outer e.frame else none
  | _, _, _ => none

theorem stated?_eq {written : List Written} (h : Collects written b.stack) (e : Event)
    (height : Nat) : b.stated? written e height = b.setting? e height := by
  cases e with
  | closed name =>
    unfold stated? setting?
    cases hs : b.stack with
    | nil => rw [hs] at h; cases h; rfl
    | cons e outer =>
      rw [hs] at h
      cases written with
      | nil => cases h
      | cons w written =>
        dsimp only
        rw [Frame.given?, h.setting?_eq]
  | _ => rfl

end Builder

end CityScene.Document
