import CityScene.Proofs.Document.Runs

/-!
# Elements left out

An element is left out with everything in it if its kind or its level of detail is not asked for, or
if it is of a sort that is never read.  Opening it changes nothing but the open elements
(`openFrame_of_isSkipped`), and neither does anything inside it (`apply_of_isSkipped`).

So it makes no difference whether such elements are in the document at all.  `Builder.retained` are
the events without the outermost of them, which are found by reading on.  Only where the tag names a
reference system the element stays, with all that is in it, since the name is registered.  `Omits`
relates the run through all events to the one through those that are retained, from which
`readEvents_retained` follows: the outcome is the same, and nothing remains that could be deleted.
-/

namespace CityScene.Document

namespace Builder

/-! ### Inside an element left out -/

/-- An element that is left out does nothing when it is opened. -/
theorem openFrame_of_isSkipped {config : Config} {b : Builder} {name : String}
    {attributes : Markup.Attributes} {srs : Option String}
    (h : (b.openFrame config name attributes srs).2.isSkipped = true) :
    b.openFrame config name attributes srs = (b, .skipped) := by
  unfold openFrame at h ⊢
  cases htag : Element.ofTag name attributes with
  | object kind =>
    simp only [htag] at h ⊢
    split
    · next hkind => rw [if_pos hkind] at h; cases h
    · rfl
  | geometryProperty lod =>
    simp only [htag] at h ⊢
    split
    · next hlod => rw [if_pos hlod] at h; cases h
    · rfl
  | implicitProperty lod =>
    simp only [htag] at h ⊢
    split
    · next hlod => rw [if_pos hlod] at h; cases h
    · rfl
  | curveProperty => rfl
  | boundary role =>
    simp only [htag] at h
    split at h <;> cases h
  | relativeGeometry =>
    simp only [htag] at h
    split at h <;> cases h
  | _ => simp only [htag] at h; cases h

theorem exists_of_isSkipped {b : Builder} (h : b.stack.head?.any (·.frame.isSkipped) = true) :
    ∃ top outer, b.stack = top :: outer ∧ top.frame = .skipped := by
  cases hstack : b.stack with
  | nil => rw [hstack] at h; cases h
  | cons top outer =>
    refine ⟨top, outer, rfl, ?_⟩
    rw [hstack, List.head?_cons, Option.any_some] at h
    cases hframe : top.frame with
    | skipped => rfl
    | _ => rw [hframe] at h; cases h

/-- The state after an event that is passed over. -/
def passOver (b : Builder) : Event → Builder
  | .opened name _ => { b with stack := ⟨name, b.stack.srs?, .skipped⟩ :: b.stack }
  | .closed _ => { b with stack := b.stack.tail }
  | .text _ => b
  | .offset bytes => { b with offset := some bytes }

/-- Inside an element that is left out all events are passed over. -/
theorem apply_of_isSkipped {config : Config} {b b' : Builder} {e : Event} {top : OpenElement}
    {outer : Stack} (hstack : b.stack = top :: outer) (htop : top.frame = .skipped)
    (h : b.apply config e = .ok b') : b' = b.passOver e := by
  cases e with
  | offset bytes => exact (Except.ok.inj h).symm
  | opened name attributes =>
    rw [apply] at h
    split at h
    · cases h
    · have hskipped : b.stack.head?.any (·.frame.isSkipped) = true := by
        rw [hstack, List.head?_cons, Option.any_some, htop]
        rfl
      rw [← Except.ok.inj h, openElement, if_pos hskipped, passOver]
  | text content =>
    rw [apply] at h
    split at h
    · cases h
    · have htext : top.frame.takeText content = top.frame := by rw [htop]; rfl
      rw [← Except.ok.inj h, addText, hstack]
      dsimp only
      rw [htext, ← hstack]
      rfl
  | closed name =>
    rw [apply] at h
    split at h
    · cases h
    · obtain ⟨e, rest, hopen, -, hframe⟩ := exists_of_closeElement h
      obtain ⟨rfl, rfl⟩ := List.cons.inj (hstack.symm.trans hopen)
      rw [htop] at hframe
      rw [← Except.ok.inj hframe, passOver, hstack]
      rfl

/-- There a closing tag has nothing to fit, so every event is accepted that goes on with the
nesting. -/
theorem apply_eq_passOver {config : Config} {b : Builder} {e : Event} {top : OpenElement}
    {outer : Stack} (hstack : b.stack = top :: outer) (htop : top.frame = .skipped)
    (hactive : b.isAborted = false) (hnest : (nest b.names e).isSome = true) :
    b.apply config e = .ok (b.passOver e) := by
  have hfits : b.Fits := by
    intro e' o grid he ho
    rw [hstack] at he
    obtain rfl := Option.some.inj he
    rw [htop] at ho
    cases ho
  have hfor : b.FitsFor e := by
    cases e with
    | closed name => exact hfits
    | _ => trivial
  obtain ⟨b', h⟩ : ∃ b', b.apply config e = .ok b' :=
    exists_apply_iff.2 fun _ => ⟨hactive, hnest, hfor⟩
  rw [h, apply_of_isSkipped hstack htop h]

/-- Complete elements change nothing there. -/
theorem applyAll_of_isSkipped (config : Config) {events : List Event} (hevents : WellNested events)
    {b : Builder} {top : OpenElement} {outer : Stack} (hstack : b.stack = top :: outer)
    (htop : top.frame = .skipped) (hactive : b.isAborted = false) :
    ∃ offset, b.applyAll config events = .ok { b with offset } := by
  induction hevents generalizing b top outer with
  | nil => exact ⟨b.offset, rfl⟩
  | text content _ ih =>
    rw [applyAll_cons_of_ok (apply_eq_passOver hstack htop hactive rfl)]
    exact ih hstack htop hactive
  | offset bytes _ ih =>
    rw [applyAll_cons_of_ok (apply_eq_passOver hstack htop hactive rfl)]
    exact ih (b := b.passOver (.offset bytes)) hstack htop hactive
  | @element name attributes _ _ _ _ ihinside ihrest =>
    rw [applyAll_cons_of_ok (apply_eq_passOver hstack htop hactive rfl)]
    obtain ⟨offset, hinside⟩ := ihinside (b := b.passOver (.opened name attributes)) rfl rfl hactive
    let inner : Builder := { b.passOver (.opened name attributes) with offset }
    have hclose : inner.apply config (.closed name) = .ok (inner.passOver (.closed name)) :=
      apply_eq_passOver rfl rfl hactive (isSome_nest_closed_iff.2 rfl)
    rw [applyAll_append_of_ok hinside, applyAll_cons_of_ok hclose]
    exact ihrest (b := { b with offset }) hstack htop hactive

/-! ### Deleting elements left out -/

/-- The tag opens an element that is left out, while the one around it is not.  It names no
reference system. -/
def beginsOmission (config : Config) (b : Builder) : Event → Bool
  | .opened name attributes =>
    !b.stack.head?.any (·.frame.isSkipped) && (attributes.value? "srsName").isNone &&
      (b.openElement config name attributes).stack.head?.any (·.frame.isSkipped)
  | _ => false

/-- How many elements are open after an event, of one left out and those inside it. -/
def omittedAfter (n : Nat) : Event → Nat
  | .opened _ _ => n + 1
  | .closed _ => n - 1
  | .text _ | .offset _ => n

/-- What is left of a sequence of events when every element that begins an omission is deleted, with
all that is in it.  Of an element that is being deleted, `n` elements are open. -/
def retained (config : Config) (b : Builder) (n : Nat) : List Event → List Event
  | [] => []
  | e :: events =>
    let after := (b.feed config e).1
    if n ≠ 0 then after.retained config (omittedAfter n e) events
    else if b.beginsOmission config e then after.retained config 1 events
    else e :: after.retained config 0 events

/-- No element that the events open begins an omission. -/
def omitsNone (config : Config) (b : Builder) : List Event → Bool
  | [] => true
  | e :: events => !b.beginsOmission config e && (b.feed config e).1.omitsNone config events

theorem beginsOmission_offset (config : Config) (b : Builder) (offset : Option Nat) (e : Event) :
    { b with offset }.beginsOmission config e = b.beginsOmission config e := by
  cases e with
  | opened name attributes =>
    have hb : (Comparison.same config).Alike {} none b { b with offset } :=
      Comparison.Alike.same_refl b offset
    have hopened : (openElement config { b with offset } name attributes).stack.head?.any
          (·.frame.isSkipped) =
        (openElement config b name attributes).stack.head?.any (·.frame.isSkipped) :=
      (hb.openElement name attributes).stack.isSkipped_eq
    rw [beginsOmission, beginsOmission, hopened]
  | _ => rfl

/-- Beginning an omission changes nothing but the open elements. -/
theorem apply_of_beginsOmission {config : Config} {b b' : Builder} {e : Event}
    (he : b.beginsOmission config e = true) (h : b.apply config e = .ok b') :
    ∃ name, b' = { b with stack := ⟨name, b.stack.srs?, .skipped⟩ :: b.stack } := by
  cases e with
  | opened name attributes =>
    rw [beginsOmission, Bool.and_eq_true, Bool.and_eq_true, Bool.not_eq_true',
      Option.isNone_iff_eq_none] at he
    obtain ⟨⟨houter, hsystem⟩, hopened⟩ := he
    have hopen : b.openElement config name attributes =
        b.enter config name attributes b.stack.srs? := by
      rw [openElement_eq, houter, hsystem]
      rfl
    rw [hopen] at hopened
    have hskipped := openFrame_of_isSkipped hopened
    rw [apply] at h
    split at h
    · cases h
    · refine ⟨name, ?_⟩
      rw [← Except.ok.inj h, hopen, enter, hskipped]
  | _ => cases he

end Builder

/-! ### The run without them -/

/-- Besides what the second state has open, the first has `n` elements open that are left out.
Otherwise only the offset differs. -/
def Omits (n : Nat) (b b' : Builder) : Prop :=
  ∃ left : Stack, left.length = n ∧ (∀ e ∈ left, e.frame = .skipped) ∧
    ∃ offset, b = { b' with stack := left ++ b'.stack, offset }

namespace Omits

variable {config : Config} {n : Nat} {b b' m : Builder} {e : Event}

theorem refl (b : Builder) : Omits 0 b b :=
  ⟨[], rfl, List.forall_mem_nil _, b.offset, rfl⟩

/-- What is in an element left out is not missed. -/
theorem inside (h : Omits (n + 1) b b') (happly : b.apply config e = .ok m) :
    Omits (Builder.omittedAfter (n + 1) e) m b' := by
  obtain ⟨left, hlength, hleft, offset, rfl⟩ := h
  cases left with
  | nil => cases hlength
  | cons top left =>
    have htop : top.frame = .skipped := hleft top List.mem_cons_self
    obtain rfl := Builder.apply_of_isSkipped rfl htop happly
    cases e with
    | opened name attributes =>
      refine ⟨⟨name, top.srs, .skipped⟩ :: top :: left, congrArg (· + 1) hlength, fun e he => ?_,
        offset, rfl⟩
      rcases List.mem_cons.1 he with rfl | he
      · rfl
      · exact hleft e he
    | closed name =>
      exact ⟨left, Nat.succ.inj hlength, fun e he => hleft e (List.mem_cons_of_mem _ he), offset,
        rfl⟩
    | text content => exact ⟨top :: left, hlength, hleft, offset, rfl⟩
    | offset bytes => exact ⟨top :: left, hlength, hleft, some bytes, rfl⟩

/-- Neither is the tag that begins it. -/
theorem begins (h : Omits 0 b b') (he : b.beginsOmission config e = true)
    (happly : b.apply config e = .ok m) : Omits 1 m b' := by
  obtain ⟨left, hlength, -, offset, rfl⟩ := h
  obtain rfl := List.length_eq_zero_iff.1 hlength
  obtain ⟨name, rfl⟩ := Builder.apply_of_beginsOmission he happly
  exact ⟨[_], rfl, fun e he => by rw [List.mem_singleton.1 he], offset, rfl⟩

/-- Any other event does the same in both runs. -/
theorem outside (h : Omits 0 b b') (he : ¬ b.beginsOmission config e = true)
    (happly : b.apply config e = .ok m) :
    ∃ m', b'.apply config e = .ok m' ∧ b'.beginsOmission config e = false ∧ Omits 0 m m' := by
  obtain ⟨left, hlength, -, offset, rfl⟩ := h
  obtain rfl := List.length_eq_zero_iff.1 hlength
  obtain ⟨offset', happly'⟩ := Comparison.apply_offset b'.offset happly
  refine ⟨_, happly', ?_, [], rfl, List.forall_mem_nil _, m.offset, rfl⟩
  rw [← Builder.beginsOmission_offset config b' offset]
  exact Bool.eq_false_iff.2 he

/-- **The run through all events and that through the retained ones stay together**, and in the
second nothing more is left out. -/
theorem applyAll {events : List Event} (h : Omits n b b')
    (happly : b.applyAll config events = .ok m) :
    ∃ k m', b'.applyAll config (b.retained config n events) = .ok m' ∧ Omits k m m' ∧
      b'.omitsNone config (b.retained config n events) = true := by
  induction events generalizing n b b' with
  | nil =>
    obtain rfl := Except.ok.inj happly
    exact ⟨n, b', rfl, h, rfl⟩
  | cons e events ih =>
    obtain ⟨a, he, hrest⟩ := Builder.applyAll_cons_eq_ok happly
    rw [Builder.retained, Builder.feed_of_ok he]
    dsimp only
    cases n with
    | succ n =>
      rw [if_pos (Nat.succ_ne_zero n)]
      exact ih (h.inside he) hrest
    | zero =>
      rw [if_neg (by simp)]
      split
      · next hbegins => exact ih (h.begins hbegins he) hrest
      · next hbegins =>
        obtain ⟨a', he', hkeeps, ha⟩ := h.outside hbegins he
        obtain ⟨k, m', hm', hm, hnone⟩ := ih ha hrest
        refine ⟨k, m', (Builder.applyAll_cons_of_ok he').trans hm', hm, ?_⟩
        rw [Builder.omitsNone, hkeeps, Builder.feed_of_ok he', hnone]
        rfl

end Omits

/-- **Leaving elements out is deleting them.**  If a document is read, so is the one in which every
element is deleted that is left out, is not inside another one, and does not name a reference system
in its tag.  The outcome is the same, and no such element remains. -/
theorem readEvents_retained {config : Config} {events : List Event} {outcome : Outcome}
    (h : readEvents config events = .ok outcome) :
    let retained := (Builder.start config).retained config 0 events
    readEvents config retained = .ok outcome ∧
      (Builder.start config).omitsNone config retained = true := by
  intro retained
  obtain ⟨b, hb, hstack, rfl⟩ := Builder.exists_of_readEvents_eq_ok h
  obtain ⟨k, b', hb', ⟨left, -, -, offset, rfl⟩, hnone⟩ := (Omits.refl _).applyAll hb
  have hempty : b'.stack = [] := (List.append_eq_nil_iff.1 hstack).2
  refine ⟨?_, hnone⟩
  rw [Builder.readEvents_of_applyAll hb' hempty]
  rfl

/-- A building with two rooms without identifiers.  The first is in a property for a level of detail
that may not be asked for, with a position that cannot be read. -/
def roomInProperty : List Event :=
  [.opened "bldg:Building" [("gml:id", "B")],
   .opened "bldg:lod4MultiSurface" [],
   .opened "bldg:Room" [],
   .opened "gml:pos" [("srsName", "EPSG:25832")], .text "here", .closed "gml:pos",
   .closed "bldg:Room",
   .closed "bldg:lod4MultiSurface",
   .opened "bldg:Room" [], .closed "bldg:Room",
   .closed "bldg:Building"]

theorem readEvents_roomInProperty :
    let config : Config := { lods := .between 0 3 }
    let retained : List Event :=
      [.opened "bldg:Building" [("gml:id", "B")],
       .opened "bldg:Room" [], .closed "bldg:Room",
       .closed "bldg:Building"]
    (Builder.start config).retained config 0 roomInProperty = retained ∧
      ∃ outcome, readEvents config roomInProperty = .ok outcome ∧
        readEvents config retained = .ok outcome ∧
        (Builder.start config).omitsNone config retained = true := by
  intro config retained
  have hretained : (Builder.start config).retained config 0 roomInProperty = retained := by
    decide +kernel
  obtain ⟨outcome, h⟩ := exists_readEvents_of_gridless config
    (nestAll_eq_nil_iff.1 (by decide) : WellNested roomInProperty) (by decide)
  refine ⟨hretained, outcome, h, ?_⟩
  rw [← hretained]
  exact readEvents_retained h

end CityScene.Document
