import CityScene.Proofs.Document.Frames
import CityScene.Proofs.Document.Omission

/-!
# Polygons that are rejected

A polygon that is not added to the geometry around it has been reported as invalid, when one of
its rings was refused or when it closed.  And it costs nothing but itself: without the whole
element, the document gives the same model and the same reports but for those on the polygon
(`readEvents_rejected`).

That a report was made is seen from the flag of the polygon.  It is set only where a ring is
refused, which is reported (`Flagged`), so a flagged polygon has a report that goes back to no
earlier than its opening (`WellNested.flags`).

That nothing else is left behind is shown for polygons with rings and positions in them, or elements
without a meaning, but nothing else.  Such events stay within the polygon (`WellNested.within`): as
long as it is open, nothing changes but the polygon, what is open inside it, and the reports.  So
rejecting it leaves the state before it, with more reports (`Builder.eq_of_rejected`), and from
there on the reports make no difference (`Comparison.applyAll_diagnostics`).
-/

namespace CityScene.Document

/-! ### The geometry around an element -/

/-- The geometry that is being read, if the frame is that of its property. -/
def Frame.geometryParts? : Frame → Option GeometryParts
  | geometry parts => some parts
  | _ => none

namespace Stack

variable {s : Stack} {g : GeometryParts}

/-- The geometry that an element belongs to which is opened here, the innermost of the innermost
object.  What is left out belongs to none. -/
def geometryAround? (s : Stack) : Option GeometryParts :=
  s.nearest? (fun f => f.isObject || f.isSkipped) Frame.geometryParts?

/-- The geometry that elements belong to is the one that they change. -/
theorem geometryAround?_updateGeometry (h : s.geometryAround? = some g)
    (change : GeometryParts → GeometryParts) :
    (s.updateGeometry change).geometryAround? = some (change g) := by
  induction s with
  | nil => cases h
  | cons e outer ih =>
    obtain ⟨name, srs, frame⟩ := e
    cases frame with
    | geometry parts => exact congrArg (fun g => some (change g)) (Option.some.inj h)
    | object | skipped => cases h
    | _ => exact ih h

/-- A change that does nothing to it does nothing at all. -/
theorem updateGeometry_eq_self (h : s.geometryAround? = some g)
    {change : GeometryParts → GeometryParts} (hchange : change g = g) :
    s.updateGeometry change = s := by
  induction s with
  | nil => rfl
  | cons e outer ih =>
    obtain ⟨name, srs, frame⟩ := e
    cases frame with
    | geometry parts =>
      obtain rfl : parts = g := Option.some.inj h
      exact congrArg (fun g => OpenElement.mk name srs (.geometry g) :: outer) hchange
    | object | skipped => cases h
    | _ => exact congrArg (_ :: ·) (ih h)

theorem geometryAround?_of_skipped {e : OpenElement} (he : e.frame = .skipped) (outer : Stack) :
    geometryAround? (e :: outer) = none := by
  rw [geometryAround?, nearest?, he]
  rfl

/-- A polygon and the element around it belong to the same geometry. -/
theorem geometryAround?_of_polygon {e : OpenElement} {p : PolygonParts}
    (he : e.frame = .polygon p) (outer : Stack) :
    geometryAround? (e :: outer) = geometryAround? outer := by
  rw [geometryAround?, nearest?, he]
  rfl

end Stack

namespace Builder

variable {config : Config} {b : Builder} {g : GeometryParts}

/-- **A polygon is added, or flagged, or reported as it closes.** -/
theorem closePolygon_of_rejected {p : PolygonParts} (hg : b.stack.geometryAround? = some g)
    (hrejected : (b.closePolygon config p).stack.geometryAround? = some g) :
    ∃ reports, b.closePolygon config p = { b with diagnostics := b.diagnostics ++ reports } ∧
      (p.isInvalid = true ∨ ∃ d ∈ reports, d.kind = .invalidRing) := by
  rw [closePolygon] at hrejected ⊢
  split
  · next hinvalid => exact ⟨[], by rw [List.append_nil], .inl hinvalid⟩
  · next hvalid =>
    rw [if_neg hvalid] at hrejected
    cases hexterior : p.exterior with
    | none => exact ⟨_, rfl, .inr ⟨_, List.mem_singleton_self _, rfl⟩⟩
    | some exterior =>
      -- the geometry would have one polygon more
      rw [hexterior] at hrejected
      let polygon := config.meshed { id := p.id, exterior, interiors := p.interiors }
      have hstack : (b.reportMesh polygon).stack = b.stack := by
        rw [reportMesh]
        split <;> rfl
      have hadded := Stack.geometryAround?_updateGeometry hg
        fun g => { g with polygons := g.polygons ++ [polygon] }
      rw [← hstack] at hadded
      have hsame := congrArg GeometryParts.polygons (Option.some.inj (hadded.symm.trans hrejected))
      exact absurd (congrArg List.length hsame) (by simp)

end Builder

/-! ### Flags -/

/-- A polygon stays a polygon, and it is flagged only where one of the reports is on a ring. -/
def Flagged (reports : List Diagnostic) (f f' : Frame) : Prop :=
  ∀ p, f = .polygon p → ∃ p', f' = .polygon p' ∧
    (p'.isInvalid = true → p.isInvalid = true ∨ ∃ d ∈ reports, d.kind = .invalidRing)

namespace Flagged

theorem refl (reports : List Diagnostic) (f : Frame) : Flagged reports f f :=
  fun p hp => ⟨p, hp, .inl⟩

theorem trans {l l' : List Diagnostic} {f g k : Frame} (h : Flagged l f g) (h' : Flagged l' g k) :
    Flagged (l ++ l') f k := by
  intro p hp
  obtain ⟨q, hq, hflag⟩ := h p hp
  obtain ⟨r, hr, hflag'⟩ := h' q hq
  refine ⟨r, hr, fun hinvalid => ?_⟩
  rcases hflag' hinvalid with hinvalid | ⟨d, hd, hkind⟩
  · refine (hflag hinvalid).imp_right fun ⟨d, hd, hkind⟩ => ?_
    exact ⟨d, List.mem_append_left l' hd, hkind⟩
  · exact .inr ⟨d, List.mem_append_right l hd, hkind⟩

theorem of_noted {f f' : Frame} (h : Noted f f') : Flagged [] f f' := by
  rintro p rfl
  cases h with
  | nothing => exact ⟨p, rfl, .inl⟩
  | other hf _ => cases hf

theorem of_handed {config : Config} {b : Builder} {srs : Option String}
    {reports : List Diagnostic} {source f f' : Frame}
    (h : Handed config b srs reports source f f') : Flagged reports f f' := by
  rintro p rfl
  cases h with
  | nothing => exact ⟨p, rfl, .inl⟩
  | boundary role ring p =>
    refine ⟨_, rfl, fun hinvalid => .inl ?_⟩
    cases role <;> exact hinvalid
  | refusal r p hreports => exact ⟨_, rfl, fun _ => .inr hreports⟩
  | other _ hf _ => cases hf

theorem takeText (f : Frame) (content : String) : Flagged [] f (f.takeText content) := by
  rintro p rfl
  exact ⟨p, rfl, .inl⟩

end Flagged

/-- Reports have been added, and polygons flagged only by these. -/
def Builder.Flags (b b' : Builder) : Prop :=
  ∃ reports, b'.diagnostics = b.diagnostics ++ reports ∧
    b.stack.Changed (Flagged reports) b'.stack

namespace Builder.Flags

variable {config : Config} {b m b' : Builder}

theorem refl (b : Builder) : b.Flags b :=
  ⟨[], (List.append_nil _).symm, .refl (.refl []) b.stack⟩

theorem trans (h : b.Flags m) (h' : m.Flags b') : b.Flags b' := by
  obtain ⟨reports, hdiagnostics, hstack⟩ := h
  obtain ⟨reports', hdiagnostics', hstack'⟩ := h'
  refine ⟨reports ++ reports', ?_, hstack.trans hstack' Flagged.trans⟩
  rw [hdiagnostics', hdiagnostics, List.append_assoc]

theorem addText (b : Builder) (content : String) : b.Flags (b.addText content) := by
  rw [Builder.addText]
  split
  · exact .refl b
  · next e outer hs =>
    refine ⟨[], (List.append_nil _).symm, ?_⟩
    rw [hs]
    exact .cons ⟨rfl, rfl, .takeText e.frame content⟩ (Stack.Changed.refl (.refl []) outer)

/-- An element flags polygons further out if what is inside it does, or if it does so itself. -/
theorem element {name : String} {attributes : Markup.Attributes} {inner : Builder}
    (hinside : (b.openElement config name attributes).Flags inner)
    (hclose : inner.apply config (.closed name) = .ok b') : b.Flags b' := by
  obtain ⟨e, outer, hopened, -, -, hnoted, hdiagnostics, -⟩ :=
    b.openElement_changed config name attributes
  obtain ⟨reports, hreports, hstack⟩ := hinside
  obtain ⟨e', outer', hinner, -, hframe⟩ := exists_of_apply_closed hclose
  obtain ⟨reports', hreports', hhanded, -⟩ := closeFrame_hands hframe
  rw [hopened, hinner] at hstack
  cases hstack with
  | cons _ houter =>
    have hinside : b.stack.Changed (Flagged reports) outer' :=
      hnoted.trans houter fun h h' => (Flagged.of_noted h).trans h'
    refine ⟨reports ++ reports', ?_, hinside.trans hhanded fun h h' => h.trans (.of_handed h')⟩
    rw [hreports', hreports, hdiagnostics, List.append_assoc]

end Builder.Flags

/-- **What is flagged has been reported.** -/
theorem WellNested.flags {config : Config} {events : List Event} (hevents : WellNested events)
    {b b' : Builder} (h : b.applyAll config events = .ok b') : b.Flags b' := by
  induction hevents generalizing b b' with
  | nil =>
    obtain rfl := Except.ok.inj h
    exact .refl b
  | text content _ ih =>
    obtain ⟨m, he, hrest⟩ := Builder.applyAll_cons_eq_ok h
    obtain rfl := Builder.eq_of_apply_text he
    exact (Builder.Flags.addText b content).trans (ih hrest)
  | offset bytes _ ih =>
    obtain ⟨m, he, hrest⟩ := Builder.applyAll_cons_eq_ok h
    obtain rfl := Except.ok.inj he
    have hflags := ih hrest
    exact hflags
  | element name attributes _ _ ihinside ihrest =>
    obtain ⟨opened, hopen, h⟩ := Builder.applyAll_cons_eq_ok h
    obtain rfl := Builder.eq_of_apply_opened hopen
    obtain ⟨inner, hinner, h⟩ := Builder.applyAll_append_eq_ok h
    obtain ⟨closed, hclose, hrest⟩ := Builder.applyAll_cons_eq_ok h
    exact (Builder.Flags.element (ihinside hinner) hclose).trans (ihrest hrest)

/-! ### Reports on a polygon -/

namespace Builder

variable {config : Config} {b m closed : Builder} {name : String} {attributes : Markup.Attributes}
  {inside : List Event} {g : GeometryParts}

/-- Polygons begin without a flag, unless they are left out. -/
theorem openElement_polygon (config : Config) (b : Builder)
    (hpolygon : Element.ofTag (Markup.localName name) attributes = .polygon) :
    ∃ e outer, (b.openElement config name attributes).stack = e :: outer ∧
      (e.frame = .skipped ∨ e.frame = .polygon { id := attributes.value? "id" }) := by
  have hframe (m : Builder) (srs : Option String) :
      (m.openFrame config (Markup.localName name) attributes srs).2 =
        .polygon { id := attributes.value? "id" } := by
    unfold openFrame
    rw [hpolygon]
  rw [openElement_eq]
  split
  · exact ⟨_, _, rfl, .inl rfl⟩
  · split
    · exact ⟨_, _, rfl, .inr (hframe _ _)⟩
    · exact ⟨_, _, rfl, .inr (hframe _ _)⟩

/-- The polygon is still open after what is inside it. -/
theorem exists_polygon_of_inside
    (hpolygon : Element.ofTag (Markup.localName name) attributes = .polygon)
    (hinside : WellNested inside)
    (hopen : b.applyAll config (.opened name attributes :: inside) = .ok m)
    (hg : m.stack.geometryAround? = some g) :
    ∃ reports e outer p, m.diagnostics = b.diagnostics ++ reports ∧ m.stack = e :: outer ∧
      e.frame = .polygon p ∧ Stack.geometryAround? outer = some g ∧
      (p.isInvalid = true → ∃ d ∈ reports, d.kind = .invalidRing) := by
  obtain ⟨opened, hopened, hinner⟩ := applyAll_cons_eq_ok hopen
  obtain rfl := eq_of_apply_opened hopened
  obtain ⟨e, outer, hstack, hframe⟩ := openElement_polygon config b hpolygon
  obtain ⟨-, -, -, -, -, -, hdiagnostics, -⟩ := b.openElement_changed config name attributes
  rcases hframe with hskipped | hframe
  · -- what is left out belongs to no geometry
    have hactive : (b.openElement config name attributes).isAborted = false :=
      (step_of_apply hopened).isAborted_eq.trans (isAborted_of_apply rfl hopened)
    obtain ⟨offset, hskip⟩ := applyAll_of_isSkipped config hinside hstack hskipped hactive
    obtain rfl := Except.ok.inj (hinner.symm.trans hskip)
    have hnone : (b.openElement config name attributes).stack.geometryAround? = none := by
      rw [hstack]
      exact Stack.geometryAround?_of_skipped hskipped outer
    cases hnone.symm.trans hg
  · obtain ⟨reports, hreports, hchanged⟩ := hinside.flags hinner
    rw [hstack] at hchanged
    generalize hs : m.stack = s at hchanged hg
    cases hchanged with
    | @cons _ e' _ outer' he _ =>
      obtain ⟨p, hp, hflag⟩ := he.2.2 _ hframe
      refine ⟨reports, e', outer', p, hreports.trans (by rw [hdiagnostics]), rfl, hp, ?_, ?_⟩
      · rwa [Stack.geometryAround?_of_polygon hp] at hg
      · exact fun hinvalid => (hflag hinvalid).resolve_left nofun

/-- **No polygon is lost without a report.** -/
theorem reported_of_rejected
    (hpolygon : Element.ofTag (Markup.localName name) attributes = .polygon)
    (hinside : WellNested inside)
    (hopen : b.applyAll config (.opened name attributes :: inside) = .ok m)
    (hclose : m.apply config (.closed name) = .ok closed)
    (hg : m.stack.geometryAround? = some g) (hrejected : closed.stack.geometryAround? = some g) :
    ∃ reported, closed.diagnostics = b.diagnostics ++ reported ∧
      ∃ d ∈ reported, d.kind = .invalidRing := by
  obtain ⟨reports, e, outer, p, hreports, hstack, hp, houter, hflag⟩ :=
    exists_polygon_of_inside hpolygon hinside hopen hg
  obtain ⟨e', outer', hstack', -, hframe⟩ := exists_of_apply_closed hclose
  obtain ⟨rfl, rfl⟩ := List.cons.inj (hstack.symm.trans hstack')
  rw [hp] at hframe
  obtain rfl := Except.ok.inj hframe
  obtain ⟨last, hlast, hreported⟩ :=
    closePolygon_of_rejected (b := { m with stack := outer }) houter hrejected
  refine ⟨reports ++ last, ?_, ?_⟩
  · rw [hlast]
    show m.diagnostics ++ last = _
    rw [hreports, List.append_assoc]
  · rcases hreported with hinvalid | ⟨d, hd, hkind⟩
    · obtain ⟨d, hd, hkind⟩ := hflag hinvalid
      exact ⟨d, List.mem_append_left last hd, hkind⟩
    · exact ⟨d, List.mem_append_right reports hd, hkind⟩

end Builder

/-! ### What stays within a polygon -/

/-- Rings, what they stand in, positions, and elements without a meaning. -/
def Element.isPlain : Element → Bool
  | .boundary _ | .ring | .text (.positions _) | .unknown => true
  | _ => false

/-- Opening tags are those of such elements, without a reference system. -/
def Event.isPlain : Event → Bool
  | .opened name attributes =>
    (attributes.value? "srsName").isNone &&
      (Element.ofTag (Markup.localName name) attributes).isPlain
  | _ => true

/-- The frame of such an element. -/
def Frame.isPlain : Frame → Bool
  | .boundary _ _ | .ring _ | .transparent => true
  | .text t =>
    match t.element with
    | .positions _ => true
    | _ => false
  | _ => false

/-- A polygon is open inside the elements of `outer`, and `n` plain elements inside the polygon. -/
inductive Encloses (outer : Stack) : Nat → Stack → Prop
  | polygon {e : OpenElement} {p : PolygonParts} (he : e.frame = .polygon p) :
      Encloses outer 0 (e :: outer)
  | inside {n : Nat} {e : OpenElement} {s : Stack} (he : e.frame.isPlain = true)
      (hs : Encloses outer n s) : Encloses outer (n + 1) (e :: s)

namespace Encloses

variable {outer s : Stack} {n : Nat}

theorem updateOwner (h : Encloses outer n s) {change : Frame → Frame}
    (hplain : ∀ f, f.isPlain = true → (change f).isPlain = true)
    (hpolygon : ∀ p, ∃ q, change (.polygon p) = .polygon q) :
    Encloses outer n (s.updateOwner change) := by
  induction h with
  | @polygon e p he =>
    obtain ⟨q, hq⟩ := hpolygon p
    rw [Stack.updateOwner_of_not_isTransparent outer (by rw [he]; rfl)]
    exact .polygon (he ▸ hq)
  | @inside n e s he hs ih =>
    by_cases ht : e.frame.isTransparent = true
    · rw [Stack.updateOwner_of_isTransparent s ht]
      exact .inside he ih
    · rw [Stack.updateOwner_of_not_isTransparent s (by simpa using ht)]
      exact .inside (hplain _ he) hs

/-- No plain element is a polygon or hides one. -/
theorem updatePolygon (h : Encloses outer n s) (change : PolygonParts → PolygonParts) :
    Encloses outer n (s.updatePolygon change) := by
  induction h with
  | @polygon e p he =>
    obtain ⟨name, srs, frame⟩ := e
    obtain rfl : frame = .polygon p := he
    exact .polygon rfl
  | @inside n e s he hs ih =>
    obtain ⟨name, srs, frame⟩ := e
    cases frame with
    | boundary | ring | transparent | text => exact .inside he ih
    | _ => cases he

theorem isSkipped_head? (h : Encloses outer n s) :
    s.head?.any (·.frame.isSkipped) = false := by
  cases h with
  | polygon he => rw [List.head?_cons, Option.any_some, he]; rfl
  | @inside _ e _ he _ =>
    rw [List.head?_cons, Option.any_some]
    cases hframe : e.frame with
    | skipped => rw [hframe] at he; cases he
    | _ => rfl

end Encloses

/-- Nothing has changed but the open elements, the reports and the offset. -/
def Builder.Within (b b' : Builder) : Prop :=
  ∃ stack reports offset,
    b' = { b with stack, diagnostics := b.diagnostics ++ reports, offset }

namespace Builder.Within

variable {b m b' : Builder}

theorem stack (b : Builder) (stack : Stack) : b.Within { b with stack } :=
  ⟨stack, [], b.offset, by rw [List.append_nil]⟩

theorem report (b : Builder) (problem : Problem) (element : Option String) :
    b.Within (b.report problem element) :=
  ⟨b.stack, _, b.offset, rfl⟩

theorem trans (h : b.Within m) (h' : m.Within b') : b.Within b' := by
  obtain ⟨_, reports, _, rfl⟩ := h
  obtain ⟨stack, reports', offset, rfl⟩ := h'
  exact ⟨stack, reports ++ reports', offset, by rw [List.append_assoc]⟩

end Builder.Within

namespace Builder

variable {b : Builder} {outer : Stack} {n : Nat}

/-- A plain element begins with a plain frame, and opening it changes nothing else. -/
theorem openElement_of_isPlain (config : Config) {name : String} {attributes : Markup.Attributes}
    (he : (Event.opened name attributes).isPlain = true)
    (hskip : b.stack.head?.any (·.frame.isSkipped) = false) :
    ∃ e, e.frame.isPlain = true ∧
      b.openElement config name attributes = { b with stack := e :: b.stack } := by
  obtain ⟨hsystem, helement⟩ := Bool.and_eq_true_iff.1 he
  have hframe : ∃ f, f.isPlain = true ∧
      b.openFrame config (Markup.localName name) attributes b.stack.srs? = (b, f) := by
    unfold openFrame
    cases hkind : Element.ofTag (Markup.localName name) attributes with
    | boundary role =>
      dsimp only
      split
      · exact ⟨_, rfl, rfl⟩
      · exact ⟨_, rfl, rfl⟩
    | ring => exact ⟨_, rfl, rfl⟩
    | text element =>
      rw [hkind] at helement
      cases element with
      | positions kind => exact ⟨_, rfl, rfl⟩
      | _ => cases helement
    | unknown => exact ⟨_, rfl, rfl⟩
    | _ => rw [hkind] at helement; cases helement
  obtain ⟨f, hf, hopen⟩ := hframe
  exact ⟨⟨name, b.stack.srs?, f⟩, hf,
    openElement_of_openFrame hskip (Option.isNone_iff_eq_none.1 hsystem) hopen⟩

/-- Closing a plain element goes no further than the polygon. -/
theorem closeFrame_of_isPlain {config : Config} {b' : Builder} (hs : Encloses outer n b.stack)
    {srs : Option String} {f : Frame} (hf : f.isPlain = true)
    (h : b.closeFrame config srs f = .ok b') : Encloses outer n b'.stack ∧ b.Within b' := by
  have hnothing : Encloses outer n b.stack ∧ b.Within b := ⟨hs, .stack b b.stack⟩
  have howner (change : Frame → Frame)
      (hplain : ∀ f, f.isPlain = true → (change f).isPlain = true)
      (hpolygon : ∀ p, ∃ q, change (.polygon p) = .polygon q) :
      Encloses outer n (b.stack.updateOwner change) ∧
        b.Within { b with stack := b.stack.updateOwner change } :=
    ⟨hs.updateOwner hplain hpolygon, .stack b _⟩
  cases f with
  | transparent =>
    obtain rfl := Except.ok.inj h
    exact hnothing
  | boundary role ring =>
    obtain rfl := Except.ok.inj h
    cases ring with
    | none => exact hnothing
    | some ring =>
      refine howner _ (fun f hf => ?_) fun p => ⟨_, rfl⟩
      cases f <;> exact hf
  | ring r =>
    obtain rfl := Except.ok.inj h
    rw [closeRing]
    dsimp only
    split
    · refine howner _ (fun f hf => ?_) fun p => ⟨p, rfl⟩
      cases f <;> exact hf
    · exact ⟨hs.updatePolygon _, (Within.stack b _).trans (.report _ _ _)⟩
  | text t =>
    obtain rfl := Except.ok.inj h
    rw [closeText]
    cases ht : t.element with
    | positions kind =>
      dsimp only
      rw [closePositions]
      split
      · refine howner _ (fun f hf => ?_) fun p => ⟨p, rfl⟩
        cases f <;> first | exact hf | cases hf
      · obtain ⟨hstack, hwithin⟩ := howner Frame.missPoints
          (fun f hf => by cases f <;> exact hf) fun p => ⟨p, rfl⟩
        exact ⟨hstack, hwithin.trans (.report _ _ _)⟩
    | _ => rw [Frame.isPlain, ht] at hf; cases hf
  | _ => cases hf

/-- Character data goes to the innermost element, which stays what it is. -/
theorem addText_of_encloses (hs : Encloses outer n b.stack) (content : String) :
    Encloses outer n (b.addText content).stack ∧ b.Within (b.addText content) := by
  rw [addText]
  generalize hstack : b.stack = s at hs
  cases hs with
  | @polygon e p he =>
    refine ⟨.polygon (p := p) ?_, .stack b _⟩
    rw [he]
    rfl
  | @inside n e s he hs =>
    refine ⟨.inside ?_ hs, .stack b _⟩
    cases hframe : e.frame <;> rw [hframe] at he <;> exact he

end Builder

/-- **What is plain stays within its polygon.** -/
theorem WellNested.within {config : Config} {events : List Event} (hevents : WellNested events)
    (hplain : ∀ e ∈ events, e.isPlain = true) {outer : Stack} {n : Nat} {b b' : Builder}
    (hs : Encloses outer n b.stack) (h : b.applyAll config events = .ok b') :
    Encloses outer n b'.stack ∧ b.Within b' := by
  induction hevents generalizing n b b' with
  | nil =>
    obtain rfl := Except.ok.inj h
    exact ⟨hs, .stack b b.stack⟩
  | text content _ ih =>
    obtain ⟨m, he, hrest⟩ := Builder.applyAll_cons_eq_ok h
    obtain rfl := Builder.eq_of_apply_text he
    obtain ⟨hs, hwithin⟩ := Builder.addText_of_encloses hs content
    obtain ⟨hs', hwithin'⟩ := ih (List.forall_mem_cons.1 hplain).2 hs hrest
    exact ⟨hs', hwithin.trans hwithin'⟩
  | offset bytes _ ih =>
    obtain ⟨m, he, hrest⟩ := Builder.applyAll_cons_eq_ok h
    obtain rfl := Except.ok.inj he
    have hread : b.Within { b with offset := some bytes } :=
      ⟨b.stack, [], some bytes, by rw [List.append_nil]⟩
    obtain ⟨hs', hwithin⟩ :=
      ih (List.forall_mem_cons.1 hplain).2 (b := { b with offset := some bytes }) hs hrest
    exact ⟨hs', hread.trans hwithin⟩
  | element name attributes _ _ ihinside ihrest =>
    obtain ⟨hopened, hplain⟩ := List.forall_mem_cons.1 hplain
    obtain ⟨hinside, hplain⟩ := List.forall_mem_append.1 hplain
    obtain ⟨-, hrest⟩ := List.forall_mem_cons.1 hplain
    obtain ⟨opened, hopen, h⟩ := Builder.applyAll_cons_eq_ok h
    obtain rfl := Builder.eq_of_apply_opened hopen
    obtain ⟨inner, hinner, h⟩ := Builder.applyAll_append_eq_ok h
    obtain ⟨closed, hclose, h⟩ := Builder.applyAll_cons_eq_ok h
    obtain ⟨e, he, hopened⟩ := Builder.openElement_of_isPlain config hopened hs.isSkipped_head?
    rw [hopened] at hinner
    obtain ⟨hsinner, hwithin⟩ := ihinside hinside (b := { b with stack := e :: b.stack })
      (.inside he hs) hinner
    obtain ⟨e', outer', hstack, -, hframe⟩ := Builder.exists_of_apply_closed hclose
    rw [hstack] at hsinner
    cases hsinner with
    | inside he' hs' =>
      obtain ⟨hsclosed, hclosed⟩ :=
        Builder.closeFrame_of_isPlain (b := { inner with stack := outer' }) hs' he' hframe
      obtain ⟨hs', hrest⟩ := ihrest hrest hsclosed h
      exact ⟨hs', (((Builder.Within.stack b _).trans hwithin).trans (.stack inner _)).trans
        (hclosed.trans hrest)⟩

/-! ### Rejected polygons -/

/-- The geometry around an element opened here has noted what it would note of a polygon. -/
def Stack.hasNoted (s : Stack) : Bool :=
  s.geometryAround?.any fun g => g.kind.isSome && (g.srs.isSome || s.srs?.isNone)

theorem Stack.exists_of_hasNoted {s : Stack} (h : s.hasNoted = true) :
    ∃ g, s.geometryAround? = some g ∧ g.kind.isSome = true ∧
      (g.srs.isSome || s.srs?.isNone) = true := by
  rw [hasNoted] at h
  cases hg : s.geometryAround? with
  | none => rw [hg] at h; cases h
  | some g =>
    rw [hg, Option.any_some] at h
    exact ⟨g, rfl, Bool.and_eq_true_iff.1 h⟩

theorem GeometryParts.note_eq_self {g : GeometryParts} {kind : GeometryKind}
    {id srs : Option String} (hkind : g.kind.isSome = true)
    (hsrs : (g.srs.isSome || srs.isNone) = true) : g.note kind id srs = g := by
  obtain ⟨lod, system, isTemplate, noted, own, polygons⟩ := g
  cases noted with
  | none => cases hkind
  | some noted =>
    cases system with
    | some system => rfl
    | none =>
      obtain rfl : srs = none := Option.isNone_iff_eq_none.1 hsrs
      rfl

namespace Builder

variable {config : Config} {b m closed : Builder} {name : String} {attributes : Markup.Attributes}
  {inside : List Event} {g : GeometryParts}

/-- Where all has been noted, opening a polygon changes nothing but the open elements. -/
theorem openElement_of_hasNoted
    (hpolygon : Element.ofTag (Markup.localName name) attributes = .polygon)
    (hsystem : attributes.value? "srsName" = none) (hnoted : b.stack.hasNoted = true) :
    b.openElement config name attributes = { b with
      stack := ⟨name, b.stack.srs?, .polygon { id := attributes.value? "id" }⟩ :: b.stack } := by
  obtain ⟨g, hg, hkind, hsrs⟩ := Stack.exists_of_hasNoted hnoted
  have hskip : b.stack.head?.any (·.frame.isSkipped) = false := by
    refine Bool.eq_false_iff.2 fun hskip => ?_
    obtain ⟨top, outer, hstack, htop⟩ := exists_of_isSkipped hskip
    rw [hstack, Stack.geometryAround?_of_skipped htop] at hg
    cases hg
  have hnote : b.noteGeometry .polygon none b.stack.srs? = b := by
    rw [noteGeometry, Stack.updateGeometry_eq_self hg (GeometryParts.note_eq_self hkind hsrs)]
  have hopen : b.openFrame config (Markup.localName name) attributes b.stack.srs? =
      (b, .polygon { id := attributes.value? "id" }) := by
    unfold openFrame
    rw [hpolygon]
    dsimp only
    rw [hnote]
  exact openElement_of_openFrame hskip hsystem hopen

/-- **A rejected polygon leaves nothing but reports.** -/
theorem eq_of_rejected
    (hpolygon : Element.ofTag (Markup.localName name) attributes = .polygon)
    (hsystem : attributes.value? "srsName" = none) (hnoted : b.stack.hasNoted = true)
    (hinside : WellNested inside) (hplain : ∀ e ∈ inside, e.isPlain = true)
    (hopen : b.applyAll config (.opened name attributes :: inside) = .ok m)
    (hclose : m.apply config (.closed name) = .ok closed)
    (hg : m.stack.geometryAround? = some g) (hrejected : closed.stack.geometryAround? = some g) :
    ∃ reports offset, closed = { b with diagnostics := b.diagnostics ++ reports, offset } := by
  obtain ⟨opened, hopened, hinner⟩ := applyAll_cons_eq_ok hopen
  obtain rfl := eq_of_apply_opened hopened
  rw [openElement_of_hasNoted hpolygon hsystem hnoted] at hinner
  obtain ⟨hs, _, reports, offset, rfl⟩ := hinside.within hplain (.polygon rfl) hinner
  obtain ⟨e, outer, hstack, -, hframe⟩ := exists_of_apply_closed hclose
  cases hs with
  | @polygon _ p he =>
    obtain ⟨rfl, rfl⟩ := List.cons.inj hstack
    rw [he] at hframe
    obtain rfl := Except.ok.inj hframe
    have houter : b.stack.geometryAround? = some g := by
      rwa [Stack.geometryAround?_of_polygon he] at hg
    obtain ⟨last, hlast, -⟩ := closePolygon_of_rejected
      (b := { b with diagnostics := b.diagnostics ++ reports, offset }) houter hrejected
    exact ⟨reports ++ last, offset, hlast.trans (by rw [List.append_assoc])⟩

end Builder

/-! ### The run without them -/

/-- The reports so far do not matter for the rest of the outcome. -/
theorem Builder.complete_diagnostics (config : Config) (b : Builder) :
    ∃ last, ∀ diagnostics offset, { b with diagnostics, offset }.complete config =
      { b.complete config with diagnostics := diagnostics ++ last } := by
  refine ⟨({ b with diagnostics := [] }.complete config).diagnostics, fun diagnostics offset => ?_⟩
  rw [complete, complete, complete]
  dsimp only
  rw [List.append_assoc]
  rfl

/-- Where nothing is left of some events but reports, these are all that is missing without them. -/
theorem Builder.readEvents_of_reports {config : Config} {before after : List Event}
    {b final : Builder} {reported : List Diagnostic} {offset : Option Nat}
    (hbefore : (start config).applyAll config before = .ok b)
    (hafter : { b with diagnostics := b.diagnostics ++ reported, offset }.applyAll config after =
      .ok final)
    (hstack : final.stack = []) :
    ∃ outcome later, readEvents config (before ++ after) = .ok outcome ∧
      outcome.model = (final.complete config).model ∧
      outcome.unresolved = (final.complete config).unresolved ∧
      (final.complete config).diagnostics = b.diagnostics ++ reported ++ later ∧
      outcome.diagnostics = b.diagnostics ++ later := by
  obtain ⟨reports, offset', hreports, hrun⟩ :=
    Comparison.applyAll_diagnostics b.diagnostics b.offset hafter
  obtain ⟨last, hlast⟩ := complete_diagnostics config final
  have hfinal : final.complete config =
      { final.complete config with diagnostics := final.diagnostics ++ last } :=
    hlast final.diagnostics final.offset
  refine ⟨_, reports ++ last,
    readEvents_of_applyAll ((applyAll_append_of_ok hbefore).trans hrun) hstack, ?_⟩
  rw [hlast]
  refine ⟨rfl, rfl, ?_, List.append_assoc _ _ _⟩
  rw [hfinal]
  dsimp only
  rw [hreports, List.append_assoc]

/-- A polygon that is read here is rejected: it belongs to a geometry, and after its last tag that
is what it was before the tag. -/
def Builder.rejects (config : Config) (b : Builder) (name : String)
    (attributes : Markup.Attributes) (inside : List Event) : Prop :=
  let last := b.feedAll config (.opened name attributes :: inside)
  ∃ g, last.stack.geometryAround? = some g ∧
    (last.feed config (.closed name)).1.stack.geometryAround? = some g

/-- **A rejected polygon costs exactly itself.**  If a polygon in a document that is read is not
added to its geometry, a report is made on a ring, from its first tag to its last.  If furthermore
there is nothing in it but rings and positions, or elements without a meaning, if no tag names a
reference system, and if the geometry has noted a kind and, where there is one, a reference system,
then the document is also read without the whole polygon.  The model and the unresolved references
are the same, and no reports are missing but those on the polygon. -/
theorem readEvents_rejected {config : Config} {name : String} {attributes : Markup.Attributes}
    {before inside after : List Event} {outcome : Outcome}
    (hpolygon : Element.ofTag (Markup.localName name) attributes = .polygon)
    (hinside : WellNested inside)
    (hrejects : ((Builder.start config).feedAll config before).rejects config name attributes
      inside)
    (h : readEvents config
      (before ++ .opened name attributes :: (inside ++ .closed name :: after)) = .ok outcome) :
    let b := (Builder.start config).feedAll config before
    let closed := b.feedAll config (.opened name attributes :: (inside ++ [.closed name]))
    ∃ reported, closed.diagnostics = b.diagnostics ++ reported ∧
      (∃ d ∈ reported, d.kind = .invalidRing) ∧
      (attributes.value? "srsName" = none → (∀ e ∈ inside, e.isPlain = true) →
        b.stack.hasNoted = true →
        ∃ outcome' later, readEvents config (before ++ after) = .ok outcome' ∧
          outcome'.model = outcome.model ∧ outcome'.unresolved = outcome.unresolved ∧
          outcome.diagnostics = b.diagnostics ++ reported ++ later ∧
          outcome'.diagnostics = b.diagnostics ++ later) := by
  obtain ⟨final, hrun, hstack, rfl⟩ := Builder.exists_of_readEvents_eq_ok h
  obtain ⟨b, hbefore, hrun⟩ := Builder.applyAll_append_eq_ok hrun
  rw [← List.cons_append] at hrun
  obtain ⟨m, hopen, hrun⟩ := Builder.applyAll_append_eq_ok hrun
  obtain ⟨closed, hclose, hafter⟩ := Builder.applyAll_cons_eq_ok hrun
  have hpolygonrun : b.applyAll config
      (.opened name attributes :: (inside ++ [.closed name])) = .ok closed := by
    rw [← List.cons_append, Builder.applyAll_append_of_ok hopen,
      Builder.applyAll_cons_of_ok hclose]
    rfl
  rw [Builder.feedAll_of_applyAll hbefore] at hrejects ⊢
  obtain ⟨g, hg, hrejected⟩ := hrejects
  rw [Builder.feedAll_of_applyAll hopen] at hg hrejected
  rw [Builder.feed_of_ok hclose] at hrejected
  dsimp only
  rw [Builder.feedAll_of_applyAll hpolygonrun]
  obtain ⟨reported, hreported, hinvalid⟩ :=
    Builder.reported_of_rejected hpolygon hinside hopen hclose hg hrejected
  refine ⟨reported, hreported, hinvalid, fun hsystem hplain hnoted => ?_⟩
  obtain ⟨reports, offset, rfl⟩ :=
    Builder.eq_of_rejected hpolygon hsystem hnoted hinside hplain hopen hclose hg hrejected
  obtain rfl : reports = reported := List.append_cancel_left hreported
  exact Builder.readEvents_of_reports hbefore hafter hstack

/-- A building, a triangle with a hole of two points, and the rest of the document. -/
def puncturedTriangle : List Event × List Event × List Event :=
  ([.opened "bldg:Building" [("gml:id", "B")],
    .opened "bldg:lod1MultiSurface" [],
    .opened "gml:MultiSurface" [("srsName", "EPSG:25832")],
    .opened "gml:surfaceMember" []],
   [.opened "gml:exterior" [], .opened "gml:LinearRing" [],
    .opened "gml:posList" [], .text "0 0 0 4 0 0 4 3 0", .closed "gml:posList",
    .closed "gml:LinearRing", .closed "gml:exterior",
    .opened "gml:interior" [], .opened "gml:LinearRing" [],
    .opened "gml:posList" [], .text "2 1 0 3 1 0", .closed "gml:posList",
    .closed "gml:LinearRing", .closed "gml:interior"],
   [.closed "gml:surfaceMember",
    .closed "gml:MultiSurface",
    .closed "bldg:lod1MultiSurface",
    .closed "bldg:Building"])

theorem readEvents_puncturedTriangle :
    let (before, inside, after) := puncturedTriangle
    ∃ outcome outcome' reported later,
      readEvents {} (before ++ .opened "gml:Polygon" [("gml:id", "P")] ::
        (inside ++ .closed "gml:Polygon" :: after)) = .ok outcome ∧
      readEvents {} (before ++ after) = .ok outcome' ∧
      (∃ d ∈ reported, d.kind = .invalidRing) ∧
      outcome'.model = outcome.model ∧ outcome'.unresolved = outcome.unresolved ∧
      outcome.diagnostics =
        ((Builder.start {}).feedAll {} before).diagnostics ++ reported ++ later ∧
      outcome'.diagnostics = ((Builder.start {}).feedAll {} before).diagnostics ++ later := by
  obtain ⟨outcome, h⟩ := exists_readEvents_of_gridless {} (nestAll_eq_nil_iff.1 (by decide) :
    WellNested (puncturedTriangle.1 ++ .opened "gml:Polygon" [("gml:id", "P")] ::
      (puncturedTriangle.2.1 ++ .closed "gml:Polygon" :: puncturedTriangle.2.2))) (by decide)
  let g : GeometryParts :=
    { lod := 1, srs := some "EPSG:25832", isTemplate := false, kind := some .multiSurface }
  have hrejects : ((Builder.start {}).feedAll {} puncturedTriangle.1).rejects {} "gml:Polygon"
      [("gml:id", "P")] puncturedTriangle.2.1 :=
    ⟨g, by decide +kernel, by decide +kernel⟩
  obtain ⟨reported, -, hinvalid, hwithout⟩ := readEvents_rejected (by decide +kernel)
    (nestAll_eq_nil_iff.1 (by decide)) hrejects h
  obtain ⟨outcome', later, h', hsame⟩ :=
    hwithout (by decide +kernel) (by decide +kernel) (by decide +kernel)
  exact ⟨outcome, outcome', reported, later, h, h', hinvalid, hsame⟩

end CityScene.Document
