import CityScene.Proofs.Document.Grids
import CityScene.Proofs.Document.Step

/-!
# Nesting

Which events are accepted depends on the names of the open elements, and on nothing else but the
arithmetic of grids.  `nest` follows these names from event to event, and a state does the same: it
accepts an event if and only if `nest` goes on and, if the event closes a grid, this `Fits`
(`Builder.feed_eq_none_iff`).  Whatever is wrong with rings, numbers, attributes, colours or references
never refuses an event; the only reasons are those of `Builder.Refusal` and `Builder.Overflows`.

An overflow ends everything, so that nothing can be said of what comes after it.  A run without one is
`Builder.NeverOverflows`; so is every run in which no grid is opened (`neverOverflows_of_gridless`).

`WellNested` is the condition of `nest` on whole documents, said with the tags themselves.  The proof
that it is what `nest` checks (`nestAll_eq_nil_iff`) needs the documents that close elements opened
before them; those are `Closes`.
-/

namespace CityScene.Document

/-! ### Well-nested events -/

/-- Every opened element is closed under its name, after everything inside it. -/
inductive WellNested : List Event → Prop
  | nil : WellNested []
  | text (content : String) {rest : List Event} (h : WellNested rest) :
      WellNested (.text content :: rest)
  | offset (bytes : Nat) {rest : List Event} (h : WellNested rest) :
      WellNested (.offset bytes :: rest)
  | element (name : String) (attributes : Markup.Attributes) {inside rest : List Event}
      (hinside : WellNested inside) (hrest : WellNested rest) :
      WellNested (.opened name attributes :: (inside ++ .closed name :: rest))

/-- The names of the open elements after an event, innermost first.  There are none if the event
closes anything but the innermost element. -/
def nest (names : List String) : Event → Option (List String)
  | .opened name _ => some (name :: names)
  | .closed name =>
    match names with
    | [] => none
    | top :: outer => if top = name then some outer else none
  | .text _ | .offset _ => some names

def nestAll (names : List String) (events : List Event) : Option (List String) :=
  events.foldlM nest names

theorem nest_closed {names outer : List String} {name : String}
    (h : nest names (.closed name) = some outer) : names = name :: outer := by
  cases names with
  | nil => cases h
  | cons top names =>
    rw [nest] at h
    split at h
    · next htop => rw [htop, Option.some.inj h]
    · cases h

theorem isSome_nest_closed_iff {names : List String} {name : String} :
    (nest names (.closed name)).isSome = true ↔ names.head? = some name := by
  cases names with
  | nil => exact iff_of_false (by nofun) (by nofun)
  | cons top outer =>
    rw [nest, List.head?_cons, Option.some_inj]
    split
    · next h => exact iff_of_true rfl h
    · next h => exact iff_of_false (by nofun) h

theorem nestAll_cons {names : List String} {e : Event} {events : List Event} :
    nestAll names (e :: events) = (nest names e).bind (nestAll · events) := rfl

theorem nestAll_append {names : List String} {s t : List Event} :
    nestAll names (s ++ t) = (nestAll names s).bind (nestAll · t) :=
  List.foldlM_append

theorem WellNested.nestAll_eq {events : List Event} (h : WellNested events) (names : List String) :
    nestAll names events = some names := by
  induction h generalizing names with
  | nil => rfl
  | text content _ ih => exact ih names
  | offset bytes _ ih => exact ih names
  | element name attributes _ _ ihinside ihrest =>
    rw [nestAll_cons, nest, Option.bind_some, nestAll_append, ihinside, Option.bind_some,
      nestAll_cons, nest, if_pos rfl, Option.bind_some, ihrest]

/-- The events close the elements with these names, the innermost first, and are well nested
otherwise. -/
inductive Closes : List String → List Event → Prop
  | done {events : List Event} (h : WellNested events) : Closes [] events
  | next {name : String} {outer : List String} {inside rest : List Event}
      (hinside : WellNested inside) (hrest : Closes outer rest) :
      Closes (name :: outer) (inside ++ .closed name :: rest)

namespace Closes

/-- What keeps well-nested events well nested in front keeps the others so, too. -/
theorem cons {e : Event} (he : ∀ {events}, WellNested events → WellNested (e :: events))
    {names : List String} {events : List Event} (h : Closes names events) :
    Closes names (e :: events) := by
  cases h with
  | done h => exact .done (he h)
  | next hinside hrest => exact .next (he hinside) hrest

theorem opened (name : String) (attributes : Markup.Attributes) {names : List String}
    {events : List Event} (h : Closes (name :: names) events) :
    Closes names (.opened name attributes :: events) := by
  cases h with
  | next hinside hrest =>
    cases hrest with
    | done hrest => exact .done (.element name attributes hinside hrest)
    | @next top outer inside rest hnext hrest =>
      have h : Closes (top :: outer) _ := .next (.element name attributes hinside hnext) hrest
      rwa [List.cons_append, List.append_assoc, List.cons_append] at h

end Closes

theorem closes_of_nestAll {names : List String} {events : List Event}
    (h : nestAll names events = some []) : Closes names events := by
  induction events generalizing names with
  | nil =>
    obtain rfl := Option.some.inj h
    exact .done .nil
  | cons e events ih =>
    obtain ⟨after, he, hrest⟩ := Option.bind_eq_some_iff.1 h
    cases e with
    | opened name attributes =>
      obtain rfl := Option.some.inj he
      exact (ih hrest).opened name attributes
    | text content =>
      obtain rfl := Option.some.inj he
      exact (ih hrest).cons (.text content)
    | offset bytes =>
      obtain rfl := Option.some.inj he
      exact (ih hrest).cons (.offset bytes)
    | closed name =>
      obtain rfl := nest_closed he
      exact .next .nil (ih hrest)

/-- **The events that lead from no open element to none are the well-nested ones.** -/
theorem nestAll_eq_nil_iff {events : List Event} :
    nestAll [] events = some [] ↔ WellNested events := by
  refine ⟨fun h => ?_, fun h => h.nestAll_eq []⟩
  cases closes_of_nestAll h with
  | done h => exact h

/-! ### Single events -/

namespace Scaffold

def names (s : Scaffold) : List String :=
  s.levels.map (·.name)

theorem names_attach (s : Scaffold) (o : CityObject) : (s.attach o).names = s.names := by
  rw [attach]
  split
  · next h => exact map_attachTo (fun _ _ _ => rfl) h
  · rfl

end Scaffold

namespace Builder

/-- The names of the open elements, innermost first. -/
def names (b : Builder) : List String :=
  b.stack.map (·.name)

theorem names_scaffold (b : Builder) : b.scaffold.names = b.names :=
  List.map_map

theorem ScaffoldStep.nest_eq {config : Config} {b : Builder} {e : Event} {s : Scaffold}
    (h : ScaffoldStep config b e s) : nest b.names e = some s.names := by
  rw [← names_scaffold]
  have hpop : ∀ {l : Level} {outer : List Level}, b.scaffold.levels = l :: outer →
      nest b.scaffold.names (.closed l.name) = some b.scaffold.pop.names := by
    intro l outer h
    rw [Scaffold.names, Scaffold.names, Scaffold.pop, h]
    exact if_pos rfl
  cases h with
  | offset bytes => rfl
  | text content => rfl
  | opened name attributes => rfl
  | closed hlevels _ => exact hpop hlevels
  | dropped hlevels _ => exact hpop hlevels
  | attached hlevels _ _ _ _ _ => rw [Scaffold.names_attach]; exact hpop hlevels

theorem Step.isAborted_eq {config : Config} {b b' : Builder} {e : Event}
    (h : Step config b e b') : b'.isAborted = b.isAborted :=
  h.keeps (P := fun m => m.isAborted = b.isAborted)
    (fun h hb => by rw [← hb]; cases h <;> rfl) (fun _ hb => hb) (fun _ hb => hb)
    (fun _ hb => hb) rfl

/-- An accepted event takes the names where `nest` takes them. -/
theorem nest_of_apply {config : Config} {b b' : Builder} {e : Event}
    (h : b.apply config e = .ok b') : nest b.names e = some b'.names := by
  rw [(step_of_apply h).scaffold.nest_eq, names_scaffold]

/-- The errors that refuse an event: reading has ended before, or a closing tag matches no open
element. -/
inductive Refusal (b : Builder) : Event → Error → Prop
  | aborted {e : Event} (context : Context) (h : b.isAborted = true) :
      Refusal b e (.malformed .aborted context)
  | nothingOpen (name : String) (context : Context) (h : b.names = []) :
      Refusal b (.closed name) (.malformed (.nothingOpen name) context)
  | mismatch (name : String) {top : String} (context : Context) (h : b.names.head? = some top)
      (hname : top ≠ name) : Refusal b (.closed name) (.malformed (.mismatch name top) context)

/-- If the innermost element is an object with parts of a grid, closing it overflows nowhere. -/
def Fits (b : Builder) : Prop :=
  ∀ e o grid, b.stack.head? = some e → e.frame = .object o → o.grid = some grid → grid.Fits

/-- The arithmetic of a grid overflows when its element is closed. -/
inductive Overflows (b : Builder) : Event → Error → Prop
  | closed (name : String) (fault : Overflow) (hactive : b.isAborted = false)
      (h : b.names.head? = some name) (hfits : ¬ b.Fits) :
      Overflows b (.closed name) (.overflow fault)

theorem exists_finish_object_iff {o : ObjectParts} {coverage : Option GridCoverage} :
    (∃ object, o.finish coverage = .ok object) ↔
      ∀ g, coverage = some g → ∃ e, g.envelope = .ok e := by
  rw [ObjectParts.finish, exists_map_eq_ok_iff]
  cases coverage with
  | none => exact iff_of_true ⟨_, rfl⟩ nofun
  | some g =>
    refine Iff.trans exists_map_eq_ok_iff ⟨fun h g' hg => ?_, fun h => h g rfl⟩
    obtain rfl := Option.some.inj hg
    exact h

theorem exists_closeObject_iff (config : Config) (b : Builder) (o : ObjectParts) :
    (∃ b', b.closeObject config o = .ok b') ↔ ∀ grid, o.grid = some grid → grid.Fits := by
  have hclose : (∃ b', b.closeObject config o = .ok b') ↔
      ∃ m coverage, b.closeGrid o = .ok (m, coverage) ∧
        ∃ object, o.finish coverage = .ok object := by
    simp only [closeObject_eq_ok_iff]
    constructor
    · rintro ⟨_, m, coverage, object, hgrid, hfinish, -⟩
      exact ⟨m, coverage, hgrid, object, hfinish⟩
    · rintro ⟨m, coverage, hgrid, object, hfinish⟩
      exact ⟨_, m, coverage, object, hgrid, hfinish, rfl⟩
  rw [hclose]
  simp only [exists_finish_object_iff]
  cases hgrid : o.grid with
  | none =>
    refine iff_of_true ⟨b, none, ?_, fun _ h => by cases h⟩ fun _ h => by cases h
    rw [closeGrid, hgrid]
  | some grid =>
    have hfits : (∀ grid', some grid = some grid' → grid'.Fits) ↔ grid.Fits :=
      ⟨fun h => h grid rfl, fun h grid' heq => Option.some.inj heq ▸ h⟩
    rw [hfits, GridParts.fits_iff, closeGrid, hgrid]
    dsimp only
    cases grid.build with
    | error fault =>
      constructor
      · rintro ⟨_, _, h, -⟩
        cases h
      · rintro ⟨_, h, -⟩
        cases h
    | ok result =>
      cases result with
      | error fault =>
        exact iff_of_true ⟨_, none, rfl, fun _ h => by cases h⟩ ⟨_, rfl, fun _ h => by cases h⟩
      | ok coverage =>
        constructor
        · rintro ⟨_, _, h, henvelope⟩
          cases h
          exact ⟨_, rfl, fun g hg => henvelope g (Except.ok.inj hg)⟩
        · rintro ⟨_, h, henvelope⟩
          obtain rfl := Except.ok.inj h
          exact ⟨b, coverage, rfl, fun g hg => henvelope g (congrArg _ hg)⟩

/-- A closing tag is accepted, refused or overflows. -/
theorem closeElement_cases (config : Config) (b : Builder) (name : String) :
    (∃ b', b.closeElement config name = .ok b' ∧ b.Fits) ∨
    (∃ error, b.closeElement config name = .error error ∧ Refusal b (.closed name) error) ∨
    ∃ fault, b.closeElement config name = .error (.overflow fault) ∧
      b.names.head? = some name ∧ ¬ b.Fits := by
  rw [closeElement, Fits, names]
  cases hstack : b.stack with
  | nil =>
    refine .inr (.inl ⟨_, rfl, .nothingOpen name _ ?_⟩)
    rw [names, hstack]
    rfl
  | cons e outer =>
    dsimp only
    split
    case isFalse hname =>
      refine .inr (.inl ⟨_, rfl, .mismatch name _ ?_ hname⟩)
      rw [names, hstack]
      rfl
    case isTrue hname =>
      have hfits : (∀ e' o grid, (e :: outer).head? = some e' → e'.frame = .object o →
          o.grid = some grid → grid.Fits) ↔
          ∃ b', ({ b with stack := outer } : Builder).closeFrame config e.srs e.frame = .ok b' := by
        cases hobject : e.frame.isObject with
        | true =>
          obtain ⟨o, ho⟩ := Frame.eq_object_of_isObject hobject
          rw [ho]
          refine Iff.trans ?_ (exists_closeObject_iff config _ o).symm
          constructor
          · exact fun h grid => h e o grid rfl ho
          · rintro h e' o' grid he ho'
            obtain rfl := Option.some.inj he
            obtain rfl := Frame.object.inj (ho.symm.trans ho')
            exact h grid
        | false =>
          obtain ⟨b', hb', -⟩ :=
            closeFrame_touches config { b with stack := outer } e.srs hobject
          refine iff_of_true ?_ ⟨b', hb'⟩
          rintro e' o' grid he ho'
          obtain rfl := Option.some.inj he
          rw [ho'] at hobject
          cases hobject
      rw [hfits]
      cases hclose : ({ b with stack := outer } : Builder).closeFrame config e.srs e.frame with
      | ok b' => exact .inl ⟨b', rfl, b', rfl⟩
      | error fault =>
        refine .inr (.inr ⟨fault, rfl, by rw [List.map_cons, hname]; rfl, ?_⟩)
        rintro ⟨_, h⟩
        cases h

/-- **No other error ever refuses an event.** -/
theorem refusal_of_apply {config : Config} {b : Builder} {e : Event} {error : Error}
    (h : b.apply config e = .error error) : Refusal b e error ∨ Overflows b e error := by
  cases e with
  | offset bytes => cases h
  | opened name attributes =>
    rw [apply] at h
    split at h
    · next habort => obtain rfl := Except.error.inj h; exact .inl (.aborted _ habort)
    · cases h
  | text content =>
    rw [apply] at h
    split at h
    · next habort => obtain rfl := Except.error.inj h; exact .inl (.aborted _ habort)
    · cases h
  | closed name =>
    rw [apply] at h
    split at h
    · next habort => obtain rfl := Except.error.inj h; exact .inl (.aborted _ habort)
    · next hactive =>
      rcases closeElement_cases config b name with ⟨_, hok, -⟩ | ⟨_, herror, hrefused⟩ |
        ⟨fault, herror, hname, hfits⟩
      · rw [h] at hok
        cases hok
      · obtain rfl := Except.error.inj (h.symm.trans herror)
        exact .inl hrefused
      · obtain rfl := Except.error.inj (h.symm.trans herror)
        exact .inr (.closed name fault (by simpa using hactive) hname hfits)

/-- A closing tag that is accepted overflows nowhere. -/
theorem fits_of_apply {config : Config} {b b' : Builder} {name : String}
    (h : b.apply config (.closed name) = .ok b') : b.Fits := by
  rw [apply] at h
  split at h
  · cases h
  · rcases closeElement_cases config b name with ⟨_, -, hfits⟩ | ⟨_, herror, -⟩ | ⟨_, herror, -⟩
    · exact hfits
    · rw [h] at herror
      cases herror
    · rw [h] at herror
      cases herror

/-- Where `nest` goes on, no error but an earlier one refuses the event. -/
theorem Refusal.nest_eq_none {b : Builder} {e : Event} {error : Error} (h : Refusal b e error)
    (hactive : b.isAborted = false) : nest b.names e = none := by
  cases h with
  | aborted context h => rw [hactive] at h; cases h
  | nothingOpen name context h => rw [h]; rfl
  | mismatch name context h hname =>
    obtain ⟨outer, houter⟩ := List.head?_eq_some_iff.1 h
    rw [houter, nest, if_neg hname]

/-! ### Sequences of events -/

/-- The error of each event of a sequence, if it was refused. -/
def verdicts (config : Config) (b : Builder) : List Event → List (Option Error)
  | [] => []
  | e :: rest => (b.feed config e).2 :: verdicts config (b.feed config e).1 rest

/-- The events of a sequence that were accepted. -/
def accepted (config : Config) (b : Builder) (events : List Event) : List Event :=
  ((events.zip (b.verdicts config events)).filter (·.2.isNone)).map (·.1)

theorem feedAll_cons (config : Config) (b : Builder) (e : Event) (events : List Event) :
    b.feedAll config (e :: events) = (b.feed config e).1.feedAll config events := rfl

/-! As long as no event was refused, tags do what they do. -/

theorem apply_opened {b : Builder} (config : Config) (hactive : b.isAborted = false)
    (name : String) (attributes : Markup.Attributes) :
    b.apply config (.opened name attributes) = .ok (b.openElement config name attributes) :=
  if_neg (by simp [hactive])

theorem apply_closed {b : Builder} (config : Config) (hactive : b.isAborted = false)
    (name : String) : b.apply config (.closed name) = b.closeElement config name :=
  if_neg (by simp [hactive])

theorem feed_of_ok {config : Config} {b b' : Builder} {e : Event} (h : b.apply config e = .ok b') :
    b.feed config e = (b', none) := by
  rw [feed, h]

theorem feed_of_error {config : Config} {b : Builder} {e : Event} {error : Error}
    (h : b.apply config e = .error error) :
    b.feed config e = ({ b with isAborted := true }, some error) := by
  rw [feed, h]

end Builder

namespace Event

def isOpened : Event → Bool
  | opened _ _ => true
  | _ => false

def isClosed : Event → Bool
  | closed _ => true
  | _ => false

/-- The events that an ended reading refuses. -/
def isContent : Event → Bool
  | offset _ => false
  | _ => true

end Event

namespace Builder

theorem apply_of_isAborted (config : Config) {b : Builder} {e : Event} (h : b.isAborted = true)
    (he : e.isContent = true) :
    ∃ context, b.apply config e = .error (.malformed .aborted context) := by
  cases e with
  | offset bytes => cases he
  | _ => exact ⟨_, if_pos h⟩

/-- Once an event was refused, later ones change no more than the offset. -/
theorem feedAll_of_isAborted (config : Config) {b : Builder} (events : List Event)
    (h : b.isAborted = true) :
    ∃ offset, b.feedAll config events = { b with offset } := by
  induction events generalizing b with
  | nil => exact ⟨b.offset, rfl⟩
  | cons e events ih =>
    rw [feedAll_cons]
    by_cases he : e.isContent = true
    · obtain ⟨context, herror⟩ := apply_of_isAborted config h he
      rw [feed_of_error herror]
      obtain ⟨offset, hrest⟩ := @ih { b with isAborted := true } rfl
      exact ⟨offset, by rw [hrest, h]⟩
    · cases e with
      | offset bytes => exact @ih { b with offset := some bytes } h
      | _ => exact absurd rfl he

/-- No event of the sequence overflows. -/
def NeverOverflows (config : Config) (b : Builder) (events : List Event) : Prop :=
  ∀ fault, some (.overflow fault) ∉ b.verdicts config events

instance (config : Config) (b : Builder) (events : List Event) :
    Decidable (NeverOverflows config b events) :=
  decidable_of_iff (∀ fault ∈ [Overflow.addition, .subtraction, .multiplication],
    some (.overflow fault) ∉ b.verdicts config events)
    ⟨fun h fault => h fault (by cases fault <;> simp), fun h fault _ => h fault⟩

/-- **A sequence is accepted as far as `nest` goes through it**, if it never overflows.  Either all
events are accepted and the names of the open elements are those that `nest` ends with, or some event
is refused. -/
theorem feedAll_cases {config : Config} {b : Builder} {events : List Event}
    (hnever : NeverOverflows config b events) (hactive : b.isAborted = false) :
    (nestAll b.names events = some (b.feedAll config events).names ∧
      (b.feedAll config events).isAborted = false ∧ ∀ v ∈ b.verdicts config events, v = none) ∨
    (nestAll b.names events = none ∧ (b.feedAll config events).isAborted = true ∧
      ¬ ∀ v ∈ b.verdicts config events, v = none) := by
  induction events generalizing b with
  | nil => exact .inl ⟨rfl, hactive, by nofun⟩
  | cons e events ih =>
    rw [nestAll_cons, feedAll_cons, verdicts, List.forall_mem_cons]
    have hfirst (fault : Overflow) : (b.feed config e).2 ≠ some (.overflow fault) :=
      fun h => hnever fault (List.mem_cons.2 (.inl h.symm))
    have hrest : NeverOverflows config (b.feed config e).1 events :=
      fun fault h => hnever fault (List.mem_cons_of_mem _ h)
    cases he : b.apply config e with
    | ok m =>
      rw [feed_of_ok he] at hrest
      rw [nest_of_apply he, feed_of_ok he, Option.bind_some]
      simpa only [true_and] using ih hrest ((step_of_apply he).isAborted_eq.trans hactive)
    | error error =>
      rw [feed_of_error he] at hfirst
      rcases refusal_of_apply he with hrefused | ⟨_, fault, _, _, _⟩
      · rw [hrefused.nest_eq_none hactive, feed_of_error he]
        obtain ⟨offset, hlater⟩ :=
          @feedAll_of_isAborted config { b with isAborted := true } events rfl
        refine .inr ⟨rfl, by rw [hlater], fun h => ?_⟩
        cases h.1
      · exact absurd rfl (hfirst fault)

theorem depth_of_apply {config : Config} {b b' : Builder} {e : Event}
    (h : b.apply config e = .ok b') :
    b'.depth + (if e.isClosed then 1 else 0) = b.depth + if e.isOpened then 1 else 0 := by
  have hlength (b : Builder) : b.depth = b.names.length := by rw [names, List.length_map, depth]
  have hnest := nest_of_apply h
  rw [hlength, hlength]
  cases e with
  | closed name => rw [nest_closed hnest]; rfl
  | opened name attributes => rw [← Option.some.inj hnest]; rfl
  | text content => rw [← Option.some.inj hnest]; rfl
  | offset bytes => rw [← Option.some.inj hnest]; rfl

theorem accepted_of_ok {config : Config} {b b' : Builder} {e : Event}
    (h : b.apply config e = .ok b') (events : List Event) :
    b.accepted config (e :: events) = e :: b'.accepted config events := by
  rw [accepted, accepted, verdicts, feed_of_ok h]
  rfl

theorem accepted_of_error {config : Config} {b : Builder} {e : Event} {error : Error}
    (h : b.apply config e = .error error) (events : List Event) :
    b.accepted config (e :: events) = { b with isAborted := true }.accepted config events := by
  rw [accepted, accepted, verdicts, feed_of_error h]
  rfl

theorem depth_feedAll (config : Config) (b : Builder) (events : List Event) :
    (b.feedAll config events).depth + (b.accepted config events).countP Event.isClosed =
      b.depth + (b.accepted config events).countP Event.isOpened := by
  induction events generalizing b with
  | nil => rfl
  | cons e events ih =>
    rw [feedAll_cons]
    cases he : b.apply config e with
    | ok m =>
      have hfirst := depth_of_apply he
      have hrest := ih m
      rw [feed_of_ok he, accepted_of_ok he, List.countP_cons, List.countP_cons]
      dsimp only
      omega
    | error error =>
      rw [feed_of_error he, accepted_of_error he]
      exact ih { b with isAborted := true }

/-- An event that closes an element closes no grid that does not fit. -/
def FitsFor (b : Builder) : Event → Prop
  | .closed _ => b.Fits
  | _ => True

/-- Texts and tags are accepted as long as reading has not ended, `nest` goes on and nothing
overflows. -/
theorem feed_eq_none_iff {config : Config} {b : Builder} {e : Event} (he : e.isContent = true) :
    (b.feed config e).2 = none ↔
      b.isAborted = false ∧ (nest b.names e).isSome = true ∧ b.FitsFor e := by
  cases happly : b.apply config e with
  | ok m =>
    refine ⟨fun _ => ⟨?_, by rw [nest_of_apply happly]; rfl, ?_⟩, fun _ => by rw [feed_of_ok happly]⟩
    · by_contra habort
      obtain ⟨context, herror⟩ := apply_of_isAborted config (by simpa using habort) he
      rw [happly] at herror
      cases herror
    · cases e with
      | closed name => exact fits_of_apply happly
      | _ => trivial
  | error error =>
    rw [feed_of_error happly]
    refine ⟨by nofun, fun ⟨hactive, hnest, hfits⟩ => ?_⟩
    rcases refusal_of_apply happly with hrefused | ⟨_, _, _, _, hover⟩
    · rw [hrefused.nest_eq_none hactive] at hnest
      cases hnest
    · exact absurd hfits hover

theorem isAborted_of_apply {config : Config} {b b' : Builder} {e : Event}
    (he : e.isContent = true) (h : b.apply config e = .ok b') : b.isAborted = false :=
  ((feed_eq_none_iff he).1 (by rw [feed_of_ok h])).1

theorem exists_apply_iff {config : Config} {b : Builder} {e : Event} :
    (∃ b', b.apply config e = .ok b') ↔ (e.isContent = true →
      b.isAborted = false ∧ (nest b.names e).isSome = true ∧ b.FitsFor e) := by
  have hfeed : (∃ b', b.apply config e = .ok b') ↔ (b.feed config e).2 = none := by
    cases he : b.apply config e with
    | ok m => exact iff_of_true ⟨m, rfl⟩ (by rw [feed_of_ok he])
    | error error => exact iff_of_false nofun (by rw [feed_of_error he]; nofun)
  cases hcontent : e.isContent with
  | true => rw [hfeed, feed_eq_none_iff hcontent, forall_prop_of_true rfl]
  | false =>
    refine iff_of_true ?_ nofun
    cases e with
    | offset bytes => exact ⟨_, rfl⟩
    | _ => cases hcontent

theorem apply_of_feed {config : Config} {b : Builder} {e : Event} {error : Error}
    (h : (b.feed config e).2 = some error) : b.apply config e = .error error := by
  cases he : b.apply config e with
  | ok m => rw [feed_of_ok he] at h; cases h
  | error error' => rw [feed_of_error he] at h; rw [Option.some.inj h]

/-- What a refusal and all later events leave. -/
theorem feedAll_of_refused {config : Config} {b : Builder} {e : Event} {error : Error}
    (h : (b.feed config e).2 = some error) (later : List Event) :
    ∃ offset, b.feedAll config (e :: later) = { b with isAborted := true, offset } := by
  rw [feedAll_cons, feed_of_error (apply_of_feed h)]
  obtain ⟨offset, hlater⟩ := @feedAll_of_isAborted config { b with isAborted := true } later rfl
  exact ⟨offset, hlater⟩

theorem exists_finish_eq_ok_iff {config : Config} {b : Builder} :
    (∃ outcome, b.finish config = .ok outcome) ↔ b.isAborted = false ∧ b.names = [] := by
  rw [names, List.map_eq_nil_iff]
  constructor
  · rintro ⟨outcome, h⟩
    rw [finish] at h
    split at h
    · cases h
    · next hactive =>
      split at h
      · cases h
      · next hstack => exact ⟨by simpa using hactive, hstack⟩
  · rintro ⟨hactive, hstack⟩
    refine ⟨b.complete config, ?_⟩
    rw [finish, hactive, hstack]
    rfl

/-- **A document can be ended if and only if it is well nested**, if it never overflows. -/
theorem finish_feedAll_iff {config : Config} {events : List Event}
    (hnever : NeverOverflows config (start config) events) :
    (∃ outcome, ((start config).feedAll config events).finish config = .ok outcome) ↔
      WellNested events := by
  rw [exists_finish_eq_ok_iff, ← nestAll_eq_nil_iff, show [] = (start config).names from rfl]
  rcases feedAll_cases hnever rfl with
    ⟨hnest, hactive, -⟩ | ⟨hnest, habort, -⟩
  · rw [hnest, Option.some_inj]
    exact and_iff_right hactive
  · rw [hnest]
    exact iff_of_false (by rw [habort]; nofun) (by nofun)

/-- A run that stops at the first error ends where one that goes on ends, if there is no error. -/
theorem applyAll_eq_feedAll (config : Config) (b : Builder) (events : List Event)
    (hactive : b.isAborted = false) :
    b.applyAll config events = .ok (b.feedAll config events) ∨
      (b.feedAll config events).isAborted = true ∧
        ∃ error, b.applyAll config events = .error error := by
  induction events generalizing b with
  | nil => exact .inl rfl
  | cons e events ih =>
    rw [feedAll_cons, applyAll, List.foldlM_cons]
    cases he : b.apply config e with
    | ok m =>
      rw [feed_of_ok he]
      exact ih m ((step_of_apply he).isAborted_eq.trans hactive)
    | error error =>
      rw [feed_of_error he]
      obtain ⟨offset, hrest⟩ :=
        @feedAll_of_isAborted config { b with isAborted := true } events rfl
      exact .inr ⟨by rw [hrest], error, rfl⟩

end Builder

/-- The names of the elements open after some events, innermost first, if every closing tag closes
the innermost one. -/
def openNames (events : List Event) : List String :=
  events.foldl openName []
where
  openName (names : List String) : Event → List String
    | .opened name _ => name :: names
    | .closed _ => names.tail
    | .text _ | .offset _ => names

theorem eq_of_nestAll {names after : List String} {events : List Event}
    (h : nestAll names events = some after) : after = events.foldl openNames.openName names := by
  induction events generalizing names with
  | nil => exact (Option.some.inj h).symm
  | cons e events ih =>
    obtain ⟨between, he, hrest⟩ := Option.bind_eq_some_iff.1 h
    have hbetween : between = openNames.openName names e := by
      cases e with
      | closed name => rw [nest_closed he]; rfl
      | opened name attributes => exact (Option.some.inj he).symm
      | text content => exact (Option.some.inj he).symm
      | offset bytes => exact (Option.some.inj he).symm
    rw [ih hrest, hbetween, List.foldl_cons]

namespace Builder

/-- No event of a run that comes to its end was refused. -/
theorem verdicts_of_applyAll {config : Config} {b b' : Builder} {events : List Event}
    (h : b.applyAll config events = .ok b') : ∀ v ∈ b.verdicts config events, v = none := by
  induction events generalizing b with
  | nil => nofun
  | cons e events ih =>
    obtain ⟨m, he, hrest⟩ := applyAll_cons_eq_ok h
    rw [verdicts, feed_of_ok he, List.forall_mem_cons]
    exact ⟨rfl, ih hrest⟩

end Builder

/-- The documents that are read are the well-nested ones that never overflow. -/
theorem exists_readEvents_eq_ok_iff (config : Config) (events : List Event) :
    (∃ outcome, readEvents config events = .ok outcome) ↔
      WellNested events ∧ Builder.NeverOverflows config (.start config) events := by
  have hend : (∃ outcome, readEvents config events = .ok outcome) ↔
      ∃ outcome, ((Builder.start config).feedAll config events).finish config = .ok outcome := by
    rw [readEvents]
    rcases (Builder.start config).applyAll_eq_feedAll config events rfl with h | ⟨habort, error, h⟩
    · rw [h]
      rfl
    · rw [h, Builder.exists_finish_eq_ok_iff, habort]
      exact iff_of_false (fun ⟨_, h⟩ => by cases h) (fun h => by cases h.1)
  constructor
  · intro h
    have hnever : Builder.NeverOverflows config (.start config) events := by
      intro fault hfault
      obtain ⟨outcome, hread⟩ := h
      obtain ⟨b, hb, -⟩ := exists_of_bind_eq_ok hread
      cases Builder.verdicts_of_applyAll hb _ hfault
    exact ⟨(Builder.finish_feedAll_iff hnever).1 (hend.1 h), hnever⟩
  · exact fun ⟨hnested, hnever⟩ => hend.2 ((Builder.finish_feedAll_iff hnever).2 hnested)

/-! ### Documents without grids -/

/-- The tag opens an element that takes in the parts of a grid. -/
def Event.opensGrid : Event → Bool
  | .opened name attributes =>
    Element.ofTag (Markup.localName name) attributes = .object .rectifiedGridCoverage
  | _ => false

/-- Of each open element, whether it is an object that takes in the parts of a grid. -/
def Scaffold.grids (s : Scaffold) : List Bool :=
  s.levels.map (·.object.any (·.hasGrid))

theorem Scaffold.grids_attach (s : Scaffold) (o : CityObject) : (s.attach o).grids = s.grids := by
  rw [attach]
  split
  · next h => exact map_attachTo (fun _ _ hobject => by rw [hobject]; rfl) h
  · rfl

namespace Builder

variable {config : Config} {b : Builder} {e : Event}

theorem ofTag_of_objectOf? {name id : String} {attributes : Markup.Attributes} {kind : Kind}
    (h : b.objectOf? config name attributes = some (kind, id)) :
    Element.ofTag (Markup.localName name) attributes = .object kind := by
  rw [objectOf?] at h
  split at h
  · cases h
  · obtain ⟨kind', hkind, hpair⟩ := Option.map_eq_some_iff.1 h
    obtain rfl := (Prod.mk.inj hpair).1
    unfold objectKind? at hkind
    split at hkind
    · next kind' helement =>
      split at hkind
      · obtain rfl := Option.some.inj hkind
        exact helement
      · cases hkind
    · cases hkind

/-- Only a tag that opens a grid makes an object that takes in its parts. -/
theorem ScaffoldStep.notMem_grids {s : Scaffold} (h : ScaffoldStep config b e s)
    (he : e.opensGrid = false) (hb : true ∉ b.scaffold.grids) : true ∉ s.grids := by
  have hpop : true ∉ b.scaffold.pop.grids := by
    rw [Scaffold.grids, Scaffold.pop, List.map_tail]
    exact fun h => hb (List.mem_of_mem_tail h)
  cases h with
  | offset bytes => exact hb
  | text content => exact hb
  | closed _ _ => exact hpop
  | dropped _ _ => exact hpop
  | attached _ _ _ _ _ _ => rwa [Scaffold.grids_attach]
  | opened name attributes =>
    rw [Scaffold.grids, Scaffold.push, List.map_cons, List.mem_cons, not_or]
    refine ⟨fun hgrid => ?_, hb⟩
    obtain ⟨core, hcore, hgrid⟩ := (Option.any_eq_true _ _).1 hgrid.symm
    obtain ⟨⟨kind, id⟩, hobject, rfl⟩ := Option.map_eq_some_iff.1 hcore
    obtain rfl : kind = .rectifiedGridCoverage := of_decide_eq_true hgrid
    exact Bool.false_ne_true (he.symm.trans (decide_eq_true (ofTag_of_objectOf? hobject)))

/-- Where no open object takes in parts of a grid, nothing overflows. -/
theorem fits_of_notMem_grids (hb : true ∉ b.scaffold.grids) : b.Fits := by
  intro e o grid he ho hgrid
  obtain ⟨outer, hstack⟩ := List.head?_eq_some_iff.1 he
  refine absurd (List.mem_map.2 ⟨e.level, ?_, ?_⟩) hb
  · rw [scaffold, hstack]
    exact List.mem_cons_self
  · rw [OpenElement.level, ho]
    show o.grid.isSome = true
    rw [hgrid]
    rfl

/-- **A run in which no grid is opened never overflows.** -/
theorem neverOverflows_of_gridless {events : List Event} (hb : true ∉ b.scaffold.grids)
    (hevents : ∀ e ∈ events, e.opensGrid = false) : NeverOverflows config b events := by
  induction events generalizing b with
  | nil => exact fun _ => List.not_mem_nil
  | cons e events ih =>
    rw [List.forall_mem_cons] at hevents
    intro fault hfault
    rw [verdicts, List.mem_cons] at hfault
    cases he : b.apply config e with
    | ok m =>
      rw [feed_of_ok he] at hfault
      have hm := (step_of_apply he).scaffold.notMem_grids hevents.1 hb
      exact ih hm hevents.2 fault (hfault.resolve_left nofun)
    | error error =>
      rw [feed_of_error he] at hfault
      have hb' : true ∉ ({ b with isAborted := true } : Builder).scaffold.grids := hb
      refine ih hb' hevents.2 fault (hfault.resolve_left fun hover => ?_)
      obtain rfl := Option.some.inj hover
      rcases refusal_of_apply he with hrefused | ⟨_, _, _, _, hfits⟩
      · cases hrefused
      · exact hfits (fits_of_notMem_grids hb)

end Builder

/-- A well-nested document that opens no grid is read. -/
theorem exists_readEvents_of_gridless (config : Config) {events : List Event}
    (h : WellNested events) (hevents : ∀ e ∈ events, e.opensGrid = false) :
    ∃ outcome, readEvents config events = .ok outcome :=
  (exists_readEvents_eq_ok_iff config events).2
    ⟨h, Builder.neverOverflows_of_gridless List.not_mem_nil hevents⟩

namespace Builder

/-- **Reading is a matter of nesting.**  After any events that did not overflow, fed to a state that
has read nothing:

* an opening tag or a text is accepted if no event was refused, and a closing tag if, moreover, the
  innermost open element has its name and is not a grid that does not fit,
* closing such a grid, and nothing else, overflows,
* any other refused event changes no more than the flag that reading has ended; from there on
  everything is refused, and no more than the offset changes,
* there are as many open elements as were opened and not closed,
* the document can be ended if no event was refused and no element is open, that is, if the events
  are well nested.

Only an earlier refusal, a closing tag that matches no open element and the arithmetic of a grid refuse
an event. -/
theorem feedAll_nesting {config : Config} {events : List Event}
    (hnever : NeverOverflows config (start config) events) :
    let b := (start config).feedAll config events
    let intact := ∀ v ∈ (start config).verdicts config events, v = none
    (∀ name attributes, (b.feed config (.opened name attributes)).2 = none ↔ intact) ∧
    (∀ content, (b.feed config (.text content)).2 = none ↔ intact) ∧
    (∀ name, (b.feed config (.closed name)).2 = none ↔
      intact ∧ (openNames events).head? = some name ∧ b.Fits) ∧
    (∀ name, (∃ fault, (b.feed config (.closed name)).2 = some (.overflow fault)) ↔
      intact ∧ (openNames events).head? = some name ∧ ¬ b.Fits) ∧
    (∀ e fault, (b.feed config e).2 = some (.overflow fault) → e.isClosed = true) ∧
    (∀ bytes, b.feed config (.offset bytes) = ({ b with offset := some bytes }, none)) ∧
    (b.isAborted = true ↔ ¬ intact) ∧
    (∀ e error, (b.feed config e).2 = some error → (∀ fault, error ≠ .overflow fault) →
      Refusal b e error ∧ (b.feed config e).1 = { b with isAborted := true } ∧
      ∀ later, ∃ offset,
        let after := b.feedAll config (e :: later)
        after = { b with isAborted := true, offset } ∧
        (∀ e', e'.isContent = true → (after.feed config e').2 ≠ none) ∧
        ∀ outcome, after.finish config ≠ .ok outcome) ∧
    b.depth + ((start config).accepted config events).countP Event.isClosed =
      ((start config).accepted config events).countP Event.isOpened ∧
    ((∃ outcome, b.finish config = .ok outcome) ↔ intact ∧ openNames events = []) ∧
    ((∃ outcome, b.finish config = .ok outcome) ↔ WellNested events) := by
  intro b intact
  have hrun := feedAll_cases hnever rfl
  have hactive : b.isAborted = false ↔ intact := by
    rcases hrun with ⟨-, hactive, hintact⟩ | ⟨-, habort, hbroken⟩
    · exact iff_of_true hactive hintact
    · exact iff_of_false (by rw [habort]; nofun) hbroken
  have hnames : intact → b.names = openNames events := by
    intro hintact
    rcases hrun with ⟨hnest, -, -⟩ | ⟨-, -, hbroken⟩
    · exact eq_of_nestAll hnest
    · exact absurd hintact hbroken
  have hclosed (name : String) : (b.feed config (.closed name)).2 = none ↔
      intact ∧ (openNames events).head? = some name ∧ b.Fits := by
    rw [feed_eq_none_iff rfl, hactive]
    refine and_congr_right fun hintact => ?_
    rw [hnames hintact, isSome_nest_closed_iff]
    rfl
  refine ⟨fun name attributes => ?opened, fun content => ?text, hclosed, fun name => ?overflow,
    fun e fault h => ?closing, fun _ => rfl, ?aborted, fun e error h hover => ?refused, ?depth, ?ended,
    finish_feedAll_iff hnever⟩
  case opened => rw [feed_eq_none_iff rfl, hactive]; exact and_iff_left ⟨rfl, trivial⟩
  case text => rw [feed_eq_none_iff rfl, hactive]; exact and_iff_left ⟨rfl, trivial⟩
  case overflow =>
    constructor
    · rintro ⟨fault, h⟩
      rcases refusal_of_apply (apply_of_feed h) with hrefused | ⟨_, _, hb, hname, hfits⟩
      · cases hrefused
      · have hintact := hactive.1 hb
        exact ⟨hintact, by rwa [← hnames hintact], hfits⟩
    · rintro ⟨hintact, hname, hfits⟩
      cases hverdict : (b.feed config (.closed name)).2 with
      | none => exact absurd ((hclosed name).1 hverdict).2.2 hfits
      | some error =>
        rcases refusal_of_apply (apply_of_feed hverdict) with hrefused | ⟨_, fault, _, _, _⟩
        · have hnest := hrefused.nest_eq_none (hactive.2 hintact)
          have hsome := isSome_nest_closed_iff.2 hname
          rw [← hnames hintact, hnest] at hsome
          cases hsome
        · exact ⟨fault, rfl⟩
  case closing =>
    rcases refusal_of_apply (apply_of_feed h) with hrefused | ⟨_, _, _, _, _⟩
    · cases hrefused
    · rfl
  case aborted => rw [← hactive, Bool.not_eq_false]
  case refused =>
    have he := apply_of_feed h
    have hrefused : Refusal b e error := (refusal_of_apply he).resolve_right fun hoverflow => by
      cases hoverflow with
      | closed name fault _ _ _ => exact hover fault rfl
    refine ⟨hrefused, by rw [feed_of_error he], fun later => ?_⟩
    obtain ⟨offset, hafter⟩ := feedAll_of_refused h later
    refine ⟨offset, hafter, fun e' he' hnone => ?_, fun outcome hfinish => ?_⟩
    · rw [hafter, feed_eq_none_iff he'] at hnone
      cases hnone.1
    · have hended := exists_finish_eq_ok_iff.1 ⟨outcome, hfinish⟩
      rw [hafter] at hended
      cases hended.1
  case depth =>
    have hdepth := depth_feedAll config (start config) events
    rwa [show (start config).depth = 0 from rfl, Nat.zero_add] at hdepth
  case ended =>
    rw [exists_finish_eq_ok_iff, hactive]
    exact and_congr_right fun hintact => by rw [hnames hintact]

end Builder

/-! ### A relief on a grid -/

/-- A relief up to the end of its grid, which has two samples and this upper limit. -/
def gridUpTo (high : String) : List Event :=
  [.opened "dem:RasterRelief" [], .opened "dem:grid" [],
   .opened "gml:RectifiedGridCoverage" [],
   .opened "gml:high" [], .text high, .closed "gml:high",
   .opened "gml:origin" [], .opened "gml:pos" [], .text "0 0 0", .closed "gml:pos",
   .closed "gml:origin",
   .opened "gml:offsetVector" [], .text "1 0 0", .closed "gml:offsetVector",
   .opened "gml:offsetVector" [], .text "0 1 0", .closed "gml:offsetVector",
   .opened "gml:tupleList" [], .text "0 7", .closed "gml:tupleList"]

def gridEnd : List Event :=
  [.closed "gml:RectifiedGridCoverage", .closed "dem:grid", .closed "dem:RasterRelief"]

namespace Builder

/-- A relief on a grid of two cells is read; closing the relief before its grid is refused. -/
theorem feedAll_twoCells :
    let b := (start {}).feedAll {} (gridUpTo "1 0")
    b.Fits ∧ (b.feed {} (.closed "gml:RectifiedGridCoverage")).2 = none ∧
    (∀ error, (b.feed {} (.closed "dem:RasterRelief")).2 = some error →
      Refusal b (.closed "dem:RasterRelief") error) ∧
    ∃ outcome, ((start {}).feedAll {} (gridUpTo "1 0" ++ gridEnd)).finish {} = .ok outcome := by
  intro b
  have hgrid : NeverOverflows {} (start {}) (gridUpTo "1 0") := by decide +kernel
  have hrelief : NeverOverflows {} (start {}) (gridUpTo "1 0" ++ gridEnd) := by decide +kernel
  obtain ⟨-, -, hclosed, -, -, -, -, hrefused, -⟩ := feedAll_nesting hgrid
  obtain ⟨-, -, -, -, -, -, -, -, -, -, hnested⟩ := feedAll_nesting hrelief
  have hfirst : (b.feed {} (.closed "gml:RectifiedGridCoverage")).2 = none := by decide +kernel
  have hsecond : ∀ fault, (b.feed {} (.closed "dem:RasterRelief")).2 ≠ some (.overflow fault) := by
    intro fault
    cases fault <;> decide +kernel
  exact ⟨((hclosed _).1 hfirst).2.2, hfirst, fun error h => (hrefused _ error h fun fault hover =>
    hsecond fault (hover ▸ h)).1, hnested.2 (nestAll_eq_nil_iff.1 (by decide))⟩

/-- Well-nested documents in which every tag is accepted up to the end of a grid, where reading
overflows: the corner of one grid has too large a number, the other has too many columns. -/
theorem feedAll_tooManyCells :
    let columns := "9223372036854775807 0"
    let cells := "274176 67280421310721"
    WellNested (gridUpTo cells ++ gridEnd) ∧
    (∀ v ∈ (start {}).verdicts {} (gridUpTo cells), v = none) ∧
    (((start {}).feedAll {} (gridUpTo cells)).feed {} (.closed "gml:RectifiedGridCoverage")).2 =
      some (.overflow .multiplication) ∧
    WellNested (gridUpTo columns ++ gridEnd) ∧
    (∀ v ∈ (start {}).verdicts {} (gridUpTo columns), v = none) ∧
    (((start {}).feedAll {} (gridUpTo columns)).feed {} (.closed "gml:RectifiedGridCoverage")).2 =
      some (.overflow .addition) :=
  ⟨nestAll_eq_nil_iff.1 (by decide), by decide +kernel, by decide +kernel,
    nestAll_eq_nil_iff.1 (by decide), by decide +kernel, by decide +kernel⟩

end Builder

end CityScene.Document
