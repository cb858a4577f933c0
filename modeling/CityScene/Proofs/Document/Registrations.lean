import Mathlib.Data.List.DropRight
import CityScene.Proofs.Document.Identifiers
import CityScene.Proofs.Document.References
import CityScene.Proofs.Table.History

/-!
# What is registered is found

While a document is read, each event registers at most one definition (`Builder.registration?`), and
the registry at the end is what all of them have entered, one after the other
(`Builder.registry_applyAll`).

Definitions are registered under identifiers as they are written.  Links lose the blanks around them
and the number signs in front.  So a definition is found by every link that leaves its identifier
(`answers_readEvents`), but not by its own identifier if that loses something as a link
(`unanswered_markedSystem`).
-/

namespace CityScene

/-- A link that has lost its number signs has no more of them. -/
theorem Model.bareId_withoutFragmentMark (link : String) :
    Model.bareId (Text.withoutFragmentMark link) = Text.withoutFragmentMark link := by
  rw [Model.bareId, Text.withoutFragmentMark, String.toList_ofList, List.dropWhile_idempotent]

namespace Document

namespace Builder

/-- What an event registers: the reference system that an opening tag is the first to name, or what
has been put together for the element that ends. -/
def registration? (config : Config) (b : Builder) : Event → Option (String × Definition)
  | .opened _ attributes => b.mention? attributes
  | .closed _ => b.stack.head?.bind fun e => e.frame.definition? config
  | _ => none

/-- What the events of a run register, in order. -/
def registrations (config : Config) (b : Builder) : List Event → List (String × Definition)
  | [] => []
  | e :: rest => (b.registration? config e).toList ++ registrations config (b.feed config e).1 rest

variable {config : Config} {b b' m : Builder} {e : Event} {events : List Event}

theorem registrations_cons (h : b.apply config e = .ok m) (rest : List Event) :
    b.registrations config (e :: rest) =
      (b.registration? config e).toList ++ m.registrations config rest := by
  rw [registrations, feed_of_ok h]

theorem registrations_append (h : b.applyAll config events = .ok m) (rest : List Event) :
    b.registrations config (events ++ rest) =
      b.registrations config events ++ m.registrations config rest := by
  induction events generalizing b with
  | nil =>
    obtain rfl := Except.ok.inj h
    rfl
  | cons e events ih =>
    obtain ⟨n, he, hrest⟩ := applyAll_cons_eq_ok h
    rw [List.cons_append, registrations_cons he, registrations_cons he, ih hrest,
      List.append_assoc]

theorem registry_define (b : Builder) (entry : Option (String × Definition)) :
    (b.define entry).model.registry = b.model.registry.insertAll entry.toList := by
  cases entry <;> rfl

/-- **An event registers what it registers**, and keeps the registry apart from that. -/
theorem registry_apply (h : b.apply config e = .ok b') :
    b'.model.registry = b.model.registry.insertAll (b.registration? config e).toList := by
  cases e with
  | offset bytes =>
    obtain rfl := Except.ok.inj h
    rfl
  | text content =>
    obtain rfl := eq_of_apply_text h
    exact (addText_keeps b content).registry
  | opened name attributes =>
    obtain rfl := eq_of_apply_opened h
    obtain ⟨m, e, more, hopened, hkeeps, -, -⟩ := b.openElement_keeps config name attributes
    rw [hopened]
    exact hkeeps.registry.trans (registry_define b _)
  | closed name =>
    obtain ⟨e, outer, hs, -, hclose⟩ := exists_of_apply_closed h
    rw [registration?, hs]
    exact (closeFrame_keeps hclose).registry.trans (registry_define _ _)

/-- **The registry at the end of a run** is what its events have registered. -/
theorem registry_applyAll (h : b.applyAll config events = .ok b') :
    b'.model.registry = b.model.registry.insertAll (b.registrations config events) := by
  induction events generalizing b with
  | nil =>
    obtain rfl := Except.ok.inj h
    rfl
  | cons e events ih =>
    obtain ⟨m, he, hrest⟩ := applyAll_cons_eq_ok h
    rw [ih hrest, registry_apply he, registrations_cons he, Table.insertAll_append]

end Builder

/-! ### Documents -/

/-- The model answers a reference, so it is neither left nor reported. -/
structure Outcome.Answers (o : Outcome) (r : Reference) : Prop where
  answered : o.model.answers r = true
  pending : r ∉ o.model.pending
  unresolved : r ∉ o.unresolved
  reports : ∀ d ∈ o.diagnostics, d.problem ≠ .dangling r

variable {config : Config} {events : List Event} {outcome : Outcome}

/-- What is left pending or returned as unresolved, the model does not answer. -/
theorem answers_of_left (h : readEvents config events = .ok outcome) {r : Reference}
    (hr : r ∈ outcome.model.pending ∨ r ∈ outcome.unresolved) :
    outcome.model.answers r = false := by
  obtain ⟨b, -, -, rfl⟩ := Builder.exists_of_readEvents_eq_ok h
  have hleft (m : Model) (hr : r ∈ m.finalize.1.pending ∨ r ∈ m.finalize.2) :
      m.finalize.1.answers r = false := by
    have hpending : r ∈ m.finalize.1.pending := by
      rcases hr with hr | hr
      · exact hr
      · exact Model.firstMentions_subset _ hr
    have hopen : m.bindAppearances.answers r = false := by
      simpa using (List.mem_filter.1 hpending).2
    exact hopen
  by_cases hmode : config.mode = .deferred
  · rw [Builder.complete_of_deferred hmode] at hr ⊢
    exact hleft _ hr
  · rw [Builder.complete_of_not_deferred hmode] at hr ⊢
    exact hleft _ hr

theorem answers_of_answered (h : readEvents config events = .ok outcome) {r : Reference}
    (hr : outcome.model.answers r = true) : outcome.Answers r := by
  have hleft (hmem : r ∈ outcome.model.pending ∨ r ∈ outcome.unresolved) : False := by
    have hopen := answers_of_left h hmem
    rw [hr] at hopen
    cases hopen
  refine ⟨hr, fun hmem => hleft (.inl hmem), fun hmem => hleft (.inr hmem), fun d hd hproblem => ?_⟩
  obtain ⟨found, hfound, hdiagnostics⟩ := diagnostics_readEvents h
  rw [hdiagnostics] at hd
  rcases List.mem_append.1 hd with hd | hd
  · exact hfound d hd (by rw [Diagnostic.kind, hproblem]; rfl)
  · obtain ⟨s, hs, rfl⟩ := List.mem_map.1 hd
    obtain rfl : s = r := by simpa using hproblem
    exact hleft (.inr hs)

/-- The identifier is registered, and under no other kind than this. -/
def RegistersOnly (config : Config) (events : List Event) (id : String) (kind : ReferenceKind) :
    Prop :=
  (∃ d, (id, d) ∈ (Builder.start config).registrations config events) ∧
    ∀ d, (id, d) ∈ (Builder.start config).registrations config events → d.kind = kind

/-- The system that a tag names is registered once the tag is read. -/
theorem exists_registration {b : Builder} {name : String} {attributes : Markup.Attributes}
    {system : ReferenceSystem} (h : readEvents config events = .ok outcome)
    (hmeets : Meets config events b (.opened name attributes))
    (hsystem : b.namedSystem? attributes = some system) :
    ∃ d, (system.name, d) ∈ (Builder.start config).registrations config events := by
  obtain ⟨before, after, rfl, hb⟩ := hmeets
  obtain ⟨last, hlast, -, -⟩ := Builder.exists_of_readEvents_eq_ok h
  obtain ⟨b', hb', hrest⟩ := Builder.applyAll_append_eq_ok hlast
  obtain rfl := Except.ok.inj (hb.symm.trans hb')
  obtain ⟨m, he, -⟩ := Builder.applyAll_cons_eq_ok hrest
  rw [Builder.registrations_append hb, Builder.registrations_cons he, Builder.registration?,
    Builder.mention?, hsystem, Option.bind_some, Builder.mention]
  split
  · -- an earlier event has registered the name
    next hknown =>
    rw [Table.contains_eq_isSome, Option.isSome_iff_exists] at hknown
    obtain ⟨d, hd⟩ := hknown
    rw [Builder.registry_applyAll hb] at hd
    rcases Table.get?_insertAll hd with hd | hd
    · exact ⟨d, List.mem_append_left _ hd⟩
    · cases hd
  · exact ⟨_, List.mem_append_right _ List.mem_cons_self⟩

/-- **What is registered is found by its links.**  If an identifier is registered, and under one
kind only, then every reference of that kind whose link leaves that identifier is answered, so it is
neither left nor reported.  So is the reference to a system that a tag names, if the name loses
nothing as a link and nothing else is registered under it. -/
theorem answers_readEvents (h : readEvents config events = .ok outcome) :
    (∀ id kind, RegistersOnly config events id kind →
      ∀ link referrer, Text.withoutFragmentMark link = id →
        outcome.Answers (.ofLink link kind referrer)) ∧
    ∀ b name attributes system, Meets config events b (.opened name attributes) →
      b.namedSystem? attributes = some system →
      (∀ d, (system.name, d) ∈ (Builder.start config).registrations config events →
        d.kind = .referenceSystem) →
      Text.withoutFragmentMark system.name = system.name →
      ∀ referrer, outcome.Answers (.ofLink system.name .referenceSystem referrer) := by
  obtain ⟨last, hlast, -, hlast'⟩ := Builder.exists_of_readEvents_eq_ok h
  have hregistry : outcome.model.registry =
      (∅ : Registry).insertAll ((Builder.start config).registrations config events) := by
    rw [hlast', Builder.registry_complete, Builder.registry_applyAll hlast]
    rfl
  have hlinks (id : String) (kind : ReferenceKind) (honly : RegistersOnly config events id kind)
      (link : String) (referrer : Option String) (hlink : Text.withoutFragmentMark link = id) :
      outcome.Answers (.ofLink link kind referrer) := by
    have hsome := Table.isSome_get?_insertAll (t := ∅) (.inr honly.1)
    obtain ⟨d, hd⟩ := Option.isSome_iff_exists.1 hsome
    have hkind : d.kind = kind := by
      rcases Table.get?_insertAll hd with hmem | hnone
      · exact honly.2 d hmem
      · cases hnone
    have hresolve : outcome.model.resolve? (Text.withoutFragmentMark link) = some d := by
      rw [Model.resolve?, Model.bareId_withoutFragmentMark, Model.definition?, hlink, hregistry, hd]
      rfl
    have hpolygon : kind ≠ .polygon := by
      rw [← hkind]
      cases d <;> intro h <;> cases h
    apply answers_of_answered h
    rw [Model.answers_of_ne hpolygon, Model.isAnswered, Reference.mention, Reference.ofLink,
      hresolve]
    simp [hkind]
  refine ⟨hlinks, fun b name attributes system hmeets hsystem hkind hname referrer => ?_⟩
  exact hlinks _ _ ⟨exists_registration h hmeets hsystem, hkind⟩ _ _ hname

/-- A model in a named system, and a building that links to an appearance further down. -/
def linkedAppearance : List Event :=
  [.opened "core:CityModel" [("srsName", "EPSG:25832")],
   .opened "bldg:Building" [("gml:id", "B")],
   .opened "app:appearance" [("xlink:href", "#A")], .closed "app:appearance",
   .closed "bldg:Building",
   .opened "core:appearanceMember" [],
   .opened "app:Appearance" [("gml:id", "A")], .closed "app:Appearance",
   .closed "core:appearanceMember",
   .closed "core:CityModel"]

theorem answers_linkedAppearance :
    ∃ outcome, readEvents {} linkedAppearance = .ok outcome ∧
      outcome.Answers (.ofLink "#A" .appearance (some "B")) ∧
      outcome.Answers (.ofLink "EPSG:25832" .referenceSystem none) := by
  obtain ⟨outcome, h⟩ := exists_readEvents_of_gridless {}
    (nestAll_eq_nil_iff.1 (by decide) : WellNested linkedAppearance) (by decide)
  have hregistered : (Builder.start {}).registrations {} linkedAppearance =
      [("EPSG:25832", .referenceSystem ⟨"EPSG:25832", none⟩),
       ("A", .appearance { id := "A" })] := by
    decide +kernel
  have honly : RegistersOnly {} linkedAppearance "A" .appearance := by
    rw [RegistersOnly, hregistered]
    simp [Definition.kind]
  have hmeets : Meets {} linkedAppearance (Builder.start {})
      (.opened "core:CityModel" [("srsName", "EPSG:25832")]) :=
    ⟨[], linkedAppearance.tail, rfl, rfl⟩
  obtain ⟨hlinks, hsystems⟩ := answers_readEvents h
  refine ⟨outcome, h, hlinks "A" .appearance honly "#A" (some "B") (by decide), ?_⟩
  refine hsystems _ _ _ ⟨"EPSG:25832", none⟩ hmeets (by decide +kernel) ?_ (by decide) none
  rw [hregistered]
  simp [Definition.kind]

/-- A building in a system whose name starts with a number sign. -/
def markedSystem : List Event :=
  [.opened "bldg:Building" [("gml:id", "B"), ("srsName", "#S")], .closed "bldg:Building"]

/-- The system is registered, as the only thing under its name, and yet reported as missing. -/
theorem unanswered_markedSystem :
    RegistersOnly {} markedSystem "#S" .referenceSystem ∧
      ∃ outcome, readEvents {} markedSystem = .ok outcome ∧
        outcome.unresolved = [.ofLink "#S" .referenceSystem none] ∧
        outcome.diagnostics = [⟨.dangling (.ofLink "#S" .referenceSystem none), none⟩] := by
  have hregistered : (Builder.start {}).registrations {} markedSystem =
      [("#S", .referenceSystem ⟨"#S", none⟩)] := by
    decide +kernel
  have hleft : (readEvents {} markedSystem).toOption.map (fun o => (o.unresolved, o.diagnostics)) =
      some ([.ofLink "#S" .referenceSystem none],
        [⟨.dangling (.ofLink "#S" .referenceSystem none), none⟩]) := by
    decide +kernel
  obtain ⟨outcome, h, hleft⟩ := exists_of_toOption_map hleft
  obtain ⟨hunresolved, hdiagnostics⟩ := Prod.mk.inj hleft
  refine ⟨?_, outcome, h, hunresolved, hdiagnostics⟩
  rw [RegistersOnly, hregistered]
  simp [Definition.kind]

end Document

end CityScene
