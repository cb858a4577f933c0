import CityScene.Proofs.Document.Step
import CityScene.Proofs.Model.References

/-!
# The references of a document

Of the model that a document builds, only calls that register definitions and record references
change what is defined and what is pending.  So reading a document is a run of such calls
(`exists_run_readEvents`), and what is true of all runs is true of all documents.

References that lead nowhere are reported at the end and not before (`diagnostics_readEvents`).
-/

namespace CityScene

namespace Model

/-- The models agree on what is defined and what is pending. -/
structure SameReferences (m m' : Model) : Prop where
  registry : m'.registry = m.registry
  shared : m'.shared = m.shared
  pending : m'.pending = m.pending

namespace SameReferences

variable {l m n : Model}

theorem refl (m : Model) : SameReferences m m :=
  ⟨rfl, rfl, rfl⟩

theorem trans (h : SameReferences l m) (h' : SameReferences m n) : SameReferences l n where
  registry := h'.registry.trans h.registry
  shared := h'.shared.trans h.shared
  pending := h'.pending.trans h.pending

theorem register (h : SameReferences m n) (id : String) (definition : Definition) :
    SameReferences (m.register id definition) (n.register id definition) where
  registry := by rw [Model.register, Model.register, h.registry]
  shared := h.shared
  pending := h.pending

theorem recordReference (h : SameReferences m n) (r : Reference) :
    SameReferences (m.recordReference r) (n.recordReference r) := by
  have hanswers :
      r.kind ≠ .polygon ∧ n.answers r = true ↔ r.kind ≠ .polygon ∧ m.answers r = true := by
    refine and_congr_right fun hkind => ?_
    rw [answers_of_ne hkind, answers_of_ne hkind, isAnswered, isAnswered, resolve?, resolve?,
      definition?, definition?, h.registry, h.shared]
  rw [Model.recordReference, Model.recordReference, if_congr hanswers rfl rfl, keepPending,
    keepPending, h.pending]
  split
  · exact h
  · split
    · exact h
    · exact ⟨h.registry, h.shared, rfl⟩

theorem call (h : SameReferences m n) (c : Call) : SameReferences (m.call c) (n.call c) := by
  cases c with
  | register id definition => exact h.register id definition
  | record r => exact h.recordReference r

theorem run (h : SameReferences m n) (calls : List Call) :
    SameReferences (m.run calls) (n.run calls) := by
  induction calls generalizing m n with
  | nil => exact h
  | cons c calls ih => exact ih (h.call c)

end SameReferences

/-- Calls change nothing but what is defined and what is pending. -/
theorem run_eq (m : Model) (calls : List Call) :
    m.run calls =
      { m with registry := (m.run calls).registry, pending := (m.run calls).pending } := by
  induction calls using List.reverseRecOn with
  | nil => rfl
  | append_singleton calls c ih =>
    rw [run_concat]
    cases c with
    | register id definition => rw [call, register, ih]
    | record r => rcases recordReference_cases (m.run calls) r with h | h <;> rw [call, h, ih]

end Model

namespace Document.Builder

/-- What is defined and pending comes from some calls on an empty model. -/
def IsTold (config : Config) (b : Builder) : Prop :=
  ∃ calls, Model.SameReferences (({ shared := config.shared } : Model).run calls) b.model

theorem IsTold.of_sameReferences {config : Config} {b b' : Builder} (hb : b.IsTold config)
    (h : Model.SameReferences b.model b'.model) : b'.IsTold config := by
  obtain ⟨calls, hcalls⟩ := hb
  exact ⟨calls, hcalls.trans h⟩

theorem IsTold.call {config : Config} {b b' : Builder} (hb : b.IsTold config) {c : Model.Call}
    (h : b'.model = b.model.call c) : b'.IsTold config := by
  obtain ⟨calls, hcalls⟩ := hb
  refine ⟨calls ++ [c], ?_⟩
  rw [Model.run_concat, h]
  exact hcalls.call c

theorem IsTold.touch {config : Config} {b b' : Builder} (hb : b.IsTold config) (h : Touch b b') :
    b'.IsTold config := by
  cases h with
  | defined id definition => exact hb.call (c := .register id definition) rfl
  | mentioned r => exact hb.call (c := .record r) rfl
  | _ => exact hb.of_sameReferences ⟨rfl, rfl, rfl⟩

theorem IsTold.applyAll {config : Config} {b b' : Builder} {events : List Event}
    (hb : b.IsTold config) (h : b.applyAll config events = .ok b') : b'.IsTold config :=
  applyAll_invariant (P := IsTold config)
    (fun hstep => hstep.keeps (fun h hb => hb.touch h) (fun _ hb => hb) (fun _ hb => hb)
      fun _ hb => hb.of_sameReferences ⟨rfl, rfl, rfl⟩) h hb

/-! ### Reports -/

/-- No report so far is on a reference. -/
def NoneDangling (b : Builder) : Prop :=
  ∀ d ∈ b.diagnostics, d.kind ≠ .danglingReference

theorem NoneDangling.touch {b b' : Builder} (hb : b.NoneDangling) (h : Touch b b') :
    b'.NoneDangling := by
  cases h with
  | reported problem element hkind =>
    intro d hd
    rcases List.mem_append.1 hd with hd | hd
    · exact hb d hd
    · rw [List.mem_singleton.1 hd]
      exact hkind
  | _ => exact hb

theorem NoneDangling.applyAll {config : Config} {b b' : Builder} {events : List Event}
    (hb : b.NoneDangling) (h : b.applyAll config events = .ok b') : b'.NoneDangling :=
  applyAll_invariant (P := NoneDangling)
    (fun hstep => hstep.keeps (fun h hb => hb.touch h) (fun _ hb => hb) (fun _ hb => hb)
      fun _ hb => hb) h hb

end Document.Builder

/-- Tessellation reports nothing but its own failures. -/
theorem Model.kind_of_mem_tessellateAll {m : Model} {smooth : Bool} {d : Diagnostic}
    (h : d ∈ (m.tessellateAll smooth).2) : d.kind = .tessellationFailure := by
  obtain ⟨⟨p, q⟩, -, hreport⟩ := List.mem_filterMap.1 h
  replace hreport : tessellationReport? p q = some d := hreport
  rw [tessellationReport?] at hreport
  split at hreport
  · cases hreport
  · obtain ⟨failure, -, rfl⟩ := Option.map_eq_some_iff.1 hreport
    rfl

namespace Document

/-- **Reading a document is a run of calls.**  The calls go to a model that has the finished objects
and no definitions of its own. -/
theorem exists_run_readEvents {config : Config} {events : List Event} {outcome : Outcome}
    (h : readEvents config events = .ok outcome) :
    ∃ (m : Model) (calls : List Model.Call), m.pending = [] ∧ m.registry = ∅ ∧
      m.shared = config.shared ∧ (m.run calls).finalize = (outcome.model, outcome.unresolved) := by
  obtain ⟨b, hb, -, rfl⟩ := Builder.exists_of_readEvents_eq_ok h
  have hstart : (Builder.start config).IsTold config := ⟨[], .refl _⟩
  obtain ⟨calls, hcalls⟩ := hstart.applyAll hb
  have hfinal (meshed : Model) (hmeshed : Model.SameReferences b.model meshed) :
      ∃ m : Model, m.pending = [] ∧ m.registry = ∅ ∧ m.shared = config.shared ∧
        m.run calls = meshed := by
    have hrun := hcalls.trans hmeshed
    have hshared : meshed.shared = config.shared := hrun.shared.trans (Model.shared_run _ _)
    let m : Model := { meshed with registry := ∅, pending := [] }
    have hm : Model.SameReferences { shared := config.shared } m := ⟨rfl, hshared, rfl⟩
    have hsame := hm.run calls
    refine ⟨m, rfl, rfl, hshared, ?_⟩
    rw [Model.run_eq, hsame.registry, hsame.pending, ← hrun.registry, ← hrun.pending]
  rw [Builder.complete]
  by_cases hmode : config.mode = .deferred
  · simp only [if_pos hmode]
    obtain ⟨m, hpending, hregistry, hshared, hm⟩ := hfinal (b.model.tessellateAll config.smooth).1
      ⟨rfl, rfl, rfl⟩
    exact ⟨m, calls, hpending, hregistry, hshared, by rw [hm]⟩
  · simp only [if_neg hmode]
    obtain ⟨m, hpending, hregistry, hshared, hm⟩ := hfinal b.model (.refl _)
    exact ⟨m, calls, hpending, hregistry, hshared, by rw [hm]⟩

/-- The reports end with one on each reference that leads nowhere, and no other is on one. -/
theorem diagnostics_readEvents {config : Config} {events : List Event} {outcome : Outcome}
    (h : readEvents config events = .ok outcome) :
    ∃ found, (∀ d ∈ found, d.kind ≠ .danglingReference) ∧
      outcome.diagnostics = found ++ outcome.unresolved.map fun r => ⟨.dangling r, r.referrer⟩ := by
  obtain ⟨b, hb, -, rfl⟩ := Builder.exists_of_readEvents_eq_ok h
  have hstart : (Builder.start config).NoneDangling := fun _ hd => absurd hd List.not_mem_nil
  have hfound := hstart.applyAll hb
  rw [Builder.complete]
  by_cases hmode : config.mode = .deferred
  · simp only [if_pos hmode]
    refine ⟨_, fun d hd => ?_, rfl⟩
    rcases List.mem_append.1 hd with hd | hd
    · exact hfound d hd
    · rw [Model.kind_of_mem_tessellateAll hd]
      decide
  · simp only [if_neg hmode]
    refine ⟨_, fun d hd => ?_, rfl⟩
    rw [List.append_nil] at hd
    exact hfound d hd

/-- **What is reported as leading nowhere.**  Definitions and references may come in any order, as
long as no identifier is defined under two kinds.  Apart from polygons, completing the model then
returns one reference for each mention that was recorded and that the completed model does not
answer, in the order of the first recordings, and each is the first that was recorded; definitions
that come earlier or later change nothing.

A document is such a run of calls, and its diagnostics end with one report on each reference that is
returned, in the same order; no other report is on a reference. -/
theorem references_finalize :
    (∀ (m : Model) (calls : List Model.Call), m.pending = [] → m.KindsAgree calls →
      let final := (m.run calls).finalize.1
      let unresolved := (m.run calls).finalize.2.filter (·.kind ≠ .polygon)
      (unresolved.map (·.mention) =
        (((Model.recorded calls).map (·.mention)).filter final.isOpen).eraseDups) ∧
      (∀ p, final.isOpen p = true ↔
        p.2 ≠ .polygon ∧ ∀ d, final.resolve p.1 = .ok d → d.kind ≠ p.2) ∧
      (∀ r ∈ unresolved,
        (Model.recorded calls).find? (fun s => s.mention = r.mention) = some r) ∧
      ∀ calls', Model.recorded calls' = Model.recorded calls →
        (∀ id d, d ∈ Model.registered calls' id ↔ d ∈ Model.registered calls id) →
        (m.run calls').finalize.2.filter (·.kind ≠ .polygon) = unresolved) ∧
    ∀ (config : Config) (events : List Event) (outcome : Outcome),
      readEvents config events = .ok outcome →
      (∃ (m : Model) (calls : List Model.Call), m.pending = [] ∧ m.registry = ∅ ∧
        m.shared = config.shared ∧
        (m.run calls).finalize = (outcome.model, outcome.unresolved)) ∧
      ∃ found, (∀ d ∈ found, d.kind ≠ .danglingReference) ∧
        outcome.diagnostics =
          found ++ outcome.unresolved.map fun r => ⟨.dangling r, r.referrer⟩ := by
  refine ⟨fun m calls hpending hkinds => ?_, fun config events outcome h => ?_⟩
  · exact ⟨Model.mentions_finalize_run hpending hkinds, fun p => Model.isOpen_iff,
      fun r hr => Model.find?_finalize_run hpending hkinds hr,
      fun calls' => Model.filter_finalize_run_congr hpending hkinds⟩
  · exact ⟨exists_run_readEvents h, diagnostics_readEvents h⟩

/-- A reference system is defined after it is mentioned; a template is mentioned twice and never
defined. -/
def lateSystem : List Model.Call :=
  [.record ⟨"crs", .referenceSystem, some "B"⟩,
   .record ⟨"tree", .template, some "B"⟩,
   .register "crs" (.referenceSystem ⟨"crs", some 3⟩),
   .record ⟨"tree", .template, some "C"⟩]

theorem references_lateSystem :
    (({} : Model).run lateSystem).finalize.2.filter (·.kind ≠ .polygon) =
      [⟨"tree", .template, some "B"⟩] := by
  have hkinds : ({} : Model).KindsAgree lateSystem := by
    intro id d hd d' hd'
    have honly {d : Definition} (hd : d ∈ ({} : Model).definitions lateSystem id) :
        d = .referenceSystem ⟨"crs", some 3⟩ := by
      obtain ⟨c, hc, hd⟩ := List.mem_filterMap.1 hd
      simp only [lateSystem, List.mem_cons, List.not_mem_nil, or_false] at hc
      rcases hc with rfl | rfl | rfl | rfl
      · cases hd
      · cases hd
      · rw [Model.Call.definition?] at hd
        split at hd
        · exact (Option.some.inj hd).symm
        · cases hd
      · cases hd
    rw [honly hd, honly hd']
  obtain ⟨hmentions, -, hfirst, -⟩ := references_finalize.1 {} lateSystem rfl hkinds
  rw [show (((Model.recorded lateSystem).map (·.mention)).filter _).eraseDups =
    [("tree", .template)] by decide +kernel] at hmentions
  obtain ⟨r, hr, hmention⟩ := List.map_eq_singleton_iff.1 hmentions
  have hfind := hfirst r (by rw [hr]; exact List.mem_singleton.2 rfl)
  rw [hmention] at hfind
  rw [hr, ← Option.some.inj hfind]

end Document

end CityScene
