import CityScene.Proofs.Model.Completion
import Mathlib.Data.List.Induction

/-!
# References that lead nowhere

A model is told of definitions and of references in any order.  A reference that is answered at once
is forgotten, the others are kept once each, and completing the model drops those that are answered
by then.  The result is as simple as if nothing had been done before the end: of all references
told, the first for each identifier and kind that the completed model does not answer
(`filter_finalize_run`).

The reason is that answers are never lost: as long as no identifier is defined under two kinds, a
later definition only replaces one of the same kind (`isAnswered_run_iff`), so a reference that was
answered once is answered in the end, and one that is not answered in the end has been kept
(`firstMentions_pending`).
-/

namespace CityScene

/-- What a reference asks for: an identifier, under a kind. -/
abbrev Mention := String × ReferenceKind

def Reference.mention (r : Reference) : Mention :=
  (r.id, r.kind)

namespace Model

/-! ### First mentions -/

theorem firstMentions_cons (r : Reference) (rest : List Reference) :
    firstMentions (r :: rest) =
      r :: (firstMentions rest).filter fun s => s.mention ≠ r.mention := by
  rw [firstMentions]
  congr 1
  exact List.filter_congr fun s _ => by
    simp only [Reference.mention, ne_eq, Prod.mk.injEq]

theorem firstMentions_subset (l : List Reference) : firstMentions l ⊆ l := by
  induction l with
  | nil => exact List.Subset.refl _
  | cons r rest ih =>
    rw [firstMentions_cons]
    exact List.cons_subset_cons r (List.Subset.trans List.filter_sublist.subset ih)

/-- A reference at the end counts if nothing before it mentions the same. -/
theorem firstMentions_concat (l : List Reference) (r : Reference) :
    firstMentions (l ++ [r]) =
      if r.mention ∈ l.map (·.mention) then firstMentions l else firstMentions l ++ [r] := by
  induction l with
  | nil => rfl
  | cons a l ih =>
    rw [List.cons_append, firstMentions_cons, firstMentions_cons, ih]
    by_cases ha : r.mention = a.mention
    · have hmem : r.mention ∈ (a :: l).map (·.mention) := by rw [ha]; exact List.mem_cons_self
      rw [if_pos hmem]
      split
      · rfl
      · rw [List.filter_append, List.filter_cons_of_neg (by simp [ha]), List.filter_nil,
          List.append_nil]
    · have hcons : r.mention ∈ (a :: l).map (·.mention) ↔ r.mention ∈ l.map (·.mention) := by
        rw [List.map_cons, List.mem_cons, or_iff_right ha]
      by_cases h : r.mention ∈ l.map (·.mention)
      · rw [if_pos h, if_pos (hcons.2 h)]
      · rw [if_neg h, if_neg (mt hcons.1 h), List.filter_append,
          List.filter_cons_of_pos (by simpa using ha), List.filter_nil, List.cons_append]

theorem eraseDups_concat (l : List Mention) (p : Mention) :
    (l ++ [p]).eraseDups = if p ∈ l then l.eraseDups else l.eraseDups ++ [p] := by
  rw [List.eraseDups_append, List.removeAll]
  by_cases h : p ∈ l
  · rw [if_pos h, List.filter_cons_of_neg (by simpa using h), List.filter_nil, List.eraseDups_nil,
      List.append_nil]
  · rw [if_neg h, List.filter_cons_of_pos (by simpa using h)]
    rfl

theorem map_mention_firstMentions (l : List Reference) :
    (firstMentions l).map (·.mention) = (l.map (·.mention)).eraseDups := by
  induction l using List.reverseRecOn with
  | nil => rfl
  | append_singleton l r ih =>
    rw [firstMentions_concat, List.map_append, List.map_singleton, eraseDups_concat, ← ih]
    split
    · rfl
    · rw [List.map_append, List.map_singleton]

theorem find?_of_mem_firstMentions {l : List Reference} {r : Reference}
    (h : r ∈ firstMentions l) : l.find? (fun s => s.mention = r.mention) = some r := by
  induction l with
  | nil => cases h
  | cons a l ih =>
    rw [firstMentions_cons] at h
    rcases List.mem_cons.1 h with rfl | h
    · exact List.find?_cons_of_pos (by simp)
    · obtain ⟨h, hne⟩ := List.mem_filter.1 h
      rw [List.find?_cons_of_neg (by simpa using Ne.symm (of_decide_eq_true hne)), ih h]

/-- Choosing by what is mentioned may be done before or after. -/
theorem firstMentions_filter (l : List Reference) (p : Mention → Bool) :
    firstMentions (l.filter fun r => p r.mention) =
      (firstMentions l).filter fun r => p r.mention := by
  induction l with
  | nil => rfl
  | cons a l ih =>
    rw [firstMentions_cons]
    cases ha : p a.mention with
    | true =>
      simp only [List.filter_cons, ha, if_true]
      rw [firstMentions_cons, ih, List.filter_filter, List.filter_filter]
      congr 1
      exact List.filter_congr fun s _ => Bool.and_comm _ _
    | false =>
      simp only [List.filter_cons, ha, Bool.false_eq_true, if_false]
      rw [ih, List.filter_filter]
      refine List.filter_congr fun s _ => ?_
      by_cases hs : s.mention = a.mention
      · rw [hs, ha, Bool.false_and]
      · rw [decide_eq_true hs, Bool.and_true]

/-! ### Calls -/

/-- What a model is told while it is built. -/
inductive Call
  | register (id : String) (definition : Definition)
  | record (reference : Reference)

def call (m : Model) : Call → Model
  | .register id definition => m.register id definition
  | .record reference => m.recordReference reference

def run (m : Model) (calls : List Call) : Model :=
  calls.foldl call m

def Call.reference? : Call → Option Reference
  | register _ _ => none
  | record reference => some reference

def Call.definition? (id : String) : Call → Option Definition
  | register other definition => if id = other then some definition else none
  | record _ => none

/-- The references of some calls, in order. -/
def recorded (calls : List Call) : List Reference :=
  calls.filterMap (·.reference?)

/-- The definitions that calls register under an identifier, in order. -/
def registered (calls : List Call) (id : String) : List Definition :=
  calls.filterMap (·.definition? id)

/-- All that is ever defined under an identifier: in the shared registry, in the model, by the
calls. -/
def definitions (m : Model) (calls : List Call) (id : String) : List Definition :=
  (m.shared.bind (·.get? id)).toList ++ (m.registry.get? id).toList ++ registered calls id

/-- No identifier is defined under two kinds. -/
def KindsAgree (m : Model) (calls : List Call) : Prop :=
  ∀ id, ∀ d ∈ m.definitions calls id, ∀ d' ∈ m.definitions calls id, d.kind = d'.kind

theorem run_concat (m : Model) (calls : List Call) (c : Call) :
    m.run (calls ++ [c]) = (m.run calls).call c :=
  List.foldl_append

theorem recorded_concat (calls : List Call) (c : Call) :
    recorded (calls ++ [c]) = recorded calls ++ c.reference?.toList := by
  rw [recorded, List.filterMap_append, recorded]
  cases c <;> rfl

theorem registered_append (calls later : List Call) (id : String) :
    registered (calls ++ later) id = registered calls id ++ registered later id :=
  List.filterMap_append

theorem registered_concat (calls : List Call) (c : Call) (id : String) :
    registered (calls ++ [c]) id = registered calls id ++ (c.definition? id).toList := by
  rw [registered_append, registered.eq_1 [c], List.filterMap_cons, List.filterMap_nil]
  cases c.definition? id <;> rfl

theorem registry_recordReference (m : Model) (r : Reference) :
    (m.recordReference r).registry = m.registry := by
  rcases recordReference_cases m r with h | h <;> rw [h]

theorem shared_run (m : Model) (calls : List Call) : (m.run calls).shared = m.shared := by
  induction calls using List.reverseRecOn with
  | nil => rfl
  | append_singleton calls c ih =>
    rw [run_concat, ← ih]
    cases c with
    | register id definition => rfl
    | record r => rcases recordReference_cases (m.run calls) r with h | h <;> rw [call, h]

theorem get?_run (m : Model) (calls : List Call) (id : String) :
    (m.run calls).registry.get? id = (registered calls id).getLast?.or (m.registry.get? id) := by
  induction calls using List.reverseRecOn with
  | nil => rfl
  | append_singleton calls c ih =>
    rw [run_concat, registered_concat]
    cases c with
    | register other definition =>
      rw [call, register, Table.get?_insert, Call.definition?]
      split
      · rw [Option.toList_some, List.getLast?_concat, Option.some_or]
      · rw [Option.toList_none, List.append_nil, ih]
    | record r =>
      rw [call, registry_recordReference, ih, Call.definition?, Option.toList_none,
        List.append_nil]

theorem getLast?_toList {α : Type} (o : Option α) : o.toList.getLast? = o := by
  cases o <;> rfl

/-- **Of all definitions under an identifier the last one counts**: later ones replace earlier ones,
and the model's own go before shared ones. -/
theorem definition?_run (m : Model) (calls : List Call) (id : String) :
    (m.run calls).definition? id = (m.definitions calls id).getLast? := by
  rw [definition?, get?_run, shared_run, definitions, List.getLast?_append, List.getLast?_append,
    getLast?_toList, getLast?_toList, ← Option.or_assoc, Option.orElse_eq_orElse,
    Option.orElse_eq_or]

/-- A definition of the kind answers the mention. -/
def isAnswered (m : Model) (p : Mention) : Bool :=
  (m.resolve? p.1).any (·.kind == p.2)

/-- **An answer is a definition of the kind, whenever it was made.** -/
theorem isAnswered_run_iff {m : Model} {calls : List Call} (h : m.KindsAgree calls) {p : Mention} :
    (m.run calls).isAnswered p = true ↔ ∃ d ∈ m.definitions calls (bareId p.1), d.kind = p.2 := by
  rw [isAnswered, resolve?, definition?_run]
  constructor
  · intro hany
    obtain ⟨d, hd, hkind⟩ := (Option.any_eq_true _ _).1 hany
    exact ⟨d, List.mem_of_getLast? hd, eq_of_beq hkind⟩
  · rintro ⟨d, hd, hkind⟩
    have hlast := List.getLast?_eq_some_getLast (List.ne_nil_of_mem hd)
    rw [hlast, Option.any_some, beq_iff_eq, ← hkind]
    exact h _ _ (List.getLast_mem _) d hd

/-- Earlier calls make no more definitions. -/
theorem definitions_subset {m : Model} {calls : List Call} (later : List Call) (id : String) :
    m.definitions calls id ⊆ m.definitions (calls ++ later) id := by
  rw [definitions, definitions, registered_append, ← List.append_assoc]
  exact List.subset_append_left _ _

theorem KindsAgree.of_append {m : Model} {calls later : List Call}
    (h : m.KindsAgree (calls ++ later)) : m.KindsAgree calls :=
  fun id d hd d' hd' => h id d (definitions_subset later id hd) d' (definitions_subset later id hd')

/-- **Answers are never lost.** -/
theorem isAnswered_append {m : Model} {calls later : List Call}
    (h : m.KindsAgree (calls ++ later)) {p : Mention} (hp : (m.run calls).isAnswered p = true) :
    (m.run (calls ++ later)).isAnswered p = true := by
  obtain ⟨d, hd, hkind⟩ := (isAnswered_run_iff h.of_append).1 hp
  exact (isAnswered_run_iff h).2 ⟨d, definitions_subset later _ hd, hkind⟩

/-! ### What is pending -/

theorem answers_of_ne {m : Model} {r : Reference} (h : r.kind ≠ .polygon) :
    m.answers r = m.isAnswered r.mention := by
  rw [answers, isAnswered, Reference.mention]
  split
  · next hkind => exact absurd hkind h
  · rfl

/-- The mention is of a definition, and nothing in the model answers it. -/
def isOpen (m : Model) (p : Mention) : Bool :=
  p.2 ≠ .polygon && !m.isAnswered p

/-- Recording a reference that is not answered keeps it, once. -/
theorem pending_recordReference {m : Model} {r : Reference} (h : m.isOpen r.mention = true) :
    (m.recordReference r).pending = if r ∈ m.pending then m.pending else m.pending ++ [r] := by
  obtain ⟨hkind, hanswer⟩ := Bool.and_eq_true_iff.1 h
  have hkind : r.kind ≠ .polygon := of_decide_eq_true hkind
  have hanswer : m.answers r = false := by
    rw [answers_of_ne hkind]
    simpa using hanswer
  rw [recordReference, hanswer, if_neg fun h => Bool.false_ne_true h.2, keepPending,
    List.contains_eq_mem]
  by_cases hmem : r ∈ m.pending
  · rw [if_pos hmem, if_pos (decide_eq_true hmem)]
  · rw [if_neg hmem, if_neg (by simpa using hmem)]

/-- **References that stay open are kept.**  If the mentions with a property are never answered, the
pending references with it are those recorded, and the first of them are the same. -/
theorem firstMentions_pending {m : Model} (hpending : m.pending = []) {p : Mention → Bool}
    (calls : List Call)
    (hopen : ∀ before after, calls = before ++ after → ∀ q, p q = true →
      (m.run before).isOpen q = true) :
    (∀ r, r ∈ (m.run calls).pending.filter (p ·.mention) ↔
      r ∈ (recorded calls).filter (p ·.mention)) ∧
    firstMentions ((m.run calls).pending.filter (p ·.mention)) =
      firstMentions ((recorded calls).filter (p ·.mention)) := by
  induction calls using List.reverseRecOn with
  | nil => rw [show (m.run []).pending = [] from hpending]; exact ⟨fun _ => Iff.rfl, rfl⟩
  | append_singleton calls c ih =>
    obtain ⟨hmem, hfirst⟩ := ih fun before after h =>
      hopen before (after ++ [c]) (by rw [h, List.append_assoc])
    rw [run_concat, recorded_concat, List.filter_append]
    cases c with
    | register id definition =>
      rw [Call.reference?, Option.toList_none, List.filter_nil, List.append_nil]
      exact ⟨hmem, hfirst⟩
    | record r =>
      rw [Call.reference?, Option.toList_some, call]
      cases hr : p r.mention with
      | false =>
        have hdrop : [r].filter (p ·.mention) = [] := List.filter_cons_of_neg (by simp [hr])
        rw [hdrop, List.append_nil]
        rcases recordReference_cases (m.run calls) r with h | h
        · rw [h]
          exact ⟨hmem, hfirst⟩
        · rw [h, List.filter_append, hdrop, List.append_nil]
          exact ⟨hmem, hfirst⟩
      | true =>
        have hkeep : [r].filter (p ·.mention) = [r] := List.filter_cons_of_pos (by simp [hr])
        rw [pending_recordReference (hopen calls [.record r] rfl _ hr), hkeep]
        by_cases hpend : r ∈ (m.run calls).pending
        · have hrec : r ∈ (recorded calls).filter (p ·.mention) :=
            (hmem r).1 (List.mem_filter.2 ⟨hpend, hr⟩)
          rw [if_pos hpend, firstMentions_concat, if_pos (List.mem_map_of_mem hrec)]
          refine ⟨fun s => ?_, hfirst⟩
          rw [hmem, List.mem_append, List.mem_singleton]
          exact ⟨.inl, fun h => h.elim id fun h => h ▸ hrec⟩
        · rw [if_neg hpend, List.filter_append, hkeep, firstMentions_concat, firstMentions_concat,
            hfirst]
          refine ⟨fun s => by rw [List.mem_append, List.mem_append, hmem], ?_⟩
          simp only [List.mem_map, hmem]

/-! ### Completing the model -/

theorem exists_foldl_recordReference (m : Model) (references : List Reference) :
    ∃ kept, kept ⊆ references ∧
      references.foldl recordReference m = { m with pending := m.pending ++ kept } := by
  induction references generalizing m with
  | nil => exact ⟨[], List.Subset.refl _, by rw [List.append_nil]; rfl⟩
  | cons r references ih =>
    obtain ⟨kept, hkept, hrest⟩ := ih (m.recordReference r)
    rw [List.foldl_cons, hrest]
    rcases recordReference_cases m r with h | h <;> rw [h]
    · exact ⟨kept, List.subset_cons_of_subset r hkept, rfl⟩
    · exact ⟨r :: kept, List.cons_subset_cons r hkept, by rw [List.append_assoc]; rfl⟩

/-- Painting adds nothing but polygons to what is pending, and defines nothing. -/
theorem exists_bindAppearances (m : Model) :
    ∃ missed : List Reference, (∀ r ∈ missed, r.kind = .polygon) ∧
      m.bindAppearances.pending = m.pending ++ missed ∧
      m.bindAppearances.isAnswered = m.isAnswered := by
  obtain ⟨missed, hmissed, hbound⟩ := exists_foldl_recordReference
    (m.mapPolygons (paintPolygon m.paints))
    ((m.missedTargets m.paints).map fun id => Reference.ofLink id .polygon none)
  refine ⟨missed, fun r hr => ?_, ?_, ?_⟩
  · obtain ⟨id, -, rfl⟩ := List.mem_map.1 (hmissed hr)
    rfl
  · rw [bindAppearances, hbound]
    rfl
  · rw [bindAppearances, hbound]
    rfl

theorem isAnswered_finalize (m : Model) : m.finalize.1.isAnswered = m.isAnswered := by
  obtain ⟨missed, -, -, hanswered⟩ := exists_bindAppearances m
  exact hanswered

/-- **What is returned is what is pending and open**, apart from polygons. -/
theorem filter_finalize (m : Model) :
    m.finalize.2.filter (·.kind ≠ .polygon) =
      firstMentions (m.pending.filter (m.isOpen ·.mention)) := by
  obtain ⟨missed, hmissed, hpending, hanswered⟩ := exists_bindAppearances m
  have hpolygon : missed.filter (m.isOpen ·.mention) = [] :=
    List.filter_eq_nil_iff.2 fun r hr => by simp [isOpen, Reference.mention, hmissed r hr]
  have hopen (r : Reference) : (decide (r.kind ≠ .polygon) && !m.bindAppearances.answers r) =
      m.isOpen r.mention := by
    by_cases h : r.kind = .polygon
    · simp [isOpen, Reference.mention, h]
    · rw [answers_of_ne h, hanswered]
      rfl
  have hfirst := firstMentions_filter
    (m.bindAppearances.pending.filter (!m.bindAppearances.answers ·)) fun p => p.2 ≠ .polygon
  refine hfirst.symm.trans ?_
  rw [List.filter_filter, hpending, ← List.append_nil (m.pending.filter (m.isOpen ·.mention)),
    ← hpolygon, ← List.filter_append]
  congr 1
  exact List.filter_congr fun r _ => hopen r

theorem isOpen_iff {m : Model} {p : Mention} :
    m.isOpen p = true ↔ p.2 ≠ .polygon ∧ ∀ d, m.resolve p.1 = .ok d → d.kind ≠ p.2 := by
  rw [isOpen, Bool.and_eq_true, decide_eq_true_iff, isAnswered, resolve]
  refine and_congr_right fun _ => ?_
  cases m.resolve? p.1 with
  | none => exact iff_of_true rfl fun d h => by cases h
  | some d => simp

theorem isOpen_of_append {m : Model} {calls later : List Call} (h : m.KindsAgree (calls ++ later))
    {p : Mention} (hp : (m.run (calls ++ later)).isOpen p = true) :
    (m.run calls).isOpen p = true := by
  rw [isOpen, Bool.and_eq_true, Bool.not_eq_true', Bool.eq_false_iff] at hp ⊢
  exact ⟨hp.1, fun hanswered => hp.2 (isAnswered_append h hanswered)⟩

section Run

variable {m : Model} {calls : List Call}

/-- **The first of all open references are returned**, no matter what was done when. -/
theorem filter_finalize_run (hpending : m.pending = []) (h : m.KindsAgree calls) :
    (m.run calls).finalize.2.filter (·.kind ≠ .polygon) =
      firstMentions ((recorded calls).filter ((m.run calls).isOpen ·.mention)) := by
  rw [filter_finalize]
  refine (firstMentions_pending hpending calls fun before after hcalls q hq => ?_).2
  subst hcalls
  exact isOpen_of_append h hq

theorem isOpen_finalize (m : Model) : m.finalize.1.isOpen = m.isOpen := by
  funext p
  rw [isOpen, isOpen, isAnswered_finalize]

theorem mentions_finalize_run (hpending : m.pending = []) (h : m.KindsAgree calls) :
    ((m.run calls).finalize.2.filter (·.kind ≠ .polygon)).map (·.mention) =
      (((recorded calls).map (·.mention)).filter (m.run calls).finalize.1.isOpen).eraseDups := by
  rw [filter_finalize_run hpending h, map_mention_firstMentions, List.filter_map, isOpen_finalize]
  rfl

theorem find?_finalize_run (hpending : m.pending = []) (h : m.KindsAgree calls) {r : Reference}
    (hr : r ∈ (m.run calls).finalize.2.filter (·.kind ≠ .polygon)) :
    (recorded calls).find? (fun s => s.mention = r.mention) = some r := by
  rw [filter_finalize_run hpending h] at hr
  have hopen := (List.mem_filter.1 (firstMentions_subset _ hr)).2
  have hfind := find?_of_mem_firstMentions hr
  rw [List.find?_filter] at hfind
  rw [← hfind]
  congr 1
  funext s
  by_cases hs : s.mention = r.mention
  · simp [hs, hopen]
  · simp [hs]

/-- **When a definition is made does not matter.**  Calls with the same references in the same
order, and with the same definitions in any order between them, lead to the same open references. -/
theorem filter_finalize_run_congr {calls' : List Call} (hpending : m.pending = [])
    (h : m.KindsAgree calls) (hrecorded : recorded calls' = recorded calls)
    (hregistered : ∀ id d, d ∈ registered calls' id ↔ d ∈ registered calls id) :
    (m.run calls').finalize.2.filter (·.kind ≠ .polygon) =
      (m.run calls).finalize.2.filter (·.kind ≠ .polygon) := by
  have hdefinitions (id : String) (d : Definition) :
      d ∈ m.definitions calls' id ↔ d ∈ m.definitions calls id := by
    simp only [definitions, List.mem_append, hregistered]
  have h' : m.KindsAgree calls' := fun id d hd d' hd' =>
    h id d ((hdefinitions id d).1 hd) d' ((hdefinitions id d').1 hd')
  have hopen : (m.run calls').isOpen = (m.run calls).isOpen := by
    funext p
    have hanswered : (m.run calls').isAnswered p = (m.run calls).isAnswered p := by
      rw [Bool.eq_iff_iff, isAnswered_run_iff h, isAnswered_run_iff h']
      simp only [hdefinitions]
    rw [isOpen, isOpen, hanswered]
  rw [filter_finalize_run hpending h, filter_finalize_run hpending h', hrecorded, hopen]

end Run

end Model

end CityScene
