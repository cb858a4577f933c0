import Mathlib.Data.Finset.Card
import Mathlib.Data.List.Induction
import CityScene.Reference

/-!
# The history of a table

What a table holds is told by what was entered, in order.  Values and order of a table stand in step,
so its entries are those of a plain list in which a name that is entered again keeps its place
(`entries_insert`).  After any entries the names stand in the order of their first entry
(`order_insertAll`), and under each of them is the value that was entered last
(`get?_insertAll_eq_or`); what an entry hands back is what the entries before it left under the name
(`getElem?_exchangeAll`).
-/

namespace CityScene

/-! ### Values in an order -/

namespace Dictionary

variable {α : Type} {d : Dictionary α} {names : List String} {name : String}

/-- The names with their values, without the names that have none. -/
def inOrder (d : Dictionary α) (names : List String) : List (String × α) :=
  names.filterMap fun name => (d.get? name).map (name, ·)

theorem inOrder_cons (d : Dictionary α) (first : String) (rest : List String) :
    d.inOrder (first :: rest) =
      ((d.get? first).map (first, ·)).toList ++ d.inOrder rest := by
  rw [inOrder, List.filterMap_cons]
  cases d.get? first <;> rfl

theorem inOrder_append (d : Dictionary α) (names more : List String) :
    d.inOrder (names ++ more) = d.inOrder names ++ d.inOrder more :=
  List.filterMap_append

/-- A binding changes nothing about other names. -/
theorem inOrder_insert_of_notMem (h : name ∉ names) (value : α) :
    (d.insert name value).inOrder names = d.inOrder names := by
  refine List.filterMap_congr fun other hother => ?_
  have hne : other ≠ name := fun heq => h (heq ▸ hother)
  rw [get?_insert, if_neg hne]

/-- If all names have a value, each of them is there. -/
theorem map_inOrder (h : ∀ name ∈ names, (d.get? name).isSome = true) :
    (d.inOrder names).map (fun e => (e.1, some e.2)) =
      names.map fun name => (name, d.get? name) := by
  induction names with
  | nil => rfl
  | cons first rest ih =>
    obtain ⟨value, hvalue⟩ := Option.isSome_iff_exists.1 (h first List.mem_cons_self)
    rw [inOrder_cons, hvalue, List.map_cons, hvalue, ← ih fun n hn => h n (List.mem_cons_of_mem _ hn)]
    rfl

end Dictionary

namespace Table

variable {α : Type} {t : Table α} {history : List (String × α)} {name : String} {value : α}

/-! ### What a table holds -/

theorem isSome_get?_of_mem_order (h : name ∈ t.order) : (t.values.get? name).isSome = true := by
  rw [← Dictionary.contains_eq_isSome]
  exact (t.inStep.mem_iff name).1 h

/-- **The entries are the names in order, each with what is found under it.** -/
theorem map_entries (t : Table α) :
    t.entries.map (fun e => (e.1, some e.2)) = t.order.map fun name => (name, t.get? name) :=
  Dictionary.map_inOrder fun _ => isSome_get?_of_mem_order

theorem map_fst_entries (t : Table α) : t.entries.map Prod.fst = t.order := by
  have h := congrArg (List.map Prod.fst) t.map_entries
  rw [List.map_map, List.map_map] at h
  exact h.trans (List.map_id _)

/-- The entries are what is found under names. -/
theorem mem_entries_iff : (name, value) ∈ t.entries ↔ t.get? name = some value := by
  have hentry : (name, value) ∈ t.entries ↔ name ∈ t.order ∧ t.get? name = some value := by
    rw [entries, List.mem_filterMap]
    constructor
    · rintro ⟨other, hother, h⟩
      obtain ⟨found, hfound, heq⟩ := Option.map_eq_some_iff.1 h
      obtain ⟨rfl, rfl⟩ := Prod.mk.inj heq
      exact ⟨hother, hfound⟩
    · rintro ⟨hname, h⟩
      exact ⟨name, hname, congrArg (Option.map (name, ·)) h⟩
  rw [hentry, and_iff_right_iff_imp, t.inStep.mem_iff, Dictionary.contains_eq_isSome]
  exact fun h => congrArg Option.isSome h

theorem order_insert (t : Table α) (name : String) (value : α) :
    (t.insert name value).order = if name ∈ t.order then t.order else t.order ++ [name] := by
  rw [← ite_not]
  exact if_congr (t.inStep.isNone_get?_iff name) rfl rfl

/-- The size is the number of names, of which the dictionary lists each once as well. -/
theorem size_eq (t : Table α) : t.size = t.order.length := by
  have hperm : (t.values.bindings.map Prod.fst).Perm t.order := by
    rw [List.perm_ext_iff_of_nodup t.values.distinct t.inStep.nodup]
    intro name
    rw [t.inStep.mem_iff, Dictionary.contains, List.any_eq_true, List.mem_map]
    exact exists_congr fun e => and_congr_right fun _ => beq_iff_eq.symm
  rw [← hperm.length_eq, List.length_map]
  rfl

/-! ### The list that a table stands for -/

/-- Replaces the value of a name in place, or enters the name at the end. -/
def insertEntry (name : String) (value : α) : List (String × α) → List (String × α)
  | [] => [(name, value)]
  | e :: rest => if e.1 = name then (name, value) :: rest else e :: insertEntry name value rest

theorem insertEntry_of_notMem {entries : List (String × α)} (h : name ∉ entries.map Prod.fst)
    (value : α) : insertEntry name value entries = entries ++ [(name, value)] := by
  induction entries with
  | nil => rfl
  | cons e rest ih =>
    rw [List.map_cons, List.mem_cons, not_or] at h
    rw [insertEntry, if_neg (Ne.symm h.1), ih h.2, List.cons_append]

/-- A name that has a value already keeps its place. -/
theorem inOrder_insert_of_mem {d : Dictionary α} {names : List String} (hnodup : names.Nodup)
    (hvalues : ∀ n ∈ names, (d.get? n).isSome = true) (h : name ∈ names) (value : α) :
    (d.insert name value).inOrder names = insertEntry name value (d.inOrder names) := by
  induction names with
  | nil => cases h
  | cons first rest ih =>
    rw [List.nodup_cons] at hnodup
    obtain ⟨old, hold⟩ := Option.isSome_iff_exists.1 (hvalues first List.mem_cons_self)
    rw [Dictionary.inOrder_cons, Dictionary.inOrder_cons, Dictionary.get?_insert, hold]
    by_cases hfirst : first = name
    · obtain rfl := hfirst
      rw [if_pos rfl, Dictionary.inOrder_insert_of_notMem hnodup.1]
      exact (if_pos rfl).symm
    · have hrest := (List.mem_cons.1 h).resolve_left (Ne.symm hfirst)
      rw [if_neg hfirst, ih hnodup.2 (fun n hn => hvalues n (List.mem_cons_of_mem _ hn)) hrest]
      exact (if_neg hfirst).symm

/-- **A table is a list of entries in which a name that is entered again keeps its place.** -/
theorem entries_insert (t : Table α) (name : String) (value : α) :
    (t.insert name value).entries = insertEntry name value t.entries := by
  have hentries : (t.insert name value).entries =
      (t.values.insert name value).inOrder (t.insert name value).order := rfl
  rw [hentries, order_insert]
  split
  · next h =>
    exact inOrder_insert_of_mem t.inStep.nodup (fun _ => isSome_get?_of_mem_order) h value
  · next h =>
    have hlast : (t.values.insert name value).inOrder [name] = [(name, value)] := by
      rw [Dictionary.inOrder_cons, Dictionary.get?_insert, if_pos rfl]
      rfl
    rw [Dictionary.inOrder_append, Dictionary.inOrder_insert_of_notMem h, hlast,
      insertEntry_of_notMem (by rwa [map_fst_entries])]
    rfl

/-! ### Entering values -/

/-- Enters some values, one after the other. -/
def insertAll (t : Table α) : List (String × α) → Table α
  | [] => t
  | e :: rest => (t.insert e.1 e.2).insertAll rest

/-- Enters some values, one after the other, and hands back what each of them replaces. -/
def exchangeAll (t : Table α) : List (String × α) → List (Option α) × Table α
  | [] => ([], t)
  | e :: rest =>
    let (before, after) := t.exchange e.1 e.2
    let (replaced, last) := after.exchangeAll rest
    (before :: replaced, last)

/-- The value that was entered last under a name. -/
def latest? (name : String) (history : List (String × α)) : Option α :=
  (history.reverse.find? (·.1 == name)).map Prod.snd

theorem latest?_cons (name : String) (e : String × α) (history : List (String × α)) :
    latest? name (e :: history) =
      (latest? name history).or (if name = e.1 then some e.2 else none) := by
  rw [latest?, List.reverse_cons, List.find?_append, latest?]
  by_cases h : name = e.1
  · cases history.reverse.find? (·.1 == name) <;> simp [h]
  · have h' : ¬ e.1 = name := fun heq => h heq.symm
    cases history.reverse.find? (·.1 == name) <;> simp [h, h']

theorem mem_of_latest? (h : latest? name history = some value) : (name, value) ∈ history := by
  obtain ⟨e, he, rfl⟩ := Option.map_eq_some_iff.1 h
  have hname : e.1 = name := by simpa using List.find?_some he
  exact hname ▸ List.mem_reverse.1 (List.mem_of_find?_eq_some he)

theorem isSome_latest?_iff :
    (latest? name history).isSome = true ↔ name ∈ history.map Prod.fst := by
  simp [latest?]

theorem insertAll_append (t : Table α) (entries more : List (String × α)) :
    t.insertAll (entries ++ more) = (t.insertAll entries).insertAll more := by
  induction entries generalizing t with
  | nil => rfl
  | cons e rest ih => exact ih _

/-- **Under a name is the value that was entered last.** -/
theorem get?_insertAll_eq_or (t : Table α) (history : List (String × α)) (name : String) :
    (t.insertAll history).get? name = (latest? name history).or (t.get? name) := by
  induction history generalizing t with
  | nil => rfl
  | cons e rest ih =>
    rw [insertAll, ih, get?_insert, latest?_cons, Option.or_assoc]
    by_cases h : name = e.1
    · rw [if_pos h, if_pos h, Option.some_or]
    · rw [if_neg h, if_neg h, Option.none_or]

theorem get?_insertAll (h : (t.insertAll history).get? name = some value) :
    (name, value) ∈ history ∨ t.get? name = some value := by
  rw [get?_insertAll_eq_or] at h
  rcases Option.or_eq_some_iff.1 h with hlatest | ⟨-, hbefore⟩
  · exact .inl (mem_of_latest? hlatest)
  · exact .inr hbefore

theorem isSome_get?_insertAll (h : (t.get? name).isSome = true ∨ ∃ v, (name, v) ∈ history) :
    ((t.insertAll history).get? name).isSome = true := by
  rw [get?_insertAll_eq_or, Option.isSome_or, Bool.or_eq_true_iff, isSome_latest?_iff]
  rcases h with h | ⟨v, hv⟩
  · exact .inr h
  · exact .inl (List.mem_map_of_mem hv)

theorem get?_empty (name : String) : (∅ : Table α).get? name = none := rfl

/-- **The names stand in the order of their first entry.** -/
theorem order_insertAll (history : List (String × α)) :
    ((∅ : Table α).insertAll history).order = (history.map Prod.fst).eraseDups := by
  induction history using List.reverseRecOn with
  | nil => rfl
  | append_singleton before e ih =>
    have hinsert : (∅ : Table α).insertAll (before ++ [e]) =
        ((∅ : Table α).insertAll before).insert e.1 e.2 := insertAll_append ..
    rw [hinsert, order_insert, ih, List.map_append, List.eraseDups_append]
    by_cases h : e.1 ∈ before.map Prod.fst
    · have hnone : [e.1].removeAll (before.map Prod.fst) = [] := by simp [List.removeAll, h]
      rw [if_pos (List.mem_eraseDups.2 h), List.map_singleton, hnone, List.eraseDups_nil,
        List.append_nil]
    · have hone : [e.1].removeAll (before.map Prod.fst) = [e.1] := by simp [List.removeAll, h]
      rw [if_neg fun hin => h (List.mem_eraseDups.1 hin), List.map_singleton, hone,
        List.eraseDups_cons, List.filter_nil, List.eraseDups_nil]

theorem entries_insertAll (t : Table α) (history : List (String × α)) :
    (t.insertAll history).entries =
      history.foldl (fun entries e => insertEntry e.1 e.2 entries) t.entries := by
  induction history generalizing t with
  | nil => rfl
  | cons e rest ih => rw [insertAll, ih, entries_insert, List.foldl_cons]

theorem snd_exchangeAll (t : Table α) (history : List (String × α)) :
    (t.exchangeAll history).2 = t.insertAll history := by
  induction history generalizing t with
  | nil => rfl
  | cons e rest ih => exact ih _

theorem length_exchangeAll (t : Table α) (history : List (String × α)) :
    (t.exchangeAll history).1.length = history.length := by
  induction history generalizing t with
  | nil => rfl
  | cons e rest ih => exact congrArg (· + 1) (ih _)

/-- **An entry hands back what the entries before it left under its name.** -/
theorem getElem?_exchangeAll (t : Table α) (history : List (String × α)) (i : Nat) :
    (t.exchangeAll history).1[i]? =
      history[i]?.map fun e => (t.insertAll (history.take i)).get? e.1 := by
  induction history generalizing t i with
  | nil => rfl
  | cons e rest ih =>
    cases i with
    | zero => rfl
    | succ i => exact ih _ i

end Table

/-- **A registry is a map in the order of first entry.**  After any entries in the empty registry its
order lists every identifier that was entered, once and in the order of first entry, and these are the
identifiers that have a definition.  A walk through it is that through a plain list of entries, in
which an identifier that is entered again keeps its place: it meets every identifier with the
definition that was entered last under it.  Lookups answer in the same way, the size is the number
of different identifiers, and every entry hands back the definition that stood under its identifier
before. -/
theorem registry_exchangeAll (history : List (String × Definition)) :
    let registry := ((∅ : Registry).exchangeAll history).2
    let replaced := ((∅ : Registry).exchangeAll history).1
    registry.order = (history.map Prod.fst).eraseDups ∧
      (∀ id, id ∈ registry.order ↔ registry.values.contains id = true) ∧
      registry.entries =
        history.foldl (fun entries e => Table.insertEntry e.1 e.2 entries) [] ∧
      registry.entries.map (fun e => (e.1, some e.2)) =
        (history.map Prod.fst).eraseDups.map (fun id => (id, Table.latest? id history)) ∧
      (registry.entries.map Prod.fst).Nodup ∧
      (∀ id, registry.get? id = Table.latest? id history) ∧
      (∀ id, registry.contains id = true ↔ id ∈ history.map Prod.fst) ∧
      registry.size = (history.map Prod.fst).toFinset.card ∧
      replaced.length = history.length ∧
      ∀ i : Fin history.length,
        replaced[(i : Nat)]? = some (Table.latest? history[i].1 (history.take i)) := by
  intro registry replaced
  have hregistry : registry = (∅ : Registry).insertAll history := Table.snd_exchangeAll ∅ history
  have horder : registry.order = (history.map Prod.fst).eraseDups := by
    rw [hregistry, Table.order_insertAll]
  have hget (before : List (String × Definition)) (id : String) :
      ((∅ : Registry).insertAll before).get? id = Table.latest? id before := by
    rw [Table.get?_insertAll_eq_or, Table.get?_empty, Option.or_none]
  have hreplaced (i : Nat) : replaced[i]? =
      history[i]?.map fun e => Table.latest? e.1 (history.take i) := by
    rw [Table.getElem?_exchangeAll ∅ history i]
    exact congrArg (history[i]?.map ·) (funext fun e => hget (history.take i) e.1)
  refine ⟨horder, registry.inStep.mem_iff, ?_, ?_, ?_, fun id => ?_, fun id => ?_, ?_, ?_,
    fun i => ?_⟩
  · rw [hregistry, Table.entries_insertAll]
    rfl
  · rw [Table.map_entries, horder, hregistry]
    exact List.map_congr_left fun id _ => by rw [hget]
  · rw [Table.map_fst_entries]
    exact registry.inStep.nodup
  · rw [hregistry, hget]
  · rw [Table.contains_eq_isSome, hregistry, hget, Table.isSome_latest?_iff]
  · have hset : (history.map Prod.fst).toFinset = registry.order.toFinset := by
      ext id
      rw [List.mem_toFinset, List.mem_toFinset, horder, List.mem_eraseDups]
    rw [hset, List.toFinset_card_of_nodup registry.inStep.nodup, Table.size_eq]
  · exact Table.length_exchangeAll ∅ history
  · have hi : history[(i : Nat)]? = some history[i] := List.getElem?_eq_getElem i.isLt
    rw [hreplaced, hi, Option.map_some]

end CityScene
