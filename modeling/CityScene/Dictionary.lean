/-!
# Dictionaries

A `Dictionary` is a finite map from strings.  Its bindings stand in no order of their own: what can
be asked of a dictionary does not depend on where in the list they are.
-/

namespace CityScene

/-- A finite map from strings. -/
structure Dictionary (α : Type) where
  bindings : List (String × α)
  /-- No key is bound twice. -/
  distinct : (bindings.map Prod.fst).Nodup

namespace Dictionary

variable {α : Type}

instance : EmptyCollection (Dictionary α) := ⟨⟨[], .nil⟩⟩

def size (d : Dictionary α) : Nat :=
  d.bindings.length

def isEmpty (d : Dictionary α) : Bool :=
  d.bindings.isEmpty

def get? (d : Dictionary α) (key : String) : Option α :=
  (d.bindings.find? (·.1 == key)).map Prod.snd

def contains (d : Dictionary α) (key : String) : Bool :=
  d.bindings.any (·.1 == key)

theorem nodup_insert (key : String) (value : α) {bindings : List (String × α)}
    (h : (bindings.map Prod.fst).Nodup) :
    ((bindings.filter (·.1 != key) ++ [(key, value)]).map Prod.fst).Nodup := by
  rw [List.map_append, List.nodup_append]
  refine ⟨h.sublist (List.filter_sublist.map _), by simp, fun k hk k' hk' heq => ?_⟩
  obtain ⟨e, he, rfl⟩ := List.mem_map.1 hk
  have hne := (List.mem_filter.1 he).2
  rw [heq, List.mem_singleton.1 hk'] at hne
  simp at hne

/-- Binds a key, in place of what it was bound to. -/
def insert (d : Dictionary α) (key : String) (value : α) : Dictionary α :=
  ⟨d.bindings.filter (·.1 != key) ++ [(key, value)], nodup_insert key value d.distinct⟩

/-- A key is bound if and only if there is a value for it. -/
theorem contains_eq_isSome (d : Dictionary α) (key : String) :
    d.contains key = (d.get? key).isSome := by
  rw [contains, get?, Option.isSome_map, List.isSome_find?]

theorem get?_insert (d : Dictionary α) (key other : String) (value : α) :
    (d.insert key value).get? other = if other = key then some value else d.get? other := by
  rw [get?, get?, insert, List.find?_append, List.find?_filter]
  by_cases h : other = key
  · have hnone : d.bindings.find?
        (fun e => decide ((e.1 != key) = true ∧ (e.1 == other) = true)) = none := by simp [h]
    rw [hnone, Option.none_or, if_pos h, List.find?_cons_of_pos (by simpa using h.symm),
      Option.map_some]
  · have h' : ¬ key = other := fun heq => h heq.symm
    have htest : (fun e : String × α => decide ((e.1 != key) = true ∧ (e.1 == other) = true)) =
        fun e => e.1 == other := by
      funext e
      by_cases he : e.1 = other <;> simp [he, h]
    rw [htest, if_neg h, List.find?_cons_of_neg (by simpa using h'), List.find?_nil, Option.or_none]

theorem contains_insert (d : Dictionary α) (key other : String) (value : α) :
    (d.insert key value).contains other = true ↔ other = key ∨ d.contains other = true := by
  rw [contains_eq_isSome, contains_eq_isSome, get?_insert]
  by_cases h : other = key <;> simp [h]

end Dictionary

end CityScene
