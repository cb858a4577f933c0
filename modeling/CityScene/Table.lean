import CityScene.Dictionary

/-!
# Tables in order of entry

A `Table` is a finite map from names that remembers the order in which names were first entered.
The values stand in a dictionary and the names, in order, beside it.  Entering a name again replaces
its value and leaves its place.
-/

namespace CityScene

/-- The names listed are those that have a value, each listed once. -/
structure InStep {α : Type} (values : Dictionary α) (order : List String) : Prop where
  nodup : order.Nodup
  mem_iff : ∀ name, name ∈ order ↔ values.contains name = true

namespace InStep

variable {α : Type} {values : Dictionary α} {order : List String}

theorem empty : InStep (∅ : Dictionary α) [] :=
  ⟨.nil, fun _ => iff_of_false List.not_mem_nil Bool.false_ne_true⟩

/-- The names without a value are those that are not listed. -/
theorem isNone_get?_iff (h : InStep values order) (name : String) :
    (values.get? name).isNone = true ↔ name ∉ order := by
  rw [h.mem_iff, Dictionary.contains_eq_isSome, Option.isNone_iff_eq_none,
    Option.not_isSome_iff_eq_none]

/-- **Values and order stay in step** if a name is listed when it first gets a value. -/
theorem insert (h : InStep values order) (name : String) (value : α) :
    InStep (values.insert name value)
      (if (values.get? name).isNone then order ++ [name] else order) := by
  split
  · next hnew =>
    rw [h.isNone_get?_iff] at hnew
    constructor
    · rw [List.nodup_append]
      refine ⟨h.nodup, by simp, fun a ha b hb heq => hnew ?_⟩
      rw [← List.mem_singleton.1 hb, ← heq]
      exact ha
    · intro other
      rw [List.mem_append, List.mem_singleton, Dictionary.contains_insert, h.mem_iff]
      exact Or.comm
  · next hold =>
    rw [h.isNone_get?_iff, Decidable.not_not] at hold
    refine ⟨h.nodup, fun other => ?_⟩
    rw [Dictionary.contains_insert, ← h.mem_iff]
    exact ⟨.inr, fun hmem => hmem.elim (fun heq => heq ▸ hold) id⟩

end InStep

/-- A finite map from strings, in order of first entry. -/
structure Table (α : Type) where
  values : Dictionary α
  /-- The names, in order of first entry. -/
  order : List String
  inStep : InStep values order

namespace Table

variable {α : Type}

instance : EmptyCollection (Table α) := ⟨⟨∅, [], .empty⟩⟩

instance : Inhabited (Table α) := ⟨∅⟩

def size (t : Table α) : Nat :=
  t.values.size

def isEmpty (t : Table α) : Bool :=
  t.values.isEmpty

def get? (t : Table α) (name : String) : Option α :=
  t.values.get? name

def contains (t : Table α) (name : String) : Bool :=
  t.values.contains name

/-- The names with their values, in order of first entry. -/
def entries (t : Table α) : List (String × α) :=
  t.order.filterMap fun name => (t.values.get? name).map (name, ·)

/-- Enters a value under a name and hands back the one that stood there before. -/
def exchange (t : Table α) (name : String) (value : α) : Option α × Table α :=
  let previous := t.values.get? name
  let order := if previous.isNone then t.order ++ [name] else t.order
  (previous, ⟨t.values.insert name value, order, t.inStep.insert name value⟩)

/-- Enters a value under a name, in place of one that is there already. -/
def insert (t : Table α) (name : String) (value : α) : Table α :=
  (t.exchange name value).2

theorem get?_insert (t : Table α) (name other : String) (value : α) :
    (t.insert name value).get? other = if other = name then some value else t.get? other :=
  t.values.get?_insert name other value

/-- A name is entered in a table if and only if the table has a value for it. -/
theorem contains_eq_isSome (t : Table α) (name : String) :
    t.contains name = (t.get? name).isSome :=
  t.values.contains_eq_isSome name

end Table

end CityScene
