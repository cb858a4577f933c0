import Mathlib.Data.List.Forall2
import CityScene.Proofs.Decimal.Numerals
import CityScene.Proofs.Text.Words
import CityScene.Proofs.Document.Values

/-!
# Coordinate tuples that are read back

A list of points is written as a text with three separators: one in place of the decimal point, one
between the numbers of a tuple and one between tuples.  If they are told apart from each other and
from what the numbers are written with, the text is read as the points (`readCoordinates_encode`).

The separators are undone from the outside in.  The text falls into the tuples
(`Separators.tuples_encode`), whether their separator is a blank, which may be repeated, or any
other character.  A tuple falls into its numbers, each of which gets its point back
(`Separators.readComponent_write`).  That a point can be a separator does no harm, as there is no
point left in the numbers then.
-/

namespace CityScene.Document

open Decimal (Writes)

/-- A list is read as what its members are read as. -/
theorem mapM_eq_ok {ε α β : Type} {f : α → Except ε β} {l : List α} {l' : List β}
    (h : List.Forall₂ (fun a b => f a = .ok b) l l') : l.mapM f = .ok l' := by
  induction h with
  | nil => rfl
  | cons hhead _ ih =>
    rw [List.mapM_cons, hhead, ih]
    rfl

theorem exists_of_forall₂_of_mem {α β : Type} {R : α → β → Prop} {l : List α} {l' : List β}
    (h : List.Forall₂ R l l') {a : α} (ha : a ∈ l) : ∃ b, R a b := by
  induction h with
  | nil => exact absurd ha List.not_mem_nil
  | cons hhead _ ih =>
    rcases List.mem_cons.1 ha with rfl | ha
    · exact ⟨_, hhead⟩
    · exact ih ha

/-! ### Points and their numbers -/

/-- The numbers write the point: all three, or two for a point of height zero. -/
inductive WritesPoint : List (List Char) → Vec3 Float → Prop
  | plane {x y : List Char} {p q : Float} (hx : Writes x p) (hy : Writes y q) :
      WritesPoint [x, y] ⟨p, q, 0.0⟩
  | space {x y z : List Char} {p q r : Float} (hx : Writes x p) (hy : Writes y q)
      (hz : Writes z r) : WritesPoint [x, y, z] ⟨p, q, r⟩

theorem readFinite_of_writes {token : List Char} {x : Float} (h : Writes token x)
    (field : String) : readFinite field token = .ok x := by
  rw [readFinite, h.1]
  dsimp only
  rw [if_pos h.2]

theorem isWord_of_writes {token : List Char} {x : Float} (h : Writes token x) :
    Text.IsWord token :=
  ⟨Decimal.ne_nil_of_readFloat h.1, fun c hc => (Decimal.plain_of_readFloat h.1 c hc).1⟩

namespace WritesPoint

variable {tokens : List (List Char)} {p : Vec3 Float}

theorem ne_nil (h : WritesPoint tokens p) : tokens ≠ [] := by
  cases h <;> exact List.cons_ne_nil _ _

theorem exists_writes (h : WritesPoint tokens p) {token : List Char} (ht : token ∈ tokens) :
    ∃ x, Writes token x := by
  cases h with
  | plane hx hy =>
    simp only [List.mem_cons, List.not_mem_nil, or_false] at ht
    rcases ht with rfl | rfl
    · exact ⟨_, hx⟩
    · exact ⟨_, hy⟩
  | space hx hy hz =>
    simp only [List.mem_cons, List.not_mem_nil, or_false] at ht
    rcases ht with rfl | rfl | rfl
    · exact ⟨_, hx⟩
    · exact ⟨_, hy⟩
    · exact ⟨_, hz⟩

end WritesPoint

/-! ### Writing with separators -/

namespace Separators

/-- A number with the decimal separator in place of the point. -/
def write (s : Separators) (token : List Char) : List Char :=
  token.map fun c => if c = '.' then s.decimal else c

/-- The numbers of a tuple with the separator between them. -/
def join (s : Separators) (tokens : List (List Char)) : List Char :=
  [s.component].intercalate (tokens.map s.write)

/-- The tuples with the separator between them. -/
def encode (s : Separators) (tuples : List (List (List Char))) : List Char :=
  [s.tuple].intercalate (tuples.map s.join)

/-- The separators can be told from each other, and those inside of tuples from blanks. -/
structure Distinct (s : Separators) : Prop where
  decimal_ne_component : s.decimal ≠ s.component
  decimal_ne_tuple : s.decimal ≠ s.tuple
  component_ne_tuple : s.component ≠ s.tuple
  decimal_solid : Text.isBlank s.decimal = false
  component_solid : Text.isBlank s.component = false

/-- No separator is written in the number, but for the point in its place. -/
def Spares (s : Separators) (token : List Char) : Prop :=
  ∀ c ∈ token, c ≠ '.' → c ≠ s.decimal ∧ c ≠ s.component ∧ c ≠ s.tuple

variable {s : Separators}

theorem mem_write {token : List Char} {c : Char} (hc : c ∈ s.write token) :
    c = s.decimal ∨ c ∈ token ∧ c ≠ '.' := by
  obtain ⟨d, hd, rfl⟩ := List.mem_map.1 hc
  by_cases hpoint : d = '.'
  · rw [if_pos hpoint]
    exact .inl rfl
  · rw [if_neg hpoint]
    exact .inr ⟨hd, hpoint⟩

/-- The decimal separators are turned back into points. -/
theorem map_write {token : List Char} (h : s.Spares token) :
    ((s.write token).map fun c => if c == s.decimal then '.' else c) = token := by
  rw [write, List.map_map]
  conv => rhs; rw [← List.map_id token]
  refine List.map_congr_left fun c hc => ?_
  by_cases hpoint : c = '.'
  · simp [hpoint]
  · have hdecimal : c ≠ s.decimal := (h c hc hpoint).1
    simp [hpoint, hdecimal]

/-- What is inside of a tuple has neither a blank nor the separator of tuples in it. -/
theorem solid_join (hs : s.Distinct) {tokens : List (List Char)}
    (hspares : ∀ token ∈ tokens, s.Spares token)
    (hwords : ∀ token ∈ tokens, Text.IsWord token) :
    ∀ c ∈ s.join tokens, Text.isBlank c = false ∧ c ≠ s.tuple := by
  have hwritten : ∀ token ∈ tokens, ∀ c ∈ s.write token, Text.isBlank c = false ∧ c ≠ s.tuple := by
    intro token ht c hc
    rcases mem_write hc with rfl | ⟨hc, hpoint⟩
    · exact ⟨hs.decimal_solid, hs.decimal_ne_tuple⟩
    · exact ⟨(hwords token ht).2 c hc, (hspares token ht c hc hpoint).2.2⟩
  rw [join]
  induction tokens with
  | nil => exact fun c hc => absurd hc List.not_mem_nil
  | cons token rest ih =>
    obtain ⟨hfirst, hrest⟩ := List.forall_mem_cons.1 hwritten
    have htail := ih (fun t ht => hspares t (List.mem_cons_of_mem _ ht))
      (fun t ht => hwords t (List.mem_cons_of_mem _ ht)) hrest
    cases rest with
    | nil =>
      rw [List.map_singleton, List.intercalate_singleton]
      exact hfirst
    | cons other rest =>
      rw [List.map_cons, List.map_cons, List.intercalate_cons_cons, ← List.map_cons]
      intro c hc
      rcases List.mem_append.1 hc with hc | hc
      · rcases List.mem_append.1 hc with hc | hc
        · exact hfirst c hc
        · obtain rfl := List.mem_singleton.1 hc
          exact ⟨hs.component_solid, hs.component_ne_tuple⟩
      · exact htail c hc

theorem join_ne_nil {tokens : List (List Char)} (hne : tokens ≠ [])
    (hwords : ∀ token ∈ tokens, Text.IsWord token) : s.join tokens ≠ [] := by
  obtain ⟨token, rest, rfl⟩ := List.exists_cons_of_ne_nil hne
  have hwritten : s.write token ≠ [] := by
    rw [write, ne_eq, List.map_eq_nil_iff]
    exact (hwords token List.mem_cons_self).1
  rw [join, List.map_cons]
  cases rest with
  | nil =>
    rw [List.map_nil, List.intercalate_singleton]
    exact hwritten
  | cons other rest =>
    rw [List.map_cons, List.intercalate_cons_cons, List.append_assoc]
    exact fun hnil => hwritten (List.append_eq_nil_iff.1 hnil).1

/-! ### Reading -/

/-- **A number gets its point back.** -/
theorem readComponent_write (hs : s.Distinct) {token : List Char} {x : Float}
    (hspares : s.Spares token) (h : Writes token x) :
    s.readComponent (s.write token) = .ok x := by
  have hsolid : ∀ c ∈ s.write token, Text.isBlank c = false := by
    intro c hc
    rcases mem_write hc with rfl | ⟨hc, -⟩
    · exact hs.decimal_solid
    · exact (isWord_of_writes h).2 c hc
  rw [readComponent, Text.trim_eq_self hsolid, map_write hspares]
  exact readFinite_of_writes h "coordinates"

theorem mapM_readComponent_write (hs : s.Distinct) {tokens : List (List Char)}
    {values : List Float} (hspares : ∀ token ∈ tokens, s.Spares token)
    (h : List.Forall₂ Writes tokens values) :
    (tokens.map s.write).mapM s.readComponent = .ok values := by
  refine mapM_eq_ok (List.forall₂_map_left_iff.2 ?_)
  induction h with
  | nil => exact .nil
  | cons hx _ ih =>
    obtain ⟨hfirst, hrest⟩ := List.forall_mem_cons.1 hspares
    exact .cons (readComponent_write hs hfirst hx) (ih hrest)

/-- **A tuple falls into its numbers.** -/
theorem readTuple_join (hs : s.Distinct) {tokens : List (List Char)} {p : Vec3 Float}
    (hspares : ∀ token ∈ tokens, s.Spares token) (h : WritesPoint tokens p) :
    s.readTuple (s.join tokens) = .ok p := by
  have hapart : ∀ written ∈ tokens.map s.write, s.component ∉ written := by
    intro written hwritten hc
    obtain ⟨token, ht, rfl⟩ := List.mem_map.1 hwritten
    rcases mem_write hc with heq | ⟨hc, hpoint⟩
    · exact hs.decimal_ne_component heq.symm
    · exact (hspares token ht _ hc hpoint).2.1 rfl
  have hpieces : Text.pieces (· == s.component) (s.join tokens) = tokens.map s.write :=
    Text.pieces_intercalate (mt List.map_eq_nil_iff.1 h.ne_nil) hapart
  rw [readTuple, hpieces]
  cases h with
  | plane hx hy =>
    rw [mapM_readComponent_write hs hspares (.cons hx (.cons hy .nil))]
    rfl
  | space hx hy hz =>
    rw [mapM_readComponent_write hs hspares (.cons hx (.cons hy (.cons hz .nil)))]
    rfl

/-- A written tuple is one word, and the separator of tuples is not in it. -/
theorem isWord_join (hs : s.Distinct) {tuples : List (List (List Char))}
    {points : List (Vec3 Float)} (hspares : ∀ tokens ∈ tuples, ∀ token ∈ tokens, s.Spares token)
    (h : List.Forall₂ WritesPoint tuples points) :
    ∀ joined ∈ tuples.map s.join, Text.IsWord joined ∧ s.tuple ∉ joined := by
  intro joined hmem
  obtain ⟨tokens, ht, rfl⟩ := List.mem_map.1 hmem
  obtain ⟨p, hp⟩ := exists_of_forall₂_of_mem h ht
  have hwords : ∀ token ∈ tokens, Text.IsWord token := by
    intro token htoken
    obtain ⟨x, hx⟩ := hp.exists_writes htoken
    exact isWord_of_writes hx
  have hsolid := solid_join hs (hspares tokens ht) hwords
  exact ⟨⟨join_ne_nil hp.ne_nil hwords, fun c hc => (hsolid c hc).1⟩,
    fun hc => (hsolid _ hc).2 rfl⟩

/-- **The text falls into the tuples.** -/
theorem tuples_encode (hs : s.Distinct) {tuples : List (List (List Char))}
    {points : List (Vec3 Float)} (hspares : ∀ tokens ∈ tuples, ∀ token ∈ tokens, s.Spares token)
    (h : List.Forall₂ WritesPoint tuples points) :
    s.tuples (s.encode tuples) = tuples.map s.join := by
  have hjoined := isWord_join hs hspares h
  rw [Separators.tuples, encode]
  by_cases hblank : Text.isBlank s.tuple = true
  · rw [if_pos hblank]
    exact (Text.spaced_intercalate hblank _).words_eq fun joined hmem => (hjoined joined hmem).1
  · rw [if_neg hblank]
    cases tuples with
    | nil => rfl
    | cons tokens rest =>
      have hne : (tokens :: rest).map s.join ≠ [] := List.cons_ne_nil _ _
      rw [Text.pieces_intercalate hne fun joined hmem => (hjoined joined hmem).2]
      have htrim : ((tokens :: rest).map s.join).map Text.trim = (tokens :: rest).map s.join := by
        conv => rhs; rw [← List.map_id ((tokens :: rest).map s.join)]
        exact List.map_congr_left fun joined hmem => Text.trim_eq_self (hjoined joined hmem).1.2
      rw [htrim, List.filter_eq_self]
      intro joined hmem
      rw [List.isEmpty_eq_false_iff.2 (hjoined joined hmem).1.1, Bool.not_false]

end Separators

/-- Tuples that are told apart are read as the points that they write. -/
theorem mapM_readTuple_join {s : Separators} (hs : s.Distinct) {tuples : List (List (List Char))}
    {points : List (Vec3 Float)} (hspares : ∀ tokens ∈ tuples, ∀ token ∈ tokens, s.Spares token)
    (h : List.Forall₂ WritesPoint tuples points) :
    (tuples.map s.join).mapM s.readTuple = .ok points := by
  refine mapM_eq_ok (List.forall₂_map_left_iff.2 ?_)
  induction h with
  | nil => exact .nil
  | cons hp _ ih =>
    obtain ⟨hfirst, hrest⟩ := List.forall_mem_cons.1 hspares
    exact .cons (Separators.readTuple_join hs hfirst hp) (ih hrest)

/-- **Coordinate tuples are read back**, with any separators that can be told from each other and
from what the numbers are written with. -/
theorem readCoordinates_encode {s : Separators} (hs : s.Distinct)
    {tuples : List (List (List Char))} {points : List (Vec3 Float)}
    (hspares : ∀ tokens ∈ tuples, ∀ token ∈ tokens, s.Spares token)
    (h : List.Forall₂ WritesPoint tuples points) :
    readCoordinates (String.ofList (s.encode tuples)) s = .ok points := by
  rw [readCoordinates, String.toList_ofList, Separators.tuples_encode hs hspares h,
    mapM_readTuple_join hs hspares h]

/-- A comma for the point, and the point between numbers. -/
def pointSeparated : Separators :=
  { decimal := ',', component := '.', tuple := ';' }

theorem readCoordinates_pointSeparated :
    readCoordinates "1,5.-2;3e2.,5.0" pointSeparated = .ok [⟨1.5, -2, 0.0⟩, ⟨300, 0.5, 0⟩] := by
  have hdistinct : pointSeparated.Distinct :=
    ⟨by decide, by decide, by decide, by decide, by decide⟩
  have hspares : ∀ tokens ∈ [["1.5".toList, "-2".toList], ["3e2".toList, ".5".toList, "0".toList]],
      ∀ token ∈ tokens, pointSeparated.Spares token := by
    simp [Separators.Spares, pointSeparated]
  have hplane : WritesPoint ["1.5".toList, "-2".toList] ⟨1.5, -2, 0.0⟩ :=
    .plane ⟨by decide +kernel, by decide +kernel⟩ ⟨by decide +kernel, by decide +kernel⟩
  have hspace : WritesPoint ["3e2".toList, ".5".toList, "0".toList] ⟨300, 0.5, 0⟩ :=
    .space ⟨by decide +kernel, by decide +kernel⟩ ⟨by decide +kernel, by decide +kernel⟩
      ⟨by decide +kernel, by decide +kernel⟩
  have hread := readCoordinates_encode hdistinct hspares (.cons hplane (.cons hspace .nil))
  have htext : String.ofList (pointSeparated.encode
      [["1.5".toList, "-2".toList], ["3e2".toList, ".5".toList, "0".toList]]) =
        "1,5.-2;3e2.,5.0" := by
    decide +kernel
  rwa [htext] at hread

end CityScene.Document
