import CityScene.Model.Binding
import Mathlib.Data.List.FinRange
import Mathlib.Data.List.Induction

/-!
# Texture coordinates and the rings they are for

Entries of texture coordinates are dealt out to the rings of a polygon.  An entry may name a ring:
the first one that carries the identifier (`Names`).  A ring that entries name receives the last of
them.  The others, `unnamedRings`, receive the entries that name no ring, `strayEntries`, one each
and both in order; so either there are stray entries left in the end or rings.

The entries are dealt out in two passes: over the entries, of which a later one replaces an earlier
one for the same ring, and over the rings.  `arrangeCoordinates_eq_fillPlaces` gives what comes out of
both.  What a ring receives is then told by the place of an entry (`received`), not by its
coordinates, which another entry may repeat.
-/

namespace CityScene

/-! ### Places in a filtered list -/

theorem filter_eq_map_finRange {α : Type} (l : List α) (test : α → Bool) :
    l.filter test = ((List.finRange l.length).filter fun k => test l[k]).map (l[·]) := by
  conv_lhs => rw [← List.map_get_finRange l, List.filter_map]
  rfl

/-- A place that is left comes after those before it that are left as well. -/
theorem idxOf_filter_finRange {n : Nat} (test : Fin n → Bool) {i : Fin n} (h : test i = true) :
    ((List.finRange n).filter test).idxOf i = ((List.finRange n).take i.val).countP test := by
  have hi : i.val < (List.finRange n).length := by simp
  have hsplit : List.finRange n =
      (List.finRange n).take i.val ++ i :: (List.finRange n).drop (i.val + 1) := by
    conv_lhs => rw [← List.take_append_drop i.val (List.finRange n), List.drop_eq_getElem_cons hi]
    simp
  have hbefore : i ∉ ((List.finRange n).take i.val).filter test := by
    intro hmem
    have hnodup := List.nodup_finRange n
    rw [hsplit] at hnodup
    exact (List.nodup_append.1 hnodup).2.2 _ (List.mem_filter.1 hmem).1 _ List.mem_cons_self rfl
  conv_lhs => rw [hsplit]
  rw [List.filter_append, List.filter_cons_of_pos h, List.idxOf_append_of_notMem hbefore,
    List.idxOf_cons_self, Nat.add_zero, List.countP_eq_length_filter]

namespace Polygon

variable {p : Polygon} {entries : List RingCoordinates}

/-- The entry names an identifier, and the ring is the first that carries it. -/
def Names (p : Polygon) (entry : RingCoordinates) (i : Fin p.rings.length) : Prop :=
  ∃ name, entry.ring = some name ∧ p.rings[i].id = some (Model.bareId name) ∧
    ∀ j < i, p.rings[j].id ≠ some (Model.bareId name)

theorem namedRing?_eq_some_iff {entry : RingCoordinates} {i : Fin p.rings.length} :
    p.namedRing? entry = some i.val ↔ p.Names entry i := by
  rw [namedRing?, Option.bind_eq_some_iff]
  refine exists_congr fun name => and_congr_right fun _ => ?_
  rw [List.findIdx?_eq_some_iff_getElem]
  constructor
  · rintro ⟨_, hi, hbefore⟩
    exact ⟨beq_iff_eq.1 hi, fun j hj heq => hbefore j hj (beq_iff_eq.2 heq)⟩
  · rintro ⟨hi, hbefore⟩
    exact ⟨i.isLt, beq_iff_eq.2 hi, fun j hj heq =>
      hbefore ⟨j, hj.trans i.isLt⟩ hj (beq_iff_eq.1 heq)⟩

theorem namedRing?_eq_none_iff {entry : RingCoordinates} :
    p.namedRing? entry = none ↔ ∀ i, ¬ p.Names entry i := by
  constructor
  · intro h i hi
    rw [namedRing?_eq_some_iff.2 hi] at h
    cases h
  · intro h
    cases hring : p.namedRing? entry with
    | none => rfl
    | some i =>
      obtain ⟨name, -, hi⟩ := Option.bind_eq_some_iff.1 hring
      obtain ⟨hi, -⟩ := List.findIdx?_eq_some_iff_getElem.1 hi
      exact absurd (namedRing?_eq_some_iff.1 hring) (h ⟨i, hi⟩)

instance (entry : RingCoordinates) (i : Fin p.rings.length) : Decidable (p.Names entry i) :=
  decidable_of_iff _ namedRing?_eq_some_iff

theorem Names.eq {entry : RingCoordinates} {i j : Fin p.rings.length} (hi : p.Names entry i)
    (hj : p.Names entry j) : i = j := by
  rw [← namedRing?_eq_some_iff] at hi hj
  exact Fin.ext (Option.some.inj (hi.symm.trans hj))

/-- The rings that no entry names, exterior first. -/
def unnamedRings (p : Polygon) (entries : List RingCoordinates) : List (Fin p.rings.length) :=
  (List.finRange _).filter fun i => ∀ k : Fin entries.length, ¬ p.Names entries[k] i

/-- The places of the entries that name no ring. -/
def strayEntries (p : Polygon) (entries : List RingCoordinates) : List (Fin entries.length) :=
  (List.finRange _).filter fun k => ∀ i, ¬ p.Names entries[k] i

/-- The place of the last entry that names the ring. -/
def lastNaming? (p : Polygon) (entries : List RingCoordinates) (i : Fin p.rings.length) :
    Option (Fin entries.length) :=
  ((List.finRange _).filter fun k => p.Names entries[k] i).getLast?

/-- The place of the entry that a ring receives. -/
def received (p : Polygon) (entries : List RingCoordinates) (i : Fin p.rings.length) :
    Option (Fin entries.length) :=
  (p.lastNaming? entries i).or (p.strayEntries entries)[(p.unnamedRings entries).idxOf i]?

/-! ### What the rings receive -/

theorem mem_strayEntries {k : Fin entries.length} :
    k ∈ p.strayEntries entries ↔ ∀ i, ¬ p.Names entries[k] i := by
  simp [strayEntries]

theorem mem_unnamedRings {i : Fin p.rings.length} :
    i ∈ p.unnamedRings entries ↔ ∀ k : Fin entries.length, ¬ p.Names entries[k] i := by
  simp [unnamedRings]

theorem lastNaming?_eq_none_iff {i : Fin p.rings.length} :
    p.lastNaming? entries i = none ↔ i ∈ p.unnamedRings entries := by
  simp [lastNaming?, mem_unnamedRings]

theorem names_of_lastNaming? {i : Fin p.rings.length} {k : Fin entries.length}
    (h : p.lastNaming? entries i = some k) :
    p.Names entries[k] i ∧ ∀ l > k, ¬ p.Names entries[l] i := by
  obtain ⟨before, hsplit⟩ := List.getLast?_eq_some_iff.1 h
  have hmem {l : Fin entries.length} :
      p.Names entries[l] i ↔ l ∈ before ++ [k] := by
    rw [← hsplit]
    simp
  refine ⟨hmem.2 (List.mem_append_right _ (List.mem_singleton_self k)), fun l hl hnames => ?_⟩
  have hsorted := (List.pairwise_lt_finRange entries.length).filter
    fun k => decide (p.Names entries[k] i)
  rw [hsplit, List.pairwise_append] at hsorted
  obtain hbefore | rfl := (List.mem_append.1 (hmem.1 hnames)).imp_right List.mem_singleton.1
  · exact lt_asymm hl (hsorted.2.2 l hbefore k (List.mem_singleton_self k))
  · exact lt_irrefl _ hl

theorem received_of_names {i : Fin p.rings.length} {k : Fin entries.length}
    (h : p.Names entries[k] i) : ∃ last, p.received entries i = some last ∧
      p.Names entries[last] i ∧ ∀ l > last, ¬ p.Names entries[l] i := by
  cases hlast : p.lastNaming? entries i with
  | none => exact absurd h (mem_unnamedRings.1 (lastNaming?_eq_none_iff.1 hlast) k)
  | some last => exact ⟨last, by rw [received, hlast, Option.some_or], names_of_lastNaming? hlast⟩

theorem received_of_mem_unnamedRings {i : Fin p.rings.length} (h : i ∈ p.unnamedRings entries) :
    p.received entries i = (p.strayEntries entries)[(p.unnamedRings entries).idxOf i]? := by
  rw [received, lastNaming?_eq_none_iff.2 h, Option.none_or]

theorem nodup_unnamedRings : (p.unnamedRings entries).Nodup :=
  (List.nodup_finRange _).filter _

/-- The rings that no entry names receive the stray entries in order. -/
theorem received_unnamedRings {r : Nat} {i : Fin p.rings.length}
    (h : (p.unnamedRings entries)[r]? = some i) :
    p.received entries i = (p.strayEntries entries)[r]? := by
  obtain ⟨hr, rfl⟩ := List.getElem?_eq_some_iff.1 h
  rw [received_of_mem_unnamedRings (List.getElem_mem hr), nodup_unnamedRings.idxOf_getElem]

/-- An entry that names a ring can only be received by that ring. -/
theorem names_or_stray_of_received {i : Fin p.rings.length} {k : Fin entries.length}
    (h : p.received entries i = some k) : p.Names entries[k] i ∨
      i ∈ p.unnamedRings entries ∧
        (p.strayEntries entries)[(p.unnamedRings entries).idxOf i]? = some k := by
  cases hlast : p.lastNaming? entries i with
  | none =>
    have hi := lastNaming?_eq_none_iff.1 hlast
    exact .inr ⟨hi, (received_of_mem_unnamedRings hi).symm.trans h⟩
  | some last =>
    rw [received, hlast, Option.some_or] at h
    obtain rfl := Option.some.inj h
    exact .inl (names_of_lastNaming? hlast).1

/-- No entry is received by two rings. -/
theorem received_injective {i j : Fin p.rings.length} {k : Fin entries.length}
    (hi : p.received entries i = some k) (hj : p.received entries j = some k) : i = j := by
  obtain hi | ⟨hi, hik⟩ := names_or_stray_of_received hi <;>
    obtain hj | ⟨hj, hjk⟩ := names_or_stray_of_received hj
  · exact hi.eq hj
  · exact absurd hi (mem_strayEntries.1 (List.mem_of_getElem? hjk) i)
  · exact absurd hj (mem_strayEntries.1 (List.mem_of_getElem? hik) j)
  · have hnodup : (p.strayEntries entries).Nodup := (List.nodup_finRange _).filter _
    have hlt := (List.getElem?_eq_some_iff.1 hik).1
    exact (List.idxOf_inj hi).1 ((List.getElem?_inj hlt hnodup).1 (hik.trans hjk.symm))

/-- A stray entry is left over only if every ring has received an entry. -/
theorem received_ne_none_of_dropped {k : Fin entries.length} (hk : k ∈ p.strayEntries entries)
    (hdropped : ∀ i, p.received entries i ≠ some k) (i : Fin p.rings.length) :
    p.received entries i ≠ none := by
  intro hnone
  have hi : i ∈ p.unnamedRings entries := by
    refine mem_unnamedRings.2 fun l hl => ?_
    obtain ⟨last, hlast, -⟩ := received_of_names hl
    rw [hlast] at hnone
    cases hnone
  rw [received_of_mem_unnamedRings hi, List.getElem?_eq_none_iff] at hnone
  -- the ring in the same place among the rings as the entry among the stray ones
  obtain ⟨r, hr, rfl⟩ := List.mem_iff_getElem.1 hk
  have hring : r < (p.unnamedRings entries).length :=
    (hr.trans_le hnone).trans (List.idxOf_lt_length_of_mem hi)
  refine hdropped (p.unnamedRings entries)[r] ?_
  rw [received_unnamedRings (List.getElem?_eq_getElem hring), List.getElem?_eq_getElem hr]

/-! ### The two passes -/

/-- Fills empty places with the given values in order, and with empty lists once those run out. -/
def fillPlaces {α : Type} : List (Option (List α)) → List (List α) → List (List α)
  | [], _ => []
  | some c :: places, rest => c :: fillPlaces places rest
  | none :: places, [] => [] :: fillPlaces places []
  | none :: places, c :: rest => c :: fillPlaces places rest

/-- The coordinates of the last entry that names a ring. -/
def lastNamed? (p : Polygon) (entries : List RingCoordinates) (i : Nat) :
    Option (List (Vec2 Float)) :=
  (entries.filter (p.namedRing? · == some i)).getLast?.map (·.coordinates)

/-- The coordinates of the entries that name no ring. -/
def strayCoordinates (p : Polygon) (entries : List RingCoordinates) : List (List (Vec2 Float)) :=
  (entries.filter (p.namedRing? · == none)).map (·.coordinates)

theorem lastNamed?_append (p : Polygon) (entries : List RingCoordinates) (entry : RingCoordinates)
    (i : Nat) : p.lastNamed? (entries ++ [entry]) i =
      if p.namedRing? entry = some i then some entry.coordinates else p.lastNamed? entries i := by
  rw [lastNamed?, List.filter_append, lastNamed?]
  split
  · next h => simp [h]
  · next h => simp [h]

theorem strayCoordinates_append (p : Polygon) (entries : List RingCoordinates)
    (entry : RingCoordinates) : p.strayCoordinates (entries ++ [entry]) =
      p.strayCoordinates entries ++ if p.namedRing? entry = none then [entry.coordinates] else [] := by
  rw [strayCoordinates, List.filter_append, List.map_append, strayCoordinates]
  split
  · next h => simp [h]
  · next h => simp [h]

/-- The first pass: later entries have replaced earlier ones for the same ring. -/
theorem foldl_deal (p : Polygon) (entries : List RingCoordinates) :
    entries.foldl p.deal ⟨List.replicate p.rings.length none, []⟩ =
      ⟨(List.range p.rings.length).map (p.lastNamed? entries), p.strayCoordinates entries⟩ := by
  induction entries using List.reverseRecOn with
  | nil =>
    have hnone : (List.range p.rings.length).map (p.lastNamed? []) =
        List.replicate p.rings.length none := by
      refine List.eq_replicate_iff.2 ⟨by simp, fun place hplace => ?_⟩
      obtain ⟨_, _, rfl⟩ := List.mem_map.1 hplace
      rfl
    rw [List.foldl_nil, hnone]
    rfl
  | append_singleton entries entry ih =>
    rw [List.foldl_append, ih, List.foldl_cons, List.foldl_nil, deal, strayCoordinates_append]
    cases hring : p.namedRing? entry with
    | none =>
      have hsame : p.lastNamed? (entries ++ [entry]) = p.lastNamed? entries :=
        funext fun i => by simp [lastNamed?_append, hring]
      rw [hsame, if_pos rfl]
    | some k =>
      have hset : ((List.range p.rings.length).map (p.lastNamed? entries)).set k
          (some entry.coordinates) =
          (List.range p.rings.length).map (p.lastNamed? (entries ++ [entry])) := by
        refine List.ext_getElem (by simp) fun i _ _ => ?_
        simp [List.getElem_set, lastNamed?_append, hring]
      rw [if_neg (Option.some_ne_none k), List.append_nil]
      exact congrArg (Deal.mk · _) hset

/-- The second pass, after some places have been passed by. -/
theorem foldl_fill (places : List (Option (List (Vec2 Float)))) (d : Deal) :
    (places.foldl Deal.fill d).places.map (·.getD []) =
      d.places.map (·.getD []) ++ fillPlaces places d.stray := by
  induction places generalizing d with
  | nil => rw [List.foldl_nil, fillPlaces, List.append_nil]
  | cons place places ih =>
    rw [List.foldl_cons, ih]
    obtain ⟨filled, stray⟩ := d
    cases place <;> cases stray <;> simp [Deal.fill, fillPlaces]

theorem arrangeCoordinates_eq_fillPlaces (p : Polygon) (entries : List RingCoordinates) :
    p.arrangeCoordinates entries =
      fillPlaces ((List.range p.rings.length).map (p.lastNamed? entries))
        (p.strayCoordinates entries) := by
  rw [arrangeCoordinates, foldl_deal, foldl_fill, List.map_nil, List.nil_append]

/-! ### The arrangement -/

theorem getElem?_fillPlaces {α : Type} (places : List (Option (List α))) (rest : List (List α))
    (i : Nat) : (fillPlaces places rest)[i]? =
      places[i]?.map fun place => (place.or rest[(places.take i).countP (·.isNone)]?).getD [] := by
  induction places generalizing rest i with
  | nil => simp [fillPlaces]
  | cons place places ih =>
    cases i with
    | zero => cases place <;> cases rest <;> simp [fillPlaces]
    | succ i => cases place <;> cases rest <;> simp [fillPlaces, ih]

theorem lastNamed?_eq (p : Polygon) (entries : List RingCoordinates) (i : Fin p.rings.length) :
    p.lastNamed? entries i.val =
      (p.lastNaming? entries i).map fun k => entries[k].coordinates := by
  have htest (k : Fin entries.length) :
      (p.namedRing? entries[k] == some i.val) = decide (p.Names entries[k] i) := by
    rw [Bool.eq_iff_iff, beq_iff_eq, decide_eq_true_iff, namedRing?_eq_some_iff]
  rw [lastNamed?, filter_eq_map_finRange, List.getLast?_map, Option.map_map]
  simp only [htest]
  rfl

theorem strayCoordinates_eq (p : Polygon) (entries : List RingCoordinates) :
    p.strayCoordinates entries =
      (p.strayEntries entries).map fun k => entries[k].coordinates := by
  have htest (k : Fin entries.length) :
      (p.namedRing? entries[k] == none) = decide (∀ i, ¬ p.Names entries[k] i) := by
    rw [Bool.eq_iff_iff, beq_iff_eq, decide_eq_true_iff, namedRing?_eq_none_iff]
  rw [strayCoordinates, filter_eq_map_finRange, List.map_map]
  simp only [htest]
  rfl

/-- A ring that no entry names comes after those before it that no entry names either. -/
theorem idxOf_unnamedRings {i : Fin p.rings.length} (h : i ∈ p.unnamedRings entries) :
    (p.unnamedRings entries).idxOf i =
      ((List.finRange p.rings.length).take i.val).countP
        fun j => (p.lastNaming? entries j).isNone := by
  have htest : (fun j => (p.lastNaming? entries j).isNone) =
      fun j => decide (∀ k : Fin entries.length, ¬ p.Names entries[k] j) := by
    funext j
    rw [Bool.eq_iff_iff, Option.isNone_iff_eq_none, lastNaming?_eq_none_iff, mem_unnamedRings,
      decide_eq_true_iff]
  rw [htest]
  exact idxOf_filter_finRange _ (decide_eq_true (mem_unnamedRings.1 h))

/-- What a ring receives, told by how many rings before it no entry names. -/
theorem coordinates_received (p : Polygon) (entries : List RingCoordinates)
    (i : Fin p.rings.length) :
    (p.received entries i).elim [] (fun k => entries[k].coordinates) =
      (((p.lastNaming? entries i).map fun k => entries[k].coordinates).or
        ((p.strayEntries entries)[((List.finRange p.rings.length).take i.val).countP
          fun j => (p.lastNaming? entries j).isNone]?.map fun k => entries[k].coordinates)).getD
        [] := by
  cases hlast : p.lastNaming? entries i with
  | some last => rw [received, hlast]; rfl
  | none =>
    have hmem := lastNaming?_eq_none_iff.1 hlast
    rw [Option.map_none, Option.none_or, ← idxOf_unnamedRings hmem,
      received_of_mem_unnamedRings hmem]
    cases (p.strayEntries entries)[(p.unnamedRings entries).idxOf i]? <;> rfl

/-- The coordinates are those of the entries that the rings receive. -/
theorem arrangeCoordinates_eq (p : Polygon) (entries : List RingCoordinates) :
    p.arrangeCoordinates entries =
      List.ofFn fun i => (p.received entries i).elim [] fun k => entries[k].coordinates := by
  have hplaces : (List.range p.rings.length).map (p.lastNamed? entries) =
      (List.finRange p.rings.length).map fun i =>
        (p.lastNaming? entries i).map fun k => entries[k].coordinates := by
    rw [← List.map_coe_finRange_eq_range, List.map_map]
    exact List.map_congr_left fun i _ => p.lastNamed?_eq entries i
  have hcount (n : Nat) : ((List.finRange p.rings.length).take n).countP ((·.isNone) ∘ fun i =>
      (p.lastNaming? entries i).map fun k => entries[k].coordinates) =
      ((List.finRange p.rings.length).take n).countP fun i => (p.lastNaming? entries i).isNone :=
    List.countP_congr fun i _ => by simp
  rw [arrangeCoordinates_eq_fillPlaces, hplaces, strayCoordinates_eq]
  refine List.ext_getElem? fun n => ?_
  rw [getElem?_fillPlaces, List.getElem?_ofFn, List.getElem?_map, List.getElem?_map,
    ← List.map_take, List.countP_map, hcount]
  by_cases hn : n < p.rings.length
  · have hget : (List.finRange p.rings.length)[n]? = some ⟨n, hn⟩ := by simp [hn]
    rw [dif_pos hn, hget, Option.map_some, Option.map_some, coordinates_received]
  · rw [dif_neg hn]
    simp [hn]

/-- **How texture coordinates are dealt out.**  Every ring of a polygon gets one list of coordinates,
that of the entry which it receives or an empty one.  A ring that entries name receives the last of
them; the other rings receive the entries that name no ring, both in order.  No entry is received
twice, and one that names no ring is dropped only if no ring goes without. -/
theorem arrangeCoordinates_received (p : Polygon) (entries : List RingCoordinates) :
    ∃ received : Fin p.rings.length → Option (Fin entries.length),
      p.arrangeCoordinates entries =
        List.ofFn (fun i => (received i).elim [] fun k => entries[k].coordinates) ∧
      (∀ (i : Fin p.rings.length) (k : Fin entries.length), p.Names entries[k] i →
        ∃ last, received i = some last ∧ p.Names entries[last] i ∧
          ∀ l > last, ¬ p.Names entries[l] i) ∧
      (∀ (r : Nat) (i : Fin p.rings.length), (p.unnamedRings entries)[r]? = some i →
        received i = (p.strayEntries entries)[r]?) ∧
      (∀ i j k, received i = some k → received j = some k → i = j) ∧
      ∀ k ∈ p.strayEntries entries, (∀ i, received i ≠ some k) → ∀ i, received i ≠ none :=
  ⟨p.received entries, p.arrangeCoordinates_eq entries, fun _ _ => received_of_names,
    fun _ _ => received_unnamedRings, fun _ _ _ => received_injective,
    fun _ => received_ne_none_of_dropped⟩

end Polygon

end CityScene
