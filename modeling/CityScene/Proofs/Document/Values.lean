import CityScene.Document.Delivery
import CityScene.Proofs.Document.Touches

/-!
# What texts are read as

Whatever text a position has, with whatever dimension or separators, the points that it is read as
are finite (`PositionText.isFinite_of_read`).
-/

namespace CityScene.Document

/-- What a list is read as comes from its members. -/
theorem exists_of_mem_mapM {ε α β : Type} {f : α → Except ε β} {l : List α} {l' : List β}
    (h : l.mapM f = .ok l') {b : β} (hb : b ∈ l') : ∃ a ∈ l, f a = .ok b := by
  induction l generalizing l' with
  | nil =>
    rw [List.mapM_nil] at h
    cases h
    cases hb
  | cons a l ih =>
    rw [List.mapM_cons] at h
    obtain ⟨first, hfirst, h⟩ := exists_of_bind_eq_ok h
    obtain ⟨rest, hrest, h⟩ := exists_of_bind_eq_ok h
    cases h
    rcases List.mem_cons.1 hb with rfl | hb
    · exact ⟨a, List.mem_cons_self, hfirst⟩
    · obtain ⟨a', ha', hread⟩ := ih hrest hb
      exact ⟨a', List.mem_cons_of_mem a ha', hread⟩

/-! ### Numbers -/

theorem isFinite_of_readFinite {field : String} {token : List Char} {x : Float}
    (h : readFinite field token = .ok x) : x.isFinite = true := by
  rw [readFinite] at h
  split at h
  · split at h
    · next hfinite => cases h; exact hfinite
    · cases h
  · cases h

theorem isFinite_of_readFloats {field text : String} {values : List Float}
    (h : readFloats field text = .ok values) {x : Float} (hx : x ∈ values) : x.isFinite = true := by
  obtain ⟨token, -, hread⟩ := exists_of_mem_mapM h hx
  exact isFinite_of_readFinite hread

/-! ### Points -/

theorem isFinite_mk {x y z : Float} (hx : x.isFinite = true) (hy : y.isFinite = true)
    (hz : z.isFinite = true) : (⟨x, y, z⟩ : Vec3 Float).isFinite = true :=
  Bool.and_eq_true_iff.2 ⟨Bool.and_eq_true_iff.2 ⟨hx, hy⟩, hz⟩

theorem isFinite_zero : (0.0 : Float).isFinite = true := by
  decide +kernel

theorem isFinite_of_mem_pairs {values : List Float} (h : ∀ x ∈ values, x.isFinite = true)
    {p : Vec3 Float} (hp : p ∈ pairs values) : p.isFinite = true := by
  induction values using pairs.induct with
  | case1 x y rest ih =>
    rw [pairs] at hp
    obtain ⟨hx, hrest⟩ := List.forall_mem_cons.1 h
    obtain ⟨hy, hrest⟩ := List.forall_mem_cons.1 hrest
    rcases List.mem_cons.1 hp with rfl | hp
    · exact isFinite_mk hx hy isFinite_zero
    · exact ih hrest hp
  | case2 values hvalues =>
    rw [pairs.eq_2 values hvalues] at hp
    cases hp

theorem isFinite_of_mem_triples {values : List Float} (h : ∀ x ∈ values, x.isFinite = true)
    {p : Vec3 Float} (hp : p ∈ triples values) : p.isFinite = true := by
  induction values using triples.induct with
  | case1 x y z rest ih =>
    rw [triples] at hp
    obtain ⟨hx, hrest⟩ := List.forall_mem_cons.1 h
    obtain ⟨hy, hrest⟩ := List.forall_mem_cons.1 hrest
    obtain ⟨hz, hrest⟩ := List.forall_mem_cons.1 hrest
    rcases List.mem_cons.1 hp with rfl | hp
    · exact isFinite_mk hx hy hz
    · exact ih hrest hp
  | case2 values hvalues =>
    rw [triples.eq_2 values hvalues] at hp
    cases hp

theorem isFinite_of_point? {values : List Float} (h : ∀ x ∈ values, x.isFinite = true)
    {p : Vec3 Float} (hp : point? values = some p) : p.isFinite = true := by
  unfold point? at hp
  split at hp
  · next x y =>
    cases hp
    exact isFinite_mk (h x (by simp)) (h y (by simp)) isFinite_zero
  · next x y z =>
    cases hp
    exact isFinite_mk (h x (by simp)) (h y (by simp)) (h z (by simp))
  · cases hp

theorem isFinite_of_readPositions {text : String} {dimension : Nat} {points : List (Vec3 Float)}
    (h : readPositions text dimension = .ok points) {p : Vec3 Float} (hp : p ∈ points) :
    p.isFinite = true := by
  obtain ⟨values, hvalues, h⟩ := exists_of_bind_eq_ok h
  have hfinite : ∀ x ∈ values, x.isFinite = true := fun x hx => isFinite_of_readFloats hvalues hx
  by_cases hdimension : dimension ≠ 2 ∧ dimension ≠ 3
  · rw [if_pos hdimension] at h
    cases h
  · by_cases hcount : values.length % dimension ≠ 0
    · rw [if_neg hdimension, if_pos hcount] at h
      cases h
    · rw [if_neg hdimension, if_neg hcount] at h
      cases h
      split at hp
      · exact isFinite_of_mem_pairs hfinite hp
      · exact isFinite_of_mem_triples hfinite hp

theorem isFinite_of_readPoint {field text : String} {p : Vec3 Float}
    (h : readPoint field text = .ok p) : p.isFinite = true := by
  obtain ⟨values, hvalues, h⟩ := exists_of_bind_eq_ok h
  split at h
  · next hpoint =>
    cases h
    exact isFinite_of_point? (fun x hx => isFinite_of_readFloats hvalues hx) hpoint
  · cases h

theorem Separators.isFinite_of_readTuple {s : Separators} {text : List Char} {p : Vec3 Float}
    (h : s.readTuple text = .ok p) : p.isFinite = true := by
  obtain ⟨values, hvalues, h⟩ := exists_of_bind_eq_ok h
  split at h
  · next hpoint =>
    cases h
    refine isFinite_of_point? (fun x hx => ?_) hpoint
    obtain ⟨component, -, hread⟩ := exists_of_mem_mapM hvalues hx
    exact isFinite_of_readFinite hread
  · cases h

/-- **Positions are finite.** -/
theorem PositionText.isFinite_of_read {kind : PositionText} {attributes : Markup.Attributes}
    {dimension : Option Nat} {text : String} {points : List (Vec3 Float)}
    (h : kind.read attributes dimension text = .ok points) {p : Vec3 Float} (hp : p ∈ points) :
    p.isFinite = true := by
  have hpoint (h : (readPoint "pos" text).map (fun p => [p]) = .ok points) : p.isFinite = true := by
    cases hread : readPoint "pos" text with
    | error fault => rw [hread] at h; cases h
    | ok q =>
      rw [hread] at h
      cases h
      obtain rfl := List.mem_singleton.1 hp
      exact isFinite_of_readPoint hread
  cases kind with
  | positionList => exact isFinite_of_readPositions h hp
  | coordinates =>
    obtain ⟨text, -, hread⟩ := exists_of_mem_mapM h hp
    exact Separators.isFinite_of_readTuple hread
  | position => exact hpoint h
  | lowerCorner => exact hpoint h
  | upperCorner => exact hpoint h

end CityScene.Document
