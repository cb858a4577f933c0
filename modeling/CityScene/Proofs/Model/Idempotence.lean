import CityScene.Proofs.Model.Painting

/-!
# Completing a model twice

A model may be completed as often as one likes, and the first time settles it: the second returns
the same references and changes nothing (`finalize_finalize`), whatever the model has been told
before, and whatever its polygons have been bound to.

All paints are put down once more on polygons that have them already.  A slot of a binding holds
what the last paint that fills it has put there, so every binding is at rest after the first time
(`Paint.bindAll_bindAll`), and so are all the bindings of a polygon, since those of a theme see the
paints of that theme only (`Polygon.bound_cons`).  The targets that are missing are recorded once
more, too.  One that nothing answers is pending from the first time, and one that is answered is
dropped again (`filter_pending_foldl_recordReference`).
-/

namespace CityScene

/-! ### One binding -/

attribute [ext] Binding

namespace Paint

/-- What paints on a polygon make of a binding, one after the other. -/
def bindAll (p : Polygon) (paints : List Paint) (b : Binding) : Binding :=
  paints.foldl (fun b a => a.bind p b) b

/-- What a paint puts into the slot of the texture and its coordinates. -/
def drawn? (p : Polygon) : Paint → Option (Option String × List (List (Vec2 Float)))
  | material _ _ => none
  | texture _ id rings => some (some id, Polygon.openEach p.rings (p.arrangeCoordinates rings))

theorem theme_bindAll (p : Polygon) (paints : List Paint) (b : Binding) :
    (bindAll p paints b).theme = b.theme := by
  induction paints generalizing b with
  | nil => rfl
  | cons a paints ih => exact (ih _).trans (a.theme_bind p b)

/-- The last paint that fills a slot decides, and without one the slot stays as it is. -/
theorem slot_bindAll {γ : Type} {p : Polygon} (slot : Binding → γ) (fills : Paint → Option γ)
    (hfills : ∀ a b, slot (a.bind p b) = (fills a).getD (slot b)) (paints : List Paint)
    (b : Binding) :
    slot (bindAll p paints b) = (paints.filterMap fills).getLast?.getD (slot b) := by
  induction paints using List.reverseRecOn with
  | nil => rfl
  | append_singleton paints a ih =>
    rw [bindAll, List.foldl_append, List.foldl_cons, List.foldl_nil, hfills, ← bindAll, ih,
      List.filterMap_append, List.getLast?_append]
    cases h : fills a <;> simp [h]

theorem slot_bindAll_bindAll {γ : Type} {p : Polygon} (slot : Binding → γ)
    (fills : Paint → Option γ) (hfills : ∀ a b, slot (a.bind p b) = (fills a).getD (slot b))
    (paints : List Paint) (b : Binding) :
    slot (bindAll p paints (bindAll p paints b)) = slot (bindAll p paints b) := by
  rw [slot_bindAll slot fills hfills, slot_bindAll slot fills hfills]
  cases (paints.filterMap fills).getLast? <;> rfl

/-- **A binding is at rest** after its paints have been put down once. -/
theorem bindAll_bindAll (p : Polygon) (paints : List Paint) (b : Binding) :
    bindAll p paints (bindAll p paints b) = bindAll p paints b := by
  have htheme := theme_bindAll p paints (bindAll p paints b)
  have hmaterial := slot_bindAll_bindAll (p := p) Binding.material (·.material?.map some)
    (fun a b => by cases a <;> rfl) paints b
  have hdrawn := slot_bindAll_bindAll (fun b => (b.texture, b.coordinates)) (drawn? p)
    (fun a b => by cases a <;> rfl) paints b
  obtain ⟨htexture, hcoordinates⟩ := Prod.mk.inj hdrawn
  exact Binding.ext htheme hmaterial htexture hcoordinates

end Paint

/-! ### The bindings of a polygon -/

namespace Polygon

/-- What paints on a polygon make of its bindings. -/
def bound (p : Polygon) (paints : List Paint) (bindings : List Binding) : List Binding :=
  paints.foldl (fun bindings a => updateBinding a.theme (a.bind p) bindings) bindings

theorem bindings_foldl_paint (paints : List Paint) (p : Polygon) :
    (paints.foldl paint p).bindings = p.bound paints p.bindings := by
  induction paints using List.reverseRecOn with
  | nil => rfl
  | append_singleton paints a ih =>
    rw [List.foldl_append, List.foldl_cons, List.foldl_nil, paint_eq, bind_foldl_paint, ih, bound,
      bound, List.foldl_append]
    rfl

/-- The first binding takes the paints of its theme, and the others go to those after it. -/
theorem bound_cons (p : Polygon) (paints : List Paint) (b : Binding) (rest : List Binding) :
    p.bound paints (b :: rest) =
      Paint.bindAll p (paints.filter (·.theme == b.theme)) b ::
        p.bound (paints.filter (!·.theme == b.theme)) rest := by
  induction paints generalizing b rest with
  | nil => rfl
  | cons a paints ih =>
    rw [bound, List.foldl_cons, updateBinding]
    by_cases h : b.theme = a.theme
    · rw [if_pos (beq_iff_eq.2 h), ← bound, ih, a.theme_bind, List.filter_cons_of_pos (by simp [h]),
        List.filter_cons_of_neg (by simp [h])]
      rfl
    · have hne : ¬ a.theme = b.theme := fun heq => h heq.symm
      rw [if_neg (by simpa using h), ← bound, ih, List.filter_cons_of_neg (by simpa using hne),
        List.filter_cons_of_pos (by simpa using hne)]
      rfl

/-- A first binding is at rest if those after it are. -/
theorem bound_bound_cons {p : Polygon} {paints : List Paint} {b : Binding} {rest : List Binding}
    (h : p.bound (paints.filter (!·.theme == b.theme))
        (p.bound (paints.filter (!·.theme == b.theme)) rest) =
      p.bound (paints.filter (!·.theme == b.theme)) rest) :
    p.bound paints (p.bound paints (b :: rest)) = p.bound paints (b :: rest) := by
  rw [bound_cons, bound_cons, Paint.theme_bindAll, Paint.bindAll_bindAll, h]

/-- Without bindings the first paint starts one, which the other paints of its theme take part
in. -/
theorem bound_bound_nil (p : Polygon) (paints : List Paint) :
    p.bound paints (p.bound paints []) = p.bound paints [] := by
  match paints with
  | [] => rfl
  | a :: paints =>
    have hstart : p.bound (a :: paints) [] = p.bound (a :: paints) [{ theme := a.theme }] := by
      rw [bound, bound, List.foldl_cons, List.foldl_cons, updateBinding, updateBinding,
        if_pos (beq_self_eq_true _)]
    rw [hstart]
    exact bound_bound_cons (bound_bound_nil p _)
  termination_by paints.length
  decreasing_by
    rw [List.filter_cons_of_neg (by simp)]
    exact Nat.lt_succ_of_le (List.length_filter_le _ _)

/-- **All bindings are at rest** after the paints have been put down once. -/
theorem bound_bound (p : Polygon) (paints : List Paint) (bindings : List Binding) :
    p.bound paints (p.bound paints bindings) = p.bound paints bindings := by
  induction bindings generalizing paints with
  | nil => exact p.bound_bound_nil paints
  | cons b rest ih => exact bound_bound_cons (ih _)

theorem foldl_paint_foldl_paint (paints : List Paint) (p : Polygon) :
    paints.foldl paint (paints.foldl paint p) = paints.foldl paint p := by
  have hsame (bindings : List Binding) :
      (paints.foldl paint p).bound paints bindings = p.bound paints bindings := by
    rw [bound, bound]
    simp only [bind_foldl_paint]
  rw [foldl_paint_eq paints (paints.foldl paint p), bindings_foldl_paint, hsame,
    bindings_foldl_paint, bound_bound, ← bindings_foldl_paint]

end Polygon

/-! ### Models -/

namespace Model

theorem paintPolygon_paintPolygon (paints : List (String × Paint)) (p : Polygon) :
    paintPolygon paints (paintPolygon paints p) = paintPolygon paints p := by
  have hid := (KeepsRings.paintPolygon paints).id p
  cases h : p.id with
  | none => simp only [paintPolygon, h]
  | some id =>
    rw [h] at hid
    rw [paintPolygon.eq_1 paints (paintPolygon paints p), hid, paintPolygon, h]
    exact Polygon.foldl_paint_foldl_paint _ p

theorem mapPolygons_paintPolygon (m : Model) (paints : List (String × Paint)) :
    (m.mapPolygons (paintPolygon paints)).mapPolygons (paintPolygon paints) =
      m.mapPolygons (paintPolygon paints) := by
  have hpaint : paintPolygon paints ∘ paintPolygon paints = paintPolygon paints :=
    funext (paintPolygon_paintPolygon paints)
  simp only [mapPolygons_eq_mapEach, mapEach_comp, hpaint]
  rfl

/-- Recording references makes no difference to what is open, if those that are open have been
pending before. -/
theorem filter_pending_foldl_recordReference {references : List Reference} {m : Model}
    (h : ∀ r ∈ references, m.answers r = false → r ∈ m.pending) :
    (references.foldl recordReference m).pending.filter (!m.answers ·) =
      m.pending.filter (!m.answers ·) := by
  induction references generalizing m with
  | nil => rfl
  | cons r references ih =>
    obtain ⟨hr, hrest⟩ := List.forall_mem_cons.1 h
    rw [List.foldl_cons]
    by_cases hpending : r ∈ m.pending
    · have hsame : m.recordReference r = m := by
        rw [recordReference, keepPending, if_pos (List.contains_iff_mem.2 hpending), ite_self]
      rw [hsame]
      exact ih hrest
    · have hanswered : m.answers r = true := Bool.not_eq_false _ ▸ mt hr hpending
      rcases recordReference_cases m r with hm | hm <;> rw [hm]
      · exact ih hrest
      · -- it is pending for as long as answered references are
        refine (ih (m := { m with pending := m.pending ++ [r] }) fun s hs hopen =>
          List.mem_append_left _ (hrest s hs hopen)).trans ?_
        show (m.pending ++ [r]).filter (!m.answers ·) = m.pending.filter (!m.answers ·)
        rw [List.filter_append, List.filter_cons_of_neg (by simp [hanswered]), List.filter_nil,
          List.append_nil]

/-- The targets that are found missing are the same whenever they are looked for. -/
theorem missedTargets_mapPolygons {change : Polygon → Polygon} (h : KeepsRings change) (m : Model)
    (paints : List (String × Paint)) :
    (m.mapPolygons change).missedTargets paints = m.missedTargets paints := by
  have hids : (m.mapPolygons change).polygons.map (·.id) = m.polygons.map (·.id) := by
    rw [polygons_mapPolygons, List.map_map]
    exact List.map_congr_left fun p _ => h.id p
  rw [missedTargets_eq, missedTargets_eq, hids]

/-- A completed model has its polygons painted and its missing targets pending. -/
theorem bindAppearances_finalize (m : Model) :
    m.finalize.1.bindAppearances =
      ((m.missedTargets m.paints).map fun id => Reference.ofLink id .polygon none).foldl
        recordReference m.finalize.1 := by
  have hpaints : m.finalize.1.paints = m.paints := by
    rw [finalize_eq]
    exact (congrArg paints (m.mapPolygons_eq_mapEach (paintPolygon m.paints))).trans
      (m.paints_mapEach _ _)
  have hmissed : m.finalize.1.missedTargets m.paints = m.missedTargets m.paints := by
    rw [finalize_eq]
    exact m.missedTargets_mapPolygons (.paintPolygon m.paints) m.paints
  have hpainted : m.finalize.1.mapPolygons (paintPolygon m.paints) = m.finalize.1 := by
    rw [finalize_eq]
    exact congrArg (fun c : Model => { c with pending := m.finalize.1.pending })
      (m.mapPolygons_paintPolygon m.paints)
  rw [bindAppearances, hpaints, hmissed, hpainted]

/-- **Completing a model twice is completing it once**: the same references are returned, and the
model is left as it is. -/
theorem finalize_finalize (m : Model) : m.finalize.1.finalize = m.finalize := by
  have hanswers : m.finalize.1.answers = m.bindAppearances.answers := rfl
  have hleft : m.finalize.1.pending.filter (!m.finalize.1.answers ·) = m.finalize.1.pending :=
    List.filter_eq_self.2 fun r hr => (List.mem_filter.1 hr).2
  have hopen : ∀ r ∈ (m.missedTargets m.paints).map fun id => Reference.ofLink id .polygon none,
      m.finalize.1.answers r = false → r ∈ m.finalize.1.pending := by
    intro r hr hopen
    have hkind : r.kind = .polygon := by
      obtain ⟨id, -, rfl⟩ := List.mem_map.1 hr
      rfl
    exact List.mem_filter.2
      ⟨mem_pending_foldl_recordReference hr hkind _, by rw [← hanswers, hopen, Bool.not_false]⟩
  obtain ⟨kept, -, hkept⟩ := exists_foldl_recordReference m.finalize.1
    ((m.missedTargets m.paints).map fun id => Reference.ofLink id .polygon none)
  have hpending := filter_pending_foldl_recordReference hopen
  rw [hleft] at hpending
  rw [← bindAppearances_finalize] at hpending hkept
  have hsame : m.finalize.1.bindAppearances.answers = m.finalize.1.answers := by
    rw [hkept]
    rfl
  rw [finalize.eq_1 m.finalize.1, hsame, hpending, hkept]
  rfl

end Model

end CityScene
