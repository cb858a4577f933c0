import Mathlib.Data.List.TakeWhile
import CityScene.Text.Blank

/-!
# Words in a text

`pieces` is the library's split, so what is known of that carries over.  Everything about `words`
follows from one equation: a blank character cuts the words of a text in two (`words_append_blank`).
In particular blanks at the ends make no difference (`words_trim`).

`Spaced` says how words are laid out in a text, with any blanks around them and some between them.
However that is done, the words are read back (`Spaced.words_eq`).
-/

namespace CityScene.Text

/-! ### Pieces -/

theorem pieces_eq_splitOnP (p : Char → Bool) (cs : List Char) : pieces p cs = cs.splitOnP p := by
  induction cs with
  | nil => rfl
  | cons c cs ih =>
    obtain ⟨piece, rest, hsplit⟩ := List.exists_cons_of_ne_nil (List.splitOnP_ne_nil p cs)
    show pieces.step p c (pieces p cs) = _
    rw [ih, List.splitOnP_cons_eq_if_modifyHead, hsplit]
    rfl

/-- Pieces without the separator are read back when they are joined by it. -/
theorem pieces_intercalate {separator : Char} {ls : List (List Char)} (hne : ls ≠ [])
    (h : ∀ l ∈ ls, separator ∉ l) :
    pieces (· == separator) ([separator].intercalate ls) = ls := by
  rw [pieces_eq_splitOnP, ← List.splitOn_eq_splitOnP, List.splitOn_intercalate separator h hne]

/-! ### Words -/

/-- Some characters, none of which is blank. -/
def IsWord (cs : List Char) : Prop :=
  cs ≠ [] ∧ ∀ c ∈ cs, isBlank c = false

/-- **A blank character cuts the words in two.** -/
theorem words_append_blank {c : Char} (hc : isBlank c = true) (cs cs' : List Char) :
    words (cs ++ c :: cs') = words cs ++ words cs' := by
  rw [words, pieces_eq_splitOnP, List.splitOnP_append_cons cs cs' hc, List.filter_append, words,
    words, pieces_eq_splitOnP, pieces_eq_splitOnP]

theorem words_cons_blank {c : Char} (hc : isBlank c = true) (cs : List Char) :
    words (c :: cs) = words cs :=
  words_append_blank hc [] cs

theorem words_blanks_append {blanks : List Char} (h : ∀ c ∈ blanks, isBlank c = true)
    (cs : List Char) : words (blanks ++ cs) = words cs := by
  induction blanks with
  | nil => rfl
  | cons c blanks ih =>
    obtain ⟨hc, hblanks⟩ := List.forall_mem_cons.1 h
    rw [List.cons_append, words_cons_blank hc, ih hblanks]

theorem words_of_blanks {blanks : List Char} (h : ∀ c ∈ blanks, isBlank c = true) :
    words blanks = [] := by
  have hwords := words_blanks_append h []
  rwa [List.append_nil] at hwords

theorem words_append_blanks {blanks : List Char} (h : ∀ c ∈ blanks, isBlank c = true)
    (cs : List Char) : words (cs ++ blanks) = words cs := by
  cases blanks with
  | nil => rw [List.append_nil]
  | cons c blanks =>
    obtain ⟨hc, hblanks⟩ := List.forall_mem_cons.1 h
    rw [words_append_blank hc, words_of_blanks hblanks, List.append_nil]

theorem words_of_isWord {cs : List Char} (h : IsWord cs) : words cs = [cs] := by
  rw [words, pieces_eq_splitOnP, List.splitOnP_eq_singleton h.2]
  simp [h.1]

/-- **Trimming takes no words away.** -/
theorem words_trim (cs : List Char) : words (trim cs) = words cs := by
  have hfront : words (cs.dropWhile isBlank) = words cs := by
    have hblanks : ∀ c ∈ cs.takeWhile isBlank, isBlank c = true :=
      fun _ hc => List.mem_takeWhile_imp hc
    have hwords := words_blanks_append hblanks (cs.dropWhile isBlank)
    rwa [List.takeWhile_append_dropWhile, eq_comm] at hwords
  generalize hback : cs.dropWhile isBlank = kept at hfront
  rw [trim, hback, ← hfront]
  have hsplit : kept = (kept.reverse.dropWhile isBlank).reverse ++
      (kept.reverse.takeWhile isBlank).reverse := by
    rw [← List.reverse_append, List.takeWhile_append_dropWhile, List.reverse_reverse]
  have hblanks : ∀ c ∈ (kept.reverse.takeWhile isBlank).reverse, isBlank c = true := by
    intro c hc
    rw [List.mem_reverse] at hc
    exact List.mem_takeWhile_imp hc
  conv => rhs; rw [hsplit, words_append_blanks hblanks]

theorem trim_eq_self {cs : List Char} (h : ∀ c ∈ cs, isBlank c = false) : trim cs = cs := by
  have hdrop : ∀ l : List Char, (∀ c ∈ l, isBlank c = false) → l.dropWhile isBlank = l := by
    intro l hl
    cases l with
    | nil => rfl
    | cons c l =>
      have hc : ¬ isBlank c = true := by simp [hl c List.mem_cons_self]
      rw [List.dropWhile_cons_of_neg hc]
  have hreverse : ∀ c ∈ cs.reverse, isBlank c = false := fun c hc => h c (List.mem_reverse.1 hc)
  rw [trim, hdrop cs h, hdrop _ hreverse, List.reverse_reverse]

/-! ### Layouts -/

/-- The words stand in the text one after the other, with blanks between them.  There may be more
than one blank between two words, and blanks before the first and after the last. -/
inductive Spaced : List (List Char) → List Char → Prop
  | blanks {cs : List Char} (h : ∀ c ∈ cs, isBlank c = true) : Spaced [] cs
  | last {before : List Char} (h : ∀ c ∈ before, isBlank c = true) (w : List Char) :
      Spaced [w] (before ++ w)
  | word {before : List Char} (h : ∀ c ∈ before, isBlank c = true) (w : List Char) {c : Char}
      (hc : isBlank c = true) {ws : List (List Char)} {after : List Char}
      (hafter : Spaced ws after) : Spaced (w :: ws) (before ++ (w ++ c :: after))

/-- **Words are read back from any layout.** -/
theorem Spaced.words_eq {ws : List (List Char)} {cs : List Char} (h : Spaced ws cs)
    (hws : ∀ w ∈ ws, IsWord w) : words cs = ws := by
  induction h with
  | blanks h => exact words_of_blanks h
  | last h w => rw [words_blanks_append h, words_of_isWord (hws w List.mem_cons_self)]
  | word h w hc _ ih =>
    obtain ⟨hw, hrest⟩ := List.forall_mem_cons.1 hws
    rw [words_blanks_append h, words_append_blank hc, words_of_isWord hw, ih hrest]
    rfl

theorem Spaced.cons_blank {ws : List (List Char)} {cs : List Char} (h : Spaced ws cs) {c : Char}
    (hc : isBlank c = true) : Spaced ws (c :: cs) := by
  cases h with
  | blanks h => exact .blanks (List.forall_mem_cons.2 ⟨hc, h⟩)
  | last h w => exact .last (List.forall_mem_cons.2 ⟨hc, h⟩) w
  | word h w hd hafter => exact .word (List.forall_mem_cons.2 ⟨hc, h⟩) w hd hafter

/-- Every text is a layout of its words. -/
theorem spaced_words (cs : List Char) : Spaced (words cs) cs := by
  have hnone : ∀ c ∈ ([] : List Char), isBlank c = true := fun _ hc => absurd hc List.not_mem_nil
  -- by induction on what comes after the first characters of a word
  have hbegun : ∀ w : List Char, (∀ c ∈ w, isBlank c = false) →
      Spaced (words (w ++ cs)) (w ++ cs) := by
    induction cs with
    | nil =>
      intro w hw
      rw [List.append_nil]
      by_cases hne : w = []
      · subst hne
        exact .blanks hnone
      · rw [words_of_isWord ⟨hne, hw⟩]
        exact .last hnone w
    | cons c cs ih =>
      intro w hw
      by_cases hc : isBlank c = true
      · have hrest : Spaced (words cs) cs := ih [] fun _ hc => absurd hc List.not_mem_nil
        by_cases hne : w = []
        · subst hne
          rw [List.nil_append, words_cons_blank hc]
          exact hrest.cons_blank hc
        · rw [words_append_blank hc, words_of_isWord ⟨hne, hw⟩]
          exact .word hnone w hc hrest
      · have hlonger : ∀ d ∈ w ++ [c], isBlank d = false := by
          intro d hd
          rcases List.mem_append.1 hd with hd | hd
          · exact hw d hd
          · obtain rfl := List.mem_singleton.1 hd
            exact Bool.eq_false_iff.2 hc
        have hspaced := ih (w ++ [c]) hlonger
        rwa [List.append_assoc] at hspaced
  exact hbegun [] fun _ hc => absurd hc List.not_mem_nil

/-- Words joined by a blank are a layout. -/
theorem spaced_intercalate {c : Char} (hc : isBlank c = true) (ws : List (List Char)) :
    Spaced ws ([c].intercalate ws) := by
  have hnone : ∀ c ∈ ([] : List Char), isBlank c = true := fun _ hc => absurd hc List.not_mem_nil
  induction ws with
  | nil => exact .blanks hnone
  | cons w rest ih =>
    cases rest with
    | nil =>
      rw [List.intercalate_singleton]
      exact .last hnone w
    | cons w' rest =>
      rw [List.intercalate_cons_cons, List.append_assoc]
      exact .word hnone w hc ih

end CityScene.Text
