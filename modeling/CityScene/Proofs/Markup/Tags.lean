import CityScene.Markup.Tag
import CityScene.Proofs.Text.Encoding

/-!
# Tags as they are written

A tag is written with a blank before each attribute and with quotes around each value.  Whatever
follows it, `Token.scan` finds where it ends (`Token.scan_written`), since what its quotes enclose
is passed over; and then `Tag.read` gives the names and the values letter by letter
(`Tag.read_written`).
-/

namespace CityScene.Markup

open Text (encode)

/-! ### Bytes up to a mark -/

theorem takeWhile_append_cons {p : UInt8 → Bool} {l : List UInt8} (hl : ∀ b ∈ l, p b = true)
    {b : UInt8} (hb : p b = false) (rest : List UInt8) : (l ++ b :: rest).takeWhile p = l := by
  rw [List.takeWhile_append_of_pos hl, List.takeWhile_cons_of_neg (by simp [hb]), List.append_nil]

theorem drop_append_cons (l : List UInt8) (b : UInt8) (rest : List UInt8) :
    (l ++ b :: rest).drop (l.length + 1) = rest := by
  rw [← List.drop_drop, List.drop_left]
  rfl

/-! ### Bytes of texts -/

/-- Characters that set off the parts of markup. -/
def delimiters : List Char :=
  [' ', '\t', '\r', '\n', '<', '>', '&', ';', '"', '\'', '=', '/', '!', '?']

def isDelimiter (c : Char) : Bool :=
  delimiters.contains c

theorem lt_of_isDelimiter {c : Char} (h : isDelimiter c = true) : c.toNat < 0x80 := by
  have hascii : delimiters.all (·.toNat < 0x80) = true := by decide
  exact of_decide_eq_true (List.all_eq_true.1 hascii c (List.contains_iff_mem.1 h))

theorem encode_cons_delimiter {c : Char} (h : isDelimiter c = true) (cs : List Char) :
    encode (c :: cs) = byte c :: encode cs := by
  rw [Text.encode_cons, Text.utf8EncodeChar_of_ascii (lt_of_isDelimiter h)]
  rfl

/-- A text without a delimiter has no byte of it. -/
theorem ne_byte_of_mem_encode {d : Char} (hd : isDelimiter d = true) {cs : List Char}
    (h : d ∉ cs) {b : UInt8} (hb : b ∈ encode cs) : b ≠ byte d := by
  rintro rfl
  exact h ((Text.mem_encode_iff (lt_of_isDelimiter hd)).1 hb)

/-- Some characters, none of which is a delimiter. -/
def IsName (cs : List Char) : Prop :=
  cs ≠ [] ∧ ∀ c ∈ cs, isDelimiter c = false

instance (cs : List Char) : Decidable (IsName cs) :=
  decidable_of_iff (cs.isEmpty = false ∧ cs.all (!isDelimiter ·) = true) (by
    rw [IsName, List.isEmpty_eq_false_iff, List.all_eq_true]
    simp only [Bool.not_eq_true'])

namespace IsName

variable {cs : List Char} (h : IsName cs)
include h

theorem ne_byte {d : Char} (hd : isDelimiter d = true) {b : UInt8} (hb : b ∈ encode cs) :
    b ≠ byte d := by
  refine ne_byte_of_mem_encode hd (fun hmem => ?_) hb
  rw [h.2 d hmem] at hd
  cases hd

theorem isSpace_eq_false {b : UInt8} (hb : b ∈ encode cs) : isSpace b = false := by
  simp only [isSpace, Bool.or_eq_false_iff, beq_eq_false_iff_ne]
  exact ⟨⟨⟨h.ne_byte rfl hb, h.ne_byte rfl hb⟩, h.ne_byte rfl hb⟩, h.ne_byte rfl hb⟩

theorem exists_encode_eq_cons : ∃ b rest, encode cs = b :: rest := by
  obtain ⟨c, cs', rfl⟩ := List.exists_cons_of_ne_nil h.1
  exact Text.exists_encode_cons c cs'

end IsName

theorem decode_encode (s : String) : Tag.decode (encode s.toList) = .ok s := by
  rw [Tag.decode, Text.decodeUtf8_encode, String.ofList_toList]
  rfl

theorem encode_inj {s t : String} (h : encode s.toList = encode t.toList) : s = t := by
  have hread := decode_encode s
  rw [h, decode_encode] at hread
  exact (Except.ok.inj hread).symm

/-! ### Written tags -/

/-- Attributes as they are written after a name. -/
def Attributes.written (attributes : Attributes) : List Char :=
  attributes.flatMap fun a => ' ' :: (a.1.toList ++ '=' :: '"' :: (a.2.toList ++ ['"']))

/-- A tag as it is written between its brackets. -/
def Tag.written (t : Tag) : List Char :=
  t.name.toList ++ t.attributes.written

/-- Every key is a name, and no value has a quote in it. -/
structure Attributes.IsWritable (attributes : Attributes) : Prop where
  keys : ∀ a ∈ attributes, IsName a.1.toList
  values : ∀ a ∈ attributes, '"' ∉ a.2.toList

theorem Attributes.IsWritable.of_cons {a : String × String} {attributes : Attributes}
    (h : IsWritable (a :: attributes)) : IsName a.1.toList ∧ '"' ∉ a.2.toList ∧
      IsWritable attributes :=
  ⟨h.keys a List.mem_cons_self, h.values a List.mem_cons_self,
    fun x hx => h.keys x (List.mem_cons_of_mem _ hx),
    fun x hx => h.values x (List.mem_cons_of_mem _ hx)⟩

theorem Attributes.encode_written_cons (a : String × String) (attributes : Attributes) :
    encode (written (a :: attributes)) = byte ' ' :: (encode a.1.toList ++ byte '=' :: byte '"' ::
      (encode a.2.toList ++ byte '"' :: encode (written attributes))) := by
  have hquote : encode ['"'] = [byte '"'] := encode_cons_delimiter rfl []
  rw [written, List.flatMap_cons, Text.encode_append, encode_cons_delimiter rfl,
    Text.encode_append, encode_cons_delimiter rfl, encode_cons_delimiter rfl, Text.encode_append,
    hquote]
  simp [written]

namespace Tag

/-- The name and the keys are names, no key occurs twice, and no value has a quote in it. -/
structure IsWritable (t : Tag) : Prop where
  name : IsName t.name.toList
  attributes : t.attributes.IsWritable
  nodup : (t.attributes.map Prod.fst).Nodup

/-! ### Reading tags -/

/-- A value is what stands between its quotes. -/
theorem readValue_written {seen : List (List UInt8 × Nat)} {key value : List UInt8}
    (hseen : previous? seen key = none) (hvalue : ∀ b ∈ value, b ≠ byte '"') (start : Nat)
    (rest : List UInt8) :
    readValue seen start key (byte '=' :: byte '"' :: (value ++ byte '"' :: rest)) =
      .ok (value, value.length + 3) := by
  have hsign (l : List UInt8) : (byte '=' :: l).takeWhile isSpace = [] := rfl
  have hquote (l : List UInt8) : (byte '"' :: l).takeWhile isSpace = [] := rfl
  have htake : (value ++ byte '"' :: rest).takeWhile (· != byte '"') = value :=
    takeWhile_append_cons (by simpa using hvalue) (by simp) rest
  have hlength : value.length < (value ++ byte '"' :: rest).length := by simp
  simp only [readValue, hsign, List.length_nil, List.drop_zero, bne_self_eq_false, hseen, hquote,
    Bool.false_eq_true, if_false, htake, if_pos hlength]
  exact congrArg (fun n => Except.ok (value, n)) (by omega)

theorem previous?_eq_none {seen : List (List UInt8 × Nat)} {key : List UInt8}
    (h : ∀ p ∈ seen, p.1 ≠ key) : previous? seen key = none := by
  rw [previous?, List.find?_eq_none.2 (by simpa using h)]
  rfl

/-- One attribute is read, and then those after it. -/
theorem readAttributes_cons {seen : List (List UInt8 × Nat)} {key value : List UInt8}
    (hkey : key ≠ []) (hname : ∀ b ∈ key, isSpace b = false ∧ b ≠ byte '=')
    (hseen : previous? seen key = none) (hvalue : ∀ b ∈ value, b ≠ byte '"') (position : Nat)
    (rest : List UInt8) :
    readAttributes seen position (byte ' ' :: (key ++ byte '=' :: byte '"' ::
        (value ++ byte '"' :: rest))) = (do
      let entry := (← decode key, ← decode value)
      let more ← readAttributes ((key, position + 1) :: seen)
        (position + 1 + key.length + (value.length + 3)) rest
      return entry :: more) := by
  obtain ⟨first, tail, rfl⟩ := List.exists_cons_of_ne_nil hkey
  obtain ⟨hfirst, htail⟩ := List.forall_mem_cons.1 hname
  have hread := readValue_written hseen hvalue (position + 1) rest
  have hrest : (byte '=' :: byte '"' :: (value ++ byte '"' :: rest)).drop (value.length + 3) =
      rest := drop_append_cons value (byte '"') rest
  generalize hafter : byte '=' :: byte '"' :: (value ++ byte '"' :: rest) = after at hread hrest ⊢
  have hgap : (byte ' ' :: (first :: tail ++ after)).takeWhile isSpace = [byte ' '] := by
    rw [List.takeWhile_cons_of_pos rfl, List.cons_append,
      List.takeWhile_cons_of_neg (by simp [hfirst.1])]
  have hdrop : (byte ' ' :: (first :: tail ++ after)).dropWhile isSpace =
      first :: (tail ++ after) := by
    rw [List.dropWhile_cons_of_pos rfl, List.cons_append,
      List.dropWhile_cons_of_neg (by simp [hfirst.1])]
  have htake : (tail ++ after).takeWhile (fun b => !(b == byte '=' || isSpace b)) = tail := by
    rw [← hafter]
    exact takeWhile_append_cons (fun b hb => by simp [htail b hb]) (by simp) _
  rw [readAttributes]
  split
  · next hnil =>
    rw [hdrop] at hnil
    cases hnil
  · next first' rest' hcons =>
    obtain ⟨rfl, rfl⟩ := List.cons_eq_cons.1 (hdrop.symm.trans hcons)
    simp only [hgap, htake, List.length_cons, List.length_nil, Nat.zero_add, Nat.add_sub_cancel,
      List.drop_left]
    rw [hread, ← hrest]
    rfl

theorem readAttributes_written {attributes : Attributes} (h : attributes.IsWritable)
    (hnodup : (attributes.map Prod.fst).Nodup) {seen : List (List UInt8 × Nat)}
    (hseen : ∀ a ∈ attributes, ∀ p ∈ seen, p.1 ≠ encode a.1.toList) (position : Nat) :
    readAttributes seen position (encode attributes.written) = .ok attributes := by
  induction attributes generalizing seen position with
  | nil =>
    rw [readAttributes]
    rfl
  | cons a attributes ih =>
    obtain ⟨hkey, hvalue, hrest⟩ := h.of_cons
    obtain ⟨hnew, hnodup⟩ := List.nodup_cons.1 hnodup
    obtain ⟨hfirst, hlater⟩ := List.forall_mem_cons.1 hseen
    obtain ⟨b, tail, hbytes⟩ := hkey.exists_encode_eq_cons
    have hkeys : ∀ x ∈ attributes, ∀ p ∈ (encode a.1.toList, position + 1) :: seen,
        p.1 ≠ encode x.1.toList := by
      intro x hx p hp heq
      rcases List.mem_cons.1 hp with rfl | hp
      · exact hnew (List.mem_map.2 ⟨x, hx, (encode_inj heq).symm⟩)
      · exact hlater x hx p hp heq
    rw [Attributes.encode_written_cons, readAttributes_cons (by simp [hbytes])
      (fun b hb => ⟨hkey.isSpace_eq_false hb, hkey.ne_byte rfl hb⟩) (previous?_eq_none hfirst)
      (fun b hb => ne_byte_of_mem_encode rfl hvalue hb), ih hrest hnodup hkeys, decode_encode,
      decode_encode]
    rfl

/-- **The names and values of a tag are read as they are written**, character by character. -/
theorem read_written {t : Tag} (h : t.IsWritable) : read (encode t.written) = .ok t := by
  have hspaces : ∀ b ∈ encode t.name.toList, (!isSpace b) = true := fun b hb => by
    rw [h.name.isSpace_eq_false hb]
    rfl
  have hname : (encode t.written).takeWhile (!isSpace ·) = encode t.name.toList := by
    rw [written, Text.encode_append]
    cases hattributes : t.attributes with
    | nil =>
      show (encode t.name.toList ++ []).takeWhile _ = _
      rw [List.append_nil, List.takeWhile_eq_self_iff.2 hspaces]
    | cons a attributes =>
      rw [Attributes.encode_written_cons]
      exact takeWhile_append_cons hspaces rfl _
  have hrest : (encode t.written).drop (encode t.name.toList).length =
      encode t.attributes.written := by
    rw [written, Text.encode_append, List.drop_left]
  rw [read]
  simp only [hname, hrest]
  rw [decode_encode, readAttributes_written h.attributes h.nodup
    (fun _ _ _ hp => absurd hp List.not_mem_nil)]
  rfl

end Tag

/-! ### Finding tags -/

namespace Token

variable {unclosed : Option UInt8 → Fault}

/-- Outside of quotes, only brackets and quotes count. -/
theorem findBracket_append {l : List UInt8}
    (h : ∀ b ∈ l, b ≠ byte '>' ∧ b ≠ byte '\'' ∧ b ≠ byte '"') (rest : List UInt8) :
    findBracket unclosed none (l ++ rest) =
      (findBracket unclosed none rest).map (· + l.length) := by
  induction l with
  | nil =>
    rw [List.nil_append]
    cases findBracket unclosed none rest <;> rfl
  | cons b l ih =>
    obtain ⟨⟨hbracket, hsingle, hdouble⟩, hl⟩ := List.forall_mem_cons.1 h
    have hquote : (b == byte '\'' || b == byte '"') = false := by
      rw [beq_false_of_ne hsingle, beq_false_of_ne hdouble]
      rfl
    rw [List.cons_append, findBracket]
    dsimp only
    rw [if_neg (by simpa using hbracket), hquote, if_neg Bool.false_ne_true, ih hl]
    cases findBracket unclosed none rest <;> rfl

/-- In a quoted value nothing counts but the quote that ends it. -/
theorem findBracket_quoted {value : List UInt8} (h : ∀ b ∈ value, b ≠ byte '"')
    (rest : List UInt8) :
    findBracket unclosed (some (byte '"')) (value ++ byte '"' :: rest) =
      (findBracket unclosed none rest).map (· + (value.length + 1)) := by
  induction value with
  | nil =>
    rw [List.nil_append, findBracket]
    rfl
  | cons b value ih =>
    obtain ⟨hb, hvalue⟩ := List.forall_mem_cons.1 h
    rw [List.cons_append, findBracket, if_neg (by simpa using hb), ih hvalue]
    cases findBracket unclosed none rest <;> rfl

theorem findBracket_written {attributes : Attributes} (h : attributes.IsWritable)
    (rest : List UInt8) :
    findBracket unclosed none (encode attributes.written ++ byte '>' :: rest) =
      .ok (encode attributes.written).length := by
  induction attributes with
  | nil => rfl
  | cons a attributes ih =>
    obtain ⟨hkey, hvalue, hrest⟩ := h.of_cons
    have hplain : ∀ b ∈ byte ' ' :: (encode a.1.toList ++ [byte '=']),
        b ≠ byte '>' ∧ b ≠ byte '\'' ∧ b ≠ byte '"' := by
      intro b hb
      simp only [List.mem_cons, List.mem_append, List.not_mem_nil, or_false] at hb
      rcases hb with rfl | hb | rfl
      · decide
      · exact ⟨hkey.ne_byte rfl hb, hkey.ne_byte rfl hb, hkey.ne_byte rfl hb⟩
      · decide
    have hopen (l : List UInt8) : findBracket unclosed none (byte '"' :: l) =
        (findBracket unclosed (some (byte '"')) l).map (· + 1) := rfl
    have hsplit : encode (Attributes.written (a :: attributes)) ++ byte '>' :: rest =
        (byte ' ' :: (encode a.1.toList ++ [byte '='])) ++ (byte '"' :: (encode a.2.toList ++
          byte '"' :: (encode (Attributes.written attributes) ++ byte '>' :: rest))) := by
      rw [Attributes.encode_written_cons]
      simp
    rw [hsplit, findBracket_append hplain, hopen,
      findBracket_quoted (fun b hb => ne_byte_of_mem_encode rfl hvalue hb), ih hrest,
      Attributes.encode_written_cons]
    simp only [Except.map, List.length_cons, List.length_append, List.length_nil]
    congr 1
    omega

theorem getLast?_written (attributes : Attributes) :
    ∀ b ∈ (encode attributes.written).getLast?, b = byte '"' := by
  induction attributes with
  | nil => exact fun _ hb => absurd hb (Option.not_mem_none _)
  | cons a attributes ih =>
    intro b hb
    have hsplit : encode (Attributes.written (a :: attributes)) =
        (byte ' ' :: (encode a.1.toList ++ byte '=' :: byte '"' :: encode a.2.toList)) ++
          (byte '"' :: encode (Attributes.written attributes)) := by
      rw [Attributes.encode_written_cons]
      simp
    rw [hsplit, List.getLast?_append, List.getLast?_cons] at hb
    obtain rfl := Option.some.inj hb
    cases hlast : (encode (Attributes.written attributes)).getLast? with
    | none => rfl
    | some b => exact ih b hlast

/-- Neither a name nor a quoted value ends in a slash. -/
theorem ofTag_written {t : Tag} (h : t.IsWritable) :
    ofTag (encode t.written) = .start (encode t.written) := by
  have hlast : (encode t.written).getLast? ≠ some (byte '/') := by
    rw [Tag.written, Text.encode_append, List.getLast?_append]
    intro hslash
    rcases Option.or_eq_some_iff.1 hslash with hvalue | ⟨-, hname⟩
    · exact absurd (getLast?_written _ _ hvalue) (by decide)
    · exact h.name.ne_byte rfl (List.mem_of_getLast? hname) rfl
  rw [ofTag, if_neg (by simpa using hlast)]

theorem scanMarkup_of_name {b : UInt8} (hb : b ≠ byte '!' ∧ b ≠ byte '?' ∧ b ≠ byte '/')
    (rest : List UInt8) : scanMarkup (b :: rest) =
      (findBracket unclosedTag none (b :: rest)).map
        fun n => (ofTag ((b :: rest).take n), n + 1) := by
  rw [scanMarkup]
  dsimp only
  rw [if_neg (by simpa using hb.1), if_neg (by simpa using hb.2.1), if_neg (by simpa using hb.2.2)]

/-- **A tag ends where it was written to end**, whatever its values contain. -/
theorem scan_written {t : Tag} (h : t.IsWritable) (rest : List UInt8) :
    scan (byte '<') (encode t.written ++ byte '>' :: rest) =
      .ok (.start (encode t.written), (encode t.written).length + 1) := by
  have hbracket : findBracket unclosedTag none (encode t.written ++ byte '>' :: rest) =
      .ok (encode t.written).length := by
    have hname : ∀ b ∈ encode t.name.toList, b ≠ byte '>' ∧ b ≠ byte '\'' ∧ b ≠ byte '"' :=
      fun b hb => ⟨h.name.ne_byte rfl hb, h.name.ne_byte rfl hb, h.name.ne_byte rfl hb⟩
    rw [Tag.written, Text.encode_append, List.append_assoc, findBracket_append hname,
      findBracket_written h.attributes, List.length_append, Nat.add_comm]
    rfl
  obtain ⟨b, tail, hbytes⟩ : ∃ b tail, encode t.written = b :: tail ∧
      b ≠ byte '!' ∧ b ≠ byte '?' ∧ b ≠ byte '/' := by
    obtain ⟨b, tail, hname⟩ := h.name.exists_encode_eq_cons
    have hb : b ∈ encode t.name.toList := hname ▸ List.mem_cons_self
    refine ⟨b, tail ++ encode t.attributes.written, ?_, h.name.ne_byte rfl hb,
      h.name.ne_byte rfl hb, h.name.ne_byte rfl hb⟩
    rw [Tag.written, Text.encode_append, hname, List.cons_append]
  have hmarkup : scanMarkup (encode t.written ++ byte '>' :: rest) =
      (findBracket unclosedTag none (encode t.written ++ byte '>' :: rest)).map fun n =>
        (ofTag ((encode t.written ++ byte '>' :: rest).take n), n + 1) := by
    rw [hbytes.1, List.cons_append]
    exact scanMarkup_of_name hbytes.2 _
  rw [scan, if_pos (by simp), hmarkup, hbracket]
  show Except.ok (ofTag ((encode t.written ++ byte '>' :: rest).take _), _) = _
  rw [List.take_left, ofTag_written h]

theorem trimEnd_of_name {cs : List Char} (h : IsName cs) : trimEnd (encode cs) = encode cs := by
  have hdrop : (encode cs).reverse.dropWhile isSpace = (encode cs).reverse := by
    refine List.dropWhile_eq_self_iff.2 fun hlt => ?_
    rw [h.isSpace_eq_false (List.mem_reverse.1 (List.getElem_mem hlt))]
    exact Bool.false_ne_true
  rw [trimEnd, hdrop, List.reverse_reverse, ite_self]

theorem scan_closing {name : String} (h : IsName name.toList) (rest : List UInt8) :
    scan (byte '<') (byte '/' :: (encode name.toList ++ byte '>' :: rest)) =
      .ok (.close (encode name.toList), (encode name.toList).length + 2) := by
  have hname : ∀ b ∈ encode name.toList, b ≠ byte '>' ∧ b ≠ byte '\'' ∧ b ≠ byte '"' :=
    fun b hb => ⟨h.ne_byte rfl hb, h.ne_byte rfl hb, h.ne_byte rfl hb⟩
  have hbracket : findBracket unclosedTag none (encode name.toList ++ byte '>' :: rest) =
      .ok (encode name.toList).length := by
    rw [findBracket_append hname]
    exact congrArg Except.ok (Nat.zero_add _)
  have hmarkup (l : List UInt8) : scan (byte '<') (byte '/' :: l) =
      (findBracket unclosedTag none l).map fun n => (.close (trimEnd (l.take n)), n + 2) := rfl
  rw [hmarkup, hbracket]
  show Except.ok (Token.close (trimEnd (List.take _ _)), _) = _
  rw [List.take_left, trimEnd_of_name h]

end Token

end CityScene.Markup
