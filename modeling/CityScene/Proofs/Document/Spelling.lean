import CityScene.Document.Read
import CityScene.Proofs.Document.Encodings
import CityScene.Proofs.Markup.Escapes

/-!
# From bytes to events

Bytes spell events if the reader, wherever it comes to them, does what the events do (`Spells`).
A tag spells what is written in it, an escaped text before a tag spells the text, and one spelling
may follow another.  A document that is put together from such pieces is read like its events
(`readText_of_spells`).
-/

namespace CityScene.Document

open Markup
open Text (encode)

/-! ### Single tokens -/

variable {config : Config} {b b' : Builder} {events : List Event}

/-- The offset of the event before does not matter. -/
theorem readFrom_offset (config : Config) (offset opened : Nat) (b : Builder) (before : Option Nat)
    (bytes : List UInt8) :
    readFrom config offset opened { b with offset := before } bytes =
      readFrom config offset opened b bytes := by
  cases bytes with
  | nil => rw [readFrom, readFrom]
  | cons first rest =>
    rw [readFrom, readFrom]
    rfl

/-- The reader does what the events of the next token do. -/
theorem readFrom_of_scan {offset opened opened' n : Nat} {first : UInt8} {rest : List UInt8}
    {token : Token} (hscan : Token.scan first rest = .ok (token, n))
    (hopened : openedAfter opened token = .ok opened')
    (hevents : eventsOf (offset + n + 1) token = .ok events)
    (hrun : b.applyAll config events = .ok b') :
    readFrom config offset opened b (first :: rest) =
      readFrom config (offset + n + 1) opened' b' (rest.drop n) := by
  obtain ⟨before, hrun'⟩ := Comparison.applyAll_offset (some offset) hrun
  have happly : b.applyAll config (.offset offset :: events) =
      .ok { b' with offset := before } := hrun'
  rw [readFrom, hscan]
  show (openedAfter opened token >>= _) = _
  rw [hopened]
  show (eventsOf (offset + n + 1) token >>= _) = _
  rw [hevents]
  show (b.applyAll config (.offset offset :: events) >>= _) = _
  rw [happly]
  exact readFrom_offset config _ _ _ _ _

/-! ### Spellings -/

/-- Wherever the reader comes to the bytes, it does what the events do, and goes on after them.
There are `left` more elements open before the bytes, and `right` more after them. -/
def Spells (left right : Nat) (bytes : List UInt8) (events : List Event) : Prop :=
  ∀ (config : Config) (b b' : Builder) (offset opened : Nat) (rest : List UInt8),
    b.isAborted = false → b.applyAll config events = .ok b' →
    readFrom config offset (opened + left) b (bytes ++ rest) =
      readFrom config (offset + bytes.length) (opened + right) b' rest

theorem Spells.append {left middle right : Nat} {bytes bytes' : List UInt8}
    {events events' : List Event} (h : Spells left middle bytes events)
    (h' : Spells middle right bytes' events') :
    Spells left right (bytes ++ bytes') (events ++ events') := by
  intro config b b' offset opened rest hactive hrun
  obtain ⟨m, hfirst, hsecond⟩ := Builder.applyAll_append_eq_ok hrun
  have hactive' := Builder.isAborted_of_applyAll hfirst hactive
  rw [List.append_assoc, h config b m offset opened _ hactive hfirst,
    h' config m b' _ opened rest hactive' hsecond, List.length_append, Nat.add_assoc]

/-- The events of an element around others. -/
theorem Spells.nested {left right : Nat} {bytes : List UInt8} {events : List Event}
    (h : Spells left right bytes events) : Spells (left + 1) (right + 1) bytes events := by
  intro config b b' offset opened rest hactive hrun
  rw [Nat.add_comm left, ← Nat.add_assoc, h config b b' offset (opened + 1) rest hactive hrun,
    Nat.add_comm right, ← Nat.add_assoc]

/-- A start tag with its brackets. -/
def opening (t : Tag) : List Char :=
  '<' :: (t.written ++ ['>'])

/-- An end tag with its brackets. -/
def closing (name : String) : List Char :=
  '<' :: '/' :: (name.toList ++ ['>'])

theorem spells_opening {t : Tag} (h : t.IsWritable) :
    Spells 0 1 (encode (opening t)) [.opened t.name t.attributes] := by
  intro config b b' offset opened rest _ hrun
  have hbytes : encode (opening t) = byte '<' :: (encode t.written ++ [byte '>']) := by
    rw [opening, encode_cons_delimiter rfl, Text.encode_append, encode_cons_delimiter rfl]
    rfl
  have hevents : eventsOf (offset + ((encode t.written).length + 1) + 1)
      (.start (encode t.written)) = .ok [.opened t.name t.attributes] := by
    rw [eventsOf, Tag.read_written h]
    rfl
  rw [hbytes, List.cons_append, List.append_assoc, List.singleton_append,
    readFrom_of_scan (Token.scan_written h rest) rfl hevents hrun, drop_append_cons]
  simp [Nat.add_assoc]

theorem spells_closing {name : String} (h : IsName name.toList) :
    Spells 1 0 (encode (closing name)) [.closed name] := by
  intro config b b' offset opened rest _ hrun
  have hbytes : encode (closing name) =
      byte '<' :: byte '/' :: (encode name.toList ++ [byte '>']) := by
    rw [closing, encode_cons_delimiter rfl, encode_cons_delimiter rfl, Text.encode_append,
      encode_cons_delimiter rfl]
    rfl
  have hevents : eventsOf (offset + ((encode name.toList).length + 2) + 1)
      (.close (encode name.toList)) = .ok [.closed name] := by
    rw [eventsOf, decode_encode]
    rfl
  have hdrop : (byte '/' :: (encode name.toList ++ byte '>' :: rest)).drop
      ((encode name.toList).length + 2) = rest := drop_append_cons _ _ rest
  rw [hbytes, List.cons_append, List.cons_append, List.append_assoc, List.singleton_append,
    readFrom_of_scan (Token.scan_closing h rest) rfl hevents hrun, hdrop]
  simp [Nat.add_assoc]

/-! ### Texts -/

section Texts

variable (hactive : b.isAborted = false)
include hactive

theorem applyAll_singleton_text (content : String) :
    b.applyAll config [.text content] = .ok (b.addText content) := by
  rw [Builder.applyAll_text config hactive]
  rfl

theorem readFrom_plain (offset opened : Nat) {r : List Char} (hr : ∀ c ∈ r, IsPlain c) {m : UInt8}
    (hm : Token.startsMarkup m = true) (rest : List UInt8) :
    readFrom config offset opened b (encode r ++ m :: rest) =
      readFrom config (offset + (encode r).length) opened (b.addText (String.ofList r))
        (m :: rest) := by
  cases r with
  | nil =>
    rw [String.ofList_nil, Builder.addText_empty]
    rfl
  | cons c r =>
    have hplain : ∀ x ∈ encode (c :: r), Token.startsMarkup x = false :=
      fun x hx => startsMarkup_eq_false hr hx
    have hevents (stop : Nat) : eventsOf stop (.text (encode (c :: r))) =
        .ok [.text (String.ofList (c :: r))] := by
      rw [eventsOf, decodeContent, Text.decodeUtf8_encode]
      rfl
    obtain ⟨x, tail, hbytes⟩ := Text.exists_encode_cons c r
    rw [hbytes] at hplain hevents ⊢
    obtain ⟨hx, htail⟩ := List.forall_mem_cons.1 hplain
    rw [List.cons_append, readFrom_of_scan (Token.scan_plain htail hx hm rest) rfl (hevents _)
      (applyAll_singleton_text hactive _), List.drop_left, List.length_cons, Nat.add_assoc]

theorem readFrom_reference (offset opened : Nat) {name : List Char}
    (hname : ∀ d ∈ name, IsPlain d ∧ d ≠ ';') {c : Char}
    (hc : resolveReference (String.ofList name) = .ok c) (rest : List UInt8) :
    readFrom config offset opened b (byte '&' :: (encode name ++ byte ';' :: rest)) =
      readFrom config (offset + (encode name).length + 2) opened (b.addText c.toString) rest := by
  have hbytes : ∀ x ∈ encode name, Token.startsMarkup x = false ∧ x ≠ byte ';' := fun x hx =>
    ⟨startsMarkup_eq_false (fun d hd => (hname d hd).1) hx,
      ne_byte_of_mem_encode rfl (fun hd => (hname _ hd).2 rfl) hx⟩
  have hevents (stop : Nat) : eventsOf stop (.reference (encode name)) =
      .ok [.text c.toString] := by
    rw [eventsOf, decodeContent, Text.decodeUtf8_encode]
    show ((resolveReference (String.ofList name)).mapError _ >>= _) = _
    rw [hc]
    rfl
  rw [readFrom_of_scan (Token.scan_reference hbytes rest) rfl (hevents _)
    (applyAll_singleton_text hactive _), drop_append_cons]
  rfl

/-- **An escaped text is read as the text**, up to the next tag. -/
theorem readFrom_writes {w s : List Char} (h : Writes w s) (offset opened : Nat)
    (rest : List UInt8) :
    readFrom config offset opened b (encode w ++ byte '<' :: rest) =
      readFrom config (offset + (encode w).length) opened (b.addText (String.ofList s))
        (byte '<' :: rest) := by
  -- by induction on what comes after some characters that stand for themselves
  have hbegun : ∀ r : List Char, (∀ c ∈ r, IsPlain c) →
      readFrom config offset opened b (encode (r ++ w) ++ byte '<' :: rest) =
        readFrom config (offset + (encode (r ++ w)).length) opened
          (b.addText (String.ofList (r ++ s))) (byte '<' :: rest) := by
    induction h generalizing b offset with
    | nil =>
      intro r hr
      rw [List.append_nil, readFrom_plain hactive offset opened hr rfl]
    | @plain c hc w s _ ih =>
      intro r hr
      have hlonger : ∀ d ∈ r ++ [c], IsPlain d := by
        simpa [or_imp, forall_and, hc] using hr
      have hread := ih hactive offset (r ++ [c]) hlonger
      rwa [List.append_assoc, List.append_assoc] at hread
    | @reference name hname c hc w s _ ih =>
      intro r hr
      have hsplit : encode (r ++ '&' :: (name ++ ';' :: w)) =
          encode r ++ byte '&' :: (encode name ++ byte ';' :: encode w) := by
        rw [Text.encode_append, encode_cons_delimiter rfl, Text.encode_append,
          encode_cons_delimiter rfl]
      have hlength : offset + (encode r).length + (encode name).length + 2 + (encode w).length =
          offset + (encode r ++ byte '&' :: (encode name ++ byte ';' :: encode w)).length := by
        simp only [List.length_append, List.length_cons]
        omega
      have hstring : String.ofList r ++ (c.toString ++ String.ofList s) =
          String.ofList (r ++ c :: s) := by
        rw [Char.toString_eq_singleton, String.singleton_eq_ofList, ← String.ofList_append,
          ← String.ofList_append]
        rfl
      have htext : (b.addText (String.ofList r)).isAborted = false :=
        (b.isAborted_addText _).trans hactive
      have hafter : ((b.addText (String.ofList r)).addText c.toString).isAborted = false :=
        (Builder.isAborted_addText _ _).trans htext
      have hread := ih hafter (offset + (encode r).length + (encode name).length + 2) []
        (fun _ hd => absurd hd List.not_mem_nil)
      rw [List.nil_append, List.nil_append] at hread
      rw [hsplit, List.append_assoc, List.cons_append, List.append_assoc, List.cons_append,
        readFrom_plain hactive offset opened hr rfl, readFrom_reference htext _ opened hname hc,
        hread, hlength, Builder.addText_append, Builder.addText_append, hstring]
  exact hbegun [] fun _ hd => absurd hd List.not_mem_nil

end Texts

/-- An escaped text spells the text, if a tag follows. -/
theorem spells_text {w s : List Char} (h : Writes w s) {left right : Nat} {cs : List Char}
    {events : List Event} (htag : Spells left right (encode ('<' :: cs)) events) :
    Spells left right (encode (w ++ '<' :: cs)) (.text (String.ofList s) :: events) := by
  intro config b b' offset opened rest hactive hrun
  have hactive' := (b.isAborted_addText (String.ofList s)).trans hactive
  rw [Builder.applyAll_text config hactive] at hrun
  have hread := htag config _ b' (offset + (encode w).length) opened rest hactive' hrun
  rw [encode_cons_delimiter rfl, List.cons_append] at hread
  rw [Text.encode_append, encode_cons_delimiter rfl, List.append_assoc, List.cons_append,
    readFrom_writes hactive h, hread, List.length_append, Nat.add_assoc]

/-! ### Documents -/

/-- **A document is read like the events that it spells.** -/
theorem readText_of_spells {cs : List Char} (h : Spells 0 0 (encode ('<' :: cs)) events)
    {outcome : Outcome} (hread : readEvents config events = .ok outcome) :
    readText config (String.ofList ('<' :: cs)) = .ok outcome := by
  obtain ⟨b, hb, hstack, rfl⟩ := Builder.exists_of_readEvents_eq_ok hread
  have hactive := Builder.isAborted_of_applyAll hb rfl
  have hrun := h config _ b 0 0 [] rfl hb
  rw [List.append_nil, readFrom] at hrun
  have hmark : withoutMark (encode ('<' :: cs)) = encode ('<' :: cs) := by
    rw [encode_cons_delimiter rfl]
    rfl
  rw [readText, Text.toList_toUTF8, String.toList_ofList, read, hmark, hrun]
  show Builder.finish config _ = _
  rw [Builder.finish, hactive, hstack]
  rfl

end CityScene.Document
