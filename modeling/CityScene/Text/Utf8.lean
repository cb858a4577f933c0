/-!
# UTF-8

`decode` reads a list of bytes as UTF-8 and says where and how the first faulty sequence breaks
off.  A sequence is at fault as soon as no character starts with its bytes, so overlong forms,
surrogates and code points past U+10FFFF are refused at the byte that rules them out.
-/

namespace CityScene.Text

/-- The first place where bytes stop being UTF-8. -/
structure Utf8Fault where
  /-- Index of the first byte of the faulty sequence. -/
  index : Nat
  /-- Bytes of the faulty sequence, or `none` when the input ends inside a good sequence. -/
  length : Option Nat
deriving DecidableEq, Repr

def Utf8Fault.message (f : Utf8Fault) : String :=
  match f.length with
  | some n => s!"invalid utf-8 sequence of {n} bytes from index {f.index}"
  | none => s!"incomplete utf-8 byte sequence from index {f.index}"

namespace Utf8

/-- Bytes a sequence has that starts with `b`, or `none` if no sequence does. -/
def lengthFrom (b : UInt8) : Option Nat :=
  if b < 0x80 then some 1
  else if b < 0xC2 then none
  else if b < 0xE0 then some 2
  else if b < 0xF0 then some 3
  else if b < 0xF5 then some 4
  else none

/-- Whether `b` may stand second after the first byte `a`. -/
def isSecond (a b : UInt8) : Bool :=
  let lowest : UInt8 := if a == 0xE0 then 0xA0 else if a == 0xF0 then 0x90 else 0x80
  let highest : UInt8 := if a == 0xED then 0x9F else if a == 0xF4 then 0x8F else 0xBF
  lowest ≤ b && b ≤ highest

def isTail (b : UInt8) : Bool :=
  0x80 ≤ b && b ≤ 0xBF

/-- How many of the bytes after the first byte `a` continue its sequence, at most `n`. -/
def goodTail (a : UInt8) (n : Nat) (rest : List UInt8) : Nat :=
  match rest with
  | [] => 0
  | b :: more =>
    if n != 0 && isSecond a b then 1 + ((more.take (n - 1)).takeWhile isTail).length else 0

/-- The code point of a whole sequence: the payload bits of its first byte, then six per byte. -/
def codePoint (a : UInt8) (tail : List UInt8) : Nat :=
  let lead := match tail.length with
    | 0 => a.toNat
    | 1 => a.toNat % 0x20
    | 2 => a.toNat % 0x10
    | _ => a.toNat % 0x08
  tail.foldl (fun v b => v * 0x40 + b.toNat % 0x40) lead

/-- Decodes from byte `index` on, with the characters read so far in reverse. -/
def decodeFrom (index : Nat) (read : List Char) : List UInt8 → Except Utf8Fault (List Char)
  | [] => .ok read.reverse
  | a :: rest =>
    match lengthFrom a with
    | none => .error ⟨index, some 1⟩
    | some n =>
      let good := goodTail a (n - 1) rest
      if good = n - 1 then
        decodeFrom (index + n) (Char.ofNat (codePoint a (rest.take good)) :: read) (rest.drop good)
      else if rest.length ≤ good then .error ⟨index, none⟩
      else .error ⟨index, some (good + 1)⟩
termination_by bytes => bytes.length
decreasing_by
  simp only [List.length_cons, List.length_drop]
  omega

end Utf8

/-- The text that the bytes encode. -/
def decodeUtf8 (bytes : List UInt8) : Except Utf8Fault String :=
  (Utf8.decodeFrom 0 [] bytes).map String.ofList

end CityScene.Text
