import CityScene.Markup.Token

/-!
# Tags

The name and the attributes in the content of a start tag.  Values are taken as they are written,
without resolving references.
-/

namespace CityScene.Markup

/-- Attributes by qualified name, in order. -/
abbrev Attributes := List (String × String)

/-- A name without what stands before its last colon. -/
def localName (name : String) : String :=
  String.ofList ((name.toList.reverse.takeWhile (· != ':')).reverse)

/-- The value of the attribute with that local name. -/
def Attributes.value? (attributes : Attributes) (name : String) : Option String :=
  (List.find? (fun a => localName a.1 == name) attributes).map Prod.snd

/-- An element name with its attributes. -/
structure Tag where
  name : String
  attributes : Attributes
deriving DecidableEq, Repr

namespace Tag

/-- Where a key was seen before. -/
def previous? (seen : List (List UInt8 × Nat)) (key : List UInt8) : Option Nat :=
  (seen.find? (·.1 == key)).map Prod.snd

/-- Reads the equals sign and the quoted value after a key, from `position` on, and says how many
bytes they take.  A key that was seen before is refused once its equals sign is read. -/
def readValue (seen : List (List UInt8 × Nat)) (start : Nat) (key bytes : List UInt8) :
    Except TagFault (List UInt8 × Nat) :=
  let gap := (bytes.takeWhile isSpace).length
  let position := start + key.length + gap
  match bytes.drop gap with
  | [] => .error (.noEqualsSign position)
  | b :: afterSign =>
    if b != byte '=' then .error (.noEqualsSign position)
    else
      match previous? seen key with
      | some p => .error (.duplicate start p)
      | none =>
        let gap' := (afterSign.takeWhile isSpace).length
        let position' := position + 1 + gap'
        match afterSign.drop gap' with
        | [] => .error (.noValue position')
        | q :: quoted =>
          if q != byte '\'' && q != byte '"' then .error (.unquotedValue position')
          else
            let value := quoted.takeWhile (· != q)
            if value.length < quoted.length then
              .ok (value, gap + 1 + gap' + 1 + value.length + 1)
            else .error (.unclosedValue (position' + 1 + quoted.length) (Char.ofUInt8 q))

def decode (bytes : List UInt8) : Except TagFault String :=
  (Text.decodeUtf8 bytes).mapError .encoding

/-- Reads the attributes from `position` on.  The first byte of a key belongs to it whatever it
is. -/
def readAttributes (seen : List (List UInt8 × Nat)) (position : Nat) (bytes : List UInt8) :
    Except TagFault Attributes :=
  match _h : bytes.dropWhile isSpace with
  | [] => .ok []
  | first :: rest => do
    let start := position + (bytes.takeWhile isSpace).length
    let key := first :: rest.takeWhile fun b => !(b == byte '=' || isSpace b)
    let afterKey := rest.drop (key.length - 1)
    let (value, n) ← readValue seen start key afterKey
    let entry := (← decode key, ← decode value)
    let more ← readAttributes ((key, start) :: seen) (start + key.length + n) (afterKey.drop n)
    return entry :: more
termination_by bytes.length
decreasing_by
  have hle := (List.dropWhile_sublist isSpace (l := bytes)).length_le
  rw [_h, List.length_cons] at hle
  simp only [List.length_drop]
  omega

/-- Reads the content of a start tag. -/
def read (content : List UInt8) : Except TagFault Tag := do
  let name := content.takeWhile (!isSpace ·)
  return ⟨← decode name, ← readAttributes [] name.length (content.drop name.length)⟩

end Tag

end CityScene.Markup
