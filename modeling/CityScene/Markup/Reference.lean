import CityScene.Markup.Fault

/-!
# Character and entity references

What stands between an ampersand and a semicolon names a character by its number, in base ten or
sixteen, or by one of five names.
-/

namespace CityScene.Markup

/-- The characters that have names. -/
def namedCharacters : List (String × Char) :=
  [("lt", '<'), ("gt", '>'), ("amp", '&'), ("quot", '"'), ("apos", '\'')]

/-- The character with a code point. -/
def characterOf (n : Nat) : Except CharacterFault Char :=
  if n = 0 then .error .zero
  else if h : n.isValidChar then .ok (Char.ofNatAux n h)
  else .error (.codePoint n)

/-- Reads the number of a character.  It fits thirty-two bits and has no sign. -/
def readCharacter (digits : List Char) : Except CharacterFault Char := do
  let (base, digits) := match digits with
    | 'x' :: rest => (16, rest)
    | _ => (10, digits)
  if digits.head? == some '+' || digits.head? == some '-' then throw .sign
  let n ← (Decimal.readNatural base (Decimal.greatest 32) digits).mapError .number
  characterOf n

/-- The character that a reference stands for. -/
def resolveReference (name : String) : Except ContentFault Char :=
  match name.toList with
  | '#' :: digits => (readCharacter digits).mapError .character
  | _ =>
    match namedCharacters.find? (·.1 == name) with
    | some (_, c) => .ok c
    | none => .error (.unknownEntity name)

end CityScene.Markup
