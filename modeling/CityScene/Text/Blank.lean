/-!
# Blank characters, trimming and words

Blank characters are those with the Unicode property White_Space: twenty-five code points in ten
ranges.  Text is cut at them by `trim`, which drops them at both ends, and by `words`, which keeps
the maximal runs between them.  All of it works on lists of characters; `trimmed` is `trim` on
strings.
-/

namespace CityScene.Text

/-- Closed ranges of the blank code points, ascending and apart. -/
def blankRanges : List (Nat × Nat) :=
  [(0x09, 0x0D), (0x20, 0x20), (0x85, 0x85), (0xA0, 0xA0), (0x1680, 0x1680), (0x2000, 0x200A),
   (0x2028, 0x2029), (0x202F, 0x202F), (0x205F, 0x205F), (0x3000, 0x3000)]

def isBlank (c : Char) : Bool :=
  blankRanges.any fun r => r.1 ≤ c.toNat && c.toNat ≤ r.2

/-- Drops the blanks at both ends. -/
def trim (cs : List Char) : List Char :=
  ((cs.dropWhile isBlank).reverse.dropWhile isBlank).reverse

/-- Drops the blanks at both ends of a string. -/
def trimmed (s : String) : String :=
  String.ofList (trim s.toList)

/-- The pieces between the characters that `p` holds of, empty pieces included.
There is one piece more than there are such characters. -/
def pieces (p : Char → Bool) (cs : List Char) : List (List Char) :=
  cs.foldr step [[]]
where
  /-- Puts one more character in front of the pieces of what follows it. -/
  step (c : Char) : List (List Char) → List (List Char)
    | [] => [[c]]
    | piece :: rest => if p c then [] :: piece :: rest else (c :: piece) :: rest

/-- The maximal runs of characters that are not blank. -/
def words (cs : List Char) : List (List Char) :=
  (pieces isBlank cs).filter (!·.isEmpty)

/-- A link text without surrounding blanks and leading number signs. -/
def withoutFragmentMark (s : String) : String :=
  String.ofList ((trim s.toList).dropWhile (· == '#'))

end CityScene.Text
