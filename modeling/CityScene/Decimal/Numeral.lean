import CityScene.Decimal.Binary

/-!
# Reading numbers

The two number grammars of the document format.  An integer is an optional sign and decimal digits
within given bounds.  A floating-point number is an optional sign, digits with at most one point
and at least one digit, and an optional exponent; or a name of infinity or of NaN in any case.
Its value is the float nearest to the decimal.
-/

namespace CityScene.Decimal

/-- Why a text is not an integer within its bounds. -/
inductive IntegerFault
  | empty
  | invalidDigit
  | tooLarge
  | tooSmall
deriving DecidableEq, Repr

def IntegerFault.message : IntegerFault → String
  | .empty => "cannot parse integer from empty string"
  | .invalidDigit => "invalid digit found in string"
  | .tooLarge => "number too large to fit in target type"
  | .tooSmall => "number too small to fit in target type"

/-- Why a text is not a floating-point number. -/
inductive FloatFault
  | empty
  | invalid
deriving DecidableEq, Repr

def FloatFault.message : FloatFault → String
  | .empty => "cannot parse float from empty string"
  | .invalid => "invalid float literal"

/-- The value of a digit in base sixteen, in either case. -/
def digitValue? (c : Char) : Option Nat :=
  if '0' ≤ c ∧ c ≤ '9' then some (c.toNat - '0'.toNat)
  else if 'a' ≤ c ∧ c ≤ 'f' then some (c.toNat - 'a'.toNat + 10)
  else if 'A' ≤ c ∧ c ≤ 'F' then some (c.toNat - 'A'.toNat + 10)
  else none

/-- The greatest number of that many bits. -/
def greatest (bits : Nat) : Nat :=
  Nat.pow 2 bits - 1

/-- Reads digits in `base` onto `value`, refusing with `excess` once the value passes `limit`. -/
def readDigits (base limit : Nat) (excess : IntegerFault) (value : Nat) :
    List Char → Except IntegerFault Nat
  | [] => .ok value
  | c :: rest =>
    match digitValue? c with
    | none => .error .invalidDigit
    | some d =>
      if base ≤ d then .error .invalidDigit
      else if limit < value * base + d then .error excess
      else readDigits base limit excess (value * base + d) rest

/-- Reads an unsigned number in `base` that is at most `limit`. -/
def readNatural (base limit : Nat) (cs : List Char) : Except IntegerFault Nat :=
  if cs.isEmpty then .error .empty else readDigits base limit .tooLarge 0 cs

/-- Reads an unsigned decimal number that is at most `limit` and may have a plus sign. -/
def readCount? (limit : Nat) (cs : List Char) : Option Nat :=
  let digits := match cs with
    | '+' :: rest => rest
    | _ => cs
  (readNatural 10 limit digits).toOption

/-- Reads a decimal integer between `-(limit + 1)` and `limit`. -/
def readInteger (limit : Nat) (cs : List Char) : Except IntegerFault Int :=
  match cs with
  | [] => .error .empty
  | ['+'] | ['-'] => .error .invalidDigit
  | '-' :: rest => (readDigits 10 (limit + 1) .tooSmall 0 rest).map fun n => -(n : Int)
  | '+' :: rest => (readDigits 10 limit .tooLarge 0 rest).map Int.ofNat
  | _ => (readDigits 10 limit .tooLarge 0 cs).map Int.ofNat

/-- Reads an integer that fits sixty-four signed bits. -/
def readInt64 (cs : List Char) : Except IntegerFault Int64 :=
  (readInteger (greatest 63) cs).map Int64.ofInt

/-- The float nearest to `m * 10 ^ e`.  Decimals far outside the range of floats are settled by
their size alone, so a huge exponent costs nothing. -/
def nearest (m : Nat) (e : Int) : Float :=
  let size := ((Nat.toDigits 10 m).length : Int) + e
  if m = 0 then 0.0
  else if 310 < size then Float.ofBits 0x7FF0000000000000
  else if size < -330 then 0.0
  else Float.ofScientific m (e < 0) e.natAbs

def isDigit (c : Char) : Bool :=
  '0' ≤ c && c ≤ '9'

/-- The number that a run of digits denotes. -/
def digitsValue (cs : List Char) : Nat :=
  cs.foldl (fun n c => n * 10 + (c.toNat - '0'.toNat)) 0

/-- A sign in front of a text: whether it is a minus, and what follows. -/
def splitSign : List Char → Bool × List Char
  | '-' :: rest => (true, rest)
  | '+' :: rest => (false, rest)
  | cs => (false, cs)

/-- The exponent part of a number, or nothing at all. -/
def readExponent? : List Char → Option Int
  | [] => some 0
  | c :: rest =>
    let (negative, digits) := splitSign rest
    if (c == 'e' || c == 'E') && !digits.isEmpty && digits.all isDigit then
      some (if negative then -(digitsValue digits : Int) else digitsValue digits)
    else none

/-- The decimal `digits * 10 ^ exponent` that an unsigned numeral writes. -/
def readDecimal? (cs : List Char) : Option (Nat × Int) :=
  let whole := cs.takeWhile isDigit
  let rest := cs.dropWhile isDigit
  let fraction := match rest with
    | '.' :: more => more.takeWhile isDigit
    | _ => []
  let tail := match rest with
    | '.' :: more => more.dropWhile isDigit
    | _ => rest
  if whole.isEmpty && fraction.isEmpty then none
  else (readExponent? tail).map fun e => (digitsValue (whole ++ fraction), e - fraction.length)

/-- The named values, in any case. -/
def readName? (cs : List Char) : Option Float :=
  match String.ofList (cs.map Char.toLower) with
  | "inf" | "infinity" => some (Float.ofBits 0x7FF0000000000000)
  | "nan" => some (Float.ofBits 0x7FF8000000000000)
  | _ => none

/-- Reads a floating-point number. -/
def readFloat (cs : List Char) : Except FloatFault Float :=
  let (negative, unsigned) := splitSign cs
  let magnitude := match readDecimal? unsigned with
    | some (m, e) => some (nearest m e)
    | none => readName? unsigned
  match cs, magnitude with
  | [], _ => .error .empty
  | _, none => .error .invalid
  | _, some x => .ok (if negative then -x else x)

end CityScene.Decimal
