import CityScene.Attribute.Date
import CityScene.Decimal.Shortest

/-!
# Attribute values

A value has one of six types.  `parseAs?` reads element text as a given type, `coerce?` turns a
value into another type where nothing is lost, and `text` writes it.
-/

namespace CityScene

/-- The type of an attribute value. -/
inductive ValueType
  | string
  | double
  | integer
  | date
  | uri
  | measure
deriving DecidableEq, Repr

def ValueType.name : ValueType → String
  | .string => "string"
  | .double => "double"
  | .integer => "integer"
  | .date => "date"
  | .uri => "uri"
  | .measure => "measure"

/-- The value of an attribute. -/
inductive Value
  | string (text : String)
  | double (number : Float)
  | integer (number : Int64)
  | date (day : Date)
  | uri (text : String)
  /-- A number with its unit of measure, if one is given. -/
  | measure (number : Float) (unit : Option String)
deriving DecidableEq, Repr

namespace Value

def type : Value → ValueType
  | string _ => .string
  | double _ => .double
  | integer _ => .integer
  | date _ => .date
  | uri _ => .uri
  | measure _ _ => .measure

/-- Reads text, blanks around it aside, as a value of the given type. -/
def parseAs? (s : String) (type : ValueType) (unit : Option String) : Option Value :=
  let cs := Text.trim s.toList
  match type with
  | .string => some (string (String.ofList cs))
  | .uri => some (uri (String.ofList cs))
  | .double => (Decimal.readFloat cs).toOption.map double
  | .integer => (Decimal.readInt64 cs).toOption.map integer
  | .date => (Date.parse (String.ofList cs)).toOption.map date
  | .measure => (Decimal.readFloat cs).toOption.map (measure · unit)

/-- The whole number a float stands for, held within sixty-four bits. -/
def wholeNumber? (x : Float) : Option Int64 :=
  if x.isFinite && (Decimal.Binary.ofFloat x).isWhole then
    let (lowest, highest) := (Int64.minValue.toInt, Int64.maxValue.toInt)
    some (Int64.ofInt (max lowest (min highest (Decimal.integerPart x))))
  else none

/-- The value as another type.  Text is read as the type, numbers widen to doubles and measures,
measures give up their unit, and whole doubles become integers. -/
def coerce? (v : Value) (type : ValueType) : Option Value :=
  if v.type = type then some v
  else
    match v, type with
    | string s, type => parseAs? s type none
    | uri s, .string => some (string s)
    | integer n, .double => some (double (Float.ofInt n.toInt))
    | integer n, .measure => some (measure (Float.ofInt n.toInt) none)
    | double x, .measure => some (measure x none)
    | measure x _, .double => some (double x)
    | double x, .integer => (wholeNumber? x).map integer
    | _, _ => none

/-- The text of a textual value. -/
def asText? : Value → Option String
  | string s | uri s => some s
  | _ => none

/-- The text form that every value has. -/
def text : Value → String
  | string s | uri s => s
  | double x => Decimal.text x
  | integer n => toString n.toInt
  | date d => d.text
  | measure x (some unit) => s!"{Decimal.text x} {unit}"
  | measure x none => Decimal.text x

end Value

end CityScene
