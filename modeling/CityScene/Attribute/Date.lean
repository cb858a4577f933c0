import CityScene.Text.Blank
import CityScene.Decimal.Numeral

/-!
# Calendar dates

Dates of the Gregorian calendar, read from the form `YYYY-MM-DD`.  Only the first ten bytes of a
date text count, so a time zone after the date is passed over.
-/

namespace CityScene

/-- The number of days of a month, leap years included. -/
def daysInMonth (year : Int) (month : Nat) : Nat :=
  match month with
  | 1 | 3 | 5 | 7 | 8 | 10 | 12 => 31
  | 4 | 6 | 9 | 11 => 30
  | 2 => if (year.tmod 4 = 0 ∧ year.tmod 100 ≠ 0) ∨ year.tmod 400 = 0 then 29 else 28
  | _ => 0

/-- A day of the Gregorian calendar. -/
structure Date where
  year : Int
  month : Nat
  day : Nat
  /-- The day exists. -/
  valid : 0 < day ∧ day ≤ daysInMonth year month
deriving DecidableEq, Repr

/-- Why a text is no date. -/
inductive DateFault
  | shape (text : String)
  | year (text : String)
  | month (text : String)
  | day (text : String)
  | outOfRange (text : String)
deriving DecidableEq, Repr

def DateFault.message : DateFault → String
  | .shape text => s!"Invalid date '{text}': expected YYYY-MM-DD"
  | .year text => s!"Invalid year in date '{text}'"
  | .month text => s!"Invalid month in date '{text}'"
  | .day text => s!"Invalid day in date '{text}'"
  | .outOfRange text => s!"Date '{text}' is out of range"

namespace Date

/-- The date, if that day exists. -/
def ofYearMonthDay? (year : Int) (month day : Nat) : Option Date :=
  if h : 0 < day ∧ day ≤ daysInMonth year month then some ⟨year, month, day, h⟩ else none

/-- The text of exactly `bytes` bytes at the front, if a character ends there. -/
def front? : Nat → List Char → Option (List Char)
  | 0, _ => some []
  | _, [] => none
  | bytes, c :: rest =>
    if bytes < c.utf8Size then none
    else (front? (bytes - c.utf8Size) rest).map (c :: ·)
termination_by _ cs => cs.length

/-- The texts before the first dash, between the first two, and after the second. -/
def fields? (cs : List Char) : Option (List Char × List Char × List Char) :=
  match cs.dropWhile (· != '-') with
  | [] => none
  | _ :: rest =>
    match rest.dropWhile (· != '-') with
    | [] => none
    | _ :: day => some (cs.takeWhile (· != '-'), rest.takeWhile (· != '-'), day)

/-- Reads a date, blanks around it aside. -/
def parse (s : String) : Except DateFault Date := do
  let text := Text.trim s.toList
  let shown := String.ofList text
  let some (year, month, day) := fields? ((front? 10 text).getD text) | throw (.shape shown)
  let some year := (Decimal.readInteger (Decimal.greatest 31) year).toOption | throw (.year shown)
  let some month := Decimal.readCount? (Decimal.greatest 8) month | throw (.month shown)
  let some day := Decimal.readCount? (Decimal.greatest 8) day | throw (.day shown)
  let some date := ofYearMonthDay? year month day | throw (.outOfRange shown)
  return date

/-- The digits of a number, filled up with zeros in front. -/
def padded (width n : Nat) : List Char :=
  let digits := Nat.toDigits 10 n
  List.replicate (width - digits.length) '0' ++ digits

/-- The text of a date.  The sign of a year before the calendar takes one of its four places. -/
def text (d : Date) : String :=
  let year := if d.year < 0 then '-' :: padded 3 d.year.natAbs else padded 4 d.year.natAbs
  String.ofList (year ++ '-' :: padded 2 d.month ++ '-' :: padded 2 d.day)

end Date

end CityScene
