import Outline.Token
import Outline.Double.Reading

/-! # Values of literals

The content that the text of a number, a percentage, a date or a date with time denotes. Every text
has one: what is not a number reads as not-a-number, and an absent calendar component as zero.
-/
namespace Outline.Literal
set_option autoImplicit false

def isSeparator (c : Char) : Bool := c == '_'

def withoutSeparators (text : List Char) : List Char := text.filter (!isSeparator ·)

/-- A sign and digits, if the value fits 64 bits with sign. -/
def integer? (text : List Char) : Option Int :=
  let (negative, digits) := Double.takeSign text
  if digits ≠ [] ∧ digits.all Char.isDigit then
    let value : Int := if negative then -(Decimal.value digits : Int) else Decimal.value digits
    if -0x8000000000000000 ≤ value ∧ value < 0x8000000000000000 then some value else none
  else none

def float (text : List Char) : Double := (Double.read? text).getD .nan

def hasFractionOrExponent (text : List Char) : Bool :=
  text.any fun c => c == '.' || c == 'e' || c == 'E'

/-- An integer, or a float if it has a fraction or an exponent or is too large. -/
def number (text : List Char) : Content :=
  let cleaned := withoutSeparators text
  match if hasFractionOrExponent cleaned then none else integer? cleaned with
  | some value => .integer value
  | none => .float (float cleaned)

/-- A hundredth of the number in front of the percent signs; no number counts as zero. -/
def percentage (text : List Char) : Content :=
  let cleaned := withoutSeparators (text.reverse.dropWhile (· == '%')).reverse
  .percentage (if cleaned = [] then .zero else (float cleaned).hundredth)

/-- The decimal value of the digits of a text, whatever stands between them. -/
def component (text : List Char) : Nat := Decimal.value (text.filter Char.isDigit)

def cut (separator : Char) (text : List Char) : List Char × Option (List Char) :=
  match text.dropWhile (· != separator) with
  | [] => (text, none)
  | _ :: rest => (text.takeWhile (· != separator), some rest)

def cutTwice (separator : Char) (text : List Char) :
    List Char × Option (List Char) × Option (List Char) :=
  match cut separator text with
  | (first, none) => (first, none, none)
  | (first, some rest) => (first, some (cut separator rest).1, (cut separator rest).2)

def calendarDate (text : List Char) : Calendar.Date :=
  let (year, month, day) := cutTwice '-' text
  ⟨component year, component (month.getD []), component (day.getD [])⟩

def date (text : List Char) : Content := .date (calendarDate text)

/-- A fraction of a second in milliseconds: one or two digits stand for tenths or hundredths. Its
length counts bytes. -/
def milliseconds (fraction : List Char) : Nat :=
  component fraction * Nat.pow 10 (3 - (String.ofList fraction).utf8ByteSize)

def calendarDateTime (text : List Char) : Calendar.DateTime :=
  let (day, time) := cut ' ' text
  let (hour, minute, seconds) := cutTwice ':' (time.getD [])
  let whole := seconds.map fun s => (cut '.' s).1
  let fraction := (seconds.bind fun s => (cut '.' s).2).filter (· ≠ [])
  { date := calendarDate day
    hour := component hour
    minute := component (minute.getD [])
    second := whole.map component
    millisecond := fraction.map milliseconds }

def dateTime (text : List Char) : Content := .dateTime (calendarDateTime text)

end Outline.Literal
