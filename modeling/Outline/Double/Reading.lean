import Outline.Decimal
import Outline.Double

/-! # Reading a double from text

The accepted form is an optional sign, then `inf`, `infinity` or `nan` in any letter case, or digits
with at most one point among them and an optional exponent. The result is the double next to the
exact decimal value.
-/
namespace Outline.Double
set_option autoImplicit false

/-- The double next to `coefficient * 10 ^ exponent`. Exponents far outside the range of doubles are
settled by their size alone, so that no power of ten is larger than it has to be. -/
def ofDecimal (negative : Bool) (coefficient : Nat) (exponent : Int) : Double :=
  if coefficient = 0 then .finite negative .zero
  else
    let leading : Int := exponent + (Nat.toDigits 10 coefficient).length
    if 400 < leading then .infinite negative
    else if leading < -400 then .finite negative .zero
    else if 0 ≤ exponent then ofRatio negative (coefficient * Nat.pow 10 exponent.toNat) 1
    else ofRatio negative coefficient (Nat.pow 10 (-exponent).toNat)

def takeSign : List Char → Bool × List Char
  | '-' :: rest => (true, rest)
  | '+' :: rest => (false, rest)
  | text => (false, text)

def readExponent? : List Char → Option Int
  | [] => some 0
  | mark :: rest =>
    let (negative, digits) := takeSign rest
    if (mark = 'e' ∨ mark = 'E') ∧ digits ≠ [] ∧ digits.all Char.isDigit then
      some (if negative then -(Decimal.value digits : Int) else Decimal.value digits)
    else none

def readDecimal? (negative : Bool) (text : List Char) : Option Double :=
  let whole := text.takeWhile Char.isDigit
  let (fraction, rest) :=
    match text.dropWhile Char.isDigit with
    | '.' :: rest => (rest.takeWhile Char.isDigit, rest.dropWhile Char.isDigit)
    | rest => ([], rest)
  if whole ++ fraction = [] then none
  else (readExponent? rest).map fun exponent =>
    ofDecimal negative (Decimal.value (whole ++ fraction)) (exponent - fraction.length)

def read? (text : List Char) : Option Double :=
  let (negative, rest) := takeSign text
  let word := rest.map Char.toLower
  if word = ['i', 'n', 'f'] ∨ word = ['i', 'n', 'f', 'i', 'n', 'i', 't', 'y'] then
    some (.infinite negative)
  else if word = ['n', 'a', 'n'] then some .nan
  else readDecimal? negative rest

end Outline.Double
