import Outline.Double

/-! # The shortest decimal text of a double

Of all decimals that read back as a given magnitude, those on the coarsest grid of powers of ten
have the fewest digits, and of these the one next to the magnitude is written. The text is always
positional, with neither an exponent nor a superfluous point.
-/
namespace Outline.Magnitude
set_option autoImplicit false

/-- A fraction's denominator large enough for magnitudes, for the bounds of the reals that round to
them, and for the finest grid in use. -/
def gridDenominator : Nat := Nat.pow 10 324 <<< 1076

def centre (m : Magnitude) : Nat := (4 * m.significand) <<< m.scale * Nat.pow 10 324

def upper (m : Magnitude) : Nat := (4 * m.significand + 2) <<< m.scale * Nat.pow 10 324

/-- Halfway to the next magnitude below, which is nearer at a power of two. -/
def lower (m : Magnitude) : Nat :=
  let gap := if m.significand = leastNormal ∧ 0 < m.scale then 1 else 2
  (4 * m.significand - gap) <<< m.scale * Nat.pow 10 324

def gridStep (level : Nat) : Nat := Nat.pow 10 level <<< 1076

/-- Whether the reals that round to `m` include the `count`-th point of a grid. The bounds
themselves belong to an even significand. -/
def covers (m : Magnitude) (level count : Nat) : Bool :=
  let point := count * gridStep level
  if m.significand % 2 = 0 then m.lower ≤ point && point ≤ m.upper
  else m.lower < point && point < m.upper

/-- The point of a grid next to `m`; of two at equal distance the greater. -/
def nearestOn (m : Magnitude) (level : Nat) : Nat :=
  (2 * m.centre + gridStep level) / (2 * gridStep level)

def onGrid? (m : Magnitude) (level : Nat) : Option Nat :=
  let near := m.nearestOn level
  let far := if near * gridStep level ≤ m.centre then near + 1 else near - 1
  if m.covers level near then some near
  else if m.covers level far then some far
  else none

/-- The first grid, from the given level downwards, with a point that reads back. The finest grid is
finer than the distance between any two magnitudes. -/
def coarsest (m : Magnitude) : Nat → Nat × Nat
  | 0 => (m.nearestOn 0, 0)
  | level + 1 =>
    match m.onGrid? (level + 1) with
    | some count => (count, level + 1)
    | none => coarsest m level

def shortest (m : Magnitude) : Nat × Nat :=
  m.coarsest (324 + (Nat.toDigits 10 (m.centre / gridDenominator)).length)

def positional (coefficient level : Nat) : List Char :=
  let digits := Nat.toDigits 10 coefficient
  let places := 324 - level
  if places = 0 then digits ++ List.replicate (level - 324) '0'
  else if digits.length ≤ places then
    '0' :: '.' :: List.replicate (places - digits.length) '0' ++ digits
  else digits.take (digits.length - places) ++ '.' :: digits.drop (digits.length - places)

def digits (m : Magnitude) : List Char :=
  if m.significand = 0 then ['0'] else positional m.shortest.1 m.shortest.2

end Outline.Magnitude

namespace Outline.Double
set_option autoImplicit false

def display : Double → String
  | .nan => "NaN"
  | .infinite negative => if negative then "-Infinity" else "Infinity"
  | .finite negative m => (if negative then "-" else "") ++ String.ofList m.digits

end Outline.Double
