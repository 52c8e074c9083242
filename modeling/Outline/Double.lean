/-! # Binary floating point of 64 bits

A finite value is a sign and a magnitude `significand * 2 ^ scale / 2 ^ 1074`. The bounds in
`Magnitude` make the representation unique, and `round?` is the one place where rounding happens.
-/
namespace Outline
set_option autoImplicit false

abbrev leastNormal : Nat := 0x10000000000000

/-- The value `significand * 2 ^ scale / 2 ^ 1074`, with 53 significant bits unless the scale is
already the least one. -/
structure Magnitude where
  significand : Nat
  scale : Nat
  significand_lt : significand < 2 * leastNormal
  scale_le : scale ≤ 2045
  normal : scale = 0 ∨ leastNormal ≤ significand
deriving DecidableEq, Repr

namespace Magnitude

def zero : Magnitude := ⟨0, 0, by decide, by decide, .inl rfl⟩

def ofParts? (significand scale : Nat) : Option Magnitude :=
  if h : significand < 2 * leastNormal ∧ scale ≤ 2045 ∧
      (scale = 0 ∨ leastNormal ≤ significand) then
    some ⟨significand, scale, h.1, h.2.1, h.2.2⟩
  else none

/-- The integer next to `num / den`; a half goes to the even one. -/
def nearest (num den : Nat) : Nat :=
  let quotient := num / den
  let twice := 2 * (num % den)
  if twice < den then quotient
  else if den < twice then quotient + 1
  else quotient + quotient % 2

/-- The magnitude next to `num / den`, or nothing if that is beyond the largest one. -/
def round? (num den : Nat) : Option Magnitude :=
  let units := num <<< 1074
  let scale := Nat.log2 (units / den) - 52
  let significand := nearest units (den <<< scale)
  if significand = 2 * leastNormal then ofParts? leastNormal (scale + 1)
  else ofParts? significand scale

end Magnitude

inductive Double where
  | nan
  | infinite (negative : Bool)
  | finite (negative : Bool) (magnitude : Magnitude)
deriving DecidableEq, Repr

namespace Double

def zero : Double := .finite false .zero

def ofRatio (negative : Bool) (num den : Nat) : Double :=
  match Magnitude.round? num den with
  | some magnitude => .finite negative magnitude
  | none => .infinite negative

def hundredth : Double → Double
  | .nan => .nan
  | .infinite negative => .infinite negative
  | .finite negative m => ofRatio negative (m.significand <<< m.scale) (100 <<< 1074)

/-- The interchange encoding: sign, eleven bits of exponent, fifty-two bits of fraction. -/
def toBits : Double → Nat
  | .nan => 0x7ff8000000000000
  | .infinite negative => negative.toNat <<< 63 + 0x7ff <<< 52
  | .finite negative m =>
    negative.toNat <<< 63 +
      if m.significand < leastNormal then m.significand
      else (m.scale + 1) <<< 52 + (m.significand - leastNormal)

/-- Reads the interchange encoding; bits above the sixty-fourth are ignored. -/
def ofBits (bits : Nat) : Double :=
  let negative := bits >>> 63 % 2 = 1
  let exponent := bits >>> 52 % 0x800
  let fraction := bits % leastNormal
  if exponent = 0x7ff then
    if fraction = 0 then .infinite negative else .nan
  else
    match Magnitude.ofParts? (if exponent = 0 then fraction else leastNormal + fraction)
        (exponent - 1) with
    | some magnitude => .finite negative magnitude
    | none => .nan

end Double
end Outline
