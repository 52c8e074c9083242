/-! # Decimal digits

Reading and writing natural numbers in base ten, without sign or separators.
-/
namespace Outline.Decimal
set_option autoImplicit false

def digitValue (c : Char) : Nat := c.toNat - '0'.toNat

def value (digits : List Char) : Nat :=
  digits.foldl (fun n c => 10 * n + digitValue c) 0

@[simp] theorem value_nil : value [] = 0 := rfl

theorem value_concat (digits : List Char) (c : Char) :
    value (digits ++ [c]) = 10 * value digits + digitValue c := by
  simp [value, List.foldl_append]

/-- At least `width` digits, zeros in front. -/
def padded (width n : Nat) : String :=
  String.ofList (List.replicate (width - (Nat.toDigits 10 n).length) '0' ++ Nat.toDigits 10 n)

end Outline.Decimal
