/-! # Sets of characters

A set of characters is given by the closed ranges of code points that its members lie in. The sets
of the modules below are properties of the Unicode standard, version 17.
-/
namespace Outline
set_option autoImplicit false

structure Characters where
  /-- First and last code point of each range, in ascending order. -/
  ranges : List (Nat × Nat)

namespace Characters

def contains (members : Characters) (c : Char) : Bool :=
  members.ranges.any fun range => range.1 ≤ c.toNat && c.toNat ≤ range.2

end Characters
end Outline
