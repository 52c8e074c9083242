/-! # Plain data

The data that serial formats write and read: natural numbers, texts, lists and records. A record's
fields keep their order.
-/
namespace Outline
set_option autoImplicit false

inductive Value where
  | natural (n : Nat)
  | text (s : String)
  | list (items : List Value)
  | record (fields : List (String × Value))
  /-- Data of a format that nothing in this library writes or understands. -/
  | other

namespace Value

/-- The values of a record's fields in the order of `names`, an absent one as `none`. A name must not
occur twice, and other fields are ignored. A list gives the values by place, the last ones may be
absent. -/
def fields? (names : List String) : Value → Option (List (Option Value))
  | .record fields =>
    names.mapM fun name =>
      match fields.filter (·.1 = name) with
      | [] => some none
      | [(_, v)] => some (some v)
      | _ => none
  | .list items =>
    if items.length ≤ names.length then
      some (items.map some ++ List.replicate (names.length - items.length) none)
    else none
  | _ => none

def text? : Value → Option String
  | .text s => some s
  | _ => none

def natural? : Value → Option Nat
  | .natural n => some n
  | _ => none

end Value
end Outline
