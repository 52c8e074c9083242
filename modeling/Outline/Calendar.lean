import Outline.Decimal

/-! # Calendar values

The components exactly as written: nothing checks that a month has that many days.
-/
namespace Outline.Calendar
set_option autoImplicit false

structure Date where
  year : Nat
  month : Nat
  day : Nat
deriving DecidableEq, Repr

namespace Date

def order (a b : Date) : Ordering :=
  ((compare a.year b.year).then (compare a.month b.month)).then (compare a.day b.day)

def display (d : Date) : String :=
  Decimal.padded 4 d.year ++ "-" ++ Decimal.padded 2 d.month ++ "-" ++ Decimal.padded 2 d.day

end Date

structure DateTime where
  date : Date
  hour : Nat
  minute : Nat
  second : Option Nat := none
  millisecond : Option Nat := none
deriving DecidableEq, Repr

/-- An absent component comes before every present one. -/
def optionOrder : Option Nat → Option Nat → Ordering
  | none, none => .eq
  | none, some _ => .lt
  | some _, none => .gt
  | some a, some b => compare a b

namespace DateTime

def order (a b : DateTime) : Ordering :=
  ((((a.date.order b.date).then (compare a.hour b.hour)).then (compare a.minute b.minute)).then
    (optionOrder a.second b.second)).then (optionOrder a.millisecond b.millisecond)

/-- Milliseconds are shown only behind seconds. -/
def display (d : DateTime) : String :=
  d.date.display ++ "T" ++ Decimal.padded 2 d.hour ++ ":" ++ Decimal.padded 2 d.minute ++
    match d.second with
    | none => ""
    | some s => ":" ++ Decimal.padded 2 s ++
      match d.millisecond with
      | none => ""
      | some ms => "." ++ Decimal.padded 3 ms

end DateTime
end Outline.Calendar
