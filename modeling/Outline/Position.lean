/-! # Positions and spans

Rows and columns count from one, and columns count characters. A span ends right behind its last
character, so a span that ends with a line feed ends at column one of the next row.
-/
namespace Outline
set_option autoImplicit false

structure Position where
  row : Nat
  column : Nat
deriving DecidableEq, Repr

namespace Position

def origin : Position := ⟨1, 1⟩

def order (a b : Position) : Ordering :=
  (compare a.row b.row).then (compare a.column b.column)

instance : LE Position := ⟨fun a b => a.row < b.row ∨ a.row = b.row ∧ a.column ≤ b.column⟩

instance (a b : Position) : Decidable (a ≤ b) :=
  inferInstanceAs (Decidable (a.row < b.row ∨ a.row = b.row ∧ a.column ≤ b.column))

theorem le_def {a b : Position} :
    a ≤ b ↔ a.row < b.row ∨ a.row = b.row ∧ a.column ≤ b.column := Iff.rfl

def after (p : Position) (c : Char) : Position :=
  if c = '\n' then ⟨p.row + 1, 1⟩ else ⟨p.row, p.column + 1⟩

/-- The position behind a run of characters that starts at `p`. -/
def advance (p : Position) (text : List Char) : Position := text.foldl after p

@[simp] theorem advance_nil (p : Position) : p.advance [] = p := rfl

@[simp] theorem advance_cons (p : Position) (c : Char) (text : List Char) :
    p.advance (c :: text) = (p.after c).advance text := rfl

@[simp] theorem advance_append (p : Position) (s t : List Char) :
    p.advance (s ++ t) = (p.advance s).advance t := List.foldl_append

def display (p : Position) : String := toString p.row ++ ":" ++ toString p.column

end Position

/-- The characters from `start` up to, and without, the one at `stop`. -/
structure Span where
  start : Position
  stop : Position
deriving DecidableEq, Repr

namespace Span

/-- The span of a composite that holds no token at all. -/
def empty : Span := ⟨.origin, .origin⟩

def encloses (a b : Span) : Bool := a.start ≤ b.start && b.stop ≤ a.stop

/-- From the start of `a` to the end of `b`. -/
def join (a b : Span) : Span := ⟨a.start, b.stop⟩

def display (s : Span) : String := "(" ++ s.start.display ++ ")-(" ++ s.stop.display ++ ")"

end Span
end Outline
