import Outline.Decimal
import Outline.Snapshot

/-! # Tree drawings

A drawing has one line for each snapshot: connectors that show where it hangs, an icon for its kind,
and its label on one line and cut to thirty characters. The row where each node starts can be shown
in front.
-/
namespace Outline.Drawing
set_option autoImplicit false

def maxLabel : Nat := 30

/-- The label on one line; if it is longer than the limit, dots show where it was cut. -/
def shorten (label : String) : String :=
  let line := label.toList.map fun c => if c = '\n' then ' ' else c
  if maxLabel < line.length then String.ofList (line.take maxLabel) ++ "..." else String.ofList line

theorem toList_shorten (label : String) :
    (shorten label).toList =
      (label.toList.take maxLabel).map (fun c => if c = '\n' then ' ' else c) ++
        if label.toList.length ≤ maxLabel then [] else ['.', '.', '.'] := by
  rw [shorten, List.length_map]
  by_cases hShort : label.toList.length ≤ maxLabel
  · rw [if_neg (by omega), if_pos hShort, List.take_of_length_le hShort, String.toList_ofList,
      List.append_nil]
  · rw [if_pos (by omega), if_neg hShort, String.toList_append, String.toList_ofList,
      List.map_take, show "...".toList = ['.', '.', '.'] from rfl]

def icon (nodeType : String) : String :=
  match nodeType with
  | "STATEMENT" => "§"
  | "FUNCTION" => "ƒ"
  | "IDENTITY" => "◦"
  | "STRING" => "\""
  | "INTEGER" | "FLOAT" => "#"
  | "PERCENTAGE" => "%"
  | "DATE" | "DATETIME" => "◷"
  | "SYMBOL" => "※"
  | "ARROW" => "→"
  | "ERROR" => "⚠"
  | _ => "○"

structure Line where
  row : Nat
  body : String
deriving DecidableEq, Repr

def Line.shift (lead : String) (l : Line) : Line := { l with body := lead ++ l.body }

/-- Hangs a drawn node under its parent: a connector at its first line, and below it a bar if a
sibling follows. -/
def hang (isLast : Bool) : List Line → List Line
  | [] => []
  | first :: rest =>
    first.shift (if isLast then "└─ " else "├─ ") ::
      rest.map (.shift (if isLast then "  " else "│ "))

def hangAll : List (List Line) → List Line
  | [] => []
  | [last] => hang true last
  | first :: next :: rest => hang false first ++ hangAll (next :: rest)

mutual

def draw : Snapshot → List Line
  | ⟨nodeType, label, span, _, children⟩ =>
    ⟨span.start.row, icon nodeType ++ " " ++ shorten label⟩ :: hangAll (drawEach children)

def drawEach : List Snapshot → List (List Line)
  | [] => []
  | s :: rest => draw s :: drawEach rest

end

/-- The row has at least two digits. -/
def Line.display (showRows : Bool) (l : Line) : String :=
  (if showRows then Decimal.padded 2 l.row ++ " " else "") ++ l.body ++ "\n"

def render (showRows : Bool) (forest : List Snapshot) : String :=
  "⧉ document\n" ++ String.join ((hangAll (drawEach forest)).map (·.display showRows))

end Outline.Drawing
