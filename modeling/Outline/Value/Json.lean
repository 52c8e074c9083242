import Outline.Value

/-! # Writing JSON

One writer with two layouts: all on one line, or one item to a line with two columns for each level.
-/
namespace Outline.Json
set_option autoImplicit false

/-- What separates the items of a list or record at a given depth, and a field's name and value. -/
structure Layout where
  newline : Nat → List Char
  colon : List Char

def compact : Layout := ⟨fun _ => [], [':']⟩

def pretty : Layout := ⟨fun depth => '\n' :: List.replicate (2 * depth) ' ', [':', ' ']⟩

def escape (c : Char) : List Char :=
  match c with
  | '"' => ['\\', '"']
  | '\\' => ['\\', '\\']
  | '\x08' => ['\\', 'b']
  | '\t' => ['\\', 't']
  | '\n' => ['\\', 'n']
  | '\x0c' => ['\\', 'f']
  | '\r' => ['\\', 'r']
  | c =>
    if c.toNat < 0x20 then
      ['\\', 'u', '0', '0', Nat.digitChar (c.toNat / 16), Nat.digitChar (c.toNat % 16)]
    else [c]

def quote (s : String) : List Char := '"' :: s.toList.flatMap escape ++ ['"']

mutual

/-- Writes a value before the characters that follow it. -/
def write (l : Layout) (depth : Nat) (v : Value) (rest : List Char) : List Char :=
  match v with
  | .natural n => Nat.toDigits 10 n ++ rest
  | .text s => quote s ++ rest
  | .list [] => '[' :: ']' :: rest
  | .list (item :: items) =>
    '[' :: l.newline (depth + 1) ++ write l (depth + 1) item (writeItems l depth items rest)
  | .record [] => '{' :: '}' :: rest
  | .record (field :: fields) =>
    '{' :: l.newline (depth + 1) ++ writeField l (depth + 1) field (writeFields l depth fields rest)
  | .other => 'n' :: 'u' :: 'l' :: 'l' :: rest

def writeItems (l : Layout) (depth : Nat) (items : List Value) (rest : List Char) : List Char :=
  match items with
  | [] => l.newline depth ++ ']' :: rest
  | item :: items =>
    ',' :: l.newline (depth + 1) ++ write l (depth + 1) item (writeItems l depth items rest)

def writeField (l : Layout) (depth : Nat) (field : String × Value) (rest : List Char) : List Char :=
  match field with
  | (name, value) => quote name ++ l.colon ++ write l depth value rest

def writeFields (l : Layout) (depth : Nat) (fields : List (String × Value)) (rest : List Char) :
    List Char :=
  match fields with
  | [] => l.newline depth ++ '}' :: rest
  | field :: fields =>
    ',' :: l.newline (depth + 1) ++ writeField l (depth + 1) field (writeFields l depth fields rest)

end

def render (l : Layout) (v : Value) : String := String.ofList (write l 0 v [])

end Outline.Json
