import Outline.Characters.Combining
import Outline.Characters.Invisible

/-! # Escaped text

Text as it is shown in messages: quotes, backslashes, control characters and whatever has no visible
form of its own are escaped.
-/
namespace Outline.Escape
set_option autoImplicit false

def codePoint (c : Char) : List Char :=
  ['\\', 'u', '{'] ++ Nat.toDigits 16 c.toNat ++ ['}']

/-- One character; a combining one is only escaped where nothing stands before it. -/
def char (isFirst : Bool) (c : Char) : List Char :=
  match c with
  | '\x00' => ['\\', '0']
  | '\t' => ['\\', 't']
  | '\r' => ['\\', 'r']
  | '\n' => ['\\', 'n']
  | '"' => ['\\', '"']
  | '\'' => ['\\', '\'']
  | '\\' => ['\\', '\\']
  | c =>
    if Characters.invisible.contains c || (isFirst && Characters.combining.contains c) then
      codePoint c
    else [c]

def text (s : String) : String :=
  match s.toList with
  | [] => ""
  | first :: rest => String.ofList (char true first ++ rest.flatMap (char false))

end Outline.Escape
