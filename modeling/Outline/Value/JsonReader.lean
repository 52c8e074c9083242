import Outline.Decimal
import Outline.Pattern
import Outline.Value

/-! # Reading JSON

The text is cut into lexemes by patterns, then the lexemes are read as one value. Numbers other than
naturals of 64 bits, the three words, and strings with half of a surrogate pair are valid JSON that
no value here stands for: they read as `Value.other`.
-/
namespace Outline.Json
set_option autoImplicit false
open Pattern (char oneOf plus optional times seqs alts)

inductive Lexeme where
  | blank
  | openList
  | closeList
  | openRecord
  | closeRecord
  | comma
  | colon
  /-- A string; nothing if half of a surrogate pair stands alone in it. -/
  | text (value : Option String)
  | natural (n : Nat)
  | other

def isHexDigit (c : Char) : Bool :=
  c.isDigit || ('a' ≤ c && c ≤ 'f') || ('A' ≤ c && c ≤ 'F')

def hexValue (c : Char) : Nat :=
  if c.isDigit then c.toNat - '0'.toNat
  else if 'a' ≤ c then c.toNat - 'a'.toNat + 10
  else c.toNat - 'A'.toNat + 10

def stringPattern : Pattern :=
  seqs [char '"',
    .star (alts
      [.one fun c => 0x20 ≤ c.toNat && c != '"' && c != '\\',
        seqs [char '\\', oneOf ['"', '\\', '/', 'b', 'f', 'n', 'r', 't']],
        seqs [char '\\', char 'u', times (.one isHexDigit) 4]]),
    char '"']

def digit : Pattern := .one Char.isDigit

def numberPattern : Pattern :=
  seqs [optional (char '-'),
    .alt (char '0') (.seq (.one fun c => c.isDigit && c != '0') (.star digit)),
    optional (.seq (char '.') (plus digit)),
    optional (seqs [oneOf ['e', 'E'], optional (oneOf ['+', '-']), plus digit])]

def word (letters : String) : Pattern := seqs (letters.toList.map char)

def units : List Char → List Nat
  | '\\' :: 'u' :: a :: b :: c :: d :: rest =>
    (((hexValue a * 16 + hexValue b) * 16 + hexValue c) * 16 + hexValue d) :: units rest
  | '\\' :: c :: rest =>
    (match c with
      | 'b' => 8
      | 'f' => 12
      | 'n' => 10
      | 'r' => 13
      | 't' => 9
      | c => c.toNat) :: units rest
  | c :: rest => c.toNat :: units rest
  | [] => []

def isHighHalf (n : Nat) : Bool := 0xd800 ≤ n && n < 0xdc00

def isLowHalf (n : Nat) : Bool := 0xdc00 ≤ n && n < 0xe000

/-- Joins the halves of surrogate pairs. -/
def ofUnits? : List Nat → Option (List Char)
  | [] => some []
  | high :: low :: rest =>
    if isHighHalf high then
      if isLowHalf low then
        (ofUnits? rest).map
          (Char.ofNat (0x10000 + (high - 0xd800) * 0x400 + (low - 0xdc00)) :: ·)
      else none
    else if isLowHalf high then none
    else (ofUnits? (low :: rest)).map (Char.ofNat high :: ·)
  | [last] => if isHighHalf last || isLowHalf last then none else some [Char.ofNat last]

def textOf (lexeme : List Char) : Lexeme :=
  .text ((ofUnits? (units (lexeme.drop 1).dropLast)).map String.ofList)

/-- A natural number below `2 ^ 64` is kept, every other number is not told apart. -/
def numberOf (lexeme : List Char) : Lexeme :=
  if lexeme.all Char.isDigit && Decimal.value lexeme < 0x10000000000000000 then .natural (Decimal.value lexeme)
  else .other

def rules : List (Pattern × (List Char → Lexeme)) :=
  [(plus (oneOf [' ', '\t', '\n', '\r']), fun _ => .blank),
    (char '[', fun _ => .openList), (char ']', fun _ => .closeList),
    (char '{', fun _ => .openRecord), (char '}', fun _ => .closeRecord),
    (char ',', fun _ => .comma), (char ':', fun _ => .colon),
    (stringPattern, textOf), (numberPattern, numberOf),
    (alts [word "null", word "true", word "false"], fun _ => .other)]

theorem rules_not_nullable : ∀ rule ∈ rules, rule.1.nullable = false := by
  simp [rules, plus, oneOf, char, stringPattern, numberPattern, word, alts, seqs, Pattern.nullable]

/-- The first lexeme of a text and its length. -/
def lexeme? (text : List Char) : Option (Lexeme × Nat) :=
  rules.findSome? fun rule =>
    (rule.1.longest? text).map fun length => (rule.2 (text.take length), length)

theorem lexeme?_pos {text : List Char} {lexeme : Lexeme} {length : Nat}
    (h : lexeme? text = some (lexeme, length)) : 0 < length := by
  obtain ⟨rule, hRule, hSome⟩ := List.exists_of_findSome?_eq_some h
  obtain ⟨n, hLongest, hEq⟩ := Option.map_eq_some_iff.mp hSome
  cases hEq
  exact Pattern.longest?_pos (rules_not_nullable rule hRule) hLongest

def lexemes? (text : List Char) : Option (List Lexeme) :=
  if _hText : text = [] then some []
  else
    match _h : lexeme? text with
    | none => none
    | some (lexeme, length) => (lexemes? (text.drop length)).map (lexeme :: ·)
termination_by text.length
decreasing_by
  have := lexeme?_pos _h
  have := List.length_pos_iff.mpr _hText
  simp only [List.length_drop]
  omega

def recordOf (fields : List (Option String × Value)) : Value :=
  match fields.mapM fun (name, value) => name.map (·, value) with
  | some fields => .record fields
  | none => .other

mutual

/-- Reads a value off the front. The first argument bounds the number of nested calls. -/
def value? : Nat → List Lexeme → Option (Value × List Lexeme)
  | 0, _ => none
  | bound + 1, lexemes =>
    match lexemes with
    | .natural n :: rest => some (.natural n, rest)
    | .text (some s) :: rest => some (.text s, rest)
    | .text none :: rest => some (.other, rest)
    | .other :: rest => some (.other, rest)
    | .openList :: .closeList :: rest => some (.list [], rest)
    | .openList :: rest => (items? bound rest).map fun (items, rest) => (.list items, rest)
    | .openRecord :: .closeRecord :: rest => some (.record [], rest)
    | .openRecord :: rest => (members? bound rest).map fun (fields, rest) => (recordOf fields, rest)
    | _ => none

def items? : Nat → List Lexeme → Option (List Value × List Lexeme)
  | 0, _ => none
  | bound + 1, lexemes =>
    match value? bound lexemes with
    | some (item, .comma :: rest) =>
      (items? bound rest).map fun (items, rest) => (item :: items, rest)
    | some (item, .closeList :: rest) => some ([item], rest)
    | _ => none

def members? : Nat → List Lexeme → Option (List (Option String × Value) × List Lexeme)
  | 0, _ => none
  | bound + 1, lexemes =>
    match lexemes with
    | .text name :: .colon :: rest =>
      match value? bound rest with
      | some (value, .comma :: rest) =>
        (members? bound rest).map fun (fields, rest) => ((name, value) :: fields, rest)
      | some (value, .closeRecord :: rest) => some ([(name, value)], rest)
      | _ => none
    | _ => none

end

def isBlank : Lexeme → Bool
  | .blank => true
  | _ => false

/-- Reads a text that is one value. No chain of nested calls is longer than twice the number of
lexemes. -/
def parse? (text : String) : Option Value := do
  let lexemes := (← lexemes? text.toList).filter (!isBlank ·)
  match value? (2 * lexemes.length + 1) lexemes with
  | some (value, []) => some value
  | _ => none

end Outline.Json
