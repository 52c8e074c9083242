import Outline.Double.Reading
import Outline.Value

/-! # Writing YAML

Block style throughout: two columns for each record, none for a list inside a record. Texts stand
plain where they read back as the same text, and are quoted or written as a literal block otherwise.
-/
namespace Outline.Yaml
set_option autoImplicit false

def digitValue? (radix : Nat) (c : Char) : Option Nat :=
  let value :=
    if c.isDigit then c.toNat - '0'.toNat
    else if 'a' ≤ c ∧ c ≤ 'z' then c.toNat - 'a'.toNat + 10
    else if 'A' ≤ c ∧ c ≤ 'Z' then c.toNat - 'A'.toNat + 10
    else radix
  if value < radix then some value else none

def radixValue? (radix : Nat) (digits : List Char) : Option Nat :=
  if digits = [] then none
  else digits.foldlM (fun n c => (digitValue? radix c).map (radix * n + ·)) 0

/-- A magnitude in decimal, or in another radix behind its mark. -/
def magnitude? : List Char → Option Nat
  | '0' :: 'x' :: digits => radixValue? 16 digits
  | '0' :: 'o' :: digits => radixValue? 8 digits
  | '0' :: 'b' :: digits => radixValue? 2 digits
  | digits => radixValue? 10 digits

/-- An integer that fits 128 bits, without sign or, behind a minus, with sign. -/
def isInteger (text : List Char) : Bool :=
  match text with
  | '-' :: rest => (magnitude? rest).any (· ≤ 1 <<< 127)
  | '+' :: rest => (magnitude? rest).any (· < 1 <<< 128)
  | text => (magnitude? text).any (· < 1 <<< 128)

/-- Digits behind a leading zero: not an integer, yet too close to one to stand plain. -/
def hasLeadingZero (text : List Char) : Bool :=
  match (Double.takeSign text).2 with
  | '0' :: c :: rest => (c :: rest).all Char.isDigit
  | _ => false

def isInfinity (text : List Char) : Bool :=
  let unsigned := (Double.takeSign text).2
  unsigned = ".inf".toList || unsigned = ".Inf".toList || unsigned = ".INF".toList

def isFinite (d : Double) : Bool :=
  match d with
  | .finite _ _ => true
  | _ => false

def isDecimal (text : List Char) : Bool :=
  match text with
  | '+' :: '+' :: _ | '+' :: '-' :: _ => false
  | '+' :: rest => (Double.read? rest).any isFinite
  | text => (Double.read? text).any isFinite

def keywords : List String :=
  ["", "~", "null", "Null", "NULL", "true", "True", "TRUE", "false", "False", "FALSE",
    ".nan", ".NaN", ".NAN"]

def isAmbiguous (s : String) : Bool :=
  keywords.contains s || isInteger s.toList || hasLeadingZero s.toList || isInfinity s.toList ||
    isDecimal s.toList

def isPrintable (c : Char) : Bool :=
  let n := c.toNat
  n == 0x0a || (0x20 ≤ n && n ≤ 0x7e) || (0xa0 ≤ n && n ≤ 0xd7ff) ||
    (0xe000 ≤ n && n ≤ 0xfffd && n != 0xfeff) || 0x10000 ≤ n

def blankOrEnd : List Char → Bool
  | [] => true
  | c :: _ => c == ' ' || c == '\t'

/-- A colon before a blank or the end, or a number sign behind a blank. -/
def hasIndicator : List Char → Bool
  | [] => false
  | c :: rest =>
    (c == ':' && blankOrEnd rest) ||
    ((c == ' ' || c == '\t') && rest.head? == some '#') ||
    hasIndicator rest

def startsLikeMarkup (text : List Char) : Bool :=
  match text with
  | '-' :: '-' :: '-' :: _ | '.' :: '.' :: '.' :: _ => true
  | '?' :: rest | '-' :: rest => blankOrEnd rest
  | c :: _ =>
    ['#', ',', '[', ']', '{', '}', '&', '*', '!', '|', '>', '\'', '"', '%', '@', '\x60'].contains c
  | [] => false

/-- A text on one line that can stand without quotes. -/
def plainAllowed (text : List Char) : Bool :=
  text.head? != some ' ' && text.getLast? != some ' ' && !startsLikeMarkup text &&
    !hasIndicator text

def hasTrailingSpace : List Char → Bool
  | ' ' :: '\n' :: _ => true
  | _ :: rest => hasTrailingSpace rest
  | [] => false

def literalAllowed (text : List Char) : Bool :=
  text.getLast? != some ' ' && !hasTrailingSpace text && text.all isPrintable

def hexDigits (width n : Nat) : List Char :=
  let digits := (Nat.toDigits 16 n).map Char.toUpper
  List.replicate (width - digits.length) '0' ++ digits

def escape (c : Char) : List Char :=
  match c with
  | '\x00' => ['\\', '0']
  | '\x07' => ['\\', 'a']
  | '\x08' => ['\\', 'b']
  | '\t' => ['\\', 't']
  | '\n' => ['\\', 'n']
  | '\x0b' => ['\\', 'v']
  | '\x0c' => ['\\', 'f']
  | '\r' => ['\\', 'r']
  | '\x1b' => ['\\', 'e']
  | '"' => ['\\', '"']
  | '\\' => ['\\', '\\']
  | '\x85' => ['\\', 'N']
  | c =>
    if isPrintable c then [c]
    else if c.toNat ≤ 0xff then '\\' :: 'x' :: hexDigits 2 c.toNat
    else if c.toNat ≤ 0xffff then '\\' :: 'u' :: hexDigits 4 c.toNat
    else '\\' :: 'U' :: hexDigits 8 c.toNat

def doubleQuoted (text : List Char) : String :=
  String.ofList ('"' :: text.flatMap escape ++ ['"'])

def singleQuoted (text : List Char) : String :=
  String.ofList ('\'' :: text.flatMap (fun c => if c = '\'' then ['\'', '\''] else [c]) ++ ['\''])

def splitLines : List Char → List (List Char)
  | [] => [[]]
  | c :: rest =>
    match c, splitLines rest with
    | '\n', lines => [] :: lines
    | c, line :: lines => (c :: line) :: lines
    | c, [] => [[c]]

/-- The mark of a literal block: its indentation if the text starts with a blank, and whether the
line feeds at the end are dropped, kept as one, or all kept. -/
def literalMark (text : List Char) : String :=
  let hint := if text.head? = some ' ' ∨ text.head? = some '\n' then "2" else ""
  let chomp :=
    match text.reverse with
    | ['\n'] => "+"
    | '\n' :: '\n' :: _ => "+"
    | '\n' :: _ => ""
    | _ => "-"
  "|" ++ hint ++ chomp

def literalLines (text : List Char) : List String :=
  let lines := splitLines text
  (if text.getLast? = some '\n' then lines.dropLast else lines).map String.ofList

/-- A text as what stands behind its field's name, and the further lines of a literal block. -/
def scalar (s : String) : String × List String :=
  let text := s.toList
  if text.contains '\n' then
    if literalAllowed text then (literalMark text, literalLines text) else (doubleQuoted text, [])
  else if !text.all isPrintable then (doubleQuoted text, [])
  else if isAmbiguous s || !plainAllowed text then (singleQuoted text, [])
  else (s, [])

/-- Two columns further in; empty lines stay empty. -/
def indent (lines : List String) : List String :=
  lines.map fun line => if line = "" then "" else "  " ++ line

def item : List String → List String
  | [] => []
  | first :: rest => ("- " ++ first) :: indent rest

def inlineField (name : String) (value : String × List String) : List String :=
  (name ++ ": " ++ value.1) :: indent value.2

mutual

/-- The lines of a value that stands on its own. -/
def lines : Value → List String
  | .natural n => [toString n]
  | .text s => (scalar s).1 :: indent (scalar s).2
  | .list [] => ["[]"]
  | .list items => itemLines items
  | .record [] => ["{}"]
  | .record fields => fieldLines fields
  | .other => ["null"]

def itemLines : List Value → List String
  | [] => []
  | value :: values => item (lines value) ++ itemLines values

def fieldLines : List (String × Value) → List String
  | [] => []
  | (name, value) :: fields => field name value ++ fieldLines fields

def field (name : String) : Value → List String
  | .natural n => inlineField name (toString n, [])
  | .text s => inlineField name (scalar s)
  | .list [] => inlineField name ("[]", [])
  | .list items => (name ++ ":") :: itemLines items
  | .record [] => inlineField name ("{}", [])
  | .record fields => (name ++ ":") :: indent (fieldLines fields)
  | .other => inlineField name ("null", [])

end

def render (v : Value) : String := String.join ((lines v).map (· ++ "\n"))

end Outline.Yaml
