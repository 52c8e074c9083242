import Outline.Pattern
import Outline.Token

/-! # Lexical categories

The categories of tokens in the order in which they are tried, each with the pattern of its texts.
At any place the first category with a match wins, and it takes the match that its pattern prefers.
-/
namespace Outline
set_option autoImplicit false

inductive Category where
  | comment
  | dateTime
  | date
  | identity
  | string (quote : Quote)
  | percentage
  | number
  | newline
  | space
  | symbol
  | opening
  | closing
  | comma
  | arrow
deriving DecidableEq, Repr

namespace Category
open Pattern (char oneOf plus optional times oneUpTo seqs alts)

/-- All categories, in order of priority. A percentage goes before the number that it starts with. -/
def all : List Category :=
  [.comment, .dateTime, .date, .identity, .string .double, .string .single, .string .backtick,
    .percentage, .number, .newline, .space, .symbol, .opening, .closing, .comma, .arrow]

theorem mem_all (c : Category) : c ∈ all := by
  cases c with
  | string quote => cases quote <;> decide
  | _ => decide

/-- A category's name; strings are named by their quote. -/
def name : Category → String
  | .comment => "comment"
  | .dateTime => "datetime"
  | .date => "date"
  | .identity => "identity"
  | .string .double => "double"
  | .string .single => "single"
  | .string .backtick => "backtick"
  | .percentage => "percentage"
  | .number => "number"
  | .newline => "newline"
  | .space => "space"
  | .symbol => "symbol"
  | .opening => "open"
  | .closing => "close"
  | .comma => "comma"
  | .arrow => "arrow"

/-- Whitespace does not join an unscannable run before it. -/
def isWhitespace : Category → Bool
  | .newline | .space => true
  | _ => false

def isBlank (c : Char) : Bool := c == ' ' || c == '\t'

def isNameStart (c : Char) : Bool := c.isAlpha || c == '_'

def isNameChar (c : Char) : Bool := c.isAlphanum || c == '_'

def digit : Pattern := .one Char.isDigit

def digitRun : Pattern := .seq digit (.star (.one fun c => c.isDigit || c == '_'))

def sign : Pattern := optional (oneOf ['+', '-'])

def numberPattern : Pattern :=
  seqs [sign,
    alts [seqs [digitRun, char '.', digitRun], seqs [digitRun, char '.'],
      seqs [char '.', digitRun], digitRun],
    optional (seqs [oneOf ['e', 'E'], sign, digitRun])]

def datePattern : Pattern :=
  seqs [digit.times 4, char '-', digit.oneUpTo 1, char '-', digit.oneUpTo 1]

def dateTimePattern : Pattern :=
  seqs [datePattern, char ' ', digit.oneUpTo 1, char ':', digit.oneUpTo 1,
    optional (seqs [char ':', digit.oneUpTo 1, optional (seqs [char '.', digit.oneUpTo 2])])]

/-- A backslash keeps the next character from closing the string, unless that is a line feed. -/
def stringPattern (quote : Char) : Pattern :=
  seqs [char quote,
    .star (.alt (seqs [char '\\', .one (· != '\n')]) (.one fun c => c != '\\' && c != quote)),
    char quote]

def pattern : Category → Pattern
  | .comment => seqs [.star (.one isBlank), char '/', char '/', .star (.one (· != '\n'))]
  | .dateTime => dateTimePattern
  | .date => datePattern
  | .identity => .seq (.one isNameStart) (.star (.one isNameChar))
  | .string quote => stringPattern quote.char
  | .percentage => .seq (optional numberPattern) (char '%')
  | .number => numberPattern
  | .newline => plus (char '\n')
  | .space => plus (.one isBlank)
  | .symbol => plus (oneOf ['!', '@', '#', '$', '^', '&', '~', '?', '.', '\\'])
  | .opening => oneOf ['(', '[', '{']
  | .closing => oneOf [')', ']', '}']
  | .comma => char ','
  | .arrow => seqs [char '-', char '>']

theorem pattern_not_nullable (c : Category) : c.pattern.nullable = false := by
  cases c <;> rfl

def match? (c : Category) (text : List Char) : Option Nat := c.pattern.preferred? text

/-- The first category that matches at the front of a text, and how much it takes. -/
def first? (text : List Char) : Option (Category × Nat) :=
  all.findSome? fun c => (c.match? text).map (c, ·)

theorem first?_eq_some {text : List Char} {c : Category} {n : Nat} (h : first? text = some (c, n)) :
    c.match? text = some n := by
  obtain ⟨d, _, hd⟩ := List.exists_of_findSome?_eq_some h
  obtain ⟨m, hm, heq⟩ := Option.map_eq_some_iff.mp hd
  cases heq
  exact hm

theorem first?_pos {text : List Char} {c : Category} {n : Nat} (h : first? text = some (c, n)) :
    0 < n :=
  Pattern.preferred?_pos (pattern_not_nullable c) (first?_eq_some h)

theorem first?_le_length {text : List Char} {c : Category} {n : Nat}
    (h : first? text = some (c, n)) : n ≤ text.length :=
  Pattern.preferred?_le_length (first?_eq_some h)

/-- The first place from the front on where some category matches: how many characters are passed
over, and the match there unless the text ends first. -/
def search : List Char → Nat × Option (Category × Nat)
  | [] => (0, none)
  | c :: text =>
    match first? (c :: text) with
    | some found => (0, some found)
    | none =>
      let behind := search text
      (behind.1 + 1, behind.2)

theorem first?_of_search {text : List Char} {gap : Nat} {found : Category × Nat}
    (h : search text = (gap, some found)) : first? (text.drop gap) = some found := by
  induction text generalizing gap with
  | nil => cases h
  | cons c text ih =>
    rw [search] at h
    split at h
    · rename_i hFirst
      cases h
      exact hFirst
    · obtain ⟨rfl, hFound⟩ := Prod.ext_iff.mp h
      exact ih (Prod.ext rfl hFound)

theorem ne_nil_of_search {text : List Char} {gap : Nat} {found : Category × Nat}
    (h : search text = (gap, some found)) : text ≠ [] := by
  rintro rfl
  cases h

end Category
end Outline
