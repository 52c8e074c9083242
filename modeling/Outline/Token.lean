import Outline.Position
import Outline.Calendar
import Outline.Double.Shortest

/-! # Tokens

A token is a contiguous piece of the text with its span and a content that says what it is. Kinds
name the contents without their values, and the two composites beside them.
-/
namespace Outline
set_option autoImplicit false

inductive Quote where
  | double
  | single
  | backtick
deriving DecidableEq, Repr

def Quote.char : Quote → Char
  | .double => '"'
  | .single => '\''
  | .backtick => '\x60'

inductive ErrorReason where
  /-- Characters that belong to no category, or an opening parenthesis with no name before it. -/
  | unexpectedToken
  /-- A closing parenthesis or a comma outside every call. -/
  | unexpectedTokenInStatement
  /-- A call still open where its line ends. -/
  | missingClosingParenthesis
deriving DecidableEq, Repr

def ErrorReason.message : ErrorReason → String
  | .unexpectedToken => "Unexpected token"
  | .unexpectedTokenInStatement => "Unexpected token in statement"
  | .missingClosingParenthesis => "Missing closing parenthesis"

inductive Kind where
  | comment | space | lineBreak | parenthesisOpen | parenthesisClose | comma | symbol | identity
  | string | integer | float | percentage | date | dateTime | arrow | error
  | statement | call
deriving DecidableEq, Repr

namespace Kind

/-- Every kind, in the order in which kinds are compared and counted. -/
def all : List Kind :=
  [.comment, .space, .lineBreak, .parenthesisOpen, .parenthesisClose, .comma, .symbol, .identity,
    .string, .integer, .float, .percentage, .date, .dateTime, .arrow, .error, .statement, .call]

theorem mem_all (k : Kind) : k ∈ all := by cases k <;> decide

def order (a b : Kind) : Ordering := compare a.ctorIdx b.ctorIdx

def name : Kind → String
  | .comment => "COMMENT"
  | .space => "SPACE"
  | .lineBreak => "LINEBREAK"
  | .parenthesisOpen => "PARENTHESIS_OPEN"
  | .parenthesisClose => "PARENTHESIS_CLOSE"
  | .comma => "COMMA"
  | .symbol => "SYMBOL"
  | .identity => "IDENTITY"
  | .string => "STRING"
  | .integer => "INTEGER"
  | .float => "FLOAT"
  | .percentage => "PERCENTAGE"
  | .date => "DATE"
  | .dateTime => "DATETIME"
  | .arrow => "ARROW"
  | .error => "ERROR"
  | .statement => "STATEMENT"
  | .call => "FUNCTION"

def ofName? (name : String) : Option Kind := all.find? (·.name = name)

end Kind

inductive Content where
  | comment
  | space (size : Nat)
  | lineBreak (count : Nat)
  | parenthesisOpen
  | parenthesisClose
  | comma
  | symbol
  | identity
  | string (quote : Quote)
  | integer (value : Int)
  | float (value : Double)
  /-- The fraction: fifty percent holds one half. -/
  | percentage (fraction : Double)
  | date (value : Calendar.Date)
  | dateTime (value : Calendar.DateTime)
  | arrow
  | error (reason : ErrorReason)
deriving DecidableEq, Repr

def Content.kind : Content → Kind
  | .comment => .comment
  | .space _ => .space
  | .lineBreak _ => .lineBreak
  | .parenthesisOpen => .parenthesisOpen
  | .parenthesisClose => .parenthesisClose
  | .comma => .comma
  | .symbol => .symbol
  | .identity => .identity
  | .string _ => .string
  | .integer _ => .integer
  | .float _ => .float
  | .percentage _ => .percentage
  | .date _ => .date
  | .dateTime _ => .dateTime
  | .arrow => .arrow
  | .error _ => .error

structure Token where
  content : Content
  span : Span
  text : String
deriving DecidableEq, Repr

namespace Token

def kind (t : Token) : Kind := t.content.kind

def toError (t : Token) (reason : ErrorReason) : Token := { t with content := .error reason }

def errorReason? (t : Token) : Option ErrorReason :=
  match t.content with
  | .error reason => some reason
  | _ => none

def isError (t : Token) : Bool := t.errorReason?.isSome

/-- What stands between the brackets of the display: mostly the text, for some contents the value. -/
def summary (t : Token) : String :=
  match t.content with
  | .space size => "size=" ++ toString size
  | .lineBreak count => "count=" ++ toString count
  | .integer value => toString value
  | .float value => value.display
  | _ => t.text

def display (t : Token) : String :=
  t.kind.name ++ "[" ++ t.summary ++ "]@" ++ t.span.display ++
    match t.errorReason? with
    | some reason => ":" ++ reason.message
    | none => ""

def joinedText (tokens : List Token) : String := String.join (tokens.map text)

def spanOf (tokens : List Token) : Span :=
  match tokens.head?, tokens.getLast? with
  | some first, some last => first.span.join last.span
  | _, _ => .empty

@[simp] theorem joinedText_nil : joinedText [] = "" := rfl

theorem toList_joinedText (tokens : List Token) :
    (joinedText tokens).toList = tokens.flatMap (·.text.toList) := by
  simp [joinedText, List.flatMap_map]

end Token
end Outline
