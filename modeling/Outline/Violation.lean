import Outline.Document

/-! # Checking documents

Properties that every parsed document has, as checks that can also be run on a document put together
by hand. Each check gives the first violation in the order of the source.
-/
namespace Outline
set_option autoImplicit false

inductive Violation where
  | lossy
  | gap (index : Nat) (token : Token)
  | preamble
  | statementText
  | statementSpan
  | childOutside (child parent : Span)
  | callText
  | elementOutside (element statement : Span)
  | uncovered
  | shallowChild (child parent : Nat) (span : Span)
  | callName
  | callWithoutOpening
  | callUnclosed (text : String)
deriving DecidableEq, Repr

def Violation.message : Violation → String
  | .lossy => "token texts do not reproduce the source"
  | .gap index token =>
    "token " ++ toString index ++ " (" ++ token.display ++
      ") does not start where the previous one ended"
  | .preamble => "preamble holds more than line breaks and comments"
  | .statementText => "statement text differs from its raw tokens"
  | .statementSpan => ""
  | .childOutside child parent => "child " ++ child.display ++ " outside parent " ++ parent.display
  | .callText => ""
  | .elementOutside element statement =>
    "element " ++ element.display ++ " outside statement " ++ statement.display
  | .uncovered => "forest does not cover the token stream"
  | .shallowChild child parent span =>
    "child indent " ++ toString child ++ " not deeper than parent indent " ++ toString parent ++
      " at " ++ span.display
  | .callName => ""
  | .callWithoutOpening => ""
  | .callUnclosed text => "call " ++ text ++ " is not closed"

abbrev Check := Except Violation Unit

namespace Check

def ensure (condition : Bool) (otherwise : Violation) : Check :=
  if condition then .ok () else .error otherwise

def lossless (source : String) (tokens : List Token) : Check :=
  ensure (Token.joinedText tokens = normalizeLineEnds source) .lossy

/-- Each token, numbered from `index` on, starts where the one before it ends. -/
def contiguousFrom (start : Position) (index : Nat) : List Token → Check
  | [] => .ok ()
  | t :: rest => do
    ensure (t.span.start = start) (.gap index t)
    contiguousFrom t.span.stop (index + 1) rest

def contiguous (tokens : List Token) : Check := contiguousFrom .origin 0 tokens

/-- A node lies inside the span of its statement, the parameters of a call before the call itself,
and a call has the text of its tokens. -/
def nodeSpan (n : Node) : Span → Check :=
  n.fold
    { token := fun t statement =>
        ensure (statement.encloses t.span) (.elementOutside t.span statement)
      call := fun c parameters statement => do
        ensure (c.text = Token.joinedText c.tokens) .callText
        parameters.forM (· statement)
        ensure (statement.encloses c.span) (.elementOutside c.span statement)
      statement := fun s _ _ statement =>
        ensure (statement.encloses s.span) (.elementOutside s.span statement) }

/-- A statement has the text and the span of its tokens, and its parts lie inside it. -/
def statementSpan (s : Statement) : Check :=
  s.fold
    { token := fun _ => .ok ()
      call := fun _ _ => .ok ()
      statement := fun s _ children => do
        ensure (s.text = Token.joinedText s.tokens) .statementText
        ensure (s.tokens = [] || s.span = Token.spanOf s.tokens) .statementSpan
        s.elements.forM (nodeSpan · s.span)
        (s.children.zip children).forM fun (child, check) => do
          ensure (s.span.encloses child.span) (.childOutside child.span s.span)
          check }

/-- The preamble and the statements hold all tokens, and every composite spans what it holds. -/
def coverage (d : Document) : Check := do
  ensure (d.preamble.all (!Builder.startsStatement ·)) .preamble
  d.statements.forM statementSpan
  ensure (Token.joinedText d.preamble ++ String.join (d.statements.map (·.text)) =
    Token.joinedText d.tokens) .uncovered

def indentation (forest : List Statement) : Check :=
  forest.forM (·.fold
    { token := fun _ => .ok ()
      call := fun _ _ => .ok ()
      statement := fun s _ children => do
        s.children.forM fun child =>
          ensure (s.indent < child.indent) (.shallowChild child.indent s.indent child.span)
        children.forM id })

def callsIn (n : Node) : Check :=
  n.fold
    { token := fun _ => .ok ()
      call := fun c parameters => do
        ensure (c.tokens.head?.map (·.text) = some c.name.text) .callName
        ensure (c.tokens.any (·.content = .parenthesisOpen)) .callWithoutOpening
        ensure (c.tokens.getLast?.map (·.content) = some .parenthesisClose) (.callUnclosed c.text)
        parameters.forM id
      statement := fun _ elements _ => elements.forM id }

def calls (forest : List Statement) : Check :=
  forest.forM (·.fold
    { token := fun _ => .ok ()
      call := fun _ _ => .ok ()
      statement := fun s _ children => do
        s.elements.forM callsIn
        children.forM id })

def all (source : String) : Check := do
  let d := Document.parse source
  lossless source d.tokens
  contiguous d.tokens
  coverage d
  indentation d.statements
  calls d.statements

end Check
end Outline
