import Outline.Node

/-! # Building statements from tokens

The builder takes one token at a time. It is before the first statement, between two lines, or
inside a line; a statement stays open until a line that is not deeper starts, and a call until its
closing parenthesis. An identity is held back, with the whitespace and comments behind it, until the
next token shows whether it names a call.

* An opening parenthesis with no identity before it becomes an error element.
* A closing parenthesis or a comma outside every call becomes an error that is no element.
* A call still open at the end of its line becomes an error in its place. The identity held back at
  that moment is not part of it and becomes the next element of the statement.
-/
namespace Outline
set_option autoImplicit false

structure OpenCall where
  name : Token
  parameters : List Node
  tokens : List Token

namespace OpenCall

def record (c : OpenCall) (t : Token) : OpenCall := { c with tokens := c.tokens ++ [t] }

def place (c : OpenCall) (node : Node) (tokens : List Token) : OpenCall :=
  { c with parameters := c.parameters ++ [node], tokens := c.tokens ++ tokens }

def toCall (c : OpenCall) : Call :=
  { name := c.name
    parameters := c.parameters
    span := Token.spanOf c.tokens
    text := Token.joinedText c.tokens
    tokens := c.tokens }

/-- The error that stands for a call without an end. -/
def unterminated (c : OpenCall) : Token :=
  ⟨.error .missingClosingParenthesis, Token.spanOf c.tokens, Token.joinedText c.tokens⟩

end OpenCall

structure OpenStatement where
  indent : Nat
  elements : List Node := []
  children : List Statement := []
  tokens : List Token := []

namespace OpenStatement

def record (s : OpenStatement) (t : Token) : OpenStatement := { s with tokens := s.tokens ++ [t] }

def place (s : OpenStatement) (node : Node) (tokens : List Token) : OpenStatement :=
  { s with elements := s.elements ++ [node], tokens := s.tokens ++ tokens }

def toStatement (s : OpenStatement) : Statement :=
  { indent := s.indent
    span := Token.spanOf s.tokens
    text := Token.joinedText s.tokens
    elements := s.elements
    children := s.children
    tokens := s.tokens }

def adopt (s : OpenStatement) (child : Statement) : OpenStatement :=
  { s with children := s.children ++ [child], tokens := s.tokens ++ child.tokens }

/-- Puts the error for an open call in its place, for the call itself and the calls around it. -/
def abandon (s : OpenStatement) (c : OpenCall) : List OpenCall → OpenStatement
  | [] => s.place (.token c.unterminated) c.tokens
  | parent :: outer => s.abandon (parent.place (.token c.unterminated) c.tokens) outer

end OpenStatement

/-- An identity that may turn out to name a call, and the whitespace and comments behind it. -/
structure Pending where
  identity : Token
  trailing : List Token

/-- The inside of a line: its statement, the calls that are open in it, innermost first, and the
identity held back. -/
structure Line where
  statement : OpenStatement
  calls : List OpenCall := []
  pending : Option Pending := none

namespace Line

/-- Keeps a token with the innermost call, or with the statement outside every call. -/
def record (l : Line) (t : Token) : Line :=
  match l.calls with
  | [] => { l with statement := l.statement.record t }
  | c :: outer => { l with calls := c.record t :: outer }

def place (l : Line) (node : Node) (tokens : List Token) : Line :=
  match l.calls with
  | [] => { l with statement := l.statement.place node tokens }
  | c :: outer => { l with calls := c.place node tokens :: outer }

def commit (l : Line) (t : Token) : Line := l.place (.token t) [t]

def flush (l : Line) : Line :=
  match l.pending with
  | none => l
  | some p => p.trailing.foldl record ({ l with pending := none }.commit p.identity)

def openCall (l : Line) (t : Token) : Line :=
  match l.pending with
  | none => l.commit (t.toError .unexpectedToken)
  | some p =>
    { l with
      calls := ⟨p.identity, [], p.identity :: p.trailing ++ [t]⟩ :: l.calls
      pending := none }

def closeCall (l : Line) (t : Token) : Line :=
  match l.calls with
  | [] => l.record (t.toError .unexpectedTokenInStatement)
  | c :: outer =>
    let call := (c.record t).toCall
    { l with calls := outer }.place (.call call) call.tokens

def comma (l : Line) (t : Token) : Line :=
  if l.calls.isEmpty then l.record (t.toError .unexpectedTokenInStatement) else l.record t

/-- Keeps a token that carries no structure, behind the identity held back if there is one. -/
def trivia (l : Line) (t : Token) : Line :=
  match l.pending with
  | none => l.record t
  | some p => { l with pending := some { p with trailing := p.trailing ++ [t] } }

def push (l : Line) (t : Token) : Line :=
  match t.content with
  | .space _ | .comment => l.trivia t
  | .identity => { l.flush with pending := some ⟨t, []⟩ }
  | .parenthesisOpen => l.openCall t
  | .parenthesisClose => l.flush.closeCall t
  | .comma => l.flush.comma t
  | _ => l.flush.commit t

/-- The statement of the line once the line has ended: open calls become errors, then the identity
held back becomes an element. -/
def settle (l : Line) : OpenStatement :=
  let statement :=
    match l.calls with
    | [] => l.statement
    | c :: outer => l.statement.abandon c outer
  match l.pending with
  | none => statement
  | some p => p.trailing.foldl .record (statement.place (.token p.identity) [p.identity])

end Line

structure Surroundings where
  preamble : List Token
  finished : List Statement := []
  /-- The open statements around the innermost one, from the inside out. -/
  outer : List OpenStatement := []

/-- Closes a statement and those around it up to the first that is shallower than `indent`. -/
def Surroundings.close (indent : Nat) (s : OpenStatement) (around : Surroundings) : Surroundings :=
  go s around.outer
where
  go (s : OpenStatement) : List OpenStatement → Surroundings
    | [] =>
      if s.indent < indent then { around with outer := [s] }
      else { around with finished := around.finished ++ [s.toStatement], outer := [] }
    | parent :: outer =>
      if s.indent < indent then { around with outer := s :: parent :: outer }
      else go (parent.adopt s.toStatement) outer

inductive Builder where
  /-- No statement has started. -/
  | leading (preamble : List Token)
  /-- The next token starts a line. -/
  | between (around : Surroundings) (current : OpenStatement)
  | inside (around : Surroundings) (line : Line)

namespace Builder

def empty : Builder := .leading []

def indentOf (t : Token) : Nat :=
  match t.content with
  | .space size => size
  | _ => 0

def startsStatement (t : Token) : Bool :=
  match t.content with
  | .lineBreak _ | .comment => false
  | _ => true

def isLineBreak (t : Token) : Bool :=
  match t.content with
  | .lineBreak _ => true
  | _ => false

def startLine (around : Surroundings) (t : Token) : Builder :=
  .inside around (({ statement := { indent := indentOf t } } : Line).push t)

def push (b : Builder) (t : Token) : Builder :=
  match b with
  | .leading preamble =>
    if startsStatement t then startLine { preamble } t else .leading (preamble ++ [t])
  | .between around current =>
    if startsStatement t then startLine (around.close (indentOf t) current) t
    else .between around (current.record t)
  | .inside around line =>
    if isLineBreak t then .between around (line.settle.record t) else .inside around (line.push t)

theorem push_leading (preamble : List Token) (t : Token) :
    (leading preamble).push t =
      if startsStatement t then startLine { preamble } t else .leading (preamble ++ [t]) := rfl

theorem push_between (around : Surroundings) (current : OpenStatement) (t : Token) :
    (between around current).push t =
      if startsStatement t then startLine (around.close (indentOf t) current) t
      else .between around (current.record t) := rfl

theorem push_inside (around : Surroundings) (line : Line) (t : Token) :
    (inside around line).push t =
      if isLineBreak t then .between around (line.settle.record t)
      else .inside around (line.push t) := rfl

def pushAll (b : Builder) (tokens : List Token) : Builder := tokens.foldl push b

@[simp] theorem pushAll_nil (b : Builder) : b.pushAll [] = b := rfl

@[simp] theorem pushAll_cons (b : Builder) (t : Token) (tokens : List Token) :
    b.pushAll (t :: tokens) = (b.push t).pushAll tokens := rfl

theorem pushAll_append (b : Builder) (tokens more : List Token) :
    b.pushAll (tokens ++ more) = (b.pushAll tokens).pushAll more := List.foldl_append

def preamble : Builder → List Token
  | .leading preamble => preamble
  | .between around _ => around.preamble
  | .inside around _ => around.preamble

/-- Closes all that is open and gives the top-level statements. -/
def finish : Builder → List Statement
  | .leading _ => []
  | .between around current => (around.close 0 current).finished
  | .inside around line => (around.close 0 line.settle).finished

end Builder

def build (tokens : List Token) : List Statement := (Builder.empty.pushAll tokens).finish

end Outline
