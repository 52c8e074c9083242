import Outline.Document
import Outline.Escape

/-! # Expectations about a forest

Expectations look at one part of a forest at a time. From a forest one goes down to its statements,
their elements and children, and the parameters of calls; the path taken shows in every failure.
-/
namespace Outline.Expectation
set_option autoImplicit false

/-- What an expectation compares as a whole. -/
inductive Aspect where
  | text
  | elements
  | rawErrors
  | kind
  | range
  | callName
  | parameters
deriving DecidableEq, Repr

def Aspect.name : Aspect → String
  | .text => "text"
  | .elements => "elements"
  | .rawErrors => "raw errors"
  | .kind => "kind"
  | .range => "range"
  | .callName => "call name"
  | .parameters => "parameters"

abbrev Summary := Kind × String

def summary (n : Node) : Summary := (n.kind, n.text)

inductive Cause where
  | indent (expected found : Nat)
  | range (expected found : Span)
  | mismatch (aspect : Aspect)
  | elementCount (expected : Nat) (found : List Summary)
  | elementIndex (index : Nat) (found : List Summary)
  | childCount (expected found : Nat)
  | childIndex (index count : Nat)
  | notError (expected : ErrorReason) (found : Summary)
  | notCall (name : String) (found : Summary)
  | parameterCount (expected : Nat) (found : List Summary)
  | parameterIndex (index count : Nat)
deriving DecidableEq, Repr

inductive Failure where
  | statementCount (expected found : Nat)
  | statementIndex (index count : Nat)
  | at (path : String) (cause : Cause)
deriving DecidableEq, Repr

def listing (nodes : List Summary) : String :=
  ", ".intercalate (nodes.map fun node => node.1.name ++ "[" ++ Escape.text node.2 ++ "]")

def named (node : Summary) : String := node.1.name ++ "[" ++ node.2 ++ "]"

def Cause.message : Cause → String
  | .indent expected found =>
    "expected indent " ++ toString expected ++ ", found " ++ toString found
  | .range expected found => "expected range " ++ expected.display ++ ", found " ++ found.display
  | .mismatch aspect => aspect.name ++ " mismatch"
  | .elementCount expected found =>
    "expected " ++ toString expected ++ " elements, found " ++ toString found.length ++ ": [" ++
      listing found ++ "]"
  | .elementIndex index found =>
    "element index " ++ toString index ++ " out of bounds (" ++ toString found.length ++
      " elements: [" ++ listing found ++ "])"
  | .childCount expected found =>
    "expected " ++ toString expected ++ " children, found " ++ toString found
  | .childIndex index count =>
    "child index " ++ toString index ++ " out of bounds (" ++ toString count ++ " children)"
  | .notError expected found =>
    "expected ERROR(" ++ expected.message ++ "), found " ++ named found
  | .notCall name found => "expected FUNCTION[" ++ name ++ "], found " ++ named found
  | .parameterCount expected found =>
    "expected " ++ toString expected ++ " parameters, found " ++ toString found.length ++ ": [" ++
      listing found ++ "]"
  | .parameterIndex index count =>
    "parameter index " ++ toString index ++ " out of bounds (" ++ toString count ++ " parameters)"

def Failure.message : Failure → String
  | .statementCount expected found =>
    "Expected " ++ toString expected ++ " top-level statements, found " ++ toString found
  | .statementIndex index count =>
    "Statement index " ++ toString index ++ " out of bounds (forest has " ++ toString count ++
      " statements)"
  | .at path cause => path ++ ": " ++ cause.message

/-- A part of a forest and the way to it. -/
structure Focus (α : Type) where
  path : String
  value : α

abbrev Outcome (α : Type) := Except Failure α

def Focus.ensure {α : Type} (f : Focus α) (condition : Bool) (cause : Cause) : Outcome Unit :=
  if condition then .ok () else .error (.at f.path cause)

def Focus.descend {α β : Type} (f : Focus α) (part : String) (parts : List β) (index : Nat)
    (cause : Cause) : Outcome (Focus β) :=
  match parts[index]? with
  | some value => .ok ⟨f.path ++ "." ++ part ++ "[" ++ toString index ++ "]", value⟩
  | none => .error (.at f.path cause)

namespace OnForest

def count (forest : List Statement) (expected : Nat) : Outcome Unit :=
  if forest.length = expected then .ok () else .error (.statementCount expected forest.length)

def statement (forest : List Statement) (index : Nat) : Outcome (Focus Statement) :=
  match forest[index]? with
  | some value => .ok ⟨"forest[" ++ toString index ++ "]", value⟩
  | none => .error (.statementIndex index forest.length)

end OnForest

namespace OnStatement
variable (f : Focus Statement)

def indent (expected : Nat) : Outcome Unit :=
  f.ensure (f.value.indent = expected) (.indent expected f.value.indent)

def range (expected : Span) : Outcome Unit :=
  f.ensure (f.value.span = expected) (.range expected f.value.span)

def text (expected : String) : Outcome Unit :=
  f.ensure (f.value.text = expected) (.mismatch .text)

def elementCount (expected : Nat) : Outcome Unit :=
  f.ensure (f.value.elements.length = expected)
    (.elementCount expected (f.value.elements.map summary))

def elements (expected : List Summary) : Outcome Unit :=
  f.ensure (f.value.elements.map summary = expected) (.mismatch .elements)

def element (index : Nat) : Outcome (Focus Node) :=
  f.descend "elements" f.value.elements index
    (.elementIndex index (f.value.elements.map summary))

def rawErrors (expected : List (ErrorReason × Span)) : Outcome Unit :=
  f.ensure
    ((f.value.tokens.filterMap fun t => t.errorReason?.map (·, t.span)) = expected)
    (.mismatch .rawErrors)

def childCount (expected : Nat) : Outcome Unit :=
  f.ensure (f.value.children.length = expected) (.childCount expected f.value.children.length)

def child (index : Nat) : Outcome (Focus Statement) :=
  f.descend "children" f.value.children index (.childIndex index f.value.children.length)

end OnStatement

namespace OnNode
variable (f : Focus Node)

def kind (expected : Kind) : Outcome Unit :=
  f.ensure (f.value.kind = expected) (.mismatch .kind)

def text (expected : String) : Outcome Unit :=
  f.ensure (f.value.text = expected) (.mismatch .text)

def range (expected : Span) : Outcome Unit :=
  f.ensure (f.value.span = expected) (.mismatch .range)

def error (expected : ErrorReason) : Outcome Unit :=
  f.ensure (f.value.errorReason? = some expected) (.notError expected (summary f.value))

/-- The node is a call of this name. -/
def call (name : String) : Outcome (Focus Call) :=
  match f.value.call? with
  | none => .error (.at f.path (.notCall name (summary f.value)))
  | some c =>
    if c.name.text = name then .ok ⟨f.path, c⟩ else .error (.at f.path (.mismatch .callName))

end OnNode

namespace OnCall
variable (f : Focus Call)

def parameterCount (expected : Nat) : Outcome Unit :=
  f.ensure (f.value.parameters.length = expected)
    (.parameterCount expected (f.value.parameters.map summary))

def parameters (expected : List Summary) : Outcome Unit :=
  f.ensure (f.value.parameters.map summary = expected) (.mismatch .parameters)

def parameter (index : Nat) : Outcome (Focus Node) :=
  f.descend "parameters" f.value.parameters index
    (.parameterIndex index f.value.parameters.length)

def text (expected : String) : Outcome Unit :=
  f.ensure (f.value.text = expected) (.mismatch .text)

def range (expected : Span) : Outcome Unit :=
  f.ensure (f.value.span = expected) (.mismatch .range)

end OnCall
end Outline.Expectation
