import Outline.Builder
import Outline.Cursor

/-! # Documents

A source with all its tokens and the statements built from them.
-/
namespace Outline
set_option autoImplicit false

structure Document where
  tokens : List Token
  /-- Line breaks and comments before the first statement. -/
  preamble : List Token
  statements : List Statement

def Node.unterminated (n : Node) : List Token :=
  n.fold
    { token := fun t =>
        if t.errorReason? = some .missingClosingParenthesis then [t] else []
      call := fun _ parameters => parameters.flatten
      statement := fun _ elements _ => elements.flatten }

/-- The errors that stand for unterminated calls in a statement and those nested under it. -/
def Statement.unterminated (s : Statement) : List Token :=
  s.fold
    { token := fun _ => []
      call := fun _ _ => []
      statement := fun s _ children =>
        s.elements.flatMap Node.unterminated ++ children.flatten }

def Statement.count (s : Statement) : Nat :=
  s.fold
    { token := fun _ => 0
      call := fun _ _ => 0
      statement := fun _ _ children => children.foldr (· + ·) 1 }

namespace Document

def parse (source : String) : Document :=
  let tokens := tokenize source
  let builder := Builder.empty.pushAll tokens
  ⟨tokens, builder.preamble, builder.finish⟩

/-- The errors below a top-level statement: those among its tokens, then the unterminated calls,
which only the structure shows. -/
def errorsOf (s : Statement) : List Token := s.tokens.filter Token.isError ++ s.unterminated

/-- All errors by where they start; errors that start together keep their order. -/
def errors (d : Document) : List Token :=
  (d.statements.flatMap errorsOf).mergeSort fun a b => a.span.start ≤ b.span.start

def statementCount (d : Document) : Nat := (d.statements.map Statement.count).foldr (· + ·) 0

end Document
end Outline
