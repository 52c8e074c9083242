import Outline.Node

/-! # Visitors

A visitor says what to do at each node of a tree and how to put results together. It runs in a monad,
so that it can keep a state. Unless it says otherwise, a statement visits its elements and then its
children, a call its name and then its parameters, and every token gives the default result.
-/
namespace Outline
set_option autoImplicit false

structure Visitor (m : Type → Type) [Monad m] (α : Type) where
  defaultResult : m α
  aggregate : List α → m α := fun _ => defaultResult
  terminal : Token → m α := fun _ => defaultResult
  handler : Kind → Token → m α := fun _ => terminal
  /-- What to do at a call, given the visits of its name and of its parameters. -/
  call : Call → m α → List (m α) → m α := fun _ name parameters => do
    aggregate (← (name :: parameters).mapM id)
  /-- What to do at a statement, given the visits of its elements and of its children. -/
  statement : Statement → List (m α) → List (m α) → m α := fun _ elements children => do
    aggregate (← (elements ++ children).mapM id)

namespace Visitor
variable {m : Type → Type} [Monad m] {α : Type}

def visitToken (v : Visitor m α) (t : Token) : m α := v.handler t.kind t

def toFold (v : Visitor m α) : Fold (m α) where
  token := v.visitToken
  call c parameters := v.call c (v.visitToken c.name) parameters
  statement := v.statement

def visit (v : Visitor m α) (n : Node) : m α := n.fold v.toFold

def visitAll (v : Visitor m α) (nodes : List Node) : m (List α) := nodes.mapM v.visit

theorem visit_token (v : Visitor m α) (t : Token) : v.visit (.token t) = v.handler t.kind t := by
  simp [visit, toFold, visitToken]

theorem visit_call (v : Visitor m α) (c : Call) :
    v.visit (.call c) = v.call c (v.visit (.token c.name)) (c.parameters.map v.visit) := by
  rw [visit, Node.fold_call, Call.fold_def, visit_token]
  rfl

theorem visit_statement (v : Visitor m α) (s : Statement) :
    v.visit (.statement s) =
      v.statement s (s.elements.map v.visit) (s.children.map fun c => v.visit (.statement c)) := by
  rw [visit, Node.fold_statement, Statement.fold_def]
  simp only [visit, Node.fold_statement]
  rfl

end Visitor
end Outline
