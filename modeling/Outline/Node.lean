import Outline.Token

/-! # Statements, calls and nodes

A statement is a line with the deeper lines under it; a call is a name with parameters in
parentheses. Both keep two views of what they hold: the structure, and `tokens`, every token of
their span in order, those of their parts included.

All functions on trees are written with `fold`, whose equations `fold_def` replace recursion.
-/
namespace Outline
set_option autoImplicit false

mutual

inductive Node where
  | token (token : Token)
  | call (call : Call)
  | statement (statement : Statement)

structure Call where
  name : Token
  parameters : List Node
  span : Span
  text : String
  tokens : List Token

structure Statement where
  /-- The width of the whitespace that the line starts with. -/
  indent : Nat
  span : Span
  text : String
  elements : List Node
  children : List Statement
  tokens : List Token

end

/-- A way to compute a result of type `α` for every part of a tree: composites see themselves and
the results of their parts. -/
structure Fold (α : Type) where
  token : Token → α
  call (call : Call) (parameters : List α) : α
  statement (statement : Statement) (elements children : List α) : α

mutual

def Node.fold {α : Type} (f : Fold α) : Node → α
  | .token t => f.token t
  | .call c => c.fold f
  | .statement s => s.fold f

def Call.fold {α : Type} (f : Fold α) : Call → α
  | ⟨name, parameters, span, text, tokens⟩ =>
    f.call ⟨name, parameters, span, text, tokens⟩ (Node.folds f parameters)

def Statement.fold {α : Type} (f : Fold α) : Statement → α
  | ⟨indent, span, text, elements, children, tokens⟩ =>
    f.statement ⟨indent, span, text, elements, children, tokens⟩
      (Node.folds f elements) (Statement.folds f children)

def Node.folds {α : Type} (f : Fold α) : List Node → List α
  | [] => []
  | node :: nodes => node.fold f :: Node.folds f nodes

def Statement.folds {α : Type} (f : Fold α) : List Statement → List α
  | [] => []
  | statement :: statements => statement.fold f :: Statement.folds f statements

end

section Equations
variable {α : Type} (f : Fold α)

theorem Node.folds_eq_map (nodes : List Node) : Node.folds f nodes = nodes.map (·.fold f) := by
  induction nodes with
  | nil => rfl
  | cons node nodes ih => simp [Node.folds, ih]

theorem Statement.folds_eq_map (statements : List Statement) :
    Statement.folds f statements = statements.map (·.fold f) := by
  induction statements with
  | nil => rfl
  | cons statement statements ih => simp [Statement.folds, ih]

@[simp] theorem Node.fold_token (t : Token) : (Node.token t).fold f = f.token t := by
  simp [Node.fold]

@[simp] theorem Node.fold_call (c : Call) : (Node.call c).fold f = c.fold f := by
  simp [Node.fold]

@[simp] theorem Node.fold_statement (s : Statement) : (Node.statement s).fold f = s.fold f := by
  simp [Node.fold]

theorem Call.fold_def (c : Call) : c.fold f = f.call c (c.parameters.map (·.fold f)) := by
  cases c
  simp [Call.fold, Node.folds_eq_map]

theorem Statement.fold_def (s : Statement) :
    s.fold f = f.statement s (s.elements.map (·.fold f)) (s.children.map (·.fold f)) := by
  cases s
  simp [Statement.fold, Node.folds_eq_map, Statement.folds_eq_map]

end Equations

section Induction

theorem Call.sizeOf_lt_of_mem {c : Call} {n : Node} (h : n ∈ c.parameters) :
    sizeOf n < sizeOf c := by
  obtain ⟨name, parameters, span, text, tokens⟩ := c
  have hLt : sizeOf n < sizeOf parameters := List.sizeOf_lt_of_mem h
  simp only [Call.mk.sizeOf_spec]
  omega

theorem Statement.sizeOf_lt_of_mem {s : Statement} {n : Node} (h : n ∈ s.elements) :
    sizeOf n < sizeOf s := by
  obtain ⟨indent, span, text, elements, children, tokens⟩ := s
  have hLt : sizeOf n < sizeOf elements := List.sizeOf_lt_of_mem h
  simp only [Statement.mk.sizeOf_spec]
  omega

theorem Statement.sizeOf_lt_of_mem_children {s child : Statement} (h : child ∈ s.children) :
    sizeOf child < sizeOf s := by
  obtain ⟨indent, span, text, elements, children, tokens⟩ := s
  have hLt : sizeOf child < sizeOf children := List.sizeOf_lt_of_mem h
  simp only [Statement.mk.sizeOf_spec]
  omega

/-- Induction over a whole tree: a statement may also rely on the statements nested under it. -/
theorem Node.inductAll {motive : Node → Prop} (token : ∀ t, motive (.token t))
    (call : ∀ c : Call, (∀ n ∈ c.parameters, motive n) → motive (.call c))
    (statement : ∀ s : Statement, (∀ n ∈ s.elements, motive n) →
      (∀ child ∈ s.children, motive (.statement child)) → motive (.statement s)) (n : Node) :
    motive n :=
  match n with
  | .token t => token t
  | .call c => call c fun n _hn => Node.inductAll token call statement n
  | .statement s => statement s (fun n _hn => Node.inductAll token call statement n)
      fun child _hc => Node.inductAll token call statement (.statement child)
termination_by sizeOf n
decreasing_by
  · have hLt := Call.sizeOf_lt_of_mem _hn
    simp only [Node.call.sizeOf_spec]
    omega
  · have hLt := Statement.sizeOf_lt_of_mem _hn
    simp only [Node.statement.sizeOf_spec]
    omega
  · have hLt := Statement.sizeOf_lt_of_mem_children _hc
    simp only [Node.statement.sizeOf_spec]
    omega

theorem Node.induct {motive : Node → Prop} (token : ∀ t, motive (.token t))
    (call : ∀ c : Call, (∀ n ∈ c.parameters, motive n) → motive (.call c))
    (statement : ∀ s : Statement, (∀ n ∈ s.elements, motive n) → motive (.statement s)) (n : Node) :
    motive n :=
  Node.inductAll token call (fun s hElements _ => statement s hElements) n

end Induction

namespace Node

def kind : Node → Kind
  | .token t => t.kind
  | .call _ => .call
  | .statement _ => .statement

def span : Node → Span
  | .token t => t.span
  | .call c => c.span
  | .statement s => s.span

def text : Node → String
  | .token t => t.text
  | .call c => c.text
  | .statement s => s.text

def token? : Node → Option Token
  | .token t => some t
  | _ => none

def call? : Node → Option Call
  | .call c => some c
  | _ => none

def errorReason? (n : Node) : Option ErrorReason := n.token?.bind Token.errorReason?

end Node

namespace Display

def nest (lines : List String) : List String := lines.map ("    " ++ ·)

/-- A titled block of parts, left out if there are none. -/
def block (title : String) (parts : List (List String)) : List String :=
  if parts.isEmpty then [] else title :: nest parts.flatten

/-- One entry for each node and for each block title. -/
def lines : Fold (List String) where
  token t := [t.display]
  call c parameters :=
    (Kind.call.name ++ "[" ++ c.name.text ++ "]@" ++ c.span.display) ::
      block "PARAMETERS:" parameters
  statement s elements children :=
    (Kind.statement.name ++ "[indent=" ++ toString s.indent ++ "]@" ++ s.span.display) ::
      (block "ELEMENTS:" elements ++ block "CHILDREN:" children)

end Display

def Node.display (n : Node) : String := "\n".intercalate (n.fold Display.lines)

def Statement.display (s : Statement) : String := "\n".intercalate (s.fold Display.lines)

end Outline
