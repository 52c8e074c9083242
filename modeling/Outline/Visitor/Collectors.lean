import Outline.Visitor

/-! # Some visitors

Visitors that collect texts or kinds, that pick single kinds out, and two that show in which order a
traversal runs.
-/
namespace Outline.Visitor
set_option autoImplicit false

def texts : Visitor Id String where
  defaultResult := ""
  aggregate := String.join
  terminal t := t.text

def kinds : Visitor Id (List Kind) where
  defaultResult := []
  aggregate := List.flatten
  terminal t := [t.kind]

def tally (kinds : List Kind) : List (Kind × Nat) :=
  (Kind.all.map fun k => (k, kinds.count k)).filter (0 < ·.2)

/-- Identities, integers behind a number sign, and calls in parentheses, without their name token. -/
def pick : Visitor Id (List String) where
  defaultResult := []
  aggregate := List.flatten
  handler k t :=
    match k with
    | .identity => [t.text]
    | .integer => ["#" ++ t.text]
    | _ => []
  call c _ parameters := (c.name.text ++ "(") :: parameters.flatten ++ [")"]

def counter : Visitor (StateM Nat) Nat where
  defaultResult := modifyGet fun n => (n + 1, n + 1)

def trace : Visitor (StateM (List String)) Unit where
  defaultResult := modify (· ++ ["default_result"])
  aggregate results := modify (· ++ ["aggregate " ++ toString results.length])
  handler k t :=
    modify (· ++ ["visit_" ++ String.ofList (k.name.toList.map Char.toLower) ++ " " ++ t.text])

end Outline.Visitor
