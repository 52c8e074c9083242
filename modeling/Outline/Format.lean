import Outline.Document
import Outline.Drawing

/-! # Output formats

The ways in which a document can be written out, with the names by which they are chosen.
-/
namespace Outline
set_option autoImplicit false

inductive Format where
  | debug
  | tokens
  | tree
  | treeWithRows
  | json
  | yaml
deriving DecidableEq, Repr

namespace Format

def all : List Format := [.debug, .tokens, .tree, .treeWithRows, .json, .yaml]

theorem mem_all (f : Format) : f ∈ all := by cases f <;> decide

def name : Format → String
  | .debug => "debug"
  | .tokens => "tokens"
  | .tree => "treeviz"
  | .treeWithRows => "treeviz-linum"
  | .json => "json"
  | .yaml => "yaml"

def description : Format → String
  | .debug => "Canonical node-per-line rendering of the statement forest"
  | .tokens => "Lexer output, one token per line"
  | .tree => "Icon tree, one line per node"
  | .treeWithRows => "Icon tree prefixed with each node's starting row"
  | .json => "Snapshot tree as pretty-printed JSON"
  | .yaml => "Snapshot tree as YAML"

def ofName? (name : String) : Option Format := all.find? (·.name = name)

def unknownMessage (name : String) : String := "unknown format '" ++ name ++ "'"

def renderForest (forest : List Statement) : String :=
  "\n".intercalate (forest.map Statement.display)

def renderTokens (tokens : List Token) : String := "\n".intercalate (tokens.map Token.display)

def render (f : Format) (d : Document) : String :=
  match f with
  | .debug => renderForest d.statements
  | .tokens => renderTokens d.tokens
  | .tree => Drawing.render false (Snapshot.ofForest d.statements)
  | .treeWithRows => Drawing.render true (Snapshot.ofForest d.statements)
  | .json => Snapshot.toJson (Snapshot.ofForest d.statements)
  | .yaml => Snapshot.toYaml (Snapshot.ofForest d.statements)

end Format
end Outline
