import Outline.Node
import Outline.Value.Json
import Outline.Value.JsonReader
import Outline.Value.Yaml

/-! # Snapshots

A snapshot is the plain form of a node: its kind's name, a label, its span, a few attributes and its
structural parts. The serial formats and the drawing are made from snapshots. Tokens without
structure, such as whitespace, do not appear.
-/
namespace Outline
set_option autoImplicit false

/-- Texts by name, in the order of the names and with no name twice. -/
structure Attributes where
  entries : List (String × String) := []
  sorted : entries.Pairwise (fun a b => a.1 < b.1) := by simp
deriving DecidableEq, Repr

namespace Attributes

def insertEntry (name value : String) : List (String × String) → List (String × String)
  | [] => [(name, value)]
  | entry :: entries =>
    if name < entry.1 then (name, value) :: entry :: entries
    else if name = entry.1 then (name, value) :: entries
    else entry :: insertEntry name value entries

theorem name_of_mem_insertEntry {name value : String} {entries : List (String × String)}
    {entry : String × String} (h : entry ∈ insertEntry name value entries) :
    entry.1 = name ∨ entry ∈ entries := by
  induction entries with
  | nil => simp_all [insertEntry]
  | cons first rest ih =>
    rw [insertEntry] at h
    split at h
    · rcases List.mem_cons.mp h with rfl | hRest
      · exact .inl rfl
      · exact .inr hRest
    · split at h
      · rcases List.mem_cons.mp h with rfl | hRest
        · exact .inl rfl
        · exact .inr (List.mem_cons_of_mem _ hRest)
      · rcases List.mem_cons.mp h with rfl | hRest
        · exact .inr List.mem_cons_self
        · exact (ih hRest).imp id (List.mem_cons_of_mem _)

theorem sorted_insertEntry (name value : String) {entries : List (String × String)}
    (h : entries.Pairwise (fun a b => a.1 < b.1)) :
    (insertEntry name value entries).Pairwise (fun a b => a.1 < b.1) := by
  induction entries with
  | nil => simp [insertEntry]
  | cons first rest ih =>
    obtain ⟨hFirst, hRest⟩ := List.pairwise_cons.mp h
    rw [insertEntry]
    split
    · rename_i hLess
      refine List.pairwise_cons.mpr ⟨?_, h⟩
      intro entry hEntry
      rcases List.mem_cons.mp hEntry with rfl | hEntry
      · exact hLess
      · exact String.lt_trans hLess (hFirst entry hEntry)
    · rename_i hNotLess
      split
      · rename_i hEqual
        exact List.pairwise_cons.mpr ⟨fun entry hEntry => hEqual ▸ hFirst entry hEntry, hRest⟩
      · rename_i hDistinct
        refine List.pairwise_cons.mpr ⟨?_, ih hRest⟩
        intro entry hEntry
        rcases name_of_mem_insertEntry hEntry with hName | hEntry
        · rw [hName]
          exact Std.lt_of_le_of_ne (String.not_lt.mp hNotLess) (Ne.symm hDistinct)
        · exact hFirst entry hEntry

def insert (a : Attributes) (name value : String) : Attributes :=
  ⟨insertEntry name value a.entries, sorted_insertEntry name value a.sorted⟩

def single (name value : String) : Attributes := ⟨[(name, value)], by simp⟩

end Attributes

structure Snapshot where
  nodeType : String
  label : String
  span : Span
  attributes : Attributes := {}
  children : List Snapshot := []
deriving BEq

namespace Snapshot

def withAttribute (s : Snapshot) (name value : String) : Snapshot :=
  { s with attributes := s.attributes.insert name value }

def withChildren (s : Snapshot) (children : List Snapshot) : Snapshot :=
  { s with children := s.children ++ children }

def attributesOf : Content → Attributes
  | .space size => .single "size" (toString size)
  | .lineBreak count => .single "count" (toString count)
  | .string quote => .single "quote" quote.char.toString
  | .integer value => .single "value" (toString value)
  | .float value => .single "value" value.display
  | .percentage fraction => .single "value" fraction.display
  | .date value => .single "value" value.display
  | .dateTime value => .single "value" value.display
  | .error reason => .single "reason" reason.message
  | _ => {}

def labelOf : Node → String
  | .call c => c.name.text
  | node => node.text

def fromNodes : Fold Snapshot where
  token t := ⟨t.kind.name, t.text, t.span, attributesOf t.content, []⟩
  call c parameters := ⟨Kind.call.name, c.name.text, c.span, {}, parameters⟩
  statement s elements children :=
    { nodeType := Kind.statement.name
      label := (s.elements.head?.map labelOf).getD ""
      span := s.span
      attributes := .single "indent" (toString s.indent)
      children := elements ++ children }

def ofNode (n : Node) : Snapshot := n.fold fromNodes

def ofStatement (s : Statement) : Snapshot := s.fold fromNodes

def ofForest (forest : List Statement) : List Snapshot := forest.map ofStatement

def positionValue (p : Position) : Value :=
  .record [("row", .natural p.row), ("column", .natural p.column)]

def spanValue (s : Span) : Value :=
  .record [("start", positionValue s.start), ("end", positionValue s.stop)]

def attributesField (a : Attributes) : List (String × Value) :=
  if a.entries = [] then []
  else [("attributes", .record (a.entries.map fun entry => (entry.1, .text entry.2)))]

mutual

/-- Attributes and children are left out where there are none. -/
def toValue : Snapshot → Value
  | ⟨nodeType, label, span, attributes, children⟩ =>
    .record ([("node_type", .text nodeType), ("label", .text label), ("range", spanValue span)] ++
      attributesField attributes ++ childrenField children)

def childrenField : List Snapshot → List (String × Value)
  | [] => []
  | child :: children => [("children", .list (toValue child :: toValues children))]

def toValues : List Snapshot → List Value
  | [] => []
  | s :: rest => toValue s :: toValues rest

end

def position? (v : Value) : Option Position := do
  match ← v.fields? ["row", "column"] with
  | [some row, some column] => some ⟨← row.natural?, ← column.natural?⟩
  | _ => none

def span? (v : Value) : Option Span := do
  match ← v.fields? ["start", "end"] with
  | [some start, some stop] => some ⟨← position? start, ← position? stop⟩
  | _ => none

/-- Of two entries with one name the later one counts. -/
def attributes? : Option Value → Option Attributes
  | none => some {}
  | some (.record fields) =>
    fields.foldlM (fun a field => field.2.text?.map (a.insert field.1 ·)) {}
  | some _ => none

/-- Reads a snapshot of at most so many nested lists and records: itself, its range and the positions
there take three of them. -/
def ofValue? : Nat → Value → Option Snapshot
  | levels + 3, v => do
    match ← v.fields? ["node_type", "label", "range", "attributes", "children"] with
    | [some nodeType, some label, some range, attributes, children] =>
      let children ← match children with
        | none => some []
        | some (.list items) => items.mapM (ofValue? (levels + 1))
        | some _ => none
      some ⟨← nodeType.text?, ← label.text?, ← span? range, ← attributes? attributes, children⟩
    | _ => none
  | _, _ => none

/-- How many lists and records may be nested in what is read. -/
def maxNesting : Nat := 127

def listOfValue? : Value → Option (List Snapshot)
  | .list items => items.mapM (ofValue? (maxNesting - 1))
  | _ => none

def toJson (snapshots : List Snapshot) : String :=
  Json.render Json.pretty (.list (toValues snapshots))

def toCompactJson (s : Snapshot) : String := Json.render Json.compact (toValue s)

def ofJson? (text : String) : Option (List Snapshot) := do listOfValue? (← Json.parse? text)

def toYaml (snapshots : List Snapshot) : String := Yaml.render (.list (toValues snapshots))

end Snapshot
end Outline
