import Outline.Proofs.Value.JsonRoundTrip
import Outline.Snapshot

/-! # Snapshots read back

The plain data of a snapshot gives the snapshot again, fields that are left out included, and its
JSON gives the data again. The reader takes no more than so many nested lists and records, and
positions of 64 bits.
-/
namespace Outline
set_option autoImplicit false

namespace Value

mutual

/-- How many lists and records are nested in a value. -/
def nesting : Value → Nat
  | .list items => nestingOfItems items + 1
  | .record fields => nestingOfFields fields + 1
  | .natural _ | .text _ | .other => 0

def nestingOfItems : List Value → Nat
  | [] => 0
  | item :: items => max (nesting item) (nestingOfItems items)

def nestingOfFields : List (String × Value) → Nat
  | [] => 0
  | (_, value) :: fields => max (nesting value) (nestingOfFields fields)

end

theorem nesting_list_le_iff {items : List Value} {n : Nat} :
    (Value.list items).nesting ≤ n + 1 ↔ ∀ v ∈ items, v.nesting ≤ n := by
  rw [nesting, Nat.add_le_add_iff_right]
  induction items with
  | nil => simp [nestingOfItems]
  | cons item items ih => rw [nestingOfItems, Nat.max_le, ih, List.forall_mem_cons]

theorem nesting_record_le_iff {fields : List (String × Value)} {n : Nat} :
    (Value.record fields).nesting ≤ n + 1 ↔ ∀ f ∈ fields, f.2.nesting ≤ n := by
  rw [nesting, Nat.add_le_add_iff_right]
  induction fields with
  | nil => simp [nestingOfFields]
  | cons field fields ih => rw [nestingOfFields, Nat.max_le, ih, List.forall_mem_cons]

end Value

def Span.fits (s : Span) : Bool :=
  [s.start.row, s.start.column, s.stop.row, s.stop.column].all (· < Json.wordSize)

/-- All rows and columns of a tree have 64 bits. -/
def spansFit : Fold Bool where
  token t := t.span.fits
  call c parameters := c.span.fits && parameters.all id
  statement s elements children := s.span.fits && elements.all id && children.all id

namespace Attributes

theorem insertEntry_concat {name value : String} {entries : List (String × String)}
    (h : ∀ e ∈ entries, e.1 < name) :
    insertEntry name value entries = entries ++ [(name, value)] := by
  induction entries with
  | nil => rfl
  | cons e entries ih =>
    obtain ⟨hFirst, hRest⟩ := List.forall_mem_cons.mp h
    have hLess : ¬ name < e.1 := String.lt_asymm hFirst
    have hEqual : name ≠ e.1 := by
      rintro rfl
      exact String.lt_irrefl _ hFirst
    rw [insertEntry, if_neg hLess, if_neg hEqual, ih hRest, List.cons_append]

theorem ext {a b : Attributes} (h : a.entries = b.entries) : a = b := by
  cases a
  cases b
  cases h
  rfl

end Attributes

namespace Snapshot

theorem foldlM_insert {entries : List (String × String)} {a : Attributes}
    (h : (a.entries ++ entries).Pairwise fun a b => a.1 < b.1) :
    ∃ b : Attributes, b.entries = a.entries ++ entries ∧
      (entries.map fun e => (e.1, Value.text e.2)).foldlM
        (fun (a : Attributes) field => field.2.text?.map (a.insert field.1 ·)) a = some b := by
  induction entries generalizing a with
  | nil => exact ⟨a, by simp, rfl⟩
  | cons e entries ih =>
    have hBefore : ∀ d ∈ a.entries, d.1 < e.1 := by
      intro d hd
      exact (List.pairwise_append.mp h).2.2 d hd e List.mem_cons_self
    have hInsert : (a.insert e.1 e.2).entries = a.entries ++ [e] :=
      Attributes.insertEntry_concat hBefore
    rw [List.append_cons, ← hInsert] at h
    obtain ⟨b, hEntries, hFold⟩ := ih h
    refine ⟨b, ?_, hFold⟩
    rw [hEntries, hInsert, ← List.append_cons]

def attributesValue? (a : Attributes) : Option Value :=
  if a.entries = [] then none
  else some (.record (a.entries.map fun entry => (entry.1, .text entry.2)))

theorem attributes?_attributesValue? (a : Attributes) :
    attributes? (attributesValue? a) = some a := by
  unfold attributesValue?
  split
  · rename_i hNone
    exact congrArg some (Attributes.ext hNone.symm)
  · have hSorted : (({} : Attributes).entries ++ a.entries).Pairwise fun a b => a.1 < b.1 :=
      a.sorted
    obtain ⟨b, hEntries, hFold⟩ := foldlM_insert hSorted
    exact hFold.trans (congrArg some (Attributes.ext hEntries))

theorem toValues_eq_map (snapshots : List Snapshot) :
    toValues snapshots = snapshots.map toValue := by
  induction snapshots with
  | nil => rw [toValues, List.map_nil]
  | cons s snapshots ih => rw [toValues, ih, List.map_cons]

def childrenValue? : List Snapshot → Option Value
  | [] => none
  | child :: children => some (.list (toValues (child :: children)))

theorem toValue_eq (s : Snapshot) : toValue s =
    .record ([("node_type", .text s.nodeType), ("label", .text s.label),
      ("range", spanValue s.span)] ++ (attributesValue? s.attributes).toList.map ("attributes", ·) ++
      (childrenValue? s.children).toList.map ("children", ·)) := by
  obtain ⟨nodeType, label, span, attributes, children⟩ := s
  have hAttributes : attributesField attributes =
      (attributesValue? attributes).toList.map ("attributes", ·) := by
    unfold attributesField attributesValue?
    split <;> rfl
  have hChildren : childrenField children =
      (childrenValue? children).toList.map ("children", ·) := by
    cases children <;> simp [childrenField, childrenValue?, toValues]
  rw [toValue, hAttributes, hChildren]

theorem span?_spanValue (s : Span) : span? (spanValue s) = some s := by
  simp [span?, spanValue, position?, positionValue, Value.fields?, Value.natural?]

theorem fields?_toValue (s : Snapshot) :
    (toValue s).fields? ["node_type", "label", "range", "attributes", "children"] =
      some [some (.text s.nodeType), some (.text s.label), some (spanValue s.span),
        attributesValue? s.attributes, childrenValue? s.children] := by
  rw [toValue_eq]
  cases attributesValue? s.attributes <;> cases childrenValue? s.children <;>
    simp [Value.fields?]

/-- A snapshot with its range takes three levels, and its children are two levels further in. -/
theorem exists_levels {s : Snapshot} {levels : Nat} (h : (toValue s).nesting ≤ levels) :
    ∃ k, levels = k + 3 ∧ ∀ child ∈ s.children, (toValue child).nesting ≤ k + 1 := by
  rw [toValue_eq] at h
  obtain ⟨m, rfl⟩ : ∃ m, levels = m + 1 := by
    cases levels with
    | zero => simp [Value.nesting] at h
    | succ m => exact ⟨m, rfl⟩
  have hFields := Value.nesting_record_le_iff.mp h
  have hRange : (spanValue s.span).nesting ≤ m :=
    hFields ("range", spanValue s.span) (by simp)
  have hTwo : (spanValue s.span).nesting = 2 := by
    simp [spanValue, positionValue, Value.nesting, Value.nestingOfFields]
  obtain ⟨k, rfl⟩ : ∃ k, m = k + 2 := ⟨m - 2, by omega⟩
  refine ⟨k, rfl, ?_⟩
  intro child hChild
  have hChildren : childrenValue? s.children = some (.list (toValues s.children)) := by
    cases hList : s.children with
    | nil => simp [hList] at hChild
    | cons first rest => rfl
  have hList : (Value.list (toValues s.children)).nesting ≤ k + 2 :=
    hFields ("children", .list (toValues s.children)) (by simp [hChildren])
  apply Value.nesting_list_le_iff.mp hList
  rw [toValues_eq_map]
  exact List.mem_map_of_mem hChild

theorem mapM_toValues {read : Value → Option Snapshot} {snapshots : List Snapshot}
    (h : ∀ s ∈ snapshots, read (toValue s) = some s) :
    (toValues snapshots).mapM read = some snapshots := by
  rw [toValues_eq_map]
  induction snapshots with
  | nil => rfl
  | cons s snapshots ih =>
    obtain ⟨hFirst, hRest⟩ := List.forall_mem_cons.mp h
    simp [hFirst, ih hRest]

theorem ofValue?_toValue {s : Snapshot} {levels : Nat} (h : (toValue s).nesting ≤ levels) :
    ofValue? levels (toValue s) = some s := by
  induction levels using Nat.strongRecOn generalizing s with
  | ind levels ih =>
    obtain ⟨k, rfl, hNesting⟩ := exists_levels h
    have hChildren : (toValues s.children).mapM (ofValue? (k + 1)) = some s.children := by
      apply mapM_toValues
      intro child hChild
      exact ih (k + 1) (by omega) (hNesting child hChild)
    rw [ofValue?, fields?_toValue]
    obtain ⟨nodeType, label, span, attributes, children⟩ := s
    cases children with
    | nil =>
      simp [childrenValue?, Value.text?, span?_spanValue, attributes?_attributesValue?]
    | cons child children =>
      simp [childrenValue?, Value.text?, span?_spanValue, attributes?_attributesValue?, hChildren]

theorem plain_spanValue {s : Span} (h : s.fits = true) : (spanValue s).Plain := by
  have hBounds : s.start.row < Json.wordSize ∧ s.start.column < Json.wordSize ∧
      s.stop.row < Json.wordSize ∧ s.stop.column < Json.wordSize := by simpa [Span.fits] using h
  obtain ⟨hRow, hColumn, hRow', hColumn'⟩ := hBounds
  have hPosition : ∀ p : Position, p.row < Json.wordSize → p.column < Json.wordSize →
      (positionValue p).Plain := by
    intro p hRow hColumn
    exact .record (by simpa using ⟨.natural hRow, .natural hColumn⟩)
  exact .record (by simpa using ⟨hPosition s.start hRow hColumn, hPosition s.stop hRow' hColumn'⟩)

theorem plain_toValue {s : Snapshot} (hSpan : s.span.fits = true)
    (hChildren : ∀ child ∈ s.children, (toValue child).Plain) : (toValue s).Plain := by
  have hAttributes : ∀ v ∈ attributesValue? s.attributes, v.Plain := by
    unfold attributesValue?
    split
    · simp
    · rintro v ⟨⟩
      apply Value.Plain.record
      intro f hf
      obtain ⟨e, -, rfl⟩ := List.mem_map.mp hf
      exact .text _
  have hItems : ∀ v ∈ childrenValue? s.children, v.Plain := by
    unfold childrenValue?
    split
    · simp
    · rename_i child children hList
      rintro v ⟨⟩
      rw [hList] at hChildren
      apply Value.Plain.list
      simpa [toValues_eq_map] using hChildren
  rw [toValue_eq]
  apply Value.Plain.record
  intro f hf
  simp only [List.mem_append, List.mem_cons, List.not_mem_nil, or_false, List.mem_map,
    Option.mem_toList] at hf
  rcases hf with (((rfl | rfl | rfl) | ⟨v, hv, rfl⟩) | ⟨v, hv, rfl⟩)
  · exact .text _
  · exact .text _
  · exact plain_spanValue hSpan
  · exact hAttributes v hv
  · exact hItems v hv

theorem plain_ofNode (n : Node) (h : n.fold spansFit = true) : (toValue (ofNode n)).Plain := by
  induction n using Node.inductAll with
  | token t =>
    rw [ofNode, Node.fold_token] at *
    exact plain_toValue h (by simp [fromNodes])
  | call c ih =>
    rw [Node.fold_call, Call.fold_def] at h
    have hParts : c.span.fits = true ∧ ∀ n ∈ c.parameters, n.fold spansFit = true := by
      simpa [spansFit] using h
    rw [ofNode, Node.fold_call, Call.fold_def]
    apply plain_toValue hParts.1
    intro child hChild
    obtain ⟨n, hn, rfl⟩ := List.mem_map.mp hChild
    exact ih n hn (hParts.2 n hn)
  | statement s ihElements ihChildren =>
    rw [Node.fold_statement, Statement.fold_def] at h
    have hParts : (s.span.fits = true ∧ ∀ n ∈ s.elements, n.fold spansFit = true) ∧
        ∀ child ∈ s.children, child.fold spansFit = true := by
      simpa [spansFit] using h
    obtain ⟨⟨hSpan, hElements⟩, hChildren⟩ := hParts
    rw [ofNode, Node.fold_statement, Statement.fold_def]
    apply plain_toValue hSpan
    intro child hChild
    rcases List.mem_append.mp hChild with hChild | hChild
    · obtain ⟨n, hn, rfl⟩ := List.mem_map.mp hChild
      exact ihElements n hn (hElements n hn)
    · obtain ⟨c, hc, rfl⟩ := List.mem_map.mp hChild
      have hPlain := ihChildren c hc
      rw [ofNode, Node.fold_statement, Node.fold_statement] at hPlain
      exact hPlain (hChildren c hc)

/-- The JSON of a forest gives its snapshots again. -/
theorem ofJson?_toJson_ofForest (forest : List Statement)
    (hFits : ∀ s ∈ forest, s.fold spansFit = true)
    (hNesting : (Value.list (toValues (ofForest forest))).nesting < 128) :
    ofJson? (toJson (ofForest forest)) = some (ofForest forest) := by
  have hPlain : (Value.list (toValues (ofForest forest))).Plain := by
    apply Value.Plain.list
    rw [toValues_eq_map, ofForest]
    intro v hv
    obtain ⟨snapshot, hSnapshot, rfl⟩ := List.mem_map.mp hv
    obtain ⟨s, hs, rfl⟩ := List.mem_map.mp hSnapshot
    have hPlain := plain_ofNode (.statement s)
    rw [ofNode, Node.fold_statement, Node.fold_statement] at hPlain
    exact hPlain (hFits s hs)
  have hItems : (toValues (ofForest forest)).mapM (ofValue? (maxNesting - 1)) =
      some (ofForest forest) := by
    apply mapM_toValues
    intro s hs
    apply ofValue?_toValue
    apply Value.nesting_list_le_iff.mp (Nat.le_of_lt_succ hNesting)
    rw [toValues_eq_map]
    exact List.mem_map_of_mem hs
  rw [ofJson?, toJson, Json.parse?_render Json.blank_pretty hPlain]
  exact hItems

/-- A statement that no source gives: it ends in the last row there is, before its start, and has
another statement among its elements whose text is escaped in every way. -/
def handMade : Statement where
  indent := 0xffffffffffffffff
  span := ⟨⟨0xffffffffffffffff, 0⟩, ⟨0, 0xffffffffffffffff⟩⟩
  text := ""
  elements :=
    [.statement
      { indent := 0
        span := ⟨.origin, .origin⟩
        text := "\x00\x1f\t\"\\/\u2028😀"
        elements := [.token ⟨.error .unexpectedToken, ⟨.origin, .origin⟩, "\x7f"⟩]
        children := []
        tokens := [] }]
  children := []
  tokens := []

theorem ofJson?_toJson_handMade :
    (∀ s ∈ [handMade], s.fold spansFit = true) ∧
      (Value.list (toValues (ofForest [handMade]))).nesting = 8 ∧
      ofJson? (toJson (ofForest [handMade])) = some (ofForest [handMade]) := by
  have hFits : ∀ s ∈ [handMade], s.fold spansFit = true := by decide +kernel
  have hNesting : (Value.list (toValues (ofForest [handMade]))).nesting = 8 := by decide +kernel
  refine ⟨hFits, hNesting, ofJson?_toJson_ofForest [handMade] hFits ?_⟩
  omega

end Snapshot
end Outline
