import Outline.Proofs.Builder.Structure

/-! # The rows of a forest

A statement holds its own row and, nested under it, the rows that are deeper. Read in the order of
the source, the rows of the finished statements are those that the builder has put together one by
one: to close a statement changes where its row is nested, but not the row.
-/
namespace Outline
set_option autoImplicit false

def OpenStatement.head (s : OpenStatement) : Nat × Option Token := (s.indent, s.tokens.head?)

namespace Statement

/-- A statement and those nested under it, in the order of the source. -/
def preorder (s : Statement) : List Statement :=
  s.fold
    { token := fun _ => []
      call := fun _ _ => []
      statement := fun s _ children => s :: children.flatten }

theorem preorder_eq (s : Statement) : s.preorder = s :: s.children.flatMap preorder := by
  rw [preorder, fold_def, List.flatMap_def]
  rfl

theorem mem_preorder_trans {s d e : Statement} (hd : d ∈ s.preorder) (he : e ∈ d.preorder) :
    e ∈ s.preorder := by
  rw [preorder_eq, List.mem_cons, List.mem_flatMap] at hd
  obtain rfl | ⟨c, hc, hd⟩ := hd
  · exact he
  · rw [preorder_eq]
    exact List.mem_cons_of_mem s (List.mem_flatMap.mpr ⟨c, hc, mem_preorder_trans hd he⟩)
termination_by sizeOf s
decreasing_by exact sizeOf_lt_of_mem_children hc

theorem Sound.preorder {s : Statement} (h : s.Sound) : ∀ t ∈ s.preorder, t.Sound := by
  induction h with
  | @intro s own hOwn hFactors hTokens hSpan hText hDeeper hChildren ih =>
    intro t ht
    rw [Statement.preorder_eq] at ht
    rcases List.mem_cons.mp ht with rfl | ht
    · exact .intro hOwn hFactors hTokens hSpan hText hDeeper hChildren
    · obtain ⟨child, hChild, ht⟩ := List.mem_flatMap.mp ht
      exact ih child hChild t ht

/-- The tokens of a statement that no statement nested under it has. -/
def own (s : Statement) : List Token :=
  s.tokens.take (s.tokens.length - (s.children.flatMap tokens).length)

def row (s : Statement) : OpenStatement :=
  { indent := s.indent, elements := s.elements, tokens := s.own }

def rows (s : Statement) : List OpenStatement := s.preorder.map row

theorem rows_eq (s : Statement) : s.rows = s.row :: s.children.flatMap rows := by
  rw [rows, preorder_eq, List.map_cons, List.map_flatMap]
  rfl

theorem own_eq {s : Statement} {own : List Token}
    (h : s.tokens = own ++ s.children.flatMap tokens) : s.own = own := by
  rw [Statement.own, h, List.length_append, Nat.add_sub_cancel, List.take_left]

theorem Sound.row {s : Statement} (h : s.Sound) : s.row.Fresh Node.Settled ∧ s.row.tokens ≠ [] ∧
    s.tokens = s.row.tokens ++ s.children.flatMap tokens := by
  obtain ⟨hOwn, hFactors, hTokens, _⟩ := h
  rw [← own_eq hTokens] at hOwn hFactors
  refine ⟨⟨hFactors, rfl⟩, hOwn, ?_⟩
  rw [Statement.row, own_eq hTokens]
  exact hTokens

theorem Sound.head_row {s : Statement} (h : s.Sound) : s.row.head = (s.indent, s.tokens.head?) := by
  obtain ⟨-, hRow, hTokens⟩ := h.row
  obtain ⟨first, rest, hCons⟩ := List.exists_cons_of_ne_nil hRow
  rw [OpenStatement.head, hTokens, hCons]
  rfl

end Statement

namespace OpenStatement

theorem row_adopt (s : OpenStatement) (child : Statement) :
    (s.adopt child).toStatement.row = s.toStatement.row := by
  have hLength : s.tokens.length - (s.children.flatMap Statement.tokens).length ≤
      s.tokens.length := Nat.sub_le _ _
  simp only [Statement.row, Statement.own, toStatement, adopt, List.flatMap_append,
    List.flatMap_singleton, List.length_append, Nat.add_sub_add_right,
    List.take_append_of_le_length hLength]

theorem rows_adopt (s : OpenStatement) (child : Statement) :
    (s.adopt child).toStatement.rows = s.toStatement.rows ++ child.rows := by
  rw [Statement.rows_eq, Statement.rows_eq, row_adopt]
  simp [toStatement, adopt]

theorem rows_eq_singleton {s : OpenStatement} (h : s.children = []) :
    s.toStatement.rows = [s] := by
  obtain ⟨indent, elements, children, tokens⟩ := s
  subst h
  simp [Statement.rows_eq, Statement.row, Statement.own, toStatement]

end OpenStatement

namespace Surroundings

def rows (around : Surroundings) : List OpenStatement :=
  around.finished.flatMap Statement.rows ++
    around.outer.reverse.flatMap fun s => s.toStatement.rows

theorem rows_go (indent : Nat) (around : Surroundings) (s : OpenStatement)
    (outer : List OpenStatement) :
    (close.go indent around s outer).rows =
      around.finished.flatMap Statement.rows ++
        (outer.reverse.flatMap fun s => s.toStatement.rows) ++ s.toStatement.rows := by
  induction outer generalizing s with
  | nil =>
    unfold close.go
    split <;> simp [rows]
  | cons parent outer ih =>
    unfold close.go
    split
    · simp [rows]
    · simp [ih, OpenStatement.rows_adopt]

theorem rows_close (indent : Nat) (s : OpenStatement) (around : Surroundings) :
    (around.close indent s).rows = around.rows ++ s.toStatement.rows :=
  rows_go indent around s around.outer

theorem finished_close_zero (s : OpenStatement) (around : Surroundings) :
    (around.close 0 s).finished.flatMap Statement.rows = around.rows ++ s.toStatement.rows := by
  rw [← rows_close 0 s around, rows, outer_close_zero]
  simp

end Surroundings

namespace Builder

/-- The rows that the statements would have if the input ended here. -/
def rows : Builder → List OpenStatement
  | .leading _ => []
  | .between around current => around.rows ++ current.toStatement.rows
  | .inside around line => around.rows ++ line.settle.toStatement.rows

theorem rows_finish (b : Builder) : b.finish.flatMap Statement.rows = b.rows := by
  cases b with
  | leading preamble => rfl
  | between around current => exact around.finished_close_zero current
  | inside around line => exact around.finished_close_zero line.settle

def isFresh : Builder → Bool
  | .leading _ | .between _ _ => true
  | .inside _ _ => false

theorem isFresh_push (b : Builder) (t : Token) :
    (b.push t).isFresh = (isLineBreak t || b.isFresh && !startsStatement t) := by
  have hBreak : isLineBreak t = true → startsStatement t = false := by
    intro h
    rw [isLineBreak_eq, decide_eq_true_eq] at h
    simp [startsStatement_eq, h]
  cases b with
  | leading preamble =>
    rw [push_leading]
    cases hStarts : startsStatement t <;> simp_all [isFresh, startLine]
  | between around current =>
    rw [push_between]
    cases hStarts : startsStatement t <;> simp_all [isFresh, startLine]
  | inside around line =>
    rw [push_inside]
    cases hLine : isLineBreak t <;> simp [isFresh]

end Builder

theorem OpenStatement.head_eq_of_append {s s' : OpenStatement} {t : Token} (hTokens : s.tokens ≠ [])
    (hIndent : s'.indent = s.indent) (h : s'.tokens = s.tokens ++ [t]) : s'.head = s.head := by
  obtain ⟨first, rest, hCons⟩ := List.exists_cons_of_ne_nil hTokens
  simp [head, hIndent, h, hCons]

namespace Builder

theorem heads_startLine (around : Surroundings) {t : Token} (ht : t.kind ≠ .lineBreak) :
    (startLine around t).rows.map OpenStatement.head =
      around.rows.map OpenStatement.head ++ [(indentOf t, some (Scan.start.mark t))] := by
  have hFollows : Scan.start.Follows { statement := { indent := indentOf t } } := ⟨rfl, rfl⟩
  have hLine := Line.sound_start (indentOf t)
  have hRecorded := Scan.recorded_push hFollows ht
  rw [← Line.tokens_settle] at hRecorded
  rw [startLine, rows, OpenStatement.rows_eq_singleton (hLine.push ht).settle.2, List.map_append,
    List.map_singleton, OpenStatement.head, Line.indent_settle, Line.indent_push, hRecorded]
  rfl

/-- A token adds a row where a line starts with it, and otherwise no row gets a new start. -/
theorem heads_push {b : Builder} (h : b.Sound) (t : Token) :
    (b.push t).rows.map OpenStatement.head = b.rows.map OpenStatement.head ++
      if b.isFresh && startsStatement t then [(indentOf t, some (Scan.start.mark t))] else [] := by
  cases b with
  | leading preamble =>
    rw [push_leading]
    cases hStarts : startsStatement t with
    | false => rfl
    | true =>
      have hAdded := heads_startLine { preamble } (kind_ne_of_startsStatement hStarts)
      simpa [isFresh, rows, Surroundings.rows] using hAdded
  | between around current =>
    obtain ⟨-, hFresh, hTokens, -⟩ := h
    rw [push_between]
    cases hStarts : startsStatement t with
    | false =>
      have hRecorded : (current.record t).children = [] := hFresh.2
      have hHead : (current.record t).head = current.head :=
        OpenStatement.head_eq_of_append hTokens rfl rfl
      simp only [Bool.and_false, Bool.false_eq_true, if_false, List.append_nil, rows,
        List.map_append]
      rw [OpenStatement.rows_eq_singleton hRecorded, OpenStatement.rows_eq_singleton hFresh.2,
        List.map_singleton, List.map_singleton, hHead]
    | true =>
      have hAdded := heads_startLine (around.close (indentOf t) current)
        (kind_ne_of_startsStatement hStarts)
      simpa [isFresh, rows, Surroundings.rows_close] using hAdded
  | inside around line =>
    obtain ⟨-, hLine, hTokens, -⟩ := h
    rw [← line.tokens_settle] at hTokens
    rw [push_inside_kind]
    -- Whether the line ends or goes on, its row has one more token at the end.
    suffices hRow : ∀ s : OpenStatement, s.children = [] → s.head = line.settle.head →
        (around.rows ++ s.toStatement.rows).map OpenStatement.head =
          (inside around line).rows.map OpenStatement.head ++ [] by
      split
      · exact hRow (line.settle.record t) hLine.settle.2
          (OpenStatement.head_eq_of_append hTokens rfl rfl)
      · rename_i hBreak
        obtain ⟨scan, hFollows⟩ := hLine.exists_follows
        have hPushed := Scan.recorded_push hFollows hBreak
        rw [← Line.tokens_settle, ← Line.tokens_settle] at hPushed
        refine hRow _ (hLine.push hBreak).settle.2
          (OpenStatement.head_eq_of_append hTokens ?_ hPushed)
        rw [Line.indent_settle, Line.indent_push, Line.indent_settle]
    intro s hChildren hHead
    rw [rows, OpenStatement.rows_eq_singleton hChildren,
      OpenStatement.rows_eq_singleton hLine.settle.2, List.append_nil, List.map_append,
      List.map_append, List.map_singleton, List.map_singleton, hHead]

end Builder

/-- The tokens that start a row, `fresh` if the first one may: they are the first of all or right
behind a line break, and neither line breaks nor comments. -/
def rowStarts (fresh : Bool) : List Token → List Token
  | [] => []
  | t :: tokens =>
    if fresh ∧ t.kind ≠ .lineBreak ∧ t.kind ≠ .comment then
      t :: rowStarts (t.kind = .lineBreak) tokens
    else rowStarts (t.kind = .lineBreak) tokens

def CommentsLast : List Token → Prop
  | [] => True
  | t :: tokens =>
    (t.kind = .comment → ∀ u ∈ tokens.head?, u.kind = .lineBreak) ∧ CommentsLast tokens

namespace Builder

theorem rowStarts_cons (fresh : Bool) (t : Token) (tokens : List Token) :
    rowStarts fresh (t :: tokens) =
      (if fresh && startsStatement t then [t] else []) ++
        rowStarts (t.kind = .lineBreak) tokens := by
  have hStarts : (fresh && startsStatement t) = true ↔
      fresh = true ∧ t.kind ≠ .lineBreak ∧ t.kind ≠ .comment := by
    simp [startsStatement_eq]
  rw [rowStarts]
  simp only [hStarts]
  split <;> rfl

/-- The builder starts a row wherever a token starts one, and there only. Behind a comment at the
start of a line it waits for a row longer than the rule does, but the line ends there. -/
theorem heads_pushAll {b : Builder} (h : b.Sound) {tokens : List Token}
    (hComments : CommentsLast tokens) {fresh : Bool}
    (hFresh : b.isFresh = fresh ∨ ∀ t ∈ tokens.head?, t.kind = .lineBreak) :
    (b.pushAll tokens).rows.map OpenStatement.head = b.rows.map OpenStatement.head ++
      (rowStarts fresh tokens).map fun t => (indentOf t, some (Scan.start.mark t)) := by
  induction tokens generalizing b fresh with
  | nil => simp [rowStarts]
  | cons t tokens ih =>
    obtain ⟨hComment, hRest⟩ := hComments
    have hSame : (b.isFresh && startsStatement t) = (fresh && startsStatement t) := by
      rcases hFresh with rfl | hBreak
      · rfl
      · simp [startsStatement_eq, hBreak t rfl]
    have hNext : (b.push t).isFresh = decide (t.kind = .lineBreak) ∨
        ∀ u ∈ tokens.head?, u.kind = .lineBreak := by
      rw [isFresh_push, isLineBreak_eq, startsStatement_eq]
      by_cases hKind : t.kind = .comment
      · exact .inr (hComment hKind)
      · left
        by_cases hBreak : t.kind = .lineBreak <;> simp [hBreak, hKind]
    rw [pushAll_cons, ih (h.push t) hRest hNext, heads_push h, hSame, rowStarts_cons,
      List.append_assoc, List.map_append]
    split <;> rfl

end Builder
end Outline
