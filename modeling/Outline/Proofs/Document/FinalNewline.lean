import Outline.Proofs.Document.Acceptance
import Outline.Proofs.Lexing.FinalNewline

/-! # A line feed at the end of a source

The end of the input ends a line as a line break does. So a source and the source with one more line
feed give the same statements, and the line break at the end belongs to those that are open there.
-/
namespace Outline
set_option autoImplicit false

namespace Statement

/-- The statements are the same apart from those nested under them and from their last tokens: one
has `old` there, and the other `new`. Text and span follow from the tokens. -/
structure SameRow (old new : List Token) (s s' : Statement) : Prop where
  indent : s.indent = s'.indent
  elements : s.elements = s'.elements
  start : s.span.start = s'.span.start
  tokens : ∃ run, s.tokens = run ++ old ∧ s'.tokens = run ++ new
  text : s.text = Token.joinedText s.tokens ∧ s'.text = Token.joinedText s'.tokens
  span : s.span = Token.spanOf s.tokens ∧ s'.span = Token.spanOf s'.tokens

/-- The statements differ at their ends only: so do the last ones nested under them, and all the
others are equal. -/
inductive SameButEnd (old new : List Token) : Statement → Statement → Prop where
  | innermost {s s' : Statement} : SameRow old new s s' → s.children = [] → s'.children = [] →
      SameButEnd old new s s'
  | outer {s s' last last' : Statement} {earlier : List Statement} : SameRow old new s s' →
      s.children = earlier ++ [last] → s'.children = earlier ++ [last'] →
      SameButEnd old new last last' → SameButEnd old new s s'

variable {old new : List Token} {s s' : Statement}

theorem SameButEnd.sameRow (h : SameButEnd old new s s') : SameRow old new s s' := by
  cases h with
  | innermost hRow _ _ => exact hRow
  | outer hRow _ _ _ => exact hRow

theorem SameButEnd.unterminated_eq (h : SameButEnd old new s s') :
    s.unterminated = s'.unterminated := by
  induction h with
  | innermost hRow hChildren hChildren' =>
    rw [Statement.unterminated_eq, Statement.unterminated_eq, hRow.elements, hChildren, hChildren']
  | outer hRow hChildren hChildren' _ ih =>
    rw [Statement.unterminated_eq, Statement.unterminated_eq, hRow.elements, hChildren, hChildren']
    simp [ih]

theorem count_eq (s : Statement) :
    s.count = (s.children.map Statement.count).foldr (· + ·) 1 := by
  rw [count, fold_def]
  rfl

theorem SameButEnd.count_eq (h : SameButEnd old new s s') : s.count = s'.count := by
  induction h with
  | innermost _ hChildren hChildren' =>
    rw [Statement.count_eq, Statement.count_eq, hChildren, hChildren']
  | outer _ hChildren hChildren' _ ih =>
    rw [Statement.count_eq, Statement.count_eq, hChildren, hChildren']
    simp [ih]

theorem SameButEnd.errorsOf_eq (h : SameButEnd old new s s') (hOld : ∀ t ∈ old, t.kind = .lineBreak)
    (hNew : ∀ t ∈ new, t.kind = .lineBreak) : Document.errorsOf s = Document.errorsOf s' := by
  obtain ⟨run, hTokens, hTokens'⟩ := h.sameRow.tokens
  have hNone : ∀ tokens : List Token, (∀ t ∈ tokens, t.kind = .lineBreak) →
      tokens.filter Token.isError = [] := by
    intro tokens hBreaks
    rw [List.filter_eq_nil_iff]
    intro t ht
    simp [Token.isError_eq, hBreaks t ht]
  rw [Document.errorsOf, Document.errorsOf, h.unterminated_eq, hTokens, hTokens',
    List.filter_append, List.filter_append, hNone old hOld, hNone new hNew]

end Statement

/-- The documents differ in their last tokens, which belong to the last statement and to those open
inside it, or to the preamble if there is no statement. -/
inductive Document.SameButEnd (old new : List Token) (d d' : Document) : Prop where
  | preamble (run : List Token) : d.statements = [] → d'.statements = [] →
      d.preamble = run ++ old → d'.preamble = run ++ new → SameButEnd old new d d'
  | statements (earlier : List Statement) (last last' : Statement) : d.preamble = d'.preamble →
      d.statements = earlier ++ [last] → d'.statements = earlier ++ [last'] →
      last.SameButEnd old new last' → SameButEnd old new d d'

namespace Document.SameButEnd
variable {old new : List Token} {d d' : Document}

theorem errors_eq (h : d.SameButEnd old new d') (hOld : ∀ t ∈ old, t.kind = .lineBreak)
    (hNew : ∀ t ∈ new, t.kind = .lineBreak) : d.errors = d'.errors := by
  cases h with
  | preamble _ hStatements hStatements' _ _ => rw [errors, errors, hStatements, hStatements']
  | statements earlier last last' _ hStatements hStatements' hLast =>
    rw [errors, errors, hStatements, hStatements', List.flatMap_append, List.flatMap_append,
      List.flatMap_singleton, List.flatMap_singleton, hLast.errorsOf_eq hOld hNew]

theorem statementCount_eq (h : d.SameButEnd old new d') : d.statementCount = d'.statementCount := by
  cases h with
  | preamble _ hStatements hStatements' _ _ =>
    rw [statementCount, statementCount, hStatements, hStatements']
  | statements earlier last last' _ hStatements hStatements' hLast =>
    rw [statementCount, statementCount, hStatements, hStatements', List.map_append, List.map_append,
      List.map_singleton, List.map_singleton, hLast.count_eq]

end Document.SameButEnd

theorem Token.start_spanOf_append {tokens : List Token} (h : tokens ≠ []) (more : List Token) :
    (spanOf (tokens ++ more)).start = (spanOf tokens).start := by
  obtain ⟨first, rest, rfl⟩ := List.exists_cons_of_ne_nil h
  rw [start_spanOf (t := first) rfl, start_spanOf (t := first) rfl]

namespace OpenStatement
variable {s : OpenStatement} {old new : List Token}

def recordAll (s : OpenStatement) (tokens : List Token) : OpenStatement :=
  { s with tokens := s.tokens ++ tokens }

theorem sameButEnd_recordAll (hTokens : s.tokens ≠ []) (hChildren : s.children = []) :
    (s.recordAll old).toStatement.SameButEnd old new (s.recordAll new).toStatement := by
  refine .innermost ⟨rfl, rfl, ?_, ⟨s.tokens, rfl, rfl⟩, ⟨rfl, rfl⟩, rfl, rfl⟩ hChildren hChildren
  exact (Token.start_spanOf_append hTokens old).trans (Token.start_spanOf_append hTokens new).symm

/-- A statement ends where the one that it takes in does. -/
theorem sameButEnd_adopt (hTokens : s.tokens ≠ []) {child child' : Statement}
    (h : child.SameButEnd old new child') :
    (s.adopt child).toStatement.SameButEnd old new (s.adopt child').toStatement := by
  obtain ⟨run, hRun, hRun'⟩ := h.sameRow.tokens
  refine .outer ⟨rfl, rfl, ?_, ⟨s.tokens ++ run, ?_, ?_⟩, ⟨rfl, rfl⟩, rfl, rfl⟩ rfl rfl h
  · exact (Token.start_spanOf_append hTokens _).trans (Token.start_spanOf_append hTokens _).symm
  · simp [toStatement, adopt, hRun]
  · simp [toStatement, adopt, hRun']

end OpenStatement

namespace Surroundings
variable {around : Surroundings} {old new : List Token} {s s' : OpenStatement}

theorem sameButEnd_go {outer : List OpenStatement} (hOuter : ∀ p ∈ outer, p.tokens ≠ [])
    (h : s.toStatement.SameButEnd old new s'.toStatement) :
    ∃ last last', (close.go 0 around s outer).finished = around.finished ++ [last] ∧
      (close.go 0 around s' outer).finished = around.finished ++ [last'] ∧
      last.SameButEnd old new last' := by
  induction outer generalizing s s' with
  | nil => exact ⟨s.toStatement, s'.toStatement, by simp [close.go], by simp [close.go], h⟩
  | cons parent outer ih =>
    obtain ⟨hParent, hRest⟩ := List.forall_mem_cons.mp hOuter
    simp only [close.go, Nat.not_lt_zero, if_false]
    exact ih hRest (OpenStatement.sameButEnd_adopt hParent h)

end Surroundings

namespace Builder
variable {around : Surroundings} {old new tokens : List Token}

def document (b : Builder) (all : List Token) : Document := ⟨all, b.preamble, b.finish⟩

theorem leading_pushAll (preamble : List Token) (h : ∀ t ∈ tokens, t.kind = .lineBreak) :
    (leading preamble).pushAll tokens = .leading (preamble ++ tokens) := by
  induction tokens generalizing preamble with
  | nil => simp
  | cons t tokens ih =>
    obtain ⟨hFirst, hRest⟩ := List.forall_mem_cons.mp h
    simp [push_leading, startsStatement_eq, hFirst, ih _ hRest]

theorem between_pushAll (current : OpenStatement) (h : ∀ t ∈ tokens, t.kind = .lineBreak) :
    (between around current).pushAll tokens = .between around (current.recordAll tokens) := by
  induction tokens generalizing current with
  | nil => simp [OpenStatement.recordAll]
  | cons t tokens ih =>
    obtain ⟨hFirst, hRest⟩ := List.forall_mem_cons.mp h
    simp [push_between, startsStatement_eq, hFirst, ih _ hRest, OpenStatement.recordAll,
      OpenStatement.record]

/-- The end of the input ends a line as a line break does. -/
theorem document_inside (line : Line) (h : ∀ t ∈ tokens, t.kind = .lineBreak) (all : List Token) :
    ((inside around line).pushAll tokens).document all =
      ((between around line.settle).pushAll tokens).document all := by
  cases tokens with
  | nil => rfl
  | cons t tokens =>
    have hFirst := h t List.mem_cons_self
    simp [push_inside_kind, push_between, startsStatement_eq, hFirst]

theorem sameButEnd_between {current : OpenStatement} (hAround : around.Sound)
    (hFresh : current.Fresh Node.Settled) (hTokens : current.tokens ≠ [])
    (hOld : ∀ t ∈ old, t.kind = .lineBreak) (hNew : ∀ t ∈ new, t.kind = .lineBreak)
    (all all' : List Token) :
    (((between around current).pushAll old).document all).SameButEnd old new
      (((between around current).pushAll new).document all') := by
  rw [between_pushAll current hOld, between_pushAll current hNew]
  have hOuter : ∀ p ∈ around.outer, p.tokens ≠ [] := by
    intro p hp
    obtain ⟨own, hOwn, -, hRecorded⟩ := (hAround.outer p hp).tokens
    simp [hRecorded, hOwn]
  have hCurrent : (current.recordAll old).toStatement.SameButEnd old new
      (current.recordAll new).toStatement := current.sameButEnd_recordAll hTokens hFresh.2
  obtain ⟨last, last', hFinished, hFinished', hLast⟩ := around.sameButEnd_go hOuter hCurrent
  exact .statements around.finished last last' rfl hFinished hFinished' hLast

/-- Line breaks at the end of the input matter only to the statements that are open there. -/
theorem Sound.sameButEnd {b : Builder} (h : b.Sound) (hOld : ∀ t ∈ old, t.kind = .lineBreak)
    (hNew : ∀ t ∈ new, t.kind = .lineBreak) (all all' : List Token) :
    ((b.pushAll old).document all).SameButEnd old new ((b.pushAll new).document all') := by
  cases b with
  | leading preamble =>
    rw [leading_pushAll preamble hOld, leading_pushAll preamble hNew]
    exact .preamble preamble rfl rfl rfl rfl
  | between around current =>
    obtain ⟨hAround, hFresh, hTokens, -⟩ := h
    exact sameButEnd_between hAround hFresh hTokens hOld hNew all all'
  | inside around line =>
    obtain ⟨hAround, hLine, hTokens, -⟩ := h
    rw [← line.tokens_settle] at hTokens
    rw [document_inside line hOld, document_inside line hNew]
    exact sameButEnd_between hAround hLine.settle hTokens hOld hNew all all'

end Builder

theorem Token.kind_of_mem_lineBreaks {p : Position} {n : Nat} :
    ∀ t ∈ Token.lineBreaks p n, t.kind = .lineBreak := by
  cases n with
  | zero => simp [lineBreaks]
  | succ n => simp [lineBreaks, kind, Content.kind]

/-- A line feed at the end of a source that does not end in a carriage return changes no error, no
element and no statement. It makes the last line break longer, or adds one, and this token is the
only difference in the statements that are open at the end. -/
theorem parse_append_lineFeed (source : String) (h : source.toList.getLast? ≠ some '\r') :
    (Document.parse (source ++ "\n")).errors = (Document.parse source).errors ∧
      (Document.parse (source ++ "\n")).statementCount = (Document.parse source).statementCount ∧
      ∃ front p n, (Document.parse source).tokens = front ++ Token.lineBreaks p n ∧
        (Document.parse (source ++ "\n")).tokens = front ++ Token.lineBreaks p (n + 1) ∧
        (Document.parse source).SameButEnd (Token.lineBreaks p n) (Token.lineBreaks p (n + 1))
          (Document.parse (source ++ "\n")) := by
  obtain ⟨front, p, n, hOld, hNew⟩ := tokenize_append_lineFeed h
  have hStart : Builder.empty.Sound := trivial
  have hSame := (hStart.pushAll front).sameButEnd (@Token.kind_of_mem_lineBreaks p n)
    (@Token.kind_of_mem_lineBreaks p (n + 1)) (tokenize source) (tokenize (source ++ "\n"))
  rw [← Builder.pushAll_append, ← Builder.pushAll_append, ← hOld, ← hNew] at hSame
  have hErrors := hSame.errors_eq Token.kind_of_mem_lineBreaks Token.kind_of_mem_lineBreaks
  exact ⟨hErrors.symm, hSame.statementCount_eq.symm, front, p, n, hOld, hNew, hSame⟩

/-- A call that is open at the end, nested under a statement that stays open too. -/
theorem parse_append_lineFeed_open_call :
    "a\n  f(b, // c".toList.getLast? ≠ some '\r' ∧
      (Document.parse "a\n  f(b, // c\n").errors = (Document.parse "a\n  f(b, // c").errors ∧
      (Document.parse "a\n  f(b, // c").errors.length = 1 ∧
      (Document.parse "a\n  f(b, // c\n").statementCount = 2 := by
  have hEnd : "a\n  f(b, // c".toList.getLast? ≠ some '\r' := by decide
  obtain ⟨hErrors, hCount, -⟩ := parse_append_lineFeed "a\n  f(b, // c" hEnd
  refine ⟨hEnd, hErrors, by decide +kernel, ?_⟩
  exact hCount.trans (by decide +kernel)

end Outline
