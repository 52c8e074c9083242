import Outline.Proofs.Builder.Machine
import Outline.Proofs.Document.Factoring

/-! # The machine agrees with the builder

Each state of the builder has a state of the machine that says the same in fields. From there the
machine goes on with every token, and with the end of the input, to the state that the builder goes
on to, so it never stops with a lapse. Whatever is closed on the way holds a token: a call has its
name, and a statement has the token that started its line.
-/
namespace Outline
set_option autoImplicit false

namespace Line

def mode (l : Line) : Mode := if l.calls = [] then .statement else .call

theorem mode_congr {l l' : Line} (h : l'.calls.length = l.calls.length) : l'.mode = l.mode := by
  unfold mode
  simp only [← List.length_eq_zero_iff, h]

theorem flush_of_calls_eq_nil {l : Line} (h : l.calls = []) :
    l.flush = { statement := l.settle } := by
  obtain ⟨statement, calls, _ | p⟩ := l
  · cases h
    rfl
  · cases h
    suffices hRecords : ∀ (s : OpenStatement) (tokens : List Token),
        tokens.foldl record { statement := s } =
          { statement := tokens.foldl OpenStatement.record s } from hRecords _ p.trailing
    intro s tokens
    induction tokens generalizing s with
    | nil => rfl
    | cons t tokens ih => exact ih _

theorem flush_calls_ne_nil {l : Line} (h : l.calls ≠ []) : l.flush.calls ≠ [] := by
  rw [← List.length_pos_iff] at h ⊢
  rwa [length_calls_flush]

end Line

namespace Machine

def ofSurroundings (around : Surroundings) (mode : Mode) : Machine :=
  { forest := around.finished, statements := around.outer, preamble := around.preamble, mode }

/-- A line is open; the mode is free, for it lags behind while a token is taken. -/
def ofLine (around : Surroundings) (mode : Mode) (l : Line) : Machine :=
  { forest := around.finished
    statements := l.statement :: around.outer
    calls := l.calls
    pending := l.pending
    preamble := around.preamble
    mode }

section Lines
variable (around : Surroundings) (mode : Mode)

theorem record_ofLine (l : Line) (t : Token) :
    (ofLine around mode l).record t = ofLine around mode (l.record t) := by
  unfold record Line.record
  cases hCalls : l.calls <;> simp [ofLine, hCalls]

theorem foldl_record_ofLine (l : Line) (tokens : List Token) :
    tokens.foldl record (ofLine around mode l) =
      ofLine around mode (tokens.foldl Line.record l) := by
  induction tokens generalizing l with
  | nil => rfl
  | cons t tokens ih => rw [List.foldl_cons, record_ofLine, ih, List.foldl_cons]

theorem place_ofLine (l : Line) (node : Node) (tokens : List Token) :
    (ofLine around mode l).place node tokens = .ok (ofLine around mode (l.place node tokens)) := by
  unfold place Line.place
  cases hCalls : l.calls <;> simp [ofLine, hCalls]

theorem commit_ofLine (l : Line) (t : Token) :
    (ofLine around mode l).commit t = .ok (ofLine around mode (l.commit t)) :=
  place_ofLine around mode l (.token t) [t]

theorem flush_ofLine (l : Line) :
    (ofLine around mode l).flush = .ok (ofLine around mode l.flush) := by
  obtain ⟨statement, calls, _ | p⟩ := l
  · rfl
  · have hCommit := commit_ofLine around mode { statement, calls } p.identity
    change (ofLine around mode { statement, calls }).commit p.identity >>= _ = _
    rw [hCommit, ok_bind, foldl_record_ofLine]
    rfl

theorem sealed_of_ne_nil {α : Type} {tokens : List Token} (h : tokens ≠ []) (result : α) :
    sealed tokens result = .ok result := if_neg h

theorem abandonCall_ofLine (l : Line) {c : OpenCall} (hTokens : c.tokens ≠ [])
    (outer : List OpenCall) :
    (ofLine around mode l).abandonCall c outer =
      .ok (ofLine around mode
        ({ l with calls := outer }.place (.token c.unterminated) c.tokens)) := by
  rw [abandonCall, sealed_of_ne_nil hTokens, ok_bind]
  exact place_ofLine around mode { l with calls := outer } _ _

theorem abandonCalls_ofLine {l : Line} (h : ∀ c ∈ l.calls, c.tokens ≠ []) :
    (ofLine around mode l).abandonCalls =
      .ok (ofLine around (if mode = .call then .statement else mode)
        { statement := l.givenUp, pending := l.pending }) := by
  have hNone : ∀ s : OpenStatement,
      (ofLine around mode { statement := s, pending := l.pending }).abandonCalls =
        .ok (ofLine around (if mode = .call then .statement else mode)
          { statement := s, pending := l.pending }) := by
    intro s
    rw [abandonCalls_of_nil rfl]
    cases mode <;> rfl
  suffices hSome : ∀ c outer, c.tokens ≠ [] →
      (ofLine around mode { l with calls := c :: outer }).abandonCalls =
        .ok (ofLine around (if mode = .call then .statement else mode)
          { statement := l.statement.abandon c outer, pending := l.pending }) by
    obtain ⟨statement, _ | ⟨c, outer⟩, pending⟩ := l
    · exact hNone statement
    · exact hSome c outer (h c List.mem_cons_self)
  intro c outer hTokens
  induction outer generalizing c with
  | nil =>
    rw [abandonCalls_of_cons rfl, abandonCall_ofLine around mode _ hTokens, ok_bind]
    exact hNone _
  | cons parent outer ih =>
    -- The call around takes the tokens over, so it is not empty either.
    rw [abandonCalls_of_cons rfl, abandonCall_ofLine around mode _ hTokens, ok_bind]
    exact ih _ (by simp [OpenCall.place, hTokens])

theorem settled_ofLine {l : Line} (h : ∀ c ∈ l.calls, c.tokens ≠ []) :
    (ofLine around mode l).abandonCalls >>= flush =
      .ok (ofLine around (if mode = .call then .statement else mode)
        { statement := l.settle }) := by
  rw [abandonCalls_ofLine around mode h, ok_bind, flush_ofLine, Line.flush_of_calls_eq_nil rfl]
  rfl

theorem closeInnermost_ofLine {s : OpenStatement} (h : s.tokens ≠ []) :
    (ofLine around mode { statement := s }).closeInnermost = .ok
      (match around.outer with
      | [] => ofSurroundings { around with finished := around.finished ++ [s.toStatement] } mode
      | parent :: outer =>
        ofLine { around with outer } mode { statement := parent.adopt s.toStatement }) := by
  have hSealed := sealed_of_ne_nil h s.toStatement
  obtain ⟨preamble, finished, _ | ⟨parent, outer⟩⟩ := around
  · change sealed s.tokens s.toStatement >>= _ = _
    rw [hSealed]
    rfl
  · change sealed s.tokens s.toStatement >>= _ = _
    rw [hSealed]
    rfl

theorem closeWhile_ofLine (indent : Nat) {s : OpenStatement} (h : s.tokens ≠ []) :
    (ofLine around mode { statement := s }).closeWhile (fun p => indent ≤ p.indent) =
      .ok (ofSurroundings (around.close indent s) mode) := by
  have hStep : ∀ s outer,
      (ofLine { around with outer } mode { statement := s }).closeWhile
          (fun p => indent ≤ p.indent) =
        if s.indent < indent then .ok (ofSurroundings { around with outer := s :: outer } mode)
        else (ofLine { around with outer } mode { statement := s }).closeInnermost >>=
          closeWhile fun p => indent ≤ p.indent := by
    intro s outer
    rw [closeWhile_eq]
    change (if decide (indent ≤ s.indent) = true then _ else _) = _
    by_cases hIndent : s.indent < indent
    · rw [if_neg (by simpa using hIndent), if_pos hIndent]
      rfl
    · rw [if_pos (by simpa using hIndent), if_neg hIndent]
  suffices hGo : ∀ s outer, s.tokens ≠ [] →
      (ofLine { around with outer } mode { statement := s }).closeWhile
          (fun p => indent ≤ p.indent) =
        .ok (ofSurroundings (Surroundings.close.go indent around s outer) mode) from
    hGo s around.outer h
  intro s outer hTokens
  induction outer generalizing s with
  | nil =>
    rw [hStep, Surroundings.close.go]
    split
    · rfl
    · rw [closeInnermost_ofLine _ mode hTokens, ok_bind, closeWhile_eq]
      rfl
  | cons parent outer ih =>
    rw [hStep, Surroundings.close.go]
    split
    · rfl
    · -- The parent takes the tokens over as well.
      rw [closeInnermost_ofLine _ mode hTokens, ok_bind]
      apply ih
      simp [OpenStatement.adopt, OpenStatement.toStatement, hTokens]

end Lines

theorem closeWhile_true (m : Machine) :
    m.closeWhile (fun _ => true) = m.closeWhile fun p => 0 ≤ p.indent := by
  simp only [Nat.zero_le, decide_true]

/-- A line is open, and the mode says whether a call is. -/
def inLine (around : Surroundings) (l : Line) : Machine := ofLine around l.mode l

section Inside
variable (around : Surroundings)

theorem inLine_congr {l l' : Line} (h : l'.calls.length = l.calls.length) :
    ofLine around l.mode l' = inLine around l' := by
  rw [inLine, Line.mode_congr h]

theorem flush_inLine (l : Line) :
    (inLine around l).flush = .ok (inLine around l.flush) := by
  rw [inLine, flush_ofLine, inLine_congr around l.length_calls_flush]

theorem record_inLine (l : Line) (t : Token) :
    (inLine around l).record t = inLine around (l.record t) := by
  rw [inLine, record_ofLine, inLine_congr around (l.length_calls_record t)]

theorem commit_inLine (l : Line) (t : Token) :
    (inLine around l).commit t = .ok (inLine around (l.commit t)) := by
  rw [inLine, commit_ofLine, Line.commit, inLine_congr around (l.length_calls_place _ _)]

theorem trivia_inLine (l : Line) (t : Token) :
    (inLine around l).trivia t = inLine around (l.trivia t) := by
  obtain ⟨statement, calls, _ | p⟩ := l
  · exact record_inLine around _ t
  · rfl

theorem parenthesisOpen_inLine (l : Line) (t : Token) :
    (inLine around l).parenthesisOpen t = .ok (inLine around (l.openCall t)) := by
  obtain ⟨statement, calls, _ | p⟩ := l
  · exact commit_inLine around _ _
  · rfl

theorem contentToken_inLine (l : Line) {t : Token}
    (hClose : t.content ≠ .parenthesisClose) (hComma : t.content ≠ .comma) :
    (inLine around l).contentToken t = .ok (inLine around (l.push t)) := by
  rw [contentToken]
  split
  · rename_i hContent
    have hPush : l.push t = l.trivia t := by rw [Line.push, hContent]
    rw [hPush, trivia_inLine]
  · rename_i hContent
    have hPush : l.push t = l.trivia t := by rw [Line.push, hContent]
    rw [hPush, trivia_inLine]
  · rename_i hContent
    rw [Line.push, hContent, flush_inLine]
    rfl
  · rename_i hContent
    have hPush : l.push t = l.openCall t := by rw [Line.push, hContent]
    rw [hPush, parenthesisOpen_inLine]
  · have hPush : l.push t = l.flush.commit t := by
      rw [Line.push]
      split <;> simp_all
    rw [hPush, flush_inLine, ok_bind, commit_inLine]

theorem closeCall_inLine {l : Line} (hCalls : l.calls ≠ []) (t : Token) :
    (inLine around l).closeCall t = .ok (inLine around (l.flush.closeCall t)) := by
  have hMode : ∀ l : Line, (if (ofLine around .call l).calls = []
      then { ofLine around .call l with mode := .statement } else ofLine around .call l) =
        inLine around l := by
    intro l
    rw [inLine, Line.mode]
    change (if l.calls = [] then _ else _) = _
    split <;> rfl
  rw [closeCall, flush_inLine, ok_bind]
  have hFlush := l.flush_calls_ne_nil hCalls
  generalize l.flush = flushed at hFlush ⊢
  obtain ⟨statement, _ | ⟨c, outer⟩, pending⟩ := flushed
  · exact absurd rfl hFlush
  · have hTokens : (c.record t).tokens ≠ [] := by simp [OpenCall.record]
    change sealed (c.record t).tokens (c.record t).toCall >>= _ = _
    rw [sealed_of_ne_nil hTokens, ok_bind]
    change (ofLine around .call ⟨statement, outer, pending⟩).place _ _ >>= _ = _
    rw [place_ofLine, ok_bind, hMode]
    rfl

def ofBuilder : Builder → Machine
  | .leading preamble => { preamble }
  | .between around current => ofLine around .newline { statement := current }
  | .inside around line => inLine around line

theorem ofBuilder_push_inside (l : Line) {t : Token}
    (h : ∀ count, t.content ≠ .lineBreak count) :
    ofBuilder ((Builder.inside around l).push t) = inLine around (l.push t) := by
  have hBreak : ¬ Builder.isLineBreak t = true := by
    unfold Builder.isLineBreak
    split
    · rename_i count hContent
      exact absurd hContent (h count)
    · simp
  rw [Builder.push_inside, if_neg hBreak]
  rfl

theorem ofBuilder_push_lineBreak (l : Line) {t : Token} {count : Nat}
    (h : t.content = .lineBreak count) :
    ofBuilder ((Builder.inside around l).push t) =
      ofLine around .newline { statement := l.settle.record t } := by
  have hBreak : Builder.isLineBreak t = true := by rw [Builder.isLineBreak, h]
  rw [Builder.push_inside, if_pos hBreak]
  rfl

theorem flush_record_inLine (l : Line) (t : Token) :
    (inLine around l).flush >>= (fun m => pure (m.record t)) =
      .ok (inLine around (l.flush.record t)) := by
  rw [flush_inLine, ok_bind, record_inLine]
  rfl

theorem statementToken_inLine {l : Line} (hCalls : l.calls = []) (t : Token) :
    (inLine around l).statementToken t = .ok (ofBuilder ((Builder.inside around l).push t)) := by
  have hFlush : l.flush.calls = [] := by rw [Line.flush_of_calls_eq_nil hCalls]
  rw [statementToken]
  split
  · rename_i hContent
    rw [ofBuilder_push_lineBreak around l hContent, flush_inLine, ok_bind, record_inLine,
      Line.flush_of_calls_eq_nil hCalls]
    rfl
  · rename_i hContent
    have hPush : l.push t = l.flush.record (t.toError .unexpectedTokenInStatement) := by
      simp [Line.push, Line.closeCall, hContent, hFlush]
    rw [ofBuilder_push_inside around l (by simp [hContent]), hPush]
    exact flush_record_inLine around l _
  · rename_i hContent
    have hPush : l.push t = l.flush.record (t.toError .unexpectedTokenInStatement) := by
      simp [Line.push, Line.comma, hContent, hFlush]
    rw [ofBuilder_push_inside around l (by simp [hContent]), hPush]
    exact flush_record_inLine around l _
  · rename_i hBreak hClose hComma
    rw [ofBuilder_push_inside around l hBreak, contentToken_inLine around l hClose hComma]

theorem callToken_inLine {l : Line} (h : ∀ c ∈ l.calls, c.tokens ≠ []) (hCalls : l.calls ≠ [])
    (t : Token) :
    (inLine around l).callToken t = .ok (ofBuilder ((Builder.inside around l).push t)) := by
  rw [callToken]
  split
  · rename_i hContent
    rw [← bind_assoc, inLine, settled_ofLine around l.mode h, ok_bind, record_ofLine,
      ofBuilder_push_lineBreak around l hContent]
    rfl
  · rename_i hContent
    have hPush : l.push t = l.flush.closeCall t := by rw [Line.push, hContent]
    rw [ofBuilder_push_inside around l (by simp [hContent]), hPush,
      closeCall_inLine around hCalls]
  · rename_i hContent
    have hPush : l.push t = l.flush.record t := by
      simp [Line.push, Line.comma, hContent, l.flush_calls_ne_nil hCalls]
    rw [ofBuilder_push_inside around l (by simp [hContent]), hPush]
    exact flush_record_inLine around l _
  · rename_i hBreak hClose hComma
    rw [ofBuilder_push_inside around l hBreak, contentToken_inLine around l hClose hComma]

end Inside

theorem lineStart_of_not_startsStatement (m : Machine) {t : Token}
    (h : ¬ Builder.startsStatement t = true) : m.lineStart t = .ok (m.record t) := by
  unfold Builder.startsStatement at h
  split at h
  · rename_i hContent
    rw [lineStart, hContent]
  · rename_i hContent
    rw [lineStart, hContent]
  · exact absurd rfl h

theorem lineStart_of_startsStatement {m : Machine} {around : Surroundings} {t : Token}
    (h : Builder.startsStatement t = true)
    (hClosed : m.closeWhile (fun s => Builder.indentOf t ≤ s.indent) =
      .ok (ofSurroundings around .newline)) :
    m.lineStart t = .ok (ofBuilder (Builder.startLine around t)) := by
  rw [lineStart]
  split
  · rename_i hContent
    simp [Builder.startsStatement, hContent] at h
  · rename_i hContent
    simp [Builder.startsStatement, hContent] at h
  · rename_i size hContent
    have hIndent : Builder.indentOf t = size := by rw [Builder.indentOf, hContent]
    have hPush : Line.push { statement := { indent := size } } t =
        { statement := OpenStatement.record { indent := size } t } := by
      rw [Line.push, hContent]
      rfl
    rw [hIndent] at hClosed
    rw [Builder.startLine, hIndent, hPush, hClosed]
    rfl
  · rename_i hBreak hComment hSpace
    have hIndent : Builder.indentOf t = 0 := by
      unfold Builder.indentOf
      split
      · rename_i size hContent
        exact absurd hContent (hSpace size)
      · rfl
    have hPush := ofBuilder_push_inside around { statement := { indent := 0 } } hBreak
    rw [hIndent, ← closeWhile_true] at hClosed
    rw [Builder.startLine, hIndent, hClosed, ofBuilder, ← hPush]
    exact statementToken_inLine around (l := { statement := { indent := 0 } }) rfl t

/-- The machine takes each token as the builder does. -/
theorem push_ofBuilder {b : Builder} (h : b.Sound) (t : Token) :
    (ofBuilder b).push t = .ok (ofBuilder (b.push t)) := by
  cases b with
  | leading preamble =>
    change lineStart { preamble } t = _
    rw [Builder.push_leading]
    split
    · rename_i hStarts
      apply lineStart_of_startsStatement hStarts
      rw [closeWhile_eq]
      rfl
    · rename_i hStarts
      rw [lineStart_of_not_startsStatement _ hStarts]
      rfl
  | between around current =>
    obtain ⟨-, -, hTokens, -⟩ := h
    change lineStart (ofLine around .newline { statement := current }) t = _
    rw [Builder.push_between]
    split
    · rename_i hStarts
      exact lineStart_of_startsStatement hStarts (closeWhile_ofLine around .newline _ hTokens)
    · rename_i hStarts
      rw [lineStart_of_not_startsStatement _ hStarts]
      rfl
  | inside around line =>
    obtain ⟨-, hLine, -, -⟩ := h
    have hTokens : ∀ c ∈ line.calls, c.tokens ≠ [] := fun c hc => (hLine.calls c hc).ne_nil
    by_cases hCalls : line.calls = []
    · have hMode : line.mode = .statement := if_pos hCalls
      rw [← statementToken_inLine around hCalls, push, ofBuilder, inLine, hMode]
      rfl
    · have hMode : line.mode = .call := if_neg hCalls
      rw [← callToken_inLine around hTokens hCalls, push, ofBuilder, inLine, hMode]
      rfl

theorem run_ofBuilder {b : Builder} (h : b.Sound) (tokens : List Token) :
    (ofBuilder b).run tokens = .ok (ofBuilder (b.pushAll tokens)) := by
  induction tokens generalizing b with
  | nil => rfl
  | cons t tokens ih =>
    rw [run, List.foldlM_cons, push_ofBuilder h, ok_bind]
    exact ih (h.push t)

theorem finish_ofLine (around : Surroundings) (mode : Mode) {l : Line}
    (hCalls : ∀ c ∈ l.calls, c.tokens ≠ []) (hTokens : l.settle.tokens ≠ []) :
    (ofLine around mode l).finish = .ok (around.close 0 l.settle).finished := by
  rw [finish, ← bind_assoc, settled_ofLine around mode hCalls, ok_bind, closeWhile_true,
    closeWhile_ofLine around _ 0 hTokens]
  rfl

theorem finish_ofBuilder {b : Builder} (h : b.Sound) : (ofBuilder b).finish = .ok b.finish := by
  cases b with
  | leading preamble =>
    rw [finish, ofBuilder, abandonCalls_of_nil rfl]
    change closeWhile _ { preamble } >>= _ = _
    rw [closeWhile_eq]
    rfl
  | between around current =>
    obtain ⟨-, -, hTokens, -⟩ := h
    exact finish_ofLine around .newline (l := { statement := current }) (by simp) hTokens
  | inside around line =>
    obtain ⟨-, hLine, hTokens, -⟩ := h
    rw [← line.tokens_settle] at hTokens
    exact finish_ofLine around line.mode (fun c hc => (hLine.calls c hc).ne_nil) hTokens

/-- The mode, the two stacks and the identity held back agree: outside a line there is no call and
no identity held back, inside a line there is a statement, and a call is open in one of the two
other modes and not in the other. The open statements lie deeper and deeper. -/
structure Consistent (m : Machine) : Prop where
  newline : m.mode = .newline → m.calls = [] ∧ m.pending = none
  statement : m.mode = .statement → m.statements ≠ [] ∧ m.calls = []
  call : m.mode = .call → m.statements ≠ [] ∧ m.calls ≠ []
  indents : (m.statements.reverse.map OpenStatement.indent).Pairwise (· < ·)

theorem consistent_ofBuilder {b : Builder} (h : b.Sound) : (ofBuilder b).Consistent := by
  have hIndents : ∀ {statements : List OpenStatement}, Shallower statements →
      (statements.reverse.map OpenStatement.indent).Pairwise (· < ·) := by
    intro statements hShallower
    rw [List.pairwise_map, List.pairwise_reverse]
    exact hShallower
  cases b with
  | leading preamble =>
    exact ⟨fun _ => ⟨rfl, rfl⟩, nofun, nofun, .nil⟩
  | between around current =>
    obtain ⟨-, -, -, hShallower⟩ := h
    exact ⟨fun _ => ⟨rfl, rfl⟩, nofun, nofun, hIndents hShallower⟩
  | inside around line =>
    obtain ⟨-, -, -, hShallower⟩ := h
    have hMode : (ofBuilder (.inside around line)).mode =
        if line.calls = [] then .statement else .call := rfl
    have hStatements : (ofBuilder (.inside around line)).statements ≠ [] := by
      simp [ofBuilder, inLine, ofLine]
    refine ⟨?_, ?_, ?_, hIndents hShallower⟩
    · rw [hMode]
      split <;> nofun
    · rw [hMode]
      split
      · rename_i hCalls
        exact fun _ => ⟨hStatements, hCalls⟩
      · nofun
    · rw [hMode]
      split
      · nofun
      · rename_i hCalls
        exact fun _ => ⟨hStatements, hCalls⟩

theorem statements_push_ne_nil {b : Builder} (h : (ofBuilder b).statements ≠ []) (t : Token) :
    (ofBuilder (b.push t)).statements ≠ [] := by
  cases b with
  | leading preamble => exact absurd rfl h
  | between around current =>
    rw [Builder.push_between]
    split <;> exact List.cons_ne_nil _ _
  | inside around line =>
    rw [Builder.push_inside]
    split <;> exact List.cons_ne_nil _ _

theorem statements_pushAll_ne_nil {b : Builder} (h : (ofBuilder b).statements ≠ [])
    (tokens : List Token) : (ofBuilder (b.pushAll tokens)).statements ≠ [] := by
  induction tokens generalizing b with
  | nil => exact h
  | cons t tokens ih => exact ih (statements_push_ne_nil h t)

end Machine

/-- The span reaches from the first to the last of the tokens, of which there are some. -/
def Span.Joins (span : Span) (tokens : List Token) : Prop :=
  ∃ first last, tokens.head? = some first ∧ tokens.getLast? = some last ∧
    span = first.span.join last.span

theorem Span.joins_spanOf {tokens : List Token} (h : tokens ≠ []) :
    (Token.spanOf tokens).Joins tokens := by
  obtain ⟨first, hFirst⟩ := Option.ne_none_iff_exists'.mp (mt List.head?_eq_none_iff.mp h)
  obtain ⟨last, hLast⟩ := Option.ne_none_iff_exists'.mp (mt List.getLast?_eq_none_iff.mp h)
  refine ⟨first, last, hFirst, hLast, ?_⟩
  rw [Token.spanOf, hFirst, hLast]

theorem span_ne_empty_of_holds {source : String} {n : Node}
    (h : (Document.parse source).Holds n) : n.span ≠ .empty := by
  obtain ⟨stream, run, hStream, hInfix, hRun⟩ := h.exists_run
  have hOrder := (hStream.located hInfix hRun.ne_nil).2
  rw [hRun.span_eq]
  intro hEmpty
  rw [hEmpty] at hOrder
  exact absurd hOrder (by decide)

/-- A machine that is fed any tokens meets no lapse, not even when it finishes. Its fields agree,
are those of the builder, and keep a statement open once there is one; the statements that it
finishes with are those of the builder. Every statement and every call in them has its span from its
first and last token, and the span that stands for no token does not occur in what a source gives. -/
theorem machine_agrees_with_builder (tokens : List Token) :
    ∃ m, Machine.run {} tokens = .ok m ∧ m.Consistent ∧
      (m.statements ≠ [] → ∀ more, ∃ later, m.run more = .ok later ∧ later.statements ≠ []) ∧
      m = .ofBuilder (Builder.empty.pushAll tokens) ∧ m.finish = .ok (build tokens) ∧
      (∀ s, (Document.ofTokens tokens).Holds (.statement s) → s.span.Joins s.tokens) ∧
      (∀ c, (Document.ofTokens tokens).Holds (.call c) → c.span.Joins c.tokens) ∧
      ∀ source, tokens = tokenize source → ∀ n, (Document.ofTokens tokens).Holds n →
        n.span ≠ .empty := by
  have hStart : Builder.empty.Sound := trivial
  have hSound := hStart.pushAll tokens
  refine ⟨_, Machine.run_ofBuilder hStart tokens, Machine.consistent_ofBuilder hSound, ?_, rfl,
    Machine.finish_ofBuilder hSound, ?_, ?_, ?_⟩
  · intro hOpen more
    exact ⟨_, Machine.run_ofBuilder hSound more, Machine.statements_pushAll_ne_nil hOpen more⟩
  · intro s hs
    obtain ⟨hStatement, -⟩ := hs.known
    rw [hStatement.span_eq]
    exact Span.joins_spanOf hStatement.ne_nil
  · intro c hc
    obtain ⟨hCall, -⟩ := hc.known
    have hSpan : c.span = Token.spanOf c.tokens := hCall.spells.span_eq
    rw [hSpan]
    exact Span.joins_spanOf hCall.spells.ne_nil
  · rintro source rfl n hn
    exact span_ne_empty_of_holds hn

/-- Two calls and an identity are open in a nested line. -/
theorem machine_agrees_with_builder_open_calls :
    ∃ m, Machine.run {} (tokenize "a\n  b f(1, g(x ") = .ok m ∧ m.Consistent ∧ m.mode = .call ∧
      m.statements.map (·.indent) = [2, 0] ∧ m.calls.map (·.name.text) = ["g", "f"] ∧
      m.pending.map (·.identity.text) = some "x" ∧
      m.finish = .ok (build (tokenize "a\n  b f(1, g(x ")) := by
  obtain ⟨m, hRun, hConsistent, -, hBuilder, hFinish, -⟩ :=
    machine_agrees_with_builder (tokenize "a\n  b f(1, g(x ")
  subst hBuilder
  exact ⟨_, hRun, hConsistent, by decide +kernel, by decide +kernel, by decide +kernel,
    by decide +kernel, hFinish⟩

end Outline
