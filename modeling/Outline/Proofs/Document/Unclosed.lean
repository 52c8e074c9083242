import Outline.Proofs.Document.Acceptance
import Outline.Proofs.Document.Factoring

/-! # Calls that their line leaves open

Where a line ends, the builder turns all the calls that are still open into one error. Which call
that error starts with can be told from the tokens of the line: the first whose opening parenthesis is
not closed behind it. The tokens are those with misplaced punctuation marked, so that each parenthesis
among them opens or closes a call.
-/
namespace Outline
set_option autoImplicit false

namespace Grammar

/-- Whether the tokens close a parenthesis opened before them, `depth` others being open too. -/
def closes (depth : Nat) : List Token → Bool
  | [] => false
  | t :: rest =>
    if t.kind = .parenthesisOpen then closes (depth + 1) rest
    else if t.kind = .parenthesisClose then depth = 0 || closes (depth - 1) rest
    else closes depth rest

/-- The name of the first call that is not closed; `name` is the identity right before the tokens,
trivia apart. -/
def unclosedFrom (name : Option Token) : List Token → Option Token
  | [] => none
  | t :: rest =>
    if t.kind = .parenthesisOpen ∧ closes 0 rest = false then name
    else if t.isTrivia then unclosedFrom name rest
    else unclosedFrom (if t.kind = .identity then some t else none) rest

/-- The name of the outermost call that is opened in a line and not closed there. -/
def unclosed? (line : List Token) : Option Token := unclosedFrom none line

section Scanning
variable {t : Token} {s rest : List Token}

theorem closes_of_opening (h : t.kind = .parenthesisOpen) (depth : Nat) (rest : List Token) :
    closes depth (t :: rest) = closes (depth + 1) rest := by
  simp [closes, h]

theorem closes_of_closing (h : t.kind = .parenthesisClose) (depth : Nat) (rest : List Token) :
    closes depth (t :: rest) = (depth = 0 || closes (depth - 1) rest) := by
  simp [closes, h]

theorem closes_append (h : Token.Balanced s) (depth : Nat) (rest : List Token) :
    closes depth (s ++ rest) = closes depth rest := by
  induction h generalizing depth rest with
  | nil => rfl
  | other hOpening hClosing _ ih =>
    rw [List.cons_append, closes, if_neg hOpening, if_neg hClosing, ih]
  | group hOpening hClosing _ _ ihInner ih =>
    rw [List.append_assoc, List.cons_append, List.cons_append, closes_of_opening hOpening, ihInner,
      closes_of_closing hClosing, ih]
    simp

theorem unclosedFrom_cons (name : Option Token)
    (h : ¬ (t.kind = .parenthesisOpen ∧ closes 0 rest = false)) :
    ∃ name', unclosedFrom name (t :: rest) = unclosedFrom name' rest := by
  rw [unclosedFrom, if_neg h]
  split
  · exact ⟨_, rfl⟩
  · exact ⟨_, rfl⟩

/-- What is balanced leaves no call open, but the identity before what follows may be another. -/
theorem unclosedFrom_append (h : Token.Balanced s) (name : Option Token) (rest : List Token) :
    ∃ name', unclosedFrom name (s ++ rest) = unclosedFrom name' rest := by
  induction h generalizing name rest with
  | nil => exact ⟨name, rfl⟩
  | other hOpening _ _ ih =>
    obtain ⟨next, hNext⟩ := unclosedFrom_cons name fun h => hOpening h.1
    rw [List.cons_append, hNext]
    exact ih next rest
  | @group opening closing inner tokens hOpening hClosing hInner _ ihInner ih =>
    have hClosed : closes 0 (inner ++ (closing :: tokens ++ rest)) = true := by
      rw [closes_append hInner]
      exact closes_of_closing hClosing 0 _
    have hOther : closing.kind ≠ .parenthesisOpen := by simp [hClosing]
    obtain ⟨first, hFirst⟩ := unclosedFrom_cons (t := opening) name fun h =>
      absurd hClosed (ne_true_of_eq_false h.2)
    obtain ⟨second, hSecond⟩ := ihInner first (closing :: tokens ++ rest)
    obtain ⟨third, hThird⟩ := unclosedFrom_cons second fun h => hOther h.1
    rw [List.append_assoc, List.cons_append, hFirst, hSecond, List.cons_append, hThird]
    exact ih third rest

theorem unclosedFrom_eq_none (h : Token.Balanced s) (name : Option Token) :
    unclosedFrom name s = none := by
  obtain ⟨name', hEnd⟩ := unclosedFrom_append h name []
  rw [List.append_nil] at hEnd
  exact hEnd

theorem unclosedFrom_spec {name : Option Token} {found : Token}
    (hName : ∀ t ∈ name, t.kind = .identity) (h : unclosedFrom name s = some found) :
    found.kind = .identity ∧ (name = some found ∨ found ∈ s) := by
  induction s generalizing name with
  | nil => cases h
  | cons t s ih =>
    rw [unclosedFrom] at h
    split at h
    · exact ⟨hName found h, .inl h⟩
    split at h
    · obtain ⟨hKind, hFound⟩ := ih hName h
      exact ⟨hKind, hFound.imp_right (List.mem_cons_of_mem t)⟩
    · split at h
      · rename_i hIdentity
        obtain ⟨hKind, hFound⟩ := ih (by simpa using hIdentity) h
        refine ⟨hKind, .inr ?_⟩
        rcases hFound with hFound | hFound
        · cases hFound
          exact List.mem_cons_self
        · exact List.mem_cons_of_mem t hFound
      · obtain ⟨hKind, hFound⟩ := ih (by simp) h
        refine ⟨hKind, .inr ?_⟩
        rcases hFound with hFound | hFound
        · cases hFound
        · exact List.mem_cons_of_mem t hFound

theorem unclosed?_spec {line : List Token} {name : Token} (h : unclosed? line = some name) :
    name.kind = .identity ∧ name ∈ line := by
  obtain ⟨hKind, hFound⟩ := unclosedFrom_spec (by simp) h
  rcases hFound with hFound | hFound
  · cases hFound
  · exact ⟨hKind, hFound⟩

end Scanning
end Grammar

open Grammar

theorem Token.FillsStatement.balanced {t : Token} (h : t.FillsStatement) : Token.Balanced [t] := by
  rcases h with hTrivia | hBreak | hContent
  · apply Token.Balanced.trivia
    simpa using hTrivia
  · apply Token.Balanced.singleton
    · simp [hBreak]
    · simp [hBreak]
  · apply Token.Balanced.singleton
    · simp [Token.kind, hContent, Content.kind]
    · simp [Token.kind, hContent, Content.kind]

theorem Factors.balanced {parameters : List Node} {body : List Token}
    (h : Factors Node.Complete Token.FillsCall parameters body) : Token.Balanced body :=
  h.join .nil (fun _ _ => .append) (fun _ => Token.FillsCall.balanced)
    fun n _ _ hRun => hRun.balanced n

theorem OpenStatement.Fresh.balanced {s : OpenStatement} (h : s.Fresh Node.Complete) :
    Token.Balanced s.tokens :=
  h.1.join .nil (fun _ _ => .append) (fun _ => Token.FillsStatement.balanced)
    fun n _ _ hRun => hRun.balanced n

namespace OpenCall
variable {c : OpenCall}

theorem Sound.closes_append (h : c.Sound) (depth : Nat) (rest : List Token) :
    closes depth (c.tokens ++ rest) = closes (depth + 1) rest := by
  obtain ⟨trailing, opening, body, hName, hTrailing, hOpening, hBody, hTokens⟩ := h
  have hFront : Token.Balanced (c.name :: trailing) :=
    .other (by simp [hName]) (by simp [hName]) (.trivia hTrailing)
  rw [hTokens, List.append_assoc, Grammar.closes_append hFront, List.cons_append,
    closes_of_opening hOpening, Grammar.closes_append hBody.balanced]

theorem closes_flatMap {calls : List OpenCall} (h : ∀ c ∈ calls, c.Sound) {held : List Token}
    (hHeld : Token.Balanced held) (depth : Nat) :
    closes depth (calls.flatMap tokens ++ held) = false := by
  induction calls generalizing depth with
  | nil =>
    have hEnd := Grammar.closes_append hHeld depth []
    rw [List.append_nil] at hEnd
    exact hEnd
  | cons c calls ih =>
    obtain ⟨hFirst, hRest⟩ := List.forall_mem_cons.mp h
    rw [List.flatMap_cons, List.append_assoc, hFirst.closes_append]
    exact ih hRest (depth + 1)

theorem unclosedFrom_trivia {trailing : List Token} (h : ∀ t ∈ trailing, t.isTrivia = true)
    (name : Option Token) (rest : List Token) :
    unclosedFrom name (trailing ++ rest) = unclosedFrom name rest := by
  induction trailing with
  | nil => rfl
  | cons t trailing ih =>
    obtain ⟨ht, hTrailing⟩ := List.forall_mem_cons.mp h
    have hOpening := (Token.IsWord.of_isTrivia ht).1
    rw [List.cons_append, unclosedFrom, if_neg fun h => hOpening h.1, if_pos ht, ih hTrailing]

theorem Sound.unclosedFrom (h : c.Sound) {rest : List Token} (hRest : closes 0 rest = false)
    (name : Option Token) : Grammar.unclosedFrom name (c.tokens ++ rest) = some c.name := by
  obtain ⟨trailing, opening, body, hName, hTrailing, hOpening, hBody, hTokens⟩ := h
  have hOpen : closes 0 (body ++ rest) = false := by
    rw [Grammar.closes_append hBody.balanced, hRest]
  rw [hTokens, List.append_assoc, List.cons_append, Grammar.unclosedFrom,
    if_neg (by simp [hName]), if_neg (by simp [Token.isTrivia, hName]), if_pos hName,
    unclosedFrom_trivia hTrailing, List.cons_append, Grammar.unclosedFrom, if_pos ⟨hOpening, hOpen⟩]

end OpenCall

namespace Line
variable {l : Line}

theorem Sound.balanced_held (h : l.Sound) : Token.Balanced l.held := by
  unfold Line.held
  rcases hPending : l.pending with _ | p
  · exact .nil
  · obtain ⟨hIdentity, hTrailing⟩ := h.pending p hPending
    rw [Option.toList_some, List.flatMap_singleton]
    exact .other (by simp [hIdentity]) (by simp [hIdentity]) (.trivia hTrailing)

/-- The first call of the line that is not closed is the outermost one of those that are open. -/
theorem Sound.unclosedFrom (h : l.Sound) (name : Option Token) :
    Grammar.unclosedFrom name l.recorded = l.calls.getLast?.map OpenCall.name := by
  obtain ⟨name', hStatement⟩ := unclosedFrom_append h.statement.balanced name
    (l.calls.reverse.flatMap OpenCall.tokens ++ l.held)
  rw [recorded, committed, List.append_assoc, hStatement, ← List.head?_reverse]
  have hCalls : ∀ c ∈ l.calls.reverse, c.Sound := fun c hc => h.calls c (List.mem_reverse.mp hc)
  cases hReverse : l.calls.reverse with
  | nil => exact unclosedFrom_eq_none h.balanced_held name'
  | cons c inner =>
    rw [hReverse, List.forall_mem_cons] at hCalls
    obtain ⟨hOuter, hInner⟩ := hCalls
    rw [List.flatMap_cons, List.append_assoc]
    exact hOuter.unclosedFrom (OpenCall.closes_flatMap hInner h.balanced_held 0) name'

end Line

/-- No token is itself the error for an unterminated call. -/
def Terminating (tokens : List Token) : Prop :=
  ∀ t ∈ tokens, t.errorReason? ≠ some .missingClosingParenthesis

def OpenStatement.unterminated (row : OpenStatement) : List Token :=
  row.elements.flatMap Node.unterminated

theorem Statement.Sound.unterminated_eq {s : Statement} (h : s.Sound) :
    s.unterminated = s.rows.flatMap OpenStatement.unterminated := by
  induction h with
  | @intro s _ _ _ _ _ _ _ _ ih =>
    rw [Statement.unterminated_eq, Statement.rows_eq, List.flatMap_cons, List.flatMap_assoc]
    congr 1
    rw [List.flatMap_def, List.flatMap_def, List.map_congr_left ih]

theorem OpenStatement.Fresh.unterminated_eq_nil {s : OpenStatement} (h : s.Fresh Node.Complete)
    (hTokens : Terminating s.tokens) : s.unterminated = [] := by
  rw [unterminated, List.flatMap_eq_nil_iff]
  intro n hn
  obtain ⟨run, hRun, hInfix⟩ := h.1.exists_run hn
  exact hRun.unterminated_eq_nil n fun t ht => hTokens t (hInfix.subset ht)

theorem OpenStatement.unterminated_place (s : OpenStatement) (t : Token) (run : List Token) :
    (s.place (.token t) run).unterminated = s.unterminated ++
      if t.errorReason? = some .missingClosingParenthesis then [t] else [] := by
  simp [unterminated, place, Node.unterminated]

theorem Line.Sound.unterminated_givenUp {l : Line} (h : l.Sound)
    (hTokens : Terminating l.recorded) :
    l.givenUp.unterminated.map (·.span.start) =
      (l.calls.getLast?.map OpenCall.name).toList.map (·.span.start) := by
  have hStatement : l.statement.unterminated = [] := by
    apply h.statement.unterminated_eq_nil
    intro t ht
    exact hTokens t (by simp [Line.recorded, Line.committed, ht])
  rcases hName : l.calls.getLast?.map OpenCall.name with _ | name
  · have hCalls : l.calls = [] := by simpa using hName
    rw [Line.givenUp_of_calls_eq_nil hCalls, hStatement]
    rfl
  · obtain ⟨e, run, hGivenUp, hContent, hStart⟩ := h.givenUp_eq hName
    have hReason : e.errorReason? = some .missingClosingParenthesis := by
      rw [Token.errorReason?, hContent]
    rw [hGivenUp, OpenStatement.unterminated_place, hStatement, if_pos hReason]
    simp [hStart]

/-- A line that ends leaves one error if a call is open, and it starts with the outermost one: the
identity held back is no error. -/
theorem Line.Sound.unterminated_settle {l : Line} (h : l.Sound) (hTokens : Terminating l.recorded) :
    l.settle.unterminated.map (·.span.start) =
      (l.calls.getLast?.map OpenCall.name).toList.map (·.span.start) := by
  rw [← h.unterminated_givenUp hTokens]
  rcases hPending : l.pending with _ | p
  · rw [Line.settle_eq, hPending]
  · have hReason : p.identity.errorReason? ≠ some .missingClosingParenthesis := by
      have hIdentity : p.identity.content.kind = .identity := (h.pending p hPending).1
      rw [Token.errorReason?]
      cases hContent : p.identity.content <;> simp [hContent, Content.kind] at hIdentity ⊢
    rw [Line.settle_eq_place hPending, OpenStatement.unterminated_place, if_neg hReason,
      List.append_nil]

namespace Builder
variable {b : Builder}

/-- A row has its elements once its line has ended; what comes between two lines adds none. -/
theorem elements_push (h : b.Sound) (t : Token) :
    (b.push t).settledRows.map OpenStatement.elements =
      (if t.kind = .lineBreak then b.rows else b.settledRows).map OpenStatement.elements := by
  cases b with
  | leading preamble =>
    rw [push_leading]
    split <;> simp [startLine, settledRows, rows, Surroundings.rows]
  | between around current =>
    obtain ⟨-, hFresh, -, -⟩ := h
    rw [push_between, rows, settledRows, ite_self]
    split
    · rw [startLine, settledRows, Surroundings.rows_close]
    · have hRecorded : (current.record t).children = [] := hFresh.2
      rw [settledRows, OpenStatement.rows_eq_singleton hRecorded,
        OpenStatement.rows_eq_singleton hFresh.2, List.map_append, List.map_append]
      rfl
  | inside around line =>
    obtain ⟨-, hLine, -, -⟩ := h
    rw [push_inside_kind]
    split
    · have hRecorded : (line.settle.record t).children = [] := hLine.settle.2
      rw [settledRows, rows, OpenStatement.rows_eq_singleton hRecorded,
        OpenStatement.rows_eq_singleton hLine.settle.2, List.map_append, List.map_append]
      rfl
    · rfl

theorem unterminated_congr {rows rows' : List OpenStatement}
    (h : rows.map OpenStatement.elements = rows'.map OpenStatement.elements) :
    rows.flatMap OpenStatement.unterminated = rows'.flatMap OpenStatement.unterminated := by
  have hMap : ∀ rows : List OpenStatement, rows.flatMap OpenStatement.unterminated =
      (rows.map OpenStatement.elements).flatMap fun elements =>
        elements.flatMap Node.unterminated := by
    intro rows
    rw [List.flatMap_map]
    rfl
  rw [hMap, hMap, h]

/-- The tokens of the line that has not ended: comments, then those that the builder has of it. -/
def Continues (front : List Token) : Builder → Prop
  | .leading _ => ∀ t ∈ front, t.kind = .comment
  | .between _ _ => ∀ t ∈ front, t.kind = .comment
  | .inside _ line =>
    ∃ comments, (∀ t ∈ comments, t.kind = .comment) ∧ front = comments ++ line.recorded

theorem isTrivia_of_comments {comments : List Token} (h : ∀ t ∈ comments, t.kind = .comment) :
    ∀ t ∈ comments, t.isTrivia = true := by
  intro t ht
  simp [Token.isTrivia, h t ht]

theorem unterminated_rows (h : b.Sound) {front : List Token} (hFront : b.Continues front)
    (hTokens : Terminating front) :
    (b.rows.flatMap OpenStatement.unterminated).map (·.span.start) =
      (b.settledRows.flatMap OpenStatement.unterminated).map (·.span.start) ++
        (unclosed? front).toList.map (·.span.start) := by
  have hNone : (∀ t ∈ front, t.kind = .comment) → unclosed? front = none := by
    intro hComments
    exact unclosedFrom_eq_none (.trivia (isTrivia_of_comments hComments)) none
  cases b with
  | leading preamble => simp [rows, settledRows, hNone hFront]
  | between around current => simp [rows, settledRows, hNone hFront]
  | inside around line =>
    obtain ⟨-, hLine, -, -⟩ := h
    obtain ⟨comments, hComments, rfl⟩ := hFront
    have hRecorded := fun t ht => hTokens t (List.mem_append_right comments ht)
    rw [unclosed?, OpenCall.unclosedFrom_trivia (isTrivia_of_comments hComments),
      hLine.unclosedFrom, ← hLine.unterminated_settle hRecorded, rows,
      OpenStatement.rows_eq_singleton hLine.settle.2, List.flatMap_append, List.map_append,
      List.flatMap_singleton]
    rfl

theorem Continues.startLine {scan : Scan} {t : Token} {front : List Token}
    (hFront : ∀ t ∈ front, t.kind = .comment) (hIdle : scan.Idle) (ht : t.kind ≠ .lineBreak)
    (around : Surroundings) : (startLine around t).Continues (front ++ [scan.mark t]) := by
  have hFollows : scan.Follows { statement := { indent := indentOf t } } := ⟨hIdle.1, hIdle.2⟩
  refine ⟨front, hFront, ?_⟩
  rw [Scan.recorded_push hFollows ht]
  rfl

theorem Continues.push {scan : Scan} {front : List Token} (hFront : b.Continues front)
    (hFollowed : b.FollowedBy scan) {t : Token} (ht : t.kind ≠ .lineBreak) :
    (b.push t).Continues (front ++ [scan.mark t]) := by
  have hComment : (∀ u ∈ front, u.kind = .comment) → scan.Idle → ¬ startsStatement t = true →
      ∀ u ∈ front ++ [scan.mark t], u.kind = .comment := by
    intro hFront hIdle hStarts
    rw [(hIdle.trivial_step hStarts).1, List.forall_mem_append, List.forall_mem_singleton]
    exact ⟨hFront, (kind_of_not_startsStatement hStarts).resolve_left ht⟩
  cases b with
  | leading preamble =>
    rw [push_leading]
    split
    · exact .startLine hFront hFollowed ht _
    · rename_i hStarts
      exact hComment hFront hFollowed hStarts
  | between around current =>
    rw [push_between]
    split
    · exact .startLine hFront hFollowed ht _
    · rename_i hStarts
      exact hComment hFront hFollowed hStarts
  | inside around line =>
    obtain ⟨comments, hComments, rfl⟩ := hFront
    rw [push_inside_kind, if_neg ht]
    refine ⟨comments, hComments, ?_⟩
    rw [Scan.recorded_push hFollowed ht, List.append_assoc]

theorem continues_push_lineBreak (b : Builder) {t : Token} (ht : t.kind = .lineBreak) :
    (b.push t).Continues [] := by
  have hStarts : ¬ startsStatement t = true := by simp [startsStatement_eq, ht]
  cases b with
  | leading preamble =>
    rw [push_leading, if_neg hStarts]
    simp [Continues]
  | between around current =>
    rw [push_between, if_neg hStarts]
    simp [Continues]
  | inside around line =>
    rw [push_inside_kind, if_pos ht]
    simp [Continues]

/-- Each line, whether it ends with a line break or with the input, leaves an error for the call
that it leaves open. -/
theorem unterminated_pushAll (h : b.Sound) {scan : Scan} (hFollowed : b.FollowedBy scan)
    {front : List Token} (hFront : b.Continues front) (hBreaks : ∀ t ∈ front, t.kind ≠ .lineBreak)
    {tokens : List Token} (hTokens : Terminating (front ++ scan.markAll tokens)) :
    ((b.pushAll tokens).rows.flatMap OpenStatement.unterminated).map (·.span.start) =
      (b.settledRows.flatMap OpenStatement.unterminated).map (·.span.start) ++
        ((logicalLines (front ++ scan.markAll tokens)).filterMap unclosed?).map
          (·.span.start) := by
  induction tokens generalizing b scan front with
  | nil =>
    rw [Scan.markAll, List.append_nil] at hTokens
    rw [Scan.markAll, logicalLines_append hBreaks, pushAll_nil, unterminated_rows h hFront hTokens]
    cases hUnclosed : unclosed? front <;> simp [logicalLines, hUnclosed]
  | cons t tokens ih =>
    obtain ⟨-, hNext⟩ := push_step hFollowed t
    have hElements := unterminated_congr (elements_push h t)
    by_cases ht : t.kind = .lineBreak
    · have hMark : scan.mark t = t := by simp [Scan.mark, ht]
      rw [Scan.markAll, hMark] at hTokens ⊢
      obtain ⟨hEnded, hRest⟩ := List.forall_mem_append.mp hTokens
      rw [if_pos ht] at hElements
      have hLater := ih (h.push t) hNext (b.continues_push_lineBreak ht) (by simp)
        (List.forall_mem_cons.mp hRest).2
      rw [pushAll_cons, hLater, hElements, unterminated_rows h hFront hEnded,
        logicalLines_append hBreaks, logicalLines_cons ht, List.append_assoc, List.nil_append]
      cases hUnclosed : unclosed? front <;> simp [hUnclosed]
    · rw [if_neg ht] at hElements
      have hMarked : (scan.mark t).kind ≠ .lineBreak := by
        rcases scan.mark_eq_or t with hSame | hError
        · rwa [hSame]
        · simp [hError]
      have hSplit : front ++ scan.markAll (t :: tokens) =
          (front ++ [scan.mark t]) ++ (scan.next t).markAll tokens := by
        simp [Scan.markAll]
      rw [hSplit] at hTokens ⊢
      have hLonger : ∀ u ∈ front ++ [scan.mark t], u.kind ≠ .lineBreak := by
        rw [List.forall_mem_append, List.forall_mem_singleton]
        exact ⟨hBreaks, hMarked⟩
      rw [pushAll_cons, ih (h.push t) hNext (hFront.push hFollowed ht) hLonger hTokens, hElements]

end Builder

/-- The errors for unterminated calls, in the order of the source, are one for each line that leaves
a call open, and each starts with the outermost call that its line leaves open. -/
theorem unterminated_build {tokens : List Token} (h : Terminating (retag tokens)) :
    ((build tokens).flatMap Statement.unterminated).map (·.span.start) =
      ((logicalLines (retag tokens)).filterMap unclosed?).map (·.span.start) := by
  have hSound : Builder.empty.Sound := trivial
  have hFollowed : Builder.empty.FollowedBy Scan.start := ⟨rfl, rfl⟩
  have hFront : Builder.empty.Continues [] := by simp [Builder.empty, Builder.Continues]
  have hRows : (build tokens).flatMap Statement.unterminated =
      (Builder.empty.pushAll tokens).rows.flatMap OpenStatement.unterminated := by
    rw [← Builder.rows_finish, List.flatMap_assoc, List.flatMap_def, List.flatMap_def]
    congr 1
    exact List.map_congr_left fun s hs => (sound_of_mem_build hs).unterminated_eq
  rw [hRows, Builder.unterminated_pushAll hSound hFollowed hFront (by simp) h]
  rfl

/-- Of three calls in the first line the second is closed. -/
example : ((build (tokenize "x f(g(1), h(2\n  k(y")).flatMap Statement.unterminated).map
    (fun e => (e.span.start, e.text)) = [(⟨1, 3⟩, "f(g(1), h(2"), (⟨2, 3⟩, "k(")] := by
  decide +kernel

end Outline
