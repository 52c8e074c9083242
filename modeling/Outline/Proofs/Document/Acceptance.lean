import Outline.Document
import Outline.Proofs.Builder.Rows
import Outline.Proofs.Grammar

/-! # Sources without errors

A document has no errors if the lexer found none and the grammar derives every line. Errors show in
two places: a misplaced token is marked among the tokens of its statement, and an unterminated call
is found among the elements only.
-/
namespace Outline
set_option autoImplicit false

namespace Builder

def settledRows : Builder → List OpenStatement
  | .leading _ => []
  | .between around current => around.rows ++ current.toStatement.rows
  | .inside around _ => around.rows

/-- No line has ended with a call open. -/
def Terminated (b : Builder) : Prop := ∀ row ∈ b.settledRows, row.Fresh Node.Complete

variable {b : Builder} {scan : Scan}

theorem terminated_between {around : Surroundings} {current : OpenStatement}
    (hAround : ∀ row ∈ around.rows, row.Fresh Node.Complete)
    (hCurrent : current.Fresh Node.Complete) : (between around current).Terminated := by
  rw [Terminated, settledRows, OpenStatement.rows_eq_singleton hCurrent.2]
  exact List.forall_mem_append.mpr ⟨hAround, List.forall_mem_singleton.mpr hCurrent⟩

theorem settle_complete {line : Line} (h : line.Sound) (hFollows : scan.Follows line)
    (hDepth : scan.depth = 0) : line.settle.Fresh Node.Complete := by
  apply h.settle_complete
  rw [← List.length_eq_zero_iff, ← hFollows.depth, hDepth]

theorem Terminated.push (h : b.Terminated) (hSound : b.Sound) (hFollowed : b.FollowedBy scan)
    {t : Token} (hDepth : t.kind = .lineBreak → scan.depth = 0) : (b.push t).Terminated := by
  cases b with
  | leading preamble =>
    rw [push_leading]
    split
    · simp [Terminated, startLine, settledRows, Surroundings.rows]
    · simp [Terminated, settledRows]
  | between around current =>
    obtain ⟨-, hFresh, -, -⟩ := hSound
    rw [push_between]
    split
    · rw [Terminated, startLine, settledRows, Surroundings.rows_close]
      exact h
    · rename_i hStarts
      obtain ⟨hAround, hCurrent⟩ := List.forall_mem_append.mp h
      rw [OpenStatement.rows_eq_singleton hFresh.2, List.forall_mem_singleton] at hCurrent
      have hKind := kind_of_not_startsStatement hStarts
      exact terminated_between hAround (hCurrent.record (.of_kind hKind))
  | inside around line =>
    obtain ⟨-, hLine, -, -⟩ := hSound
    rw [push_inside_kind]
    split
    · rename_i hBreak
      have hSettled := settle_complete hLine hFollowed (hDepth hBreak)
      exact terminated_between h (hSettled.record (.inr (.inl hBreak)))
    · exact h

theorem Terminated.pushAll (h : b.Terminated) (hSound : b.Sound) (hFollowed : b.FollowedBy scan)
    {tokens : List Token} (hAccepts : scan.Accepts tokens) :
    ∀ row ∈ (b.pushAll tokens).rows, row.Fresh Node.Complete := by
  induction tokens generalizing b scan with
  | nil =>
    cases b with
    | leading preamble => exact h
    | between around current => exact h
    | inside around line =>
      obtain ⟨-, hLine, -, -⟩ := hSound
      exact terminated_between h (settle_complete hLine hFollowed hAccepts)
  | cons t tokens ih =>
    obtain ⟨-, hDepth, hRest⟩ := hAccepts
    exact ih (h.push hSound hFollowed hDepth) (hSound.push t) (push_step hFollowed t).2 hRest

end Builder

theorem Token.isError_eq (t : Token) : t.isError = decide (t.kind = .error) := by
  rw [isError, errorReason?, kind]
  cases t.content <;> rfl

theorem Node.unterminated_token (t : Token) : (Node.token t).unterminated =
    if t.errorReason? = some .missingClosingParenthesis then [t] else [] := by
  rw [unterminated, fold_token]

theorem Node.unterminated_statement (s : Statement) :
    (Node.statement s).unterminated = s.elements.flatMap Node.unterminated := by
  rw [unterminated, fold_statement, Statement.fold_def, List.flatMap_def]
  rfl

theorem Node.unterminated_call (c : Call) :
    (Node.call c).unterminated = c.parameters.flatMap Node.unterminated := by
  rw [unterminated, fold_call, Call.fold_def, List.flatMap_def]
  rfl

theorem Statement.unterminated_eq (s : Statement) : s.unterminated =
    s.elements.flatMap Node.unterminated ++ s.children.flatMap Statement.unterminated := by
  rw [unterminated, fold_def, List.flatMap_def (l := s.children)]
  rfl

theorem Node.Complete.unterminated_eq_nil (n : Node) : ∀ {run : List Token}, n.Complete run →
    (∀ t ∈ run, t.errorReason? ≠ some .missingClosingParenthesis) → n.unterminated = [] := by
  induction n using Node.induct with
  | token t =>
    intro run h hErrors
    cases h with
    | token hWord => simpa [Node.unterminated] using hErrors
  | call c ih =>
    intro run h hErrors
    cases h with
    | @call _ trailing body opening closing _ _ _ _ hBody hTokens _ _ =>
      rw [unterminated_call, List.flatMap_eq_nil_iff]
      intro n hn
      obtain ⟨inner, hInner, hInfix⟩ := hBody.exists_run hn
      apply ih n hn hInner
      intro t ht
      apply hErrors
      rw [hTokens]
      simp [hInfix.subset ht]
  | statement s _ =>
    intro run h
    cases h

theorem Statement.Sound.unterminated_eq_nil {s : Statement} (h : s.Sound)
    (hRows : ∀ row ∈ s.rows, row.Fresh Node.Complete)
    (hErrors : ∀ t ∈ s.tokens, t.errorReason? ≠ some .missingClosingParenthesis) :
    s.unterminated = [] := by
  induction h with
  | @intro s own _ _ hTokens _ _ _ hChildren ih =>
    rw [Statement.rows_eq, List.forall_mem_cons] at hRows
    obtain ⟨⟨hFactors, -⟩, hNested⟩ := hRows
    rw [hTokens, List.forall_mem_append] at hErrors
    rw [Statement.unterminated_eq, List.append_eq_nil_iff, List.flatMap_eq_nil_iff,
      List.flatMap_eq_nil_iff]
    constructor
    · intro n hn
      obtain ⟨run, hRun, hInfix⟩ := hFactors.exists_run hn
      apply hRun.unterminated_eq_nil n
      intro t ht
      apply hErrors.1
      rw [← Statement.own_eq hTokens]
      exact hInfix.subset ht
    · intro child hChild
      apply ih child hChild
      · intro row hRow
        exact hNested row (List.mem_flatMap.mpr ⟨child, hChild, hRow⟩)
      · intro t ht
        exact hErrors.2 t (List.mem_flatMap.mpr ⟨child, hChild, ht⟩)

theorem Node.Settled.complete_of_unterminated {n : Node} {run : List Token} (h : n.Settled run)
    (hNone : n.unterminated = []) : n.Complete run := by
  cases h with
  | complete h => exact h
  | unterminated _ => simp [Node.unterminated, Token.errorReason?] at hNone

/-- A statement in which nothing is marked and no call is unterminated is made of whole lines. -/
theorem Statement.Sound.lines {s : Statement} (h : s.Sound)
    (hErrors : ∀ t ∈ s.tokens, t.kind ≠ .error) (hUnterminated : s.unterminated = []) :
    Grammar.Lines s.tokens := by
  induction h with
  | @intro s own _ hFactors hTokens _ _ _ _ ih =>
    rw [hTokens, List.forall_mem_append] at hErrors
    rw [Statement.unterminated_eq, List.append_eq_nil_iff, List.flatMap_eq_nil_iff,
      List.flatMap_eq_nil_iff] at hUnterminated
    rw [hTokens]
    apply Grammar.Lines.append
    · refine hFactors.join (P := fun run => (∀ t ∈ run, t.kind ≠ .error) → Grammar.Lines run)
        (fun _ => .nil) ?_ ?_ ?_ hErrors.1
      · intro a b ha hb hErrors
        obtain ⟨hFirst, hSecond⟩ := List.forall_mem_append.mp hErrors
        exact (ha hFirst).append (hb hSecond)
      · intro t ht hErrors
        exact ht.lines (hErrors t List.mem_cons_self)
      · intro n hn run hRun hErrors
        exact (hRun.complete_of_unterminated (hUnterminated.1 n hn)).lines hErrors
    · apply Grammar.Lines.flatMap
      intro child hChild
      refine ih child hChild ?_ (hUnterminated.2 child hChild)
      intro t ht
      exact hErrors.2 t (List.mem_flatMap.mpr ⟨child, hChild, ht⟩)

theorem Document.errors_eq_nil_iff (d : Document) : d.errors = [] ↔
    ∀ s ∈ d.statements, (∀ t ∈ s.tokens, t.kind ≠ .error) ∧ s.unterminated = [] := by
  have hSort : d.errors = [] ↔ d.statements.flatMap Document.errorsOf = [] := by
    rw [← List.length_eq_zero_iff, Document.errors, List.length_mergeSort,
      List.length_eq_zero_iff]
  rw [hSort, List.flatMap_eq_nil_iff]
  simp only [Document.errorsOf, List.append_eq_nil_iff, List.filter_eq_nil_iff, Token.isError_eq,
    decide_eq_true_eq]

theorem Scan.mark_eq_or (scan : Scan) (t : Token) :
    scan.mark t = t ∨ (scan.mark t).kind = .error := by
  unfold mark
  split <;> (try split) <;> simp [Token.toError, Token.kind, Content.kind]

theorem Scan.markAll_eq_self {scan : Scan} {tokens : List Token}
    (h : ∀ t ∈ scan.markAll tokens, t.kind ≠ .error) : scan.markAll tokens = tokens := by
  induction tokens generalizing scan with
  | nil => rfl
  | cons t tokens ih =>
    rw [markAll, List.forall_mem_cons] at h
    rw [markAll, (scan.mark_eq_or t).resolve_right h.1, ih h.2]

theorem kind_ne_error_retag {tokens : List Token}
    (h : ∀ s ∈ build tokens, ∀ t ∈ s.tokens, t.kind ≠ .error) :
    ∀ t ∈ retag tokens, t.kind ≠ .error := by
  rw [← preamble_append_tokens, List.forall_mem_append]
  constructor
  · intro t ht
    rcases kind_of_mem_preamble ht with hKind | hKind <;> simp [hKind]
  · intro t ht
    obtain ⟨s, hs, ht⟩ := List.mem_flatMap.mp ht
    exact h s hs t ht

theorem lines_retag {tokens : List Token}
    (h : ∀ s ∈ build tokens, (∀ t ∈ s.tokens, t.kind ≠ .error) ∧ s.unterminated = []) :
    Grammar.Lines (retag tokens) := by
  have hErrors := kind_ne_error_retag fun s hs => (h s hs).1
  rw [← preamble_append_tokens, List.forall_mem_append] at hErrors
  rw [← preamble_append_tokens]
  apply Grammar.Lines.append
  · have hLines : Grammar.Lines ((Builder.empty.pushAll tokens).preamble.flatMap fun t => [t]) := by
      apply Grammar.Lines.flatMap
      intro t ht
      have hFills : t.FillsStatement := .of_kind (kind_of_mem_preamble ht)
      exact hFills.lines (hErrors.1 t ht)
    rwa [List.flatMap_singleton'] at hLines
  · exact Grammar.Lines.flatMap fun s hs => (sound_of_mem_build hs).lines (h s hs).1 (h s hs).2

theorem clean_of_accepts {tokens : List Token} (hErrors : ∀ t ∈ tokens, t.kind ≠ .error)
    (h : Scan.start.Accepts tokens) {s : Statement} (hs : s ∈ build tokens) :
    (∀ t ∈ s.tokens, t.kind ≠ .error) ∧ s.unterminated = [] := by
  have hTokens : ∀ t ∈ s.tokens, t ∈ tokens := by
    intro t ht
    have hRetag : t ∈ retag tokens := by
      rw [← preamble_append_tokens]
      exact List.mem_append_right _ (List.mem_flatMap.mpr ⟨s, hs, ht⟩)
    rwa [retag, h.markAll_eq] at hRetag
  have hStart : Builder.empty.Terminated := by
    simp [Builder.Terminated, Builder.settledRows, Builder.empty]
  have hRows := hStart.pushAll trivial ⟨rfl, rfl⟩ h
  refine ⟨fun t ht => hErrors t (hTokens t ht), (sound_of_mem_build hs).unterminated_eq_nil ?_ ?_⟩
  · intro row hRow
    apply hRows
    rw [← Builder.rows_finish]
    exact List.mem_flatMap.mpr ⟨s, hs, hRow⟩
  · intro t ht hReason
    have hError : t.isError = true := by rw [Token.isError, hReason, Option.isSome_some]
    rw [Token.isError_eq, decide_eq_true_eq] at hError
    exact hErrors t (hTokens t ht) hError

/-- A source is free of errors if and only if the lexer finds no error in it and the grammar derives
each of its lines. -/
theorem errors_parse_eq_nil_iff (source : String) : (Document.parse source).errors = [] ↔
    (∀ t ∈ tokenize source, t.kind ≠ .error) ∧
      ∀ line ∈ Grammar.logicalLines (tokenize source), Grammar.Derives .line line := by
  rw [Document.errors_eq_nil_iff, ← Grammar.lines_iff]
  constructor
  · intro h
    have hErrors := kind_ne_error_retag fun s hs => (h s hs).1
    have hLines := lines_retag h
    have hRetag : retag (tokenize source) = tokenize source := Scan.markAll_eq_self hErrors
    rw [hRetag] at hErrors hLines
    exact ⟨hErrors, hLines⟩
  · rintro ⟨hErrors, hLines⟩ s hs
    exact clean_of_accepts hErrors (hLines.accepts rfl) hs

end Outline
