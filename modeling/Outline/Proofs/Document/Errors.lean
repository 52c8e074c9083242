import Outline.Proofs.Document.Nesting
import Outline.Proofs.Document.Unclosed

/-! # The list of errors

The errors of a document come from two views that nest differently: misplaced and unscannable tokens
are found among the tokens of the top-level statements, unterminated calls among the elements at any
depth. Sorted by where they start they form one list in which no two errors start together, because
an error of the first kind and the name of a call are different tokens of the source.
-/
namespace Outline
set_option autoImplicit false

/-- The error stands for an unterminated call. -/
def Token.isUnterminated (t : Token) : Bool :=
  t.errorReason? = some .missingClosingParenthesis

theorem Category.errorReason?_content (c : Category) (s : List Char) (span : Span) (text : String) :
    (⟨c.content s, span, text⟩ : Token).errorReason? = none := by
  rw [Token.errorReason?]
  split
  · rename_i hError
    exact absurd (congrArg Content.kind hError) (c.kind_content_ne_error s)
  · rfl

theorem Lexes.errorReason?_eq {p : Position} {text : List Char} {tokens : List Token}
    (h : Lexes p text tokens) :
    ∀ t ∈ tokens, t.errorReason? = none ∨ t.errorReason? = some .unexpectedToken := by
  induction h with
  | nil => simp
  | cons hCut _ ih =>
    refine List.forall_mem_cons.mpr ⟨?_, ih⟩
    cases hCut with
    | token _ => exact .inl (Category.errorReason?_content _ _ _ _)
    | _ => simp [Token.errorReason?]

theorem Lexes.terminating {p : Position} {text : List Char} {tokens : List Token}
    (h : Lexes p text tokens) : Terminating tokens := by
  intro t ht
  rcases h.errorReason?_eq t ht with hReason | hReason <;> simp [hReason]

theorem Scan.errorReason?_mark {t : Token}
    (h : t.errorReason? ≠ some .missingClosingParenthesis) (scan : Scan) :
    (scan.mark t).errorReason? ≠ some .missingClosingParenthesis := by
  have hMarked : ∀ reason, reason ≠ .missingClosingParenthesis →
      (t.toError reason).errorReason? ≠ some .missingClosingParenthesis := by
    intro reason hReason
    simpa [Token.toError, Token.errorReason?] using hReason
  unfold mark
  split
  · split
    · exact h
    · exact hMarked _ (by decide)
  · split
    · exact h
    · exact hMarked _ (by decide)
  · split
    · exact h
    · exact hMarked _ (by decide)
  · exact h

theorem Scan.terminating_markAll {tokens : List Token} (h : Terminating tokens) (scan : Scan) :
    Terminating (scan.markAll tokens) := by
  induction tokens generalizing scan with
  | nil => simp [Terminating, markAll]
  | cons t tokens ih =>
    obtain ⟨ht, hRest⟩ := List.forall_mem_cons.mp h
    exact List.forall_mem_cons.mpr ⟨scan.errorReason?_mark ht, ih hRest _⟩

theorem Node.isUnterminated_of_mem (n : Node) : ∀ t ∈ n.unterminated, t.isUnterminated = true := by
  induction n using Node.induct with
  | token t =>
    intro u hu
    rw [Node.unterminated_token] at hu
    split at hu
    · rename_i hReason
      cases List.mem_singleton.mp hu
      exact decide_eq_true hReason
    · cases hu
  | call c ih =>
    intro u hu
    rw [Node.unterminated_call] at hu
    obtain ⟨n, hn, hu⟩ := List.mem_flatMap.mp hu
    exact ih n hn u hu
  | statement s ih =>
    intro u hu
    rw [Node.unterminated_statement] at hu
    obtain ⟨n, hn, hu⟩ := List.mem_flatMap.mp hu
    exact ih n hn u hu

theorem Statement.Sound.isUnterminated_of_mem {s : Statement} (h : s.Sound) :
    ∀ t ∈ s.unterminated, t.isUnterminated = true := by
  intro t ht
  rw [h.unterminated_eq] at ht
  obtain ⟨row, -, ht⟩ := List.mem_flatMap.mp ht
  obtain ⟨n, -, ht⟩ := List.mem_flatMap.mp ht
  exact n.isUnterminated_of_mem t ht

namespace Document

theorem filter_errorsOf {s : Statement} (h : s.Sound) (hTokens : Terminating s.tokens) :
    (errorsOf s).filter (!·.isUnterminated) = s.tokens.filter Token.isError ∧
      (errorsOf s).filter Token.isUnterminated = s.unterminated := by
  have hMarked : ∀ t ∈ s.tokens.filter Token.isError, ¬ t.isUnterminated = true := by
    intro t ht
    simpa [Token.isUnterminated] using hTokens t (List.mem_filter.mp ht).1
  have hCalls := h.isUnterminated_of_mem
  have hKept : (s.tokens.filter Token.isError).filter (!·.isUnterminated) =
      s.tokens.filter Token.isError := List.filter_eq_self.mpr (by simpa using hMarked)
  have hDropped : s.unterminated.filter (!·.isUnterminated) = [] :=
    List.filter_eq_nil_iff.mpr (by simpa using hCalls)
  rw [errorsOf, List.filter_append, List.filter_append]
  constructor
  · rw [hKept, hDropped, List.append_nil]
  · rw [List.filter_eq_nil_iff.mpr hMarked, List.filter_eq_self.mpr hCalls, List.nil_append]

theorem filter_flatMap_errorsOf {forest : List Statement} (h : ∀ s ∈ forest, s.Sound)
    (hTokens : Terminating (forest.flatMap Statement.tokens)) :
    (forest.flatMap errorsOf).filter (!·.isUnterminated) =
        (forest.flatMap Statement.tokens).filter Token.isError ∧
      (forest.flatMap errorsOf).filter Token.isUnterminated =
        forest.flatMap Statement.unterminated := by
  have hOne : ∀ s ∈ forest, _ := fun s hs => filter_errorsOf (h s hs)
    fun t ht => hTokens t (List.mem_flatMap.mpr ⟨s, hs, ht⟩)
  rw [List.filter_flatMap, List.filter_flatMap, List.filter_flatMap]
  constructor
  · rw [List.flatMap_def, List.flatMap_def, List.map_congr_left fun s hs => (hOne s hs).1]
  · rw [List.flatMap_def, List.flatMap_def, List.map_congr_left fun s hs => (hOne s hs).2]

end Document

theorem Position.le_total (p q : Position) : p ≤ q ∨ q ≤ p := by
  rw [le_def, le_def]
  omega

theorem Position.lt_of_le_of_ne {p q : Position} (h : p ≤ q) (hNe : p ≠ q) :
    p.order q = .lt := by
  obtain ⟨row, column⟩ := p
  obtain ⟨row', column'⟩ := q
  rw [le_def] at h
  rw [order_eq_lt_iff]
  rw [ne_eq, Position.mk.injEq] at hNe
  simp only at h ⊢
  omega

theorem Position.not_lt_of_lt {p q : Position} (h : p.order q = .lt) : ¬ q.order p = .lt := by
  rw [order_eq_lt_iff] at h ⊢
  omega

/-- A list that rises strictly is the only one with its members that does. -/
theorem Position.eq_of_perm {α : Type} (start : α → Position) {l m : List α}
    (hl : l.Pairwise fun a b => (start a).order (start b) = .lt)
    (hm : m.Pairwise fun a b => (start a).order (start b) = .lt) (h : l.Perm m) : l = m := by
  apply List.Perm.eq_of_pairwise _ hl hm h
  intro a b _ _ hab hba
  exact absurd hba (Position.not_lt_of_lt hab)

namespace Grammar

theorem filterMap_unclosed?_sublist (tokens : List Token) :
    ((logicalLines tokens).filterMap unclosed?).Sublist tokens := by
  refine List.Sublist.trans ?_ (flatten_logicalLines_sublist tokens)
  induction logicalLines tokens with
  | nil => exact .slnil
  | cons line lines ih =>
    rw [List.flatten_cons]
    rcases hUnclosed : unclosed? line with _ | name
    · rw [List.filterMap_cons_none hUnclosed]
      exact ih.trans (List.sublist_append_right _ _)
    · have hName : [name].Sublist line := List.singleton_sublist.mpr (unclosed?_spec hUnclosed).2
      rw [List.filterMap_cons_some hUnclosed]
      exact hName.append ih

theorem kind_of_mem_filterMap_unclosed? {lines : List (List Token)} :
    ∀ name ∈ lines.filterMap unclosed?, name.kind = .identity := by
  intro name hName
  obtain ⟨line, -, hUnclosed⟩ := List.mem_filterMap.mp hName
  exact (unclosed?_spec hUnclosed).1

/-- Errors among the tokens and names of calls are different tokens. -/
theorem nodup_starts {tokens : List Token}
    (h : tokens.Pairwise fun t u => t.span.start.order u.span.start = .lt) :
    ((tokens.filter Token.isError ++ (logicalLines tokens).filterMap unclosed?).map
      (·.span.start)).Nodup := by
  have hNames : ((logicalLines tokens).filterMap unclosed?).Sublist
      (tokens.filter (!·.isError)) := by
    have hSublist := (filterMap_unclosed?_sublist tokens).filter (!·.isError)
    rwa [List.filter_eq_self.mpr] at hSublist
    intro name hName
    simp [Token.isError_eq, kind_of_mem_filterMap_unclosed? name hName]
  have hStarts : (tokens.map (·.span.start)).Nodup := by
    refine List.pairwise_map.mpr (h.imp ?_)
    intro t u hLt hEq
    rw [hEq, Position.order_eq_lt_iff] at hLt
    omega
  have hAll : ((tokens.filter Token.isError ++ tokens.filter (!·.isError)).map
      (·.span.start)).Nodup :=
    ((List.filter_append_perm Token.isError tokens).map _).nodup_iff.mpr hStarts
  exact hAll.sublist (((List.Sublist.refl _).append hNames).map _)

end Grammar

theorem pairwise_mergeSort_start {l : List Token} (h : (l.map (·.span.start)).Nodup) :
    (l.mergeSort fun a b => a.span.start ≤ b.span.start).Pairwise
      fun a b => a.span.start.order b.span.start = .lt := by
  have hTrans : ∀ a b c : Token, decide (a.span.start ≤ b.span.start) = true →
      decide (b.span.start ≤ c.span.start) = true →
        decide (a.span.start ≤ c.span.start) = true := by
    simp only [decide_eq_true_eq]
    exact fun a b c => Position.le_trans
  have hTotal : ∀ a b : Token, (decide (a.span.start ≤ b.span.start) ||
      decide (b.span.start ≤ a.span.start)) = true := by
    simp only [Bool.or_eq_true, decide_eq_true_eq]
    exact fun a b => Position.le_total _ _
  have hSorted := List.pairwise_mergeSort hTrans hTotal l
  have hDistinct : ((l.mergeSort fun a b => a.span.start ≤ b.span.start).map
      (·.span.start)).Nodup := ((List.mergeSort_perm l _).map _).nodup_iff.mpr h
  refine (hSorted.and (List.pairwise_map.mp hDistinct)).imp ?_
  rintro a b ⟨hLe, hNe⟩
  exact Position.lt_of_le_of_ne (of_decide_eq_true hLe) hNe

/-- The preamble holds no error, so the errors of the lexer are all among the statements. -/
theorem filter_isError_build (tokens : List Token) :
    (Builder.empty.pushAll tokens).preamble.filter Token.isError = [] ∧
      ((build tokens).flatMap Statement.tokens).filter Token.isError =
        (retag tokens).filter Token.isError := by
  have hPreamble : (Builder.empty.pushAll tokens).preamble.filter Token.isError = [] := by
    rw [List.filter_eq_nil_iff]
    intro t ht
    rcases kind_of_mem_preamble ht with hKind | hKind <;> simp [Token.isError_eq, hKind]
  refine ⟨hPreamble, ?_⟩
  rw [← preamble_append_tokens, List.filter_append, hPreamble, List.nil_append]

theorem Scan.filter_isError_sublist (scan : Scan) (tokens : List Token) :
    (tokens.filter Token.isError).Sublist ((scan.markAll tokens).filter Token.isError) := by
  induction tokens generalizing scan with
  | nil => exact .slnil
  | cons t tokens ih =>
    rw [markAll]
    by_cases hError : t.isError = true
    · have hMark : scan.mark t = t := by
        rw [Token.isError_eq, decide_eq_true_eq] at hError
        simp [mark, hError]
      rw [hMark, List.filter_cons_of_pos hError, List.filter_cons_of_pos hError]
      exact (ih _).cons_cons t
    · rw [List.filter_cons_of_neg hError]
      exact (ih _).trans ((List.sublist_cons_self _ _).filter _)

theorem terminating_build {tokens : List Token} (h : Terminating (retag tokens)) :
    Terminating ((build tokens).flatMap Statement.tokens) := by
  intro t ht
  apply h
  rw [← preamble_append_tokens]
  exact List.mem_append_right _ ht

theorem nodup_starts_errorsOf {tokens : List Token} (hTokens : Terminating (retag tokens))
    (h : (retag tokens).Pairwise fun t u => t.span.start.order u.span.start = .lt) :
    (((build tokens).flatMap Document.errorsOf).map (·.span.start)).Nodup := by
  obtain ⟨hMarked, hCalls⟩ :=
    Document.filter_flatMap_errorsOf (fun s => sound_of_mem_build) (terminating_build hTokens)
  have hSplit := (List.filter_append_perm Token.isUnterminated
    ((build tokens).flatMap Document.errorsOf)).map (·.span.start)
  rw [← hSplit.nodup_iff, hMarked, hCalls, List.map_append, unterminated_build hTokens,
    (filter_isError_build tokens).2, ← List.map_append]
  exact (List.perm_append_comm.map _).nodup_iff.mp (Grammar.nodup_starts h)

/-- The errors of a source stand in a strict order of where they start. Those that are not for
unterminated calls are the error tokens of the top-level statements: all that the lexer found and
all misplaced punctuation, and none is before the first statement. Those for unterminated calls are
one for each line that leaves a call open, and each starts with the name of the outermost call that
its line leaves open. -/
theorem errors_parse_spec (source : String) :
    (Document.parse source).errors.Pairwise
        (fun a b => a.span.start.order b.span.start = .lt) ∧
      (Document.parse source).errors.filter (!·.isUnterminated) =
        ((Document.parse source).statements.flatMap Statement.tokens).filter (·.kind = .error) ∧
      ((Document.parse source).statements.flatMap Statement.tokens).filter (·.kind = .error) =
        (retag (tokenize source)).filter (·.kind = .error) ∧
      ((tokenize source).filter (·.kind = .error)).Sublist (Document.parse source).errors ∧
      (Document.parse source).preamble.filter (·.kind = .error) = [] ∧
      ((Document.parse source).errors.filter Token.isUnterminated).map (·.span.start) =
        ((Grammar.logicalLines (retag (tokenize source))).filterMap Grammar.unclosed?).map
          (·.span.start) := by
  have hKind : (fun t : Token => decide (t.kind = .error)) = Token.isError :=
    funext fun t => t.isError_eq.symm
  rw [hKind]
  have hTokens : Terminating (retag (tokenize source)) :=
    Scan.terminating_markAll (lexes_tokenize source).terminating Scan.start
  have hRising := (covers_tokenize source).retag.tiles.pairwise_start
  have hErrors := pairwise_mergeSort_start (nodup_starts_errorsOf hTokens hRising)
  have hPerm : (Document.parse source).errors.Perm
      ((build (tokenize source)).flatMap Document.errorsOf) := List.mergeSort_perm _ _
  obtain ⟨hMarked, hCalls⟩ :=
    Document.filter_flatMap_errorsOf (fun s => sound_of_mem_build) (terminating_build hTokens)
  obtain ⟨hPreamble, hRaw⟩ := filter_isError_build (tokenize source)
  have hListed : (Document.parse source).errors.filter (!·.isUnterminated) =
      ((Document.parse source).statements.flatMap Statement.tokens).filter Token.isError := by
    apply Position.eq_of_perm (·.span.start) (hErrors.sublist List.filter_sublist)
    · rw [Document.parse, ← build, hRaw]
      exact hRising.sublist List.filter_sublist
    · rw [Document.parse, ← build, ← hMarked]
      exact hPerm.filter _
  refine ⟨hErrors, hListed, hRaw, ?_, hPreamble, ?_⟩
  · have hLexed := Scan.start.filter_isError_sublist (tokenize source)
    rw [← retag, ← hRaw] at hLexed
    exact (hListed ▸ hLexed).trans List.filter_sublist
  · have hStarts : ((Document.parse source).errors.map (·.span.start)).Pairwise
        fun p q => p.order q = .lt := List.pairwise_map.mpr hErrors
    have hNames : (((Grammar.logicalLines (retag (tokenize source))).filterMap
        Grammar.unclosed?).map (·.span.start)).Pairwise fun p q => p.order q = .lt :=
      List.pairwise_map.mpr (hRising.sublist (Grammar.filterMap_unclosed?_sublist _))
    apply Position.eq_of_perm id (hStarts.sublist (List.filter_sublist.map _)) hNames
    rw [← unterminated_build hTokens, ← hCalls]
    exact (hPerm.filter _).map _

end Outline
