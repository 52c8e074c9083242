import Outline.Format
import Outline.Proofs.Lexing.Tiling
import Outline.Proofs.Token.Display

/-! # The lines of a token listing

A token listing puts the displays of the tokens one below the other. Most displays are one line, but
a string may hold line feeds, and so may an error that takes a string along; these come into the
listing as they are.
-/
namespace Outline
set_option autoImplicit false

/-- The kinds whose text may have line feeds and is displayed as it is. -/
def Token.mayBreak (t : Token) : Bool := t.kind = .string ∨ t.kind = .error

theorem Category.eq_of_mayHold_lineFeed {c : Category} (h : c.pattern.mayHold '\n' = true) :
    c = .newline ∨ ∃ quote, c = .string quote := by
  have hAll : ∀ d ∈ all, d.pattern.mayHold '\n' = true →
      d = .newline ∨ d ∈ [.string .double, .string .single, .string .backtick] := by decide
  rcases hAll c (mem_all c) h with hNewline | hString
  · exact .inl hNewline
  · simp only [List.mem_cons, List.not_mem_nil, or_false] at hString
    rcases hString with rfl | rfl | rfl <;> exact .inr ⟨_, rfl⟩

variable {p : Position} {text : List Char} {tokens : List Token}

theorem Lexes.count_display (h : Lexes p text tokens) : ∀ t ∈ tokens,
    t.display.toList.count '\n' = if t.mayBreak then t.text.toList.count '\n' else 0 := by
  intro t ht
  rw [t.count_display]
  rcases h.eq_error_or_matches t ht with hError | ⟨c, hMatches, hContent⟩
  · simp [Token.summary, Token.mayBreak, Token.kind, Content.kind, hError]
  by_cases hHold : c.pattern.mayHold '\n' = true
  · rcases Category.eq_of_mayHold_lineFeed hHold with rfl | ⟨quote, rfl⟩
    · simp [Token.summary, Token.mayBreak, Token.kind, Content.kind, Category.content, hContent,
        List.count_eq_zero, lineFeed_not_mem_toDigits]
    · simp [Token.summary, Token.mayBreak, Token.kind, Content.kind, Category.content, hContent]
  · have hText : t.text.toList.count '\n' = 0 := by
      apply List.count_eq_zero.mpr
      intro hMem
      exact hHold (Pattern.mayHold_of_matches hMatches hMem)
    rcases t.count_summary with hSummary | hSummary <;> simp [hSummary, hText]

theorem length_flatMap_linesOf (h : ∀ t ∈ tokens,
      t.display.toList.count '\n' = if t.mayBreak then t.text.toList.count '\n' else 0) :
    (tokens.flatMap fun t => linesOf t.display).length =
      tokens.length + (Token.joinedText (tokens.filter Token.mayBreak)).toList.count '\n' := by
  induction tokens with
  | nil => rfl
  | cons t tokens ih =>
    obtain ⟨ht, hRest⟩ := List.forall_mem_cons.mp h
    rw [List.flatMap_cons, List.length_append, length_linesOf, ht, ih hRest]
    cases hBreak : t.mayBreak with
    | false =>
      rw [List.filter_cons_of_neg (by simp [hBreak]), List.length_cons, if_neg (by simp)]
      omega
    | true =>
      rw [List.filter_cons_of_pos hBreak, Token.joinedText_cons, String.toList_append,
        List.count_append, List.length_cons, if_pos rfl]
      omega

/-- A listing has a line for each token, and one more for each line feed in a string or in an error.
So its lines are the displays of the tokens exactly if no string and no error spans lines. -/
theorem linesOf_renderTokens_iff (source : String) (h : tokenize source ≠ []) :
    (linesOf (Format.renderTokens (tokenize source))).length = (tokenize source).length +
        (Token.joinedText ((tokenize source).filter Token.mayBreak)).toList.count '\n' ∧
      (linesOf (Format.renderTokens (tokenize source)) = (tokenize source).map Token.display ↔
        ∀ t ∈ tokenize source, t.kind = .string ∨ t.kind = .error → '\n' ∉ t.text.toList) := by
  have hCount := (lexes_tokenize source).count_display
  have hLines : linesOf (Format.renderTokens (tokenize source)) =
      (tokenize source).flatMap fun t => linesOf t.display := by
    rw [Format.renderTokens, linesOf_intercalate (by simpa using h), List.flatMap_map]
  have hLength := length_flatMap_linesOf hCount
  rw [← hLines] at hLength
  refine ⟨hLength, ?_, ?_⟩
  · intro hEqual t ht hKind hBreak
    rw [hEqual, List.length_map] at hLength
    have hNone : '\n' ∉ (Token.joinedText ((tokenize source).filter Token.mayBreak)).toList := by
      rw [← List.count_eq_zero]
      omega
    apply hNone
    rw [Token.toList_joinedText]
    have hMay : t.mayBreak = true := by simpa [Token.mayBreak] using hKind
    exact List.mem_flatMap.mpr ⟨t, List.mem_filter.mpr ⟨ht, hMay⟩, hBreak⟩
  · intro hNone
    apply linesOf_intercalate_of_lines (by simpa using h)
    intro l hl
    obtain ⟨t, ht, rfl⟩ := List.mem_map.mp hl
    rw [← List.count_eq_zero, hCount t ht]
    split
    · rename_i hBreak
      exact List.count_eq_zero.mpr (hNone t ht (by simpa [Token.mayBreak] using hBreak))
    · rfl

theorem linesOf_renderTokens_iff_error :
    tokenize "|\"\n\n\"" ≠ [] ∧
      (linesOf (Format.renderTokens (tokenize "|\"\n\n\""))).length = 3 ∧
      ¬ linesOf (Format.renderTokens (tokenize "|\"\n\n\"")) =
        (tokenize "|\"\n\n\"").map Token.display := by
  have hSome : tokenize "|\"\n\n\"" ≠ [] := by decide +kernel
  obtain ⟨hLength, hIff⟩ := linesOf_renderTokens_iff _ hSome
  refine ⟨hSome, ?_, ?_⟩
  · rw [hLength]
    decide +kernel
  · rw [hIff]
    decide +kernel

/-- A string that spans two lines is one token and has two lines. -/
theorem not_forall_linesOf_renderTokens_eq :
    ¬ ∀ source : String, tokenize source ≠ [] →
      linesOf (Format.renderTokens (tokenize source)) =
        (tokenize source).map Token.display := by
  intro h
  have hLines := h "\"a\nb\"" (by decide +kernel)
  exact absurd hLines (by decide +kernel)

end Outline
