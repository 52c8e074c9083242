import Outline.Document
import Outline.Proofs.Lexing.Splitting

/-! # Documents and line ends

A document is decided by its source with the line ends folded, and the source can be read off its
tokens. So folding twice changes a document exactly if it changes the text again, and that happens
if the first pass, which does not look back, puts a carriage return before a line feed.
-/
namespace Outline
set_option autoImplicit false

theorem not_starts_pair {c : Char} {rest : List Char}
    (h : ∀ more, c = '\r' → rest = '\n' :: more → False) : ¬ ['\r', '\n'] <+: c :: rest := by
  rintro ⟨more, hMore⟩
  obtain ⟨hReturn, hFeed⟩ := List.cons.inj hMore
  exact h more hReturn.symm hFeed.symm

theorem foldLineEnds_eq_self_iff {text : List Char} :
    foldLineEnds text = text ↔ ¬ ['\r', '\n'] <:+: text := by
  refine ⟨?_, foldLineEnds_eq_self⟩
  fun_induction foldLineEnds text with
  | case1 rest _ =>
    intro h
    simp at h
  | case2 c rest hPair ih =>
    intro h
    rw [List.infix_cons_iff, not_or]
    exact ⟨not_starts_pair hPair, ih (List.cons.inj h).2⟩
  | case3 => simp

theorem lineFeed_prefix_foldLineEnds_iff {text : List Char} :
    ['\n'] <+: foldLineEnds text ↔ ['\n'] <+: text ∨ ['\r', '\n'] <+: text := by
  fun_cases foldLineEnds text with
  | case1 rest => simp
  | case2 c rest hPair =>
    simp only [not_starts_pair hPair, or_false, List.cons_prefix_cons, List.nil_prefix, and_true]
  | case3 => simp

theorem pair_infix_foldLineEnds_iff {text : List Char} :
    ['\r', '\n'] <:+: foldLineEnds text ↔ ['\r', '\r', '\n'] <:+: text := by
  fun_induction foldLineEnds text with
  | case1 rest ih =>
    simp [List.infix_cons_iff, ih]
  | case2 c rest hPair ih =>
    rw [List.infix_cons_iff, List.infix_cons_iff, ih, List.cons_prefix_cons,
      List.cons_prefix_cons, lineFeed_prefix_foldLineEnds_iff]
    constructor
    · rintro (⟨hReturn, hFeed | hNext⟩ | hRest)
      · exact absurd (List.cons_prefix_cons.mpr ⟨hReturn, hFeed⟩) (not_starts_pair hPair)
      · exact .inl ⟨hReturn, hNext⟩
      · exact .inr hRest
    · rintro (⟨hReturn, hNext⟩ | hRest)
      · exact .inl ⟨hReturn, .inr hNext⟩
      · exact .inr hRest
  | case3 => simp

example : foldLineEnds ['\r', '\r', '\n'] = ['\r', '\n'] := rfl

/-- Two sources make the same document exactly if they are the same text but for line ends. -/
theorem parse_eq_iff_normalizeLineEnds_eq (s t : String) :
    Document.parse s = Document.parse t ↔ normalizeLineEnds s = normalizeLineEnds t := by
  constructor
  · intro h
    have hTokens : tokenize s = tokenize t := congrArg Document.tokens h
    rw [← String.toList_inj, ← (lexes_tokenize s).joinedText_eq, hTokens,
      (lexes_tokenize t).joinedText_eq]
  · intro h
    have hText : foldLineEnds s.toList = foldLineEnds t.toList := by
      simpa [normalizeLineEnds] using congrArg String.toList h
    rw [Document.parse, Document.parse, tokenize, tokenize, Cursor.ofSource, Cursor.ofSource, hText]

/-- Folding the line ends of a source before it is parsed makes a difference exactly if two carriage
returns stand before a line feed, because only then a paired line end is left in the result. -/
theorem parse_normalizeLineEnds_eq_iff (source : String) :
    (Document.parse (normalizeLineEnds source) = Document.parse source ↔
      ¬ ['\r', '\r', '\n'] <:+: source.toList) ∧
    (['\r', '\n'] <:+: (normalizeLineEnds source).toList ↔
      ['\r', '\r', '\n'] <:+: source.toList) := by
  have hLeft : ['\r', '\n'] <:+: (normalizeLineEnds source).toList ↔
      ['\r', '\r', '\n'] <:+: source.toList := by
    rw [normalizeLineEnds, String.toList_ofList, pair_infix_foldLineEnds_iff]
  have hAgain : normalizeLineEnds (normalizeLineEnds source) = normalizeLineEnds source ↔
      foldLineEnds (normalizeLineEnds source).toList = (normalizeLineEnds source).toList := by
    rw [← String.toList_inj, normalizeLineEnds, String.toList_ofList]
  refine ⟨?_, hLeft⟩
  rw [parse_eq_iff_normalizeLineEnds_eq, hAgain, foldLineEnds_eq_self_iff, hLeft]

end Outline
