import Outline.Proofs.Builder.Retagging
import Outline.Proofs.Lexing.Rule
import Outline.Proofs.Position

/-! # Tokens lie end to end

The tokens of a source have the spans that their texts make, each from the end of the one before it,
and together they are the source. A run of such tokens has the span and the text of a piece of the
source, which is all that a composite needs.
-/
namespace Outline
set_option autoImplicit false

namespace Token

/-- The tokens lie end to end from a position on, none of them is empty, and each has the span of
its text. -/
def Tiles (p : Position) : List Token → Prop
  | [] => True
  | t :: tokens => t.text ≠ "" ∧ t.span = ⟨p, p.advance t.text.toList⟩ ∧
      Tiles (p.advance t.text.toList) tokens

theorem joinedText_append (tokens more : List Token) :
    joinedText (tokens ++ more) = joinedText tokens ++ joinedText more := by
  rw [← String.toList_inj]
  simp [toList_joinedText]

theorem joinedText_cons (t : Token) (tokens : List Token) :
    joinedText (t :: tokens) = t.text ++ joinedText tokens := by
  rw [← String.toList_inj]
  simp [toList_joinedText]

theorem tiles_append {p : Position} {tokens more : List Token} :
    Tiles p (tokens ++ more) ↔
      Tiles p tokens ∧ Tiles (p.advance (joinedText tokens).toList) more := by
  induction tokens generalizing p with
  | nil => simp [Tiles]
  | cons t tokens ih =>
    simp only [List.cons_append, Tiles, ih, joinedText_cons, String.toList_append,
      Position.advance_append, and_assoc]

variable {p : Position} {tokens : List Token}

theorem Tiles.getLast_span (h : Tiles p tokens) {last : Token}
    (hLast : tokens.getLast? = some last) :
    last.span.stop = p.advance (joinedText tokens).toList := by
  obtain ⟨front, rfl⟩ := List.getLast?_eq_some_iff.mp hLast
  obtain ⟨_, _, hSpan, _⟩ := tiles_append.mp h
  rw [hSpan, joinedText_append, String.toList_append, Position.advance_append]
  simp [joinedText]

theorem Tiles.spanOf_eq (h : Tiles p tokens) (hTokens : tokens ≠ []) :
    spanOf tokens = ⟨p, p.advance (joinedText tokens).toList⟩ := by
  obtain ⟨first, rest, rfl⟩ := List.exists_cons_of_ne_nil hTokens
  have hLast := List.getLast?_eq_some_getLast hTokens
  rw [spanOf, List.head?_cons, hLast]
  simp only [Span.join, h.getLast_span hLast]
  rw [h.2.1]

theorem Tiles.joinedText_ne_nil (h : Tiles p tokens) (hTokens : tokens ≠ []) :
    (joinedText tokens).toList ≠ [] := by
  obtain ⟨first, rest, rfl⟩ := List.exists_cons_of_ne_nil hTokens
  have hText := h.1
  rw [joinedText_cons, String.toList_append]
  simp [hText]

theorem Tiles.of_infix (h : Tiles p tokens) {run : List Token} (hRun : run <:+: tokens) :
    ∃ q, Tiles q run := by
  obtain ⟨before, behind, rfl⟩ := hRun
  exact ⟨_, (tiles_append.mp (tiles_append.mp h).1).2⟩

theorem Tiles.le_start (h : Tiles p tokens) : ∀ t ∈ tokens, p ≤ t.span.start := by
  induction tokens generalizing p with
  | nil => simp
  | cons t tokens ih =>
    obtain ⟨-, hSpan, hRest⟩ := h
    rintro u (_ | ⟨_, hu⟩)
    · rw [hSpan]
      exact Position.le_refl p
    · exact Position.le_trans (Position.le_advance p _) (ih hRest u hu)

theorem Tiles.pairwise_start (h : Tiles p tokens) :
    tokens.Pairwise fun t u => t.span.start.order u.span.start = .lt := by
  induction tokens generalizing p with
  | nil => exact .nil
  | cons t tokens ih =>
    obtain ⟨hText, hSpan, hRest⟩ := h
    refine List.pairwise_cons.mpr ⟨?_, ih hRest⟩
    intro u hu
    have hNonempty : t.text.toList ≠ [] := by simpa using hText
    have hAfter := Position.order_eq_lt_iff.mp (Position.order_advance hNonempty p)
    have hLater := Position.le_def.mp (hRest.le_start u hu)
    have hStart : t.span.start = p := congrArg Span.start hSpan
    rw [Position.order_eq_lt_iff, hStart]
    omega

/-- A part of a run lies inside the span of the run. -/
theorem Tiles.encloses (h : Tiles p tokens) {run : List Token} (hRun : run <:+: tokens)
    (hNonempty : run ≠ []) : (spanOf tokens).encloses (spanOf run) = true := by
  obtain ⟨before, behind, rfl⟩ := hRun
  have hParts := tiles_append.mp h
  have hInner := (tiles_append.mp hParts.1).2
  rw [h.spanOf_eq (by simp [hNonempty]), hInner.spanOf_eq hNonempty, Span.encloses]
  simp only [joinedText_append, String.toList_append, Position.advance_append, Bool.and_eq_true,
    decide_eq_true_eq]
  exact ⟨Position.le_advance _ _, Position.le_advance _ _⟩

end Token

namespace Scan

@[simp] theorem span_mark (scan : Scan) (t : Token) : (scan.mark t).span = t.span := by
  unfold mark
  split <;> (try split) <;> rfl

@[simp] theorem text_mark (scan : Scan) (t : Token) : (scan.mark t).text = t.text := by
  unfold mark
  split <;> (try split) <;> rfl

theorem tiles_markAll {p : Position} {tokens : List Token} (scan : Scan) :
    Token.Tiles p (scan.markAll tokens) ↔ Token.Tiles p tokens := by
  induction tokens generalizing p scan with
  | nil => rfl
  | cons t tokens ih => simp [markAll, Token.Tiles, ih]

theorem joinedText_markAll (scan : Scan) (tokens : List Token) :
    Token.joinedText (scan.markAll tokens) = Token.joinedText tokens := by
  induction tokens generalizing scan with
  | nil => rfl
  | cons t tokens ih => simp [markAll, Token.joinedText_cons, ih]

end Scan

theorem Lexes.tiles {p : Position} {text : List Char} {tokens : List Token}
    (h : Lexes p text tokens) : Token.Tiles p tokens := by
  have hNonempty := h.text_ne_empty
  induction h with
  | nil => trivial
  | cons hCut _ ih =>
    obtain ⟨hFirst, hRest⟩ := List.forall_mem_cons.mp hNonempty
    exact ⟨hFirst, by simp, by simpa using ih hRest⟩

theorem Lexes.joinedText_eq {p : Position} {text : List Char} {tokens : List Token}
    (h : Lexes p text tokens) : (Token.joinedText tokens).toList = text := by
  induction h with
  | nil => rfl
  | cons hCut _ ih => simp [Token.joinedText_cons, ih]

/-- The tokens lie end to end from the first position on, and together they are the text. -/
structure Token.Covers (tokens : List Token) (text : List Char) : Prop where
  tiles : Token.Tiles .origin tokens
  joined : (Token.joinedText tokens).toList = text

theorem covers_tokenize (source : String) :
    Token.Covers (tokenize source) (normalizeLineEnds source).toList :=
  ⟨(lexes_tokenize source).tiles, (lexes_tokenize source).joinedText_eq⟩

theorem Token.Covers.retag {tokens : List Token} {text : List Char} (h : Token.Covers tokens text) :
    Token.Covers (retag tokens) text where
  tiles := (Scan.tiles_markAll _).mpr h.tiles
  joined := by
    rw [Outline.retag, Scan.joinedText_markAll]
    exact h.joined

end Outline
