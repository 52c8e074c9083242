import Mathlib.Data.List.Infix
import Outline.Document
import Outline.Proofs.Builder.Structure
import Outline.Proofs.Lexing.Tiling

/-! # All that a document holds lies in its source

A document shows a piece of its source in several places: in the flat tokens, in the tokens kept
with a composite, and as an element, a parameter or a child. Wherever a node stands, its text is a
piece of the source and its span is where that piece is.
-/
namespace Outline
set_option autoImplicit false

/-- The nodes of a document, at any depth and in any of its views. -/
inductive Document.Holds (d : Document) : Node → Prop where
  | token {t : Token} : t ∈ d.tokens → Holds d (.token t)
  | preamble {t : Token} : t ∈ d.preamble → Holds d (.token t)
  | statement {s : Statement} : s ∈ d.statements → Holds d (.statement s)
  | statementToken {s : Statement} {t : Token} : Holds d (.statement s) → t ∈ s.tokens →
      Holds d (.token t)
  | element {s : Statement} {n : Node} : Holds d (.statement s) → n ∈ s.elements → Holds d n
  | child {s c : Statement} : Holds d (.statement s) → c ∈ s.children → Holds d (.statement c)
  | name {c : Call} : Holds d (.call c) → Holds d (.token c.name)
  | callToken {c : Call} {t : Token} : Holds d (.call c) → t ∈ c.tokens → Holds d (.token t)
  | parameter {c : Call} {n : Node} : Holds d (.call c) → n ∈ c.parameters → Holds d n

theorem Node.eq_call_of_kind {n : Node} (h : n.kind = .call) : ∃ c, n = .call c := by
  cases n with
  | token t =>
    rw [Node.kind, Token.kind] at h
    cases hContent : t.content <;> simp [hContent, Content.kind] at h
  | call c => exact ⟨c, rfl⟩
  | statement s => cases h

/-- The run of a node; a statement stands for its tokens. -/
def Node.StandsFor : Node → List Token → Prop
  | .statement s, run => s.Sound ∧ run = s.tokens
  | n, run => n.Spells run

theorem Node.Spells.standsFor {n : Node} {run : List Token} (h : n.Spells run) :
    n.StandsFor run := by
  cases h with
  | token t => exact .token t
  | unterminated h => exact .unterminated h
  | call hName hTrailing hOpening hClosing hBody hTokens hSpan hText =>
    exact .call hName hTrailing hOpening hClosing hBody hTokens hSpan hText

theorem tokens_infix_flatMap {s : Statement} {statements : List Statement}
    (h : s ∈ statements) : s.tokens <:+: statements.flatMap Statement.tokens := by
  rw [List.flatMap_def]
  exact List.infix_of_mem_flatten (List.mem_map_of_mem h)

namespace Node.StandsFor
variable {n : Node} {run : List Token}

theorem ne_nil (h : n.StandsFor run) : run ≠ [] := by
  cases n with
  | token t => exact Node.Spells.ne_nil h
  | call c => exact Node.Spells.ne_nil h
  | statement s =>
    obtain ⟨hSound, rfl⟩ := h
    exact hSound.ne_nil

theorem span_eq (h : n.StandsFor run) : n.span = Token.spanOf run := by
  cases n with
  | token t => exact Node.Spells.span_eq h
  | call c => exact Node.Spells.span_eq h
  | statement s =>
    obtain ⟨hSound, rfl⟩ := h
    exact hSound.span_eq

theorem text_eq (h : n.StandsFor run) : n.text = Token.joinedText run := by
  cases n with
  | token t => exact Node.Spells.text_eq h
  | call c => exact Node.Spells.text_eq h
  | statement s =>
    obtain ⟨hSound, rfl⟩ := h
    exact hSound.text_eq

end Node.StandsFor

theorem Statement.Sound.element {s : Statement} (h : s.Sound) {n : Node} (hn : n ∈ s.elements) :
    ∃ run, n.Spells run ∧ run <:+: s.tokens := by
  obtain ⟨_, hFactors, hTokens, _⟩ := h
  obtain ⟨run, hSettled, hInfix⟩ := hFactors.exists_run hn
  refine ⟨run, hSettled.spells, hInfix.trans ?_⟩
  rw [hTokens]
  exact (List.prefix_append _ _).isInfix

theorem Statement.Sound.child {s c : Statement} (h : s.Sound) (hc : c ∈ s.children) :
    c.Sound ∧ c.tokens <:+: s.tokens := by
  obtain ⟨_, _, hTokens, _, _, _, hChildren⟩ := h
  refine ⟨hChildren c hc, (tokens_infix_flatMap hc).trans ?_⟩
  rw [hTokens]
  exact (List.suffix_append _ _).isInfix

theorem Node.Spells.parameter {c : Call} {run : List Token} (h : (Node.call c).Spells run)
    {n : Node} (hn : n ∈ c.parameters) : ∃ inner, n.Spells inner ∧ inner <:+: run := by
  cases h with
  | @call _ trailing body opening closing _ _ _ _ hBody hTokens _ _ =>
    obtain ⟨inner, hSpells, hInfix⟩ := hBody.exists_run hn
    refine ⟨inner, hSpells, hInfix.trans ?_⟩
    exact ⟨c.name :: trailing ++ [opening], [closing], by simp [hTokens]⟩

theorem Node.Spells.call_eq {c : Call} {run : List Token} (h : (Node.call c).Spells run) :
    run = c.tokens ∧ c.name ∈ c.tokens := by
  cases h with
  | call _ _ _ _ _ hTokens _ _ => exact ⟨rfl, by simp [hTokens]⟩

/-- A node of a document stands for a run within tokens that cover the source: those of the lexer,
or the same with misplaced punctuation marked. -/
theorem Document.Holds.exists_run {source : String} {n : Node}
    (h : (Document.parse source).Holds n) :
    ∃ stream run, Token.Covers stream (normalizeLineEnds source).toList ∧ run <:+: stream ∧
      n.StandsFor run := by
  have hCovers := covers_tokenize source
  have hStream := preamble_append_tokens (tokenize source)
  -- What is nested in a node stays in the stream of that node; only the roots choose one.
  induction h with
  | @token t ht => exact ⟨_, [t], hCovers, (List.singleton_infix_iff _ _).mpr ht, .token t⟩
  | @preamble t ht =>
    refine ⟨_, [t], hCovers.retag, ((List.singleton_infix_iff _ _).mpr ht).trans ?_, .token t⟩
    rw [← hStream]
    exact (List.prefix_append _ _).isInfix
  | @statement s hs =>
    refine ⟨_, s.tokens, hCovers.retag, (tokens_infix_flatMap hs).trans ?_,
      sound_of_mem_build hs, rfl⟩
    rw [← hStream]
    exact (List.suffix_append _ _).isInfix
  | @statementToken s t _ ht ih =>
    obtain ⟨stream, run, hStream, hInfix, hSound, rfl⟩ := ih
    exact ⟨stream, [t], hStream, ((List.singleton_infix_iff _ _).mpr ht).trans hInfix, .token t⟩
  | element _ hn ih =>
    obtain ⟨stream, run, hStream, hInfix, hSound, rfl⟩ := ih
    obtain ⟨inner, hSpells, hInner⟩ := hSound.element hn
    exact ⟨stream, inner, hStream, hInner.trans hInfix, hSpells.standsFor⟩
  | child _ hc ih =>
    obtain ⟨stream, run, hStream, hInfix, hSound, rfl⟩ := ih
    obtain ⟨hChild, hInner⟩ := hSound.child hc
    exact ⟨stream, _, hStream, hInner.trans hInfix, hChild, rfl⟩
  | @name c _ ih =>
    obtain ⟨stream, run, hStream, hInfix, hCall⟩ := ih
    obtain ⟨rfl, hName⟩ := Node.Spells.call_eq hCall
    exact ⟨stream, [c.name], hStream, ((List.singleton_infix_iff _ _).mpr hName).trans hInfix,
      .token c.name⟩
  | @callToken c t _ ht ih =>
    obtain ⟨stream, run, hStream, hInfix, hCall⟩ := ih
    obtain ⟨rfl, _⟩ := Node.Spells.call_eq hCall
    exact ⟨stream, [t], hStream, ((List.singleton_infix_iff _ _).mpr ht).trans hInfix, .token t⟩
  | parameter _ hn ih =>
    obtain ⟨stream, run, hStream, hInfix, hCall⟩ := ih
    obtain ⟨inner, hSpells, hInner⟩ := Node.Spells.parameter hCall hn
    exact ⟨stream, inner, hStream, hInner.trans hInfix, hSpells.standsFor⟩

/-- The text is the piece of the source from one offset to a later one, and the span runs between
the positions of these. -/
def Located (source : List Char) (span : Span) (text : String) : Prop :=
  ∃ a b, a < b ∧ b ≤ source.length ∧ span.start = .ofOffset source a ∧
    span.stop = .ofOffset source b ∧ text.toList = (source.take b).drop a

theorem Token.Covers.located {stream run : List Token} {source : List Char}
    (h : Token.Covers stream source) (hRun : run <:+: stream) (hNonempty : run ≠ []) :
    Located source (Token.spanOf run) (Token.joinedText run) ∧
      (Token.spanOf run).start.order (Token.spanOf run).stop = .lt := by
  obtain ⟨before, behind, rfl⟩ := hRun
  have hTiles := (Token.tiles_append.mp (Token.tiles_append.mp h.tiles).1).2
  have hText := hTiles.joinedText_ne_nil hNonempty
  have hJoined := h.joined
  simp only [Token.joinedText_append, String.toList_append] at hJoined
  rw [hTiles.spanOf_eq hNonempty]
  refine ⟨?_, Position.order_advance hText _⟩
  have hLength := List.length_pos_iff.mpr hText
  -- The piece starts behind the text of the tokens before the run.
  refine ⟨(Token.joinedText before).toList.length,
    (Token.joinedText before).toList.length + (Token.joinedText run).toList.length,
    ?_, ?_, ?_, ?_, ?_⟩
  · omega
  · rw [← hJoined]
    simp only [List.length_append]
    omega
  · rw [← hJoined, ← Position.origin_advance_take, List.append_assoc, List.take_left]
  · rw [← hJoined, ← Position.origin_advance_take, ← List.length_append, List.take_left,
      Position.advance_append]
  · rw [← hJoined, ← List.length_append, List.take_left, List.drop_left]

/-- Whatever a document holds starts before it ends, and its span and text are those of a piece of
the source. -/
theorem located_of_holds (source : String) (n : Node) (h : (Document.parse source).Holds n) :
    n.span.start.order n.span.stop = .lt ∧
      Located (normalizeLineEnds source).toList n.span n.text := by
  obtain ⟨stream, run, hStream, hInfix, hRun⟩ := h.exists_run
  obtain ⟨hLocated, hOrder⟩ := hStream.located hInfix hRun.ne_nil
  rw [hRun.span_eq, hRun.text_eq]
  exact ⟨hOrder, hLocated⟩

/-- The error for an unterminated call that reaches over a line end. -/
theorem located_unterminated_call :
    ∃ n, (Document.parse "f('é\r\nb', c").Holds n ∧ n.text = "f('é\nb', " ∧
      n.span = ⟨⟨1, 1⟩, ⟨2, 5⟩⟩ ∧ n.span.start.order n.span.stop = .lt ∧
      Located (normalizeLineEnds "f('é\r\nb', c").toList n.span n.text := by
  have hHolds : (Document.parse "f('é\r\nb', c").Holds
      (((Document.parse "f('é\r\nb', c").statements.get ⟨0, by decide +kernel⟩).elements.get
        ⟨0, by decide +kernel⟩) :=
    .element (.statement (List.get_mem _ _)) (List.get_mem _ _)
  exact ⟨_, hHolds, by decide +kernel, by decide +kernel, located_of_holds _ _ hHolds⟩

end Outline
