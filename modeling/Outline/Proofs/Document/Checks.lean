import Outline.Violation
import Outline.Proofs.Document.Contents

/-! # Every parsed document passes the checks

The checks look at texts, spans, indentations and the shape of calls, for documents that need not
come from a source. On the document of a source none of them finds anything: the spans follow from
the tokens lying end to end, the rest from the way in which statements are built.
-/
namespace Outline
set_option autoImplicit false

namespace Check

@[simp] theorem ensure_eq_ok {condition : Bool} {otherwise : Violation} :
    ensure condition otherwise = .ok () ↔ condition = true := by
  unfold ensure
  split <;> simp_all

@[simp] theorem bind_eq_ok {first : Check} {next : Unit → Check} :
    (first >>= next) = .ok () ↔ first = .ok () ∧ next () = .ok () := by
  cases first with
  | error violation => simp [bind, Except.bind]
  | ok _ => simp [bind, Except.bind]

@[simp] theorem forM_eq_ok {α : Type} {items : List α} {check : α → Check} :
    forM items check = .ok () ↔ ∀ item ∈ items, check item = .ok () := by
  induction items with
  | nil => simp [pure, Except.pure]
  | cons item items ih => rw [List.forM_cons, bind_eq_ok, ih, List.forall_mem_cons]

theorem nodeSpan_token {t : Token} {outer : Span} :
    nodeSpan (.token t) outer = .ok () ↔ outer.encloses t.span = true := by
  rw [nodeSpan, Node.fold_token, ensure_eq_ok]

theorem nodeSpan_call {c : Call} {outer : Span} :
    nodeSpan (.call c) outer = .ok () ↔ c.text = Token.joinedText c.tokens ∧
      (∀ n ∈ c.parameters, nodeSpan n outer = .ok ()) ∧ outer.encloses c.span = true := by
  rw [nodeSpan, Node.fold_call, Call.fold_def]
  simp [nodeSpan]

theorem statementSpan_eq_ok {s : Statement} :
    statementSpan s = .ok () ↔ s.text = Token.joinedText s.tokens ∧
      (s.tokens = [] ∨ s.span = Token.spanOf s.tokens) ∧
      (∀ n ∈ s.elements, nodeSpan n s.span = .ok ()) ∧
      ∀ child ∈ s.children, s.span.encloses child.span = true ∧ statementSpan child = .ok () := by
  rw [statementSpan, Statement.fold_def]
  simp [← List.map_prod_left_eq_zip, statementSpan]

theorem indentation_eq_ok {forest : List Statement} :
    indentation forest = .ok () ↔ ∀ s ∈ forest,
      (∀ child ∈ s.children, s.indent < child.indent) ∧ indentation s.children = .ok () := by
  unfold indentation
  rw [List.forM_eq_forM, forM_eq_ok]
  refine forall₂_congr fun s _ => ?_
  rw [Statement.fold_def]
  simp

theorem callsIn_token (t : Token) : callsIn (.token t) = .ok () := by
  rw [callsIn, Node.fold_token]

theorem callsIn_call {c : Call} :
    callsIn (.call c) = .ok () ↔ c.tokens.head?.map (·.text) = some c.name.text ∧
      (∃ t ∈ c.tokens, t.content = .parenthesisOpen) ∧
      c.tokens.getLast?.map (·.content) = some .parenthesisClose ∧
      ∀ n ∈ c.parameters, callsIn n = .ok () := by
  rw [callsIn, Node.fold_call, Call.fold_def]
  simp [callsIn]

theorem calls_eq_ok {forest : List Statement} :
    calls forest = .ok () ↔ ∀ s ∈ forest,
      (∀ n ∈ s.elements, callsIn n = .ok ()) ∧ calls s.children = .ok () := by
  unfold calls
  rw [List.forM_eq_forM, forM_eq_ok]
  refine forall₂_congr fun s _ => ?_
  rw [Statement.fold_def]
  simp

end Check

theorem Token.Tiles.contiguousFrom {p : Position} {tokens : List Token} (h : Token.Tiles p tokens)
    (index : Nat) : Check.contiguousFrom p index tokens = .ok () := by
  induction tokens generalizing p index with
  | nil => rfl
  | cons t tokens ih =>
    obtain ⟨_, hSpan, hRest⟩ := h
    rw [Check.contiguousFrom, Check.bind_eq_ok, Check.ensure_eq_ok, hSpan]
    exact ⟨by simp, ih hRest (index + 1)⟩

theorem Node.Spells.nodeSpan {p : Position} {tokens : List Token} (h : Token.Tiles p tokens)
    (n : Node) : ∀ {run : List Token}, n.Spells run → run <:+: tokens →
      Check.nodeSpan n (Token.spanOf tokens) = .ok () := by
  induction n using Node.induct with
  | token t =>
    intro run hSpells hRun
    rw [Check.nodeSpan_token, show t.span = Token.spanOf run from hSpells.span_eq]
    exact h.encloses hRun hSpells.ne_nil
  | call c ih =>
    intro run hSpells hRun
    obtain ⟨rfl, -⟩ := hSpells.call_eq
    refine Check.nodeSpan_call.mpr ⟨hSpells.text_eq, ?_, ?_⟩
    · intro n hn
      obtain ⟨inner, hInner, hInfix⟩ := hSpells.parameter hn
      exact ih n hn hInner (hInfix.trans hRun)
    · rw [show c.span = Token.spanOf c.tokens from hSpells.span_eq]
      exact h.encloses hRun hSpells.ne_nil
  | statement s _ =>
    intro run hSpells
    cases hSpells

theorem Statement.Sound.statementSpan {p : Position} {s : Statement} (h : s.Sound)
    (hTiles : Token.Tiles p s.tokens) : Check.statementSpan s = .ok () := by
  induction h generalizing p with
  | @intro s own hOwn hFactors hTokens hSpan hText hDeeper hChildren ih =>
    have hSound : s.Sound := .intro hOwn hFactors hTokens hSpan hText hDeeper hChildren
    refine Check.statementSpan_eq_ok.mpr ⟨hText, .inr hSpan, ?_, ?_⟩
    · intro n hn
      obtain ⟨run, hSpells, hInfix⟩ := hSound.element hn
      rw [hSpan]
      exact hSpells.nodeSpan hTiles n hInfix
    · intro child hc
      obtain ⟨hChild, hInfix⟩ := hSound.child hc
      obtain ⟨q, hInner⟩ := hTiles.of_infix hInfix
      refine ⟨?_, ih child hc hInner⟩
      rw [hSpan, hChild.span_eq]
      exact hTiles.encloses hInfix hChild.ne_nil

theorem Statement.Sound.indentation {s : Statement} (h : s.Sound) :
    Check.indentation s.children = .ok () := by
  induction h with
  | intro _ _ _ _ _ _ hChildren ih =>
    rw [Check.indentation_eq_ok]
    intro child hc
    exact ⟨(hChildren child hc).deeper, ih child hc⟩

theorem Node.Spells.callsIn (n : Node) :
    ∀ {run : List Token}, n.Spells run → Check.callsIn n = .ok () := by
  induction n using Node.induct with
  | token t =>
    intro run _
    exact Check.callsIn_token t
  | call c ih =>
    intro run hSpells
    have hParameters : ∀ n ∈ c.parameters, Check.callsIn n = .ok () := by
      intro n hn
      obtain ⟨inner, hInner, -⟩ := hSpells.parameter hn
      exact ih n hn hInner
    cases hSpells with
    | @call _ trailing body opening closing _ _ hOpening hClosing _ hTokens _ _ =>
      refine Check.callsIn_call.mpr ⟨by simp [hTokens], ⟨opening, ?_, ?_⟩, ?_, hParameters⟩
      · simp [hTokens]
      · exact Content.eq_parenthesisOpen hOpening
      · rw [hTokens, List.getLast?_concat, Option.map_some, Content.eq_parenthesisClose hClosing]
  | statement s _ =>
    intro run hSpells
    cases hSpells

theorem Statement.Sound.callsIn {s : Statement} (h : s.Sound) {n : Node} (hn : n ∈ s.elements) :
    Check.callsIn n = .ok () := by
  obtain ⟨run, hSpells, -⟩ := h.element hn
  exact hSpells.callsIn n

theorem Statement.Sound.calls {s : Statement} (h : s.Sound) :
    Check.calls s.children = .ok () := by
  induction h with
  | intro _ _ _ _ _ _ hChildren ih =>
    rw [Check.calls_eq_ok]
    intro child hc
    exact ⟨fun n hn => (hChildren child hc).callsIn hn, ih child hc⟩

theorem joinedText_flatMap_tokens {statements : List Statement}
    (h : ∀ s ∈ statements, s.Sound) :
    Token.joinedText (statements.flatMap Statement.tokens) =
      String.join (statements.map (·.text)) := by
  induction statements with
  | nil => rfl
  | cons s statements ih =>
    obtain ⟨hs, hRest⟩ := List.forall_mem_cons.mp h
    rw [List.flatMap_cons, Token.joinedText_append, ih hRest, List.map_cons, hs.text_eq]
    rw [← String.toList_inj]
    simp

theorem preamble_parse (source : String) :
    (Document.parse source).preamble.all (!Builder.startsStatement ·) = true := by
  rw [List.all_eq_true]
  intro t ht
  rw [Builder.startsStatement_eq, Bool.not_not]
  exact decide_eq_true (kind_of_mem_preamble ht)

theorem sound_of_mem_parse {source : String} {s : Statement}
    (hs : s ∈ (Document.parse source).statements) : s.Sound :=
  sound_of_mem_build hs

theorem statementSpan_parse {source : String} {s : Statement}
    (hs : s ∈ (Document.parse source).statements) : Check.statementSpan s = .ok () := by
  have hInfix : s.tokens <:+: retag (tokenize source) := by
    rw [← preamble_append_tokens]
    exact (tokens_infix_flatMap hs).trans (List.suffix_append _ _).isInfix
  obtain ⟨p, hTiles⟩ := (covers_tokenize source).retag.tiles.of_infix hInfix
  exact (sound_of_mem_parse hs).statementSpan hTiles

theorem coverage_parse (source : String) : Check.coverage (Document.parse source) = .ok () := by
  have hText : Token.joinedText (Document.parse source).preamble ++
      String.join ((Document.parse source).statements.map (·.text)) =
        Token.joinedText (Document.parse source).tokens := by
    rw [← joinedText_flatMap_tokens fun s hs => sound_of_mem_parse hs, ← Token.joinedText_append]
    refine (congrArg Token.joinedText (preamble_append_tokens (tokenize source))).trans ?_
    exact Scan.joinedText_markAll _ _
  simp only [Check.coverage, Check.bind_eq_ok, Check.ensure_eq_ok, List.forM_eq_forM,
    Check.forM_eq_ok, decide_eq_true_eq]
  exact ⟨preamble_parse source, fun s hs => statementSpan_parse hs, hText⟩

/-- Every source passes every check, and beyond them each composite, calls included, has the span
and the text of its tokens. -/
theorem check_all_eq_ok (source : String) :
    Check.all source = .ok () ∧
      (∀ c, (Document.parse source).Holds (.call c) →
        c.span = Token.spanOf c.tokens ∧ c.text = Token.joinedText c.tokens) ∧
      ∀ s, (Document.parse source).Holds (.statement s) →
        s.span = Token.spanOf s.tokens ∧ s.text = Token.joinedText s.tokens := by
  have hCovers := covers_tokenize source
  have hSound : ∀ s ∈ (Document.parse source).statements, s.Sound := fun _ => sound_of_mem_parse
  refine ⟨?_, ?_, ?_⟩
  · simp only [Check.all, Check.bind_eq_ok]
    refine ⟨?_, hCovers.tiles.contiguousFrom 0, coverage_parse source, ?_, ?_⟩
    · rw [Check.lossless, Check.ensure_eq_ok, decide_eq_true_eq, ← String.toList_inj]
      exact hCovers.joined
    · rw [Check.indentation_eq_ok]
      exact fun s hs => ⟨(hSound s hs).deeper, (hSound s hs).indentation⟩
    · rw [Check.calls_eq_ok]
      exact fun s hs => ⟨fun n hn => (hSound s hs).callsIn hn, (hSound s hs).calls⟩
  · intro c hc
    obtain ⟨_, run, _, _, hRun⟩ := hc.exists_run
    obtain ⟨rfl, _⟩ := Node.Spells.call_eq hRun
    exact ⟨hRun.span_eq, hRun.text_eq⟩
  · intro s hs
    obtain ⟨_, run, _, _, hSound, rfl⟩ := hs.exists_run
    exact ⟨hSound.span_eq, hSound.text_eq⟩

/-- A call around a misplaced parenthesis, above a line that is an error. -/
theorem check_all_eq_ok_call :
    Check.all "f(x, (1)\n  'y" = .ok () ∧
      ∃ c, (Document.parse "f(x, (1)\n  'y").Holds (.call c) ∧ c.text = "f(x, (1)" ∧
        c.span = Token.spanOf c.tokens ∧ c.text = Token.joinedText c.tokens := by
  obtain ⟨hAll, hCalls, _⟩ := check_all_eq_ok "f(x, (1)\n  'y"
  obtain ⟨n, hHolds, hKind, hText⟩ : ∃ n, (Document.parse "f(x, (1)\n  'y").Holds n ∧
      n.kind = .call ∧ n.text = "f(x, (1)" :=
    ⟨((Document.parse "f(x, (1)\n  'y").statements.get ⟨0, by decide +kernel⟩).elements.get
        ⟨0, by decide +kernel⟩,
      .element (.statement (List.get_mem _ _)) (List.get_mem _ _), by decide +kernel,
      by decide +kernel⟩
  obtain ⟨c, rfl⟩ := Node.eq_call_of_kind hKind
  exact ⟨hAll, c, hHolds, hText, hCalls c hHolds⟩

end Outline
