import Outline.Proofs.Document.Contents

/-! # The structure of a document factors its tokens

A statement or a call keeps its tokens beside its structure. For tokens that may come from anywhere,
the structure cuts the tokens of each composite into the runs of its parts, in order and without
remainder but for the gaps named here; and a call ends with the parenthesis that closes its own
opening one, because what stands between the two is balanced.
-/
namespace Outline
set_option autoImplicit false

/-- The document made of any tokens; they need not be those of a source. -/
def Document.ofTokens (tokens : List Token) : Document :=
  ⟨tokens, (Builder.empty.pushAll tokens).preamble, build tokens⟩

/-- The run of a part among the tokens of the composite that it belongs to. -/
def Node.TakesUp : Node → List Token → Prop
  | .token t, run => run = [t] ∨ run ≠ [] ∧
      t = ⟨.error .missingClosingParenthesis, Token.spanOf run, Token.joinedText run⟩
  | .call c, run => run = c.tokens
  | .statement _, _ => False

/-- Every opening parenthesis is closed, and every closing one closes an opening one. -/
inductive Token.Balanced : List Token → Prop where
  | nil : Balanced []
  | other {t : Token} {tokens : List Token} : t.kind ≠ .parenthesisOpen →
      t.kind ≠ .parenthesisClose → Balanced tokens → Balanced (t :: tokens)
  | group {opening closing : Token} {inner tokens : List Token} :
      opening.kind = .parenthesisOpen → closing.kind = .parenthesisClose → Balanced inner →
      Balanced tokens → Balanced (opening :: inner ++ closing :: tokens)

namespace Token.Balanced

theorem append {s t : List Token} (hs : Balanced s) (ht : Balanced t) : Balanced (s ++ t) := by
  induction hs with
  | nil => exact ht
  | other hOpening hClosing _ ih => exact .other hOpening hClosing ih
  | group hOpening hClosing hInner _ _ ih =>
    have hGroup := Balanced.group hOpening hClosing hInner ih
    rwa [List.append_assoc]

theorem singleton {t : Token} (hOpening : t.kind ≠ .parenthesisOpen)
    (hClosing : t.kind ≠ .parenthesisClose) : Balanced [t] :=
  .other hOpening hClosing .nil

theorem trivia {tokens : List Token} (h : ∀ t ∈ tokens, t.isTrivia = true) : Balanced tokens := by
  induction tokens with
  | nil => exact .nil
  | cons t tokens ih =>
    obtain ⟨ht, hRest⟩ := List.forall_mem_cons.mp h
    obtain ⟨hOpening, hClosing, -, -⟩ := IsWord.of_isTrivia ht
    exact .other hOpening hClosing (ih hRest)

end Token.Balanced

theorem Token.FillsCall.balanced {t : Token} (h : t.FillsCall) : Token.Balanced [t] := by
  rcases h with hTrivia | hComma
  · apply Token.Balanced.trivia
    simpa using hTrivia
  · apply Token.Balanced.singleton
    · simp [hComma]
    · simp [hComma]

theorem Node.Complete.balanced (n : Node) :
    ∀ {run : List Token}, n.Complete run → Token.Balanced run := by
  induction n using Node.induct with
  | token t =>
    intro run h
    cases h with
    | token hWord => exact .singleton hWord.1 hWord.2.1
  | call c ih =>
    intro run h
    cases h with
    | @call _ trailing body opening closing hName hTrailing hOpening hClosing hBody hTokens _ _ =>
      have hInner : Token.Balanced body :=
        hBody.join .nil (fun _ _ => .append) (fun _ => Token.FillsCall.balanced)
          fun n hn _ hRun => ih n hn hRun
      have hGroup := Token.Balanced.group hOpening hClosing hInner .nil
      rw [hTokens, List.cons_append, List.cons_append, List.append_assoc]
      refine .other ?_ ?_ ((Token.Balanced.trivia hTrailing).append hGroup)
      · simp [hName]
      · simp [hName]
  | statement s _ =>
    intro run h
    cases h

theorem Node.Complete.takesUp {n : Node} {run : List Token} (h : n.Complete run) :
    n.TakesUp run := by
  cases h with
  | token _ => exact .inl rfl
  | call => rfl

theorem Node.Settled.takesUp {n : Node} {run : List Token} (h : n.Settled run) :
    n.TakesUp run := by
  cases h with
  | complete h => exact h.takesUp
  | unterminated hRun => exact .inr ⟨hRun, rfl⟩

/-- What is known of a node wherever it stands in a document. -/
def Node.Known (tokens : List Token) : Node → Prop
  | .token _ => True
  | .call c => (Node.call c).Complete c.tokens ∧ c.tokens <:+: tokens
  | .statement s => s.Sound ∧ s.tokens <:+: tokens

theorem Node.Complete.known {n : Node} {run tokens : List Token} (h : n.Complete run)
    (hRun : run <:+: tokens) : n.Known tokens := by
  cases n with
  | token t => trivial
  | call c =>
    cases h with
    | call hName hTrailing hOpening hClosing hBody hTokens hSpan hText =>
      exact ⟨.call hName hTrailing hOpening hClosing hBody hTokens hSpan hText, hRun⟩
  | statement s => cases h

theorem Document.Holds.known {tokens : List Token} {n : Node}
    (h : (Document.ofTokens tokens).Holds n) : n.Known (retag tokens) := by
  induction h with
  | token _ => trivial
  | preamble _ => trivial
  | @statement s hs =>
    refine ⟨sound_of_mem_build hs, (tokens_infix_flatMap hs).trans ?_⟩
    rw [← preamble_append_tokens]
    exact (List.suffix_append _ _).isInfix
  | statementToken _ _ _ => trivial
  | @element s n _ hn ih =>
    obtain ⟨⟨_, hFactors, hTokens, _⟩, hInfix⟩ := ih
    obtain ⟨run, hRun, hInner⟩ := hFactors.exists_run hn
    cases hRun with
    | complete hRun =>
      apply hRun.known
      rw [hTokens] at hInfix
      exact hInner.trans ((List.prefix_append _ _).isInfix.trans hInfix)
    | unterminated _ => trivial
  | child _ hc ih =>
    obtain ⟨hSound, hInfix⟩ := ih
    obtain ⟨hChild, hInner⟩ := hSound.child hc
    exact ⟨hChild, hInner.trans hInfix⟩
  | name _ _ => trivial
  | callToken _ _ _ => trivial
  | @parameter c n _ hn ih =>
    obtain ⟨hCall, hInfix⟩ := ih
    cases hCall with
    | @call _ trailing body opening closing _ _ _ _ hBody hTokens _ _ =>
      obtain ⟨run, hRun, hInner⟩ := hBody.exists_run hn
      apply hRun.known
      have hBodyInfix : body <:+: c.tokens :=
        ⟨c.name :: trailing ++ [opening], [closing], by simp [hTokens]⟩
      exact hInner.trans (hBodyInfix.trans hInfix)

/-- The tokens of a statement are its own and then those of its children, and its own are the runs
of its elements with gaps; the tokens of a call are its name, trivia, an opening parenthesis, the
runs of its parameters with gaps, and the closing parenthesis that belongs to the opening one. They
all are tokens of the input, with misplaced punctuation marked. -/
theorem tokens_factor (tokens : List Token) :
    (∀ s, (Document.ofTokens tokens).Holds (.statement s) →
      s.tokens <:+: retag tokens ∧ ∃ own,
        s.tokens = own ++ s.children.flatMap Statement.tokens ∧
        Factors Node.TakesUp Token.FillsStatement s.elements own) ∧
    ∀ c, (Document.ofTokens tokens).Holds (.call c) →
      c.tokens <:+: retag tokens ∧ ∃ trailing opening body closing,
        c.tokens = c.name :: trailing ++ opening :: body ++ [closing] ∧
        c.name.kind = .identity ∧ (∀ t ∈ trailing, t.isTrivia = true) ∧
        opening.kind = .parenthesisOpen ∧ closing.kind = .parenthesisClose ∧
        Factors Node.TakesUp Token.FillsCall c.parameters body ∧ Token.Balanced body := by
  constructor
  · intro s hs
    obtain ⟨hSound, hInfix⟩ := hs.known
    obtain ⟨_, hFactors, hTokens, _⟩ := hSound
    exact ⟨hInfix, _, hTokens, hFactors.mono fun _ _ _ hRun => hRun.takesUp⟩
  · intro c hc
    obtain ⟨hCall, hInfix⟩ := hc.known
    cases hCall with
    | @call _ trailing body opening closing hName hTrailing hOpening hClosing hBody hTokens _ _ =>
      refine ⟨hInfix, trailing, opening, body, closing, hTokens, hName, hTrailing, hOpening,
        hClosing, hBody.mono fun _ _ _ hRun => hRun.takesUp, ?_⟩
      exact hBody.join .nil (fun _ _ => .append) (fun _ => Token.FillsCall.balanced)
        fun n _ _ hRun => hRun.balanced

/-- A call whose parameter is a misplaced parenthesis, between a misplaced comma and an unterminated
call. -/
theorem tokens_factor_mixed_line :
    ∃ s c, (Document.ofTokens (tokenize "x, f [(1) g(2")).Holds (.statement s) ∧
      (Document.ofTokens (tokenize "x, f [(1) g(2")).Holds (.call c) ∧ c.text = "f [(1)" ∧
      (s.tokens <:+: retag (tokenize "x, f [(1) g(2") ∧ ∃ own,
        s.tokens = own ++ s.children.flatMap Statement.tokens ∧
        Factors Node.TakesUp Token.FillsStatement s.elements own) ∧
      c.tokens <:+: retag (tokenize "x, f [(1) g(2") ∧ ∃ trailing opening body closing,
        c.tokens = c.name :: trailing ++ opening :: body ++ [closing] ∧
        c.name.kind = .identity ∧ (∀ t ∈ trailing, t.isTrivia = true) ∧
        opening.kind = .parenthesisOpen ∧ closing.kind = .parenthesisClose ∧
        Factors Node.TakesUp Token.FillsCall c.parameters body ∧ Token.Balanced body := by
  obtain ⟨hStatements, hCalls⟩ := tokens_factor (tokenize "x, f [(1) g(2")
  have hStatement : (Document.ofTokens (tokenize "x, f [(1) g(2")).Holds
      (.statement ((build (tokenize "x, f [(1) g(2")).get ⟨0, by decide +kernel⟩)) :=
    .statement (List.get_mem _ _)
  obtain ⟨n, hHolds, hKind, hText⟩ : ∃ n,
      (Document.ofTokens (tokenize "x, f [(1) g(2")).Holds n ∧ n.kind = .call ∧
      n.text = "f [(1)" :=
    ⟨_, .element hStatement (List.get_mem _ ⟨1, by decide +kernel⟩), by decide +kernel,
      by decide +kernel⟩
  obtain ⟨c, rfl⟩ := Node.eq_call_of_kind hKind
  exact ⟨_, c, hStatement, hHolds, hText, hStatements _ hStatement, hCalls c hHolds⟩

end Outline
