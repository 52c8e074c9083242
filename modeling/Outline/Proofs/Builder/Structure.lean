import Outline.Proofs.Builder.Retagging

/-! # What the parts of a tree are made of

Every element and parameter stands for a run of tokens, and the tokens of a composite are the runs
of its parts in order with gaps between them. This holds of all that the builder has put together at
any moment, so a step lemma for each operation gives it for the finished statements.
-/
namespace Outline
set_option autoImplicit false

theorem Content.eq_parenthesisOpen {content : Content} (h : content.kind = .parenthesisOpen) :
    content = .parenthesisOpen := by
  cases content <;> simp_all [Content.kind]

theorem Content.eq_parenthesisClose {content : Content} (h : content.kind = .parenthesisClose) :
    content = .parenthesisClose := by
  cases content <;> simp_all [Content.kind]

theorem Content.eq_comma {content : Content} (h : content.kind = .comma) : content = .comma := by
  cases content <;> simp_all [Content.kind]

theorem Token.start_spanOf {tokens : List Token} {t : Token} (h : tokens.head? = some t) :
    (spanOf tokens).start = t.span.start := by
  obtain ⟨rest, rfl⟩ := List.head?_eq_some_iff.mp h
  rw [spanOf, List.head?_cons, List.getLast?_cons]
  rfl

/-- The tokens are the runs of the nodes in order, and between, before and behind them single tokens
of which `gap` holds. -/
inductive Factors (spells : Node → List Token → Prop) (gap : Token → Prop) :
    List Node → List Token → Prop where
  | nil : Factors spells gap [] []
  | gap {nodes : List Node} {tokens : List Token} {t : Token} :
      Factors spells gap nodes tokens → gap t → Factors spells gap nodes (tokens ++ [t])
  | node {nodes : List Node} {tokens : List Token} {n : Node} {run : List Token} :
      Factors spells gap nodes tokens → spells n run →
      Factors spells gap (nodes ++ [n]) (tokens ++ run)

/-- What may stand between the elements of a statement. -/
def Token.FillsStatement (t : Token) : Prop :=
  t.isTrivia = true ∨ t.kind = .lineBreak ∨ t.content = .error .unexpectedTokenInStatement

theorem Token.FillsStatement.of_kind {t : Token} (h : t.kind = .lineBreak ∨ t.kind = .comment) :
    t.FillsStatement := by
  rcases h with hKind | hKind
  · exact .inr (.inl hKind)
  · exact .inl (by simp [Token.isTrivia, hKind])

/-- What may stand between the parameters of a call. -/
def Token.FillsCall (t : Token) : Prop := t.isTrivia = true ∨ t.kind = .comma

/-- The run of tokens that a node of a line stands for. -/
inductive Node.Spells : Node → List Token → Prop where
  | token (t : Token) : Spells (.token t) [t]
  | unterminated {run : List Token} : run ≠ [] →
      Spells (.token ⟨.error .missingClosingParenthesis, Token.spanOf run, Token.joinedText run⟩) run
  | call {c : Call} {trailing body : List Token} {opening closing : Token} :
      c.name.kind = .identity → (∀ t ∈ trailing, t.isTrivia = true) →
      opening.kind = .parenthesisOpen → closing.kind = .parenthesisClose →
      Factors Spells Token.FillsCall c.parameters body →
      c.tokens = c.name :: trailing ++ opening :: body ++ [closing] →
      c.span = Token.spanOf c.tokens → c.text = Token.joinedText c.tokens →
      Spells (.call c) c.tokens

/-- What is no punctuation of calls and does not end a line. -/
def Token.IsWord (t : Token) : Prop :=
  t.kind ≠ .parenthesisOpen ∧ t.kind ≠ .parenthesisClose ∧ t.kind ≠ .comma ∧ t.kind ≠ .lineBreak

theorem Token.IsWord.of_identity {t : Token} (h : t.kind = .identity) : t.IsWord := by
  simp [IsWord, h]

theorem Token.kind_of_isTrivia {t : Token} (h : t.isTrivia = true) :
    t.kind = .space ∨ t.kind = .comment := by
  simpa [isTrivia] using h

theorem Token.IsWord.of_isTrivia {t : Token} (h : t.isTrivia = true) : t.IsWord := by
  rcases kind_of_isTrivia h with hKind | hKind <;> simp [IsWord, hKind]

theorem Token.isWord_toError (t : Token) (reason : ErrorReason) : (t.toError reason).IsWord := by
  simp [IsWord, toError, kind, Content.kind]

/-- The run of a node that lacks nothing: every call in it is closed. -/
inductive Node.Complete : Node → List Token → Prop where
  | token {t : Token} : t.IsWord → Complete (.token t) [t]
  | call {c : Call} {trailing body : List Token} {opening closing : Token} :
      c.name.kind = .identity → (∀ t ∈ trailing, t.isTrivia = true) →
      opening.kind = .parenthesisOpen → closing.kind = .parenthesisClose →
      Factors Complete Token.FillsCall c.parameters body →
      c.tokens = c.name :: trailing ++ opening :: body ++ [closing] →
      c.span = Token.spanOf c.tokens → c.text = Token.joinedText c.tokens →
      Complete (.call c) c.tokens

/-- The run of an element once its line has ended. -/
inductive Node.Settled : Node → List Token → Prop where
  | complete {n : Node} {run : List Token} : n.Complete run → Settled n run
  | unterminated {run : List Token} : run ≠ [] →
      Settled (.token ⟨.error .missingClosingParenthesis, Token.spanOf run, Token.joinedText run⟩)
        run

/-- A statement spans its own tokens and then its children, and is shallower than they are. -/
inductive Statement.Sound : Statement → Prop where
  | intro {s : Statement} {own : List Token} : own ≠ [] →
      Factors Node.Settled Token.FillsStatement s.elements own →
      s.tokens = own ++ s.children.flatMap Statement.tokens →
      s.span = Token.spanOf s.tokens → s.text = Token.joinedText s.tokens →
      (∀ child ∈ s.children, s.indent < child.indent) →
      (∀ child ∈ s.children, Sound child) → Sound s

namespace Factors
variable {spells : Node → List Token → Prop} {gap : Token → Prop} {nodes : List Node}
  {tokens : List Token}

theorem exists_run (h : Factors spells gap nodes tokens) {n : Node} (hn : n ∈ nodes) :
    ∃ run, spells n run ∧ run <:+: tokens := by
  induction h with
  | nil => cases hn
  | gap _ _ ih =>
    obtain ⟨run, hSpells, hInfix⟩ := ih hn
    exact ⟨run, hSpells, hInfix.trans (List.prefix_append _ _).isInfix⟩
  | @node nodes tokens m run _ hSpells ih =>
    rcases List.mem_append.mp hn with hn | hn
    · obtain ⟨run, hSpells, hInfix⟩ := ih hn
      exact ⟨run, hSpells, hInfix.trans (List.prefix_append _ _).isInfix⟩
    · cases List.mem_singleton.mp hn
      exact ⟨run, hSpells, (List.suffix_append _ _).isInfix⟩

/-- What holds of the runs and of the gaps, and of joined lists of tokens, holds of the whole. -/
theorem join {P : List Token → Prop} (h : Factors spells gap nodes tokens) (hNil : P [])
    (hAppend : ∀ s t, P s → P t → P (s ++ t)) (hGap : ∀ t, gap t → P [t])
    (hNode : ∀ n ∈ nodes, ∀ run, spells n run → P run) : P tokens := by
  induction h with
  | nil => exact hNil
  | gap _ ht ih => exact hAppend _ _ (ih hNode) (hGap _ ht)
  | @node nodes tokens m run _ hm ih =>
    apply hAppend
    · exact ih fun n hn => hNode n (List.mem_append_left _ hn)
    · exact hNode m (by simp) run hm

theorem mono {spells' : Node → List Token → Prop} (h : Factors spells gap nodes tokens)
    (hSpells : ∀ n ∈ nodes, ∀ run, spells n run → spells' n run) :
    Factors spells' gap nodes tokens := by
  induction h with
  | nil => exact .nil
  | gap _ ht ih => exact (ih hSpells).gap ht
  | @node nodes tokens m run _ hm ih =>
    refine .node (ih fun n hn => hSpells n (List.mem_append_left _ hn)) ?_
    exact hSpells m (by simp) run hm

end Factors

theorem Node.Complete.spells (n : Node) : ∀ {run : List Token}, n.Complete run → n.Spells run := by
  induction n using Node.induct with
  | token t =>
    rintro run ⟨_⟩
    exact .token t
  | call c ih =>
    intro run h
    cases h with
    | call hName hTrailing hOpening hClosing hBody hTokens hSpan hText =>
      have hLoose := hBody.mono fun n hn _ hRun => ih n hn hRun
      exact .call hName hTrailing hOpening hClosing hLoose hTokens hSpan hText
  | statement s _ =>
    intro run h
    cases h

theorem Node.Settled.spells {n : Node} {run : List Token} (h : n.Settled run) : n.Spells run := by
  cases h with
  | complete h => exact h.spells
  | unterminated h => exact .unterminated h

namespace Node.Spells
variable {n : Node} {run : List Token}

theorem ne_nil (h : n.Spells run) : run ≠ [] := by
  cases h with
  | token t => simp
  | unterminated h => exact h
  | call _ _ _ _ _ hTokens _ _ => simp [hTokens]

theorem span_eq (h : n.Spells run) : n.span = Token.spanOf run := by
  cases h with
  | token t => rfl
  | unterminated h => rfl
  | call _ _ _ _ _ _ hSpan _ => exact hSpan

theorem text_eq (h : n.Spells run) : n.text = Token.joinedText run := by
  cases h with
  | token t => simp [Node.text, Token.joinedText]
  | unterminated h => rfl
  | call _ _ _ _ _ _ _ hText => exact hText

end Node.Spells

namespace Statement.Sound
variable {s : Statement}

theorem ne_nil (h : s.Sound) : s.tokens ≠ [] := by
  obtain ⟨hOwn, _, hTokens, _⟩ := h
  simp [hTokens, hOwn]

theorem span_eq (h : s.Sound) : s.span = Token.spanOf s.tokens := by
  obtain ⟨_, _, _, hSpan, _⟩ := h
  exact hSpan

theorem text_eq (h : s.Sound) : s.text = Token.joinedText s.tokens := by
  obtain ⟨_, _, _, _, hText, _⟩ := h
  exact hText

theorem deeper (h : s.Sound) : ∀ child ∈ s.children, s.indent < child.indent := by
  obtain ⟨_, _, _, _, _, hDeeper, _⟩ := h
  exact hDeeper

end Statement.Sound

def OpenCall.Sound (c : OpenCall) : Prop :=
  ∃ trailing opening body, c.name.kind = .identity ∧ (∀ t ∈ trailing, t.isTrivia = true) ∧
    opening.kind = .parenthesisOpen ∧ Factors Node.Complete Token.FillsCall c.parameters body ∧
    c.tokens = c.name :: trailing ++ opening :: body

namespace OpenCall
variable {c : OpenCall}

theorem Sound.ne_nil (h : c.Sound) : c.tokens ≠ [] := by
  obtain ⟨trailing, opening, body, -, -, -, -, hTokens⟩ := h
  simp [hTokens]

theorem Sound.head_tokens (h : c.Sound) : c.tokens.head? = some c.name := by
  obtain ⟨trailing, opening, body, -, -, -, -, hTokens⟩ := h
  simp [hTokens]

theorem Sound.record (h : c.Sound) {t : Token} (ht : t.FillsCall) : (c.record t).Sound := by
  obtain ⟨trailing, opening, body, hName, hTrailing, hOpening, hBody, hTokens⟩ := h
  exact ⟨trailing, opening, body ++ [t], hName, hTrailing, hOpening, hBody.gap ht,
    by simp [OpenCall.record, hTokens]⟩

theorem Sound.place (h : c.Sound) {n : Node} {run : List Token} (hn : n.Complete run) :
    (c.place n run).Sound := by
  obtain ⟨trailing, opening, body, hName, hTrailing, hOpening, hBody, hTokens⟩ := h
  exact ⟨trailing, opening, body ++ run, hName, hTrailing, hOpening, hBody.node hn,
    by simp [OpenCall.place, hTokens]⟩

theorem Sound.toCall (h : c.Sound) {t : Token} (ht : t.kind = .parenthesisClose) :
    (Node.call (c.record t).toCall).Complete (c.record t).toCall.tokens := by
  obtain ⟨trailing, opening, body, hName, hTrailing, hOpening, hBody, hTokens⟩ := h
  refine .call hName hTrailing hOpening ht hBody ?_ rfl rfl
  simp [OpenCall.toCall, OpenCall.record, hTokens]

end OpenCall

/-- The line of a statement whose elements stand for runs in the way of `spells`, before any deeper
line has come. -/
def OpenStatement.Fresh (spells : Node → List Token → Prop) (s : OpenStatement) : Prop :=
  Factors spells Token.FillsStatement s.elements s.tokens ∧ s.children = []

namespace OpenStatement
variable {spells : Node → List Token → Prop} {s : OpenStatement}

theorem Fresh.record (h : s.Fresh spells) {t : Token} (ht : t.FillsStatement) :
    (s.record t).Fresh spells :=
  ⟨h.1.gap ht, h.2⟩

theorem Fresh.place (h : s.Fresh spells) {n : Node} {run : List Token} (hn : spells n run) :
    (s.place n run).Fresh spells :=
  ⟨h.1.node hn, h.2⟩

theorem Fresh.records (h : s.Fresh spells) {tokens : List Token}
    (ht : ∀ t ∈ tokens, t.FillsStatement) :
    (tokens.foldl OpenStatement.record s).Fresh spells := by
  induction tokens generalizing s with
  | nil => exact h
  | cons t tokens ih =>
    exact ih (h.record (ht t List.mem_cons_self)) fun u hu => ht u (List.mem_cons_of_mem t hu)

theorem Fresh.settled (h : s.Fresh Node.Complete) : s.Fresh Node.Settled :=
  ⟨h.1.mono fun _ _ _ hRun => .complete hRun, h.2⟩

theorem Fresh.abandon (h : s.Fresh Node.Settled) {c : OpenCall} (hc : c.tokens ≠ [])
    (outer : List OpenCall) : (s.abandon c outer).Fresh Node.Settled := by
  rw [abandon_eq]
  apply h.place (.unterminated _)
  simp [hc]

end OpenStatement

structure Line.Sound (l : Line) : Prop where
  statement : l.statement.Fresh Node.Complete
  calls : ∀ c ∈ l.calls, c.Sound
  pending : ∀ p ∈ l.pending, p.identity.kind = .identity ∧ ∀ t ∈ p.trailing, t.isTrivia = true

namespace Line
variable {l : Line} {t : Token}

theorem sound_start (indent : Nat) : ({ statement := { indent } } : Line).Sound :=
  ⟨⟨.nil, rfl⟩, by simp, by simp⟩

theorem Sound.calls_cons (h : l.Sound) {c : OpenCall} {outer : List OpenCall}
    (hCalls : l.calls = c :: outer) : c.Sound ∧ ∀ d ∈ outer, d.Sound := by
  have hSound := h.calls
  rwa [hCalls, List.forall_mem_cons] at hSound

theorem Sound.record (h : l.Sound) (hStatement : l.calls = [] → t.FillsStatement)
    (hCall : l.calls ≠ [] → t.FillsCall) : (l.record t).Sound := by
  unfold Line.record
  split
  · rename_i hCalls
    exact ⟨h.statement.record (hStatement hCalls), h.calls, h.pending⟩
  · rename_i c outer hCalls
    have hSound := h.calls_cons hCalls
    refine ⟨h.statement, List.forall_mem_cons.mpr ⟨hSound.1.record (hCall ?_), hSound.2⟩, h.pending⟩
    simp [hCalls]

theorem Sound.trivia_record (h : l.Sound) (ht : t.isTrivia = true) : (l.record t).Sound :=
  h.record (fun _ => .inl ht) fun _ => .inl ht

theorem Sound.place (h : l.Sound) {n : Node} {run : List Token} (hn : n.Complete run) :
    (l.place n run).Sound := by
  unfold Line.place
  split
  · exact ⟨h.statement.place hn, h.calls, h.pending⟩
  · rename_i c outer hCalls
    have hSound := h.calls_cons hCalls
    exact ⟨h.statement, List.forall_mem_cons.mpr ⟨hSound.1.place hn, hSound.2⟩, h.pending⟩

theorem Sound.commit (h : l.Sound) (ht : t.IsWord) : (l.commit t).Sound := h.place (.token ht)

theorem Sound.records (h : l.Sound) {tokens : List Token} (ht : ∀ t ∈ tokens, t.isTrivia = true) :
    (tokens.foldl Line.record l).Sound := by
  induction tokens generalizing l with
  | nil => exact h
  | cons t tokens ih =>
    exact ih (h.trivia_record (ht t List.mem_cons_self))
      fun u hu => ht u (List.mem_cons_of_mem t hu)

theorem Sound.flush (h : l.Sound) : l.flush.Sound := by
  unfold Line.flush
  split
  · exact h
  · rename_i p hPending
    have hFree : ({ l with pending := none } : Line).Sound :=
      ⟨h.statement, h.calls, by simp⟩
    obtain ⟨hIdentity, hTrailing⟩ := h.pending p hPending
    exact (hFree.commit (.of_identity hIdentity)).records hTrailing

theorem Sound.trivia (h : l.Sound) (ht : t.isTrivia = true) : (l.trivia t).Sound := by
  unfold Line.trivia
  split
  · exact h.trivia_record ht
  · rename_i p hPending
    obtain ⟨hIdentity, hTrailing⟩ := h.pending p hPending
    refine ⟨h.statement, h.calls, ?_⟩
    rintro q hq
    cases hq
    refine ⟨hIdentity, ?_⟩
    intro u hu
    rcases List.mem_append.mp hu with hu | hu
    · exact hTrailing u hu
    · cases List.mem_singleton.mp hu
      exact ht

theorem Sound.openCall (h : l.Sound) (ht : t.kind = .parenthesisOpen) : (l.openCall t).Sound := by
  unfold Line.openCall
  split
  · exact h.commit (t.isWord_toError .unexpectedToken)
  · rename_i p hPending
    obtain ⟨hIdentity, hTrailing⟩ := h.pending p hPending
    refine ⟨h.statement, List.forall_mem_cons.mpr ⟨?_, h.calls⟩, by simp⟩
    exact ⟨p.trailing, t, [], hIdentity, hTrailing, ht, .nil, rfl⟩

theorem Sound.closeCall (h : l.Sound) (ht : t.kind = .parenthesisClose) :
    (l.closeCall t).Sound := by
  unfold Line.closeCall
  split
  · rename_i hCalls
    exact h.record (fun _ => .inr (.inr rfl)) fun hNe => absurd hCalls hNe
  · rename_i c outer hCalls
    have hSound := h.calls_cons hCalls
    have hInner : ({ l with calls := outer } : Line).Sound := ⟨h.statement, hSound.2, h.pending⟩
    exact hInner.place (hSound.1.toCall ht)

theorem Sound.comma (h : l.Sound) (ht : t.kind = .comma) : (l.comma t).Sound := by
  unfold Line.comma
  split
  · rename_i hCalls
    exact h.record (fun _ => .inr (.inr rfl)) fun hNe => absurd (List.isEmpty_iff.mp hCalls) hNe
  · rename_i hCalls
    refine h.record (fun hNil => ?_) fun _ => .inr ht
    simp [hNil] at hCalls

theorem Sound.push (h : l.Sound) (ht : t.kind ≠ .lineBreak) : (l.push t).Sound := by
  unfold Line.push
  split
  · rename_i hContent
    exact h.trivia (by simp [Token.isTrivia, Token.kind, hContent, Content.kind])
  · rename_i hContent
    exact h.trivia (by simp [Token.isTrivia, Token.kind, hContent, Content.kind])
  · rename_i hContent
    refine ⟨h.flush.statement, h.flush.calls, ?_⟩
    rintro p hp
    cases hp
    exact ⟨congrArg Content.kind hContent, by simp⟩
  · rename_i hContent
    exact h.openCall (congrArg Content.kind hContent)
  · rename_i hContent
    exact h.flush.closeCall (congrArg Content.kind hContent)
  · rename_i hContent
    exact h.flush.comma (congrArg Content.kind hContent)
  · rename_i hOpening hClosing hComma
    refine h.flush.commit ⟨?_, ?_, ?_, ht⟩
    · exact fun hKind => hOpening (Content.eq_parenthesisOpen hKind)
    · exact fun hKind => hClosing (Content.eq_parenthesisClose hKind)
    · exact fun hKind => hComma (Content.eq_comma hKind)

theorem Sound.exists_follows (h : l.Sound) : ∃ scan : Scan, scan.Follows l := by
  refine ⟨⟨l.calls.length, l.pending.map Pending.identity⟩, rfl, ?_⟩
  rcases hPending : l.pending with _ | p
  · rfl
  · simp [Scan.afterIdentity, (h.pending p hPending).1]

def givenUp (l : Line) : OpenStatement :=
  match l.calls with
  | [] => l.statement
  | c :: outer => l.statement.abandon c outer

theorem settle_eq (l : Line) : l.settle =
    match l.pending with
    | none => l.givenUp
    | some p =>
      p.trailing.foldl OpenStatement.record (l.givenUp.place (.token p.identity) [p.identity]) :=
  rfl

theorem settle_eq_place {p : Pending} (h : l.pending = some p) :
    l.settle = l.givenUp.place (.token p.identity) p.tokens := by
  rw [settle_eq, h]
  simp only [OpenStatement.foldl_record, OpenStatement.place, Pending.tokens, List.append_assoc,
    List.singleton_append]

theorem givenUp_eq_place (h : l.calls ≠ []) :
    l.givenUp = l.statement.place (.token ⟨.error .missingClosingParenthesis,
        Token.spanOf (l.calls.reverse.flatMap OpenCall.tokens),
        Token.joinedText (l.calls.reverse.flatMap OpenCall.tokens)⟩)
      (l.calls.reverse.flatMap OpenCall.tokens) := by
  unfold givenUp
  cases hCalls : l.calls with
  | nil => exact absurd hCalls h
  | cons c outer => exact l.statement.abandon_eq c outer

theorem Sound.head_flatMap_calls (h : l.Sound) :
    (l.calls.reverse.flatMap OpenCall.tokens).head? = l.calls.getLast?.map OpenCall.name := by
  rw [← List.head?_reverse]
  cases hReverse : l.calls.reverse with
  | nil => rfl
  | cons c inner =>
    have hc : c ∈ l.calls := List.mem_reverse.mp (by simp [hReverse])
    simp [(h.calls c hc).head_tokens]

/-- The calls that are given up leave one element, which starts with the outermost of them. -/
theorem Sound.givenUp_eq (h : l.Sound) {name : Token}
    (hName : l.calls.getLast?.map OpenCall.name = some name) :
    ∃ e run, l.givenUp = l.statement.place (.token e) run ∧
      e.content = .error .missingClosingParenthesis ∧ e.span.start = name.span.start := by
  have hCalls : l.calls ≠ [] := by
    intro hNil
    simp [hNil] at hName
  refine ⟨_, _, givenUp_eq_place hCalls, rfl, ?_⟩
  exact Token.start_spanOf (h.head_flatMap_calls.trans hName)

theorem givenUp_of_calls_eq_nil (h : l.calls = []) : l.givenUp = l.statement := by
  rw [givenUp, h]

theorem Sound.place_pending (h : l.Sound) {p : Pending} (hp : p ∈ l.pending)
    {spells : Node → List Token → Prop} (hWord : ∀ t : Token, t.IsWord → spells (.token t) [t])
    {s : OpenStatement} (hs : s.Fresh spells) :
    (p.trailing.foldl OpenStatement.record
      (s.place (.token p.identity) [p.identity])).Fresh spells := by
  obtain ⟨hIdentity, hTrailing⟩ := h.pending p hp
  apply (hs.place (hWord p.identity (.of_identity hIdentity))).records
  intro t ht
  exact .inl (hTrailing t ht)

theorem Sound.settle_complete (h : l.Sound) (hCalls : l.calls = []) :
    l.settle.Fresh Node.Complete := by
  unfold Line.settle
  rw [hCalls]
  cases hPending : l.pending with
  | none => exact h.statement
  | some p => exact h.place_pending hPending (fun _ => .token) h.statement

theorem Sound.settle (h : l.Sound) : l.settle.Fresh Node.Settled := by
  cases hCalls : l.calls with
  | nil => exact (h.settle_complete hCalls).settled
  | cons c outer =>
    have hAbandoned := h.statement.settled.abandon (h.calls_cons hCalls).1.ne_nil outer
    unfold Line.settle
    rw [hCalls]
    cases hPending : l.pending with
    | none => exact hAbandoned
    | some p => exact h.place_pending hPending (fun _ ht => .complete (.token ht)) hAbandoned

end Line

structure OpenStatement.Sound (s : OpenStatement) : Prop where
  tokens : ∃ own, own ≠ [] ∧ Factors Node.Settled Token.FillsStatement s.elements own ∧
    s.tokens = own ++ s.children.flatMap Statement.tokens
  deeper : ∀ child ∈ s.children, s.indent < child.indent
  children : ∀ child ∈ s.children, child.Sound

namespace OpenStatement
variable {s : OpenStatement}

theorem Fresh.sound (h : s.Fresh Node.Settled) (hTokens : s.tokens ≠ []) : s.Sound := by
  obtain ⟨hFactors, hChildren⟩ := h
  refine ⟨⟨s.tokens, hTokens, hFactors, by simp [hChildren]⟩, ?_, ?_⟩
  · simp [hChildren]
  · simp [hChildren]

theorem Sound.toStatement (h : s.Sound) : s.toStatement.Sound := by
  obtain ⟨own, hOwn, hFactors, hTokens⟩ := h.tokens
  exact .intro hOwn hFactors hTokens rfl rfl h.deeper h.children

theorem Sound.adopt (h : s.Sound) {child : Statement} (hChild : child.Sound)
    (hDeeper : s.indent < child.indent) : (s.adopt child).Sound := by
  obtain ⟨own, hOwn, hFactors, hTokens⟩ := h.tokens
  refine ⟨⟨own, hOwn, hFactors, by simp [OpenStatement.adopt, hTokens]⟩, ?_, ?_⟩
  · intro c hc
    rcases List.mem_append.mp hc with hc | hc
    · exact h.deeper c hc
    · cases List.mem_singleton.mp hc
      exact hDeeper
  · intro c hc
    rcases List.mem_append.mp hc with hc | hc
    · exact h.children c hc
    · cases List.mem_singleton.mp hc
      exact hChild

end OpenStatement

/-- Open statements are listed from the inside out, so their indentation falls. -/
def Shallower (statements : List OpenStatement) : Prop :=
  statements.Pairwise fun inner outer => outer.indent < inner.indent

structure Surroundings.Sound (around : Surroundings) : Prop where
  finished : ∀ s ∈ around.finished, s.Sound
  outer : ∀ s ∈ around.outer, s.Sound
  shallower : Shallower around.outer

namespace Surroundings
variable {around : Surroundings} {indent : Nat}

theorem Sound.go (h : around.Sound) {s : OpenStatement} {outer : List OpenStatement}
    (hs : s.Sound) (hOuter : ∀ p ∈ outer, p.Sound) (hShallower : Shallower (s :: outer)) :
    (close.go indent around s outer).Sound ∧
      ∀ p ∈ (close.go indent around s outer).outer, p.indent < indent := by
  induction outer generalizing s with
  | nil =>
    unfold close.go
    split
    · rename_i hIndent
      refine ⟨⟨h.finished, ?_, hShallower⟩, ?_⟩
      · simpa using hs
      · simpa using hIndent
    · refine ⟨⟨?_, by simp, .nil⟩, by simp⟩
      intro p hp
      rcases List.mem_append.mp hp with hp | hp
      · exact h.finished p hp
      · cases List.mem_singleton.mp hp
        exact hs.toStatement
  | cons parent outer ih =>
    obtain ⟨hInner, hRest⟩ := List.pairwise_cons.mp hShallower
    have hParent := hOuter parent List.mem_cons_self
    have hOthers := fun p hp => hOuter p (List.mem_cons_of_mem parent hp)
    unfold close.go
    split
    · rename_i hIndent
      refine ⟨⟨h.finished, ?_, hShallower⟩, ?_⟩
      · exact List.forall_mem_cons.mpr ⟨hs, hOuter⟩
      · exact List.forall_mem_cons.mpr ⟨hIndent, fun p hp => Nat.lt_trans (hInner p hp) hIndent⟩
    · -- The statement becomes a child of its parent, which is then the next to close.
      refine ih (hParent.adopt hs.toStatement (hInner parent List.mem_cons_self)) hOthers ?_
      exact List.pairwise_cons.mpr (List.pairwise_cons.mp hRest)

theorem Sound.close (h : around.Sound) {s : OpenStatement} (hs : s.Sound)
    (hShallower : Shallower (s :: around.outer)) :
    (around.close indent s).Sound ∧ ∀ p ∈ (around.close indent s).outer, p.indent < indent :=
  h.go hs h.outer hShallower

end Surroundings

namespace Line

@[simp] theorem indent_record (l : Line) (t : Token) :
    (l.record t).statement.indent = l.statement.indent := by
  unfold record
  split <;> rfl

@[simp] theorem indent_place (l : Line) (n : Node) (run : List Token) :
    (l.place n run).statement.indent = l.statement.indent := by
  unfold place
  split <;> rfl

@[simp] theorem indent_foldl_record (l : Line) (tokens : List Token) :
    (tokens.foldl record l).statement.indent = l.statement.indent := by
  induction tokens generalizing l with
  | nil => rfl
  | cons t tokens ih => simp [ih]

@[simp] theorem indent_flush (l : Line) : l.flush.statement.indent = l.statement.indent := by
  unfold flush
  split <;> simp [commit]

theorem indent_push (l : Line) (t : Token) :
    (l.push t).statement.indent = l.statement.indent := by
  unfold push trivia openCall closeCall comma
  split <;> (try split) <;> simp [commit]

theorem indent_settle (l : Line) : l.settle.indent = l.statement.indent := by
  have hAbandon : ∀ (s : OpenStatement) c outer, (s.abandon c outer).indent = s.indent := by
    intro s c outer
    induction outer generalizing c with
    | nil => rfl
    | cons parent outer ih => exact ih _
  have hRecord : ∀ (s : OpenStatement) (tokens : List Token),
      (tokens.foldl OpenStatement.record s).indent = s.indent := by
    intro s tokens
    induction tokens generalizing s with
    | nil => rfl
    | cons t tokens ih => exact ih _
  unfold settle
  cases l.calls <;> cases l.pending <;> simp [hAbandon, hRecord, OpenStatement.place]

end Line

def Builder.Sound : Builder → Prop
  | .leading _ => True
  | .between around current =>
    around.Sound ∧ current.Fresh Node.Settled ∧ current.tokens ≠ [] ∧
      Shallower (current :: around.outer)
  | .inside around line =>
    around.Sound ∧ line.Sound ∧ line.recorded ≠ [] ∧ Shallower (line.statement :: around.outer)

namespace Builder
variable {b : Builder}

theorem shallower_congr {s' : OpenStatement} (s : OpenStatement) (hIndent : s'.indent = s.indent)
    {outer : List OpenStatement} (h : Shallower (s :: outer)) : Shallower (s' :: outer) := by
  unfold Shallower at h ⊢
  rw [List.pairwise_cons] at h ⊢
  rwa [hIndent]

theorem startLine_sound {around : Surroundings} (h : around.Sound) {t : Token}
    (ht : t.kind ≠ .lineBreak) (hOuter : ∀ p ∈ around.outer, p.indent < indentOf t) :
    (startLine around t).Sound := by
  have hFollows : Scan.start.Follows { statement := { indent := indentOf t } } := ⟨rfl, rfl⟩
  refine ⟨h, (Line.sound_start (indentOf t)).push ht, ?_, ?_⟩
  · rw [Scan.recorded_push hFollows ht]
    simp
  · refine shallower_congr _ (Line.indent_push _ t) (List.pairwise_cons.mpr ⟨?_, h.shallower⟩)
    exact hOuter

/-- Every token keeps the invariant, whatever it is. -/
theorem Sound.push (h : b.Sound) (t : Token) : (b.push t).Sound := by
  cases b with
  | leading preamble =>
    rw [push_leading]
    split
    · rename_i hStarts
      have hAround : ({ preamble } : Surroundings).Sound :=
        ⟨by simp, by simp, .nil⟩
      exact startLine_sound hAround (kind_ne_of_startsStatement hStarts) (by simp)
    · trivial
  | between around current =>
    obtain ⟨hAround, hFresh, hTokens, hShallower⟩ := h
    rw [push_between]
    split
    · rename_i hStarts
      obtain ⟨hSound, hOuter⟩ := hAround.close (hFresh.sound hTokens) hShallower
      exact startLine_sound hSound (kind_ne_of_startsStatement hStarts) hOuter
    · rename_i hStarts
      refine ⟨hAround, hFresh.record (.of_kind (kind_of_not_startsStatement hStarts)),
        by simp [OpenStatement.record], ?_⟩
      refine shallower_congr current ?_ hShallower
      rfl
  | inside around line =>
    obtain ⟨hAround, hLine, hTokens, hShallower⟩ := h
    rw [push_inside_kind]
    split
    · rename_i hBreak
      refine ⟨hAround, hLine.settle.record (.inr (.inl hBreak)), by simp [OpenStatement.record], ?_⟩
      refine shallower_congr line.statement ?_ hShallower
      exact line.indent_settle
    · rename_i hBreak
      have hPushed := shallower_congr line.statement (line.indent_push t) hShallower
      refine ⟨hAround, hLine.push hBreak, ?_, hPushed⟩
      obtain ⟨scan, hFollows⟩ := hLine.exists_follows
      rw [Scan.recorded_push hFollows hBreak]
      simp

theorem Sound.pushAll (h : b.Sound) (tokens : List Token) : (b.pushAll tokens).Sound := by
  induction tokens generalizing b with
  | nil => exact h
  | cons t tokens ih => exact ih (h.push t)

theorem Sound.finish (h : b.Sound) : ∀ s ∈ b.finish, s.Sound := by
  cases b with
  | leading preamble => simp [Builder.finish]
  | between around current =>
    obtain ⟨hAround, hFresh, hTokens, hShallower⟩ := h
    exact (hAround.close (hFresh.sound hTokens) hShallower).1.finished
  | inside around line =>
    obtain ⟨hAround, hLine, hTokens, hShallower⟩ := h
    rw [← line.tokens_settle] at hTokens
    exact (hAround.close (hLine.settle.sound hTokens)
      (shallower_congr line.statement line.indent_settle hShallower)).1.finished

end Builder

theorem sound_of_mem_build {tokens : List Token} {s : Statement} (h : s ∈ build tokens) :
    s.Sound := by
  have hStart : Builder.empty.Sound := trivial
  exact (hStart.pushAll tokens).finish s h

end Outline
