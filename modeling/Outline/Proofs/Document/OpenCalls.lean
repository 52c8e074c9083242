import Outline.Proofs.Builder.Lines
import Outline.Proofs.Document.Errors

/-! # What open calls leave in a statement

A line that ends inside calls gives them all up for one error, and only an identity that stands last
in the line is saved from it. Here this is said of each statement and the line that it comes from;
what the errors of a whole document are does not show where among the elements they stand.
-/
namespace Outline
set_option autoImplicit false

namespace Grammar

def endingIdentity? (line : List Token) : Option Token :=
  (line.filter (!·.isTrivia)).getLast?.filter (·.kind = .identity)

theorem endingIdentity?_concat (line : List Token) (t : Token) :
    endingIdentity? (line ++ [t]) =
      if t.isTrivia then endingIdentity? line else if t.kind = .identity then some t else none := by
  by_cases ht : t.isTrivia = true
  · simp [endingIdentity?, ht]
  · simp [endingIdentity?, ht, Option.filter]

end Grammar

open Grammar

namespace Line
variable {l : Line}

theorem identity_push (l : Line) (t : Token) :
    (l.push t).pending.map Pending.identity =
      if t.isTrivia then l.pending.map Pending.identity
      else if t.kind = .identity then some t else none := by
  unfold push
  rw [Token.isTrivia, Token.kind]
  cases hContent : t.content with
  | space size => cases hPending : l.pending <;> simp [Content.kind, trivia, hPending]
  | comment => cases hPending : l.pending <;> simp [Content.kind, trivia, hPending]
  | _ => simp [Content.kind, pending_openCall, pending_closeCall, pending_comma, commit]

theorem identity_ofTokens (tokens : List Token) :
    (ofTokens tokens).pending.map Pending.identity = endingIdentity? tokens := by
  apply ofTokens_induct (P := fun tokens l =>
    l.pending.map Pending.identity = endingIdentity? tokens)
  · exact fun indent => rfl
  · intro tokens l t ih
    rw [identity_push, ih, endingIdentity?_concat]

theorem elements_settle (l : Line) :
    l.settle.elements =
      l.givenUp.elements ++ (l.pending.map Pending.identity).toList.map Node.token := by
  cases hPending : l.pending with
  | none => simp [settle_eq, hPending]
  | some p => simp [settle_eq_place hPending, OpenStatement.place]

theorem Sound.held_eq (h : l.Sound) :
    l.held.head? = l.pending.map Pending.identity ∧ ∀ t ∈ l.held.tail, t.isTrivia = true := by
  rw [held]
  cases hPending : l.pending with
  | none => simp
  | some p => exact ⟨rfl, by simpa [Pending.tokens] using (h.pending p hPending).2⟩

/-- All calls that are open go into one error behind the elements that are complete, and the
identity held back comes behind it. -/
theorem Sound.settle_of_unclosed (h : l.Sound) {name : Token}
    (hName : unclosed? l.recorded = some name) :
    ∃ run, l.recorded = l.statement.tokens ++ run ++ l.held ∧ run.head? = some name ∧
      l.settle.elements = l.statement.elements ++
        .token ⟨.error .missingClosingParenthesis, Token.spanOf run, Token.joinedText run⟩ ::
          (l.pending.map Pending.identity).toList.map Node.token := by
  rw [unclosed?, h.unclosedFrom] at hName
  have hCalls : l.calls ≠ [] := by
    intro hNil
    simp [hNil] at hName
  refine ⟨l.calls.reverse.flatMap OpenCall.tokens, rfl, h.head_flatMap_calls.trans hName, ?_⟩
  rw [elements_settle, givenUp_eq_place hCalls, OpenStatement.place, List.append_assoc]
  rfl

theorem Sound.settle_of_closed (h : l.Sound) (hNone : unclosed? l.recorded = none) :
    l.settle.Fresh Node.Complete := by
  rw [unclosed?, h.unclosedFrom] at hNone
  apply h.settle_complete
  simpa using hNone

end Line

theorem Node.errorReason?_ne_of_unterminated {n : Node} (h : n.unterminated = []) :
    n.errorReason? ≠ some .missingClosingParenthesis := by
  cases n with
  | token t =>
    intro hReason
    have hToken : t.errorReason? = some .missingClosingParenthesis := hReason
    rw [Node.unterminated_token, if_pos hToken] at h
    cases h
  | call c => simp [Node.errorReason?, Node.token?]
  | statement s => simp [Node.errorReason?, Node.token?]

theorem OpenStatement.Fresh.errorReason?_ne {s : OpenStatement} (h : s.Fresh Node.Complete)
    (hTokens : Terminating s.tokens) :
    ∀ n ∈ s.elements, n.errorReason? ≠ some .missingClosingParenthesis := by
  intro n hn
  have hNone := h.unterminated_eq_nil hTokens
  exact n.errorReason?_ne_of_unterminated (List.flatMap_eq_nil_iff.mp hNone n hn)

theorem Statement.elements_of_madeFrom {s : Statement} {line : List Token}
    (h : s.row.MadeFrom line) :
    s.elements = (Line.ofTokens line).settle.elements ∧ retag line <+: s.tokens := by
  obtain ⟨hLine, behind, -, hRow⟩ := h
  rw [OpenStatement.foldl_record] at hRow
  have hOwn : s.own = retag line ++ behind := by
    rw [← Line.recorded_ofTokens hLine, ← Line.tokens_settle]
    exact congrArg OpenStatement.tokens hRow
  refine ⟨congrArg OpenStatement.elements hRow, ?_⟩
  have hPrefix : s.own <+: s.tokens := List.take_prefix _ _
  rw [hOwn] at hPrefix
  exact (List.prefix_append _ _).trans hPrefix

/-- How the elements of a statement show the calls that its line leaves open. -/
structure ShowsUnclosed (line : List Token) (elements : List Node) : Prop where
  iff_unclosed : (∃ n ∈ elements, n.errorReason? = some .missingClosingParenthesis) ↔
    (unclosed? (retag line)).isSome
  /-- There is one error, from the name of the outermost open call to the identity at the end of the
  line, and this identity is all that stands behind it. -/
  element : ∀ name, unclosed? (retag line) = some name → ∃ front before run behind,
    retag line = before ++ run ++ behind ∧ run.head? = some name ∧
    behind.head? = endingIdentity? line ∧ (∀ t ∈ behind.tail, t.isTrivia = true) ∧
    elements = front ++
      .token ⟨.error .missingClosingParenthesis, Token.spanOf run, Token.joinedText run⟩ ::
        (endingIdentity? line).toList.map Node.token ∧
    ∀ n ∈ front, n.errorReason? ≠ some .missingClosingParenthesis

theorem showsUnclosed_settle {line : List Token} (h : ∀ t ∈ line, t.kind ≠ .lineBreak)
    (hTokens : Terminating (retag line)) :
    ShowsUnclosed line (Line.ofTokens line).settle.elements := by
  have hSound := Line.sound_ofTokens h
  have hRecorded := Line.recorded_ofTokens h
  have hIdentity := Line.identity_ofTokens line
  rw [← hRecorded] at hTokens
  cases hUnclosed : unclosed? (retag line) with
  | none =>
    have hComplete := hSound.settle_of_closed (hRecorded ▸ hUnclosed)
    have hNone := hComplete.errorReason?_ne (by rwa [Line.tokens_settle])
    refine ⟨?_, by simp [hUnclosed]⟩
    rw [hUnclosed]
    simpa using hNone
  | some name =>
    obtain ⟨run, hLine, hHead, hElements⟩ := hSound.settle_of_unclosed (hRecorded ▸ hUnclosed)
    obtain ⟨hFirst, hTrivia⟩ := hSound.held_eq
    have hFront := hSound.statement.errorReason?_ne fun t ht =>
      hTokens t (by rw [hLine]; simp [ht])
    rw [hIdentity] at hElements hFirst
    rw [hRecorded] at hLine
    constructor
    · rw [hUnclosed, hElements]
      exact iff_of_true ⟨_, List.mem_append_right _ List.mem_cons_self, rfl⟩ rfl
    · intro name' hName
      cases hUnclosed.symm.trans hName
      exact ⟨_, _, run, _, hLine, hHead, hFirst, hTrivia, hElements, hFront⟩

/-- No call holds an error for an unterminated call. The statements come from the lines one by one,
and each shows what its line leaves open. -/
theorem showsUnclosed_parse (source : String) :
    (∀ c, (Document.parse source).Holds (.call c) → ∀ n ∈ c.parameters,
      n.errorReason? ≠ some .missingClosingParenthesis) ∧
    List.Forall₂ (fun s line => retag line <+: s.tokens ∧ ShowsUnclosed line s.elements)
      (Document.parse source).preorder (bodies (tokenize source)) := by
  have hLexed : Terminating (tokenize source) := (lexes_tokenize source).terminating
  constructor
  · intro c hc n hn
    obtain ⟨hCall, hInfix⟩ := Document.Holds.known hc
    have hNone := hCall.unterminated_eq_nil (Node.call c) fun t ht =>
      Scan.terminating_markAll hLexed Scan.start t (hInfix.subset ht)
    rw [Node.unterminated_call] at hNone
    exact n.errorReason?_ne_of_unterminated (List.flatMap_eq_nil_iff.mp hNone n hn)
  · obtain ⟨hLength, hPairs⟩ := List.forall₂_iff_zip.mp (forall₂_row_madeFrom (tokenize source))
    refine List.forall₂_iff_zip.mpr ⟨hLength, ?_⟩
    intro s line hMem
    have hMade := hPairs hMem
    have hLine : Terminating line := fun t ht =>
      hLexed t (mem_of_mem_bodies (List.of_mem_zip hMem).2 t ht)
    obtain ⟨hElements, hPrefix⟩ := Statement.elements_of_madeFrom hMade
    rw [hElements]
    exact ⟨hPrefix, showsUnclosed_settle hMade.1 (Scan.terminating_markAll hLine Scan.start)⟩

/-- Of two calls left open the inner one goes into the error of the outer one, and so does a call
that is closed. -/
theorem showsUnclosed_parse_nested :
    (∃ c, (Document.parse "x f(g(1), h(2 y //\nk(z)").Holds (.call c) ∧ c.text = "k(z)" ∧
      ∀ n ∈ c.parameters, n.errorReason? ≠ some .missingClosingParenthesis) ∧
    ∃ s line, s ∈ (Document.parse "x f(g(1), h(2 y //\nk(z)").preorder ∧
      (unclosed? (retag line)).map Token.text = some "f" ∧
      (endingIdentity? line).map Token.text = some "y" ∧
      s.elements.map Node.text = ["x", "f(g(1), h(2 ", "y"] ∧ retag line <+: s.tokens ∧
      ShowsUnclosed line s.elements := by
  obtain ⟨hCalls, hLines⟩ := showsUnclosed_parse "x f(g(1), h(2 y //\nk(z)"
  constructor
  · obtain ⟨n, hHolds, hKind, hText⟩ : ∃ n,
        (Document.parse "x f(g(1), h(2 y //\nk(z)").Holds n ∧ n.kind = .call ∧ n.text = "k(z)" :=
      ⟨((Document.parse "x f(g(1), h(2 y //\nk(z)").statements.get
            ⟨1, by decide +kernel⟩).elements.get ⟨0, by decide +kernel⟩,
        .element (.statement (List.get_mem _ _)) (List.get_mem _ _), by decide +kernel,
        by decide +kernel⟩
    obtain ⟨c, rfl⟩ := Node.eq_call_of_kind hKind
    exact ⟨c, hHolds, hText, hCalls c hHolds⟩
  · have hFirst := hLines.get (i := 0) (by decide +kernel) (by decide +kernel)
    exact ⟨_, _, List.get_mem _ _, by decide +kernel, by decide +kernel, by decide +kernel, hFirst⟩

end Outline
