import Outline.Proofs.Builder.Structure

/-! # The grammar of lines

A line is a row of items, an item is a token or a call, and a call has items and commas between its
parentheses. The grammar does not ask for parentheses of the same shape. What it derives the scan
passes without a mark, and the nodes that lack nothing are derived by it.
-/
namespace Outline
set_option autoImplicit false

namespace Grammar

inductive Symbol where
  | line
  | item
  /-- What stands between the parentheses of a call. -/
  | parameters

/-- The tokens that a symbol stands for. -/
inductive Derives : Symbol → List Token → Prop where
  | lineNil : Derives .line []
  | lineItem {run rest : List Token} : Derives .item run → Derives .line rest →
      Derives .line (run ++ rest)
  | token {t : Token} : t.kind ≠ .parenthesisOpen → t.kind ≠ .parenthesisClose →
      t.kind ≠ .comma → t.kind ≠ .error → Derives .item [t]
  | call {name opening closing : Token} {trailing body : List Token} : name.kind = .identity →
      (∀ t ∈ trailing, t.kind = .space ∨ t.kind = .comment) → opening.kind = .parenthesisOpen →
      Derives .parameters body → closing.kind = .parenthesisClose →
      Derives .item (name :: trailing ++ opening :: body ++ [closing])
  | parametersNil : Derives .parameters []
  | parametersItem {run rest : List Token} : Derives .item run → Derives .parameters rest →
      Derives .parameters (run ++ rest)
  | parametersComma {comma : Token} {rest : List Token} : comma.kind = .comma →
      Derives .parameters rest → Derives .parameters (comma :: rest)

theorem Derives.parameters_append {s t : List Token} (hs : Derives .parameters s)
    (ht : Derives .parameters t) : Derives .parameters (s ++ t) := by
  generalize hx : Symbol.parameters = x at hs
  induction hs with
  | parametersNil => exact ht
  | parametersItem hItem _ _ ih =>
    rw [List.append_assoc]
    exact .parametersItem hItem (ih hx)
  | parametersComma hComma _ ih => exact .parametersComma hComma (ih hx)
  | _ => cases hx

/-- Whole items and line breaks. -/
inductive Lines : List Token → Prop where
  | nil : Lines []
  | item {run rest : List Token} : Derives .item run → (∀ t ∈ run, t.kind ≠ .lineBreak) →
      Lines rest → Lines (run ++ rest)
  | lineBreak {t : Token} {rest : List Token} : t.kind = .lineBreak → Lines rest →
      Lines (t :: rest)

theorem Lines.append {s t : List Token} (hs : Lines s) (ht : Lines t) : Lines (s ++ t) := by
  induction hs with
  | nil => exact ht
  | item hItem hBreaks _ ih =>
    rw [List.append_assoc]
    exact .item hItem hBreaks ih
  | lineBreak hBreak _ ih => exact .lineBreak hBreak ih

theorem Lines.flatMap {α : Type} {l : List α} {f : α → List Token} (h : ∀ a ∈ l, Lines (f a)) :
    Lines (l.flatMap f) := by
  induction l with
  | nil => exact .nil
  | cons a l ih =>
    obtain ⟨ha, hRest⟩ := List.forall_mem_cons.mp h
    exact ha.append (ih hRest)

theorem Derives.lines {line : List Token} (h : Derives .line line)
    (hBreaks : ∀ t ∈ line, t.kind ≠ .lineBreak) : Lines line := by
  generalize hx : Symbol.line = x at h
  induction h with
  | lineNil => exact .nil
  | lineItem hItem _ _ ih =>
    obtain ⟨hRun, hRest⟩ := List.forall_mem_append.mp hBreaks
    exact .item hItem hRun (ih hRest hx)
  | _ => cases hx

/-- The tokens between two line breaks, or between a line break and an end of the tokens. -/
def logicalLines (tokens : List Token) : List (List Token) :=
  tokens.splitOnP (·.kind = .lineBreak)

theorem logicalLines_append {run : List Token} (h : ∀ t ∈ run, t.kind ≠ .lineBreak)
    (rest : List Token) :
    logicalLines (run ++ rest) = (logicalLines rest).modifyHead (run ++ ·) := by
  induction run with
  | nil =>
    rw [List.nil_append]
    cases logicalLines rest <;> rfl
  | cons t run ih =>
    obtain ⟨ht, hRun⟩ := List.forall_mem_cons.mp h
    rw [List.cons_append, logicalLines, List.splitOnP_cons_eq_if_modifyHead, ← logicalLines,
      if_neg (by simpa using ht), ih hRun, List.modifyHead_modifyHead]
    rfl

theorem logicalLines_cons {t : Token} (h : t.kind = .lineBreak) (rest : List Token) :
    logicalLines (t :: rest) = [] :: logicalLines rest := by
  rw [logicalLines, List.splitOnP_cons_eq_if_modifyHead, if_pos (by simpa using h)]
  rfl

theorem flatten_logicalLines_sublist (tokens : List Token) :
    (logicalLines tokens).flatten.Sublist tokens := by
  induction tokens with
  | nil => simp [logicalLines]
  | cons t tokens ih =>
    by_cases ht : t.kind = .lineBreak
    · rw [logicalLines_cons ht, List.flatten_cons, List.nil_append]
      exact ih.cons t
    · obtain ⟨first, others, hLines⟩ : ∃ first others, logicalLines tokens = first :: others :=
        List.exists_cons_of_ne_nil (List.splitOnP_ne_nil _ tokens)
      have hSplit := logicalLines_append (List.forall_mem_singleton.mpr ht) tokens
      rw [List.singleton_append, hLines, List.modifyHead_cons] at hSplit
      rw [hLines] at ih
      rw [hSplit]
      exact ih.cons_cons t

theorem exists_line (tokens : List Token) :
    (∀ t ∈ tokens, t.kind ≠ .lineBreak) ∨ ∃ line t rest, tokens = line ++ t :: rest ∧
      t.kind = .lineBreak ∧ ∀ t ∈ line, t.kind ≠ .lineBreak := by
  induction tokens with
  | nil => simp
  | cons t tokens ih =>
    by_cases ht : t.kind = .lineBreak
    · exact .inr ⟨[], t, tokens, rfl, ht, by simp⟩
    · rcases ih with hNone | ⟨line, u, rest, rfl, hu, hLine⟩
      · exact .inl (List.forall_mem_cons.mpr ⟨ht, hNone⟩)
      · exact .inr ⟨t :: line, u, rest, rfl, hu, List.forall_mem_cons.mpr ⟨ht, hLine⟩⟩

theorem lines_iff {tokens : List Token} :
    Lines tokens ↔ ∀ line ∈ logicalLines tokens, Derives .line line := by
  constructor
  · intro h
    induction h with
    | nil => simpa [logicalLines] using Derives.lineNil
    | item hItem hBreaks _ ih =>
      rename_i rest _
      rw [logicalLines_append hBreaks]
      obtain ⟨first, others, hLines⟩ : ∃ first others, logicalLines rest = first :: others :=
        List.exists_cons_of_ne_nil (List.splitOnP_ne_nil _ rest)
      rw [hLines, List.forall_mem_cons] at ih
      rw [hLines, List.modifyHead_cons, List.forall_mem_cons]
      exact ⟨.lineItem hItem ih.1, ih.2⟩
    | lineBreak hBreak _ ih =>
      rw [logicalLines_cons hBreak, List.forall_mem_cons]
      exact ⟨.lineNil, ih⟩
  · intro h
    generalize hLines : logicalLines tokens = lines at h
    induction lines generalizing tokens with
    | nil => exact absurd hLines (List.splitOnP_ne_nil _ tokens)
    | cons line lines ih =>
      obtain ⟨hFirst, hOthers⟩ := List.forall_mem_cons.mp h
      rcases exists_line tokens with hNone | ⟨front, t, rest, rfl, ht, hFront⟩
      · have hSingle := logicalLines_append hNone []
        rw [List.append_nil, hLines] at hSingle
        obtain ⟨rfl, -⟩ : line = tokens ∧ lines = [] := by simpa [logicalLines] using hSingle
        exact hFirst.lines hNone
      · rw [logicalLines_append hFront, logicalLines_cons ht, List.modifyHead_cons,
          List.append_nil] at hLines
        cases hLines
        exact (hFirst.lines hFront).append (.lineBreak ht (ih rfl hOthers))

end Grammar

namespace Scan

/-- No token is marked, and no call is open where a line ends. -/
def Accepts (scan : Scan) : List Token → Prop
  | [] => scan.depth = 0
  | t :: tokens => scan.mark t = t ∧ (t.kind = .lineBreak → scan.depth = 0) ∧
      (scan.next t).Accepts tokens

theorem Accepts.markAll_eq {scan : Scan} {tokens : List Token} (h : scan.Accepts tokens) :
    scan.markAll tokens = tokens := by
  induction tokens generalizing scan with
  | nil => rfl
  | cons t tokens ih =>
    obtain ⟨hMark, -, hRest⟩ := h
    rw [markAll, hMark, ih hRest]

theorem next_of_isTrivia (scan : Scan) {t : Token} (ht : t.kind = .space ∨ t.kind = .comment) :
    scan.next t = scan := by
  rcases ht with hKind | hKind <;> simp [next, Token.isTrivia, hKind]

theorem depth_next_opening {scan : Scan} {t : Token} (h : scan.afterIdentity = true)
    (ht : t.kind = .parenthesisOpen) : (scan.next t).depth = scan.depth + 1 := by
  simp [next, ht, h]

theorem accepts_trivia {scan : Scan} {trailing rest : List Token}
    (h : ∀ t ∈ trailing, t.kind = .space ∨ t.kind = .comment) (hRest : scan.Accepts rest) :
    scan.Accepts (trailing ++ rest) := by
  induction trailing with
  | nil => exact hRest
  | cons t trailing ih =>
    obtain ⟨ht, hTrailing⟩ := List.forall_mem_cons.mp h
    refine ⟨?_, ?_, ?_⟩
    · rcases ht with hKind | hKind <;> simp [mark, hKind]
    · intro hBreak
      simp [hBreak] at ht
    · rw [scan.next_of_isTrivia ht]
      exact ih hTrailing

end Scan

namespace Grammar

/-- The scan passes what is derived and comes out as deep as it went in, whatever stands behind. -/
theorem Derives.accepts {x : Symbol} {run : List Token} (h : Derives x run)
    (hBreaks : ∀ t ∈ run, t.kind ≠ .lineBreak) {scan : Scan}
    (hDepth : x = .parameters → 0 < scan.depth) {rest : List Token}
    (hRest : ∀ scan' : Scan, scan'.depth = scan.depth → scan'.Accepts rest) :
    scan.Accepts (run ++ rest) := by
  induction h generalizing scan rest with
  | lineNil => exact hRest scan rfl
  | parametersNil => exact hRest scan rfl
  | lineItem _ _ ihItem ihRest =>
    obtain ⟨hRun, hMore⟩ := List.forall_mem_append.mp hBreaks
    rw [List.append_assoc]
    apply ihItem hRun (by simp)
    intro scan' hScan
    exact ihRest hMore (by simp) fun scan'' hScan' => hRest scan'' (hScan'.trans hScan)
  | parametersItem _ _ ihItem ihRest =>
    obtain ⟨hRun, hMore⟩ := List.forall_mem_append.mp hBreaks
    rw [List.append_assoc]
    apply ihItem hRun (by simp)
    intro scan' hScan
    refine ihRest hMore (fun _ => ?_) fun scan'' hScan' => hRest scan'' (hScan'.trans hScan)
    rw [hScan]
    exact hDepth rfl
  | @parametersComma comma _ hComma _ ih =>
    obtain ⟨-, hMore⟩ := List.forall_mem_cons.mp hBreaks
    have hNext : (scan.next comma).depth = scan.depth := by simp [Scan.next, hComma]
    refine ⟨by simp [Scan.mark, hComma, hDepth rfl], by simp [hComma], ?_⟩
    apply ih hMore
    · intro _
      rw [hNext]
      exact hDepth rfl
    · intro scan' hScan
      exact hRest scan' (hScan.trans hNext)
  | @token t hOpening hClosing hComma _ =>
    have hBreak := hBreaks t List.mem_cons_self
    refine ⟨?_, fun hKind => absurd hKind hBreak, hRest _ ?_⟩
    · simp only [Scan.mark]
    · simp only [Scan.next]
  | @call name opening closing trailing body hName hTrailing hOpening _ hClosing ih =>
    have hBody : ∀ t ∈ body, t.kind ≠ .lineBreak := by
      intro t ht
      exact hBreaks t (by simp [ht])
    have hNamed : (scan.next name).afterIdentity = true := by
      simp [Scan.next, Scan.afterIdentity, Token.isTrivia, hName]
    have hOpened : ((scan.next name).next opening).depth = scan.depth + 1 := by
      rw [Scan.depth_next_opening hNamed hOpening]
      simp [Scan.next, hName]
    rw [List.append_assoc, List.append_assoc, List.cons_append, List.cons_append]
    refine ⟨by simp [Scan.mark, hName], by simp [hName], Scan.accepts_trivia hTrailing ?_⟩
    refine ⟨by simp [Scan.mark, hOpening, hNamed], by simp [hOpening], ?_⟩
    apply ih hBody
    · intro _
      omega
    · intro scan' hScan
      rw [hOpened] at hScan
      have hClosed : (scan'.next closing).depth = scan.depth := by
        simp [Scan.next, hClosing, hScan]
      refine ⟨?_, by simp [hClosing], hRest _ hClosed⟩
      simp [Scan.mark, hClosing, hScan]

theorem Lines.accepts {tokens : List Token} (h : Lines tokens) {scan : Scan}
    (hDepth : scan.depth = 0) : scan.Accepts tokens := by
  induction h generalizing scan with
  | nil => exact hDepth
  | item hItem hBreaks _ ih =>
    apply hItem.accepts hBreaks (by simp)
    intro scan' hScan
    exact ih (hScan.trans hDepth)
  | @lineBreak t _ hBreak _ ih =>
    refine ⟨by simp [Scan.mark, hBreak], fun _ => hDepth, ih ?_⟩
    simp [Scan.next, hBreak]

end Grammar

theorem Token.FillsCall.derives {t : Token} (h : t.FillsCall) :
    Grammar.Derives .parameters [t] := by
  rcases h with hTrivia | hComma
  · have hError : t.kind ≠ .error := by
      rcases Token.kind_of_isTrivia hTrivia with hKind | hKind <;> simp [hKind]
    obtain ⟨hOpening, hClosing, hComma, -⟩ := Token.IsWord.of_isTrivia hTrivia
    exact .parametersItem (.token hOpening hClosing hComma hError) .parametersNil
  · exact .parametersComma hComma .parametersNil

namespace Node.Complete

theorem kind_ne_lineBreak (n : Node) :
    ∀ {run : List Token}, n.Complete run → ∀ t ∈ run, t.kind ≠ .lineBreak := by
  induction n using Node.induct with
  | token t =>
    intro run h
    cases h with
    | token hWord => simpa using hWord.2.2.2
  | call c ih =>
    intro run h
    cases h with
    | @call _ trailing body opening closing hName hTrailing hOpening hClosing hBody hTokens _ _ =>
      have hInner : ∀ t ∈ body, t.kind ≠ .lineBreak := by
        refine hBody.join (P := fun run => ∀ t ∈ run, t.kind ≠ .lineBreak) (by simp)
          (fun _ _ hs ht => List.forall_mem_append.mpr ⟨hs, ht⟩) ?_ fun n hn _ hRun => ih n hn hRun
        rintro t (hTrivia | hComma)
        · simpa using (Token.IsWord.of_isTrivia hTrivia).2.2.2
        · simp [hComma]
      have hTrivia : ∀ t ∈ trailing, t.kind ≠ .lineBreak :=
        fun t ht => (Token.IsWord.of_isTrivia (hTrailing t ht)).2.2.2
      rw [hTokens]
      simp only [List.forall_mem_append, List.forall_mem_cons]
      exact ⟨⟨⟨by simp [hName], hTrivia⟩, by simp [hOpening], hInner⟩, by simp [hClosing]⟩
  | statement s _ =>
    intro run h
    cases h

theorem derives (n : Node) : ∀ {run : List Token}, n.Complete run →
    (∀ t ∈ run, t.kind ≠ .error) → Grammar.Derives .item run := by
  induction n using Node.induct with
  | token t =>
    intro run h hErrors
    cases h with
    | token hWord =>
      exact .token hWord.1 hWord.2.1 hWord.2.2.1 (hErrors t List.mem_cons_self)
  | call c ih =>
    intro run h hErrors
    cases h with
    | @call _ trailing body opening closing hName hTrailing hOpening hClosing hBody hTokens _ _ =>
      have hInner : (∀ t ∈ body, t.kind ≠ .error) → Grammar.Derives .parameters body := by
        refine hBody.join
          (P := fun run => (∀ t ∈ run, t.kind ≠ .error) → Grammar.Derives .parameters run)
          (fun _ => .parametersNil) ?_ (fun t ht _ => ht.derives) ?_
        · intro s t hs ht hErrors
          obtain ⟨hFirst, hSecond⟩ := List.forall_mem_append.mp hErrors
          exact (hs hFirst).parameters_append (ht hSecond)
        · intro n hn run hRun hErrors
          have hItem := Grammar.Derives.parametersItem (ih n hn hRun hErrors) .parametersNil
          rwa [List.append_nil] at hItem
      rw [hTokens] at hErrors ⊢
      refine .call hName (fun t ht => Token.kind_of_isTrivia (hTrailing t ht)) hOpening ?_ hClosing
      apply hInner
      intro t ht
      exact hErrors t (by simp [ht])
  | statement s _ =>
    intro run h
    cases h

theorem lines {n : Node} {run : List Token} (h : n.Complete run)
    (hErrors : ∀ t ∈ run, t.kind ≠ .error) : Grammar.Lines run := by
  have hItem := Grammar.Lines.item (h.derives n hErrors) (h.kind_ne_lineBreak n) .nil
  rwa [List.append_nil] at hItem

end Node.Complete

theorem Token.FillsStatement.lines {t : Token} (h : t.FillsStatement) (hError : t.kind ≠ .error) :
    Grammar.Lines [t] := by
  rcases h with hTrivia | hBreak | hContent
  · have hComplete : (Node.token t).Complete [t] := .token (.of_isTrivia hTrivia)
    exact hComplete.lines (by simpa using hError)
  · exact .lineBreak hBreak .nil
  · exact absurd (congrArg Content.kind hContent) hError

end Outline
