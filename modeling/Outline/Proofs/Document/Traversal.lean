import Mathlib.Algebra.BigOperators.Group.List.Basic
import Outline.Proofs.Document.OpenCalls
import Outline.Visitor

/-! # What a traversal reaches

A visitor walks over the structure of a statement and never over its tokens. Where no call is left
open, the two views hold the same: the walk comes past the tokens in their order, each of them once,
and leaves out whitespace, comments, line breaks and the punctuation of calls.
-/
namespace Outline
set_option autoImplicit false

namespace Node

/-- The tokens that a traversal comes past. -/
def terminals (n : Node) : List Token :=
  n.fold
    { token := fun t => [t]
      call := fun c parameters => c.name :: parameters.flatten
      statement := fun _ elements children => elements.flatten ++ children.flatten }

@[simp] theorem terminals_token (t : Token) : (Node.token t).terminals = [t] := by
  rw [terminals, fold_token]

theorem terminals_call (c : Call) :
    (Node.call c).terminals = c.name :: c.parameters.flatMap terminals := by
  rw [terminals, fold_call, Call.fold_def, List.flatMap_def]
  rfl

theorem terminals_statement (s : Statement) : (Node.statement s).terminals =
    s.elements.flatMap terminals ++ s.children.flatMap fun c => (Node.statement c).terminals := by
  rw [terminals, fold_statement, Statement.fold_def, List.flatMap_def, List.flatMap_def]
  simp only [terminals, fold_statement]
  rfl

end Node

namespace Visitor
variable {m : Type → Type} [Monad m] {M : Type} [Monoid M]

/-- The visitor that multiplies what it finds at the tokens. -/
def product (terminal : Token → m M) : Visitor m M where
  defaultResult := pure 1
  aggregate results := pure results.prod
  terminal := terminal

variable [LawfulMonad m] (terminal : Token → m M)

theorem prod_mapM_visit {nodes : List Node}
    (h : ∀ n ∈ nodes, (product terminal).visit n = List.prod <$> n.terminals.mapM terminal) :
    List.prod <$> nodes.mapM (product terminal).visit =
      List.prod <$> (nodes.flatMap Node.terminals).mapM terminal := by
  induction nodes with
  | nil => simp
  | cons n nodes ih =>
    obtain ⟨hFirst, hRest⟩ := List.forall_mem_cons.mp h
    calc List.prod <$> (n :: nodes).mapM (product terminal).visit
      _ = (do
            let x ← (product terminal).visit n
            (x * ·) <$> List.prod <$> nodes.mapM (product terminal).visit) := by
          simp [List.mapM_cons]
      _ = (do
            let xs ← n.terminals.mapM terminal
            (xs.prod * ·) <$> List.prod <$> (nodes.flatMap Node.terminals).mapM terminal) := by
          rw [hFirst, ih hRest, bind_map_left]
      _ = List.prod <$> ((n :: nodes).flatMap Node.terminals).mapM terminal := by
          simp [List.mapM_append, List.prod_append]

theorem visit_product (n : Node) :
    (product terminal).visit n = List.prod <$> n.terminals.mapM terminal := by
  have hParts : ∀ nodes : List Node, (do
      (product terminal).aggregate (← (nodes.map (product terminal).visit).mapM id)) =
      List.prod <$> nodes.mapM (product terminal).visit := by
    intro nodes
    rw [List.mapM_map, map_eq_pure_bind]
    rfl
  have hToken : ∀ t, (product terminal).visit (.token t) =
      List.prod <$> (Node.token t).terminals.mapM terminal := by
    intro t
    simp [visit_token, product]
  induction n using Node.inductAll with
  | token t => exact hToken t
  | call c ih =>
    rw [visit_call]
    refine (hParts (.token c.name :: c.parameters)).trans ?_
    rw [prod_mapM_visit terminal (List.forall_mem_cons.mpr ⟨hToken c.name, ih⟩),
      Node.terminals_call]
    rfl
  | statement s ihElements ihChildren =>
    have hChildren : ∀ n ∈ s.children.map Node.statement,
        (product terminal).visit n = List.prod <$> n.terminals.mapM terminal :=
      List.forall_mem_map.mpr ihChildren
    have hAll := hParts (s.elements ++ s.children.map Node.statement)
    rw [List.map_append, List.map_map] at hAll
    rw [visit_statement]
    refine hAll.trans ?_
    rw [prod_mapM_visit terminal (List.forall_mem_append.mpr ⟨ihElements, hChildren⟩),
      List.flatMap_append, List.flatMap_map, Node.terminals_statement]

end Visitor

/-- Everything but trivia, line breaks, the punctuation of calls, and a closing parenthesis or a
comma outside every call. -/
def Token.isStructural (t : Token) : Bool :=
  match t.content with
  | .space _ | .comment | .lineBreak _ => false
  | .parenthesisOpen | .parenthesisClose | .comma => false
  | .error .unexpectedTokenInStatement => false
  | _ => true

namespace Token
variable {t : Token}

theorem isStructural_of_identity (h : t.kind = .identity) : t.isStructural = true := by
  rw [kind] at h
  cases hContent : t.content <;> simp_all [isStructural, Content.kind]

theorem isStructural_eq_false (h : t.kind = .space ∨ t.kind = .comment ∨ t.kind = .lineBreak ∨
    t.kind = .parenthesisOpen ∨ t.kind = .parenthesisClose ∨ t.kind = .comma) :
    t.isStructural = false := by
  rw [kind] at h
  cases hContent : t.content <;> simp_all [isStructural, Content.kind]

theorem isStructural_of_isTrivia (h : t.isTrivia = true) : t.isStructural = false := by
  rcases kind_of_isTrivia h with hKind | hKind <;> exact isStructural_eq_false (by simp [hKind])

theorem FillsStatement.isStructural (h : t.FillsStatement) : t.isStructural = false := by
  rcases h with hTrivia | hBreak | hError
  · exact isStructural_of_isTrivia hTrivia
  · exact isStructural_eq_false (by simp [hBreak])
  · simp [Token.isStructural, hError]

theorem FillsCall.isStructural (h : t.FillsCall) : t.isStructural = false := by
  rcases h with hTrivia | hComma
  · exact isStructural_of_isTrivia hTrivia
  · exact isStructural_eq_false (by simp [hComma])

end Token

def Node.Structural (n : Node) : Prop := ∀ t ∈ n.terminals, t.isStructural = true

namespace Node

theorem structural_token {t : Token} (h : t.isStructural = true) : (Node.token t).Structural := by
  simpa [Structural] using h

theorem structural_call {c : Call} : (Node.call c).Structural ↔
    c.name.isStructural = true ∧ ∀ n ∈ c.parameters, n.Structural := by
  simp only [Structural, terminals_call, List.forall_mem_cons, List.mem_flatMap]
  grind

end Node

/-- What has its place in the line so far is structural. -/
structure Line.Structural (l : Line) : Prop where
  elements : ∀ n ∈ l.statement.elements, n.Structural
  parameters : ∀ c ∈ l.calls, ∀ n ∈ c.parameters, n.Structural

namespace Line
variable {l : Line} {t : Token}

theorem Structural.record (h : l.Structural) (t : Token) : (l.record t).Structural := by
  unfold Line.record
  split
  · exact ⟨h.elements, h.parameters⟩
  · rename_i c outer hCalls
    have hParameters := h.parameters
    rw [hCalls, List.forall_mem_cons] at hParameters
    exact ⟨h.elements, List.forall_mem_cons.mpr hParameters⟩

theorem Structural.records (h : l.Structural) (tokens : List Token) :
    (tokens.foldl Line.record l).Structural := by
  induction tokens generalizing l with
  | nil => exact h
  | cons t tokens ih => exact ih (h.record t)

theorem Structural.place (h : l.Structural) {n : Node} (hn : n.Structural) (run : List Token) :
    (l.place n run).Structural := by
  have hConcat : ∀ {nodes : List Node}, (∀ d ∈ nodes, d.Structural) →
      ∀ d ∈ nodes ++ [n], d.Structural := by
    intro nodes hNodes
    exact List.forall_mem_append.mpr ⟨hNodes, List.forall_mem_singleton.mpr hn⟩
  unfold Line.place
  split
  · exact ⟨hConcat h.elements, h.parameters⟩
  · rename_i c outer hCalls
    have hParameters := h.parameters
    rw [hCalls, List.forall_mem_cons] at hParameters
    exact ⟨h.elements, List.forall_mem_cons.mpr ⟨hConcat hParameters.1, hParameters.2⟩⟩

theorem Structural.commit (h : l.Structural) (ht : t.isStructural = true) :
    (l.commit t).Structural :=
  h.place (Node.structural_token ht) [t]

theorem Structural.flush (h : l.Structural) (hSound : l.Sound) : l.flush.Structural := by
  unfold Line.flush
  split
  · exact h
  · rename_i p hPending
    have hFree : ({ l with pending := none } : Line).Structural := ⟨h.elements, h.parameters⟩
    have hIdentity := Token.isStructural_of_identity (hSound.pending p hPending).1
    exact (hFree.commit hIdentity).records p.trailing

theorem Structural.trivia (h : l.Structural) (t : Token) : (l.trivia t).Structural := by
  unfold Line.trivia
  split
  · exact h.record t
  · exact ⟨h.elements, h.parameters⟩

theorem Structural.openCall (h : l.Structural) (t : Token) : (l.openCall t).Structural := by
  unfold Line.openCall
  split
  · exact h.commit rfl
  · exact ⟨h.elements, List.forall_mem_cons.mpr ⟨by simp, h.parameters⟩⟩

theorem Structural.closeCall (h : l.Structural) (hSound : l.Sound) (t : Token) :
    (l.closeCall t).Structural := by
  unfold Line.closeCall
  split
  · exact h.record _
  · rename_i c outer hCalls
    have hParameters := h.parameters
    rw [hCalls, List.forall_mem_cons] at hParameters
    have hInner : ({ l with calls := outer } : Line).Structural := ⟨h.elements, hParameters.2⟩
    obtain ⟨-, -, -, hName, -⟩ := (hSound.calls_cons hCalls).1
    apply hInner.place
    exact Node.structural_call.mpr ⟨Token.isStructural_of_identity hName, hParameters.1⟩

theorem Structural.comma (h : l.Structural) (t : Token) : (l.comma t).Structural := by
  unfold Line.comma
  split <;> exact h.record _

theorem Structural.push (h : l.Structural) (hSound : l.Sound) (hBreak : t.kind ≠ .lineBreak)
    (hReason : t.content ≠ .error .unexpectedTokenInStatement) : (l.push t).Structural := by
  have hFlush := h.flush hSound
  unfold Line.push
  split
  · exact h.trivia t
  · exact h.trivia t
  · exact ⟨hFlush.elements, hFlush.parameters⟩
  · exact h.openCall t
  · exact hFlush.closeCall hSound.flush t
  · exact hFlush.comma t
  · apply hFlush.commit
    rw [Token.kind] at hBreak
    cases hContent : t.content <;> simp_all [Token.isStructural, Content.kind]

theorem structural_ofTokens {tokens : List Token} (hBreak : ∀ t ∈ tokens, t.kind ≠ .lineBreak)
    (hReason : ∀ t ∈ tokens, t.content ≠ .error .unexpectedTokenInStatement) :
    (ofTokens tokens).Sound ∧ (ofTokens tokens).Structural := by
  revert hBreak hReason
  apply ofTokens_induct (P := fun tokens l => (∀ t ∈ tokens, t.kind ≠ .lineBreak) →
    (∀ t ∈ tokens, t.content ≠ .error .unexpectedTokenInStatement) → l.Sound ∧ l.Structural)
  · exact fun indent _ _ => ⟨sound_start indent, by simp, by simp⟩
  · intro tokens l t ih hBreak hReason
    rw [List.forall_mem_append, List.forall_mem_singleton] at hBreak hReason
    obtain ⟨hSound, hStructural⟩ := ih hBreak.1 hReason.1
    exact ⟨hSound.push hBreak.2, hStructural.push hSound hBreak.2 hReason.2⟩

theorem Structural.settle (h : l.Structural) (hSound : l.Sound) :
    ∀ n ∈ l.settle.elements, n.Structural := by
  have hGivenUp : ∀ n ∈ l.givenUp.elements, n.Structural := by
    by_cases hCalls : l.calls = []
    · rw [givenUp_of_calls_eq_nil hCalls]
      exact h.elements
    · rw [givenUp_eq_place hCalls]
      refine List.forall_mem_append.mpr ⟨h.elements, List.forall_mem_singleton.mpr ?_⟩
      exact Node.structural_token rfl
  rw [elements_settle]
  refine List.forall_mem_append.mpr ⟨hGivenUp, List.forall_mem_map.mpr ?_⟩
  intro t ht
  obtain ⟨p, hp, rfl⟩ := Option.map_eq_some_iff.mp (Option.mem_toList.mp ht)
  exact Node.structural_token (Token.isStructural_of_identity (hSound.pending p hp).1)

end Line

theorem Factors.flatMap_terminals {spells : Node → List Token → Prop} {gap : Token → Prop}
    {nodes : List Node} {tokens : List Token} (h : Factors spells gap nodes tokens)
    (hGap : ∀ t, gap t → t.isStructural = false)
    (hNode : ∀ n ∈ nodes, ∀ run, spells n run → n.terminals = run.filter Token.isStructural) :
    nodes.flatMap Node.terminals = tokens.filter Token.isStructural := by
  induction h with
  | nil => rfl
  | gap _ ht ih => simp [ih hNode, hGap _ ht]
  | @node nodes tokens n run _ hRun ih =>
    rw [List.forall_mem_append, List.forall_mem_singleton] at hNode
    rw [List.flatMap_append, List.filter_append, ih hNode.1, List.flatMap_singleton,
      hNode.2 run hRun]

theorem Node.Complete.terminals_eq (n : Node) : ∀ {run : List Token}, n.Complete run →
    n.Structural → n.terminals = run.filter Token.isStructural := by
  induction n using Node.induct with
  | token t =>
    intro run h hStructural
    cases h with
    | token _ =>
      have ht : t.isStructural = true := hStructural t (by simp)
      simp [ht]
  | call c ih =>
    intro run h hStructural
    obtain ⟨hName, hParameters⟩ := Node.structural_call.mp hStructural
    cases h with
    | @call _ trailing body opening closing _ hTrailing hOpening hClosing hBody hTokens _ _ =>
      have hFlatMap := hBody.flatMap_terminals (fun _ => Token.FillsCall.isStructural)
        fun n hn _ hRun => ih n hn hRun (hParameters n hn)
      have hTrivia : trailing.filter Token.isStructural = [] := by
        simpa using fun t ht => Token.isStructural_of_isTrivia (hTrailing t ht)
      have hOpen : opening.isStructural = false := Token.isStructural_eq_false (by simp [hOpening])
      have hClose : closing.isStructural = false := Token.isStructural_eq_false (by simp [hClosing])
      simp [terminals_call, hFlatMap, hTokens, hName, hTrivia, hOpen, hClose]
  | statement s _ =>
    intro run h
    cases h

theorem Statement.Sound.terminals_eq {s : Statement} (h : s.Sound)
    (hStructural : ∀ d ∈ s.preorder, ∀ n ∈ d.elements, n.Structural)
    (hNone : s.unterminated = []) :
    (Node.statement s).terminals = s.tokens.filter Token.isStructural := by
  induction h with
  | @intro s own _ hFactors hTokens _ _ _ _ ih =>
    rw [Statement.preorder_eq, List.forall_mem_cons] at hStructural
    rw [Statement.unterminated_eq, List.append_eq_nil_iff, List.flatMap_eq_nil_iff,
      List.flatMap_eq_nil_iff] at hNone
    have hOwn : s.elements.flatMap Node.terminals = own.filter Token.isStructural := by
      refine hFactors.flatMap_terminals (fun _ => Token.FillsStatement.isStructural) ?_
      intro n hn run hRun
      exact (hRun.complete_of_unterminated (hNone.1 n hn)).terminals_eq n (hStructural.1 n hn)
    have hChildren : ∀ c ∈ s.children,
        (Node.statement c).terminals = c.tokens.filter Token.isStructural := by
      intro c hc
      refine ih c hc (fun d hd => hStructural.2 d ?_) (hNone.2 c hc)
      exact List.mem_flatMap.mpr ⟨c, hc, hd⟩
    calc (Node.statement s).terminals
      _ = s.elements.flatMap Node.terminals ++
          s.children.flatMap fun c => (Node.statement c).terminals := Node.terminals_statement s
      _ = own.filter Token.isStructural ++
          s.children.flatMap fun c => c.tokens.filter Token.isStructural := by
        rw [hOwn, List.flatMap_congr hChildren]
      _ = s.tokens.filter Token.isStructural := by
        rw [hTokens, List.filter_append, List.filter_flatMap]

namespace Document

/-- Whatever the source is, and even where calls are left open. -/
theorem structural_of_mem_preorder {source : String} {s : Statement}
    (h : s ∈ (parse source).preorder) : ∀ n ∈ s.elements, n.Structural := by
  obtain ⟨line, hLine, hMade⟩ := exists_madeFrom h
  have hReason : ∀ t ∈ line, t.content ≠ .error .unexpectedTokenInStatement := by
    intro t ht hContent
    have hLexed := (lexes_tokenize source).errorReason?_eq t (Grammar.mem_of_mem_bodies hLine t ht)
    simp [Token.errorReason?, hContent] at hLexed
  rw [(Statement.elements_of_madeFrom hMade).1]
  obtain ⟨hSound, hStructural⟩ := Line.structural_ofTokens hMade.1 hReason
  exact hStructural.settle hSound

end Document

/-- In a statement without unterminated calls the terminals of the structure are the structural
tokens, and a visitor that multiplies what it finds gives the product over them. -/
theorem visit_product_parse (source : String) (s : Statement)
    (hs : s ∈ (Document.parse source).preorder) (hNone : s.unterminated = []) :
    (Node.statement s).terminals = s.tokens.filter Token.isStructural ∧
    ∀ (m : Type → Type) [Monad m] [LawfulMonad m] (M : Type) [Monoid M] (terminal : Token → m M),
      (Visitor.product terminal).visit (.statement s) =
        List.prod <$> (s.tokens.filter Token.isStructural).mapM terminal := by
  have hBelow : ∀ d ∈ s.preorder, ∀ n ∈ d.elements, n.Structural := by
    intro d hd
    obtain ⟨top, hTop, hs⟩ := List.mem_flatMap.mp hs
    apply Document.structural_of_mem_preorder
    exact List.mem_flatMap.mpr ⟨top, hTop, Statement.mem_preorder_trans hs hd⟩
  have hTerminals := (Document.sound_of_mem_preorder hs).terminals_eq hBelow hNone
  refine ⟨hTerminals, ?_⟩
  intro m _ _ M _ terminal
  rw [Visitor.visit_product, hTerminals]

def Visitor.writeDown (t : Token) : StateM (List String) Nat := do
  modify (· ++ [t.text])
  return t.text.length

theorem visit_product_parse_nested :
    ∃ s ∈ (Document.parse "sum(ab, g (12)), xyz ) ( //c\n  b").preorder,
      s.unterminated = [] ∧ s.children.length = 1 ∧
      (Node.statement s).terminals = s.tokens.filter Token.isStructural ∧
      Id.run (((Visitor.product Visitor.writeDown).visit (.statement s)).run []) =
        (36, ["sum", "ab", "g", "12", "xyz", "(", "b"]) := by
  have hStatement := List.get_mem
    (Document.parse "sum(ab, g (12)), xyz ) ( //c\n  b").preorder ⟨0, by decide +kernel⟩
  obtain ⟨hTerminals, hVisit⟩ := visit_product_parse _ _ hStatement (by decide +kernel)
  refine ⟨_, hStatement, by decide +kernel, by decide +kernel, hTerminals, ?_⟩
  rw [hVisit]
  decide +kernel

end Outline
