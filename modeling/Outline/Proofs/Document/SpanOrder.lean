import Outline.Proofs.Document.Contents
import Outline.Snapshot

/-! # Spans in the order of the source

The tokens of a source lie end to end, and a node spans a run of them. So statements side by side
share a position, elements and parameters follow one another without overlap, and a walk over the
whole tree never steps back.
-/
namespace Outline
set_option autoImplicit false

namespace Position
variable {p q r : Position} {l m : List Position}

/-- From `p` over the positions to `q` there is no step back. -/
def Rises (p : Position) : List Position → Position → Prop
  | [], q => p ≤ q
  | x :: rest, q => p ≤ x ∧ Rises x rest q

theorem Rises.of_le (h : p ≤ q) (hRises : Rises q l r) : Rises p l r := by
  cases l with
  | nil => exact le_trans h hRises
  | cons x l => exact ⟨le_trans h hRises.1, hRises.2⟩

theorem Rises.append (h : Rises p l q) (hNext : Rises q m r) : Rises p (l ++ m) r := by
  induction l generalizing p with
  | nil => exact hNext.of_le h
  | cons x l ih => exact ⟨h.1, ih h.2⟩

theorem Rises.le (h : Rises p l q) (hLe : q ≤ r) : Rises p l r := by
  have hEnd : Rises q [] r := hLe
  have hAll := h.append hEnd
  rwa [List.append_nil] at hAll

theorem Rises.pairwise (h : Rises p l q) : (p :: l ++ [q]).Pairwise (· ≤ ·) := by
  induction l generalizing p with
  | nil => simpa [Rises] using h
  | cons x l ih =>
    obtain ⟨hFirst, hRest⟩ := h
    have hLater := ih hRest
    refine List.pairwise_cons.mpr ⟨?_, hLater⟩
    rintro y (_ | ⟨_, hy⟩)
    · exact hFirst
    · exact le_trans hFirst ((List.pairwise_cons.mp hLater).1 y hy)

end Position

namespace Span

/-- The spans lie end to end from `p` to `q`. -/
def Adjoin (p : Position) : List Span → Position → Prop
  | [], q => p = q
  | s :: rest, q => s.start = p ∧ Adjoin s.stop rest q

def ends (s : Span) : List Position := [s.start, s.stop]

end Span

/-- Where the tokens end; without any, this is where the source starts. -/
def Token.endOf (tokens : List Token) : Position :=
  (tokens.getLast?.map (·.span.stop)).getD .origin

theorem Token.Tiles.endOf_eq {tokens : List Token} (h : Token.Tiles .origin tokens) :
    Token.endOf tokens = Position.origin.advance (Token.joinedText tokens).toList := by
  rw [Token.endOf]
  cases hLast : tokens.getLast? with
  | none =>
    rw [List.getLast?_eq_none_iff.mp hLast]
    rfl
  | some last => exact h.getLast_span hLast

open Position

/-- Positions that rise within the run of each node rise within the whole. -/
theorem Factors.rises {spells : Node → List Token → Prop} {gap : Token → Prop} {nodes : List Node}
    {tokens : List Token} {positions : Node → List Position} {p : Position}
    (h : Factors spells gap nodes tokens)
    (hNode : ∀ n ∈ nodes, ∀ run q, spells n run → Token.Tiles q run →
      Rises q (positions n) (q.advance (Token.joinedText run).toList))
    (hTiles : Token.Tiles p tokens) :
    Rises p (nodes.flatMap positions) (p.advance (Token.joinedText tokens).toList) := by
  induction h with
  | nil => exact le_refl p
  | @gap nodes tokens t _ _ ih =>
    have hFront := ih hNode (Token.tiles_append.mp hTiles).1
    rw [Token.joinedText_append, String.toList_append, advance_append]
    exact hFront.le (le_advance _ _)
  | @node nodes tokens n run _ hn ih =>
    obtain ⟨hBefore, hRun⟩ := Token.tiles_append.mp hTiles
    have hFront := ih (fun m hm => hNode m (List.mem_append_left _ hm)) hBefore
    have hLast := hNode n (by simp) run _ hn hRun
    rw [Token.joinedText_append, String.toList_append, advance_append, List.flatMap_append,
      List.flatMap_singleton]
    exact hFront.append hLast

theorem Node.Spells.span_of_tiles {n : Node} {run : List Token} {q : Position}
    (h : n.Spells run) (hTiles : Token.Tiles q run) :
    n.span = ⟨q, q.advance (Token.joinedText run).toList⟩ := by
  rw [h.span_eq, hTiles.spanOf_eq h.ne_nil]

theorem Node.Spells.rises_ends {n : Node} {run : List Token} {q : Position} (h : n.Spells run)
    (hTiles : Token.Tiles q run) :
    Rises q n.span.ends (q.advance (Token.joinedText run).toList) := by
  rw [h.span_of_tiles hTiles]
  exact ⟨le_refl q, le_advance _ _, le_refl _⟩

theorem Node.Spells.exists_body {c : Call} {run : List Token} {q : Position}
    (h : (Node.call c).Spells run) (hTiles : Token.Tiles q run) :
    ∃ body closing p, Factors Node.Spells Token.FillsCall c.parameters body ∧
      Token.Tiles p body ∧ c.tokens.getLast? = some closing ∧ closing.kind = .parenthesisClose ∧
      q ≤ c.name.span.stop ∧ c.name.span.stop ≤ p ∧
      closing.span.start = p.advance (Token.joinedText body).toList ∧
      closing.span.start ≤ q.advance (Token.joinedText run).toList := by
  cases h with
  | @call _ trailing body opening closing _ _ _ hClosing hBody hTokens _ _ =>
    have hSplit : c.tokens = (c.name :: (trailing ++ [opening])) ++ body ++ [closing] := by
      simp [hTokens]
    rw [hSplit] at hTiles ⊢
    obtain ⟨hInner, hLast⟩ := Token.tiles_append.mp hTiles
    obtain ⟨hFront, hParameters⟩ := Token.tiles_append.mp hInner
    have hName : c.name.span.stop = q.advance c.name.text.toList := by rw [hFront.2.1]
    have hStart : closing.span.start =
        q.advance (Token.joinedText (c.name :: (trailing ++ [opening]) ++ body)).toList := by
      rw [hLast.2.1]
    refine ⟨body, closing, _, hBody, hParameters, List.getLast?_concat, hClosing, ?_, ?_, ?_, ?_⟩
    · rw [hName]
      exact le_advance _ _
    · rw [hName, Token.joinedText_cons, String.toList_append, advance_append]
      exact le_advance _ _
    · rw [hStart, Token.joinedText_append, String.toList_append, advance_append]
    · rw [hStart, Token.joinedText_append _ [closing], String.toList_append, advance_append]
      exact le_advance _ _

theorem Node.Spells.rises_parameters {c : Call} {run : List Token} {q : Position}
    (h : (Node.call c).Spells run) (hTiles : Token.Tiles q run) :
    ∃ closing, c.tokens.getLast? = some closing ∧ closing.kind = .parenthesisClose ∧
      Rises c.name.span.stop (c.parameters.flatMap (·.span.ends)) closing.span.start := by
  obtain ⟨body, closing, p, hBody, hInner, hLast, hClosing, -, hName, hStart, -⟩ :=
    h.exists_body hTiles
  refine ⟨closing, hLast, hClosing, ?_⟩
  rw [hStart]
  exact (hBody.rises (fun _ _ _ _ hn hRun => hn.rises_ends hRun) hInner).of_le hName

theorem adjoin_of_tiles {forest : List Statement} (h : ∀ s ∈ forest, s.Sound) {p : Position}
    (hTiles : Token.Tiles p (forest.flatMap Statement.tokens)) :
    Span.Adjoin p (forest.map (·.span))
      (p.advance (Token.joinedText (forest.flatMap Statement.tokens)).toList) := by
  induction forest generalizing p with
  | nil => rfl
  | cons s forest ih =>
    obtain ⟨hs, hRest⟩ := List.forall_mem_cons.mp h
    rw [List.flatMap_cons] at hTiles ⊢
    obtain ⟨hFirst, hLater⟩ := Token.tiles_append.mp hTiles
    rw [List.map_cons, hs.span_eq, hFirst.spanOf_eq hs.ne_nil, Token.joinedText_append,
      String.toList_append, advance_append]
    exact ⟨rfl, ih hRest hLater⟩

/-- The elements of a statement come before its children, and these reach to its end. -/
theorem Statement.Sound.exists_firstChild {s : Statement} (h : s.Sound) {p : Position}
    (hTiles : Token.Tiles p s.tokens) :
    ∃ q, Span.Adjoin q (s.children.map (·.span)) s.span.stop ∧
      Rises s.span.start (s.elements.flatMap (·.span.ends)) q := by
  have hSpan := h.span_eq.trans (hTiles.spanOf_eq h.ne_nil)
  obtain ⟨-, hFactors, hTokens, -, -, -, hChildren⟩ := h
  rw [hTokens] at hTiles hSpan
  obtain ⟨hOwn, hNested⟩ := Token.tiles_append.mp hTiles
  have hAdjoin := adjoin_of_tiles hChildren hNested
  rw [Token.joinedText_append, String.toList_append, advance_append] at hSpan
  rw [hSpan]
  refine ⟨_, hAdjoin, hFactors.rises ?_ hOwn⟩
  intro n _ run q hn hRun
  exact hn.spells.rises_ends hRun

mutual

/-- A snapshot and those below it, in the order in which they are shown. -/
def Snapshot.preorder : Snapshot → List Snapshot
  | ⟨nodeType, label, span, attributes, children⟩ =>
    ⟨nodeType, label, span, attributes, children⟩ :: Snapshot.preorders children

def Snapshot.preorders : List Snapshot → List Snapshot
  | [] => []
  | s :: rest => s.preorder ++ Snapshot.preorders rest

end

theorem Snapshot.preorders_eq_flatMap (snapshots : List Snapshot) :
    preorders snapshots = snapshots.flatMap preorder := by
  induction snapshots with
  | nil => rfl
  | cons s snapshots ih => rw [preorders, ih, List.flatMap_cons]

theorem Snapshot.preorder_eq (s : Snapshot) : s.preorder = s :: s.children.flatMap preorder := by
  cases s
  rw [preorder, preorders_eq_flatMap]

def Node.starts (n : Node) : List Position :=
  (Snapshot.ofNode n).preorder.map (·.span.start)

theorem Node.starts_token (t : Token) : (Node.token t).starts = [t.span.start] := by
  rw [starts, Snapshot.preorder_eq]
  simp [Snapshot.ofNode, Snapshot.fromNodes]

theorem Node.starts_call (c : Call) :
    (Node.call c).starts = c.span.start :: c.parameters.flatMap starts := by
  have hCall : Snapshot.ofNode (.call c) =
      ⟨Kind.call.name, c.name.text, c.span, {}, c.parameters.map Snapshot.ofNode⟩ := by
    rw [Snapshot.ofNode, fold_call, Call.fold_def]
    rfl
  rw [starts, Snapshot.preorder_eq, hCall, List.map_cons, List.flatMap_map, List.map_flatMap]
  rfl

theorem Node.starts_statement (s : Statement) :
    (Node.statement s).starts = s.span.start ::
      (s.elements.flatMap starts ++ s.children.flatMap fun c => (Node.statement c).starts) := by
  have hStatement : (Snapshot.ofNode (.statement s)).span = s.span ∧
      (Snapshot.ofNode (.statement s)).children =
        s.elements.map Snapshot.ofNode ++
          s.children.map fun c => Snapshot.ofNode (.statement c) := by
    simp only [Snapshot.ofNode, fold_statement]
    rw [Statement.fold_def]
    exact ⟨rfl, rfl⟩
  rw [starts, Snapshot.preorder_eq, hStatement.2, List.map_cons, hStatement.1, List.flatMap_append,
    List.map_append, List.flatMap_map, List.flatMap_map, List.map_flatMap, List.map_flatMap]
  rfl

theorem starts_ofForest (forest : List Statement) :
    ((Snapshot.ofForest forest).flatMap Snapshot.preorder).map (·.span.start) =
      forest.flatMap fun s => (Node.statement s).starts := by
  simp only [Snapshot.ofForest, Snapshot.ofStatement, List.flatMap_map, List.map_flatMap,
    Node.starts, Snapshot.ofNode, Node.fold_statement]

theorem Node.Spells.rises_starts (n : Node) : ∀ {run : List Token} {q : Position}, n.Spells run →
    Token.Tiles q run → Rises q n.starts (q.advance (Token.joinedText run).toList) := by
  induction n using Node.induct with
  | token t =>
    intro run q h hTiles
    have hStart : t.span.start = q := congrArg Span.start (h.span_of_tiles hTiles)
    rw [Node.starts_token, hStart]
    exact ⟨le_refl q, le_advance _ _⟩
  | call c ih =>
    intro run q h hTiles
    have hStart : c.span.start = q := congrArg Span.start (h.span_of_tiles hTiles)
    obtain ⟨body, closing, p, hBody, hInner, -, -, hFirst, hName, hEnd, hLast⟩ :=
      h.exists_body hTiles
    have hParameters := hBody.rises (fun n hn _ _ hRun => ih n hn hRun) hInner
    rw [← hEnd] at hParameters
    rw [Node.starts_call, hStart]
    exact ⟨le_refl q, (hParameters.of_le (le_trans hFirst hName)).le hLast⟩
  | statement s _ =>
    intro run q h
    cases h

theorem rises_starts_forest {forest : List Statement} {p : Position}
    (h : ∀ s ∈ forest, ∀ q, Token.Tiles q s.tokens →
      Rises q (Node.statement s).starts (q.advance (Token.joinedText s.tokens).toList))
    (hTiles : Token.Tiles p (forest.flatMap Statement.tokens)) :
    Rises p (forest.flatMap fun s => (Node.statement s).starts)
      (p.advance (Token.joinedText (forest.flatMap Statement.tokens)).toList) := by
  induction forest generalizing p with
  | nil => exact le_refl p
  | cons s forest ih =>
    obtain ⟨hs, hRest⟩ := List.forall_mem_cons.mp h
    rw [List.flatMap_cons] at hTiles ⊢
    obtain ⟨hFirst, hLater⟩ := Token.tiles_append.mp hTiles
    rw [List.flatMap_cons, Token.joinedText_append, String.toList_append, advance_append]
    exact (hs p hFirst).append (ih hRest hLater)

theorem Statement.Sound.rises_starts {s : Statement} (h : s.Sound) (p : Position)
    (hTiles : Token.Tiles p s.tokens) :
    Rises p (Node.statement s).starts (p.advance (Token.joinedText s.tokens).toList) := by
  induction h generalizing p with
  | @intro s own hOwn hFactors hTokens hSpan _ _ _ ih =>
    have hNonempty : s.tokens ≠ [] := by simp [hTokens, hOwn]
    have hStart : s.span.start = p := by rw [hSpan, hTiles.spanOf_eq hNonempty]
    rw [hTokens] at hTiles ⊢
    obtain ⟨hElements, hChildren⟩ := Token.tiles_append.mp hTiles
    have hFirst := hFactors.rises (fun n _ _ _ hRun => hRun.spells.rises_starts n) hElements
    have hLater := rises_starts_forest ih hChildren
    rw [Node.starts_statement, hStart, Token.joinedText_append, String.toList_append,
      advance_append]
    exact ⟨le_refl p, hFirst.append hLater⟩

theorem tiles_of_holds {source : String} {n : Node} (h : (Document.parse source).Holds n) :
    ∃ run q, n.StandsFor run ∧ Token.Tiles q run := by
  obtain ⟨stream, run, hCovers, hInfix, hRun⟩ := h.exists_run
  obtain ⟨q, hTiles⟩ := hCovers.tiles.of_infix hInfix
  exact ⟨run, q, hRun, hTiles⟩

theorem tiles_statements (source : String) :
    Token.Tiles (Token.endOf (Document.parse source).preamble)
        ((Document.parse source).statements.flatMap Statement.tokens) ∧
      (Token.endOf (Document.parse source).preamble).advance (Token.joinedText
          ((Document.parse source).statements.flatMap Statement.tokens)).toList =
        Token.endOf (Document.parse source).tokens := by
  have hStream : (Document.parse source).preamble ++
      (Document.parse source).statements.flatMap Statement.tokens = retag (tokenize source) :=
    preamble_append_tokens (tokenize source)
  have hCovers := covers_tokenize source
  have hTiles := hCovers.retag.tiles
  have hJoined := Scan.joinedText_markAll Scan.start (tokenize source)
  rw [← retag, ← hStream, Token.joinedText_append] at hJoined
  rw [← hStream] at hTiles
  obtain ⟨hPreamble, hStatements⟩ := Token.tiles_append.mp hTiles
  have hEnd : Token.endOf (Document.parse source).tokens =
      Position.origin.advance (Token.joinedText (tokenize source)).toList := hCovers.tiles.endOf_eq
  rw [hPreamble.endOf_eq, hEnd, ← hJoined, String.toList_append, advance_append]
  exact ⟨hStatements, rfl⟩

/-- The top-level statements lie end to end from the end of the preamble to the end of the last
token, and the children of a statement from behind its elements to its end. Elements come one behind
the other between the start of the statement and its first child, parameters between the name and
the closing parenthesis of the call. So the snapshots of all nodes, in their order, never start
before one another. -/
theorem spans_parse (source : String) :
    Span.Adjoin (Token.endOf (Document.parse source).preamble)
        ((Document.parse source).statements.map (·.span))
        (Token.endOf (Document.parse source).tokens) ∧
      (∀ s, (Document.parse source).Holds (.statement s) →
        ∃ q, Span.Adjoin q (s.children.map (·.span)) s.span.stop ∧
          (s.span.start :: s.elements.flatMap (·.span.ends) ++ [q]).Pairwise (· ≤ ·)) ∧
      (∀ c, (Document.parse source).Holds (.call c) →
        ∃ closing, c.tokens.getLast? = some closing ∧ closing.kind = .parenthesisClose ∧
          (c.name.span.stop :: c.parameters.flatMap (·.span.ends) ++
            [closing.span.start]).Pairwise (· ≤ ·)) ∧
      ((Snapshot.ofForest (Document.parse source).statements).flatMap Snapshot.preorder).Pairwise
        fun a b => a.span.start ≤ b.span.start := by
  obtain ⟨hTiles, hEnd⟩ := tiles_statements source
  have hSound : ∀ s ∈ (Document.parse source).statements, s.Sound := fun _ => sound_of_mem_build
  refine ⟨?_, ?_, ?_, ?_⟩
  · rw [← hEnd]
    exact adjoin_of_tiles hSound hTiles
  · intro s hs
    obtain ⟨_, q, ⟨hs, rfl⟩, hRun⟩ := tiles_of_holds hs
    obtain ⟨first, hChildren, hElements⟩ := hs.exists_firstChild hRun
    exact ⟨first, hChildren, hElements.pairwise⟩
  · intro c hc
    obtain ⟨run, q, hCall, hRun⟩ := tiles_of_holds hc
    obtain ⟨closing, hLast, hKind, hParameters⟩ := Node.Spells.rises_parameters hCall hRun
    exact ⟨closing, hLast, hKind, hParameters.pairwise⟩
  · have hStarts := rises_starts_forest (fun s hs => (hSound s hs).rises_starts) hTiles
    have hShown := (List.pairwise_append.mp (List.pairwise_cons.mp hStarts.pairwise).2).1
    rw [← starts_ofForest] at hShown
    exact List.pairwise_map.mp hShown

/-- A statement whose second element is a call, with two children. -/
theorem spans_parse_children :
    (∃ s, (Document.parse "// a\nb f(c, 1)\n  d\n  e(\ng").Holds (.statement s) ∧
      s.span = ⟨⟨2, 1⟩, ⟨5, 1⟩⟩ ∧ s.children.map (·.span) = [⟨⟨3, 1⟩, ⟨4, 1⟩⟩, ⟨⟨4, 1⟩, ⟨5, 1⟩⟩] ∧
      ∃ q, Span.Adjoin q (s.children.map (·.span)) s.span.stop ∧
        (s.span.start :: s.elements.flatMap (·.span.ends) ++ [q]).Pairwise (· ≤ ·)) ∧
    ∃ c, (Document.parse "// a\nb f(c, 1)\n  d\n  e(\ng").Holds (.call c) ∧
      c.text = "f(c, 1)" ∧
      ∃ closing, c.tokens.getLast? = some closing ∧ closing.kind = .parenthesisClose ∧
        (c.name.span.stop :: c.parameters.flatMap (·.span.ends) ++
          [closing.span.start]).Pairwise (· ≤ ·) := by
  obtain ⟨-, hStatements, hCalls, -⟩ := spans_parse "// a\nb f(c, 1)\n  d\n  e(\ng"
  have hStatement : (Document.parse "// a\nb f(c, 1)\n  d\n  e(\ng").Holds
      (.statement ((Document.parse "// a\nb f(c, 1)\n  d\n  e(\ng").statements.get
        ⟨0, by decide +kernel⟩)) := .statement (List.get_mem _ _)
  constructor
  · exact ⟨_, hStatement, by decide +kernel, by decide +kernel, hStatements _ hStatement⟩
  · obtain ⟨n, hHolds, hKind, hText⟩ : ∃ n,
        (Document.parse "// a\nb f(c, 1)\n  d\n  e(\ng").Holds n ∧ n.kind = .call ∧
        n.text = "f(c, 1)" :=
      ⟨_, .element hStatement (List.get_mem _ ⟨1, by decide +kernel⟩), by decide +kernel,
        by decide +kernel⟩
    obtain ⟨c, rfl⟩ := Node.eq_call_of_kind hKind
    exact ⟨c, hHolds, hText, hCalls c hHolds⟩

end Outline
