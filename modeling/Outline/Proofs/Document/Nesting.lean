import Outline.Document
import Outline.Proofs.Builder.Nesting
import Outline.Proofs.Lexing.LineStarts

/-! # The outline of a source

Which statements a source has and how they are nested, said on its rows alone: a statement for each
row that does not start with a comment or a line end, as deep as the row is indented, under the
nearest row before it that is shallower.
-/
namespace Outline
set_option autoImplicit false

theorem foldr_count {forest : List Statement} (k : Nat)
    (h : ∀ s ∈ forest, s.count = s.preorder.length) :
    (forest.map Statement.count).foldr (· + ·) k =
      (forest.flatMap Statement.preorder).length + k := by
  induction forest with
  | nil => simp
  | cons s forest ih =>
    obtain ⟨hs, hForest⟩ := List.forall_mem_cons.mp h
    rw [List.map_cons, List.foldr_cons, ih hForest, hs, List.flatMap_cons, List.length_append]
    omega

theorem Statement.Sound.count_eq {s : Statement} (h : s.Sound) : s.count = s.preorder.length := by
  induction h with
  | @intro s _ _ _ _ _ _ _ _ ih =>
    rw [Statement.count, Statement.fold_def]
    change (s.children.map Statement.count).foldr (· + ·) 1 = _
    rw [foldr_count 1 ih, Statement.preorder_eq, List.length_cons]

theorem Statement.Sound.start_eq {s : Statement} (h : s.Sound) {t : Token}
    (ht : s.tokens.head? = some t) : s.span.start = t.span.start := by
  rw [h.span_eq, Token.start_spanOf ht]

theorem rowStarts_sublist (fresh : Bool) (tokens : List Token) :
    (rowStarts fresh tokens).Sublist tokens := by
  induction tokens generalizing fresh with
  | nil => exact .slnil
  | cons t tokens ih =>
    rw [rowStarts]
    split
    · exact (ih _).cons_cons t
    · exact (ih _).cons t

namespace Document

def preorder (d : Document) : List Statement := d.statements.flatMap Statement.preorder

def withParents (d : Document) : List (Statement × Option Statement) :=
  d.statements.flatMap Statement.withParents

theorem sound_of_mem_preorder {source : String} {s : Statement}
    (h : s ∈ (parse source).preorder) : s.Sound := by
  obtain ⟨root, hRoot, hs⟩ := List.mem_flatMap.mp h
  exact (sound_of_mem_build hRoot).preorder s hs

/-- The statements of a source are those of the tokens that start rows. -/
theorem heads_parse (source : String) :
    (parse source).preorder.map (fun s => (s.indent, s.tokens.head?)) =
      (rowStarts true (tokenize source)).map
        fun t => (Builder.indentOf t, some (Scan.start.mark t)) := by
  have hSound : Builder.empty.Sound := trivial
  have hHeads := Builder.heads_pushAll hSound (lexes_tokenize source).commentsLast (.inl rfl)
  rw [← Builder.rows_finish] at hHeads
  calc
    (parse source).preorder.map (fun s => (s.indent, s.tokens.head?))
      = (parse source).preorder.map fun s => s.row.head :=
        List.map_congr_left fun s hs => (sound_of_mem_preorder hs).head_row.symm
    _ = ((parse source).statements.flatMap Statement.rows).map OpenStatement.head := by
        rw [preorder, List.map_flatMap, List.map_flatMap]
        simp [Statement.rows, List.map_map, Function.comp_def]
    _ = _ := hHeads

theorem map_start_preorder (source : String) :
    (parse source).preorder.map (·.span.start) =
      (rowStarts true (tokenize source)).map (·.span.start) := by
  let start (head : Nat × Option Token) : Position := head.2.elim .origin (·.span.start)
  calc
    (parse source).preorder.map (·.span.start)
      = ((parse source).preorder.map fun s => (s.indent, s.tokens.head?)).map start := by
        rw [List.map_map]
        apply List.map_congr_left
        intro s hs
        have hSound := sound_of_mem_preorder hs
        obtain ⟨first, rest, hTokens⟩ := List.exists_cons_of_ne_nil hSound.ne_nil
        have hHead : s.tokens.head? = some first := by rw [hTokens, List.head?_cons]
        simp only [Function.comp_apply, start, hHead]
        exact hSound.start_eq hHead
    _ = (rowStarts true (tokenize source)).map (·.span.start) := by
        rw [heads_parse, List.map_map]
        apply List.map_congr_left
        intro t _
        exact congrArg Span.start (Scan.span_mark Scan.start t)

/-- A statement starts where its row does and is as deep as the row is indented. -/
theorem row_of_mem_preorder {source : String} {s : Statement} (h : s ∈ (parse source).preorder) :
    s.span.start.column = 1 ∧
      s.indent = leadingBlanks (normalizeLineEnds source).toList s.span.start.row := by
  have hHead := List.mem_map_of_mem h (f := fun s => (s.indent, s.tokens.head?))
  rw [heads_parse, List.mem_map] at hHead
  obtain ⟨t, ht, hEq⟩ := hHead
  obtain ⟨hIndent, hFirst⟩ := Prod.mk.inj hEq
  have hStart : s.span.start = t.span.start := by
    rw [(sound_of_mem_preorder h).start_eq hFirst.symm, Scan.span_mark]
  have hLexes : Lexes (Position.origin.advance []) _ _ := lexes_tokenize source
  obtain ⟨hColumn, hBlanks⟩ := hLexes.rowStarts_spec (fun _ => rfl) t ht
  rw [List.nil_append, hIndent] at hBlanks
  rw [hStart]
  exact ⟨hColumn, hBlanks⟩

theorem withParents_map_fst (source : String) :
    (parse source).withParents.map Prod.fst = (parse source).preorder := by
  rw [withParents, preorder, List.map_flatMap, List.flatMap_def, List.flatMap_def]
  congr 1
  exact List.map_congr_left fun s hs => (sound_of_mem_build hs).map_fst_withParents

end Document

/-- The statements of a source, in its order, are one for each token that starts a row; they start
where these tokens do, in the first column of different rows, with the indentation of these rows.
The parent of a statement is the nearest one before it that is shallower, and a statement without a
parent is at the top. -/
theorem statement_for_each_row (source : String) :
    (Document.parse source).preorder.map (·.tokens.head?) =
        (rowStarts true (tokenize source)).map (fun t => some (Scan.start.mark t)) ∧
      (Document.parse source).preorder.map (·.span.start) =
        (rowStarts true (tokenize source)).map (·.span.start) ∧
      (Document.parse source).statementCount = (rowStarts true (tokenize source)).length ∧
      (Document.parse source).preorder.Pairwise
        (fun s s' => s.span.start.order s'.span.start = .lt) ∧
      (∀ s ∈ (Document.parse source).preorder, s.span.start.column = 1 ∧
        s.indent = leadingBlanks (normalizeLineEnds source).toList s.span.start.row) ∧
      (Document.parse source).withParents.map Prod.fst = (Document.parse source).preorder ∧
      ∀ before s parent behind,
        (Document.parse source).withParents = before ++ (s, parent) :: behind →
          parent = (before.map Prod.fst).reverse.find? (·.indent < s.indent) := by
  have hHeads := Document.heads_parse source
  have hStarts := Document.map_start_preorder source
  refine ⟨?_, hStarts, ?_, ?_, fun s => Document.row_of_mem_preorder,
    Document.withParents_map_fst source, ?_⟩
  · have hTokens := congrArg (List.map Prod.snd) hHeads
    rwa [List.map_map, List.map_map] at hTokens
  · have hCount := foldr_count 0 fun s (hs : s ∈ (Document.parse source).statements) =>
      (sound_of_mem_build hs).count_eq
    have hLength := congrArg List.length hHeads
    rw [List.length_map, List.length_map] at hLength
    exact hCount.trans hLength
  · have hTokens := (lexes_tokenize source).tiles.pairwise_start
    have hOrdered := hTokens.sublist (rowStarts_sublist true (tokenize source))
    have hMapped : ((rowStarts true (tokenize source)).map (·.span.start)).Pairwise
        fun p q => p.order q = .lt := List.pairwise_map.mpr hOrdered
    rw [← hStarts] at hMapped
    exact List.pairwise_map.mp hMapped
  · intro before s parent behind hSplit
    have hLinked := linked_build (tokenize source)
    change Linked [] (Document.parse source).withParents at hLinked
    rw [hSplit, linked_append, List.append_nil] at hLinked
    exact hLinked.2.1

/-- A row between two levels is under the shallower one, and the row before it is not its parent. -/
theorem statement_for_each_row_dedent :
    ∃ before s parent behind,
      (Document.parse "a\n    b\n  c").withParents = before ++ (s, parent) :: behind ∧
      s.text = "  c" ∧ before.map (·.1.text) = ["a\n    b\n  c", "    b\n"] ∧
      parent.map (·.indent) = some 0 ∧
      parent = (before.map Prod.fst).reverse.find? (·.indent < s.indent) := by
  have hSplit := (List.take_append_drop 2 (Document.parse "a\n    b\n  c").withParents).symm
  rw [List.drop_eq_getElem_cons (by decide +kernel)] at hSplit
  obtain ⟨-, -, -, -, -, -, hParents⟩ := statement_for_each_row "a\n    b\n  c"
  exact ⟨_, _, _, _, hSplit, by decide +kernel, by decide +kernel, by decide +kernel,
    hParents _ _ _ _ hSplit⟩

end Outline
