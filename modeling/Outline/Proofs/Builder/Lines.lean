import Mathlib.Data.List.Forall2
import Mathlib.Data.List.Induction
import Outline.Proofs.Builder.Rows
import Outline.Proofs.Grammar

/-! # Statements line by line

Each line makes its statement alone: the tokens of the line decide the indentation and the elements,
and of the lines behind it the row takes in comments and line breaks only. So a property of all rows
of a forest is a property of single lines, which are pushed token by token.
-/
namespace Outline
set_option autoImplicit false

namespace Line

def ofTokens (tokens : List Token) : Line :=
  tokens.foldl push { statement := { indent := tokens.head?.elim 0 Builder.indentOf } }

theorem ofTokens_concat {tokens : List Token} (h : tokens ≠ []) (t : Token) :
    ofTokens (tokens ++ [t]) = (ofTokens tokens).push t := by
  obtain ⟨first, rest, rfl⟩ := List.exists_cons_of_ne_nil h
  rw [ofTokens, List.foldl_append]
  rfl

/-- What holds of a line that has not begun, and is kept by each token, holds of every line. -/
theorem ofTokens_induct {P : List Token → Line → Prop}
    (start : ∀ indent, P [] { statement := { indent } })
    (step : ∀ tokens l t, P tokens l → P (tokens ++ [t]) (l.push t)) (tokens : List Token) :
    P tokens (ofTokens tokens) := by
  rw [ofTokens]
  generalize tokens.head?.elim 0 Builder.indentOf = indent
  induction tokens using List.reverseRecOn with
  | nil => exact start indent
  | append_singleton tokens t ih =>
    rw [List.foldl_append]
    exact step tokens _ t ih

theorem sound_ofTokens {tokens : List Token} (h : ∀ t ∈ tokens, t.kind ≠ .lineBreak) :
    (ofTokens tokens).Sound := by
  revert h
  apply ofTokens_induct (P := fun tokens l => (∀ t ∈ tokens, t.kind ≠ .lineBreak) → l.Sound)
  · exact fun indent _ => sound_start indent
  · intro tokens l t ih h
    rw [List.forall_mem_append, List.forall_mem_singleton] at h
    exact (ih h.1).push h.2

theorem recorded_foldl_push {scan : Scan} {l : Line} (h : scan.Follows l) {tokens : List Token}
    (hTokens : ∀ t ∈ tokens, t.kind ≠ .lineBreak) :
    (tokens.foldl push l).recorded = l.recorded ++ scan.markAll tokens := by
  induction tokens generalizing scan l with
  | nil => simp [Scan.markAll]
  | cons t tokens ih =>
    obtain ⟨ht, hRest⟩ := List.forall_mem_cons.mp hTokens
    rw [List.foldl_cons, ih (h.push ht) hRest, Scan.recorded_push h ht, Scan.markAll,
      List.append_assoc, List.singleton_append]

theorem recorded_ofTokens {tokens : List Token} (h : ∀ t ∈ tokens, t.kind ≠ .lineBreak) :
    (ofTokens tokens).recorded = retag tokens := by
  have hFollows : Scan.start.Follows
      { statement := { indent := tokens.head?.elim 0 Builder.indentOf } } := ⟨rfl, rfl⟩
  exact recorded_foldl_push hFollows h

end Line

namespace Grammar

/-- The tokens of a line from the first that starts a statement. -/
def body (line : List Token) : List Token := line.dropWhile (·.kind = .comment)

/-- The lines that make statements, each without the comments before its statement. -/
def bodies (tokens : List Token) : List (List Token) :=
  ((logicalLines tokens).map body).filter (· ≠ [])

theorem body_append {line : List Token} (h : body line ≠ []) (rest : List Token) :
    body (line ++ rest) = body line ++ rest := by
  rw [body] at h ⊢
  rw [List.dropWhile_append, if_neg (by simpa using h)]
  rfl

theorem body_concat {line : List Token} (h : body line = []) (t : Token) :
    body (line ++ [t]) = if t.kind = .comment then [] else [t] := by
  rw [body] at h ⊢
  rw [List.dropWhile_append, if_pos (by simpa using h)]
  simp [List.dropWhile_cons]

theorem kind_ne_of_mem_body {line : List Token} (h : ∀ t ∈ line, t.kind ≠ .lineBreak) :
    ∀ t ∈ body line, t.kind ≠ .lineBreak := by
  intro t ht
  exact h t ((List.dropWhile_suffix _).subset ht)

theorem bodies_of_line {line : List Token} (h : ∀ t ∈ line, t.kind ≠ .lineBreak) :
    bodies line = if body line = [] then [] else [body line] := by
  have hSingle := logicalLines_append h []
  rw [List.append_nil] at hSingle
  rw [bodies, hSingle]
  by_cases hBody : body line = [] <;> simp [logicalLines, hBody]

theorem bodies_append {line : List Token} (h : ∀ t ∈ line, t.kind ≠ .lineBreak) {t : Token}
    (ht : t.kind = .lineBreak) (rest : List Token) :
    bodies (line ++ t :: rest) = bodies line ++ bodies rest := by
  rw [bodies_of_line h, bodies, logicalLines_append h, logicalLines_cons ht]
  by_cases hBody : body line = [] <;> simp [bodies, hBody]

theorem mem_of_mem_bodies {tokens line : List Token} (h : line ∈ bodies tokens) :
    ∀ t ∈ line, t ∈ tokens := by
  obtain ⟨whole, hWhole, rfl⟩ := List.mem_map.mp (List.mem_filter.mp h).1
  intro t ht
  apply (flatten_logicalLines_sublist tokens).subset
  exact List.mem_flatten.mpr ⟨whole, hWhole, (List.dropWhile_suffix _).subset ht⟩

end Grammar

open Grammar

/-- The row is the statement of the line, with nothing but line breaks and comments behind it. -/
def OpenStatement.MadeFrom (row : OpenStatement) (line : List Token) : Prop :=
  (∀ t ∈ line, t.kind ≠ .lineBreak) ∧ ∃ behind : List Token,
    (∀ t ∈ behind, t.kind = .lineBreak ∨ t.kind = .comment) ∧
    row = behind.foldl OpenStatement.record (Line.ofTokens line).settle

theorem OpenStatement.MadeFrom.record {row : OpenStatement} {line : List Token}
    (h : row.MadeFrom line) {t : Token} (ht : t.kind = .lineBreak ∨ t.kind = .comment) :
    (row.record t).MadeFrom line := by
  obtain ⟨hLine, behind, hBehind, rfl⟩ := h
  refine ⟨hLine, behind ++ [t], ?_, by simp⟩
  exact List.forall_mem_append.mpr ⟨hBehind, List.forall_mem_singleton.mpr ht⟩

namespace Builder
variable {b : Builder} {ended : List (List Token)} {front : List Token}

/-- The rows that have ended come from the lines `ended`, and `front` is the line that has not. -/
def MadeOf (ended : List (List Token)) (front : List Token) : Builder → Prop
  | .leading _ => ended = [] ∧ body front = []
  | .between around current => ∃ earlier line, ended = earlier ++ [line] ∧
      List.Forall₂ OpenStatement.MadeFrom around.rows earlier ∧ current.MadeFrom line ∧
      body front = []
  | .inside around line => List.Forall₂ OpenStatement.MadeFrom around.rows ended ∧
      body front ≠ [] ∧ line = .ofTokens (body front)

theorem MadeOf.rows (h : b.MadeOf ended front) (hSound : b.Sound)
    (hFront : ∀ t ∈ front, t.kind ≠ .lineBreak) :
    List.Forall₂ OpenStatement.MadeFrom b.rows (ended ++ bodies front) := by
  rw [bodies_of_line hFront]
  cases b with
  | leading preamble =>
    obtain ⟨rfl, hBody⟩ := h
    rw [if_pos hBody]
    exact .nil
  | between around current =>
    obtain ⟨earlier, line, rfl, hAround, hCurrent, hBody⟩ := h
    obtain ⟨-, hFresh, -, -⟩ := hSound
    rw [if_pos hBody, List.append_nil, Builder.rows, OpenStatement.rows_eq_singleton hFresh.2]
    exact List.rel_append hAround (.cons hCurrent .nil)
  | inside around line =>
    obtain ⟨hAround, hBody, rfl⟩ := h
    obtain ⟨-, hLine, -, -⟩ := hSound
    rw [if_neg hBody, Builder.rows, OpenStatement.rows_eq_singleton hLine.settle.2]
    exact List.rel_append hAround (.cons ⟨kind_ne_of_mem_body hFront, [], by simp, rfl⟩ .nil)

theorem madeOf_startLine {around : Surroundings}
    (h : List.Forall₂ OpenStatement.MadeFrom around.rows ended) (hFront : body front = [])
    {t : Token} (ht : t.kind ≠ .comment) : (startLine around t).MadeOf ended (front ++ [t]) := by
  have hBody : body (front ++ [t]) = [t] := by rw [body_concat hFront, if_neg ht]
  refine ⟨h, ?_, ?_⟩
  · simp [hBody]
  · rw [hBody]
    rfl

theorem MadeOf.push (h : b.MadeOf ended front) (hSound : b.Sound)
    (hFront : ∀ t ∈ front, t.kind ≠ .lineBreak) {t : Token} (ht : t.kind ≠ .lineBreak) :
    (b.push t).MadeOf ended (front ++ [t]) := by
  have hComment : startsStatement t = true → t.kind ≠ .comment := by
    rw [startsStatement_eq]
    simp
  have hIdle : ¬ startsStatement t = true → body front = [] → body (front ++ [t]) = [] := by
    intro hStarts hBody
    rw [body_concat hBody, if_pos ((kind_of_not_startsStatement hStarts).resolve_left ht)]
  have hRows := h.rows hSound hFront
  rw [bodies_of_line hFront] at hRows
  cases b with
  | leading preamble =>
    obtain ⟨rfl, hBody⟩ := h
    rw [push_leading]
    split
    · rename_i hStarts
      exact madeOf_startLine .nil hBody (hComment hStarts)
    · rename_i hStarts
      exact ⟨rfl, hIdle hStarts hBody⟩
  | between around current =>
    obtain ⟨earlier, line, rfl, hAround, hCurrent, hBody⟩ := h
    rw [push_between]
    split
    · rename_i hStarts
      rw [if_pos hBody, List.append_nil, Builder.rows,
        ← Surroundings.rows_close (indentOf t)] at hRows
      exact madeOf_startLine hRows hBody (hComment hStarts)
    · rename_i hStarts
      refine ⟨earlier, line, rfl, hAround, ?_, hIdle hStarts hBody⟩
      exact hCurrent.record (kind_of_not_startsStatement hStarts)
  | inside around line =>
    obtain ⟨hAround, hBody, rfl⟩ := h
    rw [push_inside_kind, if_neg ht]
    refine ⟨hAround, ?_, ?_⟩
    · simp [body_append hBody]
    · rw [body_append hBody, Line.ofTokens_concat hBody]

theorem MadeOf.push_lineBreak (h : b.MadeOf ended front)
    (hFront : ∀ t ∈ front, t.kind ≠ .lineBreak) {t : Token} (ht : t.kind = .lineBreak) :
    (b.push t).MadeOf (ended ++ bodies front) [] := by
  have hStarts : ¬ startsStatement t = true := by simp [startsStatement_eq, ht]
  rw [bodies_of_line hFront]
  cases b with
  | leading preamble =>
    obtain ⟨rfl, hBody⟩ := h
    rw [push_leading, if_neg hStarts, if_pos hBody]
    exact ⟨rfl, rfl⟩
  | between around current =>
    obtain ⟨earlier, line, rfl, hAround, hCurrent, hBody⟩ := h
    rw [push_between, if_neg hStarts, if_pos hBody, List.append_nil]
    exact ⟨earlier, line, rfl, hAround, hCurrent.record (.inl ht), rfl⟩
  | inside around line =>
    obtain ⟨hAround, hBody, rfl⟩ := h
    rw [push_inside_kind, if_pos ht, if_neg hBody]
    refine ⟨ended, _, rfl, hAround, ⟨kind_ne_of_mem_body hFront, [t], ?_, rfl⟩, rfl⟩
    simp [ht]

theorem MadeOf.pushAll (h : b.MadeOf ended front) (hSound : b.Sound)
    (hFront : ∀ t ∈ front, t.kind ≠ .lineBreak) (tokens : List Token) :
    List.Forall₂ OpenStatement.MadeFrom (b.pushAll tokens).rows
      (ended ++ bodies (front ++ tokens)) := by
  induction tokens generalizing b ended front with
  | nil =>
    rw [List.append_nil]
    exact h.rows hSound hFront
  | cons t tokens ih =>
    rw [pushAll_cons]
    by_cases ht : t.kind = .lineBreak
    · rw [bodies_append hFront ht, ← List.append_assoc]
      exact ih (h.push_lineBreak hFront ht) (hSound.push t) (by simp)
    · rw [List.append_cons]
      refine ih (h.push hSound hFront ht) (hSound.push t) ?_
      exact List.forall_mem_append.mpr ⟨hFront, List.forall_mem_singleton.mpr ht⟩

end Builder

/-- The statements, in the order of the source, come one by one from the lines that make
statements. -/
theorem forall₂_row_madeFrom (tokens : List Token) :
    List.Forall₂ (fun s line => s.row.MadeFrom line)
      ((build tokens).flatMap Statement.preorder) (bodies tokens) := by
  have hStart : Builder.empty.MadeOf [] [] := ⟨rfl, rfl⟩
  have hRows := hStart.pushAll trivial (by simp) tokens
  rw [← Builder.rows_finish] at hRows
  have hMap : (build tokens).flatMap Statement.rows =
      ((build tokens).flatMap Statement.preorder).map Statement.row := by
    rw [List.map_flatMap]
    rfl
  rw [← build, hMap, List.forall₂_map_left_iff] at hRows
  exact hRows

theorem exists_madeFrom {tokens : List Token} {s : Statement}
    (h : s ∈ (build tokens).flatMap Statement.preorder) :
    ∃ line ∈ bodies tokens, s.row.MadeFrom line := by
  have hAll := forall₂_row_madeFrom tokens
  obtain ⟨i, hi, rfl⟩ := List.mem_iff_getElem.mp h
  have hLine : i < (bodies tokens).length := hAll.length_eq ▸ hi
  exact ⟨_, List.getElem_mem hLine, hAll.get hi hLine⟩

end Outline
