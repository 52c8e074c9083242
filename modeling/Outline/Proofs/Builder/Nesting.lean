import Outline.Proofs.Builder.Rows

/-! # Where a row is nested

The builder nests a row with a stack: it closes the open statements that are not shallower and opens
the row under the one that is left. The result needs no stack to describe: the parent of a row is
the nearest row before it that is shallower, and a row without one is at the top.
-/
namespace Outline
set_option autoImplicit false

/-- The same statements, those without a parent under the given one. -/
def under (parent : Option Statement) (listed : List (Statement × Option Statement)) :
    List (Statement × Option Statement) :=
  listed.map fun (s, p) => (s, p.or parent)

/-- The statements in the order of the source, each with its parent. -/
def Statement.withParents (s : Statement) : List (Statement × Option Statement) :=
  s.fold
    { token := fun _ => []
      call := fun _ _ => []
      statement := fun s _ children => (s, none) :: under (some s) children.flatten }

theorem Statement.withParents_eq (s : Statement) :
    s.withParents = (s, none) :: under (some s) (s.children.flatMap withParents) := by
  rw [withParents, fold_def, List.flatMap_def]
  rfl

@[simp] theorem map_fst_under (parent : Option Statement)
    (listed : List (Statement × Option Statement)) :
    (under parent listed).map Prod.fst = listed.map Prod.fst := by
  rw [under, List.map_map]
  rfl

theorem under_append (parent : Option Statement) (l m : List (Statement × Option Statement)) :
    under parent (l ++ m) = under parent l ++ under parent m := List.map_append

theorem under_under (s : Statement) (parent : Option Statement)
    (listed : List (Statement × Option Statement)) :
    under parent (under (some s) listed) = under (some s) listed := by
  rw [under, under, List.map_map]
  apply List.map_congr_left
  rintro ⟨t, p⟩ _
  cases p <;> rfl

/-- Each statement has for its parent the nearest one before it that is shallower; `before` holds
what stands before them all, the nearest first. -/
def Linked (before : List Statement) : List (Statement × Option Statement) → Prop
  | [] => True
  | (s, parent) :: rest =>
    parent = before.find? (·.indent < s.indent) ∧ Linked (s :: before) rest

theorem linked_append {before : List Statement} {l m : List (Statement × Option Statement)} :
    Linked before (l ++ m) ↔
      Linked before l ∧ Linked ((l.map Prod.fst).reverse ++ before) m := by
  induction l generalizing before with
  | nil => simp [Linked]
  | cons head l ih =>
    obtain ⟨s, parent⟩ := head
    simp [Linked, ih, and_assoc]

/-- A later statement at the same level is not deeper: it would be nested under the earlier one. -/
def Falling (forest : List Statement) : Prop :=
  forest.Pairwise fun earlier later => later.indent ≤ earlier.indent

inductive Statement.Ordered : Statement → Prop where
  | intro {s : Statement} : Falling s.children → (∀ child ∈ s.children, Ordered child) → Ordered s

theorem Statement.Sound.indent_le {s : Statement} (h : s.Sound) :
    ∀ t ∈ s.preorder, s.indent ≤ t.indent := by
  induction h with
  | @intro s _ _ _ _ _ _ hDeeper _ ih =>
    intro t ht
    rw [Statement.preorder_eq] at ht
    rcases List.mem_cons.mp ht with rfl | ht
    · exact Nat.le_refl _
    · obtain ⟨child, hChild, ht⟩ := List.mem_flatMap.mp ht
      exact Nat.le_trans (Nat.le_of_lt (hDeeper child hChild)) (ih child hChild t ht)

theorem Statement.Sound.map_fst_withParents {s : Statement} (h : s.Sound) :
    s.withParents.map Prod.fst = s.preorder := by
  induction h with
  | @intro s _ _ _ _ _ _ _ _ ih =>
    rw [Statement.withParents_eq, Statement.preorder_eq, List.map_cons, map_fst_under,
      List.map_flatMap, List.flatMap_def, List.flatMap_def, List.map_congr_left ih]

/-- Statements side by side have the same parent, for none of them lies between it and the next. -/
theorem Falling.linked {forest before : List Statement} {parent : Option Statement}
    (h : Falling forest) (hSound : ∀ s ∈ forest, s.Sound)
    (hLinked : ∀ s ∈ forest, ∀ before : List Statement,
      Linked before (under (before.find? (·.indent < s.indent)) s.withParents))
    (hParent : ∀ s ∈ forest, before.find? (·.indent < s.indent) = parent) :
    Linked before (under parent (forest.flatMap Statement.withParents)) := by
  induction forest generalizing before with
  | nil => trivial
  | cons s forest ih =>
    obtain ⟨hLater, hFalling⟩ := List.pairwise_cons.mp h
    have hs := hSound s List.mem_cons_self
    rw [List.flatMap_cons, under_append, linked_append]
    refine ⟨?_, ih hFalling ?_ ?_ ?_⟩
    · rw [← hParent s List.mem_cons_self]
      exact hLinked s List.mem_cons_self before
    · exact fun t ht => hSound t (List.mem_cons_of_mem s ht)
    · exact fun t ht => hLinked t (List.mem_cons_of_mem s ht)
    · intro t ht
      rw [map_fst_under, hs.map_fst_withParents, List.find?_append]
      have hNone : s.preorder.reverse.find? (·.indent < t.indent) = none := by
        rw [List.find?_eq_none]
        intro u hu
        have hDeep := hs.indent_le u (List.mem_reverse.mp hu)
        have hLe := hLater t ht
        simp only [decide_eq_true_eq]
        omega
      rw [hNone, Option.none_or, hParent t (List.mem_cons_of_mem s ht)]

theorem Statement.Ordered.linked {s : Statement} (h : s.Ordered) (hSound : s.Sound)
    (before : List Statement) :
    Linked before (under (before.find? (·.indent < s.indent)) s.withParents) := by
  induction h generalizing before with
  | @intro s hFalling _ ih =>
    obtain ⟨_, _, _, _, _, hDeeper, hChildren⟩ := hSound
    rw [Statement.withParents_eq]
    refine ⟨rfl, ?_⟩
    change Linked (s :: before) (under _ (under (some s) _))
    rw [under_under]
    refine hFalling.linked hChildren (fun child hc => ih child hc (hChildren child hc)) ?_
    intro child hc
    rw [List.find?_cons_of_pos]
    simpa using hDeeper child hc

def siblings (finished : List Statement) : List OpenStatement → List Statement
  | [] => finished
  | parent :: _ => parent.children

/-- The indentation falls among the statements that are closed, at each level of the open ones, and
no open statement is deeper than those before it at its level. -/
def Stacked (finished : List Statement) : List OpenStatement → Prop
  | [] => Falling finished ∧ ∀ s ∈ finished, s.Ordered
  | s :: outer => (Falling s.children ∧ ∀ child ∈ s.children, child.Ordered) ∧
      (∀ sibling ∈ siblings finished outer, s.indent ≤ sibling.indent) ∧ Stacked finished outer

theorem Stacked.congr {finished : List Statement} {s' : OpenStatement} {outer : List OpenStatement}
    (s : OpenStatement) (h : Stacked finished (s :: outer)) (hIndent : s'.indent = s.indent)
    (hChildren : s'.children = s.children) : Stacked finished (s' :: outer) := by
  rw [Stacked] at h ⊢
  rwa [hIndent, hChildren]

theorem Falling.concat {forest : List Statement} {s : Statement} (h : Falling forest)
    (hLe : ∀ earlier ∈ forest, s.indent ≤ earlier.indent) : Falling (forest ++ [s]) := by
  refine List.pairwise_append.mpr ⟨h, List.pairwise_singleton _ _, ?_⟩
  intro earlier hEarlier later hLater
  cases List.mem_singleton.mp hLater
  exact hLe earlier hEarlier

theorem forall_mem_concat {forest : List Statement} {s : Statement} {P : Statement → Prop}
    (h : ∀ t ∈ forest, P t) (hs : P s) : ∀ t ∈ forest ++ [s], P t :=
  List.forall_mem_append.mpr ⟨h, List.forall_mem_singleton.mpr hs⟩

namespace Surroundings
variable {around : Surroundings}

/-- What is closed for a row is not shallower than the row, so the row fits behind it. -/
theorem stacked_go {indent : Nat} {s : OpenStatement} {outer : List OpenStatement}
    (h : Stacked around.finished (s :: outer))
    (hChildren : ∀ child ∈ s.children, indent ≤ child.indent) :
    Stacked (close.go indent around s outer).finished (close.go indent around s outer).outer ∧
      ∀ sibling ∈ siblings (close.go indent around s outer).finished
        (close.go indent around s outer).outer, indent ≤ sibling.indent := by
  induction outer generalizing s with
  | nil =>
    obtain ⟨hInner, hSiblings, hFinished, hOrdered⟩ := h
    unfold close.go
    split
    · exact ⟨⟨hInner, hSiblings, hFinished, hOrdered⟩, hChildren⟩
    · rename_i hIndent
      have hClosed : s.toStatement.Ordered := .intro hInner.1 hInner.2
      refine ⟨⟨hFinished.concat hSiblings, forall_mem_concat hOrdered hClosed⟩,
        forall_mem_concat ?_ (Nat.le_of_not_lt hIndent)⟩
      intro sibling hSibling
      exact Nat.le_trans (Nat.le_of_not_lt hIndent) (hSiblings sibling hSibling)
  | cons parent outer ih =>
    obtain ⟨hInner, hSiblings, ⟨hFalling, hOrdered⟩, hRest⟩ := h
    unfold close.go
    split
    · exact ⟨⟨hInner, hSiblings, ⟨hFalling, hOrdered⟩, hRest⟩, hChildren⟩
    · rename_i hIndent
      have hClosed : s.toStatement.Ordered := .intro hInner.1 hInner.2
      apply ih
      · exact ⟨⟨hFalling.concat hSiblings, forall_mem_concat hOrdered hClosed⟩, hRest⟩
      · refine forall_mem_concat ?_ (Nat.le_of_not_lt hIndent)
        intro sibling hSibling
        exact Nat.le_trans (Nat.le_of_not_lt hIndent) (hSiblings sibling hSibling)

theorem stacked_close {s : OpenStatement} (h : Stacked around.finished (s :: around.outer))
    (hChildren : s.children = []) (indent : Nat) :
    Stacked (around.close indent s).finished (around.close indent s).outer ∧
      ∀ sibling ∈ siblings (around.close indent s).finished (around.close indent s).outer,
        indent ≤ sibling.indent :=
  stacked_go h (by simp [hChildren])

theorem ordered_finished_close_zero {s : OpenStatement}
    (h : Stacked around.finished (s :: around.outer)) (hChildren : s.children = []) :
    Falling (around.close 0 s).finished ∧ ∀ t ∈ (around.close 0 s).finished, t.Ordered := by
  have hStacked := (stacked_close h hChildren 0).1
  rwa [outer_close_zero] at hStacked

end Surroundings

namespace Builder
variable {b : Builder}

def Nested : Builder → Prop
  | .leading _ => True
  | .between around current => Stacked around.finished (current :: around.outer)
  | .inside around line => Stacked around.finished (line.statement :: around.outer)

theorem startLine_nested {around : Surroundings} {t : Token} (ht : t.kind ≠ .lineBreak)
    (h : Stacked around.finished around.outer)
    (hSiblings : ∀ sibling ∈ siblings around.finished around.outer, indentOf t ≤ sibling.indent) :
    (startLine around t).Nested := by
  have hEmpty : Falling [] := .nil
  have hStart : Stacked around.finished ({ indent := indentOf t } :: around.outer) :=
    ⟨⟨hEmpty, by simp⟩, hSiblings, h⟩
  exact hStart.congr _ (Line.indent_push _ t) ((Line.sound_start _).push ht).statement.2

theorem Nested.push (h : b.Nested) (hSound : b.Sound) (t : Token) : (b.push t).Nested := by
  cases b with
  | leading preamble =>
    rw [push_leading]
    split
    · rename_i hStarts
      exact startLine_nested (kind_ne_of_startsStatement hStarts) ⟨.nil, by simp⟩
        (by simp [siblings])
    · trivial
  | between around current =>
    obtain ⟨-, hFresh, -, -⟩ := hSound
    rw [push_between]
    split
    · rename_i hStarts
      obtain ⟨hStacked, hSiblings⟩ := Surroundings.stacked_close h hFresh.2 (indentOf t)
      exact startLine_nested (kind_ne_of_startsStatement hStarts) hStacked hSiblings
    · exact Stacked.congr current h rfl rfl
  | inside around line =>
    obtain ⟨-, hLine, -, -⟩ := hSound
    have hNone := hLine.statement.2
    rw [push_inside_kind]
    split
    · refine Stacked.congr line.statement h line.indent_settle ?_
      rw [hNone]
      exact hLine.settle.2
    · rename_i hBreak
      refine Stacked.congr line.statement h (line.indent_push t) ?_
      rw [hNone]
      exact (hLine.push hBreak).statement.2

theorem Nested.pushAll (h : b.Nested) (hSound : b.Sound) (tokens : List Token) :
    (b.pushAll tokens).Nested := by
  induction tokens generalizing b with
  | nil => exact h
  | cons t tokens ih => exact ih (h.push hSound t) (hSound.push t)

theorem Nested.finish (h : b.Nested) (hSound : b.Sound) :
    Falling b.finish ∧ ∀ s ∈ b.finish, s.Ordered := by
  cases b with
  | leading preamble => exact ⟨.nil, by simp [Builder.finish]⟩
  | between around current =>
    obtain ⟨-, hFresh, -, -⟩ := hSound
    exact Surroundings.ordered_finished_close_zero h hFresh.2
  | inside around line =>
    obtain ⟨-, hLine, -, -⟩ := hSound
    have hNone := hLine.settle.2
    refine Surroundings.ordered_finished_close_zero ?_ hNone
    refine Stacked.congr line.statement h line.indent_settle ?_
    rw [hNone, hLine.statement.2]

end Builder

theorem linked_build (tokens : List Token) :
    Linked [] ((build tokens).flatMap Statement.withParents) := by
  have hStart : Builder.empty.Nested := trivial
  have hSoundStart : Builder.empty.Sound := trivial
  have hSound := hSoundStart.pushAll tokens
  obtain ⟨hFalling, hOrdered⟩ := (hStart.pushAll hSoundStart tokens).finish hSound
  have hStatements := hSound.finish
  have hLinked : Linked [] (under none ((build tokens).flatMap Statement.withParents)) :=
    hFalling.linked hStatements (fun s hs => (hOrdered s hs).linked (hStatements s hs))
      (by simp)
  rwa [under, List.map_congr_left (g := id) (by simp), List.map_id] at hLinked

end Outline
