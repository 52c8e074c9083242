import Outline.Cursor
import Outline.Proofs.Builder.Rows

/-! # Statements built behind others

The builder adds to the preamble and to the finished statements and looks at neither. So where a
line closes all that is open, the tokens from there on give the statements that they give on their
own, whatever stands before them.
-/
namespace Outline
set_option autoImplicit false

namespace Surroundings

def behind (preamble : List Token) (earlier : List Statement) (around : Surroundings) :
    Surroundings :=
  { around with preamble, finished := earlier ++ around.finished }

theorem close_behind (preamble : List Token) (earlier : List Statement) (indent : Nat)
    (s : OpenStatement) (around : Surroundings) :
    (around.behind preamble earlier).close indent s =
      (around.close indent s).behind preamble earlier := by
  suffices h : ∀ s outer, close.go indent (around.behind preamble earlier) s outer =
      (close.go indent around s outer).behind preamble earlier from h s around.outer
  intro s outer
  induction outer generalizing s with
  | nil =>
    unfold close.go
    split <;> simp [behind]
  | cons parent outer ih =>
    unfold close.go
    split
    · rfl
    · exact ih _

theorem exists_last_close {around : Surroundings} {s : OpenStatement}
    (h : Shallower (s :: around.outer)) :
    ∃ last, (around.close 0 s).finished = around.finished ++ [last] ∧
      ∀ p ∈ s :: around.outer, last.indent ≤ p.indent := by
  suffices hGo : ∀ s outer, Shallower (s :: outer) → ∃ last,
      (close.go 0 around s outer).finished = around.finished ++ [last] ∧
        ∀ p ∈ s :: outer, last.indent ≤ p.indent from hGo s around.outer h
  intro s outer hShallower
  induction outer generalizing s with
  | nil => exact ⟨s.toStatement, rfl, by simp [OpenStatement.toStatement]⟩
  | cons parent outer ih =>
    obtain ⟨hInner, hRest⟩ := List.pairwise_cons.mp hShallower
    obtain ⟨last, hFinished, hLast⟩ := ih (parent.adopt s.toStatement)
      (List.pairwise_cons.mpr (List.pairwise_cons.mp hRest))
    obtain ⟨hParent, hOuter⟩ := List.forall_mem_cons.mp hLast
    refine ⟨last, hFinished, ?_⟩
    have hDeeper := hInner parent List.mem_cons_self
    exact List.forall_mem_cons.mpr ⟨Nat.le_trans hParent (Nat.le_of_lt hDeeper),
      List.forall_mem_cons.mpr ⟨hParent, hOuter⟩⟩

/-- A line that is no deeper than any open statement closes them as the end of the input does. -/
theorem close_eq_of_le {around : Surroundings} {s : OpenStatement} {indent : Nat}
    (h : ∀ p ∈ s :: around.outer, indent ≤ p.indent) :
    around.close indent s =
      { around with finished := (around.close 0 s).finished, outer := [] } := by
  suffices hGo : ∀ s outer, (∀ p ∈ s :: outer, indent ≤ p.indent) →
      close.go indent around s outer =
        { around with finished := (close.go 0 around s outer).finished, outer := [] } from
    hGo s around.outer h
  intro s outer hDeep
  induction outer generalizing s with
  | nil =>
    have hClosed : ¬ s.indent < indent := Nat.not_lt.mpr (hDeep s List.mem_cons_self)
    rw [close.go, if_neg hClosed]
    rfl
  | cons parent outer ih =>
    obtain ⟨hs, hOuter⟩ := List.forall_mem_cons.mp hDeep
    rw [close.go, if_neg (Nat.not_lt.mpr hs)]
    exact ih (parent.adopt s.toStatement)
      (List.forall_mem_cons.mpr (List.forall_mem_cons.mp hOuter))

end Surroundings

namespace Builder
variable {preamble : List Token} {earlier : List Statement} {b b' : Builder}

/-- The builders have the same open; the second has a preamble and finished statements before it. -/
inductive Behind (preamble : List Token) (earlier : List Statement) : Builder → Builder → Prop where
  | between (around : Surroundings) (current : OpenStatement) :
      Behind preamble earlier (.between around current)
        (.between (around.behind preamble earlier) current)
  | inside (around : Surroundings) (line : Line) :
      Behind preamble earlier (.inside around line) (.inside (around.behind preamble earlier) line)

theorem Behind.push (h : Behind preamble earlier b b') (t : Token) :
    Behind preamble earlier (b.push t) (b'.push t) := by
  cases h with
  | between around current =>
    rw [push_between, push_between, Surroundings.close_behind]
    split
    · exact .inside _ _
    · exact .between _ _
  | inside around line =>
    rw [push_inside, push_inside]
    split
    · exact .between _ _
    · exact .inside _ _

theorem Behind.pushAll (h : Behind preamble earlier b b') (tokens : List Token) :
    Behind preamble earlier (b.pushAll tokens) (b'.pushAll tokens) := by
  induction tokens generalizing b b' with
  | nil => exact h
  | cons t tokens ih => exact ih (h.push t)

theorem Behind.finish_eq (h : Behind preamble earlier b b') :
    b'.finish = earlier ++ b.finish ∧ b'.preamble = preamble := by
  cases h with
  | between around current =>
    rw [Builder.finish, Surroundings.close_behind]
    exact ⟨rfl, rfl⟩
  | inside around line =>
    rw [Builder.finish, Surroundings.close_behind]
    exact ⟨rfl, rfl⟩

theorem Sound.behind_push (h : b.Sound) (hFresh : b.isFresh = true) {t : Token}
    (hStarts : startsStatement t = true)
    (hIndent : ∀ s ∈ b.finish.getLast?, indentOf t ≤ s.indent) :
    Behind b.preamble b.finish (empty.push t) (b.push t) := by
  have hStart : Behind b.preamble b.finish (startLine { preamble := [] } t)
      (startLine { preamble := b.preamble, finished := b.finish } t) := by
    have hAround : ({ preamble := [] } : Surroundings).behind b.preamble b.finish =
        { preamble := b.preamble, finished := b.finish } := by simp [Surroundings.behind]
    rw [← hAround]
    exact .inside _ _
  rw [empty, push_leading, if_pos hStarts]
  cases b with
  | leading preamble =>
    rw [push_leading, if_pos hStarts]
    exact hStart
  | between around current =>
    obtain ⟨-, -, -, hShallower⟩ := h
    -- The last top-level statement is the outermost open one, and no open statement is shallower.
    obtain ⟨last, hFinished, hLast⟩ := around.exists_last_close hShallower
    have hLe : indentOf t ≤ last.indent := hIndent last (by rw [Builder.finish, hFinished]; simp)
    have hClose := around.close_eq_of_le fun p hp => Nat.le_trans hLe (hLast p hp)
    rw [push_between, if_pos hStarts, hClose]
    exact hStart
  | inside around line => cases hFresh

end Builder

theorem isFresh_of_getLast? {tokens : List Token}
    (h : tokens = [] ∨ ∃ last, tokens.getLast? = some last ∧ last.kind = .lineBreak) :
    (Builder.empty.pushAll tokens).isFresh = true := by
  rcases h with rfl | ⟨last, hLast, hKind⟩
  · rfl
  · obtain ⟨front, rfl⟩ := List.getLast?_eq_some_iff.mp hLast
    rw [Builder.pushAll_append, Builder.pushAll_cons, Builder.pushAll_nil, Builder.isFresh_push,
      Builder.isLineBreak_eq]
    simp [hKind]

/-- Where a line starts that is no deeper than the last top-level statement, nothing passes over:
the statements before it and from it on are those of the two parts, and the preamble is that of the
first part. -/
theorem build_append_of_le {tokens rest : List Token} {t : Token}
    (hEnd : tokens = [] ∨ ∃ last, tokens.getLast? = some last ∧ last.kind = .lineBreak)
    (hBreak : t.kind ≠ .lineBreak) (hComment : t.kind ≠ .comment)
    (hIndent : ∀ s ∈ (build tokens).getLast?, Builder.indentOf t ≤ s.indent) :
    build (tokens ++ t :: rest) = build tokens ++ build (t :: rest) ∧
      (Builder.empty.pushAll (tokens ++ t :: rest)).preamble =
        (Builder.empty.pushAll tokens).preamble := by
  have hSound : Builder.empty.Sound := trivial
  have hStarts : Builder.startsStatement t = true := by
    simp [Builder.startsStatement_eq, hBreak, hComment]
  have hBehind := (hSound.pushAll tokens).behind_push (isFresh_of_getLast? hEnd) hStarts hIndent
  rw [build, Builder.pushAll_append, Builder.pushAll_cons]
  exact (hBehind.pushAll rest).finish_eq

/-- Two unterminated calls before a line that is between the margin and the statements there. -/
theorem build_append_of_le_open_calls :
    ∃ t rest, tokenize "  w(1)\n    v" = t :: rest ∧ t.content = .space 2 ∧
      (build (tokenize "    x f(y\n      z(\n")).map (·.indent) = [4] ∧
      build (tokenize "    x f(y\n      z(\n" ++ t :: rest) =
        build (tokenize "    x f(y\n      z(\n") ++ build (t :: rest) ∧
      (Builder.empty.pushAll (tokenize "    x f(y\n      z(\n" ++ t :: rest)).preamble =
        (Builder.empty.pushAll (tokenize "    x f(y\n      z(\n")).preamble := by
  have hMore : tokenize "  w(1)\n    v" =
      ⟨.space 2, ⟨⟨1, 1⟩, ⟨1, 3⟩⟩, "  "⟩ :: (tokenize "  w(1)\n    v").tail := by
    decide +kernel
  refine ⟨_, _, hMore, rfl, by decide +kernel, build_append_of_le (.inr ?_) ?_ ?_ ?_⟩
  · exact ⟨⟨.lineBreak 1, ⟨⟨2, 9⟩, ⟨3, 1⟩⟩, "\n"⟩, by decide +kernel, rfl⟩
  · decide
  · decide
  · decide +kernel

end Outline
