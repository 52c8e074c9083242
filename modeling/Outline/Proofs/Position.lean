import Outline.Position

/-! # Where the characters of a text stand

The position behind a run of characters, which lexing computes step by step, is the row and column
that counting in the text gives.
-/
namespace Outline.Position
set_option autoImplicit false

/-- The row and column of an offset: one more than the line feeds before it, and one more than the
characters behind the last of these. -/
def ofOffset (text : List Char) (offset : Nat) : Position where
  row := 1 + (text.take offset).count '\n'
  column := 1 + ((text.take offset).reverse.takeWhile (· ≠ '\n')).length

theorem advance_of_not_mem {s : List Char} (h : '\n' ∉ s) (p : Position) :
    p.advance s = ⟨p.row, p.column + s.length⟩ := by
  induction s generalizing p with
  | nil => rfl
  | cons c s ih =>
    obtain ⟨hFirst, hRest⟩ := not_or.mp (mt List.mem_cons.mpr h)
    rw [advance_cons, ih hRest, after, if_neg (Ne.symm hFirst), List.length_cons]
    simp only [mk.injEq, true_and]
    omega

theorem origin_advance_reverse (s : List Char) :
    origin.advance s.reverse = ⟨1 + s.count '\n', 1 + (s.takeWhile (· ≠ '\n')).length⟩ := by
  induction s with
  | nil => rfl
  | cons c s ih =>
    rw [List.reverse_cons, advance_append, ih]
    by_cases hBreak : c = '\n'
    · simp [after, hBreak, Nat.add_assoc]
    · simp [after, hBreak, Nat.add_assoc]

theorem origin_advance_take (text : List Char) (offset : Nat) :
    origin.advance (text.take offset) = ofOffset text offset := by
  have h := origin_advance_reverse (text.take offset).reverse
  rwa [List.reverse_reverse, List.count_reverse] at h

theorem le_refl (p : Position) : p ≤ p := .inr ⟨rfl, Nat.le_refl _⟩

theorem le_trans {p q r : Position} (h : p ≤ q) (h' : q ≤ r) : p ≤ r := by
  rw [le_def] at h h' ⊢
  omega

theorem le_after (p : Position) (c : Char) : p ≤ p.after c := by
  rw [le_def, after]
  split <;> simp

theorem le_advance (p : Position) (s : List Char) : p ≤ p.advance s := by
  induction s generalizing p with
  | nil => exact le_refl p
  | cons c s ih => exact le_trans (le_after p c) (ih (p.after c))

theorem order_after (p : Position) (c : Char) : p.order (p.after c) = .lt := by
  unfold order after
  split <;> simp [Ordering.then, Nat.compare_eq_lt.mpr]

theorem order_eq_lt_iff {p q : Position} :
    p.order q = .lt ↔ p.row < q.row ∨ p.row = q.row ∧ p.column < q.column := by
  rw [order, Ordering.then_eq_lt, Nat.compare_eq_lt, Nat.compare_eq_lt, Nat.compare_eq_eq]

theorem order_advance {s : List Char} (h : s ≠ []) (p : Position) :
    p.order (p.advance s) = .lt := by
  cases s with
  | nil => exact absurd rfl h
  | cons c s =>
    have hRest := le_def.mp (le_advance (p.after c) s)
    have hFirst := order_eq_lt_iff.mp (order_after p c)
    rw [order_eq_lt_iff, advance_cons]
    omega

end Outline.Position
