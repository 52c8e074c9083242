import Outline.Cursor

/-! # A cursor knows where it is

A cursor counts rows and keeps where its row starts, and never looks back at the characters that it
has passed. Its position is nevertheless the one that these characters make, and what waits in its
queue is what it would find by looking at the source again.
-/
namespace Outline
set_option autoImplicit false

theorem lastBreak?_lt {text : List Char} {index : Nat} (h : lastBreak? text = some index) :
    index < text.length := by
  induction text generalizing index with
  | nil => cases h
  | cons c text ih =>
    rw [lastBreak?] at h
    split at h
    · rename_i i hRest
      cases h
      exact Nat.succ_lt_succ (ih hRest)
    · split at h
      · cases h
        exact Nat.succ_pos _
      · cases h

theorem Position.advance_eq (p : Position) (text : List Char) :
    p.advance text =
      ⟨p.row + text.count '\n',
        match lastBreak? text with
        | some index => text.length - index
        | none => p.column + text.length⟩ := by
  induction text generalizing p with
  | nil => rfl
  | cons c text ih =>
    rw [advance_cons, ih, lastBreak?, after]
    by_cases hBreak : c = '\n'
    · subst hBreak
      cases lastBreak? text with
      | none => simp; omega
      | some index => simp; omega
    · cases lastBreak? text with
      | none => simp [hBreak]; omega
      | some index => simp [hBreak]

namespace Cursor

/-- The cursor is in its source, its row starts before it, and what waits is what comes next. -/
structure Tracks (c : Cursor) : Prop where
  offset_le : c.offset ≤ c.source.length
  rowStart_le : c.rowStart ≤ c.offset
  queued : ∀ found ∈ c.queued, Category.first? c.rest = some found

variable {c d : Cursor} {n : Nat}

theorem tracks_ofSource (source : String) : (ofSource source).Tracks where
  offset_le := Nat.zero_le _
  rowStart_le := Nat.le_refl _
  queued := by simp [ofSource]

theorem columnAt_offset (h : c.offset ≤ c.source.length) :
    c.columnAt c.offset = c.offset - c.rowStart + 1 := by
  rw [columnAt, List.length_take, List.length_drop]
  omega

theorem Tracks.offset_skip_le (h : c.Tracks) (hn : n ≤ c.rest.length) :
    (c.skip n).offset ≤ (c.skip n).source.length := by
  have hOffset := h.offset_le
  rw [rest, List.length_drop] at hn
  simp only [Cursor.skip]
  omega

theorem Tracks.skip (h : c.Tracks) (hn : n ≤ c.rest.length) {queued : Option (Category × Nat)}
    (hQueued : ∀ found ∈ queued, Category.first? (c.rest.drop n) = some found) :
    ({ c.skip n with queued } : Cursor).Tracks where
  offset_le := h.offset_skip_le hn
  rowStart_le := by
    have hRow := h.rowStart_le
    simp only [Cursor.skip]
    split
    · rename_i index hBreak
      have hIndex := lastBreak?_lt hBreak
      rw [List.length_take] at hIndex
      omega
    · omega
  queued := by
    intro found hFound
    exact (congrArg Category.first? (c.rest_skip n)).trans (hQueued found hFound)

/-- Rows and columns counted on the way are those of the characters passed over. -/
theorem Tracks.position_skip (h : c.Tracks) (hn : n ≤ c.rest.length) :
    (c.skip n).position = c.position.advance (c.rest.take n) := by
  have hRow := h.rowStart_le
  rw [Position.advance_eq, position, columnAt_offset (h.offset_skip_le hn), position,
    columnAt_offset h.offset_le, List.length_take, Nat.min_eq_left hn]
  simp only [Cursor.skip]
  -- Without a line feed the row goes on; otherwise the last one starts it anew.
  cases hBreak : lastBreak? (c.rest.take n) with
  | none =>
    rw [Position.mk.injEq]
    exact ⟨rfl, by simp only; omega⟩
  | some index =>
    have hIndex := lastBreak?_lt hBreak
    rw [List.length_take] at hIndex
    rw [Position.mk.injEq]
    exact ⟨rfl, by simp only; omega⟩

end Cursor
end Outline
