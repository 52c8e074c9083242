import Outline.Proofs.Decimal
import Outline.Proofs.Text.Lines
import Outline.Token

/-! # Displays of tokens

What a display shows can be read off it: numerals, positions, spans and kinds are delimited by
characters that they do not hold. A line feed comes into the display of a token with its text only.
-/
namespace Outline
set_option autoImplicit false

namespace Position

theorem toList_display (p : Position) :
    p.display.toList = Nat.toDigits 10 p.row ++ ':' :: Nat.toDigits 10 p.column := by
  simp [display]

theorem display_inj {p q : Position} (h : p.display = q.display) : p = q := by
  have hChars := congrArg String.toList h
  rw [toList_display, toList_display] at hChars
  obtain ⟨hRow, hColumn⟩ := append_cons_inj_of_first (Decimal.not_mem_toDigits rfl _)
    (Decimal.not_mem_toDigits rfl _) hChars
  obtain ⟨row, column⟩ := p
  rw [mk.injEq]
  exact ⟨Decimal.toDigits_inj hRow, Decimal.toDigits_inj hColumn⟩

theorem not_mem_display {c : Char} (hDigit : c.isDigit = false) (hColon : c ≠ ':') (p : Position) :
    c ∉ p.display.toList := by
  simp [toList_display, Decimal.not_mem_toDigits hDigit, hColon]

end Position

namespace Span

theorem toList_display (s : Span) : s.display.toList =
    ('(' :: s.start.display.toList) ++ ')' :: ('-' :: '(' :: s.stop.display.toList ++ [')']) := by
  simp [display]

theorem display_inj {s t : Span} (h : s.display = t.display) : s = t := by
  have hChars := congrArg String.toList h
  rw [toList_display, toList_display] at hChars
  have hFront : ∀ p : Position, ')' ∉ '(' :: p.display.toList := by
    intro p
    simp [Position.not_mem_display]
  obtain ⟨hStart, hStop⟩ := append_cons_inj_of_first (hFront _) (hFront _) hChars
  obtain ⟨start, stop⟩ := s
  rw [mk.injEq]
  refine ⟨Position.display_inj ?_, Position.display_inj ?_⟩
  · simpa [String.toList_inj] using hStart
  · simpa [String.toList_inj] using hStop

theorem not_mem_display {c : Char} (hDigit : c.isDigit = false) (hMark : c ∉ [':', '(', ')', '-'])
    (s : Span) : c ∉ s.display.toList := by
  simp only [List.mem_cons, List.not_mem_nil, or_false, not_or] at hMark
  simp [toList_display, Position.not_mem_display hDigit hMark.1, hMark]

end Span

theorem Kind.bracket_not_mem_name (k : Kind) : '[' ∉ k.name.toList := by
  cases k <;> decide

theorem Kind.name_inj {k l : Kind} (h : k.name = l.name) : k = l := by
  have hAll : ∀ k ∈ all, ∀ l ∈ all, k.name = l.name → k = l := by decide
  exact hAll k (mem_all k) l (mem_all l) h

/-- A display names its kind before the first bracket. -/
theorem Kind.eq_of_display_eq {k l : Kind} {rest rest' : String}
    (h : k.name ++ "[" ++ rest = l.name ++ "[" ++ rest') : k = l ∧ rest = rest' := by
  have hChars : k.name.toList ++ '[' :: rest.toList = l.name.toList ++ '[' :: rest'.toList := by
    simpa using congrArg String.toList h
  obtain ⟨hName, hRest⟩ := append_cons_inj_of_first (bracket_not_mem_name k)
    (bracket_not_mem_name l) hChars
  exact ⟨name_inj (String.toList_inj.mp hName), String.toList_inj.mp hRest⟩

theorem lineFeed_not_mem_toDigits (n : Nat) : '\n' ∉ Nat.toDigits 10 n :=
  Decimal.not_mem_toDigits rfl n

theorem lineFeed_not_mem_toString (v : Int) : '\n' ∉ (toString v).toList := by
  rw [Decimal.toList_toString]
  split <;> simp [lineFeed_not_mem_toDigits]

namespace Magnitude

theorem lineFeed_not_mem_positional (coefficient level : Nat) :
    '\n' ∉ positional coefficient level := by
  have hDigits := lineFeed_not_mem_toDigits coefficient
  have hTake : ∀ n, '\n' ∉ (Nat.toDigits 10 coefficient).take n := by
    intro n h
    exact hDigits (List.mem_of_mem_take h)
  have hDrop : ∀ n, '\n' ∉ (Nat.toDigits 10 coefficient).drop n := by
    intro n h
    exact hDigits (List.mem_of_mem_drop h)
  rw [positional]
  split
  · simp [hDigits]
  split
  · simp [hDigits]
  · simp [hTake, hDrop]

end Magnitude

theorem Double.lineFeed_not_mem_display (d : Double) : '\n' ∉ d.display.toList := by
  cases d with
  | nan => decide
  | infinite negative => cases negative <;> decide
  | finite negative m =>
    have hDigits : '\n' ∉ m.digits := by
      rw [Magnitude.digits]
      split
      · decide
      · exact Magnitude.lineFeed_not_mem_positional _ _
    cases negative <;> simp [display, hDigits]

namespace Token

theorem exists_display_eq (t : Token) : ∃ rest, t.display = t.kind.name ++ "[" ++ rest := by
  rw [display, String.append_assoc, String.append_assoc, String.append_assoc]
  exact ⟨_, rfl⟩

theorem count_display (t : Token) :
    t.display.toList.count '\n' = t.summary.toList.count '\n' := by
  have hName : t.kind.name.toList.count '\n' = 0 := by cases t.kind <;> decide
  have hSpan : t.span.display.toList.count '\n' = 0 :=
    List.count_eq_zero.mpr (Span.not_mem_display rfl (by decide) _)
  have hReason : ∀ reason : ErrorReason, reason.message.toList.count '\n' = 0 := by
    intro reason
    cases reason <;> decide
  rw [display]
  split <;> simp [List.count_append, hName, hSpan, hReason]

theorem count_summary (t : Token) :
    t.summary = t.text ∨ t.summary.toList.count '\n' = 0 := by
  unfold summary
  split
  · right
    simp [List.count_eq_zero, lineFeed_not_mem_toDigits]
  · right
    simp [List.count_eq_zero, lineFeed_not_mem_toDigits]
  · exact .inr (List.count_eq_zero.mpr (lineFeed_not_mem_toString _))
  · exact .inr (List.count_eq_zero.mpr (Double.lineFeed_not_mem_display _))
  · exact .inl rfl

theorem lineFeed_not_mem_display {t : Token} (h : '\n' ∉ t.text.toList) :
    '\n' ∉ t.display.toList := by
  rw [← List.count_eq_zero, count_display]
  rcases t.count_summary with hText | hNone
  · rw [hText]
    exact List.count_eq_zero.mpr h
  · exact hNone

end Token
end Outline
