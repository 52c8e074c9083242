import Mathlib.Data.List.Induction
import Mathlib.Data.Nat.Digits.Defs
import Outline.Calendar
import Outline.Proofs.Decimal
import Outline.Proofs.Text.Bytes

/-! # The order of dates and of their texts

Values whose components fit the widths in which they are shown are ordered as their texts are. The
components stand in the text from the most significant on, each with as many digits as there is room
for, and what is absent is absent at the end of the text.
-/
namespace Outline
set_option autoImplicit false

namespace Decimal

theorem digitValue_lt {c : Char} (h : c.isDigit = true) : digitValue c < 10 := by
  have hBounds := Char.isDigit_iff_toNat.mp h
  simp only [digitValue, Char.reduceToNat] at hBounds ⊢
  omega

theorem value_lt {digits : List Char} (h : ∀ c ∈ digits, c.isDigit = true) :
    value digits < 10 ^ digits.length := by
  induction digits using List.reverseRecOn with
  | nil => decide
  | append_singleton digits c ih =>
    rw [List.forall_mem_append, List.forall_mem_singleton] at h
    have hFront := ih h.1
    have hLast := digitValue_lt h.2
    rw [value_concat, List.length_append, List.length_singleton, Nat.pow_succ]
    omega

theorem value_append_zeros (digits : List Char) (zeros : Nat) :
    value (digits ++ List.replicate zeros '0') = value digits * 10 ^ zeros := by
  induction zeros with
  | zero => simp
  | succ zeros ih =>
    rw [List.replicate_succ', ← List.append_assoc, value_concat, ih, Nat.pow_succ]
    simp only [digitValue, Nat.sub_self, Nat.add_zero]
    rw [Nat.mul_comm, Nat.mul_assoc]

theorem length_padded {width n : Nat} (hWidth : 0 < width) (h : n < 10 ^ width) :
    (padded width n).toList.length = width := by
  have hLength := Nat.toDigits_length 10 n width hWidth h
  rw [toList_padded, List.length_append, List.length_replicate]
  omega

theorem compare_digits {m n x y : Nat} (hx : x < 10) (hy : y < 10) :
    compare (10 * m + x) (10 * n + y) = (compare m n).then (compare x y) := by
  rcases Nat.lt_trichotomy m n with hLt | rfl | hGt
  · have hSum : 10 * m + x < 10 * n + y := by omega
    rw [Nat.compare_eq_lt.mpr hLt, Nat.compare_eq_lt.mpr hSum]
    rfl
  · have hSame : compare (10 * m + x) (10 * m + y) = compare x y := by
      simp only [Nat.compare_eq_ite_lt, Nat.add_lt_add_iff_left]
    rw [hSame, Nat.compare_eq_eq.mpr rfl, Ordering.eq_then]
  · have hSum : 10 * n + y < 10 * m + x := by omega
    rw [Nat.compare_eq_gt.mpr hGt, Nat.compare_eq_gt.mpr hSum]
    rfl

theorem compare_digitValue {c d : Char} (hc : c.isDigit = true) (hd : d.isDigit = true) :
    compare (digitValue c) (digitValue d) = compare c.toNat d.toNat := by
  have hFirst := (Char.isDigit_iff_toNat.mp hc).1
  have hSecond := (Char.isDigit_iff_toNat.mp hd).1
  have hLess : digitValue c < digitValue d ↔ c.toNat < d.toNat := by
    rw [digitValue, digitValue]
    omega
  have hMore : digitValue d < digitValue c ↔ d.toNat < c.toNat := by
    rw [digitValue, digitValue]
    omega
  simp only [Nat.compare_eq_ite_lt, hLess, hMore]

theorem compare_codes {s t : List Char} (hs : ∀ c ∈ s, c.isDigit = true)
    (ht : ∀ c ∈ t, c.isDigit = true) (h : s.length = t.length) :
    compare (codes s) (codes t) = compare (value s) (value t) := by
  induction s using List.reverseRecOn generalizing t with
  | nil =>
    obtain rfl := List.length_eq_zero_iff.mp h.symm
    rfl
  | append_singleton s c ih =>
    rcases List.eq_nil_or_concat' t with rfl | ⟨t, d, rfl⟩
    · simp at h
    · rw [List.forall_mem_append, List.forall_mem_singleton] at hs ht
      have hLength : s.length = t.length := by simpa using h
      have hCodes : (codes s).length = (codes t).length := by simpa [codes] using hLength
      have hLast : compare [c.toNat] [d.toNat] = compare c.toNat d.toNat := by
        rw [List.compare_cons_cons]
        exact Ordering.then_eq
      rw [value_concat, value_concat, compare_digits (digitValue_lt hs.2) (digitValue_lt ht.2),
        ← ih hs.1 ht.1 hLength, compare_digitValue hs.2 ht.2, ← hLast, ← compare_append hCodes]
      simp [codes]

theorem compare_codes_padded {width m n : Nat} (hWidth : 0 < width) (hm : m < 10 ^ width)
    (hn : n < 10 ^ width) :
    compare (codes (padded width m).toList) (codes (padded width n).toList) = compare m n := by
  have hLength : (padded width m).toList.length = (padded width n).toList.length := by
    rw [length_padded hWidth hm, length_padded hWidth hn]
  rw [compare_codes isDigit_of_mem_padded isDigit_of_mem_padded hLength, value_padded, value_padded]

end Decimal

namespace Calendar
open Decimal (padded compare_codes_padded length_padded)

/-- The components have as many digits as are shown of them. -/
structure Date.Fits (d : Date) : Prop where
  year : d.year < 10 ^ 4
  month : d.month < 10 ^ 2
  day : d.day < 10 ^ 2

theorem Date.toList_display (d : Date) : d.display.toList =
    (padded 4 d.year).toList ++ '-' :: ((padded 2 d.month).toList ++
      '-' :: (padded 2 d.day).toList) := by
  simp [display]

/-- A component of fixed width decides before what follows it. -/
theorem compare_padded_append {width m n : Nat} (hWidth : 0 < width) (hm : m < 10 ^ width)
    (hn : n < 10 ^ width) (s t : List Char) :
    compare (codes ((padded width m).toList ++ s)) (codes ((padded width n).toList ++ t)) =
      (compare m n).then (compare (codes s) (codes t)) := by
  have hLength : (codes (padded width m).toList).length =
      (codes (padded width n).toList).length := by
    simp only [codes, List.length_map, length_padded hWidth hm, length_padded hWidth hn]
  rw [codes_append, codes_append, compare_append hLength, compare_codes_padded hWidth hm hn]

namespace Date
variable {a b : Date}

theorem order_eq_compare (ha : a.Fits) (hb : b.Fits) :
    a.order b = compare (codes a.display.toList) (codes b.display.toList) := by
  rw [toList_display, toList_display, compare_padded_append (by decide) ha.year hb.year,
    codes_cons, codes_cons, compare_cons_self,
    compare_padded_append (by decide) ha.month hb.month, codes_cons, codes_cons,
    compare_cons_self, compare_codes_padded (by decide) ha.day hb.day, order, Ordering.then_assoc]

theorem length_display (h : a.Fits) : a.display.toList.length = 10 := by
  simp [toList_display, length_padded (by decide) h.year, length_padded (by decide) h.month,
    length_padded (by decide) h.day]

end Date

structure DateTime.Fits (d : DateTime) : Prop where
  date : d.date.Fits
  hour : d.hour < 10 ^ 2
  minute : d.minute < 10 ^ 2
  second : ∀ s ∈ d.second, s < 10 ^ 2
  millisecond : ∀ ms ∈ d.millisecond, ms < 10 ^ 3
  behind : d.second = none → d.millisecond = none

def shown (mark : Char) (width : Nat) : Option Nat → List Char
  | none => []
  | some n => mark :: (padded width n).toList

/-- An absent component is followed by nothing, so that its text is the front of every other. -/
theorem compare_shown_append {width : Nat} (hWidth : 0 < width) {a b : Option Nat}
    (ha : ∀ n ∈ a, n < 10 ^ width) (hb : ∀ n ∈ b, n < 10 ^ width) (mark : Char) {s t : List Char}
    (hs : a = none → s = []) (ht : b = none → t = []) :
    compare (codes (shown mark width a ++ s)) (codes (shown mark width b ++ t)) =
      (optionOrder a b).then (compare (codes s) (codes t)) := by
  cases a with
  | none =>
    rw [hs rfl]
    cases b with
    | none =>
      rw [ht rfl]
      rfl
    | some n => rfl
  | some m =>
    cases b with
    | none =>
      rw [ht rfl]
      rfl
    | some n =>
      rw [shown, shown, List.cons_append, List.cons_append, codes_cons, codes_cons,
        compare_cons_self, compare_padded_append hWidth (ha m rfl) (hb n rfl)]
      rfl

namespace DateTime
variable {a b : DateTime}

theorem Fits.toList_display {d : DateTime} (h : d.Fits) : d.display.toList =
    d.date.display.toList ++ 'T' :: ((padded 2 d.hour).toList ++ ':' ::
      ((padded 2 d.minute).toList ++ (shown ':' 2 d.second ++ shown '.' 3 d.millisecond))) := by
  rw [display]
  cases hSecond : d.second with
  | none =>
    rw [h.behind hSecond]
    simp [shown]
  | some s => cases d.millisecond <;> simp [shown]

theorem Fits.shown_millisecond (h : a.Fits) (hSecond : a.second = none) :
    shown '.' 3 a.millisecond = [] := by
  rw [h.behind hSecond]
  rfl

theorem order_eq_compare (ha : a.Fits) (hb : b.Fits) :
    a.order b = compare (codes a.display.toList) (codes b.display.toList) := by
  have hDate : (codes a.date.display.toList).length = (codes b.date.display.toList).length := by
    simp only [codes, List.length_map, Date.length_display ha.date, Date.length_display hb.date]
  have hMillisecond := compare_shown_append (s := []) (t := []) (by decide) ha.millisecond
    hb.millisecond '.' (fun _ => rfl) (fun _ => rfl)
  have hEnd : compare (codes []) (codes []) = .eq := rfl
  rw [List.append_nil, List.append_nil, hEnd, Ordering.then_eq] at hMillisecond
  rw [ha.toList_display, hb.toList_display, codes_append, codes_append, compare_append hDate,
    codes_cons, codes_cons, compare_cons_self,
    compare_padded_append (by decide) ha.hour hb.hour, codes_cons, codes_cons, compare_cons_self,
    compare_padded_append (by decide) ha.minute hb.minute,
    compare_shown_append (by decide) ha.second hb.second ':' ha.shown_millisecond
      hb.shown_millisecond, hMillisecond, ← Date.order_eq_compare ha.date hb.date, order]
  simp only [Ordering.then_assoc]

end DateTime

theorem isAscii_padded (width n : Nat) : IsAscii (padded width n).toList :=
  isAscii_of_isDigit Decimal.isDigit_of_mem_padded

theorem isAscii_shown {mark : Char} (hMark : mark.utf8Size = 1) (width : Nat) (n : Option Nat) :
    IsAscii (shown mark width n) := by
  cases n with
  | none =>
    intro c hc
    cases hc
  | some n => exact isAscii_cons hMark (isAscii_padded width n)

theorem Date.isAscii_display (d : Date) : IsAscii d.display.toList := by
  rw [toList_display]
  refine isAscii_append (isAscii_padded 4 _) (isAscii_cons rfl ?_)
  exact isAscii_append (isAscii_padded 2 _) (isAscii_cons rfl (isAscii_padded 2 _))

theorem DateTime.Fits.isAscii_display {d : DateTime} (h : d.Fits) :
    IsAscii d.display.toList := by
  rw [h.toList_display]
  refine isAscii_append d.date.isAscii_display (isAscii_cons rfl ?_)
  refine isAscii_append (isAscii_padded 2 _) (isAscii_cons rfl ?_)
  exact isAscii_append (isAscii_padded 2 _)
    (isAscii_append (isAscii_shown rfl 2 _) (isAscii_shown rfl 3 _))

theorem Date.Fits.order_eq_byteOrder {a b : Date} (ha : a.Fits) (hb : b.Fits) :
    a.order b = byteOrder a.display b.display := by
  rw [byteOrder_eq a.isAscii_display b.isAscii_display]
  exact order_eq_compare ha hb

theorem DateTime.Fits.order_eq_byteOrder {a b : DateTime} (ha : a.Fits) (hb : b.Fits) :
    a.order b = byteOrder a.display b.display := by
  rw [byteOrder_eq ha.isAscii_display hb.isAscii_display]
  exact order_eq_compare ha hb

end Calendar
end Outline
