import Outline.Proofs.Calendar
import Outline.Proofs.Literal.Numbers

/-! # Dates and times as they are written

The text of a date or of a date with time is a few runs of digits with a mark between each two, and
the value has the number that each run spells. These are the texts that the patterns match. Every
value that they have can be shown, and what is shown of it is such a text again.
-/
namespace Outline.Literal
set_option autoImplicit false
open Pattern (matches_seq_iff matches_alt_iff matches_one_iff matches_char_iff
  matches_empty_iff matches_separated_iff)

/-- From `least` up to `most` digits. -/
structure Field (least most : Nat) where
  digits : List Char
  isDigit : ∀ c ∈ digits, c.isDigit = true
  least_le : least ≤ digits.length
  le_most : digits.length ≤ most

namespace Field
variable {least most : Nat}

def value (f : Field least most) : Nat := naturalOf f.digits

/-- The digits as a fraction, counted in thousandths: zeros behind them make them three. -/
def thousandths (f : Field 1 3) : Nat :=
  naturalOf (f.digits ++ List.replicate (3 - f.digits.length) '0')

theorem not_mem (f : Field least most) {c : Char} (h : c.isDigit = false) : c ∉ f.digits := by
  intro hc
  rw [f.isDigit c hc] at h
  cases h

theorem digits_ne_nil (f : Field 1 most) : f.digits ≠ [] := List.length_pos_iff.mp f.least_le

end Field

structure WrittenDate where
  year : Field 4 4
  month : Field 1 2
  day : Field 1 2

namespace WrittenDate

def text (w : WrittenDate) : List Char :=
  w.year.digits ++ '-' :: (w.month.digits ++ '-' :: w.day.digits)

def value (w : WrittenDate) : Calendar.Date := ⟨w.year.value, w.month.value, w.day.value⟩

end WrittenDate

structure WrittenSeconds where
  whole : Field 1 2
  fraction : Option (Field 1 3)

namespace WrittenSeconds

def text (w : WrittenSeconds) : List Char :=
  w.whole.digits ++ pointed (w.fraction.map Field.digits)

end WrittenSeconds

structure WrittenDateTime where
  date : WrittenDate
  hour : Field 1 2
  minute : Field 1 2
  seconds : Option WrittenSeconds

namespace WrittenDateTime

def secondsText (w : WrittenDateTime) : List Char :=
  match w.seconds with
  | none => []
  | some seconds => ':' :: seconds.text

def text (w : WrittenDateTime) : List Char :=
  w.date.text ++ ' ' :: (w.hour.digits ++ ':' :: (w.minute.digits ++ w.secondsText))

def value (w : WrittenDateTime) : Calendar.DateTime where
  date := w.date.value
  hour := w.hour.value
  minute := w.minute.value
  second := w.seconds.map fun seconds => seconds.whole.value
  millisecond := (w.seconds.bind WrittenSeconds.fraction).map Field.thousandths

end WrittenDateTime

theorem matches_upTo_digit_iff {n : Nat} {s : List Char} :
    (Category.digit.upTo n).Matches s ↔ s.length ≤ n ∧ ∀ c ∈ s, c.isDigit = true := by
  induction n generalizing s with
  | zero =>
    rw [Pattern.upTo, matches_empty_iff, Nat.le_zero, List.length_eq_zero_iff]
    constructor
    · rintro rfl
      simp
    · exact And.left
  | succ n ih =>
    rw [Pattern.upTo, Pattern.optional, matches_alt_iff, matches_seq_iff, matches_empty_iff]
    constructor
    · rintro (⟨a, b, rfl, hFirst, hRest⟩ | rfl)
      · obtain ⟨c, rfl, hc⟩ := matches_one_iff.mp hFirst
        obtain ⟨hLength, hDigits⟩ := ih.mp hRest
        exact ⟨Nat.succ_le_succ hLength, List.forall_mem_cons.mpr ⟨hc, hDigits⟩⟩
      · simp
    · rintro ⟨hLength, hDigits⟩
      cases s with
      | nil => exact .inr rfl
      | cons c rest =>
        obtain ⟨hc, hRest⟩ := List.forall_mem_cons.mp hDigits
        exact .inl ⟨[c], rest, rfl, .one hc, ih.mpr ⟨Nat.le_of_succ_le_succ hLength, hRest⟩⟩

theorem matches_oneUpTo_digit_iff {n : Nat} {s : List Char} :
    (Category.digit.oneUpTo n).Matches s ↔ ∃ f : Field 1 (n + 1), f.digits = s := by
  rw [Pattern.oneUpTo, matches_seq_iff]
  constructor
  · rintro ⟨a, b, rfl, hFirst, hRest⟩
    obtain ⟨c, rfl, hc⟩ := matches_one_iff.mp hFirst
    obtain ⟨hLength, hDigits⟩ := matches_upTo_digit_iff.mp hRest
    refine ⟨⟨[c] ++ b, List.forall_mem_cons.mpr ⟨hc, hDigits⟩, ?_, ?_⟩, rfl⟩
    · simp
    · exact Nat.succ_le_succ hLength
  · rintro ⟨⟨digits, hDigits, hLeast, hMost⟩, rfl⟩
    obtain ⟨c, rest, rfl⟩ := List.exists_cons_of_length_pos hLeast
    obtain ⟨hc, hRest⟩ := List.forall_mem_cons.mp hDigits
    exact ⟨[c], rest, rfl, .one hc,
      matches_upTo_digit_iff.mpr ⟨Nat.le_of_succ_le_succ hMost, hRest⟩⟩

theorem matches_times_digit_iff {n : Nat} {s : List Char} :
    (Category.digit.times n).Matches s ↔ ∃ f : Field n n, f.digits = s := by
  induction n generalizing s with
  | zero =>
    rw [Pattern.times, matches_empty_iff]
    constructor
    · rintro rfl
      exact ⟨⟨[], by simp, Nat.le_refl _, Nat.le_refl _⟩, rfl⟩
    · rintro ⟨f, rfl⟩
      exact List.length_eq_zero_iff.mp (Nat.le_zero.mp f.le_most)
  | succ n ih =>
    rw [Pattern.times, matches_seq_iff]
    constructor
    · rintro ⟨a, b, rfl, hFirst, hRest⟩
      obtain ⟨c, rfl, hc⟩ := matches_one_iff.mp hFirst
      obtain ⟨f, rfl⟩ := ih.mp hRest
      exact ⟨⟨c :: f.digits, List.forall_mem_cons.mpr ⟨hc, f.isDigit⟩,
        Nat.succ_le_succ f.least_le, Nat.succ_le_succ f.le_most⟩, rfl⟩
    · rintro ⟨⟨digits, hDigits, hLeast, hMost⟩, rfl⟩
      obtain ⟨c, rest, rfl⟩ := List.exists_cons_of_length_pos (Nat.lt_of_lt_of_le n.succ_pos hLeast)
      obtain ⟨hc, hRest⟩ := List.forall_mem_cons.mp hDigits
      exact ⟨[c], rest, rfl, .one hc, ih.mpr ⟨⟨rest, hRest, Nat.le_of_succ_le_succ hLeast,
        Nat.le_of_succ_le_succ hMost⟩, rfl⟩⟩

theorem matches_date_iff {s : List Char} :
    Category.date.pattern.Matches s ↔ ∃ w : WrittenDate, w.text = s := by
  constructor
  · intro h
    obtain ⟨_, rest, rfl, hYear, hRest⟩ := matches_separated_iff.mp h
    obtain ⟨_, _, rfl, hMonth, hDay⟩ := matches_separated_iff.mp hRest
    obtain ⟨year, rfl⟩ := matches_times_digit_iff.mp hYear
    obtain ⟨month, rfl⟩ := matches_oneUpTo_digit_iff.mp hMonth
    obtain ⟨day, rfl⟩ := matches_oneUpTo_digit_iff.mp hDay
    exact ⟨⟨year, month, day⟩, rfl⟩
  · rintro ⟨w, rfl⟩
    have hDays : (Pattern.seq (Category.digit.oneUpTo 1)
        (.seq (.char '-') (Category.digit.oneUpTo 1))).Matches
        (w.month.digits ++ '-' :: w.day.digits) :=
      matches_separated_iff.mpr ⟨_, _, rfl, matches_oneUpTo_digit_iff.mpr ⟨w.month, rfl⟩,
        matches_oneUpTo_digit_iff.mpr ⟨w.day, rfl⟩⟩
    exact matches_separated_iff.mpr ⟨_, _, rfl, matches_times_digit_iff.mpr ⟨w.year, rfl⟩, hDays⟩

theorem matches_fraction_iff {s : List Char} :
    (Pattern.optional (.seq (.char '.') (Category.digit.oneUpTo 2))).Matches s ↔
      ∃ fraction : Option (Field 1 3), pointed (fraction.map Field.digits) = s := by
  rw [Pattern.optional, matches_alt_iff, matches_seq_iff, matches_empty_iff]
  constructor
  · rintro (⟨_, _, rfl, hPoint, hDigits⟩ | rfl)
    · obtain rfl := matches_char_iff.mp hPoint
      obtain ⟨f, rfl⟩ := matches_oneUpTo_digit_iff.mp hDigits
      exact ⟨some f, rfl⟩
    · exact ⟨none, rfl⟩
  · rintro ⟨fraction, rfl⟩
    cases fraction with
    | none => exact .inr rfl
    | some f =>
      exact .inl ⟨['.'], f.digits, rfl, matches_char_iff.mpr rfl,
        matches_oneUpTo_digit_iff.mpr ⟨f, rfl⟩⟩

theorem matches_seconds_iff {s : List Char} :
    (Pattern.seq (Category.digit.oneUpTo 1)
      (Pattern.optional (.seq (.char '.') (Category.digit.oneUpTo 2)))).Matches s ↔
      ∃ w : WrittenSeconds, w.text = s := by
  rw [matches_seq_iff]
  constructor
  · rintro ⟨_, _, rfl, hWhole, hFraction⟩
    obtain ⟨whole, rfl⟩ := matches_oneUpTo_digit_iff.mp hWhole
    obtain ⟨fraction, rfl⟩ := matches_fraction_iff.mp hFraction
    exact ⟨⟨whole, fraction⟩, rfl⟩
  · rintro ⟨w, rfl⟩
    exact ⟨_, _, rfl, matches_oneUpTo_digit_iff.mpr ⟨w.whole, rfl⟩,
      matches_fraction_iff.mpr ⟨w.fraction, rfl⟩⟩

theorem matches_dateTime_iff {s : List Char} :
    Category.dateTime.pattern.Matches s ↔ ∃ w : WrittenDateTime, w.text = s := by
  constructor
  · intro h
    obtain ⟨_, _, rfl, hDate, hTime⟩ := matches_separated_iff.mp h
    obtain ⟨_, _, rfl, hHour, hRest⟩ := matches_separated_iff.mp hTime
    obtain ⟨_, _, rfl, hMinute, hSeconds⟩ := matches_seq_iff.mp hRest
    obtain ⟨date, rfl⟩ := matches_date_iff.mp hDate
    obtain ⟨hour, rfl⟩ := matches_oneUpTo_digit_iff.mp hHour
    obtain ⟨minute, rfl⟩ := matches_oneUpTo_digit_iff.mp hMinute
    rcases matches_alt_iff.mp hSeconds with hSome | hNone
    · obtain ⟨_, _, rfl, hColon, hParts⟩ := matches_seq_iff.mp hSome
      obtain rfl := matches_char_iff.mp hColon
      obtain ⟨seconds, rfl⟩ := matches_seconds_iff.mp hParts
      exact ⟨⟨date, hour, minute, some seconds⟩, rfl⟩
    · obtain rfl := matches_empty_iff.mp hNone
      exact ⟨⟨date, hour, minute, none⟩, rfl⟩
  · rintro ⟨w, rfl⟩
    refine matches_separated_iff.mpr ⟨w.date.text, _, rfl, matches_date_iff.mpr ⟨w.date, rfl⟩, ?_⟩
    refine matches_separated_iff.mpr
      ⟨w.hour.digits, _, rfl, matches_oneUpTo_digit_iff.mpr ⟨w.hour, rfl⟩, ?_⟩
    refine .seq (matches_oneUpTo_digit_iff.mpr ⟨w.minute, rfl⟩) ?_
    rw [WrittenDateTime.secondsText]
    cases w.seconds with
    | none => exact .altRight .empty
    | some seconds =>
      exact .altLeft (.seq (matches_char_iff.mpr rfl) (matches_seconds_iff.mpr ⟨seconds, rfl⟩))

theorem component_eq_naturalOf (text : List Char) : component text = naturalOf text :=
  value_eq_ofDigits _

namespace Field
variable {least most : Nat}

theorem filter_digits (f : Field least most) : f.digits.filter Char.isDigit = f.digits :=
  List.filter_eq_self.mpr f.isDigit

theorem value_eq (f : Field least most) : f.value = Decimal.value f.digits := by
  rw [value, ← component_eq_naturalOf, component, filter_digits]

theorem value_lt (f : Field least most) : f.value < 10 ^ most := by
  rw [value_eq]
  exact Nat.lt_of_lt_of_le (Decimal.value_lt f.isDigit) (Nat.pow_le_pow_right (by decide) f.le_most)

theorem isDigit_of_mem_extended (f : Field 1 3) :
    ∀ c ∈ f.digits ++ List.replicate (3 - f.digits.length) '0', c.isDigit = true := by
  refine List.forall_mem_append.mpr ⟨f.isDigit, ?_⟩
  intro c hc
  rw [List.eq_of_mem_replicate hc]
  rfl

theorem thousandths_eq_value (f : Field 1 3) : f.thousandths =
    Decimal.value (f.digits ++ List.replicate (3 - f.digits.length) '0') := by
  rw [thousandths, ← component_eq_naturalOf, component,
    List.filter_eq_self.mpr f.isDigit_of_mem_extended]

theorem thousandths_eq (f : Field 1 3) :
    f.thousandths = f.value * 10 ^ (3 - f.digits.length) := by
  rw [thousandths_eq_value, Decimal.value_append_zeros, value_eq]

theorem thousandths_lt (f : Field 1 3) : f.thousandths < 10 ^ 3 := by
  have hLength := f.le_most
  have hValue := Decimal.value_lt f.isDigit_of_mem_extended
  rw [← thousandths_eq_value, List.length_append, List.length_replicate] at hValue
  rwa [Nat.add_sub_cancel' hLength] at hValue

end Field

theorem WrittenDate.not_mem_text (w : WrittenDate) {c : Char} (h : c.isDigit = false)
    (hMark : c ≠ '-') : c ∉ w.text := by
  simp [text, w.year.not_mem h, w.month.not_mem h, w.day.not_mem h, hMark]

theorem WrittenDateTime.not_mem_text (w : WrittenDateTime) {c : Char} (h : c.isDigit = false)
    (hMark : c ≠ '-' ∧ c ≠ ' ' ∧ c ≠ ':' ∧ c ≠ '.') : c ∉ w.text := by
  obtain ⟨hDash, hBlank, hColon, hPoint⟩ := hMark
  have hFraction (fraction : Option (Field 1 3)) : c ∉ pointed (fraction.map Field.digits) := by
    cases fraction with
    | none => simp [pointed]
    | some f => simp [pointed, hPoint, f.not_mem h]
  have hSeconds : c ∉ w.secondsText := by
    rw [secondsText]
    cases w.seconds with
    | none => simp
    | some s => simp [WrittenSeconds.text, hColon, s.whole.not_mem h, hFraction]
  simp [text, w.date.not_mem_text h hDash, w.hour.not_mem h, w.minute.not_mem h, hSeconds, hBlank,
    hColon]

theorem WrittenDate.fits_value (w : WrittenDate) : w.value.Fits :=
  ⟨w.year.value_lt, w.month.value_lt, w.day.value_lt⟩

theorem WrittenDateTime.fits_value (w : WrittenDateTime) : w.value.Fits where
  date := w.date.fits_value
  hour := w.hour.value_lt
  minute := w.minute.value_lt
  second := by
    intro s hs
    obtain ⟨seconds, -, rfl⟩ := Option.map_eq_some_iff.mp hs
    exact seconds.whole.value_lt
  millisecond := by
    intro ms hms
    obtain ⟨f, -, rfl⟩ := Option.map_eq_some_iff.mp hms
    exact f.thousandths_lt
  behind := by
    intro hNone
    simp only [value, Option.map_eq_none_iff] at hNone ⊢
    rw [hNone]
    rfl

theorem exists_field (least : Nat) {most n : Nat} (hLeast : least ≤ most) (hMost : 0 < most)
    (h : n < 10 ^ most) :
    ∃ f : Field least most, f.digits = (Decimal.padded most n).toList ∧ f.value = n := by
  have hLength := Decimal.length_padded hMost h
  have hSome : least ≤ (Decimal.padded most n).toList.length := by rwa [hLength]
  refine ⟨⟨(Decimal.padded most n).toList, Decimal.isDigit_of_mem_padded, hSome,
    Nat.le_of_eq hLength⟩, ?_, ?_⟩
  · dsimp only
  · rw [Field.value_eq, Decimal.value_padded]

theorem exists_writtenDate {d : Calendar.Date} (h : d.Fits) :
    ∃ w : WrittenDate, w.text = d.display.toList ∧ w.value = d := by
  obtain ⟨year, hYear, hYearValue⟩ := exists_field 4 (Nat.le_refl 4) (by decide) h.year
  obtain ⟨month, hMonth, hMonthValue⟩ := exists_field 1 (by decide) (by decide) h.month
  obtain ⟨day, hDay, hDayValue⟩ := exists_field 1 (by decide) (by decide) h.day
  refine ⟨⟨year, month, day⟩, ?_, ?_⟩
  · rw [WrittenDate.text, Calendar.Date.toList_display, hYear, hMonth, hDay]
  · rw [WrittenDate.value, hYearValue, hMonthValue, hDayValue]

theorem exists_fraction {ms : Option Nat} (h : ∀ n ∈ ms, n < 10 ^ 3) :
    ∃ fraction : Option (Field 1 3),
      pointed (fraction.map Field.digits) = Calendar.shown '.' 3 ms ∧
      fraction.map Field.thousandths = ms := by
  cases ms with
  | none => exact ⟨none, rfl, rfl⟩
  | some n =>
    obtain ⟨f, hDigits, hValue⟩ := exists_field 1 (by decide) (by decide) (h n rfl)
    have hLength : f.digits.length = 3 := by
      rw [hDigits, Decimal.length_padded (by decide) (h n rfl)]
    refine ⟨some f, ?_, ?_⟩
    · rw [Option.map_some, pointed, hDigits, Calendar.shown]
    · rw [Option.map_some, f.thousandths_eq, hLength, hValue, Nat.sub_self, Nat.pow_zero,
        Nat.mul_one]

/-- The text of a date with time, with a blank before the time as in a source. -/
def blankBeforeTime (d : Calendar.DateTime) : String :=
  d.display.map fun c => if c = 'T' then ' ' else c

theorem toList_blankBeforeTime {d : Calendar.DateTime} (h : d.Fits) :
    (blankBeforeTime d).toList = d.date.display.toList ++ ' ' ::
      ((Decimal.padded 2 d.hour).toList ++ ':' :: ((Decimal.padded 2 d.minute).toList ++
        (Calendar.shown ':' 2 d.second ++ Calendar.shown '.' 3 d.millisecond))) := by
  have hKeep : ∀ s : List Char, 'T' ∉ s → s.map (fun c => if c = 'T' then ' ' else c) = s := by
    intro s hs
    rw [List.map_congr_left (g := id), List.map_id]
    intro c hc
    exact if_neg (by rintro rfl; exact hs hc)
  have hPadded (width n : Nat) : 'T' ∉ (Decimal.padded width n).toList := by
    intro hMem
    cases Decimal.isDigit_of_mem_padded _ hMem
  have hShown (mark : Char) (hMark : 'T' ≠ mark) (width : Nat) (n : Option Nat) :
      'T' ∉ Calendar.shown mark width n := by
    cases n <;> simp [Calendar.shown, hMark, hPadded]
  have hDate : 'T' ∉ d.date.display.toList := by
    simp [Calendar.Date.toList_display, hPadded]
  rw [blankBeforeTime, String.toList_map, h.toList_display]
  simp [hKeep, hDate, hPadded, hShown]

theorem exists_writtenDateTime {d : Calendar.DateTime} (h : d.Fits) :
    ∃ w : WrittenDateTime, w.text = (blankBeforeTime d).toList ∧ w.value = d := by
  obtain ⟨date, hDate, hDateValue⟩ := exists_writtenDate h.date
  obtain ⟨hour, hHour, hHourValue⟩ := exists_field 1 (by decide) (by decide) h.hour
  obtain ⟨minute, hMinute, hMinuteValue⟩ := exists_field 1 (by decide) (by decide) h.minute
  rw [toList_blankBeforeTime h]
  cases hSecond : d.second with
  | none =>
    have hMillisecond := h.behind hSecond
    refine ⟨⟨date, hour, minute, none⟩, ?_, ?_⟩
    · simp [WrittenDateTime.text, WrittenDateTime.secondsText, hDate, hHour, hMinute,
        hMillisecond, Calendar.shown]
    · cases d
      simp_all [WrittenDateTime.value]
  | some s =>
    obtain ⟨whole, hWhole, hWholeValue⟩ :=
      exists_field 1 (by decide) (by decide) (h.second s hSecond)
    obtain ⟨fraction, hFraction, hFractionValue⟩ := exists_fraction h.millisecond
    refine ⟨⟨date, hour, minute, some ⟨whole, fraction⟩⟩, ?_, ?_⟩
    · simp [WrittenDateTime.text, WrittenDateTime.secondsText, WrittenSeconds.text, hDate, hHour,
        hMinute, hWhole, hFraction, Calendar.shown]
    · cases d
      simp_all [WrittenDateTime.value]

end Outline.Literal
