import Mathlib.Data.List.TakeWhile
import Outline.Proofs.Literal.Calendar

/-! # Reading dates and times

The reader finds the runs of digits by cutting the text at the marks, and reads each as a number. It
gets along with words of 32 bits: done in such words, with no result as soon as one of them is too
small, reading gives the value that is written.
-/
namespace Outline.Literal
set_option autoImplicit false

theorem bne_of_not_mem {mark : Char} {s : List Char} (h : mark ∉ s) :
    ∀ c ∈ s, (c != mark) = true := by
  intro c hc
  rw [bne_iff_ne]
  rintro rfl
  exact h hc

theorem cut_of_not_mem {mark : Char} {s : List Char} (h : mark ∉ s) : cut mark s = (s, none) := by
  rw [cut, List.dropWhile_eq_nil_iff.mpr (bne_of_not_mem h)]

theorem cut_append {mark : Char} {s : List Char} (h : mark ∉ s) (rest : List Char) :
    cut mark (s ++ mark :: rest) = (s, some rest) := by
  rw [cut, List.dropWhile_append_of_pos (bne_of_not_mem h),
    List.takeWhile_append_of_pos (bne_of_not_mem h)]
  simp

theorem cutTwice_append {mark : Char} {s : List Char} (h : mark ∉ s) (rest : List Char) :
    cutTwice mark (s ++ mark :: rest) = (s, some (cut mark rest).1, (cut mark rest).2) := by
  rw [cutTwice, cut_append h]

/-- The number, if a word of 32 bits holds it. -/
def word? (n : Nat) : Option Nat := if n < 0x100000000 then some n else none

theorem word?_eq_some_iff {n m : Nat} : word? n = some m ↔ n < 0x100000000 ∧ n = m := by
  simp [word?]

def appendDigit? (n : Nat) (c : Char) : Option Nat := do
  let tens ← word? (10 * n)
  word? (tens + Decimal.digitValue c)

def component32? (text : List Char) : Option Nat :=
  (text.filter Char.isDigit).foldlM appendDigit? 0

def calendarDate32? (text : List Char) : Option Calendar.Date := do
  let (year, month, day) := cutTwice '-' text
  let year ← component32? year
  let month ← component32? (month.getD [])
  let day ← component32? (day.getD [])
  return ⟨year, month, day⟩

def milliseconds32? (fraction : List Char) : Option Nat := do
  let digits ← component32? fraction
  let scale ← word? (Nat.pow 10 (3 - (String.ofList fraction).utf8ByteSize))
  word? (digits * scale)

def calendarDateTime32? (text : List Char) : Option Calendar.DateTime := do
  let (day, time) := cut ' ' text
  let (hour, minute, seconds) := cutTwice ':' (time.getD [])
  let date ← calendarDate32? day
  let hour ← component32? hour
  let minute ← component32? (minute.getD [])
  let second ← (seconds.map fun s => (cut '.' s).1).mapM component32?
  let millisecond ← ((seconds.bind fun s => (cut '.' s).2).filter (· ≠ [])).mapM milliseconds32?
  return { date, hour, minute, second, millisecond }

theorem appendDigit?_eq_some_iff {n m : Nat} {c : Char} :
    appendDigit? n c = some m ↔
      10 * n + Decimal.digitValue c < 0x100000000 ∧ 10 * n + Decimal.digitValue c = m := by
  simp only [appendDigit?, Option.bind_eq_bind, Option.bind_eq_some_iff, word?_eq_some_iff]
  constructor
  · rintro ⟨tens, ⟨-, rfl⟩, h⟩
    exact h
  · intro h
    exact ⟨_, ⟨by omega, rfl⟩, h⟩

theorem foldlM_appendDigit?_eq_some {digits : List Char} {n : Nat}
    (h : digits.foldlM appendDigit? 0 = some n) : Decimal.value digits = n := by
  induction digits using List.reverseRecOn generalizing n with
  | nil => exact Option.some.inj h
  | append_singleton digits c ih =>
    rw [List.foldlM_append] at h
    obtain ⟨front, hFront, hLast⟩ := Option.bind_eq_some_iff.mp h
    simp only [List.foldlM_cons, List.foldlM_nil, bind_pure, appendDigit?_eq_some_iff] at hLast
    rw [Decimal.value_concat, ih hFront, hLast.2]

theorem component_of_component32? {text : List Char} {n : Nat} (h : component32? text = some n) :
    component text = n :=
  foldlM_appendDigit?_eq_some h

theorem milliseconds_of_milliseconds32? {fraction : List Char} {n : Nat}
    (h : milliseconds32? fraction = some n) : milliseconds fraction = n := by
  obtain ⟨digits, hDigits, h⟩ := Option.bind_eq_some_iff.mp h
  obtain ⟨scale, hScale, h⟩ := Option.bind_eq_some_iff.mp h
  rw [milliseconds, component_of_component32? hDigits, (word?_eq_some_iff.mp hScale).2,
    (word?_eq_some_iff.mp h).2]

theorem calendarDate_of_calendarDate32? {text : List Char} {d : Calendar.Date}
    (h : calendarDate32? text = some d) : calendarDate text = d := by
  rw [calendarDate32?] at h
  rw [calendarDate]
  generalize cutTwice '-' text = parts at h ⊢
  obtain ⟨first, second, third⟩ := parts
  dsimp only at h ⊢
  obtain ⟨year, hYear, h⟩ := Option.bind_eq_some_iff.mp h
  obtain ⟨month, hMonth, h⟩ := Option.bind_eq_some_iff.mp h
  obtain ⟨day, hDay, h⟩ := Option.bind_eq_some_iff.mp h
  cases h
  rw [component_of_component32? hYear, component_of_component32? hMonth,
    component_of_component32? hDay]

theorem map_of_mapM {f : List Char → Nat} {f? : List Char → Option Nat}
    (hf : ∀ {s n}, f? s = some n → f s = n) {text : Option (List Char)} {n : Option Nat}
    (h : text.mapM f? = some n) : text.map f = n := by
  cases text with
  | none => exact Option.some.inj h
  | some s =>
    obtain ⟨m, hm, h⟩ := Option.map_eq_some_iff.mp h
    rw [Option.map_some, hf hm, ← h]

theorem calendarDateTime_of_calendarDateTime32? {text : List Char} {d : Calendar.DateTime}
    (h : calendarDateTime32? text = some d) : calendarDateTime text = d := by
  rw [calendarDateTime32?] at h
  rw [calendarDateTime]
  generalize cut ' ' text = parts at h ⊢
  obtain ⟨day, time⟩ := parts
  dsimp only at h ⊢
  generalize cutTwice ':' (time.getD []) = fields at h ⊢
  obtain ⟨first, second, third⟩ := fields
  dsimp only at h ⊢
  obtain ⟨date, hDate, h⟩ := Option.bind_eq_some_iff.mp h
  obtain ⟨hour, hHour, h⟩ := Option.bind_eq_some_iff.mp h
  obtain ⟨minute, hMinute, h⟩ := Option.bind_eq_some_iff.mp h
  obtain ⟨whole, hSecond, h⟩ := Option.bind_eq_some_iff.mp h
  obtain ⟨millisecond, hMillisecond, h⟩ := Option.bind_eq_some_iff.mp h
  cases h
  rw [calendarDate_of_calendarDate32? hDate, component_of_component32? hHour,
    component_of_component32? hMinute, map_of_mapM component_of_component32? hSecond,
    map_of_mapM milliseconds_of_milliseconds32? hMillisecond]

/-- Nine digits fit into a word. -/
theorem foldlM_appendDigit?_eq {digits : List Char} (hDigits : ∀ c ∈ digits, c.isDigit = true)
    (hLength : digits.length ≤ 9) :
    digits.foldlM appendDigit? 0 = some (Decimal.value digits) := by
  induction digits using List.reverseRecOn with
  | nil => rfl
  | append_singleton digits c ih =>
    have hValue := Decimal.value_lt hDigits
    have hBound : 10 ^ (digits ++ [c]).length ≤ 10 ^ 9 := Nat.pow_le_pow_right (by decide) hLength
    rw [List.forall_mem_append] at hDigits
    rw [List.length_append] at hLength
    have hFront := ih hDigits.1 (by omega)
    rw [Decimal.value_concat] at hValue ⊢
    have hLast : appendDigit? (Decimal.value digits) c =
        some (10 * Decimal.value digits + Decimal.digitValue c) :=
      appendDigit?_eq_some_iff.mpr ⟨by omega, rfl⟩
    simp [List.foldlM_append, hFront, hLast]

namespace Field
variable {least most : Nat}

theorem component32?_digits (f : Field least most) (h : most ≤ 9) :
    component32? f.digits = some f.value := by
  rw [component32?, filter_digits, value_eq]
  exact foldlM_appendDigit?_eq f.isDigit (Nat.le_trans f.le_most h)

theorem milliseconds32?_digits (f : Field 1 3) :
    milliseconds32? f.digits = some f.thousandths := by
  have hScale : 10 ^ (3 - f.digits.length) ≤ 10 ^ 3 :=
    Nat.pow_le_pow_right (by decide) (Nat.sub_le _ _)
  have hBound := f.thousandths_lt
  have hWord : word? (Nat.pow 10 (3 - f.digits.length)) = some (10 ^ (3 - f.digits.length)) :=
    word?_eq_some_iff.mpr ⟨Nat.lt_of_le_of_lt hScale (by decide), rfl⟩
  have hProduct : word? (f.value * 10 ^ (3 - f.digits.length)) = some f.thousandths :=
    word?_eq_some_iff.mpr ⟨by rw [← thousandths_eq]; omega, f.thousandths_eq.symm⟩
  rw [milliseconds32?, utf8ByteSize_eq (isAscii_of_isDigit f.isDigit),
    f.component32?_digits (by decide), hWord]
  exact hProduct

end Field

theorem calendarDate32?_text (w : WrittenDate) : calendarDate32? w.text = some w.value := by
  have hCut : cutTwice '-' w.text = (w.year.digits, some w.month.digits, some w.day.digits) := by
    rw [WrittenDate.text, cutTwice_append (w.year.not_mem rfl), cut_append (w.month.not_mem rfl)]
  simp [calendarDate32?, hCut, w.year.component32?_digits, w.month.component32?_digits,
    w.day.component32?_digits, WrittenDate.value]

theorem WrittenSeconds.cut_text (w : WrittenSeconds) :
    cut '.' w.text = (w.whole.digits, w.fraction.map Field.digits) := by
  rw [text]
  cases w.fraction with
  | none =>
    rw [Option.map_none, pointed, List.append_nil, cut_of_not_mem (w.whole.not_mem rfl)]
  | some f => exact cut_append (w.whole.not_mem rfl) f.digits

theorem WrittenDateTime.cut_text (w : WrittenDateTime) : cut ' ' w.text =
    (w.date.text, some (w.hour.digits ++ ':' :: (w.minute.digits ++ w.secondsText))) :=
  cut_append (w.date.not_mem_text rfl (by decide)) _

theorem WrittenDateTime.cutTwice_time (w : WrittenDateTime) :
    cutTwice ':' (w.hour.digits ++ ':' :: (w.minute.digits ++ w.secondsText)) =
      (w.hour.digits, some w.minute.digits, w.seconds.map WrittenSeconds.text) := by
  rw [cutTwice_append (w.hour.not_mem rfl), secondsText]
  cases w.seconds with
  | none =>
    rw [List.append_nil, cut_of_not_mem (w.minute.not_mem rfl)]
    rfl
  | some seconds =>
    rw [cut_append (w.minute.not_mem rfl)]
    rfl

theorem calendarDateTime32?_text (w : WrittenDateTime) :
    calendarDateTime32? w.text = some w.value := by
  have hSecond : ((w.seconds.map WrittenSeconds.text).map fun s => (cut '.' s).1).mapM
      component32? = some (w.seconds.map fun seconds => seconds.whole.value) := by
    cases w.seconds with
    | none => rfl
    | some seconds =>
      simp [seconds.cut_text, seconds.whole.component32?_digits]
  have hMillisecond : (((w.seconds.map WrittenSeconds.text).bind fun s => (cut '.' s).2).filter
      (· ≠ [])).mapM milliseconds32? =
        some ((w.seconds.bind WrittenSeconds.fraction).map Field.thousandths) := by
    cases w.seconds with
    | none => rfl
    | some seconds =>
      cases hFraction : seconds.fraction with
      | none => simp [seconds.cut_text, hFraction]
      | some f =>
        simp [seconds.cut_text, hFraction, Option.filter, f.digits_ne_nil, f.milliseconds32?_digits]
  rw [calendarDateTime32?, w.cut_text]
  dsimp only [Option.getD_some]
  rw [w.cutTwice_time]
  dsimp only [Option.getD_some]
  rw [calendarDate32?_text, w.hour.component32?_digits (by decide),
    w.minute.component32?_digits (by decide), hSecond, hMillisecond]
  rfl

end Outline.Literal
