import Outline.Proofs.Lexing.LineStarts
import Outline.Proofs.Lexing.Numbers
import Outline.Proofs.Literal.CalendarReading

/-! # Dates and times in a source

The dates of a source have the values that are written there. Shown and lexed again, such a value is
one token with the same value, and its text stands where the value does in the order of all texts.
-/
namespace Outline
set_option autoImplicit false

namespace Category

theorem not_takes_comment {least most : Nat} (f : Literal.Field (least + 1) most)
    (rest : List Char) (m : Nat) : ¬ comment.Takes (f.digits ++ rest) m := by
  have hPos : 0 < f.digits.length := Nat.lt_of_lt_of_le least.succ_pos f.least_le
  obtain ⟨c, digits, hDigits⟩ := List.exists_cons_of_length_pos hPos
  have hDigit : c.isDigit = true := f.isDigit c (by simp [hDigits])
  rw [hDigits, List.cons_append]
  apply not_takes_of_mayStart
  rw [Bool.eq_false_iff]
  intro hStart
  have hMark : isBlank c = true ∨ c = '/' := by
    simpa [pattern, Pattern.seqs, Pattern.mayStart, Pattern.char, Pattern.nullable] using hStart
  rcases hMark with hBlank | rfl
  · rcases (by simpa [isBlank] using hBlank : c = ' ' ∨ c = '\t') with rfl | rfl <;> cases hDigit
  · cases hDigit

theorem chosen_date (w : Literal.WrittenDate) : Chosen w.text .date w.text.length := by
  refine ⟨⟨[.comment, .dateTime], _, rfl, ?_⟩, ⟨Nat.le_refl _, ?_⟩, fun m hm => hm.1⟩
  · intro c hc
    rcases List.mem_pair.mp hc with rfl | rfl
    · exact not_takes_comment w.year _
    · exact not_takes_of_not_mem (w.not_mem_text rfl (by decide)) fun _ => mem_of_matches_separated
  · rw [List.take_length]
    exact Literal.matches_date_iff.mpr ⟨w, rfl⟩

theorem chosen_dateTime (w : Literal.WrittenDateTime) :
    Chosen w.text .dateTime w.text.length := by
  refine ⟨⟨[.comment], _, rfl, ?_⟩, ⟨Nat.le_refl _, ?_⟩, fun m hm => hm.1⟩
  · intro c hc
    obtain rfl := List.mem_singleton.mp hc
    rw [Literal.WrittenDateTime.text, Literal.WrittenDate.text, List.append_assoc]
    exact not_takes_comment w.date.year _
  · rw [List.take_length]
    exact Literal.matches_dateTime_iff.mpr ⟨w, rfl⟩

end Category

section Tokens
variable {source : String} {t : Token}

theorem exists_writtenDate_of_mem (ht : t ∈ tokenize source) {d : Calendar.Date}
    (h : t.content = .date d) :
    ∃ w : Literal.WrittenDate, t.text.toList = w.text ∧ d = w.value := by
  have hKind : t.kind = .date := congrArg Content.kind h
  obtain ⟨hMatches, hContent⟩ :=
    (lexes_tokenize source).matches_of_kind ht (c := .date) (by decide) hKind
  obtain ⟨w, hText⟩ := Literal.matches_date_iff.mp hMatches
  rw [h, ← hText] at hContent
  have hValue : d = Literal.calendarDate w.text := Content.date.inj hContent
  rw [Literal.calendarDate_of_calendarDate32? (Literal.calendarDate32?_text w)] at hValue
  exact ⟨w, hText.symm, hValue⟩

theorem exists_writtenDateTime_of_mem (ht : t ∈ tokenize source) {d : Calendar.DateTime}
    (h : t.content = .dateTime d) :
    ∃ w : Literal.WrittenDateTime, t.text.toList = w.text ∧ d = w.value := by
  have hKind : t.kind = .dateTime := congrArg Content.kind h
  obtain ⟨hMatches, hContent⟩ :=
    (lexes_tokenize source).matches_of_kind ht (c := .dateTime) (by decide) hKind
  obtain ⟨w, hText⟩ := Literal.matches_dateTime_iff.mp hMatches
  rw [h, ← hText] at hContent
  have hValue : d = Literal.calendarDateTime w.text := Content.dateTime.inj hContent
  rw [Literal.calendarDateTime_of_calendarDateTime32? (Literal.calendarDateTime32?_text w)]
    at hValue
  exact ⟨w, hText.symm, hValue⟩

end Tokens

theorem tokenize_display {d : Calendar.Date} (h : d.Fits) : tokenize d.display =
    [⟨.date d, ⟨.origin, ⟨1, 1 + d.display.length⟩⟩, d.display⟩] := by
  obtain ⟨w, hText, hValue⟩ := Literal.exists_writtenDate h
  have hChosen := Category.chosen_date w
  have hBreak : '\n' ∉ w.text := w.not_mem_text rfl (by decide)
  have hContent := Literal.calendarDate_of_calendarDate32? (Literal.calendarDate32?_text w)
  rw [hText] at hChosen hBreak hContent
  rw [tokenize_eq_singleton hChosen hBreak, Category.content, Literal.date, hContent, hValue]

theorem tokenize_blankBeforeTime {d : Calendar.DateTime} (h : d.Fits) :
    tokenize (Literal.blankBeforeTime d) =
      [⟨.dateTime d, ⟨.origin, ⟨1, 1 + (Literal.blankBeforeTime d).length⟩⟩,
        Literal.blankBeforeTime d⟩] := by
  obtain ⟨w, hText, hValue⟩ := Literal.exists_writtenDateTime h
  have hChosen := Category.chosen_dateTime w
  have hBreak : '\n' ∉ w.text := w.not_mem_text rfl (by decide)
  have hContent :=
    Literal.calendarDateTime_of_calendarDateTime32? (Literal.calendarDateTime32?_text w)
  rw [hText] at hChosen hBreak hContent
  rw [tokenize_eq_singleton hChosen hBreak, Category.content, Literal.dateTime, hContent, hValue]

/-- Every date of a source has the components that are written, read without leaving words of 32
bits, and so has every date with time, whose second and millisecond are there exactly if they are
written. Their texts, a blank before the time, are single tokens with the same values. -/
theorem calendar_values_of_tokens (source : String) :
    (∀ t ∈ tokenize source, ∀ d, t.content = .date d →
      (∃ w : Literal.WrittenDate, t.text.toList = w.text ∧ d = w.value) ∧
      Literal.calendarDate32? t.text.toList = some d ∧
      tokenize d.display = [⟨.date d, ⟨.origin, ⟨1, 1 + d.display.length⟩⟩, d.display⟩]) ∧
    (∀ t ∈ tokenize source, ∀ d, t.content = .dateTime d →
      (∃ w : Literal.WrittenDateTime, t.text.toList = w.text ∧ d = w.value) ∧
      (∀ ms ∈ d.millisecond, ms < 1000) ∧
      Literal.calendarDateTime32? t.text.toList = some d ∧
      tokenize (Literal.blankBeforeTime d) =
        [⟨.dateTime d, ⟨.origin, ⟨1, 1 + (Literal.blankBeforeTime d).length⟩⟩,
          Literal.blankBeforeTime d⟩]) := by
  constructor
  · intro t ht d hContent
    obtain ⟨w, hText, rfl⟩ := exists_writtenDate_of_mem ht hContent
    refine ⟨⟨w, hText, rfl⟩, ?_, tokenize_display w.fits_value⟩
    rw [hText]
    exact Literal.calendarDate32?_text w
  · intro t ht d hContent
    obtain ⟨w, hText, rfl⟩ := exists_writtenDateTime_of_mem ht hContent
    refine ⟨⟨w, hText, rfl⟩, w.fits_value.millisecond, ?_, tokenize_blankBeforeTime w.fits_value⟩
    rw [hText]
    exact Literal.calendarDateTime32?_text w

/-- A month and an hour of one digit, and a tenth of a second. -/
theorem calendar_values_of_tokens_tenth :
    Literal.calendarDate32? "2024-2-31".toList = some ⟨2024, 2, 31⟩ ∧
      tokenize "2024-02-31" = [⟨.date ⟨2024, 2, 31⟩, ⟨.origin, ⟨1, 11⟩⟩, "2024-02-31"⟩] ∧
      Literal.calendarDateTime32? "2023-12-01 8:30:15.5".toList =
        some ⟨⟨2023, 12, 1⟩, 8, 30, some 15, some 500⟩ ∧
      tokenize "2023-12-01 08:30:15.500" =
        [⟨.dateTime ⟨⟨2023, 12, 1⟩, 8, 30, some 15, some 500⟩, ⟨.origin, ⟨1, 24⟩⟩,
          "2023-12-01 08:30:15.500"⟩] := by
  obtain ⟨hDates, hDateTimes⟩ := calendar_values_of_tokens "2024-2-31, 2023-12-01 8:30:15.5"
  have hDate : ⟨.date ⟨2024, 2, 31⟩, ⟨.origin, ⟨1, 10⟩⟩, "2024-2-31"⟩ ∈
      tokenize "2024-2-31, 2023-12-01 8:30:15.5" := by decide +kernel
  have hDateTime : ⟨.dateTime ⟨⟨2023, 12, 1⟩, 8, 30, some 15, some 500⟩, ⟨⟨1, 12⟩, ⟨1, 32⟩⟩,
      "2023-12-01 8:30:15.5"⟩ ∈ tokenize "2024-2-31, 2023-12-01 8:30:15.5" := by decide +kernel
  obtain ⟨-, hWords, hAgain⟩ := hDates _ hDate _ rfl
  obtain ⟨-, -, hWords', hAgain'⟩ := hDateTimes _ hDateTime _ rfl
  have hShown : (⟨2024, 2, 31⟩ : Calendar.Date).display = "2024-02-31" := by decide +kernel
  have hShown' : Literal.blankBeforeTime ⟨⟨2023, 12, 1⟩, 8, 30, some 15, some 500⟩ =
      "2023-12-01 08:30:15.500" := by decide +kernel
  rw [hShown] at hAgain
  rw [hShown'] at hAgain'
  exact ⟨hWords, hAgain, hWords', hAgain'⟩

/-- Dates are ordered as the bytes of their texts are, and so are dates with time, whether or not
their seconds and milliseconds are written. -/
theorem order_eq_byteOrder_of_tokens (source source' : String) :
    (∀ t ∈ tokenize source, ∀ t' ∈ tokenize source', ∀ a b : Calendar.Date,
      t.content = .date a → t'.content = .date b →
      a.order b = byteOrder a.display b.display) ∧
    (∀ t ∈ tokenize source, ∀ t' ∈ tokenize source', ∀ a b : Calendar.DateTime,
      t.content = .dateTime a → t'.content = .dateTime b →
      a.order b = byteOrder a.display b.display) := by
  constructor
  · intro t ht t' ht' a b ha hb
    obtain ⟨w, -, rfl⟩ := exists_writtenDate_of_mem ht ha
    obtain ⟨w', -, rfl⟩ := exists_writtenDate_of_mem ht' hb
    exact w.fits_value.order_eq_byteOrder w'.fits_value
  · intro t ht t' ht' a b ha hb
    obtain ⟨w, -, rfl⟩ := exists_writtenDateTime_of_mem ht ha
    obtain ⟨w', -, rfl⟩ := exists_writtenDateTime_of_mem ht' hb
    exact w.fits_value.order_eq_byteOrder w'.fits_value

/-- A day of one digit before one of two, and a time before the same time with its seconds. -/
theorem order_eq_byteOrder_of_tokens_absent :
    (∃ t ∈ tokenize "2024-2-9, 2024-1-2 3:4", ∃ t' ∈ tokenize "2024-2-10, 2024-1-2 3:4:0",
      ∃ a b : Calendar.Date, t.content = .date a ∧ t'.content = .date b ∧
        a.display = "2024-02-09" ∧ b.display = "2024-02-10" ∧
        a.order b = byteOrder a.display b.display ∧ a.order b = .lt) ∧
    (∃ t ∈ tokenize "2024-2-9, 2024-1-2 3:4", ∃ t' ∈ tokenize "2024-2-10, 2024-1-2 3:4:0",
      ∃ a b : Calendar.DateTime, t.content = .dateTime a ∧ t'.content = .dateTime b ∧
        a.display = "2024-01-02T03:04" ∧ b.display = "2024-01-02T03:04:00" ∧
        a.order b = byteOrder a.display b.display ∧ a.order b = .lt) := by
  obtain ⟨hDates, hDateTimes⟩ :=
    order_eq_byteOrder_of_tokens "2024-2-9, 2024-1-2 3:4" "2024-2-10, 2024-1-2 3:4:0"
  constructor
  · have ht : (⟨.date ⟨2024, 2, 9⟩, ⟨.origin, ⟨1, 9⟩⟩, "2024-2-9"⟩ : Token) ∈
        tokenize "2024-2-9, 2024-1-2 3:4" := by decide +kernel
    have ht' : (⟨.date ⟨2024, 2, 10⟩, ⟨.origin, ⟨1, 10⟩⟩, "2024-2-10"⟩ : Token) ∈
        tokenize "2024-2-10, 2024-1-2 3:4:0" := by decide +kernel
    exact ⟨_, ht, _, ht', _, _, rfl, rfl, by decide +kernel, by decide +kernel,
      hDates _ ht _ ht' _ _ rfl rfl, by decide⟩
  · have ht : (⟨.dateTime ⟨⟨2024, 1, 2⟩, 3, 4, none, none⟩, ⟨⟨1, 11⟩, ⟨1, 23⟩⟩,
        "2024-1-2 3:4"⟩ : Token) ∈ tokenize "2024-2-9, 2024-1-2 3:4" := by decide +kernel
    have ht' : (⟨.dateTime ⟨⟨2024, 1, 2⟩, 3, 4, some 0, none⟩, ⟨⟨1, 12⟩, ⟨1, 26⟩⟩,
        "2024-1-2 3:4:0"⟩ : Token) ∈ tokenize "2024-2-10, 2024-1-2 3:4:0" := by decide +kernel
    exact ⟨_, ht, _, ht', _, _, rfl, rfl, by decide +kernel, by decide +kernel,
      hDateTimes _ ht _ ht' _ _ rfl rfl, by decide⟩

end Outline
