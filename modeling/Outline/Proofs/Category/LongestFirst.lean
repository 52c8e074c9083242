import Outline.Category
import Outline.Proofs.Pattern.LongestFirst

/-! # Every category takes its longest match

The patterns of the categories, one after the other. The search for a match is the same for all;
what differs is why no match of a part has to be given up for the parts behind it.
-/
namespace Outline.Category
set_option autoImplicit false
open Pattern hiding optional

theorem longestFirst_digitRun : LongestFirst digitRun :=
  longestFirst_seq (longestFirst_one _) (longestFirst_star (unique_one _))
    ((unique_one _).handover _)

theorem longestFirst_sign : LongestFirst sign := longestFirst_optional (longestFirst_one _)

theorem handover_sign {q : Pattern}
    (h : ∀ c, q.mayStart c = true → c.isDigit = true ∨ c = '.') : Handover sign q := by
  apply handover_of_characters
  intro c hSign hStart
  have hc : c = '+' ∨ c = '-' := by
    simpa [sign, Pattern.optional, oneOf, mayHold] using hSign
  rcases hc with rfl | rfl <;> exact absurd (h _ hStart) (by decide)

theorem handover_digitRun {q : Pattern} (h : ∀ c, q.mayStart c = true → c ∈ ['.']) :
    Handover digitRun q :=
  handover_of_starts ['.'] h (by decide)

/-- Digits and a point go further than the digits alone. -/
theorem dominates_digitRun {q : Pattern} (h : ∀ c, q.mayStart c = true → c ∈ ['.'])
    (hq : q.nullable = false) : Dominates (.seq digitRun q) digitRun := by
  intro s n m hn hm
  exact ⟨n, hn, Nat.le_of_lt ((handover_digitRun h).lt hq hn hm)⟩

theorem isDigit_ne_point {c : Char} (h : c.isDigit = true) : c ≠ '.' := by
  rintro rfl
  exact absurd h (by decide)

theorem mayStart_digitRun (c : Char) : digitRun.mayStart c = c.isDigit := by
  simp [digitRun, digit, mayStart, nullable]

theorem apart_digitRun_point (p q : Pattern) :
    Apart (.seq digitRun p) (.seq (char '.') q) := by
  refine ⟨rfl, rfl, ?_⟩
  intro c hDigit hPoint
  refine isDigit_ne_point ?_ (by simpa [char, mayStart, nullable] using hPoint)
  simpa [mayStart, mayStart_digitRun, show digitRun.nullable = false from rfl] using hDigit

theorem apart_point_digitRun (q : Pattern) : Apart (.seq (char '.') q) digitRun := by
  refine ⟨rfl, rfl, ?_⟩
  intro c hPoint hDigit
  rw [mayStart_digitRun] at hDigit
  exact isDigit_ne_point hDigit (by simpa [char, mayStart, nullable] using hPoint)

def mantissa : Pattern :=
  alts [seqs [digitRun, char '.', digitRun], seqs [digitRun, char '.'],
    seqs [char '.', digitRun], digitRun]

theorem longestFirst_mantissa : LongestFirst mantissa := by
  have hPoint : ∀ c, (char '.').mayStart c = true → c ∈ ['.'] := by simp [char, mayStart]
  have hFraction : ∀ c, (Pattern.seq (char '.') digitRun).mayStart c = true → c ∈ ['.'] := by
    simp [char, mayStart, nullable]
  have hBehindPoint : LongestFirst (.seq (char '.') digitRun) :=
    longestFirst_seq (longestFirst_one _) longestFirst_digitRun ((unique_one _).handover _)
  refine longestFirst_alt (longestFirst_seq longestFirst_digitRun hBehindPoint
    (handover_digitRun hFraction)) ?_ ?_
  · refine longestFirst_alt (longestFirst_seq longestFirst_digitRun (longestFirst_one _)
      (handover_digitRun hPoint)) ?_ ?_
    · exact longestFirst_alt hBehindPoint longestFirst_digitRun (apart_point_digitRun _).dominates
    · intro s n m hn hm
      rcases mem_ways_alt.mp hm with hm | hm
      · exact (apart_digitRun_point _ _).dominates s n m hn hm
      · exact dominates_digitRun hPoint rfl s n m hn hm
  · intro s n m hn hm
    rcases mem_ways_alt.mp hm with hm | hm
    · -- Digits and a point: the digits are fewer than the match, so the point is no more than it.
      obtain ⟨a, ha, k, hk, rfl⟩ := mem_ways_seq.mp hm
      have hLt := (handover_digitRun hFraction).lt rfl hn ha
      have hOne : k = 1 := eq_one_of_mem_ways hk
      exact ⟨n, hn, by omega⟩
    rcases mem_ways_alt.mp hm with hm | hm
    · exact (apart_digitRun_point _ _).dominates s n m hn hm
    · exact dominates_digitRun hFraction rfl s n m hn hm

theorem longestFirst_exponent :
    LongestFirst (seqs [oneOf ['e', 'E'], sign, digitRun]) := by
  refine longestFirst_seq (longestFirst_one _) ?_ ((unique_one _).handover _)
  refine longestFirst_seq longestFirst_sign longestFirst_digitRun (handover_sign ?_)
  intro c h
  exact .inl ((mayStart_digitRun c).symm.trans h)

theorem longestFirst_numberPattern : LongestFirst numberPattern := by
  have hExponent : ∀ c, (seqs [oneOf ['e', 'E'], sign, digitRun]).optional.mayStart c = true →
      c ∈ ['e', 'E'] := by
    simp [oneOf, seqs, Pattern.optional, mayStart, nullable]
  refine longestFirst_seq longestFirst_sign ?_ (handover_sign ?_)
  · exact longestFirst_seq longestFirst_mantissa (longestFirst_optional longestFirst_exponent)
      (handover_of_starts ['e', 'E'] hExponent (by decide))
  · intro c h
    have hStart : c.isDigit = true ∨ c = '.' ∨ c.isDigit = true := by
      simpa [mayStart, mayStart_digitRun, alts, seqs, char, nullable,
        show digitRun.nullable = false from rfl] using h
    rcases hStart with h | h | h
    · exact .inl h
    · exact .inr h
    · exact .inl h

theorem longestFirst_percentage : LongestFirst (pattern .percentage) :=
  longestFirst_seq (longestFirst_optional longestFirst_numberPattern) (longestFirst_one _)
    (handover_of_starts ['%'] (by simp [char, mayStart]) (by decide))

theorem longestFirst_upTo_digit (n : Nat) : LongestFirst (digit.upTo n) := by
  induction n with
  | zero => exact longestFirst_empty
  | succ n ih =>
    exact longestFirst_optional
      (longestFirst_seq (longestFirst_one _) ih ((unique_one _).handover _))

theorem longestFirst_oneUpTo_digit (n : Nat) : LongestFirst (digit.oneUpTo n) :=
  longestFirst_seq (longestFirst_one _) (longestFirst_upTo_digit n) ((unique_one _).handover _)

theorem longestFirst_component {separator : Char} {q : Pattern} (hq : LongestFirst q)
    (h : (digit.oneUpTo 1).mayHold separator = false) :
    LongestFirst (.seq (digit.oneUpTo 1) (.seq (char separator) q)) := by
  refine longestFirst_seq (longestFirst_oneUpTo_digit 1) ?_ ?_
  · exact longestFirst_seq (longestFirst_one _) hq ((unique_one _).handover _)
  · exact handover_of_starts [separator] (by simp [char, mayStart, nullable]) (by simpa using h)

theorem longestFirst_datePattern : LongestFirst datePattern := by
  have hYear : Unique (digit.times 4) := unique_times (unique_one _) 4
  refine longestFirst_seq hYear.longestFirst ?_ (hYear.handover _)
  refine longestFirst_seq (longestFirst_one _) ?_ ((unique_one _).handover _)
  exact longestFirst_component (longestFirst_oneUpTo_digit 1) (by decide)

theorem longestFirst_seconds :
    LongestFirst (seqs [char ':', digit.oneUpTo 1,
      (seqs [char '.', digit.oneUpTo 2]).optional]) := by
  refine longestFirst_seq (longestFirst_one _) ?_ ((unique_one _).handover _)
  refine longestFirst_seq (longestFirst_oneUpTo_digit 1) (longestFirst_optional ?_) ?_
  · exact longestFirst_seq (longestFirst_one _) (longestFirst_oneUpTo_digit 2)
      ((unique_one _).handover _)
  · exact handover_of_starts ['.'] (by simp [char, seqs, Pattern.optional, mayStart, nullable])
      (by decide)

theorem longestFirst_dateTimePattern : LongestFirst dateTimePattern := by
  refine longestFirst_seq longestFirst_datePattern ?_
    (handover_of_starts [' '] (by simp [char, seqs, mayStart, nullable]) (by decide))
  refine longestFirst_seq (longestFirst_one _) ?_ ((unique_one _).handover _)
  refine longestFirst_component ?_ (by decide)
  refine longestFirst_seq (longestFirst_oneUpTo_digit 1)
    (longestFirst_optional longestFirst_seconds) ?_
  exact handover_of_starts [':'] (by simp [char, seqs, Pattern.optional, mayStart, nullable])
    (by decide)

/-- The text of a string is a run of escapes and plain characters, which only one way of reading
gives, and a quote is neither; so no closing quote can be passed over. -/
theorem longestFirst_stringPattern (quote : Quote) :
    LongestFirst (stringPattern quote.char) := by
  have hEscape : quote.char ≠ '\\' := by cases quote <;> decide
  have hInner : Unique (.alt (seqs [char '\\', .one (· != '\n')])
      (.one fun c => c != '\\' && c != quote.char)) := by
    refine unique_alt (unique_seq (unique_one _) (unique_one _)) (unique_one _) ⟨rfl, rfl, ?_⟩
    intro c hBackslash
    simp_all [char, seqs, mayStart, nullable]
  refine longestFirst_seq (longestFirst_one _) ?_ ((unique_one _).handover _)
  refine longestFirst_seq (longestFirst_star hInner) (longestFirst_one _)
    (handover_star hInner ?_)
  intro c hStart hQuote
  have hc : c = quote.char := by simpa [char, seqs, mayStart] using hQuote
  subst hc
  simp [char, seqs, mayStart, nullable, hEscape] at hStart

theorem longestFirst_comment : LongestFirst (pattern .comment) := by
  refine longestFirst_seq (longestFirst_star (unique_one _)) ?_
    (handover_of_starts ['/'] (by simp [char, seqs, mayStart, nullable]) (by decide))
  refine longestFirst_seq (longestFirst_one _) ?_ ((unique_one _).handover _)
  exact longestFirst_seq (longestFirst_one _) (longestFirst_star (unique_one _))
    ((unique_one _).handover _)

theorem longestFirst_run (first others : Char → Bool) :
    LongestFirst (.seq (.one first) (.star (.one others))) :=
  longestFirst_seq (longestFirst_one _) (longestFirst_star (unique_one _))
    ((unique_one _).handover _)

theorem longestFirst_pattern (c : Category) : LongestFirst c.pattern := by
  cases c with
  | comment => exact longestFirst_comment
  | dateTime => exact longestFirst_dateTimePattern
  | date => exact longestFirst_datePattern
  | identity => exact longestFirst_run _ _
  | string quote => exact longestFirst_stringPattern quote
  | percentage => exact longestFirst_percentage
  | number => exact longestFirst_numberPattern
  | newline => exact longestFirst_run _ _
  | space => exact longestFirst_run _ _
  | symbol => exact longestFirst_run _ _
  | opening => exact longestFirst_one _
  | closing => exact longestFirst_one _
  | comma => exact longestFirst_one _
  | arrow => exact (unique_seq (unique_one _) (unique_one _)).longestFirst

/-- A category takes the longest text of its language at the front of a text. -/
theorem match?_eq_some_iff {c : Category} {text : List Char} {n : Nat} :
    c.match? text = some n ↔
      (n ≤ text.length ∧ c.pattern.Matches (text.take n)) ∧
        ∀ m, m ≤ text.length → c.pattern.Matches (text.take m) → m ≤ n :=
  (longestFirst_pattern c).preferred?_eq_some_iff

theorem match?_eq_none_iff {c : Category} {text : List Char} :
    c.match? text = none ↔ ∀ n, n ≤ text.length → ¬ c.pattern.Matches (text.take n) :=
  preferred?_eq_none_iff

end Outline.Category
