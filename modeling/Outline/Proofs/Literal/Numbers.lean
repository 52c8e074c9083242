import Mathlib.Data.List.Induction
import Mathlib.Data.Nat.Digits.Defs
import Outline.Literal
import Outline.Proofs.Category.LongestFirst
import Outline.Proofs.Decimal
import Outline.Proofs.Pattern.Languages

/-! # Numbers

What the text of a number denotes. Without its separators it is a sign, digits with at most one point
among them and perhaps an exponent, and each of these parts is read as it stands. So a number is an
integer if it has neither point nor exponent and fits, and otherwise a float that is some number.
-/
namespace Outline.Literal
set_option autoImplicit false
open Pattern (matches_seq_iff matches_alt_iff matches_one_iff matches_char_iff
  matches_empty_iff)

theorem withoutSeparators_append (s t : List Char) :
    withoutSeparators (s ++ t) = withoutSeparators s ++ withoutSeparators t := List.filter_append ..

theorem mem_withoutSeparators {c : Char} (hc : c ≠ '_') {s : List Char} :
    c ∈ withoutSeparators s ↔ c ∈ s := by
  simp [withoutSeparators, isSeparator, hc]

/-- Some digits and nothing else. -/
def IsDigits (s : List Char) : Prop := s ≠ [] ∧ ∀ c ∈ s, c.isDigit = true

def IsSign (s : List Char) : Prop := s = [] ∨ s = ['+'] ∨ s = ['-']

theorem withoutSeparators_sign {s : List Char} (h : IsSign s) : withoutSeparators s = s := by
  rcases h with rfl | rfl | rfl <;> rfl

theorem isSign_of_matches {s : List Char} (h : Category.sign.Matches s) : IsSign s := by
  rcases matches_alt_iff.mp h with hSome | hNone
  · obtain ⟨c, rfl, hc⟩ := matches_one_iff.mp hSome
    have hEither : c = '+' ∨ c = '-' := by simpa using hc
    rcases hEither with rfl | rfl
    · exact .inr (.inl rfl)
    · exact .inr (.inr rfl)
  · exact .inl (matches_empty_iff.mp hNone)

theorem isDigits_withoutSeparators {s : List Char} (h : Category.digitRun.Matches s) :
    IsDigits (withoutSeparators s) := by
  obtain ⟨a, b, rfl, hFirst, hRest⟩ := matches_seq_iff.mp h
  obtain ⟨c, rfl, hc⟩ := matches_one_iff.mp hFirst
  have hKeep : isSeparator c = false := by
    rw [isSeparator, beq_eq_false_iff_ne]
    rintro rfl
    cases hc
  have hDigits : ∀ d ∈ withoutSeparators b, d.isDigit = true := by
    intro d hd
    obtain ⟨hMem, hSeparator⟩ := List.mem_filter.mp hd
    have hEither := Pattern.matches_star_one_iff.mp hRest d hMem
    simp_all [isSeparator]
  have hSplit : withoutSeparators ([c] ++ b) = c :: withoutSeparators b := by
    simp [withoutSeparators, hKeep]
  rw [hSplit]
  exact ⟨by simp, List.forall_mem_cons.mpr ⟨hc, hDigits⟩⟩

def pointed : Option (List Char) → List Char
  | none => []
  | some fraction => '.' :: fraction

/-- The parts of a number whose separators are taken out. The exponent is whatever can be read as
one. -/
structure Numeral where
  sign : List Char
  whole : List Char
  fraction : Option (List Char)
  exponent : List Char
  isSign : IsSign sign
  isDigits : IsDigits (whole ++ fraction.getD [])
  reads : (Double.readExponent? exponent).isSome = true

namespace Numeral

def magnitude (n : Numeral) : List Char := n.whole ++ (pointed n.fraction ++ n.exponent)

def text (n : Numeral) : List Char := n.sign ++ n.magnitude

theorem isDigit_of_mem_whole (n : Numeral) : ∀ c ∈ n.whole, c.isDigit = true := by
  intro c hc
  exact n.isDigits.2 c (List.mem_append_left _ hc)

theorem isDigit_of_mem_fraction (n : Numeral) {fraction : List Char}
    (h : n.fraction = some fraction) : ∀ c ∈ fraction, c.isDigit = true := by
  intro c hc
  refine n.isDigits.2 c (List.mem_append_right _ ?_)
  rw [h]
  exact hc

theorem head?_exponent (n : Numeral) : ∀ c ∈ n.exponent.head?, c = 'e' ∨ c = 'E' := by
  have hReads := n.reads
  rcases h : n.exponent with _ | ⟨mark, rest⟩
  · simp
  · rw [h, Double.readExponent?] at hReads
    by_cases hMark : mark = 'e' ∨ mark = 'E'
    · simpa using hMark
    · simp [hMark] at hReads

theorem head?_magnitude (n : Numeral) :
    ∃ c, n.magnitude.head? = some c ∧ (c.isDigit = true ∨ c = '.') := by
  obtain ⟨hSome, hDigits⟩ := n.isDigits
  rw [magnitude]
  rcases hWhole : n.whole with _ | ⟨c, whole⟩
  · rcases hFraction : n.fraction with _ | fraction
    · simp [hWhole, hFraction] at hSome
    · exact ⟨'.', rfl, .inr rfl⟩
  · refine ⟨c, rfl, .inl (n.isDigit_of_mem_whole c ?_)⟩
    rw [hWhole]
    exact List.mem_cons_self

end Numeral

theorem exists_mantissa {s : List Char} (h : Category.mantissa.Matches s) :
    ∃ whole fraction, withoutSeparators s = whole ++ pointed fraction ∧
      IsDigits (whole ++ fraction.getD []) := by
  have hPoint (t : List Char) : withoutSeparators ('.' :: t) = '.' :: withoutSeparators t := rfl
  rcases matches_alt_iff.mp h with hBoth | h
  · obtain ⟨a, b, rfl, ha, hb⟩ := matches_seq_iff.mp hBoth
    obtain ⟨_, c, rfl, hDot, hc⟩ := matches_seq_iff.mp hb
    obtain rfl := matches_char_iff.mp hDot
    refine ⟨withoutSeparators a, some (withoutSeparators c), ?_, ?_⟩
    · rw [withoutSeparators_append, List.singleton_append, hPoint, pointed]
    · obtain ⟨hSome, hDigits⟩ := isDigits_withoutSeparators ha
      exact ⟨by simp [hSome], List.forall_mem_append.mpr
        ⟨hDigits, (isDigits_withoutSeparators hc).2⟩⟩
  rcases matches_alt_iff.mp h with hTrailing | h
  · obtain ⟨a, _, rfl, ha, hDot⟩ := matches_seq_iff.mp hTrailing
    obtain rfl := matches_char_iff.mp hDot
    refine ⟨withoutSeparators a, some [], ?_, ?_⟩
    · rw [withoutSeparators_append]
      rfl
    · simpa using isDigits_withoutSeparators ha
  rcases matches_alt_iff.mp h with hLeading | hPlain
  · obtain ⟨_, c, rfl, hDot, hc⟩ := matches_seq_iff.mp hLeading
    obtain rfl := matches_char_iff.mp hDot
    refine ⟨[], some (withoutSeparators c), ?_, ?_⟩
    · rw [List.singleton_append, hPoint, List.nil_append, pointed]
    · simpa using isDigits_withoutSeparators hc
  · refine ⟨withoutSeparators s, none, ?_, ?_⟩
    · rw [pointed, List.append_nil]
    · simpa using isDigits_withoutSeparators hPlain

theorem takeSign_append {s t : List Char} (hs : IsSign s)
    (ht : ∀ c ∈ t.head?, c ≠ '+' ∧ c ≠ '-') :
    Double.takeSign (s ++ t) = (decide (s = ['-']), t) := by
  rcases hs with rfl | rfl | rfl
  · rw [List.nil_append, Double.takeSign.eq_def]
    split
    · simp at ht
    · simp at ht
    · rfl
  · rfl
  · rfl

theorem isDigit_ne_sign {c : Char} (h : c.isDigit = true) : c ≠ '+' ∧ c ≠ '-' := by
  constructor <;> rintro rfl <;> cases h

theorem IsDigits.head?_ne_sign {s : List Char} (h : IsDigits s) :
    ∀ c ∈ s.head?, c ≠ '+' ∧ c ≠ '-' := by
  intro c hc
  exact isDigit_ne_sign (h.2 c (List.mem_of_mem_head? hc))

theorem isSome_readExponent? {s : List Char}
    (h : (Pattern.seqs [.oneOf ['e', 'E'], Category.sign, Category.digitRun]).optional.Matches s) :
    (Double.readExponent? (withoutSeparators s)).isSome = true := by
  rcases matches_alt_iff.mp h with hSome | hNone
  · obtain ⟨mark, rest, rfl, hMark, hRest⟩ := matches_seq_iff.mp hSome
    obtain ⟨sign, digits, rfl, hSign, hDigits⟩ := matches_seq_iff.mp hRest
    obtain ⟨c, rfl, hc⟩ := matches_one_iff.mp hMark
    have hEither : c = 'e' ∨ c = 'E' := by simpa using hc
    have hKeep : withoutSeparators [c] = [c] := by rcases hEither with rfl | rfl <;> rfl
    have hRun := isDigits_withoutSeparators hDigits
    rw [withoutSeparators_append, withoutSeparators_append, hKeep,
      withoutSeparators_sign (isSign_of_matches hSign), List.singleton_append,
      Double.readExponent?, takeSign_append (isSign_of_matches hSign) hRun.head?_ne_sign]
    have hAll : (withoutSeparators digits).all Char.isDigit = true :=
      List.all_eq_true.mpr hRun.2
    simp [hEither, hRun.1, hAll]
  · rw [matches_empty_iff.mp hNone]
    rfl

/-- Separators stand behind the sign, and without them a number falls into its parts. -/
theorem exists_numeral {s : List Char} (h : Category.numberPattern.Matches s) :
    ∃ n : Numeral, ∃ rest, s = n.sign ++ rest ∧ withoutSeparators rest = n.magnitude := by
  obtain ⟨sign, rest, rfl, hSign, hRest⟩ := matches_seq_iff.mp h
  obtain ⟨mantissa, exponent, rfl, hMantissa, hExponent⟩ := matches_seq_iff.mp hRest
  obtain ⟨whole, fraction, hParts, hDigits⟩ := exists_mantissa hMantissa
  refine ⟨⟨sign, whole, fraction, withoutSeparators exponent, isSign_of_matches hSign, hDigits,
    isSome_readExponent? hExponent⟩, mantissa ++ exponent, rfl, ?_⟩
  rw [withoutSeparators_append, hParts, Numeral.magnitude, List.append_assoc]

theorem ofRatio_ne_nan (negative : Bool) (num den : Nat) :
    Double.ofRatio negative num den ≠ .nan := by
  unfold Double.ofRatio
  generalize Magnitude.round? num den = rounded
  cases rounded with
  | none => simp
  | some m => simp

theorem ofDecimal_ne_nan (negative : Bool) (coefficient : Nat) (exponent : Int) :
    Double.ofDecimal negative coefficient exponent ≠ .nan := by
  simp only [Double.ofDecimal]
  split_ifs
  · simp
  · simp
  · simp
  · exact ofRatio_ne_nan _ _ _
  · exact ofRatio_ne_nan _ _ _

theorem hundredth_ne_nan {d : Double} (h : d ≠ .nan) : d.hundredth ≠ .nan := by
  cases d with
  | nan => exact absurd rfl h
  | infinite negative => simp [Double.hundredth]
  | finite negative m => exact ofRatio_ne_nan _ _ _

theorem takeWhile_digits_append {s t : List Char} (hs : ∀ c ∈ s, c.isDigit = true)
    (ht : ∀ c ∈ t.head?, c.isDigit = false) :
    (s ++ t).takeWhile Char.isDigit = s ∧ (s ++ t).dropWhile Char.isDigit = t := by
  rw [List.takeWhile_append_of_pos hs, List.dropWhile_append_of_pos hs]
  cases t with
  | nil => simp
  | cons c t =>
    have hc : c.isDigit = false := ht c rfl
    simp [hc]

theorem toLower_of_isDigit {c : Char} (h : c.isDigit = true) : c.toLower = c := by
  have hDigit : 48 ≤ c.toNat ∧ c.toNat ≤ 57 := by
    simpa [Char.isDigit, UInt32.le_iff_toNat_le] using h
  have hOther : ¬ (c.val ≥ 'A'.val ∧ c.val ≤ 'Z'.val) := by
    simp only [ge_iff_le, UInt32.le_iff_toNat_le]
    change ¬ (65 ≤ c.toNat ∧ c.toNat ≤ 90)
    omega
  exact dif_neg hOther

namespace Numeral

theorem readDecimal?_magnitude (n : Numeral) (negative : Bool) : ∃ coefficient exponent,
    Double.readDecimal? negative n.magnitude =
      some (Double.ofDecimal negative coefficient exponent) := by
  obtain ⟨exponent, hExponent⟩ := Option.isSome_iff_exists.mp n.reads
  have hMark : ∀ c ∈ n.exponent.head?, c.isDigit = false := by
    intro c hc
    rcases n.head?_exponent c hc with rfl | rfl <;> rfl
  refine ⟨Decimal.value (n.whole ++ n.fraction.getD []),
    exponent - (n.fraction.getD []).length, ?_⟩
  have hSome := n.isDigits.1
  rw [magnitude, Double.readDecimal?]
  cases hFraction : n.fraction with
  | none =>
    have hWhole := takeWhile_digits_append n.isDigit_of_mem_whole hMark
    rw [hFraction] at hSome
    rw [pointed, List.nil_append, hWhole.1, hWhole.2]
    -- An exponent does not start with a point.
    have hPoint : ∀ rest, n.exponent ≠ '.' :: rest := by
      intro rest hEqual
      have hEither := n.head?_exponent '.' (by rw [hEqual]; rfl)
      simp at hEither
    split
    simp_all
  | some fraction =>
    have hPoint : ∀ c ∈ ('.' :: (fraction ++ n.exponent)).head?, c.isDigit = false := by simp
    have hWhole := takeWhile_digits_append n.isDigit_of_mem_whole hPoint
    have hRest := takeWhile_digits_append (n.isDigit_of_mem_fraction hFraction) hMark
    rw [hFraction] at hSome
    rw [pointed, List.cons_append, hWhole.1, hWhole.2]
    simp_all

theorem head?_magnitude_ne_sign (n : Numeral) :
    ∀ c ∈ n.magnitude.head?, c ≠ '+' ∧ c ≠ '-' := by
  obtain ⟨d, hHead, hd⟩ := n.head?_magnitude
  intro c hc
  obtain rfl : d = c := by simpa [hHead] using hc
  rcases hd with hDigit | rfl
  · exact isDigit_ne_sign hDigit
  · decide

theorem read?_text (n : Numeral) : ∃ d, Double.read? n.text = some d ∧ d ≠ .nan := by
  obtain ⟨c, hHead, hc⟩ := n.head?_magnitude
  obtain ⟨rest, hMagnitude⟩ := List.head?_eq_some_iff.mp hHead
  obtain ⟨coefficient, exponent, hRead⟩ := n.readDecimal?_magnitude (decide (n.sign = ['-']))
  -- Neither word starts with a digit or a point.
  have hWord : c.toLower ≠ 'i' ∧ c.toLower ≠ 'n' := by
    rcases hc with hDigit | rfl
    · rw [toLower_of_isDigit hDigit]
      constructor <;> rintro rfl <;> cases hDigit
    · decide
  refine ⟨.ofDecimal (decide (n.sign = ['-'])) coefficient exponent, ?_, ofDecimal_ne_nan _ _ _⟩
  rw [Double.read?, text, takeSign_append n.isSign n.head?_magnitude_ne_sign, ← hRead,
    hMagnitude]
  simp [hWord]

end Numeral

theorem float_withoutSeparators_ne_nan {s : List Char} (h : Category.numberPattern.Matches s) :
    float (withoutSeparators s) ≠ .nan := by
  obtain ⟨n, rest, rfl, hRest⟩ := exists_numeral h
  obtain ⟨d, hRead, hd⟩ := n.read?_text
  rw [withoutSeparators_append, withoutSeparators_sign n.isSign, hRest, float,
    ← Numeral.text, hRead]
  exact hd

theorem number_ne_nan {s : List Char} (h : Category.number.pattern.Matches s) :
    number s ≠ .float .nan := by
  rw [number]
  split
  · simp
  · simpa using float_withoutSeparators_ne_nan h

theorem exists_float_of_ne_integer {s : List Char} (h : Category.number.pattern.Matches s)
    (hOther : ∀ v, number s ≠ .integer v) : ∃ d, number s = .float d ∧ d ≠ .nan := by
  have hNan := number_ne_nan h
  rw [number] at hOther hNan ⊢
  split
  · rename_i v hInteger
    exact absurd (by rw [hInteger]) (hOther v)
  · rename_i hFloat
    rw [hFloat] at hNan
    exact ⟨_, rfl, fun hd => hNan (congrArg _ hd)⟩

theorem percentage_ne_nan {s : List Char} (h : Category.percentage.pattern.Matches s) :
    percentage s ≠ .percentage .nan := by
  obtain ⟨front, sign, rfl, hFront, hSign⟩ := matches_seq_iff.mp h
  obtain rfl := matches_char_iff.mp hSign
  have hNone : ∀ c ∈ front.reverse.head?, (c == '%') = false := by
    intro c hc
    have hMem : c ∈ front := List.mem_reverse.mp (List.mem_of_mem_head? hc)
    rw [beq_eq_false_iff_ne]
    rintro rfl
    exact absurd (Pattern.mayHold_of_matches hFront hMem) (by decide)
  have hNumber : ((front ++ ['%']).reverse.dropWhile (· == '%')).reverse = front := by
    rw [List.reverse_append, List.reverse_singleton, List.singleton_append,
      List.dropWhile_cons_of_pos rfl]
    cases hReverse : front.reverse with
    | nil => simpa using hReverse.symm
    | cons c rest =>
      rw [hReverse] at hNone
      rw [List.dropWhile_cons_of_neg (by simp [hNone c rfl]), ← hReverse, List.reverse_reverse]
  rw [percentage, hNumber]
  rcases matches_alt_iff.mp hFront with hSome | hEmpty
  · split
    · simp [Double.zero]
    · simpa using hundredth_ne_nan (float_withoutSeparators_ne_nan hSome)
  · rw [matches_empty_iff.mp hEmpty]
    simp [withoutSeparators, Double.zero]

/-- The natural number that the digits of a text spell. -/
def naturalOf (text : List Char) : Nat :=
  Nat.ofDigits 10 ((text.filter Char.isDigit).map Decimal.digitValue).reverse

/-- The integer that a sign and digits denote. -/
def exactInteger (text : List Char) : Int :=
  if text.head? = some '-' then -naturalOf text else naturalOf text

theorem value_eq_ofDigits (digits : List Char) :
    Decimal.value digits = Nat.ofDigits 10 (digits.map Decimal.digitValue).reverse := by
  induction digits using List.reverseRecOn with
  | nil => rfl
  | append_singleton digits c ih =>
    rw [Decimal.value_concat, ih, List.map_append, List.reverse_append]
    simp [Nat.ofDigits_cons, Nat.add_comm]

theorem filter_isDigit_withoutSeparators (s : List Char) :
    (withoutSeparators s).filter Char.isDigit = s.filter Char.isDigit := by
  rw [withoutSeparators, List.filter_filter]
  apply List.filter_congr
  intro c _
  cases hc : c.isDigit with
  | false => rfl
  | true =>
    rw [Bool.true_and, Bool.not_eq_true', isSeparator, beq_eq_false_iff_ne]
    rintro rfl
    cases hc

theorem exactInteger_append {sign rest digits : List Char} (hSign : IsSign sign)
    (hRest : withoutSeparators rest = digits) (hDigits : IsDigits digits) :
    exactInteger (sign ++ rest) =
      if sign = ['-'] then -(Decimal.value digits : Int) else Decimal.value digits := by
  have hFilter : rest.filter Char.isDigit = digits := by
    rw [← filter_isDigit_withoutSeparators, hRest]
    exact List.filter_eq_self.mpr hDigits.2
  have hNatural : naturalOf (sign ++ rest) = Decimal.value digits := by
    have hNone : sign.filter Char.isDigit = [] := by rcases hSign with rfl | rfl | rfl <;> rfl
    rw [naturalOf, List.filter_append, hNone, List.nil_append, hFilter, value_eq_ofDigits]
  have hMinus : (sign ++ rest).head? = some '-' ↔ sign = ['-'] := by
    rcases hSign with rfl | rfl | rfl
    · -- Without a sign there is no minus anywhere.
      have hNone : '-' ∉ rest := by
        rw [← mem_withoutSeparators (by decide), hRest]
        intro hMem
        exact (isDigit_ne_sign (hDigits.2 _ hMem)).2 rfl
      simp only [List.nil_append, List.ne_cons_self, iff_false]
      intro hHead
      exact hNone (List.mem_of_mem_head? hHead)
    · simp
    · simp
  simp only [exactInteger, hNatural, hMinus]

theorem integer?_append {sign digits : List Char} (hSign : IsSign sign) (hDigits : IsDigits digits)
    (v : Int) : integer? (sign ++ digits) = some v ↔
      (if sign = ['-'] then -(Decimal.value digits : Int) else Decimal.value digits) = v ∧
        -0x8000000000000000 ≤ v ∧ v ≤ 0x7fffffffffffffff := by
  have hAll : digits.all Char.isDigit = true := List.all_eq_true.mpr hDigits.2
  rw [integer?, takeSign_append hSign hDigits.head?_ne_sign]
  simp only [hDigits.1, hAll, ne_eq, not_false_eq_true, and_self, if_true, decide_eq_true_eq]
  generalize (if sign = ['-'] then -(Decimal.value digits : Int) else Decimal.value digits) = value
  rw [Option.ite_none_right_eq_some, Option.some_inj]
  constructor
  · rintro ⟨⟨hLow, hHigh⟩, rfl⟩
    exact ⟨rfl, hLow, by omega⟩
  · rintro ⟨rfl, hLow, hHigh⟩
    exact ⟨⟨hLow, by omega⟩, rfl⟩

theorem hasFractionOrExponent_iff {s : List Char} :
    hasFractionOrExponent (withoutSeparators s) = true ↔ '.' ∈ s ∨ 'e' ∈ s ∨ 'E' ∈ s := by
  have hAny : hasFractionOrExponent (withoutSeparators s) = true ↔
      '.' ∈ withoutSeparators s ∨ 'e' ∈ withoutSeparators s ∨ 'E' ∈ withoutSeparators s := by
    simp only [hasFractionOrExponent, List.any_eq_true, Bool.or_eq_true, beq_iff_eq]
    constructor
    · rintro ⟨c, hMem, (rfl | rfl) | rfl⟩
      · exact .inl hMem
      · exact .inr (.inl hMem)
      · exact .inr (.inr hMem)
    · rintro (hMem | hMem | hMem)
      · exact ⟨_, hMem, .inl (.inl rfl)⟩
      · exact ⟨_, hMem, .inl (.inr rfl)⟩
      · exact ⟨_, hMem, .inr rfl⟩
  rw [hAny, mem_withoutSeparators (by decide), mem_withoutSeparators (by decide),
    mem_withoutSeparators (by decide)]

theorem Numeral.magnitude_eq_whole {n : Numeral} (h : hasFractionOrExponent n.text = false) :
    n.magnitude = n.whole ∧ IsDigits n.whole := by
  have hNone : ∀ c ∈ n.text, (c == '.' || c == 'e' || c == 'E') = false := by
    intro c hc
    exact Bool.eq_false_iff.mpr (List.any_eq_false.mp h c hc)
  have hFraction : n.fraction = none := by
    cases hFraction : n.fraction with
    | none => rfl
    | some fraction =>
      have hMem : '.' ∈ n.text := by simp [text, magnitude, hFraction, pointed]
      exact absurd (hNone _ hMem) (by decide)
  have hExponent : n.exponent = [] := by
    cases hExponent : n.exponent with
    | nil => rfl
    | cons c rest =>
      have hMem : c ∈ n.text := by simp [text, magnitude, hExponent]
      have hMark := n.head?_exponent c (by rw [hExponent]; rfl)
      rcases hMark with rfl | rfl <;> exact absurd (hNone _ hMem) (by decide)
  have hDigits := n.isDigits
  rw [hFraction, Option.getD_none, List.append_nil] at hDigits
  rw [magnitude, hFraction, hExponent, pointed, List.append_nil, List.append_nil]
  exact ⟨rfl, hDigits⟩

theorem number_eq_integer_iff {s : List Char} (h : Category.number.pattern.Matches s) (v : Int) :
    number s = .integer v ↔ ('.' ∉ s ∧ 'e' ∉ s ∧ 'E' ∉ s) ∧
      exactInteger s = v ∧ -0x8000000000000000 ≤ v ∧ v ≤ 0x7fffffffffffffff := by
  rw [← not_or, ← not_or, ← hasFractionOrExponent_iff, number]
  cases hPlain : hasFractionOrExponent (withoutSeparators s) with
  | true => simp
  | false =>
    obtain ⟨n, rest, rfl, hRest⟩ := exists_numeral h
    have hClean : withoutSeparators (n.sign ++ rest) = n.text := by
      rw [withoutSeparators_append, withoutSeparators_sign n.isSign, hRest, Numeral.text]
    rw [hClean] at hPlain
    obtain ⟨hWhole, hDigits⟩ := Numeral.magnitude_eq_whole hPlain
    rw [hWhole] at hRest
    rw [exactInteger_append n.isSign hRest hDigits, ← integer?_append n.isSign hDigits, hClean,
      Numeral.text, hWhole]
    cases integer? (n.sign ++ n.whole) <;> simp

theorem isDigits_toDigits (n : Nat) : IsDigits (Nat.toDigits 10 n) := by
  refine ⟨?_, Decimal.isDigit_of_mem_toDigits⟩
  obtain ⟨d, digits, hDigits, -⟩ := Decimal.toDigits_eq_cons n
  simp [hDigits]

theorem matches_digitRun {s : List Char} (h : IsDigits s) : Category.digitRun.Matches s := by
  obtain ⟨hSome, hDigits⟩ := h
  obtain ⟨c, rest, rfl⟩ := List.exists_cons_of_ne_nil hSome
  obtain ⟨hFirst, hRest⟩ := List.forall_mem_cons.mp hDigits
  refine .seq (s := [c]) (.one hFirst) (Pattern.matches_star_one_iff.mpr ?_)
  intro d hd
  rw [hRest d hd]
  rfl

theorem matches_sign {s : List Char} (h : IsSign s) : Category.sign.Matches s := by
  rcases h with rfl | rfl | rfl
  · exact .altRight .empty
  · exact .altLeft (.one rfl)
  · exact .altLeft (.one rfl)

theorem matches_number {sign digits : List Char} (hSign : IsSign sign) (hDigits : IsDigits digits) :
    Category.number.pattern.Matches (sign ++ digits) := by
  have hMantissa : Category.mantissa.Matches digits :=
    .altRight (.altRight (.altRight (matches_digitRun hDigits)))
  rw [← List.append_nil digits]
  exact .seq (matches_sign hSign) (.seq hMantissa (.altRight .empty))

theorem not_mem_signed {sign digits : List Char} (hSign : IsSign sign) (hDigits : IsDigits digits)
    {c : Char} (hDigit : c.isDigit = false) (hMark : c ≠ '+' ∧ c ≠ '-') : c ∉ sign ++ digits := by
  rw [List.mem_append, not_or]
  constructor
  · rcases hSign with rfl | rfl | rfl <;> simp [hMark]
  · intro hMem
    rw [hDigits.2 c hMem] at hDigit
    cases hDigit

theorem number_eq_integer {sign digits : List Char} (hSign : IsSign sign)
    (hDigits : IsDigits digits) {v : Int}
    (hValue : (if sign = ['-'] then -(Decimal.value digits : Int) else Decimal.value digits) = v)
    (hLow : -0x8000000000000000 ≤ v) (hHigh : v ≤ 0x7fffffffffffffff) :
    number (sign ++ digits) = .integer v := by
  have hClean : withoutSeparators digits = digits := by
    apply List.filter_eq_self.mpr
    intro c hc
    rw [Bool.not_eq_true', isSeparator, beq_eq_false_iff_ne]
    rintro rfl
    cases hDigits.2 '_' hc
  rw [number_eq_integer_iff (matches_number hSign hDigits),
    exactInteger_append hSign hClean hDigits]
  refine ⟨⟨?_, ?_, ?_⟩, hValue, hLow, hHigh⟩
  · exact not_mem_signed hSign hDigits rfl (by decide)
  · exact not_mem_signed hSign hDigits rfl (by decide)
  · exact not_mem_signed hSign hDigits rfl (by decide)

end Outline.Literal
