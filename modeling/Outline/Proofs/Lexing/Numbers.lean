import Outline.Proofs.Decimal
import Outline.Proofs.Lexing.Rule
import Outline.Proofs.Lexing.Splitting
import Outline.Proofs.Literal.Numbers
import Outline.Proofs.Pattern.Derivatives

/-! # Numbers in a source

What the tokens of a source say about its numbers: a float is always some number, and the decimal
text of an integer of 64 bits is one token that holds this integer.
-/
namespace Outline
set_option autoImplicit false

variable {p : Position} {text : List Char} {tokens : List Token}

theorem Lexes.content_ne_nan (h : Lexes p text tokens) :
    ∀ t ∈ tokens, t.content ≠ .float .nan ∧ t.content ≠ .percentage .nan := by
  intro t ht
  rcases h.eq_error_or_matches t ht with hError | ⟨c, hMatches, hContent⟩
  · simp [hError]
  · rw [hContent]
    cases c with
    | number =>
      refine ⟨Literal.number_ne_nan hMatches, ?_⟩
      rw [Category.content, Literal.number]
      split <;> simp
    | percentage =>
      refine ⟨?_, Literal.percentage_ne_nan hMatches⟩
      simp [Category.content, Literal.percentage]
    | _ => simp [Category.content, Literal.date, Literal.dateTime]

namespace Category

theorem not_takes_of_mayStart {d : Category} {c : Char} (h : d.pattern.mayStart c = false)
    (rest : List Char) (m : Nat) : ¬ d.Takes (c :: rest) m := by
  rintro ⟨_, hMatches⟩
  cases m with
  | zero =>
    have hNullable := Pattern.nullable_of_matches hMatches rfl
    rw [pattern_not_nullable] at hNullable
    cases hNullable
  | succ m =>
    rw [List.take_succ_cons] at hMatches
    rw [Pattern.mayStart_of_matches hMatches rfl] at h
    cases h

theorem not_takes_of_not_mem {d : Category} {x : Char} (hx : x ∉ text)
    (h : ∀ s, d.pattern.Matches s → x ∈ s) (m : Nat) : ¬ d.Takes text m := by
  rintro ⟨_, hMatches⟩
  exact hx (List.mem_of_mem_take (h _ hMatches))

theorem mem_of_matches_separated {p q : Pattern} {x : Char} {s : List Char}
    (h : (Pattern.seq p (.seq (.char x) q)).Matches s) : x ∈ s := by
  obtain ⟨a, b, rfl, -, -⟩ := Pattern.matches_separated_iff.mp h
  simp

theorem mem_of_matches_percentage {s : List Char} (h : percentage.pattern.Matches s) :
    '%' ∈ s := by
  obtain ⟨a, b, rfl, -, hChar⟩ := Pattern.matches_seq_iff.mp h
  rw [Pattern.matches_char_iff.mp hChar]
  simp

def beforeNumbers : List Category :=
  [.comment, .dateTime, .date, .identity, .string .double, .string .single, .string .backtick]

/-- Digits, with or without a sign before them, are a number from end to end. -/
theorem chosen_number {sign : List Char} (hSign : Literal.IsSign sign) (n : Nat) :
    Chosen (sign ++ Nat.toDigits 10 n) .number (sign ++ Nat.toDigits 10 n).length := by
  have hDigits := Literal.isDigits_toDigits n
  have hPlus : ∀ c ∈ beforeNumbers, c.pattern.mayStart '+' = false := by decide
  have hMinus : ∀ c ∈ beforeNumbers, c.pattern.mayStart '-' = false := by decide
  have hPlain : ∀ d < 10, ∀ c ∈ beforeNumbers,
      c = dateTime ∨ c = date ∨ c.pattern.mayStart (Nat.digitChar d) = false := by decide
  have hBefore : ∀ c ∈ beforeNumbers, ∀ m, ¬ c.Takes (sign ++ Nat.toDigits 10 n) m := by
    intro c hc
    rcases hSign with rfl | rfl | rfl
    · obtain ⟨d, rest, hFirst, hd, -⟩ := Decimal.toDigits_eq_cons n
      rw [List.nil_append]
      rcases hPlain d hd c hc with rfl | rfl | hStart
      · -- The blank before the time.
        exact not_takes_of_not_mem (Decimal.not_mem_toDigits (c := ' ') rfl n)
          fun _ => mem_of_matches_separated
      · -- The dash behind the year.
        exact not_takes_of_not_mem (Decimal.not_mem_toDigits (c := '-') rfl n)
          fun _ => mem_of_matches_separated
      · rw [hFirst]
        exact not_takes_of_mayStart hStart rest
    · exact not_takes_of_mayStart (hPlus c hc) _
    · exact not_takes_of_mayStart (hMinus c hc) _
  refine ⟨⟨beforeNumbers ++ [.percentage], _, rfl, ?_⟩, ⟨Nat.le_refl _, ?_⟩, fun m hm => hm.1⟩
  · intro c hc
    rcases List.mem_append.mp hc with hc | hc
    · exact hBefore c hc
    · obtain rfl := List.mem_singleton.mp hc
      exact not_takes_of_not_mem (Literal.not_mem_signed hSign hDigits rfl (by decide))
        fun _ => mem_of_matches_percentage
  · rw [List.take_length]
    exact Literal.matches_number hSign hDigits

end Category

theorem exists_sign (v : Int) : ∃ sign, Literal.IsSign sign ∧
    (toString v).toList = sign ++ Nat.toDigits 10 v.natAbs ∧
    (if sign = ['-'] then -(v.natAbs : Int) else v.natAbs) = v := by
  rw [Decimal.toList_toString]
  by_cases hSign : v < 0
  · refine ⟨['-'], .inr (.inr rfl), by rw [if_pos hSign], ?_⟩
    rw [if_pos rfl]
    omega
  · refine ⟨[], .inl rfl, by rw [if_neg hSign], ?_⟩
    rw [if_neg (by simp)]
    omega

theorem tokenize_toString {v : Int} (hLow : -0x8000000000000000 ≤ v)
    (hHigh : v ≤ 0x7fffffffffffffff) :
    tokenize (toString v) =
      [⟨.integer v, ⟨.origin, ⟨1, 1 + (toString v).length⟩⟩, toString v⟩] := by
  obtain ⟨sign, hSign, hText, hValue⟩ := exists_sign v
  have hDigits := Literal.isDigits_toDigits v.natAbs
  have hBreak : '\n' ∉ sign ++ Nat.toDigits 10 v.natAbs :=
    Literal.not_mem_signed hSign hDigits rfl (by decide)
  have hContent : Literal.number (sign ++ Nat.toDigits 10 v.natAbs) = .integer v := by
    refine Literal.number_eq_integer hSign hDigits ?_ hLow hHigh
    rw [Decimal.value_toDigits, hValue]
  have hChosen := Category.chosen_number hSign v.natAbs
  rw [← hText] at hBreak hContent hChosen
  rw [tokenize_eq_singleton hChosen hBreak, Category.content, hContent]

/-- A number is an integer exactly if it has neither point nor exponent and its value has 64 bits,
and otherwise it is a float. No float and no percentage of a source is not-a-number, and the decimal
text of every integer of 64 bits is a single token with this value. -/
theorem number_eq_integer_iff_and_tokenize_toString :
    (∀ s, Category.number.pattern.Matches s →
      (∀ v, Literal.number s = .integer v ↔ ('.' ∉ s ∧ 'e' ∉ s ∧ 'E' ∉ s) ∧
        Literal.exactInteger s = v ∧ -0x8000000000000000 ≤ v ∧ v ≤ 0x7fffffffffffffff) ∧
      ((∀ v, Literal.number s ≠ .integer v) → ∃ d, Literal.number s = .float d ∧ d ≠ .nan)) ∧
    (∀ source, ∀ t ∈ tokenize source,
      t.content ≠ .float .nan ∧ t.content ≠ .percentage .nan) ∧
    (∀ v : Int, -0x8000000000000000 ≤ v → v ≤ 0x7fffffffffffffff →
      tokenize (toString v) =
        [⟨.integer v, ⟨.origin, ⟨1, 1 + (toString v).length⟩⟩, toString v⟩]) := by
  refine ⟨?_, ?_, ?_⟩
  · intro s h
    refine ⟨Literal.number_eq_integer_iff h, ?_⟩
    exact Literal.exists_float_of_ne_integer h
  · intro source
    exact (lexes_tokenize source).content_ne_nan
  · intro v
    exact tokenize_toString

theorem number_eq_integer_iff_and_tokenize_toString_limits :
    Literal.number "+9_223372036854775807".toList = .integer 0x7fffffffffffffff ∧
      (∃ d, Literal.number "9223372036854775808".toList = .float d ∧ d ≠ .nan) ∧
      (∀ t ∈ tokenize "+.5_e+1% %", t.content ≠ .float .nan ∧ t.content ≠ .percentage .nan) ∧
      tokenize (toString (-0x8000000000000000 : Int)) =
        [⟨.integer (-0x8000000000000000), ⟨.origin, ⟨1, 21⟩⟩, "-9223372036854775808"⟩] := by
  obtain ⟨hNumber, hNan, hText⟩ := number_eq_integer_iff_and_tokenize_toString
  refine ⟨?_, ?_, hNan _, ?_⟩
  · have hMatches : Category.number.pattern.Matches "+9_223372036854775807".toList := by
      decide +kernel
    exact ((hNumber _ hMatches).1 _).mpr (by decide +kernel)
  · have hMatches : Category.number.pattern.Matches "9223372036854775808".toList := by
      decide +kernel
    apply (hNumber _ hMatches).2
    intro v h
    obtain ⟨-, hExact, -, hHigh⟩ := ((hNumber _ hMatches).1 v).mp h
    have hValue : Literal.exactInteger "9223372036854775808".toList = 0x8000000000000000 := by
      decide +kernel
    omega
  · exact hText _ (by decide) (by decide)

end Outline
