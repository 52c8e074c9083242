import Outline.Proofs.Decimal
import Outline.Proofs.Pattern.Derivatives
import Outline.Value.Json
import Outline.Value.JsonReader

/-! # The lexemes of written JSON

Each piece that a writer puts down is one lexeme for the reader, whatever follows: a string ends
with its closing quote, and a number ends before a character that no number holds. Blanks may stand
between any two pieces.
-/
namespace Outline.Json
set_option autoImplicit false
open Pattern (char oneOf plus seqs alts times Unique Apart)

def wordSize : Nat := 0x10000000000000000

/-- The lexemes of a text without blanks. -/
def significant? (text : List Char) : Option (List Lexeme) :=
  (lexemes? text).map (·.filter (!isBlank ·))

theorem significant?_nil : significant? [] = some [] := by
  simp [significant?, lexemes?]

/-- The lexeme of a rule whose longest match ends where the front part of a text ends, if no rule
before it can start with the first character. -/
theorem lexeme?_append {i : Nat} {rule : Pattern × (List Char → Lexeme)}
    (hRule : rules[i]? = some rule) {c : Char}
    (hBefore : ∀ r ∈ rules.take i, r.1.mayStart c = false) {front rest : List Char}
    (hFront : front.head? = some c) (h : rule.1.longest? (front ++ rest) = some front.length) :
    lexeme? (front ++ rest) = some (rule.2 front, front.length) := by
  obtain ⟨tail, rfl⟩ := List.head?_eq_some_iff.mp hFront
  have hSplit : rules = rules.take i ++ rule :: rules.drop (i + 1) := by
    obtain ⟨hLt, rfl⟩ := List.getElem?_eq_some_iff.mp hRule
    rw [List.getElem_cons_drop, List.take_append_drop]
  have hNone : ((rules.take i).findSome? fun r => (r.1.longest? (c :: tail ++ rest)).map
      fun n => (r.2 ((c :: tail ++ rest).take n), n)) = none := by
    rw [List.findSome?_eq_none_iff]
    intro r hr
    have hNullable := rules_not_nullable r (List.mem_of_mem_take hr)
    rw [List.cons_append, Pattern.longest?_eq_none hNullable (hBefore r hr)]
    rfl
  rw [lexeme?, hSplit, List.findSome?_append, hNone, Option.none_or, List.findSome?_cons, h,
    Option.map_some, List.take_left]

theorem lexeme?_nil : lexeme? [] = none := by
  rw [lexeme?, List.findSome?_eq_none_iff]
  intro r hr
  rw [Pattern.longest?_nil, rules_not_nullable r hr]
  rfl

theorem lexemes?_eq {text : List Char} {lexeme : Lexeme} {n : Nat}
    (h : lexeme? text = some (lexeme, n)) :
    lexemes? text = (lexemes? (text.drop n)).map (lexeme :: ·) := by
  have hText : text ≠ [] := by
    rintro rfl
    rw [lexeme?_nil] at h
    cases h
  rw [lexemes?, dif_neg hText]
  split <;> simp_all

theorem significant?_append {front rest : List Char} {lexeme : Lexeme}
    (h : lexeme? (front ++ rest) = some (lexeme, front.length)) (hBlank : isBlank lexeme = false) :
    significant? (front ++ rest) = (significant? rest).map (lexeme :: ·) := by
  rw [significant?, lexemes?_eq h, List.drop_left, significant?]
  simp [Function.comp_def, hBlank]

def isBlankChar (c : Char) : Bool := [' ', '\t', '\n', '\r'].contains c

theorem significant?_dropWhile (text : List Char) :
    significant? (text.dropWhile isBlankChar) = significant? text := by
  have hSplit : text.takeWhile isBlankChar ++ text.dropWhile isBlankChar = text :=
    List.takeWhile_append_dropWhile
  rcases hRun : text.takeWhile isBlankChar with _ | ⟨c, run⟩
  · rw [hRun, List.nil_append] at hSplit
    rw [hSplit]
  · rw [hRun] at hSplit
    have hBlanks : ∀ d ∈ c :: run, isBlankChar d = true := by
      intro d hd
      rw [← hRun] at hd
      exact List.all_eq_true.mp List.all_takeWhile d hd
    have hMatches : (plus (oneOf [' ', '\t', '\n', '\r'])).Matches (c :: run) :=
      Pattern.matches_plus_one_iff.mpr ⟨by simp, hBlanks⟩
    have hEnds : ∀ d ∈ (text.dropWhile isBlankChar).head?,
        (plus (oneOf [' ', '\t', '\n', '\r'])).mayHold d = false := by
      intro d hd
      have hOther := List.head?_dropWhile_not isBlankChar text
      rw [Option.mem_def.mp hd] at hOther
      simpa [plus, oneOf, Pattern.mayHold, isBlankChar] using hOther
    have hLongest := Pattern.longest?_append hMatches hEnds
    have hText := lexemes?_eq (lexeme?_append (i := 0) rfl (by simp) rfl hLongest)
    rw [List.drop_left, hSplit] at hText
    rw [significant?, significant?, hText]
    simp [Function.comp_def, isBlank]

theorem significant?_blanks {blanks : List Char} (h : ∀ c ∈ blanks, isBlankChar c = true)
    (rest : List Char) : significant? (blanks ++ rest) = significant? rest := by
  rw [← significant?_dropWhile, List.dropWhile_append_of_pos h, significant?_dropWhile]

/-- A mark is a lexeme of one character. -/
theorem significant?_mark (i : Nat) {x : Char} {lexeme : Lexeme}
    (hRule : rules[i]? = some (char x, fun _ => lexeme))
    (hBefore : ∀ r ∈ rules.take i, r.1.mayStart x = false) (hBlank : isBlank lexeme = false)
    (rest : List Char) : significant? (x :: rest) = (significant? rest).map (lexeme :: ·) := by
  have hMatches : (char x).Matches [x] := .one (by simp)
  have hLongest := (Pattern.unique_one _).longest?_eq hMatches rest
  have hLexeme : lexeme? ([x] ++ rest) = some (lexeme, [x].length) :=
    lexeme?_append hRule hBefore rfl hLongest
  exact significant?_append hLexeme hBlank

theorem significant?_openList (rest : List Char) :
    significant? ('[' :: rest) = (significant? rest).map (.openList :: ·) :=
  significant?_mark 1 rfl (by decide) rfl rest

theorem significant?_closeList (rest : List Char) :
    significant? (']' :: rest) = (significant? rest).map (.closeList :: ·) :=
  significant?_mark 2 rfl (by decide) rfl rest

theorem significant?_openRecord (rest : List Char) :
    significant? ('{' :: rest) = (significant? rest).map (.openRecord :: ·) :=
  significant?_mark 3 rfl (by decide) rfl rest

theorem significant?_closeRecord (rest : List Char) :
    significant? ('}' :: rest) = (significant? rest).map (.closeRecord :: ·) :=
  significant?_mark 4 rfl (by decide) rfl rest

theorem significant?_comma (rest : List Char) :
    significant? (',' :: rest) = (significant? rest).map (.comma :: ·) :=
  significant?_mark 5 rfl (by decide) rfl rest

theorem significant?_colon (rest : List Char) :
    significant? (':' :: rest) = (significant? rest).map (.colon :: ·) :=
  significant?_mark 6 rfl (by decide) rfl rest

/-- No number goes on with the characters that follow. -/
def EndsNumber (rest : List Char) : Prop := ∀ c ∈ rest.head?, numberPattern.mayHold c = false

def naturalPattern : Pattern :=
  .alt (char '0') (.seq (.one fun c => c.isDigit && c != '0') (.star digit))

theorem matches_number {digits : List Char} (h : naturalPattern.Matches digits) :
    numberPattern.Matches digits := by
  rw [← List.append_nil digits, ← List.nil_append (digits ++ [])]
  exact .seq (.altRight .empty) (.seq h (.seq (s := []) (.altRight .empty) (.altRight .empty)))

theorem matches_toDigits (n : Nat) : naturalPattern.Matches (Nat.toDigits 10 n) := by
  rcases Nat.eq_zero_or_pos n with rfl | hPos
  · decide
  · obtain ⟨d, digits, hDigits, hd, hZero⟩ := Decimal.toDigits_eq_cons n
    have hRest : ∀ c ∈ digits, c.isDigit = true := by
      intro c hc
      exact Decimal.isDigit_of_mem_toDigits c (hDigits ▸ List.mem_cons_of_mem _ hc)
    have hFirst : ∀ d < 10, d ≠ 0 →
        ((Nat.digitChar d).isDigit && Nat.digitChar d != '0') = true := by decide
    rw [hDigits]
    refine .altRight (.seq (s := [Nat.digitChar d]) (.one (hFirst d hd ?_))
      (Pattern.matches_star_one_iff.mpr hRest))
    intro h
    have hNone := hZero h
    omega

theorem numberOf_toDigits {n : Nat} (h : n < wordSize) :
    numberOf (Nat.toDigits 10 n) = .natural n := by
  have hDigits : (Nat.toDigits 10 n).all Char.isDigit = true :=
    List.all_eq_true.mpr Decimal.isDigit_of_mem_toDigits
  have hBound : n < 0x10000000000000000 := h
  rw [numberOf, Decimal.value_toDigits, hDigits]
  simp [hBound]

theorem significant?_natural {n : Nat} (h : n < wordSize) {rest : List Char}
    (hRest : EndsNumber rest) :
    significant? (Nat.toDigits 10 n ++ rest) = (significant? rest).map (.natural n :: ·) := by
  have hLongest := Pattern.longest?_append (matches_number (matches_toDigits n)) hRest
  obtain ⟨d, digits, hDigits, hd, -⟩ := Decimal.toDigits_eq_cons n
  have hBefore : ∀ d < 10, ∀ r ∈ rules.take 8, r.1.mayStart (Nat.digitChar d) = false := by decide
  have hLexeme : lexeme? (Nat.toDigits 10 n ++ rest) =
      some (numberOf (Nat.toDigits 10 n), (Nat.toDigits 10 n).length) :=
    lexeme?_append rfl (hBefore d hd) (by rw [hDigits]; rfl) hLongest
  rw [numberOf_toDigits h] at hLexeme
  exact significant?_append hLexeme rfl

def stringPart : Pattern :=
  alts
    [.one fun c => 0x20 ≤ c.toNat && c != '"' && c != '\\',
      seqs [char '\\', oneOf ['"', '\\', '/', 'b', 'f', 'n', 'r', 't']],
      seqs [char '\\', char 'u', times (.one isHexDigit) 4]]

theorem stringPattern_eq : stringPattern = seqs [char '"', .star stringPart, char '"'] := rfl

/-- Two escapes that start alike differ behind the backslash. -/
theorem unique_stringPart : Unique stringPart := by
  have hLetters : Apart (oneOf ['"', '\\', '/', 'b', 'f', 'n', 'r', 't'])
      (.seq (char 'u') (times (.one isHexDigit) 4)) := by
    refine ⟨rfl, rfl, ?_⟩
    intro c hLetter hUnicode
    obtain rfl : c = 'u' := by simpa [char, Pattern.mayStart, Pattern.nullable] using hUnicode
    exact absurd hLetter (by decide)
  have hPlain : Apart (.one fun c => 0x20 ≤ c.toNat && c != '"' && c != '\\')
      (.alt (.seq (char '\\') (oneOf ['"', '\\', '/', 'b', 'f', 'n', 'r', 't']))
        (.seq (char '\\') (.seq (char 'u') (times (.one isHexDigit) 4)))) := by
    refine ⟨rfl, rfl, ?_⟩
    intro c hPlain hEscape
    obtain rfl : c = '\\' := by simpa [char, Pattern.mayStart, Pattern.nullable] using hEscape
    exact absurd hPlain (by decide)
  have hUnicode := Pattern.unique_seq (Pattern.unique_one (· == 'u'))
    (Pattern.unique_times (Pattern.unique_one isHexDigit) 4)
  have hEscapes := Pattern.unique_alt_seq (Pattern.unique_one (· == '\\')) (Pattern.unique_one _)
    hUnicode hLetters
  exact Pattern.unique_alt (Pattern.unique_one _) hEscapes hPlain

theorem unique_stringPattern : Unique stringPattern := by
  have hEnds : ∀ c, stringPart.mayStart c = true → ¬ (char '"').mayStart c = true := by
    intro c hPart hQuote
    obtain rfl : c = '"' := by simpa [char, Pattern.mayStart] using hQuote
    exact absurd hPart (by decide)
  have hBehind := (Pattern.handover_star unique_stringPart hEnds).unique_seq
    (Pattern.unique_one _) rfl
  rw [stringPattern_eq]
  exact Pattern.unique_seq (Pattern.unique_one _) hBehind

/-- The characters with an escape of their own, and its second character. -/
def shortEscapes : List (Char × Char) :=
  [('"', '"'), ('\\', '\\'), ('\x08', 'b'), ('\t', 't'), ('\n', 'n'), ('\x0c', 'f'), ('\r', 'r')]

theorem escape_cases (c : Char) :
    (escape c = [c] ∧ 0x20 ≤ c.toNat ∧ c ≠ '"' ∧ c ≠ '\\') ∨
      (∃ x, (c, x) ∈ shortEscapes ∧ escape c = ['\\', x]) ∨
      c.toNat < 0x20 ∧ escape c =
        ['\\', 'u', '0', '0', Nat.digitChar (c.toNat / 16), Nat.digitChar (c.toNat % 16)] := by
  unfold escape
  split
  · exact .inr (.inl ⟨'"', by decide, rfl⟩)
  · exact .inr (.inl ⟨'\\', by decide, rfl⟩)
  · exact .inr (.inl ⟨'b', by decide, rfl⟩)
  · exact .inr (.inl ⟨'t', by decide, rfl⟩)
  · exact .inr (.inl ⟨'n', by decide, rfl⟩)
  · exact .inr (.inl ⟨'f', by decide, rfl⟩)
  · exact .inr (.inl ⟨'r', by decide, rfl⟩)
  · rename_i hQuote hBackslash _ _ _ _ _
    split
    · rename_i hControl
      exact .inr (.inr ⟨hControl, rfl⟩)
    · rename_i hPlain
      exact .inl ⟨rfl, Nat.le_of_not_lt hPlain, hQuote, hBackslash⟩

theorem matches_escape (c : Char) : stringPart.Matches (escape c) := by
  rcases escape_cases c with ⟨hEscape, hPlain, hQuote, hBackslash⟩ | ⟨x, hShort, hEscape⟩ |
    ⟨hControl, hEscape⟩
  · rw [hEscape]
    exact .altLeft (.one (by simp [hPlain, hQuote, hBackslash]))
  · have hAll : ∀ pair ∈ shortEscapes, stringPart.Matches ['\\', pair.2] := by decide
    rw [hEscape]
    exact hAll _ hShort
  · have hAll : ∀ n < 0x20, stringPart.Matches
        ['\\', 'u', '0', '0', Nat.digitChar (n / 16), Nat.digitChar (n % 16)] := by decide
    rw [hEscape]
    exact hAll _ hControl

theorem matches_quote (s : String) : stringPattern.Matches (quote s) := by
  have hInside : ∀ chars : List Char, (Pattern.star stringPart).Matches (chars.flatMap escape) := by
    intro chars
    induction chars with
    | nil => exact .starNil
    | cons c chars ih => exact .starCons (matches_escape c) ih
  have hQuote : (char '"').Matches ['"'] := .one rfl
  have hWhole := Pattern.Matches.seq hQuote (.seq (hInside s.toList) hQuote)
  rwa [← List.append_assoc] at hWhole

theorem units_escape (c : Char) (rest : List Char) :
    units (escape c ++ rest) = c.toNat :: units rest := by
  rcases escape_cases c with ⟨hEscape, -, -, hBackslash⟩ | ⟨x, hShort, hEscape⟩ |
    ⟨hControl, hEscape⟩
  · rw [hEscape]
    simp [units, hBackslash]
  · have hAll : ∀ pair ∈ shortEscapes,
        units ('\\' :: pair.2 :: rest) = pair.1.toNat :: units rest := by
      simp [shortEscapes, units]
    rw [hEscape]
    exact hAll _ hShort
  · have hValue : ∀ n < 0x20, ((hexValue '0' * 16 + hexValue '0') * 16 +
        hexValue (Nat.digitChar (n / 16))) * 16 + hexValue (Nat.digitChar (n % 16)) = n := by decide
    rw [hEscape]
    simp only [List.cons_append, List.nil_append, units, hValue _ hControl]

theorem ofUnits?_toNat (s : List Char) : ofUnits? (s.map Char.toNat) = some s := by
  have hWhole : ∀ c : Char, isHighHalf c.toNat = false ∧ isLowHalf c.toNat = false := by
    intro c
    have hValid : c.toNat < 0xd800 ∨ 0xdfff < c.toNat ∧ c.toNat < 0x110000 := c.valid
    simp only [isHighHalf, isLowHalf, Bool.and_eq_false_iff, decide_eq_false_iff_not]
    omega
  induction s with
  | nil => rfl
  | cons c s ih =>
    obtain ⟨hHigh, hLow⟩ := hWhole c
    cases s with
    | nil => simp [ofUnits?, hHigh, hLow]
    | cons d s =>
      rw [List.map_cons] at ih
      rw [List.map_cons, List.map_cons, ofUnits?, hHigh, hLow, ih]
      simp

theorem textOf_quote (s : String) : textOf (quote s) = .text (some s) := by
  have hUnits : ∀ chars : List Char, units (chars.flatMap escape) = chars.map Char.toNat := by
    intro chars
    induction chars with
    | nil => rfl
    | cons c chars ih => rw [List.flatMap_cons, units_escape, ih, List.map_cons]
  have hInside : ((quote s).drop 1).dropLast = s.toList.flatMap escape := by
    simp [quote]
  rw [textOf, hInside, hUnits, ofUnits?_toNat, Option.map_some, String.ofList_toList]

theorem significant?_text (s : String) (rest : List Char) :
    significant? (quote s ++ rest) = (significant? rest).map (.text (some s) :: ·) := by
  have hLongest := unique_stringPattern.longest?_eq (matches_quote s) rest
  have hLexeme : lexeme? (quote s ++ rest) = some (textOf (quote s), (quote s).length) :=
    lexeme?_append (i := 7) (c := '"') rfl (by decide) rfl hLongest
  rw [textOf_quote] at hLexeme
  exact significant?_append hLexeme rfl

end Outline.Json
