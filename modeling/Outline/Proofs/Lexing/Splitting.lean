import Outline.Proofs.Lexing.Tiling

/-! # Lexing a text in two parts

A text may be cut in two wherever one of its tokens ends, and nowhere else: the tokens of the parts
are those of the whole, the second part moved behind the first. No category looks beyond its match,
so what is cut off at the end cannot change the tokens before it, and no token depends on what was
passed before it except for its position.
-/
namespace Outline
set_option autoImplicit false

/-- The position in a text that stands behind `rows` whole rows and `columns` more characters. -/
def Position.shift (rows columns : Nat) (p : Position) : Position where
  row := p.row + rows
  column := if p.row = 1 then p.column + columns else p.column

def Token.shift (rows columns : Nat) (t : Token) : Token :=
  { t with span := ⟨t.span.start.shift rows columns, t.span.stop.shift rows columns⟩ }

namespace Position
variable {p : Position}

theorem after_shift (h : 0 < p.row) (rows columns : Nat) (c : Char) :
    (p.after c).shift rows columns = (p.shift rows columns).after c ∧ 0 < (p.after c).row := by
  by_cases hBreak : c = '\n'
  · have hRow : p.row + 1 ≠ 1 := by omega
    simp only [after, hBreak, if_true, shift, if_neg hRow]
    exact ⟨by rw [Nat.add_right_comm], Nat.succ_pos _⟩
  · simp only [after, hBreak, if_false, shift]
    refine ⟨?_, h⟩
    split
    · rw [Nat.add_right_comm]
    · rfl

theorem advance_shift (h : 0 < p.row) (rows columns : Nat) (s : List Char) :
    (p.advance s).shift rows columns = (p.shift rows columns).advance s ∧
      0 < (p.advance s).row := by
  induction s generalizing p with
  | nil => exact ⟨rfl, h⟩
  | cons c s ih =>
    obtain ⟨hAfter, hRow⟩ := after_shift h rows columns c
    rw [advance_cons, advance_cons, ← hAfter]
    exact ih hRow

end Position

theorem Lexes.shift {p : Position} {text : List Char} {tokens : List Token}
    (h : Lexes p text tokens) (hRow : 0 < p.row) (rows columns : Nat) :
    Lexes (p.shift rows columns) text (tokens.map (Token.shift rows columns)) := by
  induction h with
  | nil => exact .nil
  | @cons p text n content tokens hCut _ ih =>
    obtain ⟨hShift, hNext⟩ := Position.advance_shift hRow rows columns (text.take n)
    have hRest := ih hNext
    rw [hShift] at hRest
    rw [List.map_cons, Token.shift]
    simp only [hShift]
    exact .cons hCut hRest

namespace Category
variable {text : List Char} {c : Category} {n k : Nat}

theorem takes_take : c.Takes (text.take k) n ↔ c.Takes text n ∧ n ≤ k := by
  simp only [Takes, List.length_take, Nat.le_min]
  constructor
  · rintro ⟨⟨hPart, hLength⟩, hMatches⟩
    rw [List.take_take, Nat.min_eq_left hPart] at hMatches
    exact ⟨⟨hLength, hMatches⟩, hPart⟩
  · rintro ⟨⟨hLength, hMatches⟩, hPart⟩
    rw [List.take_take, Nat.min_eq_left hPart]
    exact ⟨⟨hPart, hLength⟩, hMatches⟩

theorem Chosen.take (h : Chosen text c n) (hPart : n ≤ k) : Chosen (text.take k) c n := by
  obtain ⟨⟨before, after, hAll, hBefore⟩, hTakes, hLongest⟩ := h
  refine ⟨⟨before, after, hAll, ?_⟩, takes_take.mpr ⟨hTakes, hPart⟩, ?_⟩
  · intro d hd m hMatch
    exact hBefore d hd m (takes_take.mp hMatch).1
  · intro m hMatch
    exact hLongest m (takes_take.mp hMatch).1

theorem Unscannable.take {q : Nat} (h : Unscannable text q) (hPart : q ≤ k) :
    Unscannable (text.take k) q := by
  refine ⟨?_, ?_⟩
  · rw [List.length_take]
    exact Nat.le_min.mpr ⟨hPart, h.1⟩
  · intro i hi c n hMatch
    rw [List.drop_take, takes_take] at hMatch
    exact h.2 i hi c n hMatch.1

/-- The token at the front of a text is still there in a front part of it that ends with this token
or holds the next one too. -/
theorem Cut.take {content : List Char → Content} (h : Cut text n content)
    (hPart : k = n ∨ ∃ m next, Cut (text.drop n) m next ∧ n + m ≤ k) :
    Cut (text.take k) n content := by
  have hReaches : n ≤ k := by
    rcases hPart with rfl | ⟨m, _, _, hLe⟩
    · exact Nat.le_refl _
    · omega
  cases h with
  | token hChosen => exact .token (hChosen.take hReaches)
  | @beforeWhitespace _ length c hPos hGap hChosen hWhitespace =>
    rcases hPart with rfl | ⟨m, next, hNext, hLe⟩
    · -- The whitespace is cut off, and the unscannable characters now reach to the end.
      have hLength : (text.take k).length = k := by
        rw [List.length_take]
        exact Nat.min_eq_left hGap.1
      have hEnd : Cut (text.take k) (text.take k).length fun _ => .error .unexpectedToken := by
        apply Cut.untilEnd
        · rwa [hLength]
        · rw [hLength]
          exact hGap.take (Nat.le_refl k)
      rwa [hLength] at hEnd
    · have hEq : (length, c.content) = (m, next) :=
        (Cut.token hChosen).eq_cut.trans hNext.eq_cut.symm
      have hInside : length ≤ k - n := by
        cases hEq
        omega
      have hBehind := hChosen.take hInside
      rw [← List.drop_take] at hBehind
      exact .beforeWhitespace hPos (hGap.take hReaches) hBehind hWhitespace
  | untilEnd hPos hGap =>
    rw [List.take_of_length_le hReaches]
    exact .untilEnd hPos hGap
  | @withMatch q length _ hPos hGap hChosen hWhitespace =>
    have hGapPart : q ≤ k := by omega
    have hInside : length ≤ k - q := by omega
    have hBehind := hChosen.take hInside
    rw [← List.drop_take] at hBehind
    exact .withMatch hPos (hGap.take hGapPart) hBehind hWhitespace

end Category

namespace Lexes
variable {p : Position} {text : List Char}

theorem exists_cut {t : Token} {tokens : List Token} (h : Lexes p text (t :: tokens)) :
    ∃ n content, Category.Cut text n content ∧
      t = ⟨content (text.take n), ⟨p, p.advance (text.take n)⟩, String.ofList (text.take n)⟩ ∧
      t.text.toList.length = n ∧ Lexes (p.advance (text.take n)) (text.drop n) tokens := by
  cases h with
  | @cons _ _ n content _ hCut hRest =>
    refine ⟨n, content, hCut, rfl, ?_, hRest⟩
    rw [String.toList_ofList, List.length_take, Nat.min_eq_left hCut.le_length]

theorem take {before behind : List Token} (h : Lexes p text (before ++ behind)) :
    Lexes p (text.take (Token.joinedText before).toList.length) before := by
  induction before generalizing p text with
  | nil => exact .nil
  | cons t before ih =>
    obtain ⟨n, content, hCut, rfl, hLength, hRest⟩ := exists_cut h
    rw [Token.joinedText_cons, String.toList_append, List.length_append, hLength]
    generalize hBefore : (Token.joinedText before).toList.length = length
    have hPart : Category.Cut (text.take (n + length)) n content := by
      apply hCut.take
      cases before with
      | nil =>
        subst hBefore
        exact .inl rfl
      | cons u before =>
        obtain ⟨m, next, hNext, -, hNextLength, -⟩ := exists_cut hRest
        rw [Token.joinedText_cons, String.toList_append, List.length_append, hNextLength]
          at hBefore
        exact .inr ⟨m, next, hNext, by omega⟩
    have hFront : (text.take (n + length)).take n = text.take n := by
      rw [List.take_take, Nat.min_eq_left (Nat.le_add_right n length)]
    have hBack : (text.take (n + length)).drop n = (text.drop n).take length := by
      rw [List.drop_take, Nat.add_sub_cancel_left]
    have hTail := ih hRest
    rw [hBefore, ← hBack, ← hFront] at hTail
    have hWhole := Lexes.cons hPart hTail
    rwa [hFront] at hWhole

theorem drop {before behind : List Token} (h : Lexes p text (before ++ behind)) :
    Lexes (p.advance (Token.joinedText before).toList)
      (text.drop (Token.joinedText before).toList.length) behind := by
  induction before generalizing p text with
  | nil => exact h
  | cons t before ih =>
    obtain ⟨n, content, -, rfl, hLength, hRest⟩ := exists_cut h
    have hTail := ih hRest
    rw [List.drop_drop] at hTail
    rw [Token.joinedText_cons, String.toList_append, Position.advance_append, List.length_append,
      hLength, String.toList_ofList]
    exact hTail

end Lexes

theorem foldLineEnds_eq_self {text : List Char} (h : ¬ ['\r', '\n'] <:+: text) :
    foldLineEnds text = text := by
  fun_induction foldLineEnds text with
  | case1 rest _ => exact absurd ⟨[], rest, rfl⟩ h
  | case2 c rest _ ih =>
    rw [ih]
    intro hRest
    exact h (hRest.trans (List.suffix_cons c rest).isInfix)
  | case3 => rfl

def sourceUpTo (source : String) (k : Nat) : String := String.ofList (source.toList.take k)

def sourceFrom (source : String) (k : Nat) : String := String.ofList (source.toList.drop k)

/-- Some token of the source ends at the offset, or it is the start of the source. -/
def IsBoundary (source : String) (k : Nat) : Prop :=
  ∃ before behind, tokenize source = before ++ behind ∧
    (Token.joinedText before).toList.length = k

theorem lexes_tokenize_ofList {text : List Char} (h : ¬ ['\r', '\n'] <:+: text) :
    Lexes .origin text (tokenize (String.ofList text)) := by
  have hLexes := lexes_tokenize (String.ofList text)
  rwa [normalizeLineEnds, String.toList_ofList, String.toList_ofList, foldLineEnds_eq_self h]
    at hLexes

theorem tokenize_eq_singleton {source : String} {c : Category}
    (h : Category.Chosen source.toList c source.toList.length) (hBreak : '\n' ∉ source.toList) :
    tokenize source =
      [⟨c.content source.toList, ⟨.origin, ⟨1, 1 + source.length⟩⟩, source⟩] := by
  have hEnd : Lexes (Position.origin.advance (source.toList.take source.toList.length))
      (source.toList.drop source.toList.length) [] := by
    rw [List.drop_length]
    exact .nil
  have hOne := Lexes.cons (.token h) hEnd
  rw [List.take_length, Position.advance_of_not_mem hBreak, String.length_toList,
    String.ofList_toList] at hOne
  have hLineEnds : ¬ ['\r', '\n'] <:+: source.toList := by
    intro hInfix
    exact hBreak (hInfix.subset (by simp))
  have hSource := lexes_tokenize_ofList hLineEnds
  rw [String.ofList_toList] at hSource
  exact hSource.eq hOne

theorem Position.origin_shift (text : List Char) :
    origin.shift (text.count '\n') (text.reverse.takeWhile (· ≠ '\n')).length =
      origin.advance text := by
  have h := origin_advance_take text text.length
  rw [List.take_length] at h
  rw [h]
  simp [shift, origin, ofOffset]

/-- The offsets at which a source without paired line ends can be lexed in two parts are those where
a token ends. The rows of the second part go on from those of the first, and its first row goes on
behind the characters that the first part leaves in the row. -/
theorem isBoundary_iff_tokenize_eq_append (source : String) (k : Nat)
    (hLineEnds : ¬ ['\r', '\n'] <:+: source.toList) :
    IsBoundary source k ↔ k ≤ source.toList.length ∧
      tokenize source = tokenize (sourceUpTo source k) ++
        (tokenize (sourceFrom source k)).map (Token.shift ((source.toList.take k).count '\n')
          ((source.toList.take k).reverse.takeWhile (· ≠ '\n')).length) := by
  have hWhole : Lexes .origin source.toList (tokenize source) := by
    have h := lexes_tokenize_ofList hLineEnds
    rwa [String.ofList_toList] at h
  have hFirst : Lexes .origin (source.toList.take k) (tokenize (sourceUpTo source k)) :=
    lexes_tokenize_ofList fun h => hLineEnds (h.trans (List.take_prefix k _).isInfix)
  have hSecond : Lexes .origin (source.toList.drop k) (tokenize (sourceFrom source k)) :=
    lexes_tokenize_ofList fun h => hLineEnds (h.trans (List.drop_suffix k _).isInfix)
  constructor
  · rintro ⟨before, behind, hTokens, hLength⟩
    rw [hTokens] at hWhole
    have hText := hWhole.joinedText_eq
    rw [Token.joinedText_append, String.toList_append] at hText
    have hFront : source.toList.take k = (Token.joinedText before).toList := by
      rw [← hText, ← hLength, List.take_left]
    refine ⟨?_, ?_⟩
    · rw [← hText, ← hLength, List.length_append]
      exact Nat.le_add_right _ _
    · have hTake := hWhole.take
      have hDrop := hWhole.drop
      have hMoved := hSecond.shift Nat.one_pos ((source.toList.take k).count '\n')
        ((source.toList.take k).reverse.takeWhile (· ≠ '\n')).length
      rw [hLength] at hTake hDrop
      rw [Position.origin_shift, hFront] at hMoved
      rw [hTokens, hTake.eq hFirst, hDrop.eq hMoved, hFront]
  · rintro ⟨hLength, hTokens⟩
    refine ⟨_, _, hTokens, ?_⟩
    rw [hFirst.joinedText_eq, List.length_take, Nat.min_eq_left hLength]

/-- Between an error and the whitespace that ends it, inside a row that is not the first. -/
theorem tokenize_eq_append_error_space :
    ¬ ['\r', '\n'] <:+: "a\n|| 'b\nc' d".toList ∧ IsBoundary "a\n|| 'b\nc' d" 4 ∧
      tokenize "a\n|| 'b\nc' d" = tokenize "a\n||" ++
        (tokenize " 'b\nc' d").map (Token.shift 1 2) := by
  have hLineEnds : ¬ ['\r', '\n'] <:+: "a\n|| 'b\nc' d".toList := by decide +kernel
  have hBoundary : IsBoundary "a\n|| 'b\nc' d" 4 :=
    ⟨(tokenize "a\n|| 'b\nc' d").take 3, (tokenize "a\n|| 'b\nc' d").drop 3,
      (List.take_append_drop 3 _).symm, by decide +kernel⟩
  exact ⟨hLineEnds, hBoundary, ((isBoundary_iff_tokenize_eq_append _ 4 hLineEnds).mp hBoundary).2⟩

end Outline
