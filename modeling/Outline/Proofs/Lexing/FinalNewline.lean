import Outline.Proofs.Lexing.LineStarts

/-! # A line feed behind a text

The tokens of a text do not change when a line feed is put behind it, except for the line break at
the end: it grows by one row, or appears. No other token ends with a line feed, and unscannable
characters end before it as they end before the end of the text.
-/
namespace Outline
set_option autoImplicit false

namespace Pattern

def mayEnd (c : Char) : Pattern → Bool
  | .never | .empty => false
  | .one accepts => accepts c
  | .seq p q => q.mayEnd c || q.nullable && p.mayEnd c
  | .alt p q => p.mayEnd c || q.mayEnd c
  | .star p => p.mayEnd c

theorem mayEnd_of_matches {p : Pattern} {t : List Char} (h : p.Matches t) {c : Char}
    {r : List Char} (ht : t = r ++ [c]) : p.mayEnd c = true := by
  induction h generalizing r with
  | empty => simp at ht
  | @one accepts d hAccepts =>
    obtain ⟨-, rfl⟩ : r = [] ∧ c = d := by
      simpa [List.append_eq_singleton_iff] using ht.symm
    exact hAccepts
  | @seq p q s t _ hSecond ihp ihq =>
    rcases List.eq_nil_or_concat t with rfl | ⟨u, d, rfl⟩
    · rw [List.append_nil] at ht
      simp [mayEnd, nullable_of_matches hSecond rfl, ihp ht]
    · rw [List.concat_eq_append, ← List.append_assoc] at ht
      obtain ⟨-, hLast⟩ := List.append_inj' ht rfl
      cases hLast
      simp [mayEnd, ihq List.concat_eq_append]
  | altLeft _ ih => simp [mayEnd, ih ht]
  | altRight _ ih => simp [mayEnd, ih ht]
  | starNil => simp at ht
  | @starCons p s t _ _ ihp ihq =>
    rcases List.eq_nil_or_concat t with rfl | ⟨u, d, rfl⟩
    · rw [List.append_nil] at ht
      exact ihp ht
    · rw [List.concat_eq_append, ← List.append_assoc] at ht
      obtain ⟨-, hLast⟩ := List.append_inj' ht rfl
      cases hLast
      exact ihq List.concat_eq_append

end Pattern

namespace Category
variable {text : List Char} {c : Category} {n : Nat} {content : List Char → Content}

theorem eq_newline_of_mayEnd (h : c.pattern.mayEnd '\n' = true) : c = .newline := by
  have hAll : ∀ d ∈ all, d.pattern.mayEnd '\n' = true → d = .newline := by decide
  exact hAll c (mem_all c) h

/-- A match that takes the line feed behind a text consists of line feeds. -/
theorem Chosen.eq_replicate (h : Chosen (text ++ ['\n']) c n) (hn : text.length < n) :
    c = .newline ∧ text = List.replicate text.length '\n' := by
  have hMatches := h.takes.2
  have hLength : (text ++ ['\n']).length ≤ n := by
    rw [List.length_append]
    exact hn
  rw [List.take_of_length_le hLength] at hMatches
  obtain rfl := eq_newline_of_mayEnd (Pattern.mayEnd_of_matches hMatches rfl)
  refine ⟨rfl, ?_⟩
  obtain ⟨-, hBreaks⟩ := Pattern.matches_plus_one_iff.mp hMatches
  rw [List.eq_replicate_iff]
  refine ⟨rfl, ?_⟩
  intro x hx
  simpa using hBreaks x (List.mem_append_left _ hx)

theorem chosen_replicate (n : Nat) :
    Chosen (List.replicate (n + 1) '\n') .newline (n + 1) := by
  have hTakes : Category.newline.Takes (List.replicate (n + 1) '\n') (n + 1) := by
    refine ⟨by simp, ?_⟩
    rw [List.take_of_length_le (by simp)]
    exact Pattern.matches_plus_one_iff.mpr ⟨by simp, by simp⟩
  rcases hFirst : first? (List.replicate (n + 1) '\n') with _ | ⟨c, m⟩
  · exact absurd hTakes (first?_eq_none_iff.mp hFirst _ _)
  · have hChosen := first?_eq_some_iff.mp hFirst
    obtain rfl := eq_newline_of_mayStart (c := c) hChosen.mayStart
    have hLength : m ≤ n + 1 := by simpa using hChosen.takes.1
    obtain rfl : m = n + 1 := Nat.le_antisymm hLength (hChosen.longest _ hTakes)
    exact hChosen

theorem Cut.of_concat (h : Cut (text ++ ['\n']) n content) (hn : n ≤ text.length) :
    Cut text n content := by
  have hFront : (text ++ ['\n']).take text.length = text := List.take_left
  have hWhole : (text ++ ['\n']).length = text.length + 1 := List.length_append
  cases h with
  | token hChosen =>
    have hPart := hChosen.take hn
    rw [hFront] at hPart
    exact .token hPart
  | @beforeWhitespace _ m c hPos hGap hChosen hWhitespace =>
    rcases Nat.lt_or_ge text.length (n + m) with hLong | hShort
    · -- The whitespace is the line feeds at the end, so all but the last are left, if any.
      have hDrop : (text ++ ['\n']).drop n = text.drop n ++ ['\n'] :=
        List.drop_append_of_le_length hn
      rw [hDrop] at hChosen
      have hBreaks := (hChosen.eq_replicate (by rw [List.length_drop]; omega)).2
      have hPart := hGap.take hn
      rw [hFront] at hPart
      rcases hRest : (text.drop n).length with _ | k
      · have hEnd : n = text.length := by
          rw [List.length_drop] at hRest
          omega
        subst hEnd
        exact .untilEnd hPos hPart
      · rw [hRest] at hBreaks
        exact .beforeWhitespace hPos hPart (hBreaks ▸ chosen_replicate k) rfl
    · have hPart := (Cut.beforeWhitespace hPos hGap hChosen hWhitespace).take
        (.inr ⟨m, _, .token hChosen, hShort⟩)
      rwa [hFront] at hPart
  | untilEnd => omega
  | @withMatch q m c hPos hGap hChosen hWhitespace =>
    have hPart := hGap.take (show q ≤ text.length by omega)
    have hBehind := hChosen.take (show m ≤ text.length - q by omega)
    rw [← List.drop_take, hFront] at hBehind
    rw [hFront] at hPart
    exact .withMatch hPos hPart hBehind hWhitespace

theorem Cut.eq_replicate (h : Cut (text ++ ['\n']) n content) (hn : text.length < n) :
    text = List.replicate text.length '\n' := by
  have hWhole : (text ++ ['\n']).length = text.length + 1 := List.length_append
  cases h with
  | token hChosen => exact (hChosen.eq_replicate hn).2
  | beforeWhitespace _ hGap hChosen _ =>
    have hPos := hChosen.pos
    have hLength := hChosen.takes.1
    rw [List.length_drop] at hLength
    omega
  | untilEnd _ hGap =>
    -- The line feed itself is not unscannable.
    exfalso
    refine hGap.2 text.length (by omega) .newline 1 ?_
    rw [List.drop_left]
    exact (chosen_replicate 0).takes
  | @withMatch q m c hPos hGap hChosen hWhitespace =>
    exfalso
    have hInside : q ≤ text.length := by
      have hLength := hChosen.pos
      have hEnd := hChosen.takes.1
      rw [List.length_drop] at hEnd
      omega
    have hDrop : (text ++ ['\n']).drop q = text.drop q ++ ['\n'] :=
      List.drop_append_of_le_length hInside
    rw [hDrop] at hChosen
    obtain ⟨rfl, -⟩ := hChosen.eq_replicate (by rw [List.length_drop]; omega)
    cases hWhitespace

end Category

def Token.lineBreaks (p : Position) : Nat → List Token
  | 0 => []
  | n + 1 =>
    [⟨.lineBreak (n + 1), ⟨p, ⟨p.row + (n + 1), 1⟩⟩, String.ofList (.replicate (n + 1) '\n')⟩]

theorem Position.advance_replicate (p : Position) (n : Nat) :
    p.advance (List.replicate (n + 1) '\n') = ⟨p.row + (n + 1), 1⟩ := by
  induction n generalizing p with
  | zero => simp [after]
  | succ n ih =>
    rw [List.replicate_succ, advance_cons, ih]
    simp only [after, if_true, mk.injEq, and_true]
    omega

namespace Lexes

theorem lineBreaks (p : Position) (n : Nat) :
    Lexes p (List.replicate n '\n') (Token.lineBreaks p n) := by
  cases n with
  | zero => exact .nil
  | succ n =>
    have hTake : (List.replicate (n + 1) '\n').take (n + 1) = List.replicate (n + 1) '\n' :=
      List.take_of_length_le (by simp)
    have hCut := Category.Cut.token (Category.chosen_replicate n)
    have hRest : Lexes (p.advance ((List.replicate (n + 1) '\n').take (n + 1)))
        ((List.replicate (n + 1) '\n').drop (n + 1)) [] := by
      rw [List.drop_of_length_le (by simp)]
      exact .nil
    have hLexes := Lexes.cons hCut hRest
    rw [hTake, Position.advance_replicate, Category.content, List.length_replicate] at hLexes
    exact hLexes

/-- A line feed behind a text makes the line break at its end longer by one. -/
theorem exists_front {p : Position} {text : List Char} {tokens : List Token}
    (h : Lexes p (text ++ ['\n']) tokens) :
    ∃ front q n, Lexes p text (front ++ Token.lineBreaks q n) ∧
      tokens = front ++ Token.lineBreaks q (n + 1) := by
  generalize hWhole : text ++ ['\n'] = whole at h
  induction h generalizing text with
  | nil => simp at hWhole
  | @cons p whole n content tokens hCut hRest ih =>
    subst hWhole
    rcases Nat.lt_or_ge text.length n with hLong | hShort
    · have hBreaks := hCut.eq_replicate hLong
      have hOld := lineBreaks p text.length
      have hNew := lineBreaks p (text.length + 1)
      rw [← hBreaks] at hOld
      rw [List.replicate_succ', ← hBreaks] at hNew
      exact ⟨[], p, text.length, hOld, (Lexes.cons hCut hRest).eq hNew⟩
    · have hDrop : (text ++ ['\n']).drop n = text.drop n ++ ['\n'] :=
        List.drop_append_of_le_length hShort
      have hTake : (text ++ ['\n']).take n = text.take n := List.take_append_of_le_length hShort
      obtain ⟨front, q, m, hFront, rfl⟩ := ih hDrop.symm
      rw [hTake] at hFront ⊢
      exact ⟨_ :: front, q, m, .cons (hCut.of_concat hShort) hFront, rfl⟩

end Lexes

/-- A line feed joins a carriage return before it, and nothing else. -/
theorem foldLineEnds_concat {text : List Char} (h : text.getLast? ≠ some '\r') :
    foldLineEnds (text ++ ['\n']) = foldLineEnds text ++ ['\n'] := by
  fun_induction foldLineEnds text with
  | case1 rest ih =>
    rw [List.cons_append, List.cons_append, foldLineEnds, ih, List.cons_append]
    cases rest with
    | nil => simp
    | cons c rest => simpa using h
  | case2 c rest hPair ih =>
    have hApart : ∀ more, c = '\r' → rest ++ ['\n'] = '\n' :: more → False := by
      intro more hReturn hFeed
      cases rest with
      | nil => simp [hReturn] at h
      | cons d rest => exact hPair rest hReturn (by simp_all)
    have hRest : rest.getLast? ≠ some '\r' := by
      cases rest with
      | nil => simp
      | cons d rest => simpa using h
    rw [List.cons_append, foldLineEnds.eq_2 _ _ hApart, ih hRest, List.cons_append]
  | case3 => rfl

/-- The tokens of a source and those of the source with one more line feed. -/
theorem tokenize_append_lineFeed {source : String} (h : source.toList.getLast? ≠ some '\r') :
    ∃ front q n, tokenize source = front ++ Token.lineBreaks q n ∧
      tokenize (source ++ "\n") = front ++ Token.lineBreaks q (n + 1) := by
  have hLexes := lexes_tokenize (source ++ "\n")
  have hSource := lexes_tokenize source
  rw [normalizeLineEnds, String.toList_ofList] at hLexes hSource
  have hAppend : (source ++ "\n").toList = source.toList ++ ['\n'] := String.toList_append
  rw [hAppend, foldLineEnds_concat h] at hLexes
  obtain ⟨front, q, n, hFront, hTokens⟩ := hLexes.exists_front
  exact ⟨front, q, n, hSource.eq hFront, hTokens⟩

end Outline
