import Outline.Proofs.Builder.Rows
import Outline.Proofs.Lexing.Splitting
import Outline.Proofs.Pattern.Languages
import Outline.Proofs.Text.Lines

/-! # The tokens that start lines

The indentation of a row is one token, for nothing but a comment reaches beyond the blanks at its
start. A comment takes all of its row, so no token follows it there.
-/
namespace Outline
set_option autoImplicit false

theorem Literal.kind_number (s : List Char) :
    (number s).kind = .integer ∨ (number s).kind = .float := by
  rw [number]
  split
  · exact .inl rfl
  · exact .inr rfl

namespace Category
variable {text : List Char} {c : Category} {n : Nat} {content : List Char → Content}

theorem kind_content_ne_error (c : Category) (s : List Char) : (c.content s).kind ≠ .error := by
  cases c with
  | number =>
    rcases Literal.kind_number s with hKind | hKind <;> simp [content, hKind]
  | _ => simp [content, Content.kind, Literal.dateTime, Literal.date, Literal.percentage]

/-- Categories that have a kind of content for themselves. -/
def soleOfKind : List Category :=
  [.comment, .dateTime, .date, .identity, .newline, .space, .symbol]

theorem eq_of_kind_content {d : Category} (hd : d ∈ soleOfKind) {s : List Char}
    (h : (c.content s).kind = (d.content []).kind) : c = d := by
  have hNumber := Literal.kind_number s
  simp only [soleOfKind, List.mem_cons, List.not_mem_nil, or_false] at hd
  rcases hd with rfl | rfl | rfl | rfl | rfl | rfl | rfl <;> cases c <;>
    simp_all [Category.content, Content.kind, Literal.dateTime, Literal.date, Literal.percentage]

theorem Cut.chosen_of_kind (h : Cut text n content) {d : Category} (hd : d ∈ soleOfKind)
    {s : List Char} (hKind : (content s).kind = (d.content []).kind) : Chosen text d n := by
  cases h with
  | token hChosen =>
    obtain rfl := eq_of_kind_content hd hKind
    exact hChosen
  | _ => exact absurd hKind.symm (d.kind_content_ne_error [])

theorem Chosen.mayStart {x : Char} {rest : List Char} (h : Chosen (x :: rest) c n) :
    c.pattern.mayStart x = true := by
  obtain ⟨k, rfl⟩ := Nat.exists_eq_succ_of_ne_zero (Nat.ne_of_gt h.pos)
  exact Pattern.mayStart_of_matches h.takes.2 List.take_succ_cons

theorem eq_newline_of_mayStart (h : c.pattern.mayStart '\n' = true) : c = .newline := by
  have hAll : ∀ d ∈ all, d.pattern.mayStart '\n' = true → d = .newline := by decide
  exact hAll c (mem_all c) h

theorem eq_of_mayStart_blank {x : Char} (hx : isBlank x = true) (h : c.pattern.mayStart x = true) :
    c = .comment ∨ c = .space := by
  have hSpace : ∀ d ∈ all, d.pattern.mayStart ' ' = true → d = .comment ∨ d = .space := by decide
  have hTab : ∀ d ∈ all, d.pattern.mayStart '\t' = true → d = .comment ∨ d = .space := by decide
  have hChar : x = ' ' ∨ x = '\t' := by simpa [isBlank] using hx
  rcases hChar with rfl | rfl
  · exact hSpace c (mem_all c) h
  · exact hTab c (mem_all c) h

theorem Cut.exists_chosen (h : Cut text n content) {m : Nat} (hTakes : c.Takes text m) :
    ∃ d, Chosen text d n ∧ content = d.content := by
  have hScannable : ∀ q, 0 < q → ¬ Unscannable text q := by
    intro q hPos hGap
    exact hGap.2 0 hPos c m hTakes
  cases h with
  | @token d _ hChosen => exact ⟨d, hChosen, rfl⟩
  | beforeWhitespace hPos hGap _ _ => exact absurd hGap (hScannable _ hPos)
  | untilEnd hPos hGap => exact absurd hGap (hScannable _ hPos)
  | withMatch hPos hGap _ _ => exact absurd hGap (hScannable _ hPos)

theorem Cut.chosen_newline {rest : List Char} (h : Cut ('\n' :: rest) n content) :
    Chosen ('\n' :: rest) .newline n ∧ content = Category.newline.content := by
  have hTakes : Category.newline.Takes ('\n' :: rest) 1 :=
    ⟨by simp, Pattern.matches_plus_one_iff.mpr (by simp)⟩
  obtain ⟨d, hChosen, rfl⟩ := h.exists_chosen hTakes
  obtain rfl := eq_newline_of_mayStart hChosen.mayStart
  exact ⟨hChosen, rfl⟩

theorem Chosen.not_matches_concat (h : Chosen text c n) {x : Char} {rest : List Char}
    (hDrop : text.drop n = x :: rest) : ¬ c.pattern.Matches (text.take n ++ [x]) := by
  intro hMatches
  have hTake : text.take (n + 1) = text.take n ++ [x] := by
    rw [List.take_add, hDrop]
    rfl
  have hLength : n + 1 ≤ text.length := by
    have hRest := congrArg List.length hDrop
    simp only [List.length_drop, List.length_cons] at hRest
    omega
  have hLonger := h.longest (n + 1) ⟨hLength, by rwa [hTake]⟩
  omega

theorem Chosen.take_space (h : Chosen text .space n) : text.take n = text.takeWhile isBlank := by
  obtain ⟨-, hBlank⟩ := Pattern.matches_plus_one_iff.mp h.takes.2
  have hSplit : text.takeWhile isBlank = text.take n ++ (text.drop n).takeWhile isBlank := by
    rw [← List.takeWhile_append_of_pos hBlank, List.take_append_drop]
  rcases hDrop : text.drop n with _ | ⟨x, rest⟩
  · rw [hSplit, hDrop, List.takeWhile_nil, List.append_nil]
  · have hEnds : ¬ isBlank x = true := by
      intro hx
      apply h.not_matches_concat hDrop
      exact Pattern.matches_seq_concat (Pattern.matches_star_one_concat hx) h.takes.2
    rw [hSplit, hDrop, List.takeWhile_cons_of_neg hEnds, List.append_nil]

/-- The size of a blank token is the number of blanks that the text starts with, and a text that
starts with another token, comments apart, starts with none. -/
theorem Cut.indentOf_eq (h : Cut text n content) {t : Token}
    (ht : t.content = content (text.take n)) (hKind : t.kind ≠ .comment) :
    Builder.indentOf t = (text.takeWhile isBlank).length := by
  obtain ⟨x, rest, rfl⟩ := List.exists_cons_of_ne_nil h.ne_nil
  cases hBlank : isBlank x with
  | true =>
    have hTakes : Category.space.Takes (x :: rest) 1 :=
      ⟨by simp, Pattern.matches_plus_one_iff.mpr (by simp [hBlank])⟩
    obtain ⟨d, hChosen, rfl⟩ := h.exists_chosen hTakes
    rcases eq_of_mayStart_blank hBlank hChosen.mayStart with rfl | rfl
    · exact absurd (congrArg Content.kind ht) hKind
    · rw [Builder.indentOf, ht, ← hChosen.take_space]
      rfl
  | false =>
    have hOther : t.kind ≠ .space := by
      intro hSpace
      rw [Token.kind, ht] at hSpace
      have hStart := (h.chosen_of_kind (d := .space) (by decide) hSpace).mayStart
      simp [pattern, Pattern.plus, Pattern.mayStart, hBlank] at hStart
    rw [List.takeWhile_cons_of_neg (by simp [hBlank]), Builder.indentOf]
    rw [Token.kind] at hOther
    split
    · rename_i hContent
      simp [hContent, Content.kind] at hOther
    · rfl

/-- A comment reaches to the end of its row: any other character would have continued it. -/
theorem Chosen.drop_comment (h : Chosen text .comment n) :
    text.drop n = [] ∨ ∃ rest, text.drop n = '\n' :: rest := by
  rcases hDrop : text.drop n with _ | ⟨x, rest⟩
  · exact .inl rfl
  · by_cases hBreak : x = '\n'
    · exact .inr ⟨rest, by rw [hBreak]⟩
    · exfalso
      have hInside : (x != '\n') = true := by simpa using hBreak
      have hTail := @Pattern.matches_star_one_concat (· != '\n') x hInside
      apply h.not_matches_concat hDrop
      exact Pattern.matches_seq_concat (fun _ => Pattern.matches_seq_concat fun _ =>
        Pattern.matches_seq_concat hTail) h.takes.2

/-- So the next token, if there is one, is the line break that ends the row. -/
theorem Cut.content_behind_comment (h : Cut text n content) {s : List Char}
    (hKind : (content s).kind = .comment) {m : Nat} {next : List Char → Content}
    (hNext : Cut (text.drop n) m next) : next = Category.newline.content := by
  have hComment := h.chosen_of_kind (d := .comment) (by decide) hKind
  rcases hComment.drop_comment with hDrop | ⟨rest, hDrop⟩
  · exact absurd hDrop hNext.ne_nil
  · rw [hDrop] at hNext
    exact hNext.chosen_newline.2

theorem Chosen.column_newline (h : Chosen text .newline n) (p : Position) :
    (p.advance (text.take n)).column = 1 := by
  obtain ⟨hNonempty, hBreaks⟩ := Pattern.matches_plus_one_iff.mp h.takes.2
  obtain ⟨front, last, hSplit⟩ := (List.eq_nil_or_concat (text.take n)).resolve_left hNonempty
  have hLast : last = '\n' := by
    simpa using hBreaks last (by simp [hSplit])
  rw [hSplit, hLast, List.concat_eq_append, Position.advance_append]
  simp [Position.after]

end Category

theorem Lexes.matches_of_kind {p : Position} {text : List Char} {tokens : List Token}
    (h : Lexes p text tokens) {t : Token} (ht : t ∈ tokens) {c : Category}
    (hc : c ∈ Category.soleOfKind) (hKind : t.kind = (c.content []).kind) :
    c.pattern.Matches t.text.toList ∧ t.content = c.content t.text.toList := by
  rcases h.eq_error_or_matches t ht with hError | ⟨d, hMatches, hContent⟩
  · rw [Token.kind, hError] at hKind
    exact absurd hKind.symm (c.kind_content_ne_error [])
  · rw [Token.kind, hContent] at hKind
    obtain rfl := Category.eq_of_kind_content hc hKind
    exact ⟨hMatches, hContent⟩

/-- How many blanks a row of a text starts with. -/
def leadingBlanks (text : List Char) (row : Nat) : Nat :=
  (((text.splitOn '\n').getD (row - 1) []).takeWhile Category.isBlank).length

theorem takeWhile_first_row (text : List Char) :
    ((text.splitOn '\n').getD 0 []).takeWhile Category.isBlank =
      text.takeWhile Category.isBlank := by
  induction text with
  | nil => rfl
  | cons x text ih =>
    rw [List.splitOn_cons_eq_if_modifyHead]
    split
    · rename_i hBreak
      obtain rfl : x = '\n' := by simpa using hBreak
      rfl
    · obtain ⟨row, rows, hRows⟩ := List.exists_cons_of_ne_nil (List.splitOn_ne_nil '\n' text)
      rw [hRows] at ih ⊢
      simp_all [List.takeWhile_cons]

theorem leadingBlanks_one (text : List Char) :
    leadingBlanks text 1 = (text.takeWhile Category.isBlank).length :=
  congrArg List.length (takeWhile_first_row text)

theorem leadingBlanks_append {before : List Char}
    (h : (Position.origin.advance before).column = 1) (rest : List Char) :
    leadingBlanks (before ++ rest) (Position.origin.advance before).row =
      (rest.takeWhile Category.isBlank).length := by
  rcases List.eq_nil_or_concat before with rfl | ⟨front, last, rfl⟩
  · exact leadingBlanks_one rest
  · rw [List.concat_eq_append] at h ⊢
    have hAdvance := Position.origin_advance_reverse (front ++ [last]).reverse
    rw [List.reverse_reverse, List.reverse_concat] at hAdvance
    rw [hAdvance] at h ⊢
    have hLast : last = '\n' := by
      by_cases hBreak : last = '\n'
      · exact hBreak
      · simp [hBreak] at h
    have hRow : 1 + (last :: front.reverse).count '\n' - 1 = (front.splitOn '\n').length := by
      rw [length_splitOn, hLast, List.count_cons_self, List.count_reverse]
      omega
    rw [leadingBlanks, hRow, hLast, List.append_assoc, List.singleton_append,
      List.splitOn_append_cons_self, List.getD_eq_getElem?_getD,
      List.getElem?_append_right (Nat.le_refl _), Nat.sub_self, ← List.getD_eq_getElem?_getD]
    exact leadingBlanks_one rest

namespace Lexes
variable {p : Position} {text : List Char} {tokens : List Token}

theorem commentsLast (h : Lexes p text tokens) : CommentsLast tokens := by
  induction h with
  | nil => trivial
  | @cons p text n content tokens hCut hRest ih =>
    refine ⟨?_, ih⟩
    intro hKind u hu
    obtain ⟨tail, rfl⟩ := List.head?_eq_some_iff.mp hu
    obtain ⟨m, next, hNext, rfl, -, -⟩ := hRest.exists_cut
    obtain rfl := hCut.content_behind_comment hKind hNext
    rfl

/-- A token that starts a row of the text is the first of the row, and its indentation is that of
the row. -/
theorem rowStarts_spec {before : List Char} (h : Lexes (Position.origin.advance before) text tokens)
    {fresh : Bool} (hFresh : fresh = true → (Position.origin.advance before).column = 1) :
    ∀ t ∈ rowStarts fresh tokens, t.span.start.column = 1 ∧
      Builder.indentOf t = leadingBlanks (before ++ text) t.span.start.row := by
  induction tokens generalizing before text fresh with
  | nil => simp [rowStarts]
  | cons t tokens ih =>
    obtain ⟨n, content, hCut, rfl, -, hRest⟩ := h.exists_cut
    rw [← Position.advance_append] at hRest
    have hColumn : decide ((content (text.take n)).kind = .lineBreak) = true →
        (Position.origin.advance (before ++ text.take n)).column = 1 := by
      intro hBreak
      rw [Position.advance_append]
      exact (hCut.chosen_of_kind (d := .newline) (by decide)
        (of_decide_eq_true hBreak)).column_newline _
    have hLater := ih hRest hColumn
    rw [List.append_assoc, List.take_append_drop] at hLater
    rw [rowStarts]
    split
    · rename_i hStarts
      obtain ⟨hFirst, -, hKind⟩ := hStarts
      refine List.forall_mem_cons.mpr ⟨⟨hFresh hFirst, ?_⟩, hLater⟩
      rw [leadingBlanks_append (hFresh hFirst)]
      exact hCut.indentOf_eq rfl hKind
    · exact hLater

end Lexes
end Outline
