import Mathlib.Data.List.Chain
import Mathlib.Data.List.Infix
import Outline.Proofs.Lexing.FinalNewline
import Outline.Proofs.Lexing.TokenLines

/-! # The normal form of a token stream

What the tokens of a source are known to be before any statement is built from them. Blanks, line
feeds, a name and symbols reach as far as they can, and a comment takes the blanks before it and the
rest of its row; so tokens of some kinds are never neighbours. A line feed is part of a line break,
or it stands between the quotes of a string, which may be one that an error takes along: it never is
a character that belongs to no category.
-/
namespace Outline
set_option autoImplicit false

/-- Whether a token of one kind may stand directly before a token of the kind `next`. -/
def Kind.mayPrecede (k next : Kind) : Bool :=
  match k with
  | .comment => next = .lineBreak
  | .space => next ≠ .space ∧ next ≠ .comment
  | .lineBreak | .identity | .symbol => next ≠ k
  | _ => true

namespace Token

/-- The token starts at the offset `k` of the text that the tokens make. -/
def StandsAt (tokens : List Token) (t : Token) (k : Nat) : Prop :=
  ∃ before behind, tokens = before ++ t :: behind ∧ (joinedText before).toList.length = k

/-- An error at the front of a text: `q` characters that belong to no category and, unless it ends
with them, the match that it takes along. -/
structure IsErrorOf (text : List Char) (t : Token) (q : Nat) : Prop where
  kind_eq : t.kind = .error
  pos : 0 < q
  unscannable : Category.Unscannable text q
  behind : q = t.text.length ∨ ∃ c : Category, c.isWhitespace = false ∧
    Category.Chosen (text.drop q) c (t.text.length - q)

/-- Where a token at the front of a text may have a line feed: anywhere in a line break, and between
the quotes of a string, be it the token itself or what an error takes along. -/
inductive BreaksAt (text : List Char) (t : Token) (i : Nat) : Prop where
  | lineBreak : t.kind = .lineBreak → BreaksAt text t i
  | string {quote : Quote} : t.content = .string quote →
      Category.Chosen text (.string quote) t.text.length → 0 < i → i + 1 < t.text.length →
      BreaksAt text t i
  | error {q : Nat} {quote : Quote} : t.IsErrorOf text q →
      Category.Chosen (text.drop q) (.string quote) (t.text.length - q) →
      q < i → i + 1 < t.text.length → BreaksAt text t i

theorem exists_standsAt {tokens : List Token} {i : Nat}
    (h : i < (joinedText tokens).toList.length) :
    ∃ (t : Token) (k : Nat), t.StandsAt tokens k ∧ k ≤ i ∧ i < k + t.text.length := by
  induction tokens generalizing i with
  | nil => simp at h
  | cons t tokens ih =>
    rw [joinedText_cons, String.toList_append, List.length_append, String.length_toList] at h
    rcases Nat.lt_or_ge i t.text.length with hFirst | hLater
    · exact ⟨t, 0, ⟨[], tokens, rfl, rfl⟩, Nat.zero_le i, by omega⟩
    · have hRest : i - t.text.length < (joinedText tokens).toList.length := by omega
      obtain ⟨u, k, ⟨before, behind, rfl, rfl⟩, hStart, hStop⟩ := ih hRest
      have hLength : (joinedText (t :: before)).toList.length =
          t.text.length + (joinedText before).toList.length := by
        rw [joinedText_cons, String.toList_append, List.length_append, String.length_toList]
      exact ⟨u, _, ⟨t :: before, behind, rfl, rfl⟩, by omega, by omega⟩

end Token

namespace Category
variable {text : List Char} {c : Category} {n m i : Nat} {content next : List Char → Content}

theorem isNameChar_of_isNameStart {x : Char} (h : isNameStart x = true) : isNameChar x = true := by
  rw [isNameStart, Bool.or_eq_true] at h
  rw [isNameChar, Char.isAlphanum, Bool.or_eq_true, Bool.or_eq_true]
  rcases h with hLetter | hUnderscore
  · exact .inl (.inl hLetter)
  · exact .inr hUnderscore

/-- What can start a run can also continue it, so the run would have taken it. -/
theorem Chosen.not_chosen_run {first others : Char → Bool} (h : Chosen text c n)
    (hPattern : c.pattern = .seq (.one first) (.star (.one others)))
    (hClass : ∀ x, first x = true → others x = true) : ¬ Chosen (text.drop n) c m := by
  intro hNext
  obtain ⟨x, rest, hDrop⟩ := List.exists_cons_of_ne_nil (Cut.token hNext).ne_nil
  rw [hDrop] at hNext
  have hStart := hNext.mayStart
  have hMatches := h.takes.2
  have hEnds := h.not_matches_concat hDrop
  rw [hPattern] at hStart hMatches hEnds
  have hFirst : first x = true := by simpa [Pattern.mayStart, Pattern.nullable] using hStart
  apply hEnds
  exact Pattern.matches_seq_concat (Pattern.matches_star_one_concat (hClass x hFirst)) hMatches

theorem Chosen.not_chosen_comment (h : Chosen text .space n) :
    ¬ Chosen (text.drop n) .comment m := by
  intro hComment
  obtain ⟨-, hBlanks⟩ := Pattern.matches_plus_one_iff.mp h.takes.2
  obtain ⟨blanks, slashes, hSplit, hMore, hSlashes⟩ :=
    Pattern.matches_seq_iff.mp hComment.takes.2
  have hLength : n + m ≤ text.length := by
    have hSpace := h.takes.1
    have hRest := hComment.takes.1
    rw [List.length_drop] at hRest
    omega
  have hWhole : Category.comment.pattern.Matches (text.take (n + m)) := by
    rw [List.take_add, hSplit, ← List.append_assoc]
    refine .seq (Pattern.matches_star_one_iff.mpr ?_) hSlashes
    exact List.forall_mem_append.mpr ⟨hBlanks, Pattern.matches_star_one_iff.mp hMore⟩
  obtain ⟨before, after, hAll, hBefore⟩ := h.first
  cases before with
  | nil => cases hAll
  | cons d before =>
    obtain rfl : Category.comment = d := (List.cons.inj hAll).1
    exact hBefore _ List.mem_cons_self (n + m) ⟨hLength, hWhole⟩

theorem Cut.kind_ne_of_run {first others : Char → Bool} (h : Cut text n content)
    (hNext : Cut (text.drop n) m next) (hSole : c ∈ soleOfKind)
    (hPattern : c.pattern = .seq (.one first) (.star (.one others)))
    (hClass : ∀ x, first x = true → others x = true) {s u : List Char}
    (hKind : (content s).kind = (c.content []).kind) : (next u).kind ≠ (c.content []).kind := by
  intro hSame
  have hFirst := h.chosen_of_kind hSole hKind
  exact hFirst.not_chosen_run hPattern hClass (hNext.chosen_of_kind hSole hSame)

theorem Cut.mayPrecede (h : Cut text n content) (hNext : Cut (text.drop n) m next)
    (s u : List Char) : (content s).kind.mayPrecede (next u).kind = true := by
  cases hKind : (content s).kind with
  | comment =>
    obtain rfl := h.content_behind_comment hKind hNext
    rfl
  | space =>
    have hSpace := h.kind_ne_of_run (c := .space) (u := u) hNext (by decide) rfl
      (fun _ hx => hx) hKind
    have hComment : (next u).kind ≠ .comment := by
      intro hSame
      have hFirst := h.chosen_of_kind (d := .space) (by decide) hKind
      exact hFirst.not_chosen_comment (hNext.chosen_of_kind (d := .comment) (by decide) hSame)
    exact decide_eq_true ⟨hSpace, hComment⟩
  | lineBreak =>
    exact decide_eq_true
      (h.kind_ne_of_run (c := .newline) hNext (by decide) rfl (fun _ hx => hx) hKind)
  | identity =>
    exact decide_eq_true (h.kind_ne_of_run (c := .identity) hNext (by decide) rfl
      (fun _ => isNameChar_of_isNameStart) hKind)
  | symbol =>
    exact decide_eq_true
      (h.kind_ne_of_run (c := .symbol) hNext (by decide) rfl (fun _ hx => hx) hKind)
  | _ => rfl

theorem row_of_matches_newline {s : List Char} (h : Category.newline.pattern.Matches s)
    (p : Position) : (p.advance s).row = p.row + s.length := by
  obtain ⟨-, hBreaks⟩ := Pattern.matches_plus_one_iff.mp h
  have hCount : s.count '\n' = s.length := by
    rw [List.count_eq_length]
    intro x hx
    have hEqual : x = '\n' := by simpa using hBreaks x hx
    exact hEqual.symm
  rw [Position.advance_eq, hCount]

theorem Unscannable.lineFeed_not_mem (h : Unscannable text n) : '\n' ∉ text.take n := by
  intro hMem
  obtain ⟨i, hi, hBreak⟩ := List.mem_take_iff_getElem.mp hMem
  have hDrop := List.drop_eq_getElem_cons (Nat.lt_of_lt_of_le hi (Nat.min_le_right _ _))
  refine h.2 i (Nat.lt_of_lt_of_le hi (Nat.min_le_left _ _)) .newline 1 ?_
  rw [hDrop, hBreak]
  exact ⟨by simp, Pattern.matches_plus_one_iff.mpr (by simp)⟩

theorem Chosen.inside_of_lineFeed (h : Chosen text c n) (hOther : c ≠ .newline) (hi : i < n)
    (hBreak : text[i]? = some '\n') : (∃ quote, c = .string quote) ∧ 0 < i ∧ i + 1 < n := by
  refine ⟨?_, ?_, ?_⟩
  · have hMem : '\n' ∈ text.take n :=
      List.mem_of_getElem? ((List.getElem?_take_of_lt hi).trans hBreak)
    exact (eq_of_mayHold_lineFeed (Pattern.mayHold_of_matches h.takes.2 hMem)).resolve_left hOther
  · apply Nat.pos_of_ne_zero
    rintro rfl
    rw [← List.head?_eq_getElem?] at hBreak
    obtain ⟨rest, rfl⟩ := List.head?_eq_some_iff.mp hBreak
    exact hOther (eq_newline_of_mayStart h.mayStart)
  · apply Nat.lt_of_le_of_ne hi
    rintro rfl
    have hLast : text.take (i + 1) = text.take i ++ ['\n'] := by
      rw [List.take_add_one, hBreak, Option.toList_some]
    exact hOther (eq_newline_of_mayEnd (Pattern.mayEnd_of_matches h.takes.2 hLast))

end Category

namespace Token
variable {text : List Char} {t : Token} {q i : Nat}

theorem IsErrorOf.breaksAt (h : t.IsErrorOf text q) (hi : i < t.text.length)
    (hBreak : text[i]? = some '\n') : t.BreaksAt text i := by
  have hBehind : q ≤ i := by
    apply Nat.le_of_not_lt
    intro hLt
    apply h.unscannable.lineFeed_not_mem
    exact List.mem_of_getElem? ((List.getElem?_take_of_lt hLt).trans hBreak)
  rcases h.behind with hEnd | ⟨c, hWhitespace, hChosen⟩
  · omega
  · have hOther : c ≠ .newline := by
      rintro rfl
      cases hWhitespace
    have hDrop : (text.drop q)[i - q]? = some '\n' := by
      rw [List.getElem?_drop, Nat.add_sub_cancel' hBehind]
      exact hBreak
    have hInside : i - q < t.text.length - q := by omega
    obtain ⟨⟨quote, rfl⟩, hOpened, hClosed⟩ := hChosen.inside_of_lineFeed hOther hInside hDrop
    exact .error h hChosen (by omega) (by omega)

end Token

namespace Category.Cut
variable {text : List Char} {t : Token} {i : Nat} {content : List Char → Content}

theorem chosen_or_isErrorOf (h : Cut text t.text.length content)
    (hContent : t.content = content t.text.toList) :
    (∃ c : Category, Chosen text c t.text.length ∧ t.content = c.content t.text.toList) ∨
      ∃ q, t.IsErrorOf text q := by
  generalize hLength : t.text.length = n at h
  cases h with
  | token hChosen => exact .inl ⟨_, hChosen, hContent⟩
  | beforeWhitespace hPos hGap _ _ =>
    exact .inr ⟨n, congrArg Content.kind hContent, hPos, hGap, .inl hLength.symm⟩
  | untilEnd hPos hGap =>
    exact .inr ⟨_, congrArg Content.kind hContent, hPos, hGap, .inl hLength.symm⟩
  | @withMatch q m c hPos hGap hChosen hWhitespace =>
    refine .inr ⟨q, congrArg Content.kind hContent, hPos, hGap, .inr ⟨c, hWhitespace, ?_⟩⟩
    rw [hLength, Nat.add_sub_cancel_left]
    exact hChosen

theorem breaksAt (h : Cut text t.text.length content)
    (hContent : t.content = content t.text.toList) (hi : i < t.text.length)
    (hBreak : text[i]? = some '\n') : t.BreaksAt text i := by
  rcases h.chosen_or_isErrorOf hContent with ⟨c, hChosen, hToken⟩ | ⟨q, hError⟩
  · by_cases hNewline : c = .newline
    · subst hNewline
      exact .lineBreak (congrArg Content.kind hToken)
    · obtain ⟨⟨quote, rfl⟩, hOpened, hClosed⟩ := hChosen.inside_of_lineFeed hNewline hi hBreak
      exact .string hToken hChosen hOpened hClosed
  · exact hError.breaksAt hi hBreak

end Category.Cut

namespace Lexes
variable {p : Position} {text : List Char} {tokens : List Token} {t : Token} {k : Nat}

theorem exists_cut_of_standsAt (h : Lexes p text tokens) (hAt : t.StandsAt tokens k) :
    ∃ content, Category.Cut (text.drop k) t.text.length content ∧
      t.text.toList = (text.drop k).take t.text.length ∧ t.content = content t.text.toList := by
  obtain ⟨before, behind, rfl, rfl⟩ := hAt
  obtain ⟨n, content, hCut, hToken, hLength, -⟩ := h.drop.exists_cut
  rw [String.length_toList] at hLength
  subst hLength
  have hText := congrArg (·.text.toList) hToken
  have hContent := congrArg Token.content hToken
  simp only [String.toList_ofList] at hText
  rw [← hText] at hContent
  exact ⟨content, hCut, hText, hContent⟩

theorem isChain_mayPrecede (h : Lexes p text tokens) :
    tokens.IsChain fun t u => t.kind.mayPrecede u.kind = true := by
  rw [List.isChain_iff_forall_rel_of_append_cons_cons]
  rintro t u before behind rfl
  obtain ⟨n, content, hCut, rfl, -, hRest⟩ := h.drop.exists_cut
  obtain ⟨m, next, hNext, rfl, -, -⟩ := hRest.exists_cut
  exact hCut.mayPrecede hNext _ _

theorem size_eq (h : Lexes p text tokens) (ht : t ∈ tokens) {size : Nat}
    (hSpace : t.content = .space size) : size = t.text.length := by
  have hKind : t.kind = .space := congrArg Content.kind hSpace
  obtain ⟨-, hContent⟩ := h.matches_of_kind ht (c := .space) (by decide) hKind
  rw [hSpace] at hContent
  exact (Content.space.inj hContent).trans String.length_toList

theorem row_eq (h : Lexes p text tokens) (ht : t ∈ tokens) {count : Nat}
    (hBreak : t.content = .lineBreak count) :
    t.span.stop.row = t.span.start.row + count := by
  have hKind : t.kind = .lineBreak := congrArg Content.kind hBreak
  obtain ⟨hMatches, hContent⟩ := h.matches_of_kind ht (c := .newline) (by decide) hKind
  rw [hBreak] at hContent
  obtain ⟨q, -, hSpan, -⟩ := h.tiles.of_infix ((List.singleton_infix_iff _ _).mpr ht)
  rw [Content.lineBreak.inj hContent, hSpan]
  exact Category.row_of_matches_newline hMatches q

theorem exists_isErrorOf (h : Lexes p text tokens) (hAt : t.StandsAt tokens k)
    (hKind : t.kind = .error) :
    ∃ q, t.IsErrorOf (text.drop k) q ∧ '\n' ∉ t.text.toList.take q := by
  obtain ⟨content, hCut, hText, hContent⟩ := h.exists_cut_of_standsAt hAt
  rcases hCut.chosen_or_isErrorOf hContent with ⟨c, -, hToken⟩ | ⟨q, hError⟩
  · rw [Token.kind, hToken] at hKind
    exact absurd hKind (c.kind_content_ne_error _)
  · refine ⟨q, hError, ?_⟩
    intro hMem
    apply hError.unscannable.lineFeed_not_mem
    rw [hText, List.take_take, Nat.min_comm, ← List.take_take] at hMem
    exact List.mem_of_mem_take hMem

theorem exists_breaksAt (h : Lexes p text tokens) {i : Nat} (hBreak : text[i]? = some '\n') :
    ∃ (t : Token) (k : Nat), t.StandsAt tokens k ∧ k ≤ i ∧ i < k + t.text.length ∧
      t.BreaksAt (text.drop k) (i - k) := by
  have hInside : i < (Token.joinedText tokens).toList.length := by
    rw [h.joinedText_eq]
    exact (List.getElem?_eq_some_iff.mp hBreak).1
  obtain ⟨t, k, hAt, hStart, hStop⟩ := Token.exists_standsAt hInside
  obtain ⟨content, hCut, -, hContent⟩ := h.exists_cut_of_standsAt hAt
  refine ⟨t, k, hAt, hStart, hStop, hCut.breaksAt hContent (by omega) ?_⟩
  rw [List.getElem?_drop, Nat.add_sub_cancel' hStart]
  exact hBreak

end Lexes

/-- A list of tokens that makes up a text, and what else can be relied on in it. -/
structure NormalForm (text : List Char) (tokens : List Token) : Prop where
  joined : (Token.joinedText tokens).toList = text
  neighbours : tokens.IsChain fun t u => t.kind.mayPrecede u.kind = true
  size : ∀ t ∈ tokens, ∀ size, t.content = .space size → size = t.text.length
  count : ∀ t ∈ tokens, ∀ count, t.content = .lineBreak count →
    t.span.stop.row = t.span.start.row + count
  errors : ∀ (t : Token) (k : Nat), t.StandsAt tokens k → t.kind = .error →
    ∃ q, t.IsErrorOf (text.drop k) q ∧ '\n' ∉ t.text.toList.take q
  lineFeeds : ∀ i, text[i]? = some '\n' → ∃ (t : Token) (k : Nat), t.StandsAt tokens k ∧
    k ≤ i ∧ i < k + t.text.length ∧ t.BreaksAt (text.drop k) (i - k)

/-- No two tokens of blanks, of line feeds, of a name or of symbols are neighbours, no blanks stand
before a comment and only a line break behind it, and each line feed of a source is in a line break
or between quotes. -/
theorem normalForm_tokenize (source : String) :
    NormalForm (normalizeLineEnds source).toList (tokenize source) where
  joined := (lexes_tokenize source).joinedText_eq
  neighbours := (lexes_tokenize source).isChain_mayPrecede
  size _ ht _ hSpace := (lexes_tokenize source).size_eq ht hSpace
  count _ ht _ hBreak := (lexes_tokenize source).row_eq ht hBreak
  errors _ _ hAt hKind := (lexes_tokenize source).exists_isErrorOf hAt hKind
  lineFeeds _ hBreak := (lexes_tokenize source).exists_breaksAt hBreak

example : (tokenize "a_1\t // b\n\n|\"\n\" !?").map Token.kind =
    [.identity, .comment, .lineBreak, .error, .space, .symbol] := by
  decide +kernel

end Outline
