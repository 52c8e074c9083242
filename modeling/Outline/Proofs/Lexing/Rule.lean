import Outline.Proofs.Category.LongestFirst
import Outline.Proofs.Lexing.Tracking

/-! # The rule of lexing

Which tokens a text has, said on the text alone: by the languages of the categories, their order and
the first place where one of them matches. There is no search, no preference between matches of one
category, no queue and no state besides the position. The tokens of a source are the only ones that
the rule allows, and a cursor hands them out one by one.
-/
namespace Outline
set_option autoImplicit false

namespace Category

/-- The first `n` characters of a text are in the language of the category. -/
def Takes (c : Category) (text : List Char) (n : Nat) : Prop :=
  n ≤ text.length ∧ c.pattern.Matches (text.take n)

/-- The category that a token at the front of a text belongs to, and the length of the token. -/
structure Chosen (text : List Char) (c : Category) (n : Nat) : Prop where
  first : ∃ before after, all = before ++ c :: after ∧ ∀ d ∈ before, ∀ m, ¬ d.Takes text m
  takes : c.Takes text n
  longest : ∀ m, c.Takes text m → m ≤ n

/-- No category matches at any of the first `q` places of a text. -/
def Unscannable (text : List Char) (q : Nat) : Prop :=
  q ≤ text.length ∧ ∀ i < q, ∀ c : Category, ∀ n, ¬ c.Takes (text.drop i) n

/-- The length of the token at the front of a text, and what its text denotes. -/
inductive Cut (text : List Char) : Nat → (List Char → Content) → Prop where
  | token {c : Category} {n : Nat} : Chosen text c n → Cut text n c.content
  | beforeWhitespace {q n : Nat} {c : Category} : 0 < q → Unscannable text q →
      Chosen (text.drop q) c n → c.isWhitespace = true →
      Cut text q fun _ => .error .unexpectedToken
  | untilEnd : 0 < text.length → Unscannable text text.length →
      Cut text text.length fun _ => .error .unexpectedToken
  | withMatch {q n : Nat} {c : Category} : 0 < q → Unscannable text q →
      Chosen (text.drop q) c n → c.isWhitespace = false →
      Cut text (q + n) fun _ => .error .unexpectedToken

theorem match?_eq_some {c : Category} {text : List Char} {n : Nat} :
    c.match? text = some n ↔ c.Takes text n ∧ ∀ m, c.Takes text m → m ≤ n := by
  rw [match?_eq_some_iff]
  simp only [Takes, and_imp]

theorem match?_eq_none {c : Category} {text : List Char} :
    c.match? text = none ↔ ∀ n, ¬ c.Takes text n := by
  rw [match?_eq_none_iff]
  simp only [Takes, not_and]

theorem first?_eq_some_iff {text : List Char} {c : Category} {n : Nat} :
    first? text = some (c, n) ↔ Chosen text c n := by
  rw [first?, List.findSome?_eq_some_iff]
  constructor
  · rintro ⟨before, d, after, hAll, hFound, hBefore⟩
    obtain ⟨m, hMatch, hEq⟩ := Option.map_eq_some_iff.mp hFound
    cases hEq
    obtain ⟨hTakes, hLongest⟩ := match?_eq_some.mp hMatch
    refine ⟨⟨before, after, hAll, ?_⟩, hTakes, hLongest⟩
    intro d hd
    exact match?_eq_none.mp (Option.map_eq_none_iff.mp (hBefore d hd))
  · rintro ⟨⟨before, after, hAll, hBefore⟩, hTakes, hLongest⟩
    refine ⟨before, c, after, hAll, ?_, ?_⟩
    · rw [match?_eq_some.mpr ⟨hTakes, hLongest⟩]
      rfl
    · intro d hd
      rw [match?_eq_none.mpr (hBefore d hd)]
      rfl

theorem first?_eq_none_iff {text : List Char} :
    first? text = none ↔ ∀ c : Category, ∀ n, ¬ c.Takes text n := by
  rw [first?, List.findSome?_eq_none_iff]
  constructor
  · intro h c
    exact match?_eq_none.mp (Option.map_eq_none_iff.mp (h c (mem_all c)))
  · intro h c _
    rw [match?_eq_none.mpr (h c)]
    rfl

theorem first?_nil : first? [] = none := by
  rcases h : first? [] with _ | ⟨c, n⟩
  · rfl
  · have hPos := first?_pos h
    have hLength := first?_le_length h
    simp only [List.length_nil] at hLength
    omega

theorem unscannable_cons_iff {x : Char} {text : List Char} {q : Nat} :
    Unscannable (x :: text) (q + 1) ↔ first? (x :: text) = none ∧ Unscannable text q := by
  rw [first?_eq_none_iff]
  constructor
  · rintro ⟨hLength, h⟩
    refine ⟨h 0 (Nat.succ_pos q), Nat.le_of_succ_le_succ hLength, ?_⟩
    intro i hi
    exact h (i + 1) (Nat.succ_lt_succ hi)
  · rintro ⟨hFirst, hLength, h⟩
    refine ⟨Nat.succ_le_succ hLength, ?_⟩
    intro i hi
    cases i with
    | zero => exact hFirst
    | succ i => exact h i (Nat.lt_of_succ_lt_succ hi)

/-- The search passes over the unscannable characters and no further. -/
theorem search_eq_iff {text : List Char} {q : Nat} {found : Option (Category × Nat)} :
    search text = (q, found) ↔
      Unscannable text q ∧ first? (text.drop q) = found ∧ (found = none → q = text.length) := by
  induction text generalizing q with
  | nil =>
    constructor
    · intro h
      cases h
      exact ⟨⟨Nat.le_refl _, fun i hi => absurd hi (Nat.not_lt_zero i)⟩, first?_nil, fun _ => rfl⟩
    · rintro ⟨⟨hLength, _⟩, hFound, _⟩
      obtain rfl : q = 0 := Nat.le_zero.mp hLength
      rw [← hFound]
      exact congrArg _ first?_nil.symm
  | cons x text ih =>
    rw [search]
    rcases hFirst : first? (x :: text) with _ | match_
    · -- No category matches here, so the search and the unscannable run both go on.
      cases q with
      | zero =>
        constructor
        · intro h
          cases h
        · rintro ⟨_, hFound, hEnd⟩
          rw [← hFound, List.drop_zero] at hEnd
          cases hEnd hFirst
      | succ q =>
        rw [unscannable_cons_iff, List.drop_succ_cons, List.length_cons, Nat.add_right_cancel_iff]
        have hSucc : ((search text).1 + 1, (search text).2) = (q + 1, found) ↔
            search text = (q, found) := by
          rw [Prod.ext_iff, Prod.ext_iff, Nat.add_right_cancel_iff]
        rw [hSucc, ih, and_iff_right hFirst]
    · constructor
      · intro h
        cases h
        exact ⟨⟨Nat.zero_le _, fun i hi => absurd hi (Nat.not_lt_zero i)⟩, hFirst, by simp⟩
      · rintro ⟨hGap, hFound, _⟩
        cases q with
        | zero =>
          rw [← hFound, List.drop_zero, hFirst]
        | succ q =>
          rw [unscannable_cons_iff, hFirst] at hGap
          cases hGap.1

theorem Chosen.pos {text : List Char} {c : Category} {n : Nat} (h : Chosen text c n) : 0 < n :=
  first?_pos (first?_eq_some_iff.mpr h)

theorem Chosen.search_eq {text : List Char} {q n : Nat} {c : Category} (hGap : Unscannable text q)
    (h : Chosen (text.drop q) c n) : search text = (q, some (c, n)) := by
  refine search_eq_iff.mpr ⟨hGap, first?_eq_some_iff.mpr h, ?_⟩
  intro hNone
  cases hNone

def cut : Nat × Option (Category × Nat) → Nat × (List Char → Content)
  | (q, none) => (q, fun _ => .error .unexpectedToken)
  | (0, some (c, n)) => (n, c.content)
  | (q + 1, some (c, n)) =>
    (if c.isWhitespace then q + 1 else q + 1 + n, fun _ => .error .unexpectedToken)

namespace Cut
variable {text : List Char} {n : Nat} {content : List Char → Content}

theorem eq_cut (h : Cut text n content) : (n, content) = cut (search text) := by
  cases h with
  | token hChosen =>
    have hGap : Unscannable text 0 := ⟨Nat.zero_le _, fun i hi => absurd hi (Nat.not_lt_zero i)⟩
    rw [Chosen.search_eq hGap hChosen, cut]
  | beforeWhitespace hPos hGap hChosen hWhitespace =>
    obtain ⟨q, rfl⟩ := Nat.exists_eq_succ_of_ne_zero (Nat.ne_of_gt hPos)
    rw [Chosen.search_eq hGap hChosen, cut, if_pos hWhitespace]
  | untilEnd hPos hGap =>
    have hSearch : search text = (text.length, none) := search_eq_iff.mpr
      ⟨hGap, by rw [List.drop_length, first?_nil], fun _ => rfl⟩
    rw [hSearch, cut]
  | withMatch hPos hGap hChosen hWhitespace =>
    obtain ⟨q, rfl⟩ := Nat.exists_eq_succ_of_ne_zero (Nat.ne_of_gt hPos)
    rw [Chosen.search_eq hGap hChosen, cut, if_neg (by simp [hWhitespace])]

theorem pos (h : Cut text n content) : 0 < n := by
  cases h with
  | token hChosen => exact hChosen.pos
  | beforeWhitespace hPos _ _ _ => exact hPos
  | untilEnd hPos _ => exact hPos
  | withMatch hPos _ _ _ => omega

theorem le_length (h : Cut text n content) : n ≤ text.length := by
  cases h with
  | token hChosen => exact hChosen.takes.1
  | beforeWhitespace _ hGap _ _ => exact hGap.1
  | untilEnd _ _ => exact Nat.le_refl _
  | withMatch _ hGap hChosen _ =>
    have hLength := hChosen.takes.1
    have hStart := hGap.1
    rw [List.length_drop] at hLength
    omega

theorem ne_nil (h : Cut text n content) : text ≠ [] := by
  rintro rfl
  exact absurd h.pos (Nat.not_lt.mpr h.le_length)

end Cut
end Category

/-- The tokens of a text that starts at a position. -/
inductive Lexes : Position → List Char → List Token → Prop where
  | nil {p : Position} : Lexes p [] []
  | cons {p : Position} {text : List Char} {n : Nat} {content : List Char → Content}
      {tokens : List Token} : Category.Cut text n content →
      Lexes (p.advance (text.take n)) (text.drop n) tokens →
      Lexes p text
        (⟨content (text.take n), ⟨p, p.advance (text.take n)⟩, String.ofList (text.take n)⟩ ::
          tokens)

namespace Cursor
variable {c d : Cursor} {t : Token}

theorem Tracks.step (h : c.Tracks) (hStep : c.Step t d) :
    ∃ n content, Category.Cut c.rest n content ∧ t = c.token n content ∧
      d.rest = c.rest.drop n ∧ d.position = (c.skip n).position ∧ d.Tracks := by
  cases hStep with
  | @queued category length hQueued =>
    have hChosen := Category.first?_eq_some_iff.mp (h.queued _ hQueued)
    exact ⟨length, category.content, .token hChosen, rfl, c.rest_skip length, rfl,
      h.skip hChosen.takes.1 (by simp)⟩
  | @token category length hQueued hSearch =>
    have hChosen := Category.first?_eq_some_iff.mp (Category.first?_of_search hSearch)
    exact ⟨length, category.content, .token hChosen, rfl, c.rest_skip length, rfl,
      h.skip hChosen.takes.1 (by simp [hQueued])⟩
  | untilEnd hQueued hRest hSearch =>
    obtain ⟨hGap, _, hEnd⟩ := Category.search_eq_iff.mp hSearch
    rw [hEnd rfl] at hGap
    have hPos := List.length_pos_iff.mpr hRest
    exact ⟨c.rest.length, _, .untilEnd hPos hGap, rfl, c.rest_skip _, rfl,
      h.skip (Nat.le_refl _) (by simp [hQueued])⟩
  | @beforeWhitespace gap length category hQueued hSearch hWhitespace =>
    obtain ⟨hGap, hFound, _⟩ := Category.search_eq_iff.mp hSearch
    have hChosen := Category.first?_eq_some_iff.mp hFound
    exact ⟨gap + 1, _, .beforeWhitespace (Nat.succ_pos gap) hGap hChosen hWhitespace, rfl,
      c.rest_skip _, rfl, h.skip hGap.1 (by simp [hFound])⟩
  | @withMatch gap length category hQueued hSearch hWhitespace =>
    obtain ⟨hGap, hFound, _⟩ := Category.search_eq_iff.mp hSearch
    have hChosen := Category.first?_eq_some_iff.mp hFound
    have hCut : Category.Cut c.rest (gap + 1 + length) _ :=
      .withMatch (Nat.succ_pos gap) hGap hChosen hWhitespace
    exact ⟨gap + 1 + length, _, hCut, rfl, c.rest_skip _, rfl,
      h.skip hCut.le_length (by simp [hQueued])⟩

/-- A cursor follows the rule. -/
theorem Tracks.lexes_tokens (h : c.Tracks) : Lexes c.position c.rest c.tokens := by
  fun_induction tokens c with
  | case1 c hNext =>
    rw [rest_eq_nil_of_next? hNext]
    exact .nil
  | case2 c t d hNext ih =>
    obtain ⟨n, content, hCut, rfl, hRest, hPosition, hTracks⟩ := h.step (step_of_next? hNext)
    rw [hRest, hPosition, h.position_skip hCut.le_length] at ih
    rw [token, h.position_skip hCut.le_length]
    exact .cons hCut (ih hTracks)

end Cursor

theorem Lexes.eq {p : Position} {text : List Char} {tokens tokens' : List Token}
    (h : Lexes p text tokens) (h' : Lexes p text tokens') : tokens = tokens' := by
  induction h generalizing tokens' with
  | nil =>
    cases h' with
    | nil => rfl
    | cons hCut _ => exact absurd rfl hCut.ne_nil
  | cons hCut _ ih =>
    cases h' with
    | nil => exact absurd rfl hCut.ne_nil
    | cons hCut' hRest' =>
      cases hCut.eq_cut.trans hCut'.eq_cut.symm
      rw [ih hRest']

theorem Lexes.text_ne_empty {p : Position} {text : List Char} {tokens : List Token}
    (h : Lexes p text tokens) : ∀ t ∈ tokens, t.text ≠ "" := by
  induction h with
  | nil => simp
  | cons hCut _ ih =>
    rintro t (_ | ⟨_, ht⟩)
    · simp [hCut.ne_nil, Nat.ne_of_gt hCut.pos]
    · exact ih t ht

/-- A token that is not an error is a text of some category, and its content is what that denotes. -/
theorem Lexes.eq_error_or_matches {p : Position} {text : List Char} {tokens : List Token}
    (h : Lexes p text tokens) : ∀ t ∈ tokens, t.content = .error .unexpectedToken ∨
      ∃ c : Category, c.pattern.Matches t.text.toList ∧ t.content = c.content t.text.toList := by
  induction h with
  | nil => simp
  | cons hCut _ ih =>
    refine List.forall_mem_cons.mpr ⟨?_, ih⟩
    rw [String.toList_ofList]
    cases hCut with
    | @token c _ hChosen => exact .inr ⟨c, hChosen.takes.2, rfl⟩
    | _ => exact .inl rfl

namespace Cursor

/-- The cursor behind the next token; at the end of the text it stays where it is. -/
def proceed (c : Cursor) : Cursor :=
  match c.next? with
  | none => c
  | some (_, d) => d

/-- The answer to the request for a token that follows `k` others. -/
def pull (c : Cursor) : Nat → Option Token
  | 0 => c.next?.map (·.1)
  | k + 1 => c.proceed.pull k

end Cursor

theorem lexes_tokenize (source : String) :
    Lexes .origin (normalizeLineEnds source).toList (tokenize source) := by
  rw [normalizeLineEnds, String.toList_ofList]
  exact (Cursor.tracks_ofSource source).lexes_tokens

end Outline
