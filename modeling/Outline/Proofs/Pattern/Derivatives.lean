import Outline.Proofs.Pattern.Languages
import Outline.Proofs.Pattern.LongestFirst

/-! # Derivatives find the longest match

A derivative by a character matches what may follow the character, so taking derivatives along a
text and asking on the way for the empty match passes through all matches at its front.
-/
namespace Outline.Pattern
set_option autoImplicit false

theorem nullable_iff {p : Pattern} : p.nullable = true ↔ p.Matches [] := by
  constructor
  · intro h
    induction p with
    | never => cases h
    | empty => exact .empty
    | one accepts => cases h
    | seq p q ihp ihq =>
      obtain ⟨hFirst, hSecond⟩ := Bool.and_eq_true_iff.mp h
      exact .seq (ihp hFirst) (ihq hSecond)
    | alt p q ihp ihq =>
      rcases Bool.or_eq_true_iff.mp h with hFirst | hSecond
      · exact .altLeft (ihp hFirst)
      · exact .altRight (ihq hSecond)
    | star p _ => exact .starNil
  · intro h
    exact nullable_of_matches h rfl

theorem matches_seqSimple_iff {p q : Pattern} {s : List Char} :
    (seqSimple p q).Matches s ↔ (seq p q).Matches s := by
  unfold seqSimple
  split
  · simp [matches_seq_iff, not_matches_never]
  · rw [matches_seq_iff]
    constructor
    · intro h
      exact ⟨[], s, rfl, .empty, h⟩
    · rintro ⟨a, b, rfl, hEmpty, h⟩
      obtain rfl := matches_empty_iff.mp hEmpty
      exact h
  · rfl

theorem matches_altSimple_iff {p q : Pattern} {s : List Char} :
    (altSimple p q).Matches s ↔ (alt p q).Matches s := by
  unfold altSimple
  split
  · simp [matches_alt_iff, not_matches_never]
  · simp [matches_alt_iff, not_matches_never]
  · rfl

theorem matches_seq_cons_iff {p q : Pattern} {c : Char} {s : List Char} :
    (seq p q).Matches (c :: s) ↔
      (∃ a b, s = a ++ b ∧ p.Matches (c :: a) ∧ q.Matches b) ∨
        p.Matches [] ∧ q.Matches (c :: s) := by
  rw [matches_seq_iff]
  constructor
  · rintro ⟨a, b, hText, hFirst, hSecond⟩
    cases a with
    | nil =>
      rw [List.nil_append] at hText
      exact .inr ⟨hFirst, hText ▸ hSecond⟩
    | cons d a =>
      obtain ⟨rfl, rfl⟩ := List.cons.inj hText
      exact .inl ⟨a, b, rfl, hFirst, hSecond⟩
  · rintro (⟨a, b, rfl, hFirst, hSecond⟩ | ⟨hFirst, hSecond⟩)
    · exact ⟨c :: a, b, rfl, hFirst, hSecond⟩
    · exact ⟨[], c :: s, rfl, hFirst, hSecond⟩

/-- Empty rounds before the first character are left out. -/
theorem exists_round_of_matches {p q : Pattern} {c : Char} {s t : List Char} (h : q.Matches t)
    (hq : q = star p) (ht : t = c :: s) :
    ∃ a b, s = a ++ b ∧ p.Matches (c :: a) ∧ (star p).Matches b := by
  induction h with
  | starNil => cases ht
  | @starCons p' u v hFirst hRest _ ih =>
    cases hq
    cases u with
    | nil => exact ih rfl ht
    | cons d u =>
      cases ht
      exact ⟨u, v, rfl, hFirst, hRest⟩
  | _ => cases hq

theorem matches_star_cons_iff {p : Pattern} {c : Char} {s : List Char} :
    (star p).Matches (c :: s) ↔
      ∃ a b, s = a ++ b ∧ p.Matches (c :: a) ∧ (star p).Matches b := by
  constructor
  · intro h
    exact exists_round_of_matches h rfl rfl
  · rintro ⟨a, b, rfl, hFirst, hRest⟩
    exact .starCons hFirst hRest

theorem matches_derivative_iff {p : Pattern} {c : Char} {s : List Char} :
    (p.derivative c).Matches s ↔ p.Matches (c :: s) := by
  induction p generalizing s with
  | never => simp [derivative, not_matches_never]
  | empty => simp [derivative, not_matches_never, matches_empty_iff]
  | one accepts =>
    have hCons : (one accepts).Matches (c :: s) ↔ s = [] ∧ accepts c = true := by
      rw [matches_one_iff]
      constructor
      · rintro ⟨d, hText, hAccepts⟩
        cases hText
        exact ⟨rfl, hAccepts⟩
      · rintro ⟨rfl, hAccepts⟩
        exact ⟨c, rfl, hAccepts⟩
    rw [derivative, hCons]
    split
    · rename_i hAccepts
      simp [matches_empty_iff, hAccepts]
    · rename_i hRejects
      simp [not_matches_never, hRejects]
  | seq p q ihp ihq =>
    rw [derivative, matches_seq_cons_iff, ← nullable_iff]
    split
    · rename_i hNullable
      simp [matches_altSimple_iff, matches_alt_iff, matches_seqSimple_iff, matches_seq_iff, ihp,
        ihq, hNullable]
    · rename_i hNullable
      simp [matches_seqSimple_iff, matches_seq_iff, ihp, hNullable]
  | alt p q ihp ihq => simp [derivative, matches_altSimple_iff, matches_alt_iff, ihp, ihq]
  | star p ih =>
    simp [derivative, matches_seqSimple_iff, matches_seq_iff, matches_star_cons_iff, ih]

theorem matches_iff_nullable (p : Pattern) (s : List Char) :
    p.Matches s ↔ (s.foldl (fun p c => p.derivative c) p).nullable = true := by
  induction s generalizing p with
  | nil => exact nullable_iff.symm
  | cons c s ih => rw [List.foldl_cons, ← ih, matches_derivative_iff]

instance (p : Pattern) (s : List Char) : Decidable (p.Matches s) :=
  decidable_of_iff _ (matches_iff_nullable p s).symm

theorem succ_mem_ways_iff {p : Pattern} {c : Char} {s : List Char} {n : Nat} :
    n + 1 ∈ p.ways (c :: s) ↔ n ∈ (p.derivative c).ways s := by
  simp [mem_ways_iff, matches_derivative_iff]

theorem max?_ways_of_zero {p : Pattern} {s : List Char} (h : ∀ n ∈ p.ways s, n = 0) :
    (p.ways s).max? = if p.nullable then some 0 else none := by
  split
  · rename_i hNullable
    rw [List.max?_eq_some_iff]
    refine ⟨zero_mem_ways_iff.mpr (nullable_iff.mp hNullable), ?_⟩
    intro n hn
    exact Nat.le_of_eq (h n hn)
  · rename_i hNullable
    rw [List.max?_eq_none_iff, List.eq_nil_iff_forall_not_mem]
    intro n hn
    obtain rfl := h n hn
    exact hNullable (nullable_iff.mpr (zero_mem_ways_iff.mp hn))

theorem longest?_eq_max? (p : Pattern) (s : List Char) : p.longest? s = (p.ways s).max? := by
  induction s generalizing p with
  | nil =>
    rw [longest?_nil, max?_ways_of_zero]
    intro n hn
    exact Nat.le_zero.mp (mem_ways_iff.mp hn).1
  | cons c s ih =>
    rw [longest?_cons, ih]
    rcases hLonger : ((p.derivative c).ways s).max? with _ | n
    · rw [List.max?_eq_none_iff] at hLonger
      rw [max?_ways_of_zero]
      intro n hn
      cases n with
      | zero => rfl
      | succ n => simp [succ_mem_ways_iff, hLonger] at hn
    · obtain ⟨hMem, hMax⟩ := List.max?_eq_some_iff.mp hLonger
      symm
      rw [List.max?_eq_some_iff]
      refine ⟨succ_mem_ways_iff.mpr hMem, ?_⟩
      intro m hm
      cases m with
      | zero => exact Nat.zero_le _
      | succ m => exact Nat.succ_le_succ (hMax m (succ_mem_ways_iff.mp hm))

theorem Unique.longest?_eq {p : Pattern} (h : Unique p) {s : List Char} (hs : p.Matches s)
    (rest : List Char) : p.longest? (s ++ rest) = some s.length := by
  rw [longest?_eq_max?, List.max?_eq_some_iff]
  refine ⟨length_mem_ways rest hs, ?_⟩
  intro m hm
  exact Nat.le_of_eq (h _ m _ hm (length_mem_ways rest hs))

/-- A match cannot go on with a character that the pattern does not hold. -/
theorem longest?_append {p : Pattern} {s rest : List Char} (hs : p.Matches s)
    (hRest : ∀ c ∈ rest.head?, p.mayHold c = false) : p.longest? (s ++ rest) = some s.length := by
  rw [longest?_eq_max?, List.max?_eq_some_iff]
  refine ⟨length_mem_ways rest hs, ?_⟩
  intro m hm
  obtain ⟨hLength, hMatches⟩ := mem_ways_iff.mp hm
  apply Nat.le_of_not_lt
  intro hLonger
  cases rest with
  | nil =>
    rw [List.append_nil] at hLength
    omega
  | cons c rest =>
    have hDrop : (s ++ c :: rest).drop s.length = c :: rest := List.drop_left
    obtain ⟨l, hSplit⟩ := take_eq_of_drop_eq_cons hLonger hDrop
    have hMem : c ∈ (s ++ c :: rest).take m := by
      rw [hSplit]
      simp
    have hHolds := mayHold_of_matches hMatches hMem
    rw [hRest c rfl] at hHolds
    cases hHolds

theorem longest?_eq_none {p : Pattern} (hNullable : p.nullable = false) {c : Char}
    (hStart : p.mayStart c = false) (s : List Char) : p.longest? (c :: s) = none := by
  rw [longest?_eq_max?, List.max?_eq_none_iff, List.eq_nil_iff_forall_not_mem]
  intro n hn
  obtain ⟨d, rest, hText, hMay⟩ := mayStart_of_mem_ways hn (pos_of_mem_ways hNullable hn)
  cases hText
  rw [hStart] at hMay
  cases hMay

end Outline.Pattern
