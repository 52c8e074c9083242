import Outline.Pattern

/-! # The languages of simple patterns

Which texts the building blocks of patterns match, said without patterns.
-/
namespace Outline.Pattern
set_option autoImplicit false

theorem matches_empty_iff {s : List Char} : empty.Matches s ↔ s = [] := by
  constructor
  · intro h
    cases h
    rfl
  · rintro rfl
    exact .empty

theorem not_matches_never {s : List Char} : ¬ never.Matches s := by
  intro h
  cases h

theorem matches_alt_iff {p q : Pattern} {s : List Char} :
    (alt p q).Matches s ↔ p.Matches s ∨ q.Matches s := by
  constructor
  · intro h
    cases h with
    | altLeft hFirst => exact .inl hFirst
    | altRight hSecond => exact .inr hSecond
  · rintro (hFirst | hSecond)
    · exact .altLeft hFirst
    · exact .altRight hSecond

theorem matches_one_iff {accepts : Char → Bool} {s : List Char} :
    (one accepts).Matches s ↔ ∃ c, s = [c] ∧ accepts c = true := by
  constructor
  · intro h
    cases h with
    | @one _ c hAccepts => exact ⟨c, rfl, hAccepts⟩
  · rintro ⟨c, rfl, hAccepts⟩
    exact .one hAccepts

theorem matches_char_iff {c : Char} {s : List Char} : (char c).Matches s ↔ s = [c] := by
  simp [char, matches_one_iff]

theorem matches_seq_iff {p q : Pattern} {s : List Char} :
    (seq p q).Matches s ↔ ∃ a b, s = a ++ b ∧ p.Matches a ∧ q.Matches b := by
  constructor
  · intro h
    cases h with
    | @seq _ _ a b hFirst hSecond => exact ⟨a, b, rfl, hFirst, hSecond⟩
  · rintro ⟨a, b, rfl, hFirst, hSecond⟩
    exact .seq hFirst hSecond

theorem matches_separated_iff {p q : Pattern} {mark : Char} {s : List Char} :
    (seq p (seq (char mark) q)).Matches s ↔
      ∃ a b, s = a ++ mark :: b ∧ p.Matches a ∧ q.Matches b := by
  rw [matches_seq_iff]
  constructor
  · rintro ⟨a, rest, rfl, ha, hRest⟩
    obtain ⟨m, b, rfl, hMark, hb⟩ := matches_seq_iff.mp hRest
    obtain rfl := matches_char_iff.mp hMark
    exact ⟨a, b, rfl, ha, hb⟩
  · rintro ⟨a, b, rfl, ha, hb⟩
    exact ⟨a, mark :: b, rfl, ha, .seq (matches_char_iff.mpr rfl) hb⟩

theorem forall_of_matches_star {accepts : Char → Bool} {q : Pattern} {s : List Char}
    (h : q.Matches s) (hq : q = star (one accepts)) : ∀ c ∈ s, accepts c = true := by
  induction h with
  | starNil => simp
  | starCons hFirst _ _ ih =>
    cases hq
    obtain ⟨c, rfl, hAccepts⟩ := matches_one_iff.mp hFirst
    exact List.forall_mem_cons.mpr ⟨hAccepts, ih rfl⟩
  | _ => cases hq

theorem matches_star_one_iff {accepts : Char → Bool} {s : List Char} :
    (star (one accepts)).Matches s ↔ ∀ c ∈ s, accepts c = true := by
  constructor
  · intro h
    exact forall_of_matches_star h rfl
  · intro h
    induction s with
    | nil => exact .starNil
    | cons c s ih =>
      obtain ⟨hFirst, hRest⟩ := List.forall_mem_cons.mp h
      exact .starCons (.one hFirst) (ih hRest)

theorem matches_plus_one_iff {accepts : Char → Bool} {s : List Char} :
    (plus (one accepts)).Matches s ↔ s ≠ [] ∧ ∀ c ∈ s, accepts c = true := by
  rw [plus, matches_seq_iff]
  constructor
  · rintro ⟨a, b, rfl, hFirst, hRest⟩
    obtain ⟨c, rfl, hAccepts⟩ := matches_one_iff.mp hFirst
    exact ⟨by simp, List.forall_mem_cons.mpr ⟨hAccepts, matches_star_one_iff.mp hRest⟩⟩
  · rintro ⟨hNonempty, hAccepts⟩
    obtain ⟨c, rest, rfl⟩ := List.exists_cons_of_ne_nil hNonempty
    obtain ⟨hFirst, hRest⟩ := List.forall_mem_cons.mp hAccepts
    exact ⟨[c], rest, rfl, .one hFirst, matches_star_one_iff.mpr hRest⟩

theorem matches_star_one_concat {accepts : Char → Bool} {c : Char} (hc : accepts c = true)
    (s : List Char) (h : (star (one accepts)).Matches s) :
    (star (one accepts)).Matches (s ++ [c]) := by
  rw [matches_star_one_iff] at h ⊢
  exact List.forall_mem_append.mpr ⟨h, List.forall_mem_singleton.mpr hc⟩

theorem matches_seq_concat {p q : Pattern} {c : Char}
    (h : ∀ s, q.Matches s → q.Matches (s ++ [c])) {s : List Char} (hs : (seq p q).Matches s) :
    (seq p q).Matches (s ++ [c]) := by
  obtain ⟨a, b, rfl, hFirst, hSecond⟩ := matches_seq_iff.mp hs
  rw [List.append_assoc]
  exact .seq hFirst (h b hSecond)

end Outline.Pattern
