import Outline.Pattern

/-! # Patterns whose preferred match is the longest

A backtracking search takes the first match that it comes across, which need not be the longest:
the order of alternatives decides. For the patterns built here the two agree. The rule for sequences
asks that the second pattern cannot go on behind a match of the first that was not the longest; this
is checked on characters, or follows because the first pattern has only one match.
-/
namespace Outline.Pattern
set_option autoImplicit false

theorem length_mem_waysRepeated {p : Pattern}
    (h : ∀ {s} (r : List Char), p.Matches s → s.length ∈ p.ways (s ++ r)) {q : Pattern}
    {s : List Char} (hs : q.Matches s) (hq : q = star p) {bound : List Char}
    (hBound : s.length ≤ bound.length) (r : List Char) :
    s.length ∈ waysRepeated p.ways bound (s ++ r) := by
  induction hs generalizing bound r with
  | starNil => cases bound <;> simp [waysRepeated]
  | @starCons p' s t hFirst _ _ ih =>
    cases hq
    -- An empty round does not use up the bound, so it is left out.
    cases s with
    | nil => exact ih rfl hBound r
    | cons c s =>
      cases bound with
      | nil => simp at hBound
      | cons b bound =>
        have hRest : t.length ≤ bound.length := by
          simp only [List.length_append, List.length_cons] at hBound
          omega
        rw [waysRepeated, List.mem_append, List.mem_flatMap]
        refine .inl ⟨(c :: s).length, ?_, List.mem_map.mpr ⟨t.length, ?_, ?_⟩⟩
        · rw [List.append_assoc]
          exact h _ hFirst
        · rw [List.append_assoc, List.drop_left]
          exact ih rfl hRest r
        · rw [List.length_append]
  | _ => cases hq

theorem length_mem_ways {p : Pattern} {s : List Char} (r : List Char) (h : p.Matches s) :
    s.length ∈ p.ways (s ++ r) := by
  induction p generalizing s r with
  | never => cases h
  | empty =>
    cases h
    simp [ways]
  | one accepts =>
    cases h with
    | one hAccepts => simp [ways, hAccepts]
  | seq p q ihp ihq =>
    cases h with
    | @seq _ _ s t hFirst hSecond =>
      refine mem_ways_seq.mpr ⟨s.length, ?_, t.length, ?_, List.length_append.symm⟩
      · rw [List.append_assoc]
        exact ihp _ hFirst
      · rw [List.append_assoc, List.drop_left]
        exact ihq r hSecond
  | alt p q ihp ihq =>
    rw [mem_ways_alt]
    cases h with
    | altLeft h => exact .inl (ihp r h)
    | altRight h => exact .inr (ihq r h)
  | star p ih =>
    have hBound : s.length ≤ (s ++ r).length := by
      rw [List.length_append]
      omega
    exact length_mem_waysRepeated ih h rfl hBound r

theorem mem_ways_iff {p : Pattern} {s : List Char} {n : Nat} :
    n ∈ p.ways s ↔ n ≤ s.length ∧ p.Matches (s.take n) := by
  constructor
  · exact matches_of_mem_ways
  · rintro ⟨hLength, hMatches⟩
    have h := length_mem_ways (s.drop n) hMatches
    rwa [List.take_append_drop, List.length_take, Nat.min_eq_left hLength] at h

theorem zero_mem_ways_iff {p : Pattern} {s : List Char} : 0 ∈ p.ways s ↔ p.Matches [] := by
  simp [mem_ways_iff]

/-- The first way to match is the longest. -/
def LongestFirst (p : Pattern) : Prop :=
  ∀ s n, (p.ways s).head? = some n → ∀ m ∈ p.ways s, m ≤ n

/-- Behind a match of `p` that was not the longest, `q` matches at most the empty text. -/
def Handover (p q : Pattern) : Prop :=
  ∀ s n m k, n ∈ p.ways s → m ∈ p.ways s → n < m → k ∈ q.ways (s.drop n) → k = 0

theorem Handover.lt {p q : Pattern} (h : Handover p q) (hq : q.nullable = false) {s : List Char}
    {n m : Nat} (hn : n ∈ (seq p q).ways s) (hm : m ∈ p.ways s) : m < n := by
  obtain ⟨a, ha, k, hk, rfl⟩ := mem_ways_seq.mp hn
  have hPos := pos_of_mem_ways hq hk
  rcases Nat.lt_or_ge a m with hLt | hLe
  · have hZero := h s a m k ha hm hLt hk
    omega
  · omega

theorem longestFirst_empty : LongestFirst .empty := by
  intro s n h m hm
  simp_all [ways]

theorem longestFirst_seq {p q : Pattern} (hp : LongestFirst p) (hq : LongestFirst q)
    (hand : Handover p q) : LongestFirst (.seq p q) := by
  intro s n h m hm
  obtain ⟨a, ha, k, hk, rfl⟩ := mem_ways_seq.mp hm
  obtain ⟨first, others, hWays⟩ : ∃ first others, p.ways s = first :: others :=
    List.exists_cons_of_ne_nil (List.ne_nil_of_mem ha)
  have hFirst : ∀ b ∈ p.ways s, b ≤ first := hp s first (by rw [hWays]; rfl)
  have hMem : first ∈ p.ways s := by rw [hWays]; exact List.mem_cons_self
  -- Behind a shorter match of `p` the pattern `q` is empty at most.
  have hShort : a < first → k = 0 := fun hLt => hand s a first k ha hMem hLt hk
  rw [ways, hWays, List.flatMap_cons, List.head?_append, List.head?_map] at h
  rcases hBehind : (q.ways (s.drop first)).head? with _ | best
  · -- If `q` failed behind the longest match, it would not match behind a shorter one either.
    exfalso
    have hNone : q.ways (s.drop first) = [] := List.head?_eq_none_iff.mp hBehind
    have hLt : a < first := by
      refine Nat.lt_of_le_of_ne (hFirst a ha) ?_
      rintro rfl
      rw [hNone] at hk
      cases hk
    rw [hShort hLt] at hk
    have hEmpty : 0 ∈ q.ways (s.drop first) := zero_mem_ways_iff.mpr (zero_mem_ways_iff.mp hk)
    rw [hNone] at hEmpty
    cases hEmpty
  · rw [hBehind] at h
    simp only [Option.map_some, Option.some_or, Option.some.injEq] at h
    subst h
    rcases Nat.lt_or_ge a first with hLt | hGe
    · have hZero := hShort hLt
      omega
    · have hEq : a = first := Nat.le_antisymm (hFirst a ha) hGe
      subst hEq
      have hBest := hq (s.drop a) best hBehind k hk
      omega

/-- The first alternative, if it matches at all, has a match as long as any of the second. -/
def Dominates (p q : Pattern) : Prop :=
  ∀ s n m, n ∈ p.ways s → m ∈ q.ways s → ∃ l ∈ p.ways s, m ≤ l

theorem longestFirst_alt {p q : Pattern} (hp : LongestFirst p) (hq : LongestFirst q)
    (hDominates : Dominates p q) : LongestFirst (.alt p q) := by
  intro s n h m hm
  rw [mem_ways_alt] at hm
  rw [ways, List.head?_append] at h
  rcases hFirst : (p.ways s).head? with _ | best
  · have hNone : p.ways s = [] := List.head?_eq_none_iff.mp hFirst
    rw [hFirst, Option.none_or] at h
    rw [hNone] at hm
    rcases hm with hm | hm
    · cases hm
    · exact hq s n h m hm
  · rw [hFirst, Option.some_or, Option.some.injEq] at h
    subst h
    rcases hm with hm | hm
    · exact hp s best hFirst m hm
    · obtain ⟨l, hl, hle⟩ := hDominates s best m (List.mem_of_head? hFirst) hm
      exact Nat.le_trans hle (hp s best hFirst l hl)

theorem longestFirst_optional {p : Pattern} (hp : LongestFirst p) : LongestFirst p.optional := by
  refine longestFirst_alt hp longestFirst_empty ?_
  intro s n m hn hm
  simp only [ways, List.mem_singleton] at hm
  exact ⟨n, hn, by omega⟩

/-- At most one match at the front of any text. -/
def Unique (p : Pattern) : Prop :=
  ∀ s n m, n ∈ p.ways s → m ∈ p.ways s → n = m

theorem Unique.handover {p : Pattern} (h : Unique p) (q : Pattern) : Handover p q := by
  intro s n m k hn hm hLt _
  have hEq := h s n m hn hm
  omega

theorem Unique.longestFirst {p : Pattern} (h : Unique p) : LongestFirst p := by
  intro s n hn m hm
  exact Nat.le_of_eq (h s m n hm (List.mem_of_head? hn))

theorem unique_empty : Unique .empty := by
  intro s n m hn hm
  simp_all [ways]

theorem eq_one_of_mem_ways {accepts : Char → Bool} {s : List Char} {n : Nat}
    (h : n ∈ (one accepts).ways s) : n = 1 := by
  cases s with
  | nil => cases h
  | cons c s =>
    rw [ways] at h
    split at h
    · exact List.mem_singleton.mp h
    · cases h

theorem unique_one (accepts : Char → Bool) : Unique (.one accepts) := by
  intro s n m hn hm
  rw [eq_one_of_mem_ways hn, eq_one_of_mem_ways hm]

theorem longestFirst_one (accepts : Char → Bool) : LongestFirst (.one accepts) :=
  (unique_one accepts).longestFirst

theorem unique_seq {p q : Pattern} (hp : Unique p) (hq : Unique q) : Unique (.seq p q) := by
  intro s n m hn hm
  obtain ⟨a, ha, k, hk, rfl⟩ := mem_ways_seq.mp hn
  obtain ⟨b, hb, l, hl, rfl⟩ := mem_ways_seq.mp hm
  have hFirst := hp s a b ha hb
  subst hFirst
  rw [hq _ k l hk hl]

theorem unique_times {p : Pattern} (hp : Unique p) (n : Nat) : Unique (p.times n) := by
  induction n with
  | zero => exact unique_empty
  | succ n ih => exact unique_seq hp ih

theorem longestFirst_star {p : Pattern} (hp : Unique p) : LongestFirst (.star p) := by
  suffices h : ∀ bound s n, (waysRepeated p.ways bound s).head? = some n →
      ∀ m ∈ waysRepeated p.ways bound s, m ≤ n from fun s => h s s
  intro bound
  induction bound with
  | nil =>
    intro s n h m hm
    simp_all [waysRepeated]
  | cons c bound ih =>
    intro s n h m hm
    simp only [waysRepeated, List.mem_append, List.mem_flatMap, List.mem_map,
      List.mem_singleton] at hm
    rcases hm with ⟨a, ha, k, hk, rfl⟩ | rfl
    · obtain ⟨first, others, hWays⟩ := List.exists_cons_of_ne_nil (List.ne_nil_of_mem ha)
      have hEq : a = first := hp s a first ha (by rw [hWays]; exact List.mem_cons_self)
      subst hEq
      obtain ⟨best, rest, hBest⟩ := List.exists_cons_of_ne_nil (List.ne_nil_of_mem hk)
      simp only [waysRepeated, hWays, List.flatMap_cons, hBest, List.map_cons, List.cons_append,
        List.head?_cons, Option.some.injEq] at h
      have hLe := ih (s.drop a) best (by rw [hBest]; rfl) k hk
      omega
    · exact Nat.zero_le n

/-- The characters that a match which is not empty may start with. -/
def mayStart (c : Char) : Pattern → Bool
  | .never | .empty => false
  | .one accepts => accepts c
  | .seq p q => p.mayStart c || p.nullable && q.mayStart c
  | .alt p q => p.mayStart c || q.mayStart c
  | .star p => p.mayStart c

/-- The characters that a match may hold. -/
def mayHold (c : Char) : Pattern → Bool
  | .never | .empty => false
  | .one accepts => accepts c
  | .seq p q => p.mayHold c || q.mayHold c
  | .alt p q => p.mayHold c || q.mayHold c
  | .star p => p.mayHold c

theorem mayStart_of_matches {p : Pattern} {t : List Char} (h : p.Matches t) {c : Char}
    {r : List Char} (ht : t = c :: r) : p.mayStart c = true := by
  induction h generalizing r with
  | empty => cases ht
  | one hAccepts =>
    cases ht
    exact hAccepts
  | @seq p q s t hFirst _ ihp ihq =>
    cases s with
    | nil => simp [mayStart, nullable_of_matches hFirst rfl, ihq ht]
    | cons d s =>
      cases ht
      simp [mayStart, ihp rfl]
  | altLeft _ ih => simp [mayStart, ih ht]
  | altRight _ ih => simp [mayStart, ih ht]
  | starNil => cases ht
  | @starCons p s t _ _ ihp ihq =>
    cases s with
    | nil => exact ihq ht
    | cons d s =>
      cases ht
      exact ihp rfl

theorem mayHold_of_matches {p : Pattern} {t : List Char} (h : p.Matches t) {c : Char}
    (hc : c ∈ t) : p.mayHold c = true := by
  induction h with
  | empty => cases hc
  | one hAccepts =>
    cases List.mem_singleton.mp hc
    exact hAccepts
  | seq _ _ ihp ihq =>
    rcases List.mem_append.mp hc with hc | hc
    · simp [mayHold, ihp hc]
    · simp [mayHold, ihq hc]
  | altLeft _ ih => simp [mayHold, ih hc]
  | altRight _ ih => simp [mayHold, ih hc]
  | starNil => cases hc
  | starCons _ _ ihp ihq =>
    rcases List.mem_append.mp hc with hc | hc
    · exact ihp hc
    · exact ihq hc

theorem mayStart_of_mem_ways {p : Pattern} {s : List Char} {n : Nat} (hn : n ∈ p.ways s)
    (hPos : 0 < n) : ∃ c r, s = c :: r ∧ p.mayStart c = true := by
  obtain ⟨hLength, hMatches⟩ := mem_ways_iff.mp hn
  cases s with
  | nil =>
    simp only [List.length_nil] at hLength
    omega
  | cons c r =>
    obtain ⟨k, rfl⟩ := Nat.exists_eq_succ_of_ne_zero (Nat.ne_of_gt hPos)
    exact ⟨c, r, rfl, mayStart_of_matches hMatches List.take_succ_cons⟩

theorem take_eq_of_drop_eq_cons {s r : List Char} {c : Char} {n m : Nat} (hLt : n < m)
    (hDrop : s.drop n = c :: r) : ∃ l, s.take m = s.take n ++ c :: r.take l := by
  obtain ⟨l, hl⟩ := Nat.exists_eq_add_of_lt hLt
  refine ⟨l, ?_⟩
  rw [hl, Nat.add_assoc, List.take_add, hDrop, List.take_succ_cons]

/-- A longer match of `p` holds the character that `q` would have to start with. -/
theorem handover_of_characters {p q : Pattern}
    (h : ∀ c, p.mayHold c = true → ¬ q.mayStart c = true) : Handover p q := by
  intro s n m k _ hm hLt hk
  rcases Nat.eq_zero_or_pos k with hZero | hPos
  · exact hZero
  obtain ⟨c, r, hDrop, hStart⟩ := mayStart_of_mem_ways hk hPos
  obtain ⟨hLength, hMatches⟩ := mem_ways_iff.mp hm
  obtain ⟨l, hSplit⟩ := take_eq_of_drop_eq_cons hLt hDrop
  have hMem : c ∈ s.take m := by simp [hSplit]
  exact absurd hStart (h c (mayHold_of_matches hMatches hMem))

theorem handover_of_starts {p q : Pattern} (starts : List Char)
    (hStart : ∀ c, q.mayStart c = true → c ∈ starts)
    (hHold : starts.any p.mayHold = false) : Handover p q := by
  apply handover_of_characters
  intro c hc hq
  have hAny : starts.any p.mayHold = true := List.any_eq_true.mpr ⟨c, hStart c hq, hc⟩
  rw [hHold] at hAny
  cases hAny

def Apart (p q : Pattern) : Prop :=
  p.nullable = false ∧ q.nullable = false ∧ ∀ c, p.mayStart c = true → ¬ q.mayStart c = true

theorem Apart.not_mem_ways {p q : Pattern} (h : Apart p q) {s : List Char} {n m : Nat}
    (hn : n ∈ p.ways s) (hm : m ∈ q.ways s) : False := by
  obtain ⟨hp, hq, hStarts⟩ := h
  obtain ⟨c, r, rfl, hFirst⟩ := mayStart_of_mem_ways hn (pos_of_mem_ways hp hn)
  obtain ⟨d, t, hEq, hSecond⟩ := mayStart_of_mem_ways hm (pos_of_mem_ways hq hm)
  cases hEq
  exact hStarts c hFirst hSecond

theorem Apart.dominates {p q : Pattern} (h : Apart p q) : Dominates p q := by
  intro s n m hn hm
  exact (h.not_mem_ways hn hm).elim

theorem unique_alt {p q : Pattern} (hp : Unique p) (hq : Unique q) (h : Apart p q) :
    Unique (.alt p q) := by
  intro s n m hn hm
  rcases mem_ways_alt.mp hn with hn | hn <;> rcases mem_ways_alt.mp hm with hm | hm
  · exact hp s n m hn hm
  · exact (h.not_mem_ways hn hm).elim
  · exact (h.not_mem_ways hm hn).elim
  · exact hq s n m hn hm

theorem unique_alt_seq {p q r : Pattern} (hp : Unique p) (hq : Unique q) (hr : Unique r)
    (h : Apart q r) : Unique (.alt (.seq p q) (.seq p r)) := by
  have hJoin : ∀ s n, n ∈ (alt (seq p q) (seq p r)).ways s → n ∈ (seq p (alt q r)).ways s := by
    intro s n hn
    rcases mem_ways_alt.mp hn with hn | hn
    · obtain ⟨a, ha, k, hk, rfl⟩ := mem_ways_seq.mp hn
      exact mem_ways_seq.mpr ⟨a, ha, k, mem_ways_alt.mpr (.inl hk), rfl⟩
    · obtain ⟨a, ha, k, hk, rfl⟩ := mem_ways_seq.mp hn
      exact mem_ways_seq.mpr ⟨a, ha, k, mem_ways_alt.mpr (.inr hk), rfl⟩
  intro s n m hn hm
  exact unique_seq hp (unique_alt hq hr h) s n m (hJoin s n hn) (hJoin s m hm)

/-- A sequence has one match if its second part cannot take over early. -/
theorem Handover.unique_seq {p q : Pattern} (h : Handover p q) (hq : Unique q)
    (hNullable : q.nullable = false) : Unique (.seq p q) := by
  intro s n m hn hm
  obtain ⟨a, ha, k, hk, rfl⟩ := mem_ways_seq.mp hn
  obtain ⟨b, hb, l, hl, rfl⟩ := mem_ways_seq.mp hm
  have hPos := pos_of_mem_ways hNullable hk
  have hPos' := pos_of_mem_ways hNullable hl
  rcases Nat.lt_trichotomy a b with hLt | rfl | hGt
  · have hZero := h s a b k ha hb hLt hk
    omega
  · rw [hq _ k l hk hl]
  · have hZero := h s b a l hb ha hGt hl
    omega

theorem Unique.eq_of_append_eq {p : Pattern} (hp : Unique p) {u v r t : List Char}
    (hu : p.Matches u) (hv : p.Matches v) (h : u ++ r = v ++ t) : u = v ∧ r = t := by
  have hLength : u.length = v.length := by
    refine hp (u ++ r) _ _ (length_mem_ways r hu) ?_
    rw [h]
    exact length_mem_ways t hv
  exact List.append_inj h hLength

theorem exists_of_matches_star {p q : Pattern} {t : List Char} (h : q.Matches t)
    (hq : q = star p) (ht : t ≠ []) :
    ∃ u r, t = u ++ r ∧ p.Matches u ∧ (star p).Matches r := by
  cases h with
  | starNil => exact absurd rfl ht
  | @starCons _ s t hFirst hRest =>
    cases hq
    exact ⟨s, t, rfl, hFirst, hRest⟩
  | _ => cases hq

theorem matches_star_of_append {p q : Pattern} (hp : Unique p) {u v : List Char}
    (hu : q.Matches u) (hq : q = star p) (h : (star p).Matches (u ++ v)) :
    (star p).Matches v := by
  induction hu with
  | starNil => exact h
  | @starCons p' s t hFirst _ _ ih =>
    cases hq
    cases s with
    | nil => exact ih rfl h
    | cons c s =>
      obtain ⟨w, rest, hText, hAgain, hRest⟩ := exists_of_matches_star h rfl (by simp)
      rw [List.append_assoc] at hText
      obtain ⟨_, hEq⟩ := hp.eq_of_append_eq hFirst hAgain hText
      rw [← hEq] at hRest
      exact ih rfl hRest
  | _ => cases hq

/-- A pattern that cannot start a repetition takes over only behind the last one. -/
theorem handover_star {p q : Pattern} (hp : Unique p)
    (h : ∀ c, p.mayStart c = true → ¬ q.mayStart c = true) : Handover (.star p) q := by
  intro s n m k hn hm hLt hk
  rcases Nat.eq_zero_or_pos k with hZero | hPos
  · exact hZero
  obtain ⟨c, r, hDrop, hStart⟩ := mayStart_of_mem_ways hk hPos
  obtain ⟨_, hShort⟩ := mem_ways_iff.mp hn
  obtain ⟨_, hLong⟩ := mem_ways_iff.mp hm
  obtain ⟨l, hSplit⟩ := take_eq_of_drop_eq_cons hLt hDrop
  rw [hSplit] at hLong
  have hMore := matches_star_of_append hp hShort rfl hLong
  exact absurd hStart (h c (mayStart_of_matches hMore rfl))

theorem LongestFirst.preferred?_eq_some_iff {p : Pattern} (hp : LongestFirst p) {s : List Char}
    {n : Nat} :
    p.preferred? s = some n ↔
      (n ≤ s.length ∧ p.Matches (s.take n)) ∧
        ∀ m, m ≤ s.length → p.Matches (s.take m) → m ≤ n := by
  rw [preferred?_eq_head?]
  constructor
  · intro h
    refine ⟨mem_ways_iff.mp (List.mem_of_head? h), ?_⟩
    intro m hLength hMatches
    exact hp s n h m (mem_ways_iff.mpr ⟨hLength, hMatches⟩)
  · rintro ⟨hMatch, hLongest⟩
    have hMem := mem_ways_iff.mpr hMatch
    obtain ⟨first, others, hWays⟩ := List.exists_cons_of_ne_nil (List.ne_nil_of_mem hMem)
    have hHead : (p.ways s).head? = some first := by rw [hWays]; rfl
    obtain ⟨hLength, hMatches⟩ := mem_ways_iff.mp (List.mem_of_head? hHead)
    have hLe := hp s first hHead n hMem
    have hGe := hLongest first hLength hMatches
    rw [hHead, Nat.le_antisymm hGe hLe]

theorem preferred?_eq_none_iff {p : Pattern} {s : List Char} :
    p.preferred? s = none ↔ ∀ n, n ≤ s.length → ¬ p.Matches (s.take n) := by
  rw [preferred?_eq_head?, List.head?_eq_none_iff, List.eq_nil_iff_forall_not_mem]
  constructor
  · intro h n hLength hMatches
    exact h n (mem_ways_iff.mpr ⟨hLength, hMatches⟩)
  · intro h n hn
    obtain ⟨hLength, hMatches⟩ := mem_ways_iff.mp hn
    exact h n hLength hMatches

end Outline.Pattern
