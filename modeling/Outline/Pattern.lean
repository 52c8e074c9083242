/-! # Regular patterns

Patterns over characters, the set of texts that each one matches, and two ways to match at the front
of a text. The preferred match is the first that a backtracking search finds: it tries the first
alternative before the second, and one more repetition before none. The longest match is found by
taking derivatives character by character.
-/
namespace Outline
set_option autoImplicit false

inductive Pattern where
  | never
  | empty
  | one (accepts : Char → Bool)
  | seq (first second : Pattern)
  | alt (first second : Pattern)
  | star (inner : Pattern)

namespace Pattern

inductive Matches : Pattern → List Char → Prop where
  | empty : Matches .empty []
  | one {accepts : Char → Bool} {c : Char} : accepts c = true → Matches (.one accepts) [c]
  | seq {p q : Pattern} {s t : List Char} : Matches p s → Matches q t → Matches (.seq p q) (s ++ t)
  | altLeft {p q : Pattern} {s : List Char} : Matches p s → Matches (.alt p q) s
  | altRight {p q : Pattern} {s : List Char} : Matches q s → Matches (.alt p q) s
  | starNil {p : Pattern} : Matches (.star p) []
  | starCons {p : Pattern} {s t : List Char} :
      Matches p s → Matches (.star p) t → Matches (.star p) (s ++ t)

def char (c : Char) : Pattern := .one (· == c)

def oneOf (chars : List Char) : Pattern := .one (chars.contains ·)

def plus (p : Pattern) : Pattern := .seq p (.star p)

def optional (p : Pattern) : Pattern := .alt p .empty

def times (p : Pattern) : Nat → Pattern
  | 0 => .empty
  | n + 1 => .seq p (p.times n)

def upTo (p : Pattern) : Nat → Pattern
  | 0 => .empty
  | n + 1 => optional (.seq p (p.upTo n))

def oneUpTo (p : Pattern) (n : Nat) : Pattern := .seq p (p.upTo n)

def seqs : List Pattern → Pattern
  | [] => .empty
  | [p] => p
  | p :: ps => .seq p (seqs ps)

def alts : List Pattern → Pattern
  | [] => .never
  | [p] => p
  | p :: ps => .alt p (alts ps)

section Search
variable {α : Type}

/-- Repeats a step as often as it leads to a result, at most once for each character of `bound`. -/
def repeatedly (step : (Nat → List Char → Option α) → Nat → List Char → Option α)
    (next : Nat → List Char → Option α) : List Char → Nat → List Char → Option α
  | [], n, s => next n s
  | _ :: bound, n, s => (step (repeatedly step next bound) n s).or (next n s)

/-- Matches at the front of `s`, behind `n` characters already passed, and goes on with `next` behind
the match. If that fails, the next possible match is tried. -/
def attempt : Pattern → (Nat → List Char → Option α) → Nat → List Char → Option α
  | .never, _, _, _ => none
  | .empty, next, n, s => next n s
  | .one _, _, _, [] => none
  | .one accepts, next, n, c :: s => if accepts c then next (n + 1) s else none
  | .seq p q, next, n, s => p.attempt (q.attempt next) n s
  | .alt p q, next, n, s => (p.attempt next n s).or (q.attempt next n s)
  | .star p, next, n, s => repeatedly p.attempt next s n s

end Search

def preferred? (p : Pattern) (s : List Char) : Option Nat := p.attempt (fun n _ => some n) 0 s

def waysRepeated (ways : List Char → List Nat) : List Char → List Char → List Nat
  | [], _ => [0]
  | _ :: bound, s =>
    ((ways s).flatMap fun n => (waysRepeated ways bound (s.drop n)).map (n + ·)) ++ [0]

/-- The lengths of all matches at the front of a text, in the order in which they are tried. -/
def ways : Pattern → List Char → List Nat
  | .never, _ => []
  | .empty, _ => [0]
  | .one _, [] => []
  | .one accepts, c :: _ => if accepts c then [1] else []
  | .seq p q, s => (p.ways s).flatMap fun n => (q.ways (s.drop n)).map (n + ·)
  | .alt p q, s => p.ways s ++ q.ways s
  | .star p, s => waysRepeated p.ways s s

theorem mem_ways_seq {p q : Pattern} {s : List Char} {n : Nat} :
    n ∈ (seq p q).ways s ↔ ∃ a ∈ p.ways s, ∃ b ∈ q.ways (s.drop a), a + b = n := by
  simp [ways]

theorem mem_ways_alt {p q : Pattern} {s : List Char} {n : Nat} :
    n ∈ (alt p q).ways s ↔ n ∈ p.ways s ∨ n ∈ q.ways s := List.mem_append

theorem findSome?_flatMap {α β γ : Type} (f : β → Option γ) (g : α → List β) (l : List α) :
    (l.flatMap g).findSome? f = l.findSome? fun a => (g a).findSome? f := by
  induction l with
  | nil => rfl
  | cons a l ih =>
    simp only [List.flatMap_cons, List.findSome?_append, ih, List.findSome?_cons]
    cases (g a).findSome? f <;> rfl

theorem repeatedly_eq {α : Type} {p : Pattern}
    (h : ∀ (next : Nat → List Char → Option α) n s,
      p.attempt next n s = (p.ways s).findSome? fun m => next (n + m) (s.drop m))
    (next : Nat → List Char → Option α) (bound : List Char) (n : Nat) (s : List Char) :
    repeatedly p.attempt next bound n s =
      (waysRepeated p.ways bound s).findSome? fun m => next (n + m) (s.drop m) := by
  induction bound generalizing n s with
  | nil => simp [repeatedly, waysRepeated]
  | cons c bound ih =>
    simp only [repeatedly, waysRepeated, h, ih, List.findSome?_append, findSome?_flatMap,
      List.findSome?_map]
    simp [Function.comp_def, Nat.add_assoc]

/-- The search tries the ways to match one after the other. -/
theorem attempt_eq {α : Type} (p : Pattern) (next : Nat → List Char → Option α) (n : Nat)
    (s : List Char) :
    p.attempt next n s = (p.ways s).findSome? fun m => next (n + m) (s.drop m) := by
  induction p generalizing next n s with
  | never => rfl
  | empty => simp [attempt, ways]
  | one accepts =>
    cases s with
    | nil => rfl
    | cons c s =>
      simp only [attempt, ways]
      split <;> simp
  | seq p q ihp ihq =>
    simp only [attempt, ways, ihp, ihq, findSome?_flatMap, List.findSome?_map]
    simp [Function.comp_def, Nat.add_assoc]
  | alt p q ihp ihq => simp [attempt, ways, ihp, ihq, List.findSome?_append]
  | star p ih => exact repeatedly_eq ih next s n s

theorem preferred?_eq_head? (p : Pattern) (s : List Char) : p.preferred? s = (p.ways s).head? := by
  rw [preferred?, attempt_eq]
  cases p.ways s <;> simp

theorem matches_of_mem_waysRepeated {p : Pattern}
    (h : ∀ {s n}, n ∈ p.ways s → n ≤ s.length ∧ p.Matches (s.take n)) {bound s : List Char}
    {n : Nat} (hn : n ∈ waysRepeated p.ways bound s) :
    n ≤ s.length ∧ (star p).Matches (s.take n) := by
  induction bound generalizing s n with
  | nil =>
    rw [waysRepeated, List.mem_singleton] at hn
    subst hn
    exact ⟨Nat.zero_le _, .starNil⟩
  | cons c bound ih =>
    simp only [waysRepeated, List.mem_append, List.mem_flatMap, List.mem_map,
      List.mem_singleton] at hn
    rcases hn with ⟨m, hm, k, hk, rfl⟩ | rfl
    · obtain ⟨hLength, hFirst⟩ := h hm
      obtain ⟨hRest, hAgain⟩ := ih hk
      rw [List.length_drop] at hRest
      rw [List.take_add]
      exact ⟨by omega, .starCons hFirst hAgain⟩
    · exact ⟨Nat.zero_le _, .starNil⟩

theorem matches_of_mem_ways {p : Pattern} {s : List Char} {n : Nat} (h : n ∈ p.ways s) :
    n ≤ s.length ∧ p.Matches (s.take n) := by
  induction p generalizing s n with
  | never => cases h
  | empty =>
    rw [ways, List.mem_singleton] at h
    subst h
    exact ⟨Nat.zero_le _, .empty⟩
  | one accepts =>
    cases s with
    | nil => cases h
    | cons c s =>
      rw [ways] at h
      split at h
      · rename_i hAccepts
        rw [List.mem_singleton] at h
        subst h
        exact ⟨by simp, .one hAccepts⟩
      · cases h
  | seq p q ihp ihq =>
    obtain ⟨m, hm, k, hk, rfl⟩ := mem_ways_seq.mp h
    obtain ⟨hLength, hFirst⟩ := ihp hm
    obtain ⟨hRest, hSecond⟩ := ihq hk
    rw [List.length_drop] at hRest
    rw [List.take_add]
    exact ⟨by omega, .seq hFirst hSecond⟩
  | alt p q ihp ihq =>
    rcases mem_ways_alt.mp h with h | h
    · exact ⟨(ihp h).1, .altLeft (ihp h).2⟩
    · exact ⟨(ihq h).1, .altRight (ihq h).2⟩
  | star p ih => exact matches_of_mem_waysRepeated ih h

def nullable : Pattern → Bool
  | .never => false
  | .empty => true
  | .one _ => false
  | .seq p q => p.nullable && q.nullable
  | .alt p q => p.nullable || q.nullable
  | .star _ => true

theorem nullable_of_matches {p : Pattern} {s : List Char} (h : p.Matches s) (hs : s = []) :
    p.nullable = true := by
  induction h with
  | empty => rfl
  | one _ => cases hs
  | seq _ _ ihp ihq =>
    obtain ⟨hFirst, hSecond⟩ := List.append_eq_nil_iff.mp hs
    simp [nullable, ihp hFirst, ihq hSecond]
  | altLeft _ ih => simp [nullable, ih hs]
  | altRight _ ih => simp [nullable, ih hs]
  | starNil => rfl
  | starCons _ _ _ _ => rfl

theorem preferred?_le_length {p : Pattern} {s : List Char} {n : Nat}
    (h : p.preferred? s = some n) : n ≤ s.length := by
  rw [preferred?_eq_head?] at h
  exact (matches_of_mem_ways (List.mem_of_head? h)).1

theorem pos_of_mem_ways {p : Pattern} {s : List Char} {n : Nat} (hp : p.nullable = false)
    (h : n ∈ p.ways s) : 0 < n := by
  obtain ⟨_, hMatches⟩ := matches_of_mem_ways h
  rcases Nat.eq_zero_or_pos n with rfl | hPos
  · rw [nullable_of_matches hMatches rfl] at hp
    cases hp
  · exact hPos

theorem preferred?_pos {p : Pattern} {s : List Char} {n : Nat} (hp : p.nullable = false)
    (h : p.preferred? s = some n) : 0 < n := by
  rw [preferred?_eq_head?] at h
  exact pos_of_mem_ways hp (List.mem_of_head? h)

def seqSimple : Pattern → Pattern → Pattern
  | .never, _ => .never
  | .empty, q => q
  | p, q => .seq p q

def altSimple : Pattern → Pattern → Pattern
  | .never, q => q
  | p, .never => p
  | p, q => .alt p q

/-- What may follow the character `c` in a text that the pattern matches. -/
def derivative (c : Char) : Pattern → Pattern
  | .never => .never
  | .empty => .never
  | .one accepts => if accepts c then .empty else .never
  | .seq p q =>
    if p.nullable then altSimple (seqSimple (p.derivative c) q) (q.derivative c)
    else seqSimple (p.derivative c) q
  | .alt p q => altSimple (p.derivative c) (q.derivative c)
  | .star p => seqSimple (p.derivative c) (.star p)

def longest? : Pattern → List Char → Option Nat
  | .never, _ => none
  | p, [] => if p.nullable then some 0 else none
  | p, c :: s =>
    match longest? (p.derivative c) s with
    | some n => some (n + 1)
    | none => if p.nullable then some 0 else none

theorem longest?_never (s : List Char) : longest? .never s = none := by
  cases s <;> rfl

theorem longest?_nil (p : Pattern) :
    p.longest? [] = if p.nullable then some 0 else none := by
  cases p <;> rfl

theorem longest?_cons (p : Pattern) (c : Char) (s : List Char) :
    p.longest? (c :: s) =
      match (p.derivative c).longest? s with
      | some n => some (n + 1)
      | none => if p.nullable then some 0 else none := by
  cases p with
  | never => simp [longest?, derivative, longest?_never, nullable]
  | _ => rfl

theorem longest?_pos {p : Pattern} {s : List Char} {n : Nat} (hp : p.nullable = false)
    (h : p.longest? s = some n) : 0 < n := by
  cases s with
  | nil => simp [longest?_nil, hp] at h
  | cons c s =>
    rw [longest?_cons] at h
    split at h
    · simp only [Option.some.injEq] at h
      omega
    · simp [hp] at h

end Pattern
end Outline
