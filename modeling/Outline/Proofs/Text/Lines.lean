/-! # Lines of a text

A text made of lines that hold no line feed gives these lines again when it is split. Lines that come
in blocks, each opened by a line that no block goes on with, give the blocks again.
-/
namespace Outline
set_option autoImplicit false

section Separators
variable {α : Type} {a : α} {front front' rest rest' : List α}

/-- A separator that stands in neither front splits a list where it stands first. -/
theorem append_cons_inj_of_first (h : a ∉ front) (h' : a ∉ front')
    (hEqual : front ++ a :: rest = front' ++ a :: rest') : front = front' ∧ rest = rest' := by
  rcases List.append_eq_append_iff.mp hEqual with ⟨l, hFront, hRest⟩ | ⟨l, hFront, hRest⟩
  all_goals
    cases l with
    | nil => simp_all
    | cons x l =>
      obtain ⟨rfl, -⟩ := List.cons.inj hRest
      simp_all

/-- A separator that stands in neither rest splits a list where it stands last. -/
theorem append_cons_inj_of_last (h : a ∉ rest) (h' : a ∉ rest')
    (hEqual : front ++ a :: rest = front' ++ a :: rest') : front = front' ∧ rest = rest' := by
  rcases List.append_eq_append_iff.mp hEqual with ⟨l, hFront, hRest⟩ | ⟨l, hFront, hRest⟩
  all_goals
    cases l with
    | nil => simp_all
    | cons x l =>
      obtain ⟨rfl, hTail⟩ := List.cons.inj hRest
      simp_all

end Separators

/-- The pieces of a text between its line feeds. -/
def linesOf (text : String) : List String := (text.toList.splitOn '\n').map String.ofList

theorem linesOf_append (front rest : String) :
    linesOf (front ++ "\n" ++ rest) = linesOf front ++ linesOf rest := by
  have hFeed : "\n".toList = ['\n'] := rfl
  simp [linesOf, hFeed, List.splitOn_append_cons_self]

theorem linesOf_eq_singleton {text : String} (h : '\n' ∉ text.toList) : linesOf text = [text] := by
  have hSplit : (['\n'].intercalate [text.toList]).splitOn '\n' = [text.toList] :=
    List.splitOn_intercalate '\n' (by simpa using h) (by simp)
  rw [List.intercalate_singleton] at hSplit
  simp [linesOf, hSplit]

theorem intercalate_cons {text : String} {texts : List String} (h : texts ≠ []) :
    "\n".intercalate (text :: texts) = text ++ "\n" ++ "\n".intercalate texts := by
  obtain ⟨next, rest, rfl⟩ := List.exists_cons_of_ne_nil h
  rw [← String.toList_inj]
  simp

theorem intercalate_concat_empty (texts : List String) :
    "\n".intercalate (texts ++ [""]) = String.join (texts.map (· ++ "\n")) := by
  induction texts with
  | nil => rfl
  | cons text texts ih =>
    rw [List.cons_append, intercalate_cons (by simp), ih, List.map_cons, ← String.toList_inj]
    simp

theorem linesOf_intercalate {texts : List String} (h : texts ≠ []) :
    linesOf ("\n".intercalate texts) = texts.flatMap linesOf := by
  induction texts with
  | nil => exact absurd rfl h
  | cons text texts ih =>
    by_cases hRest : texts = []
    · subst hRest
      simp [String.intercalate_singleton]
    · rw [intercalate_cons hRest, linesOf_append, ih hRest, List.flatMap_cons]

theorem linesOf_intercalate_of_lines {lines : List String} (h : lines ≠ [])
    (hLines : ∀ l ∈ lines, '\n' ∉ l.toList) : linesOf ("\n".intercalate lines) = lines := by
  have hSingle := List.map_congr_left fun l hl => linesOf_eq_singleton (hLines l hl)
  rw [linesOf_intercalate h, List.flatMap_def, hSingle, ← List.flatMap_def]
  simp

theorem length_splitOn (text : List Char) :
    (text.splitOn '\n').length = text.count '\n' + 1 := by
  induction text with
  | nil => rfl
  | cons x text ih =>
    rw [List.splitOn_cons_eq_if_modifyHead]
    split <;> simp_all

theorem length_linesOf (text : String) : (linesOf text).length = text.toList.count '\n' + 1 := by
  rw [linesOf, List.length_map, length_splitOn]

section Blocks
variable {α : Type} {opens : α → Bool}

/-- A line that opens a block, and lines that do not. -/
def IsBlock (opens : α → Bool) : List α → Prop
  | [] => False
  | first :: rest => opens first = true ∧ ∀ l ∈ rest, opens l = false

theorem takeWhile_block {rest : List α} {blocks : List (List α)}
    (hRest : ∀ l ∈ rest, opens l = false) (h : ∀ b ∈ blocks, IsBlock opens b) :
    (rest ++ blocks.flatten).takeWhile (!opens ·) = rest := by
  rw [List.takeWhile_append_of_pos (by simpa using hRest)]
  rcases blocks with _ | ⟨_ | ⟨first, others⟩, blocks⟩
  · simp
  · exact (h [] List.mem_cons_self).elim
  · have hOpens : opens first = true := (h _ List.mem_cons_self).1
    simp [hOpens]

/-- Where a block starts can be seen, so lines come in blocks in one way only. -/
theorem eq_of_flatten_eq {blocks blocks' : List (List α)} (h : ∀ b ∈ blocks, IsBlock opens b)
    (h' : ∀ b ∈ blocks', IsBlock opens b) (hEqual : blocks.flatten = blocks'.flatten) :
    blocks = blocks' := by
  induction blocks generalizing blocks' with
  | nil =>
    rcases blocks' with _ | ⟨_ | ⟨first, rest⟩, blocks'⟩
    · rfl
    · exact (h' [] List.mem_cons_self).elim
    · cases hEqual
  | cons b blocks ih =>
    obtain ⟨hb, hBlocks⟩ := List.forall_mem_cons.mp h
    rcases b with _ | ⟨first, rest⟩
    · exact hb.elim
    rcases blocks' with _ | ⟨_ | ⟨first', rest'⟩, blocks'⟩
    · cases hEqual
    · exact (h' [] List.mem_cons_self).elim
    obtain ⟨hb', hBlocks'⟩ := List.forall_mem_cons.mp h'
    obtain ⟨rfl, hTail⟩ := List.cons.inj hEqual
    have hRest : rest = rest' := by
      rw [← takeWhile_block hb.2 hBlocks, ← takeWhile_block hb'.2 hBlocks']
      exact congrArg _ hTail
    subst hRest
    rw [ih hBlocks hBlocks' (List.append_cancel_left hTail)]

end Blocks

end Outline
