import Outline.Proofs.Value.Lexemes

/-! # Written JSON reads back

The lexemes of a written value are those of its parts in order, whatever the layout, and the reader
builds the value from them again.
-/
namespace Outline
set_option autoImplicit false

/-- Data that JSON keeps as it is: naturals of 64 bits and texts in lists and records. -/
inductive Value.Plain : Value → Prop where
  | natural {n : Nat} : n < Json.wordSize → Plain (.natural n)
  | text (s : String) : Plain (.text s)
  | list {items : List Value} : (∀ v ∈ items, Plain v) → Plain (.list items)
  | record {fields : List (String × Value)} : (∀ f ∈ fields, Plain f.2) → Plain (.record fields)

namespace Json

mutual

/-- The lexemes of a value. -/
def spell : Value → List Lexeme
  | .natural n => [.natural n]
  | .text s => [.text (some s)]
  | .list [] => [.openList, .closeList]
  | .list (item :: items) => .openList :: (spell item ++ spellItems items)
  | .record [] => [.openRecord, .closeRecord]
  | .record (field :: fields) => .openRecord :: (spellField field ++ spellFields fields)
  | .other => [.other]

def spellItems : List Value → List Lexeme
  | [] => [.closeList]
  | item :: items => .comma :: (spell item ++ spellItems items)

def spellField : String × Value → List Lexeme
  | (name, value) => .text (some name) :: .colon :: spell value

def spellFields : List (String × Value) → List Lexeme
  | [] => [.closeRecord]
  | field :: fields => .comma :: (spellField field ++ spellFields fields)

end

/-- The layout puts blanks between lexemes, and nothing else. -/
structure Layout.Blank (l : Layout) : Prop where
  newline : ∀ depth, ∀ c ∈ l.newline depth, isBlankChar c = true
  colon : ∃ gap, l.colon = ':' :: gap ∧ ∀ c ∈ gap, isBlankChar c = true

theorem blank_pretty : pretty.Blank where
  newline := by
    intro depth
    rw [pretty]
    exact List.forall_mem_cons.mpr ⟨rfl, by simp [isBlankChar]⟩
  colon := ⟨[' '], rfl, by simp [isBlankChar]⟩

theorem endsNumber_nil : EndsNumber [] := by
  simp [EndsNumber]

theorem endsNumber_cons {c : Char} (h : numberPattern.mayHold c = false) (rest : List Char) :
    EndsNumber (c :: rest) := by
  intro d hd
  obtain rfl : c = d := by simpa using hd
  exact h

theorem endsNumber_blanks {blanks rest : List Char} (h : ∀ c ∈ blanks, isBlankChar c = true)
    (hRest : EndsNumber rest) : EndsNumber (blanks ++ rest) := by
  cases blanks with
  | nil => exact hRest
  | cons c blanks =>
    have hAll : [' ', '\t', '\n', '\r'].all (!numberPattern.mayHold ·) = true := by decide
    have hBlank : c ∈ [' ', '\t', '\n', '\r'] := List.contains_iff_mem.mp (h c List.mem_cons_self)
    exact endsNumber_cons (by simpa using List.all_eq_true.mp hAll c hBlank) _

/-- The value is written in its lexemes. -/
def WrittenIn (l : Layout) (v : Value) : Prop :=
  ∀ depth rest, EndsNumber rest →
    significant? (write l depth v rest) = (significant? rest).map (spell v ++ ·)

section
variable {l : Layout} (hl : l.Blank)
include hl

theorem endsNumber_writeItems (depth : Nat) (items : List Value) (rest : List Char) :
    EndsNumber (writeItems l depth items rest) := by
  cases items with
  | nil => exact endsNumber_blanks (hl.newline depth) (endsNumber_cons (by decide) rest)
  | cons item items => exact endsNumber_cons (by decide) _

theorem endsNumber_writeFields (depth : Nat) (fields : List (String × Value)) (rest : List Char) :
    EndsNumber (writeFields l depth fields rest) := by
  cases fields with
  | nil => exact endsNumber_blanks (hl.newline depth) (endsNumber_cons (by decide) rest)
  | cons field fields => exact endsNumber_cons (by decide) _

theorem significant?_writeItems {items : List Value} (h : ∀ v ∈ items, WrittenIn l v) (depth : Nat)
    (rest : List Char) :
    significant? (writeItems l depth items rest) =
      (significant? rest).map (spellItems items ++ ·) := by
  induction items with
  | nil =>
    rw [writeItems, significant?_blanks (hl.newline depth), significant?_closeList]
    rfl
  | cons item items ih =>
    obtain ⟨hItem, hItems⟩ := List.forall_mem_cons.mp h
    rw [writeItems, List.cons_append, significant?_comma, significant?_blanks (hl.newline _),
      hItem _ _ (endsNumber_writeItems hl depth items rest), ih hItems]
    simp [spellItems, Function.comp_def]

theorem significant?_writeField {field : String × Value} (h : WrittenIn l field.2) (depth : Nat)
    {rest : List Char} (hRest : EndsNumber rest) :
    significant? (writeField l depth field rest) =
      (significant? rest).map (spellField field ++ ·) := by
  obtain ⟨name, value⟩ := field
  obtain ⟨gap, hColon, hGap⟩ := hl.colon
  rw [writeField, List.append_assoc, significant?_text, hColon, List.cons_append,
    significant?_colon, significant?_blanks hGap, h _ _ hRest]
  simp [spellField, Function.comp_def]

theorem significant?_writeFields {fields : List (String × Value)}
    (h : ∀ f ∈ fields, WrittenIn l f.2) (depth : Nat) (rest : List Char) :
    significant? (writeFields l depth fields rest) =
      (significant? rest).map (spellFields fields ++ ·) := by
  induction fields with
  | nil =>
    rw [writeFields, significant?_blanks (hl.newline depth), significant?_closeRecord]
    rfl
  | cons field fields ih =>
    obtain ⟨hField, hFields⟩ := List.forall_mem_cons.mp h
    rw [writeFields, List.cons_append, significant?_comma, significant?_blanks (hl.newline _),
      significant?_writeField hl hField _ (endsNumber_writeFields hl depth fields rest), ih hFields]
    simp [spellFields, Function.comp_def]

theorem writtenIn {v : Value} (h : v.Plain) : WrittenIn l v := by
  induction h with
  | natural hBound =>
    intro depth rest hRest
    rw [write, significant?_natural hBound hRest]
    rfl
  | text s =>
    intro depth rest _
    rw [write, significant?_text]
    rfl
  | @list items _ ih =>
    intro depth rest hRest
    cases items with
    | nil =>
      rw [write, significant?_openList, significant?_closeList]
      simp [spell, Function.comp_def]
    | cons item items =>
      obtain ⟨hItem, hItems⟩ := List.forall_mem_cons.mp ih
      rw [write, List.cons_append, significant?_openList, significant?_blanks (hl.newline _),
        hItem _ _ (endsNumber_writeItems hl depth items rest), significant?_writeItems hl hItems]
      simp [spell, Function.comp_def]
  | @record fields _ ih =>
    intro depth rest hRest
    cases fields with
    | nil =>
      rw [write, significant?_openRecord, significant?_closeRecord]
      simp [spell, Function.comp_def]
    | cons field fields =>
      obtain ⟨hField, hFields⟩ := List.forall_mem_cons.mp ih
      rw [write, List.cons_append, significant?_openRecord, significant?_blanks (hl.newline _),
        significant?_writeField hl hField _ (endsNumber_writeFields hl depth fields rest),
        significant?_writeFields hl hFields]
      simp [spell, Function.comp_def]

end

/-- The reader takes the lexemes of the value, if it may make as many nested calls. -/
def ReadBack (v : Value) : Prop :=
  ∀ bound rest, (spell v).length ≤ bound → value? bound (spell v ++ rest) = some (v, rest)

theorem items?_spell {item : Value} {items : List Value} (hItem : ReadBack item)
    (hItems : ∀ v ∈ items, ReadBack v) {bound : Nat}
    (hBound : (spell item ++ spellItems items).length ≤ bound) (rest : List Lexeme) :
    items? bound (spell item ++ spellItems items ++ rest) = some (item :: items, rest) := by
  induction items generalizing item bound with
  | nil =>
    rw [List.length_append, spellItems, List.length_singleton] at hBound
    obtain ⟨bound, rfl⟩ : ∃ b, bound = b + 1 := ⟨bound - 1, by omega⟩
    rw [items?, List.append_assoc, hItem _ _ (by omega)]
    rfl
  | cons next items ih =>
    obtain ⟨hNext, hItems⟩ := List.forall_mem_cons.mp hItems
    rw [List.length_append, spellItems, List.length_cons] at hBound
    obtain ⟨bound, rfl⟩ : ∃ b, bound = b + 1 := ⟨bound - 1, by omega⟩
    have hMore : items? bound (spell next ++ spellItems items ++ rest) =
        some (next :: items, rest) := ih hNext hItems (by omega)
    rw [items?, List.append_assoc, hItem _ _ (by omega), spellItems, List.cons_append]
    simp only [hMore]
    rfl

theorem members?_spell {field : String × Value} {fields : List (String × Value)}
    (hField : ReadBack field.2) (hFields : ∀ f ∈ fields, ReadBack f.2) {bound : Nat}
    (hBound : (spellField field ++ spellFields fields).length ≤ bound) (rest : List Lexeme) :
    members? bound (spellField field ++ spellFields fields ++ rest) =
      some ((field :: fields).map fun f => (some f.1, f.2), rest) := by
  induction fields generalizing field bound with
  | nil =>
    obtain ⟨name, value⟩ := field
    rw [List.length_append, spellField, spellFields, List.length_singleton, List.length_cons,
      List.length_cons] at hBound
    obtain ⟨bound, rfl⟩ : ∃ b, bound = b + 1 := ⟨bound - 1, by omega⟩
    have hValue : ReadBack value := hField
    rw [spellField, List.append_assoc, List.cons_append, List.cons_append, members?,
      hValue _ _ (by omega)]
    rfl
  | cons next fields ih =>
    obtain ⟨name, value⟩ := field
    obtain ⟨hNext, hFields⟩ := List.forall_mem_cons.mp hFields
    rw [List.length_append, spellField, spellFields, List.length_cons, List.length_cons,
      List.length_cons] at hBound
    obtain ⟨bound, rfl⟩ : ∃ b, bound = b + 1 := ⟨bound - 1, by omega⟩
    have hValue : ReadBack value := hField
    have hMore : members? bound (spellField next ++ spellFields fields ++ rest) =
        some ((next :: fields).map fun f => (some f.1, f.2), rest) := ih hNext hFields (by omega)
    rw [spellField, List.append_assoc, List.cons_append, List.cons_append, members?,
      hValue _ _ (by omega), spellFields, List.cons_append]
    simp only [hMore]
    rfl

theorem recordOf_map (fields : List (String × Value)) :
    recordOf (fields.map fun f => (some f.1, f.2)) = .record fields := by
  have hNames : (fields.map fun f => (some f.1, f.2)).mapM
      (fun (f : Option String × Value) => f.1.map (·, f.2)) = some fields := by
    induction fields with
    | nil => rfl
    | cons field fields ih => simp [ih]
  simp [recordOf, hNames]

theorem exists_spell_eq_cons (v : Value) : ∃ first more, spell v = first :: more ∧
    first ≠ .closeList := by
  cases v with
  | list items => cases items <;> exact ⟨_, _, by rw [spell], by simp⟩
  | record fields => cases fields <;> exact ⟨_, _, by rw [spell], by simp⟩
  | _ => exact ⟨_, _, by rw [spell], by simp⟩

theorem value?_openList {first : Lexeme} (h : first ≠ .closeList) (bound : Nat)
    (more : List Lexeme) :
    value? (bound + 1) (.openList :: first :: more) =
      (items? bound (first :: more)).map fun (items, rest) => (.list items, rest) := by
  cases first with
  | closeList => exact absurd rfl h
  | _ => rfl

theorem value?_openRecord (name : Option String) (bound : Nat) (more : List Lexeme) :
    value? (bound + 1) (.openRecord :: .text name :: more) =
      (members? bound (.text name :: more)).map fun (fields, rest) => (recordOf fields, rest) :=
  rfl

theorem readBack_of_succ {v : Value} (h : ∀ bound rest, (spell v).length ≤ bound + 1 →
    value? (bound + 1) (spell v ++ rest) = some (v, rest)) : ReadBack v := by
  intro bound rest hBound
  obtain ⟨first, more, hSpell, -⟩ := exists_spell_eq_cons v
  cases bound with
  | zero => simp [hSpell] at hBound
  | succ bound => exact h bound rest hBound

theorem readBack {v : Value} (h : v.Plain) : ReadBack v := by
  induction h with
  | natural _ => exact readBack_of_succ fun _ _ _ => rfl
  | text s => exact readBack_of_succ fun _ _ _ => rfl
  | @list items _ ih =>
    apply readBack_of_succ
    intro bound rest hBound
    cases items with
    | nil => rfl
    | cons item items =>
      obtain ⟨hItem, hItems⟩ := List.forall_mem_cons.mp ih
      rw [spell, List.length_cons, Nat.add_le_add_iff_right] at hBound
      have hRead := items?_spell hItem hItems hBound rest
      obtain ⟨first, more, hFirst, hOpen⟩ := exists_spell_eq_cons item
      rw [hFirst] at hRead
      rw [spell, hFirst]
      simp only [List.cons_append] at hRead ⊢
      rw [value?_openList hOpen, hRead]
      rfl
  | @record fields _ ih =>
    apply readBack_of_succ
    intro bound rest hBound
    cases fields with
    | nil => rfl
    | cons field fields =>
      obtain ⟨hField, hFields⟩ := List.forall_mem_cons.mp ih
      rw [spell, List.length_cons, Nat.add_le_add_iff_right] at hBound
      have hRead := members?_spell hField hFields hBound rest
      obtain ⟨name, value⟩ := field
      rw [spellField] at hRead
      rw [spell, spellField]
      simp only [List.cons_append] at hRead ⊢
      rw [value?_openRecord, hRead]
      simp only [Option.map_some, recordOf_map]

/-- Data that is written reads back as it was. -/
theorem parse?_render {l : Layout} (hl : l.Blank) {v : Value} (h : v.Plain) :
    parse? (render l v) = some v := by
  have hWritten := writtenIn hl h 0 [] endsNumber_nil
  rw [significant?_nil, Option.map_some, List.append_nil, significant?] at hWritten
  obtain ⟨lexemes, hLexemes, hSpelled⟩ := Option.map_eq_some_iff.mp hWritten
  have hRead := readBack h (2 * (spell v).length + 1) [] (by omega)
  rw [List.append_nil] at hRead
  simp [parse?, render, hLexemes, hSpelled, hRead]

end Json
end Outline
