import Outline.Category
import Outline.Literal

/-! # Lexing

A cursor is a place between two tokens of a source. Each step gives the next token, and no step
fails, because characters that belong to no category become an error token:

* if whitespace or the end of the source follows them, the error is these characters alone, and the
  whitespace waits to be the token of the next step;
* if any other match follows, the error takes it along.

The cursor keeps the row that it is in and where that row starts, and both change only with a token
that holds a line feed.
-/
namespace Outline
set_option autoImplicit false

/-- Replaces each carriage return and line feed by a line feed, in one pass. -/
def foldLineEnds : List Char → List Char
  | '\r' :: '\n' :: rest => '\n' :: foldLineEnds rest
  | c :: rest => c :: foldLineEnds rest
  | [] => []

def normalizeLineEnds (source : String) : String := String.ofList (foldLineEnds source.toList)

def Category.content (category : Category) (text : List Char) : Content :=
  match category with
  | .comment => .comment
  | .dateTime => Literal.dateTime text
  | .date => Literal.date text
  | .identity => .identity
  | .string quote => .string quote
  | .percentage => Literal.percentage text
  | .number => Literal.number text
  | .newline => .lineBreak text.length
  | .space => .space text.length
  | .symbol => .symbol
  | .opening => .parenthesisOpen
  | .closing => .parenthesisClose
  | .comma => .comma
  | .arrow => .arrow

def lastBreak? : List Char → Option Nat
  | [] => none
  | c :: text =>
    match lastBreak? text with
    | some index => some (index + 1)
    | none => if c = '\n' then some 0 else none

structure Cursor where
  /-- The whole source, line ends folded. -/
  source : List Char
  offset : Nat
  row : Nat
  rowStart : Nat
  /-- Whitespace that ended an unscannable run, and its length. -/
  queued : Option (Category × Nat)

namespace Cursor

def ofSource (source : String) : Cursor where
  source := foldLineEnds source.toList
  offset := 0
  row := 1
  rowStart := 0
  queued := none

def rest (c : Cursor) : List Char := c.source.drop c.offset

def columnAt (c : Cursor) (offset : Nat) : Nat :=
  ((c.source.drop c.rowStart).take (offset - c.rowStart)).length + 1

def position (c : Cursor) : Position := ⟨c.row, c.columnAt c.offset⟩

def skip (c : Cursor) (length : Nat) : Cursor :=
  let text := c.rest.take length
  { c with
    offset := c.offset + length
    row := c.row + text.count '\n'
    rowStart :=
      match lastBreak? text with
      | some index => c.offset + index + 1
      | none => c.rowStart }

def token (c : Cursor) (length : Nat) (content : List Char → Content) : Token :=
  { content := content (c.rest.take length)
    span := ⟨c.position, (c.skip length).position⟩
    text := String.ofList (c.rest.take length) }

def emit (c : Cursor) (category : Category) (length : Nat) : Token × Cursor :=
  (c.token length category.content, c.skip length)

def reject (c : Cursor) (length : Nat) : Token × Cursor :=
  (c.token length fun _ => .error .unexpectedToken, c.skip length)

/-- The next token and the cursor behind it, unless the source is at its end. -/
def next? (c : Cursor) : Option (Token × Cursor) :=
  match c.queued with
  | some (category, length) => some ({ c with queued := none }.emit category length)
  | none =>
    if c.rest = [] then none
    else
      match Category.search c.rest with
      | (_, none) => some (c.reject c.rest.length)
      | (0, some (category, length)) => some (c.emit category length)
      | (gap + 1, some (category, length)) =>
        if category.isWhitespace then
          let (error, behind) := c.reject (gap + 1)
          some (error, { behind with queued := some (category, length) })
        else some (c.reject (gap + 1 + length))

inductive Step (c : Cursor) : Token → Cursor → Prop where
  | queued {category : Category} {length : Nat} : c.queued = some (category, length) →
      Step c (c.token length category.content) { c.skip length with queued := none }
  | token {category : Category} {length : Nat} : c.queued = none →
      Category.search c.rest = (0, some (category, length)) →
      Step c (c.token length category.content) (c.skip length)
  | untilEnd {gap : Nat} : c.queued = none → c.rest ≠ [] → Category.search c.rest = (gap, none) →
      Step c (c.token c.rest.length fun _ => .error .unexpectedToken) (c.skip c.rest.length)
  | beforeWhitespace {gap length : Nat} {category : Category} : c.queued = none →
      Category.search c.rest = (gap + 1, some (category, length)) → category.isWhitespace = true →
      Step c (c.token (gap + 1) fun _ => .error .unexpectedToken)
        { c.skip (gap + 1) with queued := some (category, length) }
  | withMatch {gap length : Nat} {category : Category} : c.queued = none →
      Category.search c.rest = (gap + 1, some (category, length)) → category.isWhitespace = false →
      Step c (c.token (gap + 1 + length) fun _ => .error .unexpectedToken)
        (c.skip (gap + 1 + length))

theorem step_of_next? {c d : Cursor} {t : Token} (h : c.next? = some (t, d)) : c.Step t d := by
  unfold next? at h
  split at h
  · rename_i hQueued
    cases h
    exact .queued hQueued
  rename_i hQueued
  split at h
  · cases h
  rename_i hRest
  split at h
  · rename_i hSearch
    cases h
    exact .untilEnd hQueued hRest hSearch
  · rename_i hSearch
    cases h
    exact .token hQueued hSearch
  · rename_i hSearch
    split at h
    · rename_i hWhitespace
      cases h
      exact .beforeWhitespace hQueued hSearch hWhitespace
    · rename_i hWhitespace
      cases h
      exact .withMatch hQueued hSearch (Bool.not_eq_true _ ▸ hWhitespace)

theorem rest_eq_nil_of_next? {c : Cursor} (h : c.next? = none) : c.rest = [] := by
  unfold next? at h
  split at h
  · cases h
  split at h
  · rename_i hRest
    exact hRest
  split at h
  · cases h
  · cases h
  · split at h <;> cases h

theorem rest_skip (c : Cursor) (length : Nat) : (c.skip length).rest = c.rest.drop length := by
  simp [rest, skip, List.drop_drop]

/-- How much there is to do: the characters that are left, and a token that waits. -/
def remaining (c : Cursor) : Nat := 2 * c.rest.length + c.queued.toList.length

theorem remaining_skip_lt {c : Cursor} {length : Nat} (hRest : c.rest ≠ []) (hLength : 0 < length)
    (queued : Option (Category × Nat)) :
    ({ c.skip length with queued } : Cursor).remaining < 2 * c.rest.length := by
  have hPos := List.length_pos_iff.mpr hRest
  have hDrop : ({ c.skip length with queued } : Cursor).rest.length = c.rest.length - length :=
    (congrArg List.length (c.rest_skip length)).trans List.length_drop
  have hQueued : queued.toList.length ≤ 1 := by cases queued <;> simp
  simp only [remaining, hDrop]
  omega

/-- Every step passes over a character or takes the token that waits. -/
theorem remaining_lt {c d : Cursor} {t : Token} (h : c.next? = some (t, d)) :
    d.remaining < c.remaining := by
  cases step_of_next? h with
  | @queued category length hQueued =>
    have hDrop : ({ c.skip length with queued := none } : Cursor).rest.length =
        c.rest.length - length := (congrArg List.length (c.rest_skip length)).trans List.length_drop
    simp only [remaining, hDrop, hQueued, Option.toList_none, Option.toList_some, List.length_nil,
      List.length_singleton]
    omega
  | token _ hSearch =>
    have hPos := Category.first?_pos (Category.first?_of_search hSearch)
    exact Nat.lt_add_right _ (remaining_skip_lt (Category.ne_nil_of_search hSearch) hPos c.queued)
  | untilEnd _ hRest _ =>
    have hPos := List.length_pos_iff.mpr hRest
    exact Nat.lt_add_right _ (remaining_skip_lt hRest hPos c.queued)
  | beforeWhitespace _ hSearch _ =>
    have hRest := Category.ne_nil_of_search hSearch
    exact Nat.lt_add_right _ (remaining_skip_lt hRest (Nat.succ_pos _) _)
  | @withMatch gap length category _ hSearch _ =>
    have hRest := Category.ne_nil_of_search hSearch
    have hPos : 0 < gap + 1 + length := by omega
    exact Nat.lt_add_right _ (remaining_skip_lt hRest hPos c.queued)

def tokens (c : Cursor) : List Token :=
  match _h : c.next? with
  | none => []
  | some (t, d) => t :: d.tokens
termination_by c.remaining
decreasing_by exact remaining_lt _h

end Cursor

def tokenize (source : String) : List Token := (Cursor.ofSource source).tokens

end Outline
