import Outline.Builder

/-! # No token is lost while statements are built

The builder holds tokens in a preamble, in finished and open statements, in open calls and behind an
identity. Read in this order they are the input up to the present moment, marked by a scan that
knows nothing of statements and calls: it keeps the number of open parentheses of the line and the
last token that is no trivia. Nothing is assumed of the input; it need not come from a text.
-/
namespace Outline
set_option autoImplicit false

/-- Trivia never decides what an opening parenthesis means. -/
def Token.isTrivia (t : Token) : Bool := t.kind = .space || t.kind = .comment

/-- What has been seen so far: the open parentheses of the line, and the last token but trivia. -/
structure Scan where
  depth : Nat
  last : Option Token

namespace Scan

def start : Scan := ⟨0, none⟩

def afterIdentity (scan : Scan) : Bool := scan.last.any (·.kind = .identity)

/-- The next token, marked as an error if it is misplaced punctuation. -/
def mark (scan : Scan) (t : Token) : Token :=
  match t.kind with
  | .parenthesisOpen => if scan.afterIdentity then t else t.toError .unexpectedToken
  | .parenthesisClose | .comma =>
    if 0 < scan.depth then t else t.toError .unexpectedTokenInStatement
  | _ => t

def next (scan : Scan) (t : Token) : Scan where
  depth :=
    match t.kind with
    | .lineBreak => 0
    | .parenthesisOpen => if scan.afterIdentity then scan.depth + 1 else scan.depth
    | .parenthesisClose => if 0 < scan.depth then scan.depth - 1 else scan.depth
    | _ => scan.depth
  last := if t.isTrivia then scan.last else some t

def markAll (scan : Scan) : List Token → List Token
  | [] => []
  | t :: tokens => scan.mark t :: (scan.next t).markAll tokens

end Scan

def retag (tokens : List Token) : List Token := Scan.start.markAll tokens

namespace Builder

theorem isLineBreak_eq (t : Token) : isLineBreak t = decide (t.kind = .lineBreak) := by
  rw [isLineBreak, Token.kind]
  cases t.content <;> rfl

theorem push_inside_kind (around : Surroundings) (line : Line) (t : Token) :
    (inside around line).push t =
      if t.kind = .lineBreak then .between around (line.settle.record t)
      else .inside around (line.push t) := by
  simp only [push_inside, isLineBreak_eq, decide_eq_true_eq]

theorem startsStatement_eq (t : Token) :
    startsStatement t = !decide (t.kind = .lineBreak ∨ t.kind = .comment) := by
  rw [startsStatement, Token.kind]
  cases t.content <;> rfl

theorem kind_ne_of_startsStatement {t : Token} (h : startsStatement t = true) :
    t.kind ≠ .lineBreak := by
  rw [startsStatement_eq] at h
  intro hKind
  simp [hKind] at h

theorem kind_of_not_startsStatement {t : Token} (h : ¬ startsStatement t = true) :
    t.kind = .lineBreak ∨ t.kind = .comment := by
  simpa only [startsStatement_eq, Bool.not_eq_true', Bool.not_eq_false, decide_eq_false_iff_not,
    Decidable.not_not] using h

end Builder

def Pending.tokens (p : Pending) : List Token := p.identity :: p.trailing

namespace Line

/-- The tokens that have their place in the statement or in an open call. -/
def committed (l : Line) : List Token :=
  l.statement.tokens ++ l.calls.reverse.flatMap OpenCall.tokens

def held (l : Line) : List Token := l.pending.toList.flatMap Pending.tokens

def recorded (l : Line) : List Token := l.committed ++ l.held

@[simp] theorem committed_record (l : Line) (t : Token) :
    (l.record t).committed = l.committed ++ [t] := by
  unfold record
  split <;> simp_all [committed, OpenStatement.record, OpenCall.record]

@[simp] theorem pending_record (l : Line) (t : Token) : (l.record t).pending = l.pending := by
  unfold record
  split <;> rfl

@[simp] theorem length_calls_record (l : Line) (t : Token) :
    (l.record t).calls.length = l.calls.length := by
  unfold record
  split <;> simp_all

@[simp] theorem committed_place (l : Line) (node : Node) (tokens : List Token) :
    (l.place node tokens).committed = l.committed ++ tokens := by
  unfold place
  split <;> simp_all [committed, OpenStatement.place, OpenCall.place]

@[simp] theorem pending_place (l : Line) (node : Node) (tokens : List Token) :
    (l.place node tokens).pending = l.pending := by
  unfold place
  split <;> rfl

@[simp] theorem length_calls_place (l : Line) (node : Node) (tokens : List Token) :
    (l.place node tokens).calls.length = l.calls.length := by
  unfold place
  split <;> simp_all

@[simp] theorem committed_foldl_record (l : Line) (tokens : List Token) :
    (tokens.foldl record l).committed = l.committed ++ tokens := by
  induction tokens generalizing l with
  | nil => simp
  | cons t tokens ih => simp [ih]

@[simp] theorem pending_foldl_record (l : Line) (tokens : List Token) :
    (tokens.foldl record l).pending = l.pending := by
  induction tokens generalizing l with
  | nil => rfl
  | cons t tokens ih => simp [ih]

@[simp] theorem length_calls_foldl_record (l : Line) (tokens : List Token) :
    (tokens.foldl record l).calls.length = l.calls.length := by
  induction tokens generalizing l with
  | nil => rfl
  | cons t tokens ih => simp [ih]

@[simp] theorem committed_flush (l : Line) : l.flush.committed = l.recorded := by
  unfold flush
  split
  · rename_i h
    simp [recorded, held, h]
  · rename_i p h
    simp only [committed_foldl_record, commit, committed_place, recorded, held, h]
    simp [committed, Pending.tokens]

@[simp] theorem pending_flush (l : Line) : l.flush.pending = none := by
  unfold flush
  split <;> simp_all [commit]

@[simp] theorem length_calls_flush (l : Line) : l.flush.calls.length = l.calls.length := by
  unfold flush
  split <;> simp [commit]

theorem recorded_trivia (l : Line) (t : Token) : (l.trivia t).recorded = l.recorded ++ [t] := by
  unfold trivia
  split
  · rename_i h
    simp [recorded, held, h]
  · rename_i p h
    simp [recorded, held, h, committed, Pending.tokens]

theorem pending_trivia (l : Line) (t : Token) :
    (l.trivia t).pending.isSome = l.pending.isSome := by
  unfold trivia
  split <;> simp_all

theorem length_calls_trivia (l : Line) (t : Token) :
    (l.trivia t).calls.length = l.calls.length := by
  unfold trivia
  split <;> simp

theorem recorded_openCall (l : Line) (t : Token) :
    (l.openCall t).recorded =
      l.recorded ++ [if l.pending.isSome then t else t.toError .unexpectedToken] := by
  unfold openCall
  split
  · rename_i h
    simp [recorded, held, h, commit]
  · rename_i p h
    simp [recorded, held, h, committed, Pending.tokens]

theorem pending_openCall (l : Line) (t : Token) : (l.openCall t).pending = none := by
  unfold openCall
  split <;> simp_all [commit]

theorem length_calls_openCall (l : Line) (t : Token) :
    (l.openCall t).calls.length =
      if l.pending.isSome then l.calls.length + 1 else l.calls.length := by
  unfold openCall
  split <;> simp_all [commit]

theorem committed_closeCall (l : Line) (t : Token) :
    (l.closeCall t).committed =
      l.committed ++ [if 0 < l.calls.length then t else t.toError .unexpectedTokenInStatement] := by
  unfold closeCall
  split
  · rename_i h
    simp [h]
  · rename_i c outer h
    rw [committed_place]
    simp [h, committed, OpenCall.toCall, OpenCall.record]

theorem pending_closeCall (l : Line) (t : Token) : (l.closeCall t).pending = l.pending := by
  unfold closeCall
  split <;> simp

theorem length_calls_closeCall (l : Line) (t : Token) :
    (l.closeCall t).calls.length = l.calls.length - 1 := by
  unfold closeCall
  split <;> simp_all

theorem committed_comma (l : Line) (t : Token) :
    (l.comma t).committed =
      l.committed ++ [if 0 < l.calls.length then t else t.toError .unexpectedTokenInStatement] := by
  unfold comma
  cases h : l.calls <;> simp

theorem pending_comma (l : Line) (t : Token) : (l.comma t).pending = l.pending := by
  unfold comma
  split <;> simp

theorem length_calls_comma (l : Line) (t : Token) :
    (l.comma t).calls.length = l.calls.length := by
  unfold comma
  split <;> simp

theorem recorded_hold (l : Line) (p : Pending) :
    { l with pending := some p }.recorded = l.committed ++ p.tokens := by
  simp [recorded, held, committed]

theorem recorded_of_pending_eq_none {l : Line} (h : l.pending = none) :
    l.recorded = l.committed := by
  simp [recorded, held, h]

theorem length_calls_push (l : Line) (t : Token) :
    (l.push t).calls.length =
      match t.kind with
      | .parenthesisOpen => if l.pending.isSome then l.calls.length + 1 else l.calls.length
      | .parenthesisClose => l.calls.length - 1
      | _ => l.calls.length := by
  unfold push
  rw [Token.kind]
  cases t.content <;>
    simp [Content.kind, length_calls_trivia, length_calls_openCall, length_calls_closeCall,
      length_calls_comma, commit]

theorem isSome_pending_push (l : Line) (t : Token) :
    (l.push t).pending.isSome =
      if t.isTrivia then l.pending.isSome else t.kind = .identity := by
  unfold push
  rw [Token.isTrivia, Token.kind]
  cases t.content <;>
    simp [Content.kind, pending_trivia, pending_openCall, pending_closeCall, pending_comma, commit]

end Line

namespace Scan

/-- The scan knows the number of open calls and whether an identity is held back. -/
structure Follows (scan : Scan) (l : Line) : Prop where
  depth : scan.depth = l.calls.length
  identity : scan.afterIdentity = l.pending.isSome

variable {scan : Scan} {l : Line} {t : Token}

theorem recorded_push (h : scan.Follows l) (ht : t.kind ≠ .lineBreak) :
    (l.push t).recorded = l.recorded ++ [scan.mark t] := by
  have hIdentity := h.identity
  have hDepth := h.depth
  unfold Line.push mark
  rw [Token.kind] at ht ⊢
  cases hContent : t.content with
  | lineBreak count => simp [hContent, Content.kind] at ht
  | space size => exact l.recorded_trivia t
  | comment => exact l.recorded_trivia t
  | parenthesisOpen => simp [Content.kind, Line.recorded_openCall, hIdentity]
  | parenthesisClose =>
    simp [Content.kind, Line.recorded_of_pending_eq_none, Line.pending_closeCall,
      Line.committed_closeCall, hDepth]
  | comma =>
    simp [Content.kind, Line.recorded_of_pending_eq_none, Line.pending_comma,
      Line.committed_comma, hDepth]
  | identity => rw [Line.recorded_hold, Line.committed_flush]; rfl
  | _ => simp [Content.kind, Line.recorded_of_pending_eq_none, Line.commit]

theorem afterIdentity_next (scan : Scan) (t : Token) :
    (scan.next t).afterIdentity =
      if t.isTrivia then scan.afterIdentity else t.kind = .identity := by
  simp only [afterIdentity, next]
  split <;> simp

theorem Follows.push (h : scan.Follows l) (ht : t.kind ≠ .lineBreak) :
    (scan.next t).Follows (l.push t) where
  depth := by
    rw [Line.length_calls_push, next, h.identity, h.depth]
    cases hKind : t.kind with
    | lineBreak => exact absurd hKind ht
    | parenthesisClose => simp only []; split <;> omega
    | _ => rfl
  identity := by rw [afterIdentity_next, Line.isSome_pending_push, h.identity]

/-- Between two lines no call is open and no identity is held back. -/
def Idle (scan : Scan) : Prop := scan.depth = 0 ∧ scan.afterIdentity = false

theorem idle_next_of_lineBreak (scan : Scan) (ht : t.kind = .lineBreak) : (scan.next t).Idle := by
  constructor
  · simp [next, ht]
  · simp [afterIdentity_next, Token.isTrivia, ht]

theorem Idle.trivial_step (h : scan.Idle) (ht : ¬ Builder.startsStatement t = true) :
    scan.mark t = t ∧ (scan.next t).Idle := by
  rcases Builder.kind_of_not_startsStatement ht with hKind | hKind
  · exact ⟨by simp [mark, hKind], scan.idle_next_of_lineBreak hKind⟩
  · refine ⟨by simp [mark, hKind], ?_, ?_⟩
    · simp [next, hKind, h.1]
    · simp [afterIdentity_next, Token.isTrivia, hKind, h.2]

end Scan

theorem OpenStatement.foldl_record (s : OpenStatement) (tokens : List Token) :
    tokens.foldl OpenStatement.record s = { s with tokens := s.tokens ++ tokens } := by
  induction tokens generalizing s with
  | nil => simp
  | cons t tokens ih => simp [ih, record]

@[simp] theorem OpenStatement.tokens_foldl_record (s : OpenStatement) (tokens : List Token) :
    (tokens.foldl OpenStatement.record s).tokens = s.tokens ++ tokens := by
  rw [foldl_record]

/-- The errors for the calls inside another go down with it, so one error is left for them all. -/
theorem OpenStatement.abandon_eq (s : OpenStatement) (c : OpenCall) (outer : List OpenCall) :
    s.abandon c outer =
      s.place (.token ⟨.error .missingClosingParenthesis,
          Token.spanOf ((c :: outer).reverse.flatMap OpenCall.tokens),
          Token.joinedText ((c :: outer).reverse.flatMap OpenCall.tokens)⟩)
        ((c :: outer).reverse.flatMap OpenCall.tokens) := by
  induction outer generalizing c with
  | nil => simp [abandon, OpenCall.unterminated]
  | cons parent outer ih =>
    rw [abandon, ih]
    simp [OpenCall.place]

theorem OpenStatement.tokens_abandon (s : OpenStatement) (c : OpenCall) (outer : List OpenCall) :
    (s.abandon c outer).tokens = s.tokens ++ (c :: outer).reverse.flatMap OpenCall.tokens := by
  rw [abandon_eq]
  rfl

theorem Line.tokens_settle (l : Line) : l.settle.tokens = l.recorded := by
  unfold settle recorded committed held
  cases l.calls <;> cases l.pending <;>
    simp [OpenStatement.tokens_abandon, OpenStatement.place, Pending.tokens]

namespace Surroundings

def recorded (around : Surroundings) : List Token :=
  around.preamble ++ around.finished.flatMap Statement.tokens ++
    around.outer.reverse.flatMap OpenStatement.tokens

theorem recorded_go (indent : Nat) (around : Surroundings) (s : OpenStatement)
    (outer : List OpenStatement) :
    (close.go indent around s outer).recorded =
      around.preamble ++ around.finished.flatMap Statement.tokens ++
        outer.reverse.flatMap OpenStatement.tokens ++ s.tokens := by
  induction outer generalizing s with
  | nil =>
    unfold close.go
    split <;> simp [recorded, OpenStatement.toStatement]
  | cons parent outer ih =>
    unfold close.go
    split
    · simp [recorded]
    · simp [ih, OpenStatement.adopt, OpenStatement.toStatement]

/-- Closing statements moves their tokens outwards without changing their order. -/
theorem recorded_close (indent : Nat) (s : OpenStatement) (around : Surroundings) :
    (around.close indent s).recorded = around.recorded ++ s.tokens :=
  recorded_go indent around s around.outer

theorem preamble_close (indent : Nat) (s : OpenStatement) (around : Surroundings) :
    (around.close indent s).preamble = around.preamble := by
  suffices h : ∀ s outer, (close.go indent around s outer).preamble = around.preamble from
    h s around.outer
  intro s outer
  induction outer generalizing s with
  | nil => unfold close.go; split <;> rfl
  | cons parent outer ih => unfold close.go; split <;> simp [ih]

theorem outer_close_zero (s : OpenStatement) (around : Surroundings) :
    (around.close 0 s).outer = [] := by
  suffices h : ∀ s outer, (close.go 0 around s outer).outer = [] from h s around.outer
  intro s outer
  induction outer generalizing s with
  | nil => simp [close.go]
  | cons parent outer ih => simp [close.go, ih]

theorem preamble_append_finished_close_zero (s : OpenStatement) (around : Surroundings) :
    around.preamble ++ (around.close 0 s).finished.flatMap Statement.tokens =
      around.recorded ++ s.tokens := by
  rw [← recorded_close 0 s around, recorded, outer_close_zero, preamble_close]
  simp

end Surroundings

namespace Builder

def recorded : Builder → List Token
  | .leading preamble => preamble
  | .between around current => around.recorded ++ current.tokens
  | .inside around line => around.recorded ++ line.recorded

def FollowedBy (scan : Scan) : Builder → Prop
  | .leading _ => scan.Idle
  | .between _ _ => scan.Idle
  | .inside _ line => scan.Follows line

theorem startLine_step {scan : Scan} {t : Token} (h : scan.Idle) (ht : t.kind ≠ .lineBreak)
    (around : Surroundings) :
    (startLine around t).recorded = around.recorded ++ [scan.mark t] ∧
      (startLine around t).FollowedBy (scan.next t) := by
  have hFollows : scan.Follows { statement := { indent := indentOf t } } := ⟨h.1, h.2⟩
  refine ⟨?_, hFollows.push ht⟩
  change around.recorded ++ (Line.push _ t).recorded = _
  rw [Scan.recorded_push hFollows ht]
  rfl

/-- Every token pushed is recorded behind the others, under the mark that the scan gives it. -/
theorem push_step {scan : Scan} {b : Builder} (h : b.FollowedBy scan) (t : Token) :
    (b.push t).recorded = b.recorded ++ [scan.mark t] ∧ (b.push t).FollowedBy (scan.next t) := by
  cases b with
  | leading preamble =>
    rw [push_leading]
    split
    · rename_i hStarts
      obtain ⟨hRecorded, hNext⟩ := startLine_step h (kind_ne_of_startsStatement hStarts) { preamble }
      exact ⟨by rw [hRecorded]; simp [Surroundings.recorded, recorded], hNext⟩
    · rename_i hStarts
      obtain ⟨hMark, hIdle⟩ := h.trivial_step hStarts
      exact ⟨by simp [recorded, hMark], hIdle⟩
  | between around current =>
    rw [push_between]
    split
    · rename_i hStarts
      obtain ⟨hRecorded, hNext⟩ := startLine_step h (kind_ne_of_startsStatement hStarts)
        (around.close (indentOf t) current)
      exact ⟨by rw [hRecorded, Surroundings.recorded_close]; rfl, hNext⟩
    · rename_i hStarts
      obtain ⟨hMark, hIdle⟩ := h.trivial_step hStarts
      exact ⟨by simp [recorded, hMark, OpenStatement.record], hIdle⟩
  | inside around line =>
    rw [push_inside_kind]
    split
    · -- A line that ends gives up its open calls, but their tokens stay where they are.
      rename_i hBreak
      refine ⟨?_, scan.idle_next_of_lineBreak hBreak⟩
      simp [recorded, OpenStatement.record, Line.tokens_settle, Scan.mark, hBreak]
    · rename_i hBreak
      refine ⟨?_, Scan.Follows.push h hBreak⟩
      simp [recorded, Scan.recorded_push h hBreak]

theorem recorded_pushAll {scan : Scan} {b : Builder} (h : b.FollowedBy scan)
    (tokens : List Token) : (b.pushAll tokens).recorded = b.recorded ++ scan.markAll tokens := by
  induction tokens generalizing b scan with
  | nil => simp [Scan.markAll]
  | cons t tokens ih =>
    obtain ⟨hRecorded, hNext⟩ := push_step h t
    rw [pushAll_cons, ih hNext, hRecorded]
    simp [Scan.markAll]

theorem preamble_append_finish (b : Builder) :
    b.preamble ++ b.finish.flatMap Statement.tokens = b.recorded := by
  cases b with
  | leading preamble => simp [Builder.preamble, finish, recorded]
  | between around current => exact around.preamble_append_finished_close_zero current
  | inside around line =>
    rw [recorded, ← Line.tokens_settle]
    exact around.preamble_append_finished_close_zero line.settle

theorem preamble_push_of_started {b : Builder} (h : ∀ preamble, b ≠ .leading preamble)
    (t : Token) :
    (b.push t).preamble = b.preamble ∧ ∀ preamble, b.push t ≠ .leading preamble := by
  cases b with
  | leading preamble => exact absurd rfl (h preamble)
  | between around current =>
    rw [push_between]
    split <;> simp [Builder.preamble, startLine, Surroundings.preamble_close]
  | inside around line =>
    rw [push_inside]
    split <;> simp [Builder.preamble]

theorem preamble_pushAll_of_started {b : Builder} (h : ∀ preamble, b ≠ .leading preamble)
    (tokens : List Token) : (b.pushAll tokens).preamble = b.preamble := by
  induction tokens generalizing b with
  | nil => rfl
  | cons t tokens ih =>
    obtain ⟨hPreamble, hStarted⟩ := preamble_push_of_started h t
    exact (ih hStarted).trans hPreamble

theorem preamble_pushAll_leading (preamble tokens : List Token) :
    ((Builder.leading preamble).pushAll tokens).preamble =
      preamble ++ tokens.takeWhile (!startsStatement ·) := by
  induction tokens generalizing preamble with
  | nil => simp [Builder.preamble]
  | cons t tokens ih =>
    rw [pushAll_cons, push_leading]
    split
    · rename_i hStarts
      rw [preamble_pushAll_of_started (by simp [startLine])]
      simp [hStarts, startLine, Builder.preamble]
    · rename_i hStarts
      rw [ih]
      simp [hStarts]

end Builder

theorem preamble_append_tokens (tokens : List Token) :
    (Builder.empty.pushAll tokens).preamble ++ (build tokens).flatMap Statement.tokens =
      retag tokens := by
  have hStart : Builder.empty.FollowedBy Scan.start := ⟨rfl, rfl⟩
  rw [build, Builder.preamble_append_finish, Builder.recorded_pushAll hStart]
  rfl

theorem preamble_eq_takeWhile (tokens : List Token) :
    (Builder.empty.pushAll tokens).preamble =
      tokens.takeWhile fun t => t.kind = .lineBreak ∨ t.kind = .comment := by
  rw [Builder.empty, Builder.preamble_pushAll_leading]
  simp [Builder.startsStatement_eq]

theorem kind_of_mem_preamble {tokens : List Token} {t : Token}
    (h : t ∈ (Builder.empty.pushAll tokens).preamble) :
    t.kind = .lineBreak ∨ t.kind = .comment := by
  rw [preamble_eq_takeWhile] at h
  exact of_decide_eq_true (List.all_eq_true.mp List.all_takeWhile t h)

end Outline
