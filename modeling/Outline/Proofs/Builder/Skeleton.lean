import Outline.Proofs.Builder.Rows

/-! # What trivia cannot change

The skeleton of a tree is its structure without the tokens that composites keep beside it:
statements with their indentation and nesting, elements and parameters in order, names and spans of
calls, and where unterminated calls start. Two builders with the same skeleton stay alike whatever token comes,
and a token that is trivia where it stands leaves the skeleton as it is; so all such tokens may be
left out of the input.
-/
namespace Outline
set_option autoImplicit false

inductive Skeleton where
  | token (token : Token)
  /-- The error for an unterminated call. -/
  | unterminated (start : Position)
  | call (name : Token) (span : Span) (parameters : List Skeleton)
  | statement (indent : Nat) (elements children : List Skeleton)

def Skeleton.fromNodes : Fold Skeleton where
  token t :=
    if t.errorReason? = some .missingClosingParenthesis then .unterminated t.span.start
    else .token t
  call c parameters := .call c.name c.span parameters
  statement s elements children := .statement s.indent elements children

def Node.skeleton (n : Node) : Skeleton := n.fold Skeleton.fromNodes

def Statement.skeleton (s : Statement) : Skeleton := s.fold Skeleton.fromNodes

theorem Node.skeleton_call (c : Call) :
    (Node.call c).skeleton = .call c.name c.span (c.parameters.map Node.skeleton) := by
  rw [skeleton, fold_call, Call.fold_def]
  rfl

theorem Node.skeleton_unterminated {t : Token}
    (h : t.content = .error .missingClosingParenthesis) :
    (Node.token t).skeleton = .unterminated t.span.start := by
  simp [skeleton, Skeleton.fromNodes, Token.errorReason?, h]

theorem Statement.skeleton_eq (s : Statement) : s.skeleton =
    .statement s.indent (s.elements.map Node.skeleton) (s.children.map Statement.skeleton) := by
  rw [skeleton, fold_def]
  rfl

namespace OpenCall

def shape (c : OpenCall) : Token × List Skeleton := (c.name, c.parameters.map Node.skeleton)

variable {c c' : OpenCall}

theorem shape_place (h : c.shape = c'.shape) {n n' : Node} (hn : n.skeleton = n'.skeleton)
    (run run' : List Token) : (c.place n run).shape = (c'.place n' run').shape := by
  obtain ⟨hName, hParameters⟩ := Prod.mk.inj h
  simp [shape, place, hName, hParameters, hn]

theorem span_toCall (h : c.tokens.head? = some c.name) (t : Token) :
    (c.record t).toCall.span = c.name.span.join t.span := by
  obtain ⟨rest, hTokens⟩ := List.head?_eq_some_iff.mp h
  rw [toCall, record, hTokens, Token.spanOf, List.cons_append, List.head?_cons, ← List.cons_append,
    List.getLast?_concat]

theorem skeleton_toCall (h : c.shape = c'.shape) (hTokens : c.tokens.head? = some c.name)
    (hTokens' : c'.tokens.head? = some c'.name) (t : Token) :
    (Node.call (c.record t).toCall).skeleton = (Node.call (c'.record t).toCall).skeleton := by
  obtain ⟨hName, hParameters⟩ := Prod.mk.inj h
  rw [Node.skeleton_call, Node.skeleton_call, span_toCall hTokens, span_toCall hTokens', hName]
  exact Skeleton.call.injEq .. ▸ ⟨hName, rfl, hParameters⟩

end OpenCall

namespace OpenStatement

def shape (s : OpenStatement) : Skeleton := s.toStatement.skeleton

theorem shape_eq (s : OpenStatement) : s.shape =
    .statement s.indent (s.elements.map Node.skeleton) (s.children.map Statement.skeleton) :=
  s.toStatement.skeleton_eq

@[simp] theorem shape_record (s : OpenStatement) (t : Token) : (s.record t).shape = s.shape := by
  rw [shape_eq, shape_eq]
  rfl

variable {s s' : OpenStatement}

theorem shape_inj (h : s.shape = s'.shape) : s.indent = s'.indent ∧
    s.elements.map Node.skeleton = s'.elements.map Node.skeleton ∧
    s.children.map Statement.skeleton = s'.children.map Statement.skeleton := by
  rw [shape_eq, shape_eq] at h
  exact Skeleton.statement.inj h

theorem shape_place (h : s.shape = s'.shape) {n n' : Node} (hn : n.skeleton = n'.skeleton)
    (run run' : List Token) : (s.place n run).shape = (s'.place n' run').shape := by
  obtain ⟨hIndent, hElements, hChildren⟩ := shape_inj h
  rw [shape_eq, shape_eq]
  simp [place, hIndent, hElements, hChildren, hn]

theorem shape_adopt (h : s.shape = s'.shape) {child child' : Statement}
    (hChild : child.skeleton = child'.skeleton) :
    (s.adopt child).shape = (s'.adopt child').shape := by
  obtain ⟨hIndent, hElements, hChildren⟩ := shape_inj h
  rw [shape_eq, shape_eq]
  simp [adopt, hIndent, hElements, hChildren, hChild]

end OpenStatement

namespace Line

/-- What the skeleton of a line is made from, and what decides how it goes on. -/
def shape (l : Line) : Skeleton × List (Token × List Skeleton) × Option Token :=
  (l.statement.shape, l.calls.map OpenCall.shape, l.pending.map Pending.identity)

@[simp] theorem shape_record (l : Line) (t : Token) : (l.record t).shape = l.shape := by
  unfold record
  split
  · simp [shape]
  · rename_i hCalls
    simp [shape, hCalls, OpenCall.shape, OpenCall.record]

@[simp] theorem shape_foldl_record (l : Line) (tokens : List Token) :
    (tokens.foldl record l).shape = l.shape := by
  induction tokens generalizing l with
  | nil => rfl
  | cons t tokens ih => rw [List.foldl_cons, ih, shape_record]

@[simp] theorem shape_trivia (l : Line) (t : Token) : (l.trivia t).shape = l.shape := by
  unfold trivia
  split
  · exact l.shape_record t
  · rename_i hPending
    simp [shape, hPending]

theorem push_eq_trivia (l : Line) {t : Token} (h : t.kind = .comment ∨ t.kind = .space) :
    l.push t = l.trivia t := by
  rw [Token.kind] at h
  unfold push
  cases hContent : t.content <;> simp [hContent, Content.kind] at h ⊢

variable {l l' : Line}

theorem shape_inj (h : l.shape = l'.shape) : l.statement.shape = l'.statement.shape ∧
    l.calls.map OpenCall.shape = l'.calls.map OpenCall.shape ∧
    l.pending.map Pending.identity = l'.pending.map Pending.identity := by
  simpa [shape] using h

theorem calls_cases (h : l.shape = l'.shape) : l.calls = [] ∧ l'.calls = [] ∨
    ∃ c outer c' outer', l.calls = c :: outer ∧ l'.calls = c' :: outer' ∧ c.shape = c'.shape ∧
      outer.map OpenCall.shape = outer'.map OpenCall.shape := by
  obtain ⟨-, hCalls, -⟩ := shape_inj h
  cases hOpen : l.calls with
  | nil =>
    rw [hOpen] at hCalls
    exact .inl ⟨rfl, by simpa using hCalls.symm⟩
  | cons c outer =>
    cases hOpen' : l'.calls with
    | nil => simp [hOpen, hOpen'] at hCalls
    | cons c' outer' =>
      rw [hOpen, hOpen', List.map_cons, List.map_cons] at hCalls
      obtain ⟨hInner, hOuter⟩ := List.cons.inj hCalls
      exact .inr ⟨c, outer, c', outer', rfl, rfl, hInner, hOuter⟩

theorem pending_cases (h : l.shape = l'.shape) : l.pending = none ∧ l'.pending = none ∨
    ∃ p p', l.pending = some p ∧ l'.pending = some p' ∧ p.identity = p'.identity := by
  obtain ⟨-, -, hPending⟩ := shape_inj h
  cases hHeld : l.pending with
  | none =>
    rw [hHeld] at hPending
    exact .inl ⟨rfl, by simpa using hPending.symm⟩
  | some p =>
    cases hHeld' : l'.pending with
    | none => simp [hHeld, hHeld'] at hPending
    | some p' =>
      rw [hHeld, hHeld'] at hPending
      exact .inr ⟨p, p', rfl, rfl, by simpa using hPending⟩

theorem shape_place (h : l.shape = l'.shape) {n n' : Node} (hn : n.skeleton = n'.skeleton)
    (run run' : List Token) : (l.place n run).shape = (l'.place n' run').shape := by
  obtain ⟨hStatement, -, hPending⟩ := shape_inj h
  unfold place
  rcases calls_cases h with ⟨hNone, hNone'⟩ | ⟨c, outer, c', outer', hOpen, hOpen', hInner, hOuter⟩
  · simp [shape, hNone, hNone', hPending, OpenStatement.shape_place hStatement hn run run']
  · simp [shape, hOpen, hOpen', hPending, hStatement, hOuter,
      OpenCall.shape_place hInner hn run run']

theorem shape_commit (h : l.shape = l'.shape) (t : Token) :
    (l.commit t).shape = (l'.commit t).shape := shape_place h rfl _ _

theorem shape_flush (h : l.shape = l'.shape) : l.flush.shape = l'.flush.shape := by
  obtain ⟨hStatement, hCalls, -⟩ := shape_inj h
  unfold flush
  rcases pending_cases h with ⟨hNone, hNone'⟩ | ⟨p, p', hHeld, hHeld', hIdentity⟩
  · rw [hNone, hNone']
    exact h
  · have hFree : ({ l with pending := none } : Line).shape =
        ({ l' with pending := none } : Line).shape := by
      simp [shape, hStatement, hCalls]
    rw [hHeld, hHeld']
    simp only [shape_foldl_record, hIdentity]
    exact shape_commit hFree p'.identity

theorem shape_openCall (h : l.shape = l'.shape) (t : Token) :
    (l.openCall t).shape = (l'.openCall t).shape := by
  obtain ⟨hStatement, hCalls, -⟩ := shape_inj h
  unfold openCall
  rcases pending_cases h with ⟨hNone, hNone'⟩ | ⟨p, p', hHeld, hHeld', hIdentity⟩
  · rw [hNone, hNone']
    exact shape_commit h _
  · rw [hHeld, hHeld']
    simp [shape, hStatement, hCalls, hIdentity, OpenCall.shape]

theorem shape_closeCall (h : l.shape = l'.shape) (hl : l.Sound) (hl' : l'.Sound) (t : Token) :
    (l.closeCall t).shape = (l'.closeCall t).shape := by
  obtain ⟨hStatement, -, hPending⟩ := shape_inj h
  unfold closeCall
  rcases calls_cases h with ⟨hNone, hNone'⟩ | ⟨c, outer, c', outer', hOpen, hOpen', hInner, hOuter⟩
  · rw [hNone, hNone']
    simp [h]
  · rw [hOpen, hOpen']
    have hAround : ({ l with calls := outer } : Line).shape =
        ({ l' with calls := outer' } : Line).shape := by
      simp [shape, hStatement, hPending, hOuter]
    have hName := (hl.calls_cons hOpen).1.head_tokens
    have hName' := (hl'.calls_cons hOpen').1.head_tokens
    exact shape_place hAround (OpenCall.skeleton_toCall hInner hName hName' t) _ _

theorem shape_comma (l : Line) (t : Token) : (l.comma t).shape = l.shape := by
  unfold comma
  split <;> simp

/-- Lines of one shape stay so. -/
theorem shape_push (h : l.shape = l'.shape) (hl : l.Sound) (hl' : l'.Sound) (t : Token) :
    (l.push t).shape = (l'.push t).shape := by
  have hFlush := shape_flush h
  unfold push
  split
  · simp [h]
  · simp [h]
  · obtain ⟨hStatement, hCalls, -⟩ := shape_inj hFlush
    simp [shape, hStatement, hCalls]
  · exact shape_openCall h t
  · exact shape_closeCall hFlush hl.flush hl'.flush t
  · rw [shape_comma, shape_comma, hFlush]
  · exact shape_commit hFlush t

theorem shape_givenUp (h : l.shape = l'.shape) (hl : l.Sound) (hl' : l'.Sound) :
    l.givenUp.shape = l'.givenUp.shape := by
  obtain ⟨hStatement, hCalls, -⟩ := shape_inj h
  have hLast : l.calls.getLast?.map OpenCall.name = l'.calls.getLast?.map OpenCall.name := by
    have hNames := congrArg (fun calls => (calls.map Prod.fst).getLast?) hCalls
    simpa [OpenCall.shape, Function.comp_def] using hNames
  rcases hName : l.calls.getLast?.map OpenCall.name with _ | name
  · have hNone : l.calls = [] := by simpa using hName
    have hNone' : l'.calls = [] := by simpa [hName] using hLast.symm
    rw [givenUp_of_calls_eq_nil hNone, givenUp_of_calls_eq_nil hNone', hStatement]
  · obtain ⟨e, run, hGivenUp, hContent, hStart⟩ := hl.givenUp_eq hName
    obtain ⟨e', run', hGivenUp', hContent', hStart'⟩ := hl'.givenUp_eq (hLast ▸ hName)
    rw [hGivenUp, hGivenUp']
    apply OpenStatement.shape_place hStatement
    rw [Node.skeleton_unterminated hContent, Node.skeleton_unterminated hContent', hStart, hStart']

theorem shape_settle (h : l.shape = l'.shape) (hl : l.Sound) (hl' : l'.Sound) :
    l.settle.shape = l'.settle.shape := by
  have hGivenUp := shape_givenUp h hl hl'
  rcases pending_cases h with ⟨hNone, hNone'⟩ | ⟨p, p', hHeld, hHeld', hIdentity⟩
  · rw [settle_eq, settle_eq, hNone, hNone']
    exact hGivenUp
  · rw [settle_eq_place hHeld, settle_eq_place hHeld', hIdentity]
    exact OpenStatement.shape_place hGivenUp rfl _ _

end Line

namespace Surroundings

def shape (around : Surroundings) : List Skeleton × List Skeleton :=
  (around.finished.map Statement.skeleton, around.outer.map OpenStatement.shape)

variable {around around' : Surroundings}

theorem shape_inj (h : around.shape = around'.shape) :
    around.finished.map Statement.skeleton = around'.finished.map Statement.skeleton ∧
      around.outer.map OpenStatement.shape = around'.outer.map OpenStatement.shape :=
  Prod.mk.inj h

theorem shape_go (h : around.shape = around'.shape) (indent : Nat) {s s' : OpenStatement}
    (hs : s.shape = s'.shape) {outer outer' : List OpenStatement}
    (hOuter : outer.map OpenStatement.shape = outer'.map OpenStatement.shape) :
    (close.go indent around s outer).shape = (close.go indent around' s' outer').shape := by
  obtain ⟨hFinished, -⟩ := shape_inj h
  have hIndent := (OpenStatement.shape_inj hs).1
  induction outer generalizing s s' outer' with
  | nil =>
    obtain rfl : outer' = [] := by simpa using hOuter.symm
    unfold close.go
    rw [hIndent]
    split
    · simp [shape, hFinished, hs]
    · have hClosed : s.toStatement.skeleton = s'.toStatement.skeleton := hs
      simp [shape, hFinished, hClosed]
  | cons parent outer ih =>
    cases outer' with
    | nil => simp at hOuter
    | cons parent' outer' =>
      rw [List.map_cons, List.map_cons] at hOuter
      obtain ⟨hParent, hRest⟩ := List.cons.inj hOuter
      unfold close.go
      rw [hIndent]
      split
      · simp [shape, hFinished, hs, hParent, hRest]
      · have hAdopted := OpenStatement.shape_adopt hParent hs
        exact ih hAdopted hRest (OpenStatement.shape_inj hAdopted).1

theorem shape_close (h : around.shape = around'.shape) {s s' : OpenStatement}
    (hs : s.shape = s'.shape) (indent : Nat) :
    (around.close indent s).shape = (around'.close indent s').shape :=
  shape_go h indent hs (shape_inj h).2

end Surroundings

/-- The builders are in the same state and hold the same structure. -/
inductive Builder.Alike : Builder → Builder → Prop where
  | leading (preamble preamble' : List Token) : Alike (.leading preamble) (.leading preamble')
  | between {around around' : Surroundings} {current current' : OpenStatement} :
      around.shape = around'.shape → current.shape = current'.shape →
      Alike (.between around current) (.between around' current')
  | inside {around around' : Surroundings} {line line' : Line} :
      around.shape = around'.shape → line.shape = line'.shape →
      Alike (.inside around line) (.inside around' line')

namespace Builder
variable {b b' : Builder}

theorem alike_startLine {around around' : Surroundings} (h : around.shape = around'.shape)
    (t : Token) : (startLine around t).Alike (startLine around' t) :=
  .inside h rfl

theorem Alike.push (h : b.Alike b') (hb : b.Sound) (hb' : b'.Sound) (t : Token) :
    (b.push t).Alike (b'.push t) := by
  cases h with
  | leading preamble preamble' =>
    rw [push_leading, push_leading]
    split
    · have hAround : ({ preamble } : Surroundings).shape =
          ({ preamble := preamble' } : Surroundings).shape := rfl
      exact alike_startLine hAround t
    · exact .leading _ _
  | between hAround hCurrent =>
    rw [push_between, push_between]
    split
    · exact alike_startLine (Surroundings.shape_close hAround hCurrent _) t
    · exact .between hAround (by simpa using hCurrent)
  | inside hAround hLine =>
    obtain ⟨-, hl, -, -⟩ := hb
    obtain ⟨-, hl', -, -⟩ := hb'
    rw [push_inside, push_inside]
    split
    · exact .between hAround (by simpa using Line.shape_settle hLine hl hl')
    · exact .inside hAround (Line.shape_push hLine hl hl' t)

theorem Alike.finish (h : b.Alike b') (hb : b.Sound) (hb' : b'.Sound) :
    b.finish.map Statement.skeleton = b'.finish.map Statement.skeleton := by
  cases h with
  | leading preamble preamble' => rfl
  | between hAround hCurrent =>
    exact (Surroundings.shape_inj (Surroundings.shape_close hAround hCurrent 0)).1
  | inside hAround hLine =>
    obtain ⟨-, hl, -, -⟩ := hb
    obtain ⟨-, hl', -, -⟩ := hb'
    have hSettled := Line.shape_settle hLine hl hl'
    exact (Surroundings.shape_inj (Surroundings.shape_close hAround hSettled 0)).1

end Builder

/-- A token that carries no structure where it stands, `fresh` if that is the start of a line: a
comment, a line break that ends nothing but comments, blanks that indent nothing. -/
def Token.isIdle (fresh : Bool) (t : Token) : Bool :=
  t.kind = .comment || (t.kind = .lineBreak && fresh) || (t.kind = .space && !fresh)

/-- The tokens that carry structure. A token is at the start of a line, and `fresh` says so of the
first one, if there are only comments between it and the last line break or the start of all. -/
def withoutIdle (fresh : Bool) : List Token → List Token
  | [] => []
  | t :: tokens =>
    if t.isIdle fresh then withoutIdle (t.kind = .lineBreak || fresh && t.kind = .comment) tokens
    else t :: withoutIdle (t.kind = .lineBreak || fresh && t.kind = .comment) tokens

namespace Builder
variable {b b' : Builder}

theorem startsStatement_eq_false {t : Token} (h : t.isIdle true = true) :
    startsStatement t = false := by
  have hKind : t.kind = .comment ∨ t.kind = .lineBreak := by simpa [Token.isIdle] using h
  simp [startsStatement_eq, hKind.symm]

theorem Alike.push_idle (h : b.Alike b') {t : Token} (ht : t.isIdle b.isFresh = true) :
    (b.push t).Alike b' := by
  cases h with
  | leading preamble preamble' =>
    rw [push_leading, startsStatement_eq_false ht]
    exact .leading _ _
  | between hAround hCurrent =>
    rw [push_between, startsStatement_eq_false ht]
    exact .between hAround (by simpa using hCurrent)
  | @inside around around' line line' hAround hLine =>
    -- Blanks and comments inside a line wait with the identity held back, and do not flush it.
    have hKind : t.kind = .comment ∨ t.kind = .space := by simpa [Token.isIdle, isFresh] using ht
    have hBreak : t.kind ≠ .lineBreak := by rcases hKind with h | h <;> simp [h]
    rw [push_inside_kind, if_neg hBreak, line.push_eq_trivia hKind]
    exact .inside hAround (by simpa using hLine)

/-- One builder reads all tokens, the other leaves out the idle ones. -/
theorem Alike.pushAll (h : b.Alike b') (hb : b.Sound) (hb' : b'.Sound) (tokens : List Token) :
    (b.pushAll tokens).Alike (b'.pushAll (withoutIdle b.isFresh tokens)) := by
  induction tokens generalizing b b' with
  | nil => exact h
  | cons t tokens ih =>
    have hFresh : (t.kind = .lineBreak || b.isFresh && t.kind = .comment) = (b.push t).isFresh := by
      rw [isFresh_push, isLineBreak_eq, startsStatement_eq]
      cases b.isFresh <;> by_cases hKind : t.kind = .lineBreak <;> simp [hKind]
    rw [pushAll_cons, withoutIdle, hFresh]
    split
    · rename_i hIdle
      exact ih (h.push_idle hIdle) (hb.push t) hb'
    · rw [pushAll_cons]
      exact ih (h.push hb hb' t) (hb.push t) (hb'.push t)

end Builder

/-- Comments, blanks inside lines and line breaks between them change no structure. -/
theorem skeleton_build_withoutIdle (tokens : List Token) :
    (build (withoutIdle true tokens)).map Statement.skeleton =
      (build tokens).map Statement.skeleton := by
  have hStart : Builder.empty.Sound := trivial
  have hAlike : Builder.empty.Alike .empty := .leading _ _
  have hAll := hAlike.pushAll hStart hStart tokens
  exact (hAll.finish (hStart.pushAll _) (hStart.pushAll _)).symm

end Outline
