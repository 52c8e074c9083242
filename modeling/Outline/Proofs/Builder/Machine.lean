import Outline.Builder

/-! # The builder with its state in separate fields

The states of the builder leave no room for contradictions: there is no call outside a line, and no
line without a statement. The machine here has a mode, two stacks and a place for one identity side
by side, and changes them one at a time. Nothing in its form keeps them in agreement, so it can come
to a point where what it is about to do has no meaning, and it stops there with a `Lapse`.
-/
namespace Outline
set_option autoImplicit false

inductive Mode where
  | newline
  | statement
  | call
deriving DecidableEq

/-- Why a machine stops. -/
inductive Lapse where
  /-- A node is to be placed where neither a call nor a statement is open. -/
  | nodeDropped
  | noCall
  | noStatement
  /-- A statement or a call without a token is to be closed, and has no span. -/
  | noToken

structure Machine where
  forest : List Statement := []
  /-- The open statements, from the inside out. -/
  statements : List OpenStatement := []
  /-- The open calls, from the inside out. -/
  calls : List OpenCall := []
  pending : Option Pending := none
  preamble : List Token := []
  mode : Mode := .newline

theorem exists_of_bind_eq_ok {α β : Type} {x : Except Lapse α} {f : α → Except Lapse β} {b : β}
    (h : x >>= f = .ok b) : ∃ a, x = .ok a ∧ f a = .ok b := by
  cases x with
  | error lapse => cases h
  | ok a => exact ⟨a, rfl, h⟩

@[simp] theorem ok_bind {α β : Type} (a : α) (f : α → Except Lapse β) : .ok a >>= f = f a := rfl

namespace Machine

def sealed {α : Type} (tokens : List Token) (result : α) : Except Lapse α :=
  if tokens = [] then .error .noToken else .ok result

def record (m : Machine) (t : Token) : Machine :=
  match m.calls, m.statements with
  | c :: outer, _ => { m with calls := c.record t :: outer }
  | [], s :: outer => { m with statements := s.record t :: outer }
  | [], [] => { m with preamble := m.preamble ++ [t] }

/-- Adds a node and its tokens to the innermost of all that is open. -/
def place (m : Machine) (node : Node) (tokens : List Token) : Except Lapse Machine :=
  match m.calls, m.statements with
  | c :: outer, _ => .ok { m with calls := c.place node tokens :: outer }
  | [], s :: outer => .ok { m with statements := s.place node tokens :: outer }
  | [], [] => .error .nodeDropped

def commit (m : Machine) (t : Token) : Except Lapse Machine := m.place (.token t) [t]

def flush (m : Machine) : Except Lapse Machine :=
  match m.pending with
  | none => .ok m
  | some p => do
    let m ← { m with pending := none }.commit p.identity
    return p.trailing.foldl record m

def openCall (m : Machine) (p : Pending) (t : Token) : Machine :=
  { m with
    calls := ⟨p.identity, [], p.identity :: p.trailing ++ [t]⟩ :: m.calls
    mode := .call }

def closeCall (m : Machine) (t : Token) : Except Lapse Machine := do
  let m ← m.flush
  let m := m.record t
  match m.calls with
  | [] => throw .noCall
  | c :: outer =>
    let call ← sealed c.tokens c.toCall
    let m ← { m with calls := outer }.place (.call call) call.tokens
    return if m.calls = [] then { m with mode := .statement } else m

def abandonCall (m : Machine) (c : OpenCall) (outer : List OpenCall) : Except Lapse Machine := do
  let error ← sealed c.tokens c.unterminated
  { m with calls := outer }.place (.token error) c.tokens

section Lengths
variable {m m' : Machine}

theorem lengths_place {node : Node} {tokens : List Token} (h : m.place node tokens = .ok m') :
    m'.calls.length = m.calls.length ∧ m'.statements.length = m.statements.length := by
  unfold place at h
  split at h
  · rename_i hCalls
    cases h
    simp [hCalls]
  · rename_i hStatements
    cases h
    simp [hStatements]
  · cases h

theorem lengths_abandonCall {c : OpenCall} {outer : List OpenCall}
    (h : m.abandonCall c outer = .ok m') :
    m'.calls.length = outer.length ∧ m'.statements.length = m.statements.length := by
  obtain ⟨_, _, hPlaced⟩ := exists_of_bind_eq_ok h
  exact lengths_place hPlaced

theorem length_statements_foldl_record (m : Machine) (tokens : List Token) :
    (tokens.foldl record m).statements.length = m.statements.length := by
  have hRecord : ∀ (m : Machine) (t : Token),
      (m.record t).statements.length = m.statements.length := by
    intro m t
    unfold record
    split <;> simp [*]
  induction tokens generalizing m with
  | nil => rfl
  | cons t tokens ih => rw [List.foldl_cons, ih, hRecord]

theorem length_statements_flush (h : m.flush = .ok m') :
    m'.statements.length = m.statements.length := by
  unfold flush at h
  split at h
  · cases h
    rfl
  · obtain ⟨placed, hPlaced, hRecorded⟩ := exists_of_bind_eq_ok h
    cases hRecorded
    rw [length_statements_foldl_record, (lengths_place hPlaced).2]

end Lengths

def abandonCalls (m : Machine) : Except Lapse Machine :=
  match _hCalls : m.calls with
  | [] => .ok (if m.mode = .call then { m with mode := .statement } else m)
  | c :: outer =>
    match _hPlaced : m.abandonCall c outer with
    | .error lapse => .error lapse
    | .ok placed => placed.abandonCalls
termination_by m.calls.length
decreasing_by
  rw [(lengths_abandonCall _hPlaced).1, _hCalls]
  exact Nat.lt_succ_self _

theorem abandonCalls_of_nil {m : Machine} (h : m.calls = []) :
    m.abandonCalls = .ok (if m.mode = .call then { m with mode := .statement } else m) := by
  rw [abandonCalls]
  split
  · rfl
  · rename_i hCalls
    rw [h] at hCalls
    cases hCalls

theorem abandonCalls_of_cons {m : Machine} {c : OpenCall} {outer : List OpenCall}
    (h : m.calls = c :: outer) : m.abandonCalls = m.abandonCall c outer >>= abandonCalls := by
  rw [abandonCalls]
  split
  · rename_i hCalls
    rw [h] at hCalls
    cases hCalls
  · rename_i hCalls
    rw [h] at hCalls
    cases hCalls
    split
    · rename_i hPlaced
      rw [hPlaced]
      rfl
    · rename_i hPlaced
      rw [hPlaced]
      rfl

theorem length_statements_abandonCalls {m m' : Machine} (h : m.abandonCalls = .ok m') :
    m'.statements.length = m.statements.length := by
  induction hLength : m.calls.length generalizing m with
  | zero =>
    rw [abandonCalls_of_nil (List.length_eq_zero_iff.mp hLength)] at h
    cases h
    split <;> rfl
  | succ n ih =>
    obtain ⟨c, outer, hCalls⟩ := List.exists_cons_of_length_eq_add_one hLength
    rw [abandonCalls_of_cons hCalls] at h
    obtain ⟨placed, hPlaced, hRest⟩ := exists_of_bind_eq_ok h
    obtain ⟨hShorter, hStatements⟩ := lengths_abandonCall hPlaced
    rw [hCalls, List.length_cons] at hLength
    rw [ih hRest (hShorter.trans (Nat.succ.inj hLength)), hStatements]

/-- Closes the innermost statement, which becomes a child of the one around it. -/
def closeInnermost (m : Machine) : Except Lapse Machine := do
  let m ← (if m.calls = [] then .ok m else m.abandonCalls)
  let m ← m.flush
  match m.statements with
  | [] => throw .noStatement
  | s :: outer =>
    let closed ← sealed s.tokens s.toStatement
    match outer with
    | [] => return { m with forest := m.forest ++ [closed], statements := [] }
    | parent :: outer => return { m with statements := parent.adopt closed :: outer }

theorem length_statements_closeInnermost {m m' : Machine} (h : m.closeInnermost = .ok m') :
    m'.statements.length + 1 = m.statements.length := by
  obtain ⟨settled, hSettled, h⟩ := exists_of_bind_eq_ok h
  obtain ⟨flushed, hFlushed, h⟩ := exists_of_bind_eq_ok h
  have hFirst : settled.statements.length = m.statements.length := by
    split at hSettled
    · cases hSettled
      rfl
    · exact length_statements_abandonCalls hSettled
  rw [← hFirst, ← length_statements_flush hFlushed]
  split at h
  · cases h
  · rename_i hStatements
    obtain ⟨closed, _, h⟩ := exists_of_bind_eq_ok h
    split at h
    · cases h
      simp [hStatements]
    · cases h
      simp [hStatements]

def closeWhile (toClose : OpenStatement → Bool) (m : Machine) : Except Lapse Machine :=
  if m.statements.head?.any toClose then
    match _hClosed : m.closeInnermost with
    | .error lapse => .error lapse
    | .ok closed => closed.closeWhile toClose
  else .ok m
termination_by m.statements.length
decreasing_by
  exact Nat.lt_of_succ_le (Nat.le_of_eq (length_statements_closeInnermost _hClosed))

theorem closeWhile_eq (toClose : OpenStatement → Bool) (m : Machine) :
    m.closeWhile toClose =
      if m.statements.head?.any toClose then m.closeInnermost >>= closeWhile toClose
      else .ok m := by
  rw [closeWhile]
  split
  · split
    · rename_i hClosed
      rw [hClosed]
      rfl
    · rename_i hClosed
      rw [hClosed]
      rfl
  · rfl

def trivia (m : Machine) (t : Token) : Machine :=
  match m.pending with
  | none => m.record t
  | some p => { m with pending := some { p with trailing := p.trailing ++ [t] } }

def parenthesisOpen (m : Machine) (t : Token) : Except Lapse Machine :=
  match m.pending with
  | none => m.commit (t.toError .unexpectedToken)
  | some p => .ok ({ m with pending := none }.openCall p t)

/-- What is alike in lines and calls: it goes to the innermost of all that is open. -/
def contentToken (m : Machine) (t : Token) : Except Lapse Machine :=
  match t.content with
  | .space _ | .comment => .ok (m.trivia t)
  | .identity => do
    let m ← m.flush
    return { m with pending := some ⟨t, []⟩ }
  | .parenthesisOpen => m.parenthesisOpen t
  | _ => do
    let m ← m.flush
    m.commit t

def statementToken (m : Machine) (t : Token) : Except Lapse Machine :=
  match t.content with
  | .lineBreak _ => do
    let m ← m.flush
    return { m.record t with mode := .newline }
  | .parenthesisClose | .comma => do
    let m ← m.flush
    return m.record (t.toError .unexpectedTokenInStatement)
  | _ => m.contentToken t

def callToken (m : Machine) (t : Token) : Except Lapse Machine :=
  match t.content with
  | .lineBreak _ => do
    let m ← m.abandonCalls
    let m ← m.flush
    return { m.record t with mode := .newline }
  | .parenthesisClose => m.closeCall t
  | .comma => do
    let m ← m.flush
    return m.record t
  | _ => m.contentToken t

def lineStart (m : Machine) (t : Token) : Except Lapse Machine :=
  match t.content with
  | .lineBreak _ | .comment => .ok (m.record t)
  | .space size => do
    let m ← m.closeWhile fun s => size ≤ s.indent
    let m := { m with statements := { indent := size } :: m.statements }.record t
    return { m with mode := .statement }
  | _ => do
    let m ← m.closeWhile fun _ => true
    { m with statements := { indent := 0 } :: m.statements, mode := .statement }.statementToken t

def push (m : Machine) (t : Token) : Except Lapse Machine :=
  match m.mode with
  | .newline => m.lineStart t
  | .statement => m.statementToken t
  | .call => m.callToken t

def run (m : Machine) (tokens : List Token) : Except Lapse Machine := tokens.foldlM push m

def finish (m : Machine) : Except Lapse (List Statement) := do
  let m ← m.abandonCalls
  let m ← m.flush
  let m ← m.closeWhile fun _ => true
  return m.forest

end Machine
end Outline
