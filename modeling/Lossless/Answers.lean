import Lossless.Padding
import Lossless.Tree

/-!
# Putting answers in the places of children

`Lossless.Node.update` takes one answer for every child, in order. A kind of nodes
says how by reading the answers off one after the other, each place in its own way:

* a place of a list loses its element if the answer is `none`;
* an optional place becomes empty, together with its padding;
* a required place keeps its child;
* a place for one kind of nodes also keeps its child if it is offered another kind.

On the way it is noted whether anything changes: whether a place gets another child or
loses the one that it had. A node of which no place changes is the same node.
-/

namespace Lossless

/-- Answers that are left to be read, and what was noted about those that were. -/
structure Reading (τ : Type) where
  /-- The answers that are left. -/
  rest : List (Option (Update τ))
  /-- Has any place changed? -/
  changed : Bool := false

/-- Reading answers off, in order. -/
abbrev Answers (τ : Type) := StateM (Reading τ)

namespace Answers

variable {τ κ α : Type}

/-- The next answer. -/
def next : Answers τ (Option (Update τ)) := fun r =>
  match r.rest with
  | [] => (none, r)
  | a :: rest => (a, { r with rest })

/-- Notes that a place changes. -/
def noteChange : Answers τ Unit := modify ({ · with changed := true })

/-- What is kept in a place that cannot be empty. -/
def keep (child : α) : Option (Update α) → Answers τ α
  | none | some .same => return child
  | some (.new c) => do noteChange; return c

/-- What is left in a place that can be empty. -/
def leave (child : α) : Option (Update α) → Answers τ (Option α)
  | none => do noteChange; return none
  | some .same => return some child
  | some (.new c) => do noteChange; return some c

/-! ### Answers for one kind of nodes, and in a padding -/

/-- What an answer makes of a place for one kind of nodes. -/
def place (cast? : τ → Option κ) : Option (Update τ) → Option (Update κ)
  | none => none
  | some .same => some .same
  | some (.new t) => some ((cast? t).elim .same .new)

/-- What an answer makes of a place for any node, in its padding. -/
def right (p : RightPadded τ) (answer : Option (Update τ)) : Option (Update (RightPadded τ)) :=
  answer.map (·.map p.withElement)

/-- What an answer makes of a place for any node, in its padding. -/
def left (p : LeftPadded τ) (answer : Option (Update τ)) : Option (Update (LeftPadded τ)) :=
  answer.map (·.map p.withElement)

/-- What an answer makes of a place for any node, without padding. -/
def plain (_ : τ) (answer : Option (Update τ)) : Option (Update τ) := answer

/-- What an answer makes of a place for one kind of nodes, without padding. -/
def plainFixed (cast? : τ → Option κ) (_ : κ) (answer : Option (Update τ)) : Option (Update κ) :=
  place cast? answer

/-- What an answer makes of a place for one kind of nodes, in its padding. -/
def rightFixed (cast? : τ → Option κ) (p : RightPadded κ) (answer : Option (Update τ)) :
    Option (Update (RightPadded κ)) :=
  (place cast? answer).map (·.map p.withElement)

/-! ### Places -/

/-- A place that cannot be empty. -/
def required (child : τ) : Answers τ τ := do keep child (← next)

/-- A place that cannot be empty and holds one kind of nodes only. -/
def fixed (cast? : τ → Option κ) (child : κ) : Answers τ κ := do keep child (place cast? (← next))

/-- A place that may be empty. -/
def optional (place : α → Option (Update τ) → Option (Update α)) :
    Option α → Answers τ (Option α)
  | none => return none
  | some child => do leave child (place child (← next))

/-- The places of a list. -/
def list (place : α → Option (Update τ) → Option (Update α)) : List α → Answers τ (List α)
  | [] => return []
  | child :: children => do
    let left ← leave child (place child (← next))
    let rest ← list place children
    return left.toList ++ rest

/-- The places of a delimited list. -/
def container (c : Container τ) : Answers τ (Container τ) :=
  return c.withPadded (← list right c.padded)

/-! ### Nodes -/

/-- What becomes of a node that is put together by reading these answers off. -/
def result (x : Answers τ κ) (answers : List (Option (Update τ))) : Update κ :=
  let (k, r) := x.run { rest := answers }
  if r.changed then .new k else .same

end Answers

end Lossless
