import Lossless.Tree
import Lossless.Cursor

/-!
# Visitors

A traversal of a tree, written once for all languages. A visitor
(`Lossless.Visitor`) says what to do at a node; `Lossless.Visitor.visit` keeps the
cursor, enters the children in the order in which they are printed and puts their
answers in their places.

At a node the visitor is handed the walk over its children as an action that it may
run before, after or between its own steps, or not at all: then the traversal does
not descend there. The walk says what becomes of the node given the answers of its
children (`Lossless.Update`); the visitor answers in the same way, perhaps with a node of
another kind, or with `none` to have the node deleted.

The steps of a visitor may be steps of some monad `m`, say ones that can fail. Without any
need for that, `m` is left out.
-/

namespace Lossless

/-- Where a traversal stands: the visitor's own state, and the path to the node. -/
structure Traversal (τ σ : Type) where
  /-- The state of the visitor. -/
  state : σ
  /-- The path from the root. -/
  cursor : Cursor τ

/-- Steps of a traversal. -/
abbrev VisitM (τ σ : Type) (m : Type → Type) := StateT (Traversal τ σ) m

variable {m : Type → Type} [Monad m]

namespace VisitM

variable {τ σ α : Type}

/-- A step on the visitor's own state. -/
def onState (x : StateT σ m α) : VisitM τ σ m α := fun s => do
  let (a, state) ← x s.state
  return (a, { s with state })

/-- The path to the current node. -/
def cursor : VisitM τ σ m (Cursor τ) := do return (← get).cursor

/-- Enters a node. -/
def push (t : τ) : VisitM τ σ m Unit := modify fun s => { s with cursor := s.cursor.push t }

/-- Leaves the current node. -/
def pop : VisitM τ σ m Unit := modify fun s => { s with cursor := s.cursor.pop }

end VisitM

/-- What a traversal does at every node. -/
structure Visitor (τ σ : Type) (m : Type → Type := Id) [Monad m] where
  /-- Runs before a node is entered. On `false` the node is left as it is, with
  everything below it. -/
  enter : τ → StateT σ m Bool := fun _ => pure true
  /-- Runs at a node that was entered, with the walk over its children. -/
  node : τ → VisitM τ σ m (Update τ) → VisitM τ σ m (Option (Update τ)) :=
    fun _ walk => some <$> walk

variable {τ σ : Type} [Node τ]

/-- The traversal of a tree. -/
def Visitor.visit (v : Visitor τ σ m) (t : τ) : VisitM τ σ m (Option (Update τ)) := do
  if ← VisitM.onState (v.enter t) then
    VisitM.push t
    let answer ← v.node t <|
      update t <$> (children t).attach.mapM fun ⟨c, _⟩ => v.visit c
    VisitM.pop
    return answer
  else
    return some .same
termination_by t

/-- A traversal from a fresh cursor: the answer and where the traversal ends. -/
def Visitor.run (v : Visitor τ σ m) (t : τ) (s : σ) :
    m (Option (Update τ) × Traversal τ σ) :=
  (v.visit t).run { state := s, cursor := .empty }

/-- A traversal for its effect on the state alone. -/
def Visitor.reduce (v : Visitor τ σ m) (t : τ) (s : σ) : m σ := do
  return (← v.run t s).2.state

end Lossless
