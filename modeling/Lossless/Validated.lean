/-!
# Checks that report every fault

A check that stops at the first fault hides the others. `Lossless.Validated` combines
checks so that a result is there if all of them pass, and otherwise the faults of all of
them, in order; there is at least one then.
-/

namespace Lossless

/-- The result of checks, or the faults that they found. -/
inductive Validated (ε α : Type) where
  /-- All is well. -/
  | good (a : α)
  /-- There is a first fault, and perhaps more. -/
  | bad (first : ε) (more : List ε)
deriving DecidableEq, Repr

namespace Validated

variable {ε α β : Type}

/-- Applies a checked function to a checked value. -/
def seq : Validated ε (α → β) → Validated ε α → Validated ε β
  | .good f, .good a => .good (f a)
  | .good _, .bad e es => .bad e es
  | .bad e es, .good _ => .bad e es
  | .bad e es, .bad e' es' => .bad e (es ++ e' :: es')

instance : Applicative (Validated ε) where
  pure := .good
  seq f a := f.seq (a ())

/-- A value that may be missing, or else a fault. -/
def ofOption (fault : ε) : Option α → Validated ε α
  | some a => .good a
  | none => .bad fault []

/-- The faults that were found. -/
def faults : Validated ε α → List ε
  | .good _ => []
  | .bad e es => e :: es

/-- The result, or the first fault. -/
def toExcept : Validated ε α → Except ε α
  | .good a => .ok a
  | .bad e _ => .error e

/-- Is all well? -/
def isGood : Validated ε α → Bool
  | .good _ => true
  | .bad _ _ => false

@[simp]
theorem faults_pure (a : α) : (pure a : Validated ε α).faults = [] := rfl

/-- The faults of two checks are those of the first and then those of the second. -/
@[simp]
theorem faults_seq (f : Validated ε (α → β)) (a : Validated ε α) :
    (f <*> a).faults = f.faults ++ a.faults := by
  show (f.seq a).faults = _
  cases f <;> cases a <;> simp [Validated.seq, faults]

@[simp]
theorem faults_map (f : α → β) (a : Validated ε α) : (f <$> a).faults = a.faults := by
  show (seq (.good f) a).faults = _
  cases a <;> rfl

end Validated

end Lossless
