import Lossless.Context
import Lossless.Java.Matcher
import Lossless.Java.Visitor

/-!
# Preconditions

Before a recipe visits a file it can ask, at less cost, whether there is anything to do.
Such a question is a test (`Lossless.Test`), or is made of tests with *or*, *and* and
*not*. Each has a key; tests with one key have to give one answer, since answers are
remembered by key.

A run can be cancelled while a test is evaluated. What the test answers then means
nothing, so `Lossless.memoized` answers `false` and remembers nothing, and the negation of
such an answer is `false`, too.
-/

namespace Lossless

/-! ### Tests -/

variable {ω : Type}

/-- A question about a file. -/
structure Test (ω : Type := Unit) where
  /-- What the answer is remembered under. -/
  key : String
  /-- The answer. -/
  evaluate : Source → StateM (Context ω) Bool

namespace Java

/-- Looks for a call that a matcher accepts. Once there is one, or if the run was
cancelled, no further node is entered. -/
def callScanner (m : Matcher) (cancelled : Bool) : Visitor Bool where
  preVisit t := do
    if (← get) || cancelled then return false
    else if t.call?.any m.acceptsCall then
      set true
      return false
    else return true

/-- Does a file contain a call that a matcher accepts? -/
def usesMethod (m : Matcher) (unit : CompilationUnit Tree) (cancelled : Bool) : Bool :=
  (callScanner m cancelled).toVisitor.reduce (.compilationUnit unit) false

end Java

/-- The test whether a file contains a call that a matcher accepts. -/
def Test.usesMethod (m : Java.Matcher) (ω : Type := Unit) : Test ω where
  key := "uses-method(" ++ m.pattern.text ++ ", overrides=" ++ toString m.overrides ++
    ", fallback=" ++ m.fallback.describe ++ ")"
  evaluate s := do
    let c ← get
    return (s.java?.any fun unit => Java.usesMethod m unit c.isCancelled) && !c.isCancelled

/-! ### Combinations -/

/-- A combination of tests. -/
inductive Precondition (ω : Type := Unit) where
  /-- One test. -/
  | test (t : Test ω)
  /-- One of two, the second only if the first does not apply. -/
  | either (p q : Precondition ω)
  /-- Both, the second only if the first applies. -/
  | both (p q : Precondition ω)
  /-- Not this one. -/
  | not (p : Precondition ω)

/-- The remembered answer, or else a new one, which is remembered unless the run was
cancelled. -/
def memoized (key : String) (s : Source) (evaluate : StateM (Context ω) Bool) :
    StateM (Context ω) Bool := do
  match (← get).answer? key s with
  | some answer => return answer
  | none =>
    let answer ← evaluate
    if (← get).isCancelled then return false
    else
      modify (·.remember key s answer)
      return answer

namespace Precondition

/-- What the answer is remembered under. -/
def key : Precondition ω → String
  | .test t => t.key
  | .either p q => "or(" ++ key p ++ ", " ++ key q ++ ")"
  | .both p q => "and(" ++ key p ++ ", " ++ key q ++ ")"
  | .not p => "not(" ++ key p ++ ")"

/-- The answer, of which only parts are remembered or looked up. -/
def evaluate : Precondition ω → Source → StateM (Context ω) Bool
  | .test t, s => t.evaluate s
  | .either p q, s => do
    if ← memoized p.key s (evaluate p s) then return true
    else memoized q.key s (evaluate q s)
  | .both p q, s => do
    if ← memoized p.key s (evaluate p s) then memoized q.key s (evaluate q s)
    else return false
  | .not p, s => do
    let answer ← memoized p.key s (evaluate p s)
    return !answer && !(← get).isCancelled

/-- Does a precondition apply to a file? -/
def applies (p : Precondition ω) (s : Source) : StateM (Context ω) Bool :=
  memoized p.key s (p.evaluate s)

end Precondition

end Lossless
