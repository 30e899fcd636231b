import Lossless.Precondition
import Lossless.Proofs.Java.Places
import Lossless.Proofs.Visitor.Visit

/-!
# What the search for a call finds

The search for a call that a matcher accepts looks at a node before its children and enters
nothing any more once it has found a call. It leaves the tree alone and finds a call exactly
if there is one anywhere (`Lossless.Java.usesMethod_eq_anyNode`): what it does not enter
could only confirm what it knows.
-/

namespace Lossless.Java

/-- A visitor that does not care for types enters what it wants to visit. -/
theorem Visitor.enter_eq {m : Type → Type} [Monad m] [LawfulMonad m] {σ : Type} {v : Visitor σ m}
    (h : ∀ type, v.visitType type = pure ())
    (t : Tree) : v.toVisitor.enter t = v.preVisit t := by
  have hforM : ∀ types : List JavaType, types.forM v.visitType = pure () := by
    intro types
    induction types with
    | nil => rfl
    | cons type types ih =>
      show (v.visitType type >>= fun _ => types.forM v.visitType) = pure ()
      rw [h, pure_bind, ih]
  simp only [toVisitor, hforM]
  refine (bind_congr fun entered => ?_).trans (bind_pure _)
  cases entered with
  | false => rfl
  | true => exact pure_bind ..

/-- Is a node a call that a matcher accepts? -/
def Matcher.acceptsNode (m : Matcher) (t : Tree) : Bool := t.call?.any m.acceptsCall

/-- A matcher accepts calls only. -/
theorem Matcher.acceptsNode_iff (m : Matcher) (t : Tree) :
    m.acceptsNode t = true ↔
      (t.kind = .methodInvocation ∨ t.kind = .newClass) ∧ m.accepts t = true := by
  cases t <;> simp [acceptsNode, accepts, Tree.kind, Tree.call?]

section Scan

variable (m : Matcher)

/-- At a node the search goes on only if neither it nor anything before is a call. -/
theorem callScanner_enter (t : Tree) (found : Bool) :
    (callScanner m false).toVisitor.enter t found =
      (!(found || m.acceptsNode t), found || m.acceptsNode t) := by
  rw [Visitor.enter_eq fun _ => rfl]
  cases found with
  | true => rfl
  | false =>
    show (if m.acceptsNode t then _ else _ : StateM Bool Bool) false = _
    cases m.acceptsNode t <;> rfl

/-- **The search leaves a tree alone and finds a call anywhere in it.** -/
theorem callScanner_visit (t : Tree) (s : Traversal Tree Bool) :
    (callScanner m false).toVisitor.visit t s =
      (some .same, { s with state := s.state || anyNode m.acceptsNode t }) := by
  induction t using induction_on_children generalizing s with
  | step t ih =>
    have hfold : ∀ (cs : List Tree) (s : Traversal Tree Bool),
        cs.foldl (fun s c => { s with state := s.state || anyNode m.acceptsNode c }) s =
          { s with state := s.state || cs.any (anyNode m.acceptsNode) } := by
      intro cs
      induction cs with
      | nil => intro s; simp
      | cons c cs ih => intro s; rw [List.foldl_cons, ih, List.any_cons, Bool.or_assoc]
    have henter := callScanner_enter m t s.state
    rw [anyNode_eq, ← Bool.or_assoc]
    cases hstop : s.state || m.acceptsNode t with
    | true =>
      -- nothing below is visited, and nothing there could change the answer
      rw [hstop] at henter
      rw [Bool.true_or]
      exact Lossless.Visitor.visit_of_refused henter
    | false =>
      rw [hstop] at henter
      have hwalk := Lossless.Visitor.walk_same ih ⟨false, s.cursor.push t⟩
      rw [hfold] at hwalk
      exact Lossless.Visitor.visit_of_entered henter
        (congrArg (fun r : Update Tree × Traversal Tree Bool => (some r.1, r.2)) hwalk)

/-- **The scanner finds a call exactly if there is one that is accepted**, though it stops at the
first. -/
theorem usesMethod_eq_anyNode (unit : CompilationUnit Tree) :
    usesMethod m unit false = anyNode m.acceptsNode (.compilationUnit unit) := by
  rw [usesMethod, Lossless.Visitor.reduce, Lossless.Visitor.run]
  exact (congrArg (·.2.state) (callScanner_visit m _ _)).trans (Bool.false_or _)

end Scan

end Lossless.Java
