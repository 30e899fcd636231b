import Lossless.Proofs.Run.Memo
import Lossless.Proofs.Visitor.InStep
import Lossless.Recipe.Run

/-!
# Visits that do not notice each other

Two contexts are *alike* (`Lossless.Context.Alike`) if they differ at most in what they share
with other contexts, and that is quiet in both. Visits that are in step
(`Lossless.ContextM.InStep`) have the same outcome in alike contexts: both succeed with the same
answer and leave contexts alike, or both fail for the same reason. So a visit that is in step with
itself does not notice what others do meanwhile.

The steps that visits are made of are taken one by one: visits of a Java file, tests for
calls, procedures, and then sequences of these.
-/

namespace Lossless

/-- Contexts that differ at most in what they share with others. -/
structure Context.Alike (c d : Context) : Prop where
  own : { c with shared := {} } = { d with shared := {} }
  left : c.shared.Quiet
  right : d.shared.Quiet

/-- To request the removal of an import changes nothing that other contexts share. -/
theorem Context.shared_requestRemoval {ω : Type} (c : Context ω) (name : String) :
    (c.requestRemoval name).shared = c.shared := by
  rw [Context.requestRemoval]
  split <;> rfl

namespace Context.Alike

variable {c d : Context}

/-- Contexts that are alike remain so, whatever quiet things they share. -/
theorem withShared (h : c.Alike d) {shared shared' : Shared} (hs : shared.Quiet)
    (hs' : shared'.Quiet) : Alike { c with shared } { d with shared := shared' } :=
  ⟨h.own, hs, hs'⟩

theorem symm (h : c.Alike d) : d.Alike c := ⟨h.own.symm, h.right, h.left⟩

theorem trans {e : Context} (h : c.Alike d) (h' : d.Alike e) : c.Alike e :=
  ⟨h.own.trans h'.own, h.left, h'.right⟩

theorem importRequests (h : c.Alike d) : c.importRequests = d.importRequests := by
  show ({ c with shared := {} } : Context).importRequests = _
  rw [h.own]

/-- Contexts that are alike remain so if the same import is requested in both. -/
theorem requestRemoval (h : c.Alike d) (name : String) :
    Alike (c.requestRemoval name) (d.requestRemoval name) := by
  have hown : ∀ c : Context, { c.requestRemoval name with shared := {} } =
      Context.requestRemoval { c with shared := {} } name := fun c => by
    rw [Context.requestRemoval, Context.requestRemoval]
    split <;> rfl
  refine ⟨?_, ?_, ?_⟩
  · rw [hown, hown, h.own]
  · rw [shared_requestRemoval]
    exact h.left
  · rw [shared_requestRemoval]
    exact h.right

end Context.Alike

/-- From alike contexts two visits have the same outcome and leave alike contexts. -/
abbrev ContextM.InStep {α : Type} (x y : ContextM Unit α) : Prop :=
  Lossless.InStep Context.Alike x y

namespace ContextM.InStep

variable {α β : Type} {x y z : ContextM Unit α}

/-- Both visits succeed, with the same answer, or both fail, for the same reason. -/
theorem cases (h : InStep x y) {c d : Context} (hcd : c.Alike d) :
    (∃ a c' d', x c = .ok (a, c') ∧ y d = .ok (a, d') ∧ c'.Alike d') ∨
      ∃ e, x c = .error e ∧ y d = .error e :=
  inStep_except_iff.mp h c d hcd

theorem symm (h : InStep x y) : InStep y x := by
  refine inStep_except_iff.mpr fun c d hcd => ?_
  rcases h.cases hcd.symm with ⟨a, c', d', hx, hy, h'⟩ | ⟨e, hx, hy⟩
  · exact .inl ⟨a, d', c', hy, hx, h'.symm⟩
  · exact .inr ⟨e, hy, hx⟩

theorem trans (h : InStep x y) (h' : InStep y z) : InStep x z := by
  refine inStep_except_iff.mpr fun c d hcd => ?_
  -- the visit in the middle is run once more, and it has one outcome
  rcases h.cases hcd with ⟨a, c', d', hx, hy, hcd'⟩ | ⟨e, hx, hy⟩ <;>
    rcases h'.cases (hcd.symm.trans hcd) with ⟨b, d'', e', hy', hz, he⟩ | ⟨e', hy', hz⟩
  · obtain ⟨rfl, rfl⟩ := Prod.mk.inj (Except.ok.inj (hy.symm.trans hy'))
    exact .inl ⟨a, c', e', hx, hz, hcd'.trans he⟩
  · cases hy.symm.trans hy'
  · cases hy.symm.trans hy'
  · obtain rfl := Except.error.inj (hy.symm.trans hy')
    exact .inr ⟨e, hx, hz⟩

theorem ofState {x y : StateM Context α} (h : Lossless.InStep Context.Alike x y) :
    InStep (ContextM.ofState x) (ContextM.ofState y) := by
  refine inStep_except_iff.mpr fun c d hcd => .inl ?_
  obtain ⟨ha, h'⟩ := inStep_id_iff.mp h c d hcd
  refine ⟨(x c).1, (x c).2, (y d).2, rfl, ?_, h'⟩
  rw [ha]
  rfl

end ContextM.InStep

/-! ### Visits of files -/

/-- The test for calls gives one answer in all alike contexts. -/
theorem inStep_applies_usesMethod {m : Java.Matcher} (hm : m.Compiled) (s : Source) :
    InStep (m := Id) Context.Alike ((Precondition.test (.usesMethod m)).applies s)
      (pure (m.uses s)) := by
  refine inStep_id_iff.mpr fun c d h => ?_
  -- the memo of the first context may grow; that of the second is not looked at
  obtain ⟨shared, hshared, happlies⟩ := h.left.applies_usesMethod hm s
  rw [happlies]
  exact ⟨rfl, h.withShared hshared h.right⟩

/-- **The memo is not noticed**: behind the test for calls a visit is what it is without
any memo. -/
theorem inStep_check {m : Java.Matcher} (hm : m.Compiled) {v : SourceVisitor} {s : Source}
    (h : ContextM.InStep (v s) (v s)) :
    ContextM.InStep (SourceVisitor.check (.test (.usesMethod m)) v s)
      (if m.uses s then v s else pure (.tree .same)) := by
  have htest := ContextM.InStep.ofState (inStep_applies_usesMethod hm s)
  have hbind := htest.bind (f := fun applies => if applies then v s else pure (.tree .same))
    (g := fun applies => if applies then v s else pure (.tree .same)) fun applies => ?_
  · exact hbind
  · cases applies with
    | true => exact h
    | false => exact .pure _

/-- A visit of a Java file runs the visitor from a fresh cursor and reads the answer. -/
theorem visitUnit_eq {ω : Type} (v : Java.Visitor (Context ω) (Except Failure))
    (unit : Java.CompilationUnit Java.Tree) :
    visitUnit v unit = (fun answer => .ofAnswer .java (Answers.place Java.Tree.unit? answer)) <$>
      (fun c => (fun z => (z.1, z.2.state)) <$> v.toVisitor.run (.compilationUnit unit) c :
        ContextM ω (Option (Update Java.Tree))) := by
  funext c
  show (v.toVisitor.run (.compilationUnit unit) c >>= _) = _
  rw [map_eq_pure_bind]
  show _ = (fun z => (z.1, z.2.state)) <$> v.toVisitor.run (.compilationUnit unit) c >>= _
  cases v.toVisitor.run (.compilationUnit unit) c <;> rfl

/-- Visitors that are in step visit files in step. -/
theorem inStep_visitUnit {v w : Java.Visitor Context (Except Failure)}
    (h : v.toVisitor.InStep Context.Alike w.toVisitor) (unit : Java.CompilationUnit Java.Tree) :
    ContextM.InStep (visitUnit v unit) (visitUnit w unit) := by
  rw [visitUnit_eq, visitUnit_eq]
  exact (h.run (.compilationUnit unit)).map _

/-! ### Procedures -/

/-- Procedures in step on every file. -/
def Procedure.InStep (p q : Procedure) : Prop :=
  ∀ d : Draft, ContextM.InStep (Visited.outcome d <$> p.visitor d.source)
    (Visited.outcome d <$> q.visitor d.source)

/-- Unless the run was cancelled, a procedure does to a file what its visitor does. -/
theorem Procedure.apply_some {ω : Type} (p : Procedure ω) (d : Draft) {c : Context ω}
    (hc : c.isCancelled = false) :
    p.apply (some d) c = (Visited.outcome d <$> p.visitor d.source) c := by
  show (if c.isCancelled = true then _ else _ : ContextM ω (Option Draft)) c = _
  rw [hc, map_eq_pure_bind]
  rfl

/-- Procedures that are in step are so in a run, too. -/
theorem Procedure.InStep.apply {p q : Procedure} (h : p.InStep q) (d : Option Draft) :
    ContextM.InStep (p.apply d) (q.apply d) := by
  cases d with
  | none => exact .pure none
  | some d =>
    intro c c' hc
    rw [p.apply_some d hc.left.uncancelled, q.apply_some d hc.right.uncancelled]
    exact h d c c' hc

end Lossless
