import Lossless.Proofs.Java.Call
import Lossless.Proofs.Recipe.Actions
import Lossless.Proofs.Run.Alone

/-!
# Recipes that change calls

What the recipes that change calls have in common. Their visitors change every node by itself, so
a visit changes the tree of a file from the bottom up (`Lossless.visitUnit_of_changes`). Which
nodes they change is a matter of the matcher, and that goes by the gist of a call: it does not
notice what has been changed below (`Lossless.Java.Matcher.acceptsNode_mapChildren`). And the
recipe does to a file what its visitor does (`Lossless.exists_apply_gated`): the test for calls
that comes first makes no difference.
-/

namespace Lossless

open Java

/-! ### Which calls are changed -/

namespace Java.Matcher

/-- A matcher goes by the gist of a call. -/
theorem acceptsCall_eq_of_gist (m : Matcher) {c d : Call} (h : c.gist = d.gist) :
    m.acceptsCall c = m.acceptsCall d := by
  simp only [Call.gist, Prod.mk.injEq] at h
  obtain ⟨htype, hname, hlength⟩ := h
  rw [acceptsCall, acceptsCall, htype, hname, hlength]

/-- **What is changed below a node does not decide whether it is accepted.** -/
theorem acceptsNode_mapChildren (m : Matcher) {f : Tree → Tree} (hf : Tree.KeepsForm f) (t : Tree) :
    m.acceptsNode (mapChildren f t) = m.acceptsNode t := by
  have hgist := hf.gist_mapChildren t
  rw [acceptsNode, acceptsNode]
  cases hcall : t.call? with
  | none => rw [Tree.call?_mapChildren_of_no_call f hcall]
  | some c =>
    rw [hcall, Option.map_some, Option.map_eq_some_iff] at hgist
    obtain ⟨d, hd, hgist⟩ := hgist
    rw [hd, Option.any_some, Option.any_some, acceptsCall_eq_of_gist m hgist]

end Java.Matcher

/-! ### What becomes of a file -/

section Unit

variable {ω : Type}

/-- **A visitor that changes every node by itself** changes the tree of a file from the bottom
up. -/
theorem visitUnit_of_changes {v : Java.Visitor (Context ω) (Except Failure)}
    {g : Tree → Update Tree} {h : Context ω → Tree → Context ω}
    (hg : Tree.KeepsForm fun t => (g t).of t) (hpre : ∀ t, v.preVisit t = pure true)
    (htype : ∀ type, v.visitType type = pure ())
    (hnode : ∀ t walk s w s', walk s = .ok (w, s') → v.node t walk s =
      .ok (some (w.andThen (g (w.of t))), { s' with state := h s'.state (w.of t) }))
    (unit : CompilationUnit Tree) (c : Context ω) :
    ∃ w : Update (CompilationUnit Tree),
      changes g (.compilationUnit unit) = w.map .compilationUnit ∧
      visitUnit v unit c =
        .ok (.tree (w.map .java),
          (turns (fun t => (g t).of t) (.compilationUnit unit)).foldl h c) := by
  have hvisit := Lossless.Visitor.visit_of_changes (v := v.toVisitor) (h := h)
    (fun t => (Visitor.enter_eq htype t).trans (hpre t)) hnode (.compilationUnit unit) ⟨c, .empty⟩
  have hkind := hg.bottomUp.kind_eq (.compilationUnit unit)
  rw [← of_changes] at hkind
  have hunit := visitUnit_of_visit hvisit
  cases hchanges : changes g (.compilationUnit unit) with
  | same =>
    rw [hchanges] at hunit
    exact ⟨.same, rfl, hunit⟩
  | new t =>
    rw [hchanges] at hkind hunit
    cases t with
    | compilationUnit unit' => exact ⟨.new unit', rfl, hunit⟩
    | _ => cases hkind

/-- **A recipe behind the test does to a Java file what its visitor does.** The test, and the memo
of its answers, leave no trace but in the memo. -/
theorem exists_apply_gated {v : Java.Visitor Context (Except Failure)} {m : Matcher}
    (hm : m.Compiled) {p : Procedure}
    (hvisitor : p.visitor =
      .check (.test (.usesMethod m)) (Capabilities.visitor { java := some v }))
    {unit : CompilationUnit Tree}
    (hsame : usesMethod m unit false = false → ∀ c, visitUnit v unit c = .ok (.tree .same, c))
    {c : Context} (hc : c.shared.Quiet) :
    ∃ shared : Shared, shared.Quiet ∧ ∀ d : Draft, d.source = .java unit →
      (Recipe.mk p []).apply (some d) c =
        (Visited.outcome d <$> visitUnit v unit) { c with shared } := by
  obtain ⟨shared, hshared, happlies⟩ := hc.applies_usesMethod hm (.java unit)
  have hgated : p.visitor (.java unit) c = visitUnit v unit { c with shared } := by
    have hcheck : p.visitor (.java unit) = (do
        if ← ContextM.ofState ((Precondition.test (.usesMethod m)).applies (.java unit)) then
          visitUnit v unit
        else return .tree .same) := by
      rw [hvisitor]
      rfl
    rw [hcheck]
    refine (bind_of_eq (congrArg Except.ok happlies)).trans ?_
    cases huses : m.uses (.java unit) with
    | true => rfl
    -- the visit is not made, and it would have done nothing
    | false => exact (hsame huses { c with shared }).symm
  refine ⟨shared, hshared, fun d hd => ?_⟩
  have happly : (Recipe.mk p []).apply (some d) = p.apply (some d) := by
    rw [Recipe.apply_eq_applyAll]
    exact bind_pure _
  rw [happly, Procedure.apply_some _ _ hc.uncancelled, hd, map_eq_pure_bind, map_eq_pure_bind]
  show (p.visitor (.java unit) c >>= _) = (visitUnit v unit { c with shared } >>= _)
  rw [hgated]

end Unit

end Lossless
