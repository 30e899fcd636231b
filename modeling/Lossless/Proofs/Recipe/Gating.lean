import Lossless.Proofs.Recipe.Actions
import Lossless.Proofs.Run.Alone

/-!
# What a test for calls is good for

The recipes that change calls ask first whether there are any (`Lossless.Test.usesMethod`).
That is to save time, and it does nothing else (`Lossless.gating_spec`). The test finds a call
exactly if there is one, and where there is none the visitors of these recipes do nothing. So
a run of such a visitor has one outcome with the test and without it, on files of all
languages: a file that is not Java is no more supported by the visitor than it passes the
test.
-/

namespace Lossless

open Java

/-- A recipe that lists no others and visits files with this visitor. -/
def Procedure.visiting (p : Procedure) (v : SourceVisitor) : Recipe :=
  .mk { p with visitor := v } []

section Gated

variable {m : Matcher} {v : Java.Visitor Context (Except Failure)}

/-- A visitor that does nothing where the test fails is in step with itself behind the test. -/
theorem inStep_gated (hm : m.Compiled) (hv : v.toVisitor.InStep Context.Alike v.toVisitor)
    (hsame : ∀ unit, usesMethod m unit false = false →
      ∀ c, visitUnit v unit c = .ok (.tree .same, c)) (p : Procedure) (d : Option Draft) :
    ContextM.InStep
      ((p.visiting (.check (.test (.usesMethod m))
        (Capabilities.visitor { java := some v }))).apply d)
      ((p.visiting (Capabilities.visitor { java := some v })).apply d) := by
  rw [Recipe.apply_eq_applyAll, Recipe.apply_eq_applyAll]
  refine (Procedure.InStep.apply (fun d => ?_) d).bind fun d => .pure d
  have hungated := (inStep_java hv d.source).map (Visited.outcome d)
  refine ContextM.InStep.trans (.map _ (inStep_check hm (inStep_java hv d.source))) ?_
  cases huses : m.uses d.source with
  | true => exact hungated
  -- the visit is not made, and it would have done nothing
  | false =>
    show ContextM.InStep _ (Visited.outcome d <$> Capabilities.visitor { java := some v } d.source)
    cases hsource : d.source with
    | java unit =>
      rw [hsource] at huses
      have hvisit : visitUnit v unit = pure (.tree .same) := funext (hsame unit huses)
      show ContextM.InStep _ (Visited.outcome d <$> visitUnit v unit)
      rw [hvisit]
      exact .pure (some d)
    -- a file in another language fails the test, and without the test it is not supported
    | xml document => exact .pure (some d)
    | maven description => exact .pure (some d)

end Gated

/-- **The test for calls is right, and it makes no difference.** -/
theorem gating_spec {m : Matcher} (hm : m.Compiled) :
    (∀ unit, usesMethod m unit false = true ↔ ∃ t ∈ nodes (.compilationUnit unit),
      (t.kind = .methodInvocation ∨ t.kind = .newClass) ∧ m.accepts t = true) ∧
    ∀ v, v = FindCalls.action m ∨ (∃ index, v = DeleteArgument.action m index) →
      (∀ unit, usesMethod m unit false = false →
        ∀ c, visitUnit v unit c = .ok (.tree .same, c)) ∧
      ∀ (p : Procedure) (config : RunConfig) (remover : ImportRemover) (shared : Shared)
        (sources : List Source), shared.Quiet →
        ((RecipeRun.mk (p.visiting (.check (.test (.usesMethod m))
            (Capabilities.visitor { java := some v }))) config remover).run sources shared).map
              Prod.fst =
          ((RecipeRun.mk (p.visiting (Capabilities.visitor { java := some v }))
            config remover).run sources shared).map Prod.fst := by
  refine ⟨fun unit => ?_, fun v hv => ?_⟩
  · rw [usesMethod_eq_anyNode, anyNode_iff]
    simp only [Matcher.acceptsNode_iff]
  · have hsame : ∀ unit, usesMethod m unit false = false →
        ∀ c, visitUnit v unit c = .ok (.tree .same, c) := by
      intro unit h c
      rcases hv with rfl | ⟨index, rfl⟩
      · exact FindCalls.visitUnit_same m h c
      · exact DeleteArgument.visitUnit_same m index h c
    have hstep : v.toVisitor.InStep Context.Alike v.toVisitor := by
      rcases hv with rfl | ⟨index, rfl⟩
      · exact FindCalls.inStep_action m
      · exact DeleteArgument.inStep_action m index
    refine ⟨hsame, fun p config remover shared sources hquiet => ?_⟩
    refine RecipeRun.run_eq_of_inStep ?_ ?_ ?_ hquiet sources
    · exact inStep_gated hm hstep hsame p
    · rfl
    · rfl

/-- The test for calls of a method with any arguments, attributed or not. -/
theorem gating_spec_nameOnly :
    ∃ m : Matcher, m.Compiled ∧ m.fallback = .nameOnly ∧
      ∀ unit, usesMethod m unit false = true ↔ ∃ t ∈ nodes (.compilationUnit unit),
        (t.kind = .methodInvocation ∨ t.kind = .newClass) ∧ m.accepts t = true := by
  have hcompiled : Matcher.Compiled {
      pattern := {
        text := "A b(..)"
        parts := ⟨['A'], ['b'], [['.', '.']]⟩
        type := .named [.segment ['A']] true 0
        name := .form ['b']
        parameters := [.anyTrailing] }
      fallback := .nameOnly } := ⟨"A b(..)", by decide⟩
  exact ⟨_, hcompiled, rfl, (gating_spec hcompiled).1⟩

end Lossless
