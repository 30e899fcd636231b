import Lossless.Proofs.Deletion.Visit
import Lossless.Proofs.Pipeline.Ordered

/-!
# Files do not influence each other

The recipes of the library, and pipelines made of them (`Lossless.Recipe.BuiltIn`), treat
every file as if it were the only one (`Lossless.run_independent`). Neither the other files
of a run matter, though they may have the identity of this one or be edits of it, nor what
was run before, nor what is run at the same time: all that files have in common are the
answers of preconditions, and those are true whenever they are used.

There is one way in which a file can get in the way of the others: if it fails, there are no results
at all. Of these recipes, only a deletion at the last of all positions fails
(`Lossless.Recipe.BuiltIn.failsOnly_apply`), and so the recipes come with the positions at which
they may delete.
-/

namespace Lossless

namespace Recipe

/-- The recipes of the library, and pipelines of them. Arguments are deleted at certain positions
only. -/
inductive BuiltIn (positions : UInt64 → Prop) : Recipe → Prop where
  | deleteArgument (r : DeleteArgument) : positions r.index → BuiltIn positions r.recipe
  | findCalls (r : FindCalls) : BuiltIn positions r.recipe
  | changeProperty (r : ChangeProperty) : BuiltIn positions r.recipe
  | pipeline (p : Pipeline Recipe) :
    (∀ s ∈ p.steps, BuiltIn positions s.recipe) → BuiltIn positions p.recipe

/-- The procedures of some recipes are those of each of them. -/
theorem mem_listProcedures {rs : List Recipe} {p : Procedure} :
    p ∈ listProcedures rs ↔ ∃ r ∈ rs, p ∈ r.procedures := by
  induction rs with
  | nil => simp [listProcedures]
  | cons r rs ih => simp [listProcedures, ih]

/-- A removal at the last of some positions. -/
def RemovalAtLast (positions : UInt64 → Prop) (e : Failure) : Prop :=
  ∃ position length, positions position ∧ position.toNat + 1 = UInt64.size ∧
    e = .removal position.toNat length

namespace BuiltIn

variable {positions : UInt64 → Prop} {r : Recipe}

/-- What holds of the procedures of the library, and of one that supports no files, holds of all
procedures in such a recipe. -/
theorem forall_procedures {P : Procedure → Prop}
    (hdelete : ∀ r : DeleteArgument, positions r.index → P r.procedure)
    (hfind : ∀ r : FindCalls, P r.procedure) (hchange : ∀ r : ChangeProperty, P r.procedure)
    (hnone : ∀ p : Procedure, p.visitor = .noop → P p) (h : r.BuiltIn positions) :
    ∀ p ∈ r.procedures, P p := by
  have hsingle : ∀ {p q : Procedure}, p ∈ (Recipe.mk q []).procedures → p = q := by
    intro p q hp
    simpa [procedures, listProcedures] using hp
  induction h with
  | deleteArgument r hposition => exact fun p hp => hsingle hp ▸ hdelete r hposition
  | findCalls r => exact fun p hp => hsingle hp ▸ hfind r
  | changeProperty r => exact fun p hp => hsingle hp ▸ hchange r
  | pipeline q hsteps ih =>
    intro p hp
    rw [Pipeline.recipe, procedures, List.mem_cons, mem_listProcedures] at hp
    rcases hp with rfl | ⟨r, hr, hp⟩
    · exact hnone _ rfl
    · cases hordered : q.ordered with
      | error id =>
        -- a pipeline without an order lists no recipes
        rw [hordered] at hr
        cases hr
      | ok rs =>
        rw [hordered] at hr
        obtain ⟨s, hs, rfl⟩ := Pipeline.mem_of_ordered_eq_ok hordered hr
        exact ih s hs p hp

/-- All procedures in such a recipe are in step with themselves. -/
theorem inStep_procedures (h : r.BuiltIn positions) : ∀ p ∈ r.procedures, p.InStep p := by
  refine h.forall_procedures (fun r _ => r.inStep_procedure) (fun r => r.inStep_procedure)
    (fun r => r.inStep_procedure) fun p hp d => .map _ ?_
  rw [hp]
  exact .pure _

/-- A visit with a procedure of such a recipe fails only at the last position. -/
theorem failsOnly_procedures (h : r.BuiltIn positions) :
    ∀ p ∈ r.procedures, ∀ s, FailsOnly (RemovalAtLast positions) (p.visitor s) := by
  refine h.forall_procedures (fun r hposition s => ?_) (fun r s => ?_) (fun r s => ?_)
    fun p hp s => ?_
  · intro c e he
    obtain ⟨hlast, length, rfl⟩ := DeleteArgument.failsOnly_visitor r s c e he
    exact ⟨r.index, length, hposition, hlast, rfl⟩
  · exact fun c e he => (FindCalls.failsOnly_visitor r s c e he).elim
  · exact fun c e he => (ChangeProperty.failsOnly_visitor r s c e he).elim
  · rw [hp]
    exact .pure _

end BuiltIn

/-- Procedures that fail for such reasons only do so one after the other, too. -/
theorem failsOnly_applyAll {P : Failure → Prop} {ps : List Procedure}
    (h : ∀ p ∈ ps, ∀ s, FailsOnly P (p.visitor s)) (d : Option Draft) :
    FailsOnly P (applyAll ps d) := by
  induction ps generalizing d with
  | nil => exact .pure d
  | cons p ps ih =>
    obtain ⟨hp, hps⟩ := List.forall_mem_cons.mp h
    rw [applyAll, List.foldlM_cons]
    refine FailsOnly.bind ?_ (ih hps)
    cases d with
    | none => exact .pure none
    | some d =>
      have hget : FailsOnly P (get : ContextM Unit Context) := fun _ _ he => nomatch he
      refine hget.bind fun c => ?_
      cases c.isCancelled with
      | true => exact .pure (some d)
      | false => exact (hp d.source).bind fun visited => .pure (visited.outcome d)

/-- **Only a deletion at the last position fails.** -/
theorem BuiltIn.failsOnly_apply {positions : UInt64 → Prop} {r : Recipe} (h : r.BuiltIn positions)
    (d : Option Draft) : FailsOnly (RemovalAtLast positions) (r.apply d) := by
  rw [apply_eq_applyAll]
  exact failsOnly_applyAll h.failsOnly_procedures d

end Recipe

end Lossless
