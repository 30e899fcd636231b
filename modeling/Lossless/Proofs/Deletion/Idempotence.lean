import Lossless.Proofs.Deletion.Attribution

/-!
# Deleting an argument a second time

A call that has lost an argument might be accepted by the matcher again, and lose another. If the
pattern says how many parameters there are, it is not
(`Lossless.DeleteArgument.apply_idempotent`). There are two ways for a call to be accepted, and
which of them is taken can change: a parameter whose type is not known makes the matcher go by the
name, and without this parameter it goes by the types of the others. But either way something is
counted and compared with the pattern, be it the arguments of the call or the parameters of its
method, and both have become one less.
-/

namespace Lossless

open Java

namespace Java

/-! ### Patterns with a fixed number of parameters -/

/-- The pattern says how many parameters there are. -/
def MethodPattern.IsFixed (p : MethodPattern) : Prop :=
  ∀ q ∈ p.parameters, q.isStretchable = false

namespace ParameterPattern

variable {ps : List ParameterPattern} (hps : ∀ p ∈ ps, p.isStretchable = false)

include hps

/-- Without parameters that stand for several, as many types are accepted as there are parameters.
-/
theorem length_eq_of_acceptAll {signatures : List (List Char)}
    (h : acceptAll ps signatures = true) : signatures.length = ps.length := by
  induction ps generalizing signatures with
  | nil =>
    rw [acceptAll, List.isEmpty_iff] at h
    rw [h]
    rfl
  | cons p ps ih =>
    obtain ⟨hp, hps⟩ := List.forall_mem_cons.mp hps
    cases signatures with
    | nil =>
      cases p with
      | any | exact type => cases h
      | _ => cases hp
    | cons signature signatures =>
      refine congrArg (· + 1) (ih hps ?_)
      cases p with
      | any => exact h
      | exact type =>
        rw [acceptAll, Bool.and_eq_true] at h
        exact h.2
      | _ => cases hp

/-- In the same way such a list fits calls with so many arguments only. -/
theorem eq_length_of_arityFits {count : Nat} (h : arityFits ps count = true) :
    count = ps.length := by
  have hlast : ps.getLast?.any isStretchable = false := by
    rw [Option.any_eq_false]
    intro p hp
    rw [hps p (List.mem_of_getLast? hp)]
  rw [arityFits, hlast] at h
  exact of_decide_eq_true h

end ParameterPattern

end Java

namespace DeleteArgument

open Tree

variable {m : Matcher} {index : Nat} {u u' : Tree} {pattern : MethodPattern}

/-! ### One call -/

/-- Whichever way a call is accepted, it has as many arguments as the pattern has parameters. -/
theorem count_eq_of_acceptsGist (hfixed : m.pattern.IsFixed)
    {g : Option MethodType × String × Nat}
    (htypes : ∀ type ∈ g.1, type.parameterTypes.length = g.2.2)
    (h : acceptsGist m g = true) : g.2.2 = m.pattern.parameters.length := by
  have hname : m.acceptsName g.2.1 g.2.2 = true → g.2.2 = m.pattern.parameters.length := by
    intro hname
    rw [Matcher.acceptsName, Bool.and_eq_true] at hname
    exact ParameterPattern.eq_length_of_arityFits hfixed hname.2
  obtain ⟨type?, name, count⟩ := g
  cases type? with
  | none => exact hname h
  | some type =>
    have hbranches : m.acceptsAttributed type name count = true := h
    rw [Matcher.acceptsAttributed] at hbranches
    split at hbranches
    · exact hname hbranches
    -- here the parameters were counted, not the arguments
    · rw [Matcher.acceptsMethod, MethodPattern.accepts, Bool.and_eq_true, Bool.and_eq_true]
        at hbranches
      have hcount := ParameterPattern.length_eq_of_acceptAll hfixed hbranches.1.2
      rw [List.length_map] at hcount
      rw [← hcount]
      exact (htypes type rfl).symm

/-- A call that loses an argument has as many as the pattern has parameters. -/
theorem count_eq_of_loses {c : Call} (hfixed : m.pattern.IsFixed)
    (htypes : CountedBy (·.parameterTypes.length) u) (h : loses m index u = true)
    (hcall : u.call? = some c) : c.realArguments.length = m.pattern.parameters.length := by
  rw [loses_eq, hcall, Option.map_some, Option.any_some, Bool.and_eq_true] at h
  exact count_eq_of_acceptsGist hfixed (htypes c hcall) h.1

/-- **What is left of a call loses nothing more.** -/
theorem Carried.not_loses (hfixed : m.pattern.IsFixed)
    (htypes : CountedBy (·.parameterTypes.length) u) (h : Carried m index u u') :
    loses m index u' = false := by
  cases hloses : loses m index u with
  | false =>
    have hgist : u'.call?.map Call.gist = u.call?.map Call.gist := by
      rw [h.gist_eq, hloses]
      rfl
    rw [loses_eq, hgist, ← loses_eq, hloses]
  | true =>
    -- before and after, there would be as many arguments as the pattern has parameters
    by_contra hagain
    rw [Bool.not_eq_false] at hagain
    obtain ⟨c', -, -, -, hcall', -⟩ := exists_call_of_loses hagain
    obtain ⟨c, hcall, -, hlength⟩ := h.exists_call hcall'
    have hcount := count_eq_of_loses hfixed htypes hloses hcall
    have hcount' := count_eq_of_loses hfixed
      (h.countedBy length_parameterTypes_withoutParameter htypes) hagain hcall'
    have hlt := lt_of_loses hloses hcall
    rw [if_pos hloses] at hlength
    omega

/-! ### The whole tree -/

/-- So in a tree that was cut no call loses another one: it has one argument less than the pattern
asks for. -/
theorem not_loses_cutTree (hfixed : m.pattern.IsFixed) {t : Tree}
    (hempty : ∀ u ∈ nodes t, EmptyAlone u)
    (htypes : ∀ u ∈ nodes t, CountedBy (·.parameterTypes.length) u) :
    ∀ u' ∈ nodes (cutTree m index t), loses m index u' = false := by
  intro u' hu'
  cases hcall : u'.call?.isSome with
  | false =>
    rw [Option.isSome_eq_false_iff, Option.isNone_iff_eq_none] at hcall
    rw [loses, hcall]
    rfl
  | true =>
    obtain ⟨u, hu, hleft⟩ := exists_isLeftOf hu' hcall
    exact (carried_of_isLeftOf (hempty u hu) hleft).not_loses hfixed (htypes u hu)

/-- To request the removal of imports changes nothing that other contexts share. -/
theorem shared_requestRemovals (names : List String) (c : Context) :
    (names.foldl Context.requestRemoval c).shared = c.shared := by
  induction names generalizing c with
  | nil => rfl
  | cons name names ih => rw [List.foldl_cons, ih, c.shared_requestRemoval]

end DeleteArgument

end Lossless
