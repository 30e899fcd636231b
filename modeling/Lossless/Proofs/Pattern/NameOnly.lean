import Lossless.Java.Build
import Lossless.Proofs.Pattern.Inhabited

/-!
# Matching by the name alone

Where no method is attributed to a call, a matcher may go by the name and by the number of
arguments. It should then find what it might find with attribution, and nothing else: a call is
found just if some method of its name has parameters that match and can be called with that many
arguments (`Lossless.Java.Matcher.accepts_unattributed_iff`).

The number of arguments is compared with the number of patterns, and only the last pattern is
looked at. That it says enough about the others is because each of them accepts exactly one
parameter, and accepts some type. The last may be for any number of parameters, and then any longer
list has a method of its own. Or it is for a list of arguments, which is one parameter of a method,
but any number of arguments of a call.
-/

namespace Lossless.Java

namespace MethodPattern

/-- The last parameter of a pattern is a list of arguments, `T...`. -/
def EndsInList (p : MethodPattern) : Prop :=
  ∃ t, p.parts.parameters.getLast? = some (t ++ ['.', '.', '.'])

/-- A method with so many parameters, the last of which is the list of arguments if the pattern ends
in one, can be called with so many arguments. -/
def Takes (p : MethodPattern) (parameters arguments : Nat) : Prop :=
  arguments = parameters ∨ p.EndsInList ∧ parameters ≤ arguments + 1

end MethodPattern

/-! ### Numbers of arguments -/

/-- A list fits so many arguments if it has so many parameters, or if the last of them stands for
several. -/
theorem ParameterPattern.arityFits_iff {ps : List ParameterPattern} {arguments : Nat} :
    arityFits ps arguments = true ↔ countFits ps arguments = true ∨
      (∃ element, ps.getLast? = some (.varargs element)) ∧ ps.length ≤ arguments + 1 := by
  rw [arityFits, countFits]
  cases ps.getLast? with
  | none => simp
  | some q =>
    cases q with
    | varargs element =>
      simp only [Option.any_some, isStretchable, isTrailing, if_true, Bool.false_eq_true, if_false,
        decide_eq_true_eq, Option.some.injEq, varargs.injEq, exists_eq', true_and]
      omega
    | _ => simp [isStretchable, isTrailing]

namespace MethodPattern.IsRead

variable {p : MethodPattern} (h : p.IsRead)

include h

/-- Whether the text ends in variable arguments is seen from the last parameter. -/
theorem endsInList_iff :
    p.EndsInList ↔ ∃ element, p.parameters.getLast? = some (.varargs element) := by
  constructor
  · rintro ⟨t, hlast⟩
    obtain ⟨q, hq, hparse⟩ := exists_getLast?_of_forall₂ h.parameters hlast
    rw [ParameterPattern.parse?_varargs] at hparse
    obtain ⟨element, -, rfl⟩ := Option.map_eq_some_iff.mp hparse
    exact ⟨element, hq⟩
  · rintro ⟨element, hlast⟩
    obtain ⟨item, hitem, hparse⟩ := exists_getLast?_of_forall₂ h.parameters.flip hlast
    cases ParameterPattern.parse?_eq_some_iff.mp hparse with
    | varargs _ => exact ⟨_, hitem⟩

/-- **The number of arguments fits if there are parameters for it.** -/
theorem arityFits_iff_exists {arguments : Nat} :
    ParameterPattern.arityFits p.parameters arguments = true ↔ ∃ types : List JavaType,
      ParameterPattern.acceptAll p.parameters (types.map (·.signature.toList)) = true ∧
        p.Takes types.length arguments := by
  have hexists : ∀ {count}, ParameterPattern.countFits p.parameters count = true →
      p.Takes count arguments → ∃ types : List JavaType,
        ParameterPattern.acceptAll p.parameters (types.map (·.signature.toList)) = true ∧
          p.Takes types.length arguments := by
    intro count hcount htakes
    obtain ⟨f, hf⟩ := h.exists_types
    exact ⟨(List.range count).map f, h.acceptAll_range hf hcount, by simpa using htakes⟩
  rw [ParameterPattern.arityFits_iff, ← h.endsInList_iff]
  constructor
  · rintro (hcount | ⟨hlist, hle⟩)
    · exact hexists hcount (.inl rfl)
    · exact hexists (ParameterPattern.countFits_length _) (.inr ⟨hlist, hle⟩)
  · rintro ⟨types, hall, htakes⟩
    have hcount := ((ParameterPattern.acceptAll_iff h.trailing).mp hall).1
    rw [List.length_map] at hcount
    rcases htakes with rfl | ⟨hlist, hle⟩
    · exact .inl hcount
    · -- a list of arguments is one parameter, so there are as many as patterns
      obtain ⟨element, hlast⟩ := h.endsInList_iff.mp hlist
      rw [ParameterPattern.countFits, hlast] at hcount
      exact .inr ⟨hlist, of_decide_eq_true hcount ▸ hle⟩

end MethodPattern.IsRead

/-! ### Calls -/

namespace Matcher

/-- A matcher goes by the call that a node is. -/
theorem accepts_of_call? (m : Matcher) {t : Tree} {c : Call} (h : t.call? = some c) :
    m.accepts t = m.acceptsCall c := by
  cases t with
  | methodInvocation n | newClass n =>
    obtain rfl := Option.some.inj h
    rfl
  | _ => cases h

/-- **Matching by the name is the projection of matching.** A call to which no method is attributed
is found by its name just if there is a method of this name, of whatever class, the name and the
parameters of which match, and which can be called with as many arguments. -/
theorem accepts_unattributed_iff {text : String} {p : MethodPattern}
    (hp : MethodPattern.parse text = .ok p) (overrides : Bool) (declaring : ClassType) {t : Tree}
    {c : Call} (hcall : t.call? = some c) (hnone : c.methodType = none) :
    Matcher.accepts ⟨p, overrides, .nameOnly⟩ t = true ↔
      ∃ m : MethodType, m.declaringType = declaring ∧ m.name = c.name ∧
        p.name.accepts m.name = true ∧
        ParameterPattern.acceptAll p.parameters (m.parameterTypes.map (·.signature.toList)) = true ∧
        p.Takes m.arity c.realArguments.length := by
  have hread := MethodPattern.isRead_of_parse hp
  rw [accepts_of_call? _ hcall, acceptsCall, hnone]
  simp only [acceptsName, decide_true, Bool.true_and, Bool.and_eq_true,
    hread.arityFits_iff_exists]
  constructor
  · rintro ⟨hname, types, hall, htakes⟩
    exact ⟨{ MethodType.named declaring c.name with parameterTypes := types }, rfl, rfl, hname,
      hall, htakes⟩
  · rintro ⟨m, -, hm, hname, hall, htakes⟩
    exact ⟨hm ▸ hname, m.parameterTypes, hall, htakes⟩

/-- A call of `b(1)` could be one of a method with an empty list of arguments behind its number. -/
theorem accepts_unattributed_iff_emptyList :
    let p : MethodPattern := {
      text := "A b(int, T...)"
      parts := ⟨['A'], ['b'], ["int".toList, "T...".toList]⟩
      type := .named [.segment ['A']] true 0
      name := .form ['b']
      parameters := [.exact (.named [.segment "int".toList] false 0),
        .varargs (.named [.segment ['T']] true 0)] }
    let t := Build.invocation none "b" [Build.literal "1" .int] none
    MethodPattern.parse "A b(int, T...)" = .ok p ∧
      (∃ c, t.call? = some c ∧ c.methodType = none ∧ c.realArguments.length = 1) ∧
      Matcher.accepts ⟨p, true, .nameOnly⟩ t = true := by
  intro p t
  have hp : MethodPattern.parse "A b(int, T...)" = .ok p := by decide
  let m : MethodType := { MethodType.named (.named "A") "b" with
    parameterTypes := [.primitive .int, .array (.ofClass (.named "T"))] }
  refine ⟨hp, ⟨_, rfl, rfl, by decide⟩,
    (accepts_unattributed_iff hp true (.named "A") rfl rfl).mpr
      ⟨m, rfl, rfl, by decide, by decide, ?_⟩⟩
  exact .inr ⟨⟨['T'], rfl⟩, by decide⟩

end Matcher

end Lossless.Java
