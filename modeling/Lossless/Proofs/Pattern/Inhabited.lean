import Mathlib.Logic.Function.Basic
import Lossless.Proofs.Java.Ancestry
import Lossless.Proofs.Pattern.Parameters
import Lossless.Proofs.Pattern.TypeMeaning

/-!
# Every pattern is matched by something

A pattern that can be read can also be matched: put a letter in place of each star, a single dot
in place of two, and take the array dimensions over. So there is a class for each pattern of types,
a name for each pattern of names, and a type for each pattern of parameters. From a type for each
position a list of parameters is put together, of any length that the patterns allow
(`Lossless.Java.MethodPattern.IsRead.acceptAll_range`), and in it one position can be given to
another type that fits there (`Lossless.Java.MethodPattern.IsRead.exists_accepts`).
-/

namespace Lossless

namespace Text

/-- A glob with a letter in place of each star. -/
def filled (glob : List Char) : List Char := glob.map fun c => if c = '*' then 'x' else c

/-- With something in the place of its stars, a glob accepts itself. -/
theorem globMatches_filled {p : Char → Bool} (hp : p 'x' = true) (glob : List Char) :
    globMatches p glob (filled glob) = true := by
  induction glob with
  | nil => rfl
  | cons c glob ih =>
    by_cases hc : c = '*'
    · rw [hc]
      exact globMatches_star_iff.mpr
        ⟨['x'], filled glob, rfl, List.forall_mem_singleton.mpr hp, ih⟩
    · rw [globMatches, List.map_cons, globStep, if_neg hc, filled, List.map_cons, if_neg hc,
        Step.follows_one_cons, decide_eq_true rfl, Bool.true_and]
      exact ih

theorem MadeOf.filled {others s : List Char} (h : MadeOf ('*' :: others) s) :
    MadeOf others (filled s) := by
  refine List.forall_mem_map.mpr fun c hc => ?_
  split
  · exact .inl (by decide)
  · next hstar => exact (h c hc).imp_right fun hmem => (List.mem_cons.mp hmem).resolve_left hstar

end Text

namespace Java

/-! ### Types -/

/-- The names that are made of segments with a dot between any two of them. -/
structure IsQualified (s : List Char) : Prop where
  madeOf : Text.MadeOf ['.'] s
  /-- No segment is empty. -/
  nil_not_mem : [] ∉ Text.splitAt '.' s

namespace IsQualified

variable {s t : List Char}

theorem of_segment (hs : Text.MadeOf [] s) (hne : s ≠ []) : IsQualified s where
  madeOf := fun c hc => (hs c hc).imp_right fun hmem => absurd hmem List.not_mem_nil
  nil_not_mem := by
    rw [Text.splitAt_of_not_mem (hs.not_mem (by decide) List.not_mem_nil), List.mem_singleton]
    exact hne.symm

theorem dot (hs : Text.MadeOf [] s) (hne : s ≠ []) (ht : IsQualified t) :
    IsQualified (s ++ '.' :: t) where
  madeOf :=
    have hdot : Text.MadeOf ['.'] ['.'] := by decide
    (of_segment hs hne).madeOf.append (hdot.append ht.madeOf)
  nil_not_mem := by
    rw [Text.splitAt_append_cons (hs.not_mem (by decide) List.not_mem_nil), List.mem_cons, not_or]
    exact ⟨hne.symm, ht.nil_not_mem⟩

end IsQualified

/-- A dotted pattern stands for a name of its own form. -/
theorem IsDotted.exists_isNameOf {name : List Char} (h : IsDotted name) :
    ∃ s, IsNameOf name s ∧ IsQualified s := by
  have hfilled : ∀ {part}, IsSegment part →
      Text.MadeOf [] (Text.filled part) ∧ Text.filled part ≠ [] := fun hpart =>
    ⟨hpart.2.filled, fun hnil => hpart.1 (List.map_eq_nil_iff.mp hnil)⟩
  have hpart : ∀ {part}, IsSegment part → IsPartOf part (Text.filled part) := fun hpart =>
    (isPartOf_iff hpart.dot_not_mem).mpr ⟨Text.globMatches_filled rfl _,
      (hfilled hpart).1.not_mem (by decide) List.not_mem_nil⟩
  induction h with
  | segment hs => exact ⟨_, .segment hs (hpart hs), .of_segment (hfilled hs).1 (hfilled hs).2⟩
  | dot hs _ ih =>
    obtain ⟨t, ht, hqualified⟩ := ih
    exact ⟨_, .dot hs (hpart hs) ht, hqualified.dot (hfilled hs).1 (hfilled hs).2⟩
  | dots hs _ ih =>
    obtain ⟨t, ht, hqualified⟩ := ih
    have hskipped : ∀ x ∈ ([] : List (List Char)), x ≠ [] ∧ '.' ∉ x := by simp
    exact ⟨_, .dots hs (hpart hs) hskipped ht, hqualified.dot (hfilled hs).1 (hfilled hs).2⟩

theorem QualifiedName.dotted_eq_self {s : List Char} (h : '$' ∉ s) : dotted s = s := by
  refine (List.map_congr_left fun c hc => if_neg ?_).trans (List.map_id s)
  rintro rfl
  exact h hc

theorem ClassType.signature_named {s : List Char} (h : '$' ∉ s) :
    (named (String.ofList s)).signature.toList = s := by
  rw [signature, named, String.toList_ofList, String.toList_ofList,
    QualifiedName.dotted_eq_self h]

theorem JavaType.signature_array (t : JavaType) :
    (array t).signature.toList = t.signature.toList ++ ['[', ']'] := by
  rw [signature, String.toList_append]
  rfl

/-- Arrays of so many dimensions. -/
def JavaType.arrayOf : Nat → JavaType → JavaType
  | 0, type => type
  | n + 1, type => .array (arrayOf n type)

/-- The signature of an array is that of its elements with pairs of brackets. -/
theorem JavaType.signature_arrayOf (n : Nat) (type : JavaType) :
    (arrayOf n type).signature.toList = type.signature.toList ++ dimensions n := by
  induction n with
  | zero => simp [arrayOf, dimensions]
  | succ n ih =>
    rw [arrayOf, signature_array, ih, TypePattern.dimensions_succ, List.append_assoc]

namespace TypePattern

variable {text : List Char} {p : TypePattern}

/-- A pattern accepts some name with some array dimensions. -/
theorem exists_accepts (h : parse? text = some p) :
    ∃ s n, IsQualified s ∧ p.accepts (s ++ dimensions n) = true := by
  by_cases hstar : text = ['*'] ∨ text = ['*', '.', '.', '*']
  · rw [parse?, if_pos hstar] at h
    obtain rfl := Option.some.inj h
    exact ⟨['x'], 0, ⟨by decide, by decide⟩, by decide⟩
  · obtain ⟨name, path, n, hname, -, hpath, rfl⟩ := parse?_named h hstar
    obtain ⟨s, hs, hqualified⟩ := hname.exists_isNameOf
    exact ⟨s, n, hqualified,
      accepts_named_iff.mpr ⟨s, rfl, (matchName_iff hname hpath).mpr (.inl hs)⟩⟩

/-- A pattern of types accepts some class. -/
theorem exists_class (h : parse? text = some p) :
    ∃ c : ClassType, p.accepts c.signature.toList = true := by
  obtain ⟨s, n, hqualified, haccepts⟩ := exists_accepts h
  refine ⟨.named (String.ofList (s ++ dimensions n)), ?_⟩
  rw [ClassType.signature_named]
  · exact haccepts
  · rw [List.mem_append, not_or]
    exact ⟨hqualified.madeOf.not_mem (by decide) (by decide), fun hmem => by
      simpa using mem_of_mem_dimensions hmem⟩

/-- So it accepts arrays, of some dimensions, of some class. -/
theorem exists_arrayOf (h : parse? text = some p) :
    ∃ s n, IsQualified s ∧
      p.accepts (JavaType.arrayOf n (.ofClass (.named (String.ofList s)))).signature.toList =
        true := by
  obtain ⟨s, n, hqualified, haccepts⟩ := exists_accepts h
  refine ⟨s, n, hqualified, ?_⟩
  rw [JavaType.signature_arrayOf, JavaType.signature,
    ClassType.signature_named (hqualified.madeOf.not_mem (by decide) (by decide))]
  exact haccepts

/-- So it accepts some type. -/
theorem exists_type (h : parse? text = some p) :
    ∃ t : JavaType, p.accepts t.signature.toList = true := by
  obtain ⟨s, n, -, haccepts⟩ := exists_arrayOf h
  exact ⟨_, haccepts⟩

end TypePattern

theorem NamePattern.exists_accepts {text : List Char} {p : NamePattern}
    (h : parse? text = some p) : ∃ name, p.accepts name = true := by
  cases p with
  | constructors => exact ⟨MethodType.constructorName, by decide⟩
  | form glob =>
    refine ⟨String.ofList (Text.filled glob), ?_⟩
    rw [accepts, String.toList_ofList]
    exact Text.globMatches_filled (by decide) glob

/-! ### Parameters -/

namespace ParameterPattern

theorem acceptsOne_array (element : TypePattern) (t : JavaType) :
    (varargs element).acceptsOne (JavaType.array t).signature.toList =
      element.accepts t.signature.toList := by
  have hreverse : (JavaType.array t).signature.toList.reverse =
      ']' :: '[' :: t.signature.toList.reverse := by
    rw [JavaType.signature_array, List.reverse_append]
    rfl
  rw [acceptsOne, hreverse]
  simp [TypePattern.dropDimensions?]

/-- A pattern of parameters accepts some type. -/
theorem exists_acceptsOne {item : List Char} {q : ParameterPattern} (h : parse? item = some q) :
    ∃ t : JavaType, q.acceptsOne t.signature.toList = true := by
  cases parse?_eq_some_iff.mp h with
  | any => exact ⟨.unknown, rfl⟩
  | anyTrailing => exact ⟨.unknown, rfl⟩
  | varargs ht =>
    obtain ⟨t, ht⟩ := TypePattern.exists_type ht
    exact ⟨.array t, by rw [acceptsOne_array, ht]⟩
  | trailing ht => exact TypePattern.exists_type ht
  | exact ht _ => exact TypePattern.exists_type ht

end ParameterPattern

/-! ### Methods -/

namespace MethodPattern.IsRead

variable {p : MethodPattern} (h : p.IsRead)

include h

/-- Types that match position by position make up parameters that match. -/
theorem acceptAll_range {f : Nat → JavaType}
    (hf : ∀ i q, covering? ParameterPattern.isTrailing p.parameters i = some q →
      q.acceptsOne (f i).signature.toList = true)
    {count : Nat} (hcount : ParameterPattern.countFits p.parameters count = true) :
    ParameterPattern.acceptAll p.parameters
      (((List.range count).map f).map (·.signature.toList)) = true := by
  refine (ParameterPattern.acceptAll_iff h.trailing).mpr ⟨by simpa using hcount, ?_⟩
  intro i q s hq hs
  rw [List.map_map, List.getElem?_map] at hs
  obtain ⟨j, hj, rfl⟩ := Option.map_eq_some_iff.mp hs
  obtain ⟨-, rfl⟩ := List.getElem?_eq_some_iff.mp hj
  rw [Function.comp_apply, List.getElem_range]
  exact hf i q hq

/-- There are types that fit all parameters of a pattern, in as many places as one likes. -/
theorem exists_types : ∃ f : Nat → JavaType, ∀ i q,
    covering? ParameterPattern.isTrailing p.parameters i = some q →
      q.acceptsOne (f i).signature.toList = true := by
  have hone : ∀ i, ∃ t : JavaType, ∀ q,
      covering? ParameterPattern.isTrailing p.parameters i = some q →
        q.acceptsOne t.signature.toList = true := by
    intro i
    cases hq : covering? ParameterPattern.isTrailing p.parameters i with
    | none => exact ⟨.unknown, fun q hq => by cases hq⟩
    | some q =>
      obtain ⟨item, -, hparse⟩ := h.exists_item hq
      obtain ⟨t, ht⟩ := ParameterPattern.exists_acceptsOne hparse
      refine ⟨t, fun r hr => ?_⟩
      obtain rfl := Option.some.inj hr
      exact ht
  exact Classical.skolem.mp hone

/-- Any position that is covered can be given to any type that fits there. -/
theorem exists_types_at {i : Nat} {q : ParameterPattern} {t : JavaType}
    (hq : covering? ParameterPattern.isTrailing p.parameters i = some q)
    (ht : q.acceptsOne t.signature.toList = true) :
    ∃ types : List JavaType, types[i]? = some t ∧
      ParameterPattern.acceptAll p.parameters (types.map (·.signature.toList)) = true := by
  obtain ⟨f, hf⟩ := h.exists_types
  -- as many parameters as patterns, or so many that the position is among them
  obtain ⟨count, hi, hcount⟩ : ∃ count, i < count ∧
      ParameterPattern.countFits p.parameters count = true := by
    by_cases hlt : i < p.parameters.length
    · exact ⟨_, hlt, ParameterPattern.countFits_length _⟩
    · rcases Option.or_eq_some_iff.mp hq with hmem | ⟨-, hlast⟩
      · exact absurd (List.getElem?_eq_some_iff.mp hmem).1 hlt
      · obtain ⟨hlast, htrailing⟩ := Option.filter_eq_some_iff.mp hlast
        refine ⟨i + 1, Nat.lt_succ_self i, ?_⟩
        rw [ParameterPattern.countFits, if_pos (by rw [hlast]; exact htrailing)]
        exact decide_eq_true (by omega)
  refine ⟨(List.range count).map (Function.update f i t), by simp [hi],
    h.acceptAll_range (fun j r hr => ?_) hcount⟩
  by_cases hj : j = i
  · rw [hj] at hr ⊢
    obtain rfl := Option.some.inj (hq.symm.trans hr)
    rwa [Function.update_self]
  · rw [Function.update_of_ne hj]
    exact hf j r hr

/-- **A pattern accepts some method**, with any type that fits at any position that is covered. -/
theorem exists_accepts {i : Nat} {q : ParameterPattern} {t : JavaType}
    (hq : covering? ParameterPattern.isTrailing p.parameters i = some q)
    (ht : q.acceptsOne t.signature.toList = true) (overrides : Bool) :
    ∃ m : MethodType, m.parameterTypes[i]? = some t ∧ p.accepts overrides m = true := by
  obtain ⟨c, hc⟩ := TypePattern.exists_class h.type
  obtain ⟨name, hname⟩ := NamePattern.exists_accepts h.name
  obtain ⟨types, hi, htypes⟩ := h.exists_types_at hq ht
  refine ⟨{ MethodType.named c name with parameterTypes := types }, hi, ?_⟩
  refine accepts_of_declaringType ?_ ?_ ?_ overrides
  · exact hname
  · exact htypes
  · exact hc

end MethodPattern.IsRead

end Java

end Lossless
