import Lossless.Proofs.Pattern.Inhabited

/-!
# Arrays and lists of arguments

There are two ways to ask for an array. `T[]` is a pattern of types like `T`, with a dimension more,
and is compared with the whole signature. `T...` is for lists of arguments: the dimension is taken
off the signature, and `T` is compared with the rest. Both accept the arrays of just the types that
`T` accepts (`Lossless.Java.ParameterPattern.acceptsType_array_iff`).

There is one exception. `*` and `*..*` accept every type, but only where they are all of a pattern.
With dimensions behind them they are names like others, and their stars stand for parts of segments.
So `*...` accepts all arrays, and `*[]` those of types that are in no package.
-/

namespace Lossless.Java

namespace TypePattern

/-- How a pattern of types is read, if it is put together from a name and dimensions. -/
theorem parse?_of_dotted {text name : List Char} {path : List PathStep} {n : Nat}
    (hname : IsDotted name) (htext : QualifiedName.dotted text = name ++ dimensions n)
    (hpath : PathStep.ofSegments? (Text.splitAt '.' name) = some path)
    (hstar : ¬(text = ['*'] ∨ text = ['*', '.', '.', '*'])) :
    parse? text = some (.named path (isUnqualified name) n) := by
  rw [parse?, if_neg hstar, htext, dropDimensions_reverse hname.bracket_not_mem]
  dsimp only
  rw [List.reverse_reverse, if_pos (List.all_eq_true.mpr hname.isPathChar), hpath]
  rfl

theorem append_brackets_ne_star {text u : List Char} (hu : u.getLast? = some '*') :
    text ++ ['[', ']'] ≠ u := by
  rintro rfl
  rw [List.getLast?_append] at hu
  cases hu

/-- With a dimension behind them, the special patterns are special no more. -/
theorem parse?_append_brackets {text name : List Char} {path : List PathStep} {n : Nat}
    (hname : IsDotted name) (htext : QualifiedName.dotted text = name ++ dimensions n)
    (hpath : PathStep.ofSegments? (Text.splitAt '.' name) = some path) :
    parse? (text ++ ['[', ']']) = some (.named path (isUnqualified name) (n + 1)) := by
  refine parse?_of_dotted hname ?_ hpath
    (not_or.mpr ⟨append_brackets_ne_star rfl, append_brackets_ne_star rfl⟩)
  rw [dimensions_succ, ← List.append_assoc, ← htext, QualifiedName.dotted, List.map_append]
  rfl

theorem accepts_any {s : List Char} (hs : '\n' ∉ s) : any.accepts s = true := by
  refine List.all_eq_true.mpr fun c hc => decide_eq_true ?_
  rintro rfl
  exact hs hc

/-- A type with one more dimension accepts names with one more pair of brackets. -/
theorem accepts_append_brackets (path : List PathStep) (orInLang : Bool) (n : Nat)
    (s : List Char) :
    (named path orInLang (n + 1)).accepts (s ++ ['[', ']']) =
      (named path orInLang n).accepts s := by
  rw [accepts, accepts, List.reverse_append]
  rfl

end TypePattern

namespace ParameterPattern

/-- Does a text, as the pattern of the only parameter, accept a type? -/
def acceptsType (text : List Char) (t : JavaType) : Bool :=
  (parse? text).any fun q => acceptAll [q] [t.signature.toList]

theorem acceptAll_singleton (q : ParameterPattern) (s : List Char) :
    acceptAll [q] [s] = q.acceptsOne s := by
  cases q <;> simp [acceptAll, acceptsOne]

variable {text : List Char}

/-- Whether a parameter accepts a type is seen from its signature. -/
theorem acceptsType_of_parse {q : ParameterPattern} (h : parse? text = some q) (t : JavaType) :
    acceptsType text t = q.acceptsOne t.signature.toList := by
  rw [acceptsType, h, Option.any_some, acceptAll_singleton]

variable {type : TypePattern} {t : JavaType}

/-- A pattern of types accepts the same as a pattern of parameters. -/
theorem acceptsType_eq (hp : TypePattern.parse? text = some type)
    (ht : '\n' ∉ t.signature.toList) : acceptsType text t = type.accepts t.signature.toList := by
  by_cases hstar : text = ['*']
  · -- as a pattern of parameters, the star would accept more than a line
    rw [hstar] at hp ⊢
    obtain rfl := Option.some.inj hp
    exact (TypePattern.accepts_any ht).symm
  · exact acceptsType_of_parse (parse?_eq_some_iff.mpr (.exact hp hstar)) t

/-- Variable arguments accept arrays of what their type accepts. -/
theorem acceptsType_varargs (hp : TypePattern.parse? text = some type) (t : JavaType) :
    acceptsType (text ++ ['.', '.', '.']) (.array t) = type.accepts t.signature.toList := by
  rw [acceptsType_of_parse (parse?_eq_some_iff.mpr (.varargs hp)), acceptsOne_array]

/-- A type with brackets accepts arrays of what the type without them accepts. -/
theorem acceptsType_brackets {name : List Char} {path : List PathStep} {n : Nat}
    (hname : IsDotted name) (htext : QualifiedName.dotted text = name ++ dimensions n)
    (hpath : PathStep.ofSegments? (Text.splitAt '.' name) = some path) (t : JavaType) :
    acceptsType (text ++ ['[', ']']) (.array t) =
      (TypePattern.named path (TypePattern.isUnqualified name) n).accepts t.signature.toList := by
  have hread := TypePattern.parse?_append_brackets hname htext hpath
  rw [acceptsType_of_parse (parse?_eq_some_iff.mpr
    (.exact hread (TypePattern.append_brackets_ne_star rfl))), acceptsOne,
    JavaType.signature_array]
  exact TypePattern.accepts_append_brackets path _ n _

/-- **Arrays, lists of arguments and their elements.** As a list of arguments, a pattern of types
accepts the arrays of just the types that it accepts. The same holds for the pattern with a
dimension more, unless it is one of the two for every type. With a dimension more, these
two stand for names, segment by segment. -/
theorem acceptsType_array_iff (hp : TypePattern.parse? text = some type)
    (ht : '\n' ∉ t.signature.toList) :
    (acceptsType (text ++ ['.', '.', '.']) (.array t) = true ↔ acceptsType text t = true) ∧
      (¬(text = ['*'] ∨ text = ['*', '.', '.', '*']) →
        (acceptsType (text ++ ['[', ']']) (.array t) = true ↔
          acceptsType (text ++ ['.', '.', '.']) (.array t) = true)) ∧
      (text = ['*'] ∨ text = ['*', '.', '.', '*'] →
        acceptsType text t = true ∧
          (acceptsType (text ++ ['[', ']']) (.array t) = true ↔
            IsNameOf text t.signature.toList)) := by
  rw [acceptsType_varargs hp, acceptsType_eq hp ht]
  refine ⟨Iff.rfl, fun hstar => ?_, fun hstar => ⟨?_, ?_⟩⟩
  · obtain ⟨name, path, n, hname, htext, hpath, rfl⟩ := TypePattern.parse?_named hp hstar
    rw [acceptsType_brackets hname htext hpath]
  · rw [TypePattern.parse?, if_pos hstar] at hp
    obtain rfl := Option.some.inj hp
    exact TypePattern.accepts_any ht
  · have hsegment : IsSegment ['*'] := ⟨by decide, by decide⟩
    have hread : IsDotted text ∧ QualifiedName.dotted text = text ++ dimensions 0 ∧
        TypePattern.isUnqualified text = false := by
      rcases hstar with rfl | rfl
      · exact ⟨.segment hsegment, by decide, by decide⟩
      · exact ⟨.dots hsegment (.segment hsegment), by decide, by decide⟩
    obtain ⟨hname, htext, hunqualified⟩ := hread
    obtain ⟨path, hpath⟩ := Option.isSome_iff_exists.mp (isDotted_iff.mp hname).2
    rw [acceptsType_brackets hname htext hpath, hunqualified, TypePattern.accepts_named_iff]
    simp [dimensions, TypePattern.matchName_iff hname hpath]

/-- Arrays of classes in the package `a` and below, the names of which begin with `b`. -/
theorem acceptsType_array_iff_package :
    let text := "a..b*".toList
    let t : JavaType := .ofClass (.named "a.x.bc")
    (TypePattern.parse? text).isSome = true ∧ '\n' ∉ t.signature.toList ∧
      acceptsType text t = true ∧ acceptsType (text ++ ['.', '.', '.']) (.array t) = true ∧
      acceptsType (text ++ ['[', ']']) (.array t) = true := by
  intro text t
  have hp : TypePattern.parse? text = some
      (.named [.segment ['a'], .skip, .segment ['b', '*']] false 0) := by decide
  have hline : '\n' ∉ t.signature.toList := by decide
  have haccepts : acceptsType text t = true := by decide
  obtain ⟨helement, harray, -⟩ := acceptsType_array_iff hp hline
  have hvarargs := helement.mpr haccepts
  exact ⟨Option.isSome_of_eq_some hp, hline, haccepts, hvarargs,
    (harray (by decide)).mpr hvarargs⟩

/-- The star accepts a class in a package, and as a list of arguments the arrays of it; but with a
dimension it does not accept them. -/
theorem star_brackets_rejects :
    let t : JavaType := .ofClass (.named "a.B")
    (TypePattern.parse? ['*']).isSome = true ∧ '\n' ∉ t.signature.toList ∧
      acceptsType ['*'] t = true ∧ acceptsType (['*'] ++ ['.', '.', '.']) (.array t) = true ∧
      acceptsType (['*'] ++ ['[', ']']) (.array t) = false := by
  decide

end ParameterPattern

end Lossless.Java
