import Lossless.Proofs.Pattern.Arrays

/-!
# Array dimensions and stars

The signature of an array is that of its elements with brackets behind it, and a pattern of types is
compared with the whole of it. The brackets at the end of a pattern stand for themselves, so what it
accepts has at least these dimensions. Whether it may have more is a matter of the character in
front of them (`Lossless.Java.ParameterPattern.acceptsType_dimensions`). If this is no star, it is
also the last character in front of the dimensions of the type, and so these are the same. But a
star stands for any characters besides dots, and so for brackets too: the pattern `a.*` accepts the
class `a.B` and, with it, the arrays of it, of any number of dimensions.
-/

namespace Lossless.Java

/-! ### The last part of a name -/

/-- A part of a pattern comes apart with the segment that it accepts. -/
theorem isPartOf_append_iff {part rest s : List Char} :
    IsPartOf (part ++ rest) s ↔ ∃ a b, s = a ++ b ∧ IsPartOf part a ∧ IsPartOf rest b := by
  constructor
  · intro h
    induction part generalizing s with
    | nil => exact ⟨[], s, rfl, .nil, h⟩
    | cons c part ih =>
      rw [List.cons_append] at h
      cases h with
      | @star _ run _ hrun h =>
        obtain ⟨a, b, rfl, ha, hb⟩ := ih h
        exact ⟨run ++ a, b, (List.append_assoc run a b).symm, .star hrun ha, hb⟩
      | char hc h =>
        obtain ⟨a, b, rfl, ha, hb⟩ := ih h
        exact ⟨c :: a, b, rfl, .char hc ha, hb⟩
  · rintro ⟨a, b, rfl, ha, hb⟩
    induction ha with
    | nil => exact hb
    | star hrun _ ih =>
      rw [List.append_assoc]
      exact .star hrun ih
    | char hc _ ih => exact .char hc ih

/-- A star accepts any one segment. -/
theorem isPartOf_star_iff {s : List Char} : IsPartOf ['*'] s ↔ '.' ∉ s := by
  constructor
  · exact fun h => h.dot_not_mem (by decide)
  · intro hs
    rw [← List.append_nil s]
    exact .star hs .nil

theorem IsPartOf.eq_of_char {c : Char} {s : List Char} (h : IsPartOf [c] s) (hc : c ≠ '*') :
    s = [c] := by
  cases h with
  | star _ _ => exact absurd rfl hc
  | char _ h =>
    cases h
    rfl

namespace IsNameOf

variable {name s : List Char} (h : IsNameOf name s)

include h

/-- A name ends in what the last part of the pattern stands for, and may as well end in any other
text that this part stands for. -/
theorem exists_last : ∃ before part front last, name = before ++ part ∧ s = front ++ last ∧
    IsSegment part ∧ IsPartOf part last ∧
      ∀ other, IsPartOf part other → IsNameOf name (front ++ other) := by
  induction h with
  | @segment part s hpart hs =>
    exact ⟨[], part, [], s, rfl, rfl, hpart, hs, fun _ hother => .segment hpart hother⟩
  | @dot first s rest t hfirst hs _ ih =>
    obtain ⟨before, part, front, last, rfl, rfl, hpart, hlast, hother⟩ := ih
    refine ⟨first ++ '.' :: before, part, s ++ '.' :: front, last, by simp, by simp, hpart, hlast,
      fun other h => ?_⟩
    rw [List.append_assoc, List.cons_append]
    exact .dot hfirst hs (hother other h)
  | @dots first s rest t skipped hfirst hs hskipped _ ih =>
    obtain ⟨before, part, front, last, rfl, rfl, hpart, hlast, hother⟩ := ih
    refine ⟨first ++ '.' :: '.' :: before, part, s ++ '.' :: (withDots skipped ++ front), last,
      by simp, by simp, hpart, hlast, fun other h => ?_⟩
    rw [List.append_assoc, List.cons_append, List.append_assoc]
    exact .dots hfirst hs hskipped (hother other h)

/-- A last character that is no star stands for itself. -/
theorem getLast?_eq {c : Char} (hc : name.getLast? = some c) (hstar : c ≠ '*') :
    s.getLast? = some c := by
  obtain ⟨before, part, front, last, rfl, rfl, hpart, hlast, -⟩ := h.exists_last
  rw [List.getLast?_append_of_ne_nil _ hpart.1] at hc
  obtain ⟨part, rfl⟩ := List.getLast?_eq_some_iff.mp hc
  obtain ⟨a, b, rfl, -, hb⟩ := isPartOf_append_iff.mp hlast
  obtain rfl := hb.eq_of_char hstar
  rw [← List.append_assoc, List.getLast?_concat]

/-- A star at the end stands for what it stood for and more. -/
theorem append (hstar : name.getLast? = some '*') {u : List Char} (hu : '.' ∉ u) :
    IsNameOf name (s ++ u) := by
  obtain ⟨before, part, front, last, rfl, rfl, hpart, hlast, hother⟩ := h.exists_last
  rw [List.getLast?_append_of_ne_nil _ hpart.1] at hstar
  obtain ⟨part, rfl⟩ := List.getLast?_eq_some_iff.mp hstar
  obtain ⟨a, b, rfl, ha, hb⟩ := isPartOf_append_iff.mp hlast
  have hdot : '.' ∉ b ++ u := by
    rw [List.mem_append, not_or]
    exact ⟨isPartOf_star_iff.mp hb, hu⟩
  rw [List.append_assoc, List.append_assoc]
  exact hother _ (isPartOf_append_iff.mpr ⟨a, b ++ u, rfl, ha, isPartOf_star_iff.mpr hdot⟩)

end IsNameOf

/-! ### Types with dimensions -/

namespace JavaType

/-- How many dimensions an array has, and none if a type is no array. -/
def dimensionCount : JavaType → Nat
  | .array element => element.dimensionCount + 1
  | _ => 0

/-- Primitive types, classes with names made of segments, and arrays of these. -/
inductive IsPlain : JavaType → Prop
  | primitive (p : Primitive) : IsPlain (.primitive p)
  | ofClass {c : ClassType} (hc : IsQualified (QualifiedName.dotted c.fullyQualifiedName.toList)) :
      IsPlain (.ofClass c)
  | array {element : JavaType} (h : IsPlain element) : IsPlain (.array element)

theorem IsPlain.arrayOf {t : JavaType} (h : t.IsPlain) (n : Nat) :
    (JavaType.arrayOf n t).IsPlain := by
  induction n with
  | zero => exact h
  | succ n ih => exact .array ih

theorem isPlain_named {s : List Char} (h : IsQualified s) :
    (JavaType.ofClass (.named (String.ofList s))).IsPlain := by
  refine .ofClass ?_
  rwa [ClassType.named, String.toList_ofList,
    QualifiedName.dotted_eq_self (h.madeOf.not_mem (by decide) (by decide))]

/-- In the signature of a plain type, there are no brackets but those of its dimensions. -/
theorem IsPlain.exists_signature_eq {t : JavaType} (h : t.IsPlain) :
    ∃ s, ']' ∉ s ∧ t.signature.toList = s ++ Java.dimensions t.dimensionCount := by
  induction h with
  | primitive p => exact ⟨_, by cases p <;> decide, (List.append_nil _).symm⟩
  | @ofClass c hc =>
    refine ⟨_, hc.madeOf.not_mem (by decide) (by decide), ?_⟩
    rw [signature, ClassType.signature, String.toList_ofList]
    exact (List.append_nil _).symm
  | @array element _ ih =>
    obtain ⟨s, hs, hsignature⟩ := ih
    refine ⟨s, hs, ?_⟩
    rw [signature_array, hsignature, dimensionCount, TypePattern.dimensions_succ,
      List.append_assoc]

end JavaType

/-! ### Patterns with dimensions -/

namespace TypePattern

/-- With no bracket in what stands in front, one number of dimensions is the smaller one. -/
theorem exists_of_append_dimensions_eq {s t : List Char} {k d : Nat} (hs : ']' ∉ s)
    (h : t ++ dimensions k = s ++ dimensions d) : ∃ j, d = j + k ∧ t = s ++ dimensions j := by
  have hdrop := dropDimensions_reverse hs d
  rw [← h, dropDimensions_append, Prod.mk.injEq] at hdrop
  obtain ⟨htext, hcount⟩ := hdrop
  refine ⟨_, hcount.symm, ?_⟩
  have hread := reverse_eq_dropDimensions t.reverse
  rwa [htext, List.reverse_reverse, List.reverse_reverse] at hread

section Dotted

variable {s t : List Char}

theorem suffix_of_suffix_dotted (ht : '.' ∉ t) (h : t <:+ QualifiedName.dotted s) : t <:+ s := by
  obtain ⟨before, h⟩ := h
  obtain ⟨first, last, rfl, -, rfl⟩ := List.map_eq_append_iff.mp h.symm
  have hdollar : '$' ∉ last := fun hmem => ht (List.mem_map.mpr ⟨'$', hmem, rfl⟩)
  have hlast : last.map (fun c => if c = '$' then '.' else c) = last :=
    QualifiedName.dotted_eq_self hdollar
  rw [hlast]
  exact List.suffix_append first last

theorem getLast?_dotted_iff {c : Char} (hdot : c ≠ '.') (hdollar : c ≠ '$') :
    (QualifiedName.dotted s).getLast? = some c ↔ s.getLast? = some c := by
  rw [QualifiedName.dotted, List.getLast?_map, Option.map_eq_some_iff]
  constructor
  · rintro ⟨d, hd, hc⟩
    split at hc
    · exact absurd hc.symm hdot
    · rwa [← hc]
  · exact fun hc => ⟨c, hc, if_neg hdollar⟩

/-- Dimensions have no dollar signs in them. -/
theorem dotted_append_dimensions (k : Nat) :
    QualifiedName.dotted (s ++ dimensions k) = QualifiedName.dotted s ++ dimensions k := by
  have hdollar : '$' ∉ dimensions k := fun hmem => by simpa using mem_of_mem_dimensions hmem
  conv_rhs => rw [← QualifiedName.dotted_eq_self hdollar]
  exact List.map_append

end Dotted

variable {text base : List Char} {type : TypePattern} {k : Nat}

/-- The name in a pattern is what is left without the brackets at its end. -/
theorem parse?_append_dimensions (hp : parse? text = some type)
    (hstar : ¬(text = ['*'] ∨ text = ['*', '.', '.', '*'])) (htext : text = base ++ dimensions k)
    (hbase : ¬['[', ']'] <:+ base) :
    IsDotted (QualifiedName.dotted base) ∧
      ∃ path, PathStep.ofSegments? (Text.splitAt '.' (QualifiedName.dotted base)) = some path ∧
        type = .named path (isUnqualified (QualifiedName.dotted base)) k := by
  obtain ⟨name, path, n, hname, hdotted, hpath, rfl⟩ := parse?_named hp hstar
  have hsuffix : ¬['[', ']'] <:+ QualifiedName.dotted base :=
    fun h => hbase (suffix_of_suffix_dotted (by decide) h)
  rw [htext, dotted_append_dimensions] at hdotted
  obtain ⟨j, hn, hbase⟩ := exists_of_append_dimensions_eq hname.bracket_not_mem hdotted
  cases j with
  | succ j =>
    rw [hbase, dimensions_succ, ← List.append_assoc] at hsuffix
    exact absurd (List.suffix_append _ _) hsuffix
  | zero =>
    obtain rfl : n = k := by omega
    obtain rfl : QualifiedName.dotted base = name := by simpa [dimensions] using hbase
    exact ⟨hname, path, hpath, rfl⟩

variable {name s : List Char} {path : List PathStep} {orInLang : Bool} (hname : IsDotted name)
  (hpath : PathStep.ofSegments? (Text.splitAt '.' name) = some path)

include hname hpath

/-- If a pattern does not end in a star, what it accepts ends with the same character. -/
theorem getLast?_of_matchName (hmatch : matchName path orInLang (Text.splitAt '.' s) = true)
    {c : Char} (hc : name.getLast? = some c) (hstar : c ≠ '*') : s.getLast? = some c := by
  rcases (matchName_iff hname hpath).mp hmatch with h | ⟨-, rest, rfl, h⟩
  · exact h.getLast?_eq hc hstar
  · rw [List.getLast?_append, h.getLast?_eq hc hstar, Option.some_or]

/-- If it ends in a star then what it accepts can be continued, as long as no segment begins. -/
theorem matchName_append (hmatch : matchName path orInLang (Text.splitAt '.' s) = true)
    (hstar : name.getLast? = some '*') {u : List Char} (hu : '.' ∉ u) :
    matchName path orInLang (Text.splitAt '.' (s ++ u)) = true := by
  refine (matchName_iff hname hpath).mpr ?_
  rcases (matchName_iff hname hpath).mp hmatch with h | ⟨hlang, rest, rfl, h⟩
  · exact .inl (h.append hstar hu)
  · exact .inr ⟨hlang, rest ++ u, List.append_assoc langPrefix rest u, h.append hstar hu⟩

/-- Behind a star, an array is accepted as its elements are. -/
theorem accepts_append_of_star {n : Nat} (h : (named path orInLang n).accepts s = true)
    (hstar : name.getLast? = some '*') :
    (named path orInLang n).accepts (s ++ ['[', ']']) = true := by
  obtain ⟨t, rfl, hmatch⟩ := accepts_named_iff.mp h
  refine accepts_named_iff.mpr ⟨t ++ ['[', ']'], ?_, matchName_append hname hpath hmatch hstar
    (by decide)⟩
  rw [List.append_assoc, ← dimensions_succ, List.append_assoc]
  rfl

/-- What is accepted has the dimensions of the pattern, and no more if there is no star. -/
theorem dimensionCount_of_accepts {n : Nat} {t : JavaType} (ht : t.IsPlain)
    (h : (named path orInLang n).accepts t.signature.toList = true) :
    n ≤ t.dimensionCount ∧ (name.getLast? ≠ some '*' → t.dimensionCount = n) := by
  obtain ⟨u, hsignature, hmatch⟩ := accepts_named_iff.mp h
  obtain ⟨s, hs, hplain⟩ := ht.exists_signature_eq
  obtain ⟨j, hcount, rfl⟩ := exists_of_append_dimensions_eq hs (hsignature.symm.trans hplain)
  refine ⟨by omega, fun hstar => ?_⟩
  obtain ⟨c, hc, -⟩ := hname.getLast?
  have hlast := getLast?_of_matchName hname hpath hmatch hc fun heq => hstar (heq ▸ hc)
  cases j with
  | zero => omega
  | succ j =>
    -- then the pattern would have a bracket in its name
    rw [dimensions_succ, ← List.append_assoc, List.getLast?_append] at hlast
    obtain rfl := Option.some.inj hlast
    exact absurd (List.mem_of_getLast? hc) hname.bracket_not_mem

end TypePattern

namespace ParameterPattern

variable {text base : List Char} {type : TypePattern} {k : Nat}

/-- **The dimensions of the types that are accepted.** A pattern of types with `k` dimensions, and
no more, accepts no plain type with fewer. The plain types that it accepts all have just `k`, if and
only if there is no star in front of the dimensions. With a star there, the arrays of all types that
it accepts are accepted, too. -/
theorem acceptsType_dimensions (hp : TypePattern.parse? text = some type)
    (hstar : ¬(text = ['*'] ∨ text = ['*', '.', '.', '*'])) (htext : text = base ++ dimensions k)
    (hbase : ¬['[', ']'] <:+ base) :
    (∀ t : JavaType, t.IsPlain → acceptsType text t = true → k ≤ t.dimensionCount) ∧
      ((∀ t : JavaType, t.IsPlain → acceptsType text t = true → t.dimensionCount = k) ↔
        base.getLast? ≠ some '*') ∧
      (base.getLast? = some '*' →
        ∀ t : JavaType, acceptsType text t = true → acceptsType text (.array t) = true) := by
  have hread : parse? text = some (.exact type) :=
    parse?_eq_some_iff.mpr (.exact hp fun h => hstar (.inl h))
  have hlastIff : (QualifiedName.dotted base).getLast? = some '*' ↔ base.getLast? = some '*' :=
    TypePattern.getLast?_dotted_iff (by decide) (by decide)
  simp only [acceptsType_of_parse hread, acceptsOne, JavaType.signature_array, ne_eq, ← hlastIff]
  obtain ⟨s, n, hs, haccepts⟩ := TypePattern.exists_arrayOf hp
  obtain ⟨hname, path, hpath, rfl⟩ := TypePattern.parse?_append_dimensions hp hstar htext hbase
  refine ⟨fun t ht h => (TypePattern.dimensionCount_of_accepts hname hpath ht h).1,
    ⟨fun hall hlast => ?_, fun hlast t ht h =>
      (TypePattern.dimensionCount_of_accepts hname hpath ht h).2 hlast⟩,
    fun hlast t h => TypePattern.accepts_append_of_star hname hpath h hlast⟩
  -- some type is accepted, and so would be the arrays of it
  have hplain := (JavaType.isPlain_named hs).arrayOf n
  have harray := TypePattern.accepts_append_of_star hname hpath haccepts hlast
  rw [← JavaType.signature_array] at harray
  have hcount := hall _ hplain haccepts
  have hcountArray := hall _ hplain.array harray
  rw [JavaType.dimensionCount, hcount] at hcountArray
  omega

/-- Arrays of the classes `B` in the package `a` and below, of one dimension and no more. -/
theorem acceptsType_dimensions_one :
    let text := "a..B[]".toList
    (TypePattern.parse? text).isSome = true ∧ ¬(text = ['*'] ∨ text = ['*', '.', '.', '*']) ∧
      text = "a..B".toList ++ dimensions 1 ∧ ¬['[', ']'] <:+ "a..B".toList ∧
      acceptsType text (.array (.ofClass (.named "a.x.B"))) = true ∧
      ∀ t : JavaType, t.IsPlain → acceptsType text t = true → t.dimensionCount = 1 := by
  intro text
  have hp : TypePattern.parse? text =
      some (.named [.segment ['a'], .skip, .segment ['B']] false 1) := by decide
  have hstar : ¬(text = ['*'] ∨ text = ['*', '.', '.', '*']) := by decide
  have hbase : ¬['[', ']'] <:+ "a..B".toList := by decide
  obtain ⟨-, hexact, -⟩ := acceptsType_dimensions (k := 1) hp hstar rfl hbase
  exact ⟨Option.isSome_of_eq_some hp, hstar, rfl, hbase, by decide, hexact.mpr (by decide)⟩

/-- A pattern without dimensions that accepts an array. -/
theorem star_accepts_array :
    let text := "a.*".toList
    let t : JavaType := .array (.ofClass (.named "a.B"))
    (TypePattern.parse? text).isSome = true ∧ ¬(text = ['*'] ∨ text = ['*', '.', '.', '*']) ∧
      text = text ++ dimensions 0 ∧ ¬['[', ']'] <:+ text ∧ t.IsPlain ∧
      acceptsType text t = true ∧ t.dimensionCount = 1 := by
  intro text t
  have hplain : (JavaType.ofClass (.named (String.ofList ['a', '.', 'B']))).IsPlain :=
    JavaType.isPlain_named ⟨by decide, by decide⟩
  exact ⟨by decide, by decide, rfl, by decide, hplain.array, by decide, rfl⟩

end ParameterPattern

end Lossless.Java
