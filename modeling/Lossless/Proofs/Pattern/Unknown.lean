import Lossless.Java.Build
import Lossless.Proofs.Pattern.Inhabited

/-!
# Types that are not known

A type that could not be resolved has a signature all the same, and patterns are compared with it.
It is put between stars, so that no name looks like it. But a star in a pattern stands for any
characters but dots, and so for the stars of the signature too: the pattern `*u*` accepts a type of
which nothing is known. Which patterns do is said exactly here
(`Lossless.Java.ParameterPattern.acceptsOne_unknown_iff`): those for everything, and those of a
single part, without dimensions, that stands for this text (`Lossless.Java.NamesUnknown`). All other
patterns refuse it, wherever it stands among the parameters
(`Lossless.Java.MethodPattern.accepts_unknown_iff`).
-/

namespace Lossless.Java

/-! ### The text of an unknown type -/

/-- The signature of a type that is not known. -/
def unknownText : List Char := JavaType.unknown.signature.toList

theorem dot_not_mem_unknownText : '.' ∉ unknownText := by decide

theorem IsPartOf.eq_star_or_mem {part s : List Char} (h : IsPartOf part s) {c : Char}
    (hc : c ∈ part) : c = '*' ∨ c ∈ s := by
  induction h with
  | nil => cases hc
  | star _ _ ih =>
    rcases List.mem_cons.mp hc with rfl | hc
    · exact .inl rfl
    · exact (ih hc).imp_right (List.mem_append_right _)
  | char _ _ ih =>
    rcases List.mem_cons.mp hc with rfl | hc
    · exact .inr List.mem_cons_self
    · exact (ih hc).imp_right (List.mem_cons_of_mem _)

theorem IsPartOf.isSegment {part : List Char} (h : IsPartOf part unknownText) :
    IsSegment part := by
  have hall : Text.MadeOf ['*'] ('*' :: unknownText) := by decide
  refine ⟨?_, fun c hc => hall c (List.mem_cons.mpr (h.eq_star_or_mem hc))⟩
  rintro rfl
  cases h

/-- Without dots there is but one part. -/
theorem IsNameOf.isPartOf {name s : List Char} (h : IsNameOf name s) (hs : '.' ∉ s) :
    IsPartOf name s := by
  cases h with
  | segment _ h => exact h
  | dot _ _ _ => simp at hs
  | dots _ _ _ _ => simp at hs

/-! ### Patterns that accept it -/

namespace TypePattern

/-- Texts of patterns of types that accept a type that is not known. -/
def TakesUnknown (text : List Char) : Prop :=
  text = ['*'] ∨ text = ['*', '.', '.', '*'] ∨ IsPartOf text unknownText

theorem TakesUnknown.isTypePattern {text : List Char} (h : TakesUnknown text) :
    IsTypePattern text := by
  rcases h with rfl | rfl | h
  · exact .star
  · exact .stars
  · refine .named (n := 0) (.segment h.isSegment) ?_
    rw [QualifiedName.dotted_eq_self (h.isSegment.2.not_mem (by decide) (by decide))]
    exact (List.append_nil text).symm

theorem eq_of_append_dimensions {s t : List Char} {n : Nat} (h : s = t ++ dimensions n)
    (hs : ']' ∉ s) : s = t ∧ n = 0 := by
  cases n with
  | zero => exact ⟨by simpa [dimensions] using h, rfl⟩
  | succ n =>
    rw [h, dimensions_succ] at hs
    simp at hs

/-- **Which patterns of types accept a type that is not known.** -/
theorem accepts_unknownText_iff {text : List Char} {p : TypePattern} (hp : parse? text = some p) :
    p.accepts unknownText = true ↔ TakesUnknown text := by
  by_cases hstar : text = ['*'] ∨ text = ['*', '.', '.', '*']
  · rw [parse?, if_pos hstar] at hp
    obtain rfl := Option.some.inj hp
    exact iff_of_true (by decide) (hstar.imp_right .inl)
  · obtain ⟨name, path, n, hname, htext, hpath, rfl⟩ := parse?_named hp hstar
    rw [accepts_named_iff, TakesUnknown, ← or_assoc, or_iff_right hstar]
    simp only [matchName_iff hname hpath]
    constructor
    · rintro ⟨t, hs, hmatch⟩
      obtain ⟨rfl, rfl⟩ := eq_of_append_dimensions hs (by decide)
      rcases hmatch with h | ⟨-, rest, hrest, -⟩
      · have hpart := h.isPartOf dot_not_mem_unknownText
        have hdotted : QualifiedName.dotted text = name := by simpa [dimensions] using htext
        -- a `$` would have been read as a dot, and there is none
        have hdollar : '$' ∉ text := fun hmem => by
          have hdot : '.' ∈ name := hdotted ▸ List.mem_map.mpr ⟨'$', hmem, rfl⟩
          exact hpart.isSegment.dot_not_mem hdot
        rwa [← QualifiedName.dotted_eq_self hdollar, hdotted]
      · exact absurd (hrest ▸ List.mem_append_left rest (by decide)) dot_not_mem_unknownText
    · intro hpart
      have hchars := hpart.isSegment.2
      rw [QualifiedName.dotted_eq_self (hchars.not_mem (by decide) (by decide))] at htext
      obtain ⟨rfl, rfl⟩ :=
        eq_of_append_dimensions htext (hchars.not_mem (by decide) (by decide))
      exact ⟨unknownText, by simp [dimensions], .inl (.segment hpart.isSegment hpart)⟩

end TypePattern

/-- Patterns of parameters of a single part that stands for the text of an unknown type, perhaps for
any number of parameters. -/
def NamesUnknown (item : List Char) : Prop :=
  ∃ part, IsPartOf part unknownText ∧ (item = part ∨ item = part ++ ['.', '.'])

/-- The patterns of parameters for everything. -/
def catchAlls : List (List Char) :=
  [['*'], ['*', '.', '.', '*'], ['.', '.'], ['*', '.', '.'], ['*', '.', '.', '*', '.', '.']]

theorem not_mem_catchAlls {item : List Char} (h : ∃ c ∈ item, Text.isWordChar c = true) :
    item ∉ catchAlls := by
  intro hmem
  have hnone : ∀ item ∈ catchAlls, item.any Text.isWordChar = false := by decide
  have hany := List.any_eq_true.mpr h
  rw [hnone item hmem] at hany
  cases hany

namespace ParameterPattern

/-- Parameters that take unknown types are the one that takes everything, and types that do, with or
without dots behind. -/
theorem takesUnknown_iff {item : List Char} :
    item ∈ catchAlls ∨ NamesUnknown item ↔ item = ['.', '.'] ∨
      ∃ t, TypePattern.TakesUnknown t ∧ (item = t ∨ item = t ++ ['.', '.']) := by
  constructor
  · rintro (h | ⟨part, hpart, h⟩)
    · rcases (by simpa [catchAlls] using h :
        item = ['*'] ∨ item = ['*', '.', '.', '*'] ∨ item = ['.', '.'] ∨
          item = ['*', '.', '.'] ∨ item = ['*', '.', '.', '*', '.', '.'])
        with rfl | rfl | rfl | rfl | rfl
      · exact .inr ⟨['*'], .inl rfl, .inl rfl⟩
      · exact .inr ⟨['*', '.', '.', '*'], .inr (.inl rfl), .inl rfl⟩
      · exact .inl rfl
      · exact .inr ⟨['*'], .inl rfl, .inr rfl⟩
      · exact .inr ⟨['*', '.', '.', '*'], .inr (.inl rfl), .inr rfl⟩
    · exact .inr ⟨part, .inr (.inr hpart), h⟩
  · rintro (rfl | ⟨t, rfl | rfl | hpart, h⟩)
    · exact .inl (by decide)
    · rcases h with rfl | rfl <;> exact .inl (by decide)
    · rcases h with rfl | rfl <;> exact .inl (by decide)
    · exact .inr ⟨t, hpart, h⟩

/-- **Which patterns of parameters accept a type that is not known.** -/
theorem acceptsOne_unknown_iff {item : List Char} {q : ParameterPattern}
    (h : parse? item = some q) :
    q.acceptsOne unknownText = true ↔ item ∈ catchAlls ∨ NamesUnknown item := by
  rw [takesUnknown_iff]
  cases parse?_eq_some_iff.mp h with
  | any => exact iff_of_true rfl (.inr ⟨_, .inl rfl, .inl rfl⟩)
  | anyTrailing => exact iff_of_true rfl (.inl rfl)
  | @varargs t type ht =>
    -- it is no array, and what accepts it does not end in three dots
    refine iff_of_false Bool.false_ne_true ?_
    rintro (hitem | ⟨u, hu, hitem | hitem⟩)
    · simpa using congrArg List.length hitem
    · exact hu.isTypePattern.ne_append_dot (t ++ ['.', '.']) (by simp [← hitem])
    · have happend : u ++ ['.', '.'] = t ++ ['.'] ++ ['.', '.'] := by simp [← hitem]
      exact hu.isTypePattern.ne_append_dot t (List.append_cancel_right happend)
  | @trailing t type ht =>
    refine (TypePattern.accepts_unknownText_iff ht).trans
      ⟨fun hu => .inr ⟨t, hu, .inr rfl⟩, ?_⟩
    rintro (hitem | ⟨u, hu, hitem | hitem⟩)
    · exact absurd (List.append_left_eq_self.mp hitem)
        (TypePattern.isTypePattern_of_parse? ht).ne_nil
    · exact absurd (by simp [← hitem]) (hu.isTypePattern.ne_append_dot (t ++ ['.']))
    · rwa [List.append_cancel_right hitem]
  | exact ht _ =>
    refine (TypePattern.accepts_unknownText_iff ht).trans
      ⟨fun hu => .inr ⟨item, hu, .inl rfl⟩, ?_⟩
    rintro (rfl | ⟨u, hu, rfl | rfl⟩)
    · exact absurd rfl ((TypePattern.isTypePattern_of_parse? ht).ne_append_dot ['.'])
    · exact hu
    · exact absurd (by simp) ((TypePattern.isTypePattern_of_parse? ht).ne_append_dot (u ++ ['.']))

end ParameterPattern

/-! ### Methods -/

namespace MethodPattern

variable {p : MethodPattern}

/-- A method that matches has its unknown types where the pattern accepts them. -/
theorem IsRead.exists_item_of_accepts (h : p.IsRead) {overrides : Bool} {m : MethodType} {i : Nat}
    (hi : m.parameterTypes[i]? = some .unknown) (hm : p.accepts overrides m = true) :
    ∃ item, covering? (decide <| IsTrailing ·) p.parts.parameters i = some item ∧
      (item ∈ catchAlls ∨ NamesUnknown item) := by
  rw [accepts, Bool.and_eq_true, Bool.and_eq_true, ParameterPattern.acceptAll_iff h.trailing,
    List.length_map] at hm
  obtain ⟨⟨-, hcount, hall⟩, -⟩ := hm
  obtain ⟨q, hq⟩ := ParameterPattern.exists_covering? hcount (List.getElem?_eq_some_iff.mp hi).1
  obtain ⟨item, hitem, hparse⟩ := h.exists_item hq
  refine ⟨item, hitem, (ParameterPattern.acceptsOne_unknown_iff hparse).mp (hall i q _ hq ?_)⟩
  rw [List.getElem?_map, hi]
  rfl

/-- **Where types that are not known are accepted.** Let a parameter of the pattern with a letter in
it cover a position. Then no method matches that has an unknown type there, except if the parameter
is a single part that stands for the text of an unknown type; and then some such method does match.
So a call whose attribution is incomplete is found, if matching does not fall back, only where the
pattern is for everything or of this form. -/
theorem accepts_unknown_iff {text : String} (hp : parse text = .ok p) (overrides : Bool) :
    (∀ i item, covering? (decide <| IsTrailing ·) p.parts.parameters i = some item →
      (∃ c ∈ item, Text.isWordChar c = true) →
        ((∀ m : MethodType, m.parameterTypes[i]? = some .unknown → p.accepts overrides m = false) ↔
          ¬NamesUnknown item)) ∧
      ∀ (c : Call) (m : MethodType) (i : Nat), c.methodType = some m →
        m.parameterTypes[i]? = some .unknown →
        Matcher.acceptsCall ⟨p, overrides, .failClosed⟩ c = true →
        ∃ item, covering? (decide <| IsTrailing ·) p.parts.parameters i = some item ∧
          (item ∈ catchAlls ∨ NamesUnknown item) := by
  have hread := isRead_of_parse hp
  refine ⟨fun i item hitem hword => ⟨fun hnone hnames => ?_, fun hnames m hi => ?_⟩,
    fun c m i hm hi haccepts => ?_⟩
  · obtain ⟨q, hq, hparse⟩ := hread.exists_parse?_item hitem
    obtain ⟨m, hi, haccepts⟩ := hread.exists_accepts (t := .unknown) hq
      ((ParameterPattern.acceptsOne_unknown_iff hparse).mpr (.inr hnames)) overrides
    rw [hnone m hi] at haccepts
    cases haccepts
  · rw [Bool.eq_false_iff]
    intro haccepts
    obtain ⟨item', hitem', htakes⟩ := hread.exists_item_of_accepts hi haccepts
    obtain rfl := Option.some.inj (hitem.symm.trans hitem')
    exact hnames (htakes.resolve_left (not_mem_catchAlls hword))
  · rw [Matcher.acceptsCall, hm] at haccepts
    have hmethod : p.accepts overrides m = true := by
      simpa [Matcher.acceptsAttributed, Matcher.acceptsMethod] using haccepts
    exact hread.exists_item_of_accepts hi hmethod

/-- Any type is accepted at the first position, and at all later ones strings only. -/
theorem accepts_unknown_iff_strings :
    let p : MethodPattern := {
      text := "A b(*, String..)"
      parts := ⟨['A'], ['b'], [['*'], "String..".toList]⟩
      type := .named [.segment ['A']] true 0
      name := .form ['b']
      parameters := [.any, .trailing (.named [.segment "String".toList] true 0)] }
    let m : MethodType := { MethodType.named (.named "A") "b" with
      parameterTypes := [.unknown, .ofClass (.named "java.lang.String")] }
    let c : Call := ⟨Build.arguments [], some m, "b", none⟩
    parse "A b(*, String..)" = .ok p ∧
      (∀ m : MethodType, m.parameterTypes[2]? = some .unknown → p.accepts true m = false) ∧
      Matcher.acceptsCall ⟨p, true, .failClosed⟩ c = true ∧
      ∃ item, covering? (decide <| IsTrailing ·) p.parts.parameters 0 = some item ∧
        (item ∈ catchAlls ∨ NamesUnknown item) := by
  intro p m c
  have hp : parse "A b(*, String..)" = .ok p := by decide
  obtain ⟨hpositions, hcalls⟩ := accepts_unknown_iff hp true
  have hword : ∃ c ∈ "String..".toList, Text.isWordChar c = true := ⟨'S', by decide, by decide⟩
  have hnames : ¬NamesUnknown "String..".toList := by
    rintro ⟨part, hpart, hitem⟩
    have hletter : 'S' ∈ part := by
      have hmem : 'S' ∈ "String..".toList := by decide
      rcases hitem with hitem | hitem
      · rwa [hitem] at hmem
      · rw [hitem] at hmem
        exact (List.mem_append.mp hmem).resolve_right (by decide)
    rcases hpart.eq_star_or_mem hletter with hstar | hmem
    · cases hstar
    · revert hmem
      decide
  have haccepts : Matcher.acceptsCall ⟨p, true, .failClosed⟩ c = true :=
    accepts_of_declaringType (m := m) (by decide) (by decide) (by decide) true
  exact ⟨hp, (hpositions 2 "String..".toList rfl hword).mpr hnames, haccepts,
    hcalls c m 0 rfl rfl haccepts⟩

/-- A type of which nothing is known is accepted as one with `u` in its name. -/
theorem letter_accepts_unknown :
    let p : MethodPattern := {
      text := "A b(*u*)"
      parts := ⟨['A'], ['b'], [['*', 'u', '*']]⟩
      type := .named [.segment ['A']] true 0
      name := .form ['b']
      parameters := [.exact (.named [.segment ['*', 'u', '*']] false 0)] }
    let m : MethodType := { MethodType.named (.named "A") "b" with parameterTypes := [.unknown] }
    parse "A b(*u*)" = .ok p ∧
      covering? (decide <| IsTrailing ·) p.parts.parameters 0 = some ['*', 'u', '*'] ∧
      Text.isWordChar 'u' = true ∧ m.parameterTypes[0]? = some .unknown ∧
      p.accepts true m = true := by
  intro p m
  exact ⟨by decide, by decide, by decide, rfl,
    accepts_of_declaringType (by decide) (by decide) (by decide) true⟩

end MethodPattern

end Lossless.Java
