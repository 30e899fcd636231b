import Mathlib.Tactic.MkIffOfInductiveProp
import Lossless.Proofs.Java.Pattern
import Lossless.Proofs.Pattern.TypeGrammar

/-!
# The grammar of patterns of methods

A pattern of methods is a type, blanks, a name, perhaps more blanks, and a list of parameters
in parentheses (`Lossless.Java.IsMethodPattern`). The reader knows nothing of this when it
takes a text apart: it cuts at the first blank, at the first parenthesis and at every comma,
and then reads what is between.

So there are two steps from the one to the other.

* What the reader cuts is described by how it is put together again
  (`Lossless.Java.HasParts`), for parts of any kind; there is at most one way to do so
  (`Lossless.Java.PatternParts.split?_eq_some_iff`).
* No pattern of a type, a name or a parameter has a character in it at which the text would be
  cut. So a text of the grammar is cut where its parts meet, and it is a pattern just if its
  parts are (`Lossless.Java.isMethodPattern_iff`).

The patterns of parameters have a difficulty of their own. They are told apart by how many dots
they end in, and a type that ended in a dot would blur this. No pattern of types does
(`Lossless.Java.IsTypePattern.ne_append_dot`).
-/

namespace Lossless.Java

/-! ### Names -/

/-- The texts that are patterns of names. -/
def IsNamePattern (text : List Char) : Prop :=
  text = MethodType.constructorName.toList ∨
    text ≠ [] ∧ Text.MadeOf ['$', '*'] text

theorem NamePattern.isSome_parse?_iff {text : List Char} :
    (parse? text).isSome = true ↔ IsNamePattern text := by
  rw [parse?, IsNamePattern]
  split
  · next h => exact iff_of_true rfl (.inl h)
  · next h =>
    rw [or_iff_right h]
    split
    · next hchars =>
      refine iff_of_true rfl ?_
      simpa [isNameChar, Text.MadeOf, or_assoc] using hchars
    · next hchars =>
      refine iff_of_false Bool.false_ne_true ?_
      simpa [isNameChar, Text.MadeOf, or_assoc] using hchars

instance : DecidablePred IsNamePattern := fun _ => decidable_of_iff _ NamePattern.isSome_parse?_iff

theorem IsNamePattern.madeOf {text : List Char} (h : IsNamePattern text) :
    Text.MadeOf ['$', '*', '<', '>'] text := by
  rcases h with rfl | ⟨-, hchars⟩
  · decide
  · intro c hc
    rcases hchars c hc with hword | hmem
    · exact .inl hword
    · exact .inr (List.mem_append_left ['<', '>'] hmem)

theorem IsNamePattern.not_blank {text : List Char} (h : IsNamePattern text) :
    ∀ c ∈ text, Text.isBlank c = false :=
  h.madeOf.not_blank (by decide)

theorem IsNamePattern.paren_not_mem {text : List Char} (h : IsNamePattern text) : '(' ∉ text :=
  h.madeOf.not_mem (by decide) (by decide)

/-! ### Parameters -/

/-- The texts of the patterns for any number of parameters. -/
@[mk_iff]
inductive IsTrailing : List Char → Prop
  /-- Any parameters, `..`. -/
  | any : IsTrailing ['.', '.']
  /-- Any number of these types, `T..`. -/
  | types {t : List Char} (ht : IsTypePattern t) : IsTrailing (t ++ ['.', '.'])

/-- The texts that are patterns of parameters. -/
@[mk_iff]
inductive IsParameter : List Char → Prop
  /-- Any parameter, `*`. -/
  | any : IsParameter ['*']
  /-- One of these types, `T`. -/
  | exact {t : List Char} (ht : IsTypePattern t) : IsParameter t
  /-- A list of arguments of these types, `T...`. -/
  | varargs {t : List Char} (ht : IsTypePattern t) : IsParameter (t ++ ['.', '.', '.'])
  /-- Any number of parameters. -/
  | trailing {t : List Char} (ht : IsTrailing t) : IsParameter t

/-- A parameter is made of word characters and of those that stand in types and lists of arguments.
-/
theorem IsParameter.madeOf {text : List Char} (h : IsParameter text) :
    Text.MadeOf typeMarks text := by
  cases h with
  | any => decide
  | exact ht => exact ht.madeOf
  | varargs ht => exact ht.madeOf.append (by decide)
  | trailing ht =>
    cases ht with
    | any => decide
    | types ht => exact ht.madeOf.append (by decide)

/-- A parameter has no blank in it. -/
theorem IsParameter.not_blank {text : List Char} (h : IsParameter text) :
    ∀ c ∈ text, Text.isBlank c = false :=
  h.madeOf.not_blank (by decide)

theorem IsParameter.ne_nil {text : List Char} (h : IsParameter text) : text ≠ [] := by
  cases h with
  | any => exact List.cons_ne_nil _ _
  | exact ht => exact ht.ne_nil
  | varargs ht => simp
  | trailing ht =>
    cases ht with
    | any => exact List.cons_ne_nil _ _
    | types ht => simp

namespace ParameterPattern

/-- Behind three dots a parameter is read as variable arguments. -/
theorem parse?_varargs (t : List Char) :
    parse? (t ++ ['.', '.', '.']) = (TypePattern.parse? t).map .varargs := by
  have hshort : ∀ s : List Char, s.length < 3 → t ++ ['.', '.', '.'] ≠ s := by
    rintro s hs rfl
    rw [List.length_append] at hs
    exact absurd hs (by simp)
  rw [parse?, if_neg (hshort _ (by decide)), if_neg (hshort _ (by decide))]
  simp

/-- Behind two dots it is read as one that stands for any number. -/
theorem parse?_trailing {t : List Char} {c : Char} (hlast : t.getLast? = some c) (hc : c ≠ '.') :
    parse? (t ++ ['.', '.']) = (TypePattern.parse? t).map .trailing := by
  obtain ⟨s, rfl⟩ := List.getLast?_eq_some_iff.mp hlast
  have hshort : ∀ u : List Char, u.length < 3 → s ++ [c] ++ ['.', '.'] ≠ u := by
    rintro u hu rfl
    rw [List.length_append, List.length_append] at hu
    exact absurd hu (by simp)
  rw [parse?, if_neg (hshort _ (by decide)), if_neg (hshort _ (by decide))]
  simp [hc]

/-- Otherwise it is read as a type. -/
theorem parse?_exact {t : List Char} (hstar : t ≠ ['*']) (hdots : ∀ s, t ≠ s ++ ['.', '.']) :
    parse? t = (TypePattern.parse? t).map .exact := by
  have hany : t ≠ ['.', '.'] := hdots []
  rw [parse?, if_neg hstar, if_neg hany]
  split
  · next element h =>
    have ht := congrArg List.reverse h
    exact absurd (by simpa using ht) (hdots (element.reverse ++ ['.']))
  · next type _ h =>
    have ht := congrArg List.reverse h
    exact absurd (by simpa using ht) (hdots type.reverse)
  · rfl

/-- How a parameter can end. -/
theorem parse?_cases (text : List Char) :
    text = ['*'] ∨ text = ['.', '.'] ∨ (∃ t, text = t ++ ['.', '.', '.']) ∨
      (∃ t c, text = t ++ ['.', '.'] ∧ t.getLast? = some c ∧ c ≠ '.') ∨
      text ≠ ['*'] ∧ ∀ t, text ≠ t ++ ['.', '.'] := by
  by_cases hstar : text = ['*']
  · exact .inl hstar
  by_cases hdots : ∃ t, text = t ++ ['.', '.']
  · obtain ⟨t, rfl⟩ := hdots
    cases hlast : t.getLast? with
    | none =>
      rw [List.getLast?_eq_none_iff.mp hlast]
      exact .inr (.inl rfl)
    | some c =>
      by_cases hc : c = '.'
      · obtain ⟨s, rfl⟩ := List.getLast?_eq_some_iff.mp hlast
        exact .inr (.inr (.inl ⟨s, by simp [hc]⟩))
      · exact .inr (.inr (.inr (.inl ⟨t, c, rfl, hlast, hc⟩)))
  · exact .inr (.inr (.inr (.inr ⟨hstar, fun t ht => hdots ⟨t, ht⟩⟩)))

/-- A parameter that ends in two dots is trailing if the rest is a type. -/
theorem isTrailing_append_dots_iff {t : List Char} (ht : t ≠ []) :
    IsTrailing (t ++ ['.', '.']) ↔ IsTypePattern t := by
  refine ⟨fun h => ?_, .types⟩
  rcases (isTrailing_iff _).mp h with h | ⟨u, hu, h⟩
  · exact absurd (List.append_left_eq_self.mp h) ht
  · rwa [List.append_cancel_right h]

/-- Without two dots at the end a parameter is not trailing. -/
theorem not_isTrailing {t : List Char} (h : ∀ s, t ≠ s ++ ['.', '.']) : ¬IsTrailing t := by
  rw [isTrailing_iff]
  rintro (ht | ⟨s, -, ht⟩)
  · exact h [] ht
  · exact h s ht

/-- Three dots are not two dots behind a type. -/
theorem not_isTrailing_varargs (t : List Char) : ¬IsTrailing (t ++ ['.', '.', '.']) := by
  intro h
  have hdots : t ++ ['.', '.', '.'] = (t ++ ['.']) ++ ['.', '.'] := by simp
  rw [hdots, isTrailing_append_dots_iff (by simp)] at h
  exact h.ne_append_dot t rfl

/-- What ends in two dots is no type, so it stands for a list or for any number. -/
theorem isParameter_append_dots_iff (s : List Char) :
    IsParameter (s ++ ['.', '.']) ↔
      (∃ t, IsTypePattern t ∧ s = t ++ ['.']) ∨ IsTrailing (s ++ ['.', '.']) := by
  rw [isParameter_iff]
  constructor
  · rintro (h | h | ⟨t, ht, h⟩ | h)
    · simpa using congrArg List.getLast? h
    · exact absurd (by simp) (h.ne_append_dot (s ++ ['.']))
    · have hdots : s ++ ['.', '.'] = (t ++ ['.']) ++ ['.', '.'] := by simpa using h
      exact .inl ⟨t, ht, List.append_cancel_right hdots⟩
    · exact .inr h
  · rintro (⟨t, ht, rfl⟩ | h)
    · exact .inr (.inr (.inl ⟨t, ht, by simp⟩))
    · exact .inr (.inr (.inr h))

theorem isParameter_varargs_iff {t : List Char} :
    IsParameter (t ++ ['.', '.', '.']) ↔ IsTypePattern t := by
  refine ⟨fun h => ?_, .varargs⟩
  have hdots : t ++ ['.', '.', '.'] = (t ++ ['.']) ++ ['.', '.'] := by simp
  rw [hdots, isParameter_append_dots_iff, ← hdots] at h
  rcases h with ⟨u, hu, h⟩ | h
  · rwa [List.append_cancel_right h]
  · exact absurd h (not_isTrailing_varargs t)

/-- **The reader of patterns of parameters reads the grammar.** -/
theorem parse?_spec (text : List Char) :
    ((parse? text).isSome = true ↔ IsParameter text) ∧
      ∀ p, parse? text = some p → (p.isTrailing = true ↔ IsTrailing text) := by
  rcases parse?_cases text with rfl | rfl | ⟨t, rfl⟩ | ⟨t, c, rfl, hlast, hc⟩ | ⟨hstar, hdots⟩
  · refine ⟨iff_of_true rfl .any, fun p hp => ?_⟩
    obtain rfl := Option.some.inj hp
    refine iff_of_false Bool.false_ne_true (not_isTrailing fun s hs => ?_)
    simpa using congrArg List.getLast? hs
  · refine ⟨iff_of_true rfl (.trailing .any), fun p hp => ?_⟩
    obtain rfl := Option.some.inj hp
    exact iff_of_true rfl .any
  · -- three dots could also be two behind a type that ends in a dot, but there is none
    rw [parse?_varargs, Option.isSome_map, TypePattern.isSome_parse?_iff]
    refine ⟨isParameter_varargs_iff.symm, fun p hp => ?_⟩
    obtain ⟨type, -, rfl⟩ := Option.map_eq_some_iff.mp hp
    exact iff_of_false Bool.false_ne_true (not_isTrailing_varargs t)
  · -- what is in front of the two dots ends in no dot, so there are no three
    have hne : t ≠ [] := fun hnil => by
      rw [hnil] at hlast
      cases hlast
    have hdot : ¬∃ u, IsTypePattern u ∧ t = u ++ ['.'] := by
      rintro ⟨u, -, rfl⟩
      rw [List.getLast?_append] at hlast
      exact hc (Option.some.inj hlast).symm
    rw [parse?_trailing hlast hc, Option.isSome_map, TypePattern.isSome_parse?_iff,
      isParameter_append_dots_iff, or_iff_right hdot, isTrailing_append_dots_iff hne]
    refine ⟨Iff.rfl, fun p hp => ?_⟩
    obtain ⟨type, htype, rfl⟩ := Option.map_eq_some_iff.mp hp
    exact iff_of_true rfl (TypePattern.isSome_parse?_iff.mp (Option.isSome_of_eq_some htype))
  · rw [parse?_exact hstar hdots, Option.isSome_map, TypePattern.isSome_parse?_iff,
      isParameter_iff]
    refine ⟨⟨fun h => .inr (.inl h), ?_⟩, fun p hp => ?_⟩
    · rintro (h | h | ⟨t, -, h⟩ | h)
      · exact absurd h hstar
      · exact h
      · exact absurd (by simpa using h) (hdots (t ++ ['.']))
      · exact absurd h (not_isTrailing hdots)
    · obtain ⟨type, -, rfl⟩ := Option.map_eq_some_iff.mp hp
      exact iff_of_false Bool.false_ne_true (not_isTrailing hdots)

/-- What is read is what the grammar says. -/
theorem isSome_parse?_iff {text : List Char} : (parse? text).isSome = true ↔ IsParameter text :=
  (parse?_spec text).1

theorem any_isTrailing_parse?_iff {text : List Char} :
    (parse? text).any isTrailing = true ↔ IsTrailing text := by
  obtain ⟨hsome, htrailing⟩ := parse?_spec text
  cases hparse : parse? text with
  | none =>
    refine iff_of_false Bool.false_ne_true fun h => ?_
    have hnone := hsome.mpr (.trailing h)
    rw [hparse] at hnone
    cases hnone
  | some p => exact htrailing p hparse

end ParameterPattern

instance : DecidablePred IsTrailing := fun _ =>
  decidable_of_iff _ ParameterPattern.any_isTrailing_parse?_iff

instance : DecidablePred IsParameter := fun _ =>
  decidable_of_iff _ ParameterPattern.isSome_parse?_iff

/-! ### Parts -/

/-- The items of a list of parameters: none if it is blank, or else what is between the
commas, without the blanks around it. -/
inductive HasItems : List Char → List (List Char) → Prop
  /-- A blank list. -/
  | blank {list : List Char} (h : ∀ c ∈ list, Text.isBlank c = true) : HasItems list []
  /-- A list with items. -/
  | items {pieces : List (List Char)} (hne : pieces ≠ []) (hcomma : ∀ p ∈ pieces, ',' ∉ p)
      (h : ¬∀ c ∈ Text.joinWith ',' pieces, Text.isBlank c = true) :
      HasItems (Text.joinWith ',' pieces) (pieces.map Text.trim)

/-- The parts of a pattern: what is in front of the first blank, what is between it and the
first parenthesis, and the items up to a last parenthesis. -/
def HasParts (text : List Char) (parts : PatternParts) : Prop :=
  ∃ blank middle list,
    text = parts.type ++ blank :: (middle ++ '(' :: (list ++ [')'])) ∧
      (∀ c ∈ parts.type, Text.isBlank c = false) ∧ Text.isBlank blank = true ∧ '(' ∉ middle ∧
      parts.name = Text.trim middle ∧ HasItems list parts.parameters

namespace PatternParts

/-- The items of a list are found by splitting it. -/
theorem hasItems_iff {list : List Char} {items : List (List Char)} :
    HasItems list items ↔ splitParameters list = items := by
  have hall : list.all Text.isBlank = true ↔ ∀ c ∈ list, Text.isBlank c = true := List.all_eq_true
  constructor
  · intro h
    cases h with
    | blank h => rw [splitParameters, if_pos (List.all_eq_true.mpr h)]
    | items hne hcomma h =>
      rw [splitParameters, if_neg (mt hall.mp h), Text.splitAt_joinWith hne hcomma]
  · rintro rfl
    rw [splitParameters]
    split
    · next h => exact .blank (hall.mp h)
    · next h =>
      have hitems := HasItems.items (Text.splitAt_ne_nil ',' list)
        (fun _ hpiece => Text.not_mem_of_mem_splitAt hpiece)
      rw [Text.joinWith_splitAt] at hitems
      exact hitems (mt hall.mpr h)

theorem imp_ne_paren (c : Char) (h : Text.isBlank c = true) : decide (c ≠ '(') = true := by
  refine decide_eq_true ?_
  rintro rfl
  revert h
  decide

/-- How a pattern is taken apart, with the blanks around the name trimmed at the end. -/
theorem split?_eq (text : List Char) :
    split? text = match text.dropWhile (!Text.isBlank ·) with
      | [] => none
      | _ :: rest =>
        match (rest.dropWhile (· ≠ '(')).tail.reverse with
        | ')' :: list => some {
            type := text.takeWhile (!Text.isBlank ·)
            name := Text.trim (rest.takeWhile (· ≠ '('))
            parameters := splitParameters list.reverse }
        | _ => none := by
  have hdrop : ∀ rest, (Text.trimStart rest).dropWhile (· ≠ '(') = rest.dropWhile (· ≠ '(') :=
    Text.dropWhile_dropWhile_of_imp imp_ne_paren
  have htake : ∀ rest, (Text.trimStart rest).takeWhile (· ≠ '(') =
      Text.trimStart (rest.takeWhile (· ≠ '(')) := fun rest =>
    (Text.dropWhile_takeWhile_of_imp imp_ne_paren rest).symm
  have hsplit := split?.eq_1 text
  simp only [hdrop, htake] at hsplit
  exact hsplit

/-- The parts of a text are found. -/
theorem split?_of_hasParts {text : List Char} {parts : PatternParts} (h : HasParts text parts) :
    split? text = some parts := by
  obtain ⟨blank, middle, list, htext, htype, hblank, hmiddle, hname, hitems⟩ := h
  have htype : ∀ c ∈ parts.type, (!Text.isBlank c) = true := fun c hc => by rw [htype c hc]; rfl
  have hstop : (!Text.isBlank blank) = false := by rw [hblank]; rfl
  have hmiddle : ∀ c ∈ middle, decide (c ≠ '(') = true := fun c hc =>
    decide_eq_true fun heq => hmiddle (heq ▸ hc)
  have hparen : decide ('(' ≠ '(') = false := by decide
  -- the cuts are where the parts meet: there is no blank in the type, and no parenthesis in
  -- what follows it
  rw [split?_eq, htext, Text.dropWhile_append_cons htype hstop,
    Text.takeWhile_append_cons htype hstop]
  simp only [Text.dropWhile_append_cons hmiddle hparen, Text.takeWhile_append_cons hmiddle hparen,
    List.tail_cons, List.reverse_append, List.reverse_cons, List.reverse_nil, List.nil_append,
    List.singleton_append, List.reverse_reverse, ← hname, hasItems_iff.mp hitems]

/-- What is found are its parts. -/
theorem hasParts_of_split? {text : List Char} {parts : PatternParts}
    (h : split? text = some parts) : HasParts text parts := by
  rw [split?_eq] at h
  split at h
  · cases h
  · next blank rest hrest =>
    split at h
    · next list hlist =>
      obtain rfl := Option.some.inj h
      have hparen : rest.dropWhile (· ≠ '(') = '(' :: (list.reverse ++ [')']) := by
        have htail := congrArg List.reverse hlist
        rw [List.reverse_reverse, List.reverse_cons] at htail
        cases hdrop : rest.dropWhile (· ≠ '(') with
        | nil =>
          rw [hdrop] at htail
          exact absurd htail.symm (by simp)
        | cons c tail =>
          rw [hdrop] at htail
          have hc : c = '(' := by simpa using Text.eq_false_of_dropWhile_eq_cons hdrop
          rw [hc, ← htail, List.tail_cons]
      refine ⟨blank, rest.takeWhile (· ≠ '('), list.reverse, ?_, fun c hc => ?_, ?_, fun hmem => ?_,
        rfl, hasItems_iff.mpr rfl⟩
      · rw [← hparen, List.takeWhile_append_dropWhile, ← hrest, List.takeWhile_append_dropWhile]
      · simpa using List.mem_takeWhile_imp hc
      · simpa using Text.eq_false_of_dropWhile_eq_cons hrest
      · simpa using List.mem_takeWhile_imp hmem
    · cases h

/-- **Patterns are taken apart as they are put together.** -/
theorem split?_eq_some_iff {text : List Char} {parts : PatternParts} :
    split? text = some parts ↔ HasParts text parts :=
  ⟨hasParts_of_split?, split?_of_hasParts⟩

end PatternParts

/-- A text has parts in one way only. -/
theorem HasParts.unique {text : List Char} {parts parts' : PatternParts} (h : HasParts text parts)
    (h' : HasParts text parts') : parts = parts' :=
  Option.some.inj
    ((PatternParts.split?_of_hasParts h).symm.trans (PatternParts.split?_of_hasParts h'))

/-! ### Patterns -/

/-- The texts that are lists of parameters: blank, or else items between commas, with blanks
around them. What stands for any number of parameters is the last item. -/
inductive IsParameterList : List Char → Prop
  /-- No parameters. -/
  | blank {list : List Char} (h : ∀ c ∈ list, Text.isBlank c = true) : IsParameterList list
  /-- Some parameters. -/
  | items {pieces : List (List Char)} (hne : pieces ≠ [])
      (hitems : ∀ piece ∈ pieces, IsParameter (Text.trim piece))
      (hlast : ∀ piece ∈ pieces.dropLast, ¬IsTrailing (Text.trim piece)) :
      IsParameterList (Text.joinWith ',' pieces)

/-- The texts that are patterns of methods, without blanks around them. -/
inductive IsMethodPattern : List Char → Prop
  /-- A type, blanks, a name, perhaps more blanks and a list of parameters. -/
  | parts {type blanks name space list : List Char} (htype : IsTypePattern type)
      (hne : blanks ≠ []) (hblanks : ∀ c ∈ blanks, Text.isBlank c = true)
      (hname : IsNamePattern name) (hspace : ∀ c ∈ space, Text.isBlank c = true)
      (hlist : IsParameterList list) :
      IsMethodPattern (type ++ blanks ++ name ++ space ++ '(' :: (list ++ [')']))

/-- Each part is a pattern of its kind. -/
structure PatternParts.IsCorrect (parts : PatternParts) : Prop where
  /-- The type is. -/
  type : IsTypePattern parts.type
  /-- The name is. -/
  name : IsNamePattern parts.name
  /-- The parameters are. -/
  parameters : ∀ item ∈ parts.parameters, IsParameter item
  /-- What stands for any number of parameters is the last of them. -/
  trailing : ∀ item ∈ parts.parameters.dropLast, ¬IsTrailing item

/-- What is no blank is found in a piece only within the blanks around it. -/
theorem IsParameter.not_mem_piece {piece : List Char} (h : IsParameter (Text.trim piece)) {c : Char}
    (hblank : Text.isBlank c = false) (hword : Text.isWordChar c = false) (hmark : c ∉ typeMarks) :
    c ∉ piece := by
  obtain ⟨before, after, hpiece, hbefore, hafter⟩ := Text.exists_trim piece
  rw [hpiece, List.mem_append, List.mem_append]
  rintro ((hmem | hmem) | hmem)
  · exact Text.not_mem_of_blank hblank hbefore hmem
  · exact h.madeOf.not_mem hword hmark hmem
  · exact Text.not_mem_of_blank hblank hafter hmem

theorem IsParameter.comma_not_mem_piece {piece : List Char} (h : IsParameter (Text.trim piece)) :
    ',' ∉ piece :=
  h.not_mem_piece (by decide) (by decide) (by decide)

/-- A list of parameters is one whose items are parameters, of which only the last may be trailing.
-/
theorem isParameterList_iff {list : List Char} : IsParameterList list ↔
    ∃ items, HasItems list items ∧ (∀ item ∈ items, IsParameter item) ∧
      ∀ item ∈ items.dropLast, ¬IsTrailing item := by
  constructor
  · intro h
    cases h with
    | blank h => exact ⟨[], .blank h, by simp, by simp⟩
    | @items pieces hne hitems hlast =>
      refine ⟨pieces.map Text.trim, .items hne (fun p hp => (hitems p hp).comma_not_mem_piece) ?_,
        ?_, ?_⟩
      · -- an item has a character, and this is no blank
        intro hblank
        obtain ⟨piece, hpiece⟩ := List.exists_mem_of_ne_nil pieces hne
        obtain ⟨c, hc⟩ := List.exists_mem_of_ne_nil _ (hitems piece hpiece).ne_nil
        refine Text.not_mem_of_blank ((hitems piece hpiece).not_blank c hc) hblank ?_
        exact Text.mem_joinWith hpiece (Text.mem_of_mem_trim hc)
      · simpa using hitems
      · simpa [← List.map_dropLast] using hlast
  · rintro ⟨items, hitems, hparameters, hlast⟩
    cases hitems with
    | blank h => exact .blank h
    | items hne _ _ =>
      refine .items hne (by simpa using hparameters) ?_
      simpa [← List.map_dropLast] using hlast

/-- **A pattern is a text all parts of which are correct.** -/
theorem isMethodPattern_iff {text : List Char} :
    IsMethodPattern text ↔ ∃ parts, HasParts text parts ∧ parts.IsCorrect := by
  constructor
  · intro h
    cases h with
    | @parts type blanks name space list htype hne hblanks hname hspace hlist =>
      obtain ⟨items, hitems, hparameters, htrailing⟩ := isParameterList_iff.mp hlist
      refine ⟨⟨type, name, items⟩, ?_, htype, hname, hparameters, htrailing⟩
      cases blanks with
      | nil => exact absurd rfl hne
      | cons blank blanks =>
        obtain ⟨hblank, hblanks⟩ := List.forall_mem_cons.mp hblanks
        have hparen : Text.isBlank '(' = false := by decide
        refine ⟨blank, blanks ++ name ++ space, list, by simp, htype.not_blank, hblank, ?_, ?_,
          hitems⟩
        · rw [List.mem_append, List.mem_append]
          rintro ((hmem | hmem) | hmem)
          · exact Text.not_mem_of_blank hparen hblanks hmem
          · exact hname.paren_not_mem hmem
          · exact Text.not_mem_of_blank hparen hspace hmem
        · exact (Text.trim_blanks_append hblanks hname.not_blank hspace).symm
  · rintro ⟨parts, ⟨blank, middle, list, htext, -, hblank, -, hname, hitems⟩, hcorrect⟩
    obtain ⟨before, after, hmiddle, hbefore, hafter⟩ := Text.exists_trim middle
    have hlist : IsParameterList list :=
      isParameterList_iff.mpr ⟨_, hitems, hcorrect.parameters, hcorrect.trailing⟩
    have hblanks : ∀ c ∈ blank :: before, Text.isBlank c = true :=
      List.forall_mem_cons.mpr ⟨hblank, hbefore⟩
    have hpattern := IsMethodPattern.parts hcorrect.type (List.cons_ne_nil blank before) hblanks
      hcorrect.name hafter hlist
    rw [htext, hmiddle, ← hname]
    simpa using hpattern

end Lossless.Java
