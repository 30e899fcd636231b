import Lossless.Java.TypePattern
import Lossless.Proofs.Text.Pieces

/-!
# The grammar of patterns of types

Patterns of types are read by cutting: array dimensions off the end, and then the name at its
dots. Here they are described the other way, by how they are put together
(`Lossless.Java.IsTypePattern`), and the two are shown to agree
(`Lossless.Java.TypePattern.isSome_parse?_iff`).

The descriptions meet at the empty pieces between dots. Two dots in a row leave one empty piece
between two segments, and this the reader takes for a skip. Three in a row leave two, and a
dot at either end leaves one at this end; then the reader fails, and there is no such text in
the grammar either.
-/

namespace Lossless.Java

/-! ### The grammar -/

/-- A segment of a pattern: word characters and stars, at least one. -/
def IsSegment (s : List Char) : Prop := s ≠ [] ∧ Text.MadeOf ['*'] s

/-- Segments joined by one dot or by two. -/
inductive IsDotted : List Char → Prop
  /-- One segment. -/
  | segment {s : List Char} (hs : IsSegment s) : IsDotted s
  /-- A segment, a dot and more. -/
  | dot {s t : List Char} (hs : IsSegment s) (ht : IsDotted t) : IsDotted (s ++ '.' :: t)
  /-- A segment, two dots and more. -/
  | dots {s t : List Char} (hs : IsSegment s) (ht : IsDotted t) : IsDotted (s ++ '.' :: '.' :: t)

/-- Array dimensions. -/
def dimensions (n : Nat) : List Char := (List.replicate n ['[', ']']).flatten

/-- The texts that are patterns of types. -/
inductive IsTypePattern : List Char → Prop
  /-- The pattern `*`. -/
  | star : IsTypePattern ['*']
  /-- The pattern `*..*`. -/
  | stars : IsTypePattern ['*', '.', '.', '*']
  /-- Segments and array dimensions, if a `$` is read as a dot. -/
  | named {text name : List Char} {n : Nat} (hname : IsDotted name)
      (htext : QualifiedName.dotted text = name ++ dimensions n) : IsTypePattern text

/-! ### Segments -/

theorem IsSegment.dot_not_mem {s : List Char} (h : IsSegment s) : '.' ∉ s :=
  h.2.not_mem (by decide) (by decide)

theorem IsDotted.isPathChar {name : List Char} (h : IsDotted name) :
    ∀ c ∈ name, TypePattern.isPathChar c = true := by
  have hsegment : ∀ {s}, IsSegment s → ∀ c ∈ s, TypePattern.isPathChar c = true := by
    intro s hs c hc
    rcases hs.2 c hc with hword | hstar
    · simp [TypePattern.isPathChar, hword]
    · simp [TypePattern.isPathChar, List.mem_singleton.mp hstar]
  have hdot : TypePattern.isPathChar '.' = true := rfl
  induction h with
  | segment hs => exact hsegment hs
  | dot hs _ ih =>
    rw [List.forall_mem_append, List.forall_mem_cons]
    exact ⟨hsegment hs, hdot, ih⟩
  | dots hs _ ih =>
    rw [List.forall_mem_append, List.forall_mem_cons, List.forall_mem_cons]
    exact ⟨hsegment hs, hdot, hdot, ih⟩

namespace PathStep

theorem ofSegments?_single {s : List Char} (hs : s ≠ []) :
    ofSegments? [s] = some [.segment s] := by
  cases s with
  | nil => exact absurd rfl hs
  | cons c s => rfl

/-- A segment behind a dot is the next step of a path. -/
theorem ofSegments?_dot {s t : List Char} (hs : s ≠ []) (ht : t ≠ []) (rest : List (List Char)) :
    ofSegments? (s :: t :: rest) = (ofSegments? (t :: rest)).map (.segment s :: ·) := by
  cases s with
  | nil => exact absurd rfl hs
  | cons c s =>
    cases t with
    | nil => exact absurd rfl ht
    | cons d t => rw [ofSegments?] <;> simp

/-- Two dots are a step that skips segments. -/
theorem ofSegments?_dots {s : List Char} (hs : s ≠ []) (rest : List (List Char)) :
    ofSegments? (s :: [] :: rest) = (ofSegments? rest).map (.segment s :: .skip :: ·) := by
  cases s with
  | nil => exact absurd rfl hs
  | cons c s => rw [ofSegments?]; simp

/-- What is between the dots of a dotted name can be read. Behind a dot there is a first
segment that is not empty, so that one dot is not taken for two. -/
theorem isSome_ofSegments?_splitAt {name : List Char} (h : IsDotted name) :
    (∃ s rest, Text.splitAt '.' name = s :: rest ∧ s ≠ []) ∧
      (ofSegments? (Text.splitAt '.' name)).isSome = true := by
  induction h with
  | segment hs =>
    rw [Text.splitAt_of_not_mem hs.dot_not_mem, ofSegments?_single hs.1]
    exact ⟨⟨_, _, rfl, hs.1⟩, rfl⟩
  | dot hs _ ih =>
    obtain ⟨⟨t, rest, hsplit, ht⟩, hsome⟩ := ih
    rw [Text.splitAt_append_cons hs.dot_not_mem]
    refine ⟨⟨_, _, rfl, hs.1⟩, ?_⟩
    rw [hsplit, ofSegments?_dot hs.1 ht, Option.isSome_map, ← hsplit]
    exact hsome
  | dots hs _ ih =>
    -- between the two dots there is an empty piece
    rw [Text.splitAt_append_cons hs.dot_not_mem, Text.splitAt, if_pos rfl]
    refine ⟨⟨_, _, rfl, hs.1⟩, ?_⟩
    rw [ofSegments?_dots hs.1, Option.isSome_map]
    exact ih.2

/-- What is read is a dotted name. -/
theorem isDotted_joinWith {segments : List (List Char)}
    (hsegments : ∀ s ∈ segments, Text.MadeOf ['*'] s)
    (h : (ofSegments? segments).isSome = true) : IsDotted (Text.joinWith '.' segments) := by
  induction segments using ofSegments?.induct with
  | case1 => cases h
  | case2 rest => cases h
  | case3 s hs => exact .segment ⟨hs, hsegments s List.mem_cons_self⟩
  | case4 s rest hs ih =>
    rw [ofSegments?_dots hs, Option.isSome_map] at h
    obtain ⟨hchars, -, hrest⟩ := by simpa only [List.forall_mem_cons] using hsegments
    cases rest with
    | nil => cases h
    | cons t rest => exact .dots ⟨hs, hchars⟩ (ih hrest h)
  | case5 s rest hs hne hskip ih =>
    obtain ⟨hchars, hrest⟩ := List.forall_mem_cons.mp hsegments
    cases rest with
    | nil => exact absurd rfl hne
    | cons t rest =>
      have ht : t ≠ [] := fun ht => hskip rest (ht ▸ rfl)
      rw [ofSegments?_dot hs ht, Option.isSome_map] at h
      exact .dot ⟨hs, hchars⟩ (ih hrest h)

end PathStep

/-- **Dotted names are what the readers take for the names of types.** -/
theorem isDotted_iff {name : List Char} :
    IsDotted name ↔ (∀ c ∈ name, TypePattern.isPathChar c = true) ∧
      (PathStep.ofSegments? (Text.splitAt '.' name)).isSome = true := by
  constructor
  · exact fun h => ⟨h.isPathChar, (PathStep.isSome_ofSegments?_splitAt h).2⟩
  · rintro ⟨hchars, hsome⟩
    rw [← Text.joinWith_splitAt '.' name]
    refine PathStep.isDotted_joinWith (fun s hs c hc => ?_) hsome
    -- the characters of a segment are characters of the name, and no dots
    have hpath := hchars c (Text.mem_of_mem_splitAt hs hc)
    have hdot : c ≠ '.' := fun hcdot => Text.not_mem_of_mem_splitAt hs (hcdot ▸ hc)
    simpa [TypePattern.isPathChar, hdot] using hpath

namespace TypePattern

theorem dimensions_succ (n : Nat) : dimensions (n + 1) = dimensions n ++ ['[', ']'] := by
  rw [dimensions, List.replicate_succ', List.flatten_append]
  rfl

/-- Dimensions are dropped from the end. -/
theorem reverse_eq_dropDimensions (s : List Char) :
    s.reverse = (dropDimensions s).1.reverse ++ dimensions (dropDimensions s).2 := by
  induction s using dropDimensions.induct with
  | case1 s ih =>
    rw [dropDimensions, dimensions_succ, ← List.append_assoc, ← ih]
    simp
  | case2 s hs =>
    rw [dropDimensions]
    · simp [dimensions]
    · exact hs

/-- Dimensions put behind a text are dropped together with those that it ends in. -/
theorem dropDimensions_append (s : List Char) (n : Nat) :
    dropDimensions (s ++ dimensions n).reverse =
      ((dropDimensions s.reverse).1, (dropDimensions s.reverse).2 + n) := by
  induction n with
  | zero => rw [dimensions, List.replicate_zero, List.flatten_nil, List.append_nil, Nat.add_zero]
  | succ n ih =>
    rw [dimensions_succ, ← List.append_assoc, List.reverse_append]
    show dropDimensions (']' :: '[' :: (s ++ dimensions n).reverse) = _
    rw [dropDimensions, ih, Nat.add_assoc]

/-- Without brackets at the end there is no dimension. -/
theorem dropDimensions_of_not_suffix {s : List Char} (h : ¬['[', ']'] <:+ s) :
    dropDimensions s.reverse = (s.reverse, 0) := by
  rw [dropDimensions]
  intro t ht
  exact h (List.reverse_prefix.mp ⟨t, ht.symm⟩)

/-- All of them are dropped. -/
theorem dropDimensions_reverse {name : List Char} (h : ']' ∉ name) (n : Nat) :
    dropDimensions (name ++ dimensions n).reverse = (name.reverse, n) := by
  have hsuffix : ¬['[', ']'] <:+ name := fun hsuffix => h (hsuffix.mem (by decide))
  rw [dropDimensions_append, dropDimensions_of_not_suffix hsuffix, Nat.zero_add]

/-- **The reader of patterns of types reads the grammar.** -/
theorem isSome_parse?_iff {text : List Char} :
    (parse? text).isSome = true ↔ IsTypePattern text := by
  by_cases hstar : text = ['*'] ∨ text = ['*', '.', '.', '*']
  · rw [parse?, if_pos hstar]
    refine iff_of_true rfl ?_
    rcases hstar with rfl | rfl
    · exact .star
    · exact .stars
  · have hread : (parse? text).isSome = true ↔
        IsDotted (dropDimensions (QualifiedName.dotted text).reverse).1.reverse := by
      rw [parse?, if_neg hstar, isDotted_iff, ← List.all_eq_true]
      dsimp only
      split
      · next hall =>
        rw [Option.isSome_map]
        exact (and_iff_right hall).symm
      · next hall => exact iff_of_false Bool.false_ne_true fun h => hall h.1
    rw [hread]
    constructor
    · intro hname
      refine @IsTypePattern.named _ _ (dropDimensions (QualifiedName.dotted text).reverse).2
        hname ?_
      rw [← reverse_eq_dropDimensions, List.reverse_reverse]
    · intro htext
      cases htext with
      | star => exact absurd (.inl rfl) hstar
      | stars => exact absurd (.inr rfl) hstar
      | @named _ name n hname htext =>
        -- the name has no bracket, so just the dimensions behind it are dropped
        have hbracket : ']' ∉ name := fun hmem => by
          have hpath := hname.isPathChar _ hmem
          revert hpath
          decide
        rw [htext, dropDimensions_reverse hbracket, List.reverse_reverse]
        exact hname

/-- What is read as a type is one. -/
theorem isTypePattern_of_parse? {text : List Char} {p : TypePattern} (h : parse? text = some p) :
    IsTypePattern text :=
  isSome_parse?_iff.mp (Option.isSome_of_eq_some h)

end TypePattern

instance : DecidablePred IsTypePattern := fun _ => decidable_of_iff _ TypePattern.isSome_parse?_iff

/-! ### Characters -/

theorem mem_of_mem_dimensions {n : Nat} {c : Char} (h : c ∈ dimensions n) : c = '[' ∨ c = ']' := by
  rw [dimensions, List.mem_flatten] at h
  obtain ⟨s, hs, hc⟩ := h
  obtain rfl := List.eq_of_mem_replicate hs
  simpa using hc

/-- What there is in a pattern of types besides word characters. -/
def typeMarks : List Char := ['*', '.', '$', '[', ']']

theorem IsTypePattern.madeOf {text : List Char} (h : IsTypePattern text) :
    Text.MadeOf typeMarks text := by
  cases h with
  | star => decide
  | stars => decide
  | @named _ name n hname htext =>
    intro c hc
    -- a `$` is no character of the dotted text, but all others are
    by_cases hdollar : c = '$'
    · simp [typeMarks, hdollar]
    · have hdotted : c ∈ name ++ dimensions n := by
        rw [← htext]
        exact List.mem_map.mpr ⟨c, hc, if_neg hdollar⟩
      rcases List.mem_append.mp hdotted with hmem | hmem
      · have hpath := hname.isPathChar c hmem
        simp only [TypePattern.isPathChar, Bool.or_eq_true, decide_eq_true_eq] at hpath
        rcases hpath with (hword | rfl) | rfl
        · exact .inl hword
        · simp [typeMarks]
        · simp [typeMarks]
      · rcases mem_of_mem_dimensions hmem with rfl | rfl <;> simp [typeMarks]

theorem IsTypePattern.not_blank {text : List Char} (h : IsTypePattern text) :
    ∀ c ∈ text, Text.isBlank c = false :=
  h.madeOf.not_blank (by decide)

theorem IsDotted.getLast? {name : List Char} (h : IsDotted name) :
    ∃ c, name.getLast? = some c ∧ c ≠ '.' := by
  induction h with
  | @segment s hs =>
    exact ⟨s.getLast hs.1, List.getLast?_eq_some_getLast hs.1,
      fun hdot => hs.dot_not_mem (hdot ▸ List.getLast_mem hs.1)⟩
  | dot hs ht ih =>
    obtain ⟨c, hc, hdot⟩ := ih
    exact ⟨c, by simp [List.getLast?_append, List.getLast?_cons, hc], hdot⟩
  | dots hs ht ih =>
    obtain ⟨c, hc, hdot⟩ := ih
    exact ⟨c, by simp [List.getLast?_append, List.getLast?_cons, hc], hdot⟩

/-- A pattern of types has a last character, and this is no dot. -/
theorem IsTypePattern.getLast? {text : List Char} (h : IsTypePattern text) :
    ∃ c, text.getLast? = some c ∧ c ≠ '.' := by
  cases h with
  | star => exact ⟨'*', rfl, by decide⟩
  | stars => exact ⟨'*', rfl, by decide⟩
  | @named _ name n hname htext =>
    have hlast : ∃ d, (QualifiedName.dotted text).getLast? = some d ∧ d ≠ '.' := by
      rw [htext]
      cases n with
      | zero => simpa [dimensions] using hname.getLast?
      | succ n =>
        refine ⟨']', ?_, by decide⟩
        rw [TypePattern.dimensions_succ, ← List.append_assoc, List.getLast?_append]
        rfl
    obtain ⟨d, hd, hdot⟩ := hlast
    rw [QualifiedName.dotted, List.getLast?_map] at hd
    obtain ⟨c, hc, rfl⟩ := Option.map_eq_some_iff.mp hd
    refine ⟨c, hc, fun hcdot => hdot ?_⟩
    rw [hcdot]
    rfl

theorem IsTypePattern.ne_append_dot {text : List Char} (h : IsTypePattern text) (s : List Char) :
    text ≠ s ++ ['.'] := by
  rintro rfl
  obtain ⟨c, hlast, hc⟩ := h.getLast?
  rw [List.getLast?_append] at hlast
  exact hc (Option.some.inj hlast).symm

theorem IsTypePattern.ne_nil {text : List Char} (h : IsTypePattern text) : text ≠ [] := by
  rintro rfl
  obtain ⟨c, hc, -⟩ := h.getLast?
  cases hc

end Lossless.Java
