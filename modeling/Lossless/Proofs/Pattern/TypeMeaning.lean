import Lossless.Proofs.Pattern.TypeGrammar

/-!
# What patterns of types mean

A signature is compared with a pattern of types by cutting both at their dots and following the
steps of the one along the segments of the other. Here it is said on the texts themselves which
names a dotted pattern stands for (`Lossless.Java.IsNameOf`), part by part and dot by dot, and
this is shown to be what is compared (`Lossless.Java.TypePattern.accepts_iff`).

Two dots of a pattern are one dot of the name, or else a dot in front and one behind each of the
segments that are skipped. So a skipped segment must not be empty, or the name could have two
dots in a row where the pattern has two. Stars do not reach across dots: that is why the parts of
the name are found by cutting it at all of its dots.
-/

namespace Lossless.Java

/-! ### The names that a pattern stands for -/

/-- The texts that a part of a pattern stands for. A star stands for characters that are no dots,
and any other character for itself. -/
inductive IsPartOf : List Char → List Char → Prop
  /-- Nothing stands for nothing. -/
  | nil : IsPartOf [] []
  /-- A star stands for a run of characters, which may be empty. -/
  | star {part run s : List Char} (hrun : '.' ∉ run) (h : IsPartOf part s) :
      IsPartOf ('*' :: part) (run ++ s)
  /-- Another character stands for itself. -/
  | char {part s : List Char} {c : Char} (hc : c ≠ '*') (h : IsPartOf part s) :
      IsPartOf (c :: part) (c :: s)

/-- Segments with a dot behind each. -/
def withDots (segments : List (List Char)) : List Char := segments.flatMap (· ++ ['.'])

/-- The names that a dotted pattern stands for. -/
inductive IsNameOf : List Char → List Char → Prop
  /-- A part alone. -/
  | segment {part s : List Char} (hpart : IsSegment part) (hs : IsPartOf part s) : IsNameOf part s
  /-- One dot stands for a dot. -/
  | dot {part s rest t : List Char} (hpart : IsSegment part) (hs : IsPartOf part s)
      (ht : IsNameOf rest t) : IsNameOf (part ++ '.' :: rest) (s ++ '.' :: t)
  /-- Two dots stand for a dot and any number of segments, each with its dot. -/
  | dots {part s rest t : List Char} {skipped : List (List Char)} (hpart : IsSegment part)
      (hs : IsPartOf part s) (hskipped : ∀ x ∈ skipped, x ≠ [] ∧ '.' ∉ x) (ht : IsNameOf rest t) :
      IsNameOf (part ++ '.' :: '.' :: rest) (s ++ '.' :: (withDots skipped ++ t))

/-- A pattern of a single part without stars that is no keyword of a primitive type. -/
def IsUnqualified (name : List Char) : Prop :=
  IsSegment name ∧ '*' ∉ name ∧ String.ofList name ∉ TypePattern.primitiveKeywords

/-- The package of the classes that need no qualification, with its dots. -/
def langPrefix : List Char := ['j', 'a', 'v', 'a', '.', 'l', 'a', 'n', 'g', '.']

/-! ### Parts -/

/-- A part accepts a segment as a glob does, if there is no dot in it. -/
theorem isPartOf_iff {part s : List Char} (hpart : '.' ∉ part) :
    IsPartOf part s ↔ Text.globMatches (fun _ => true) part s = true ∧ '.' ∉ s := by
  constructor
  · intro h
    induction h with
    | nil => exact ⟨rfl, List.not_mem_nil⟩
    | star hrun _ ih =>
      obtain ⟨hmatches, hdot⟩ := ih (List.not_mem_of_not_mem_cons hpart)
      refine ⟨Text.globMatches_star_iff.mpr ⟨_, _, rfl, fun _ _ => rfl, hmatches⟩, ?_⟩
      rw [List.mem_append, not_or]
      exact ⟨hrun, hdot⟩
    | @char part s c hc _ ih =>
      obtain ⟨hmatches, hdot⟩ := ih (List.not_mem_of_not_mem_cons hpart)
      refine ⟨?_, ?_⟩
      · simpa [Text.globMatches, Text.globStep, hc] using hmatches
      · rw [List.mem_cons, not_or]
        exact ⟨List.ne_of_not_mem_cons hpart, hdot⟩
  · rintro ⟨hmatches, hdot⟩
    induction part generalizing s with
    | nil =>
      obtain rfl : s = [] := by simpa [Text.globMatches] using hmatches
      exact .nil
    | cons c part ih =>
      have hrest := List.not_mem_of_not_mem_cons hpart
      by_cases hc : c = '*'
      · rw [hc] at hmatches ⊢
        obtain ⟨run, rest, rfl, -, hmatches⟩ := Text.globMatches_star_iff.mp hmatches
        rw [List.mem_append, not_or] at hdot
        exact .star hdot.1 (ih hrest hmatches hdot.2)
      · cases s with
        | nil => simp [Text.globMatches, Text.globStep, hc] at hmatches
        | cons d s =>
          obtain ⟨rfl, htail⟩ : d = c ∧ Text.globMatches (fun _ => true) part s = true := by
            simpa [Text.globMatches, Text.globStep, hc] using hmatches
          exact .char hc (ih hrest htail (List.not_mem_of_not_mem_cons hdot))

theorem IsPartOf.dot_not_mem {part s : List Char} (h : IsPartOf part s) (hpart : '.' ∉ part) :
    '.' ∉ s := ((isPartOf_iff hpart).mp h).2

/-! ### Names -/

/-- Segments that are skipped stand in front, with their dots. -/
theorem joinWith_append {skipped segments : List (List Char)} (h : segments ≠ []) :
    Text.joinWith '.' (skipped ++ segments) = withDots skipped ++ Text.joinWith '.' segments := by
  induction skipped with
  | nil => rfl
  | cons x skipped ih =>
    have hne : skipped ++ segments ≠ [] := List.append_ne_nil_of_right_ne_nil _ h
    obtain ⟨y, rest, hrest⟩ := List.exists_cons_of_ne_nil hne
    rw [List.cons_append, hrest, Text.joinWith, ← hrest, ih, withDots, withDots, List.flatMap_cons]
    · simp
    · exact List.cons_ne_nil _ _

theorem joinWith_cons {x : List Char} {segments : List (List Char)} (h : segments ≠ []) :
    Text.joinWith '.' (x :: segments) = x ++ '.' :: Text.joinWith '.' segments := by
  have hjoin : Text.joinWith '.' ([x] ++ segments) = withDots [x] ++ Text.joinWith '.' segments :=
    joinWith_append h
  simpa [withDots] using hjoin

/-- A name comes apart into the segments that are skipped and the others. -/
theorem splitAt_withDots {skipped : List (List Char)} (hskipped : ∀ x ∈ skipped, '.' ∉ x)
    (t : List Char) :
    Text.splitAt '.' (withDots skipped ++ t) = skipped ++ Text.splitAt '.' t := by
  induction skipped with
  | nil => rfl
  | cons x skipped ih =>
    obtain ⟨hx, hskipped⟩ := List.forall_mem_cons.mp hskipped
    rw [withDots, List.flatMap_cons, List.append_assoc, List.append_assoc, List.singleton_append,
      Text.splitAt_append_cons hx, ← withDots, ih hskipped, List.cons_append]

namespace PathStep

/-- A step for a segment takes one that its glob accepts. -/
theorem matchSegments_segment (glob : List Char) (path : List PathStep)
    (segments : List (List Char)) :
    matchSegments (.segment glob :: path) segments = true ↔
      ∃ s rest, segments = s :: rest ∧ Text.globMatches (fun _ => true) glob s = true ∧
        matchSegments path rest = true := by
  cases segments with
  | nil => simp [matchSegments, step]
  | cons s rest =>
    rw [matchSegments, List.map_cons, step, Text.Step.follows_one_cons, Bool.and_eq_true]
    constructor
    · exact fun h => ⟨s, rest, rfl, h⟩
    · rintro ⟨_, _, heq, h⟩
      obtain ⟨rfl, rfl⟩ := List.cons.inj heq
      exact h

/-- A step that skips takes any number of segments that are not empty. -/
theorem matchSegments_skip (path : List PathStep) (segments : List (List Char)) :
    matchSegments (.skip :: path) segments = true ↔
      ∃ skipped rest, segments = skipped ++ rest ∧ (∀ x ∈ skipped, x ≠ []) ∧
        matchSegments path rest = true := by
  simp [matchSegments, step, Text.Step.follows_run_iff]

/-- A path goes along no fewer than one segment. -/
theorem ne_nil_of_matchSegments {segments : List (List Char)} {pieces : List (List Char)}
    {path : List PathStep} (hpath : ofSegments? pieces = some path)
    (h : matchSegments path segments = true) : segments ≠ [] := by
  rintro rfl
  induction pieces using ofSegments?.induct generalizing path with
  | case1 => cases hpath
  | case2 rest => cases hpath
  | case3 s hs =>
    rw [ofSegments?_single hs] at hpath
    obtain rfl := Option.some.inj hpath
    cases h
  | case4 s rest hs _ =>
    rw [ofSegments?_dots hs] at hpath
    obtain ⟨path, -, rfl⟩ := Option.map_eq_some_iff.mp hpath
    cases h
  | case5 s rest hs hne hskip _ =>
    obtain ⟨t, rest, rfl⟩ := List.exists_cons_of_ne_nil hne
    rw [ofSegments?_dot hs fun ht => hskip rest (ht ▸ rfl)] at hpath
    obtain ⟨path, -, rfl⟩ := Option.map_eq_some_iff.mp hpath
    cases h

/-- What a path goes along is a name that the pattern stands for. -/
theorem isNameOf_joinWith {pieces segments : List (List Char)} {path : List PathStep}
    (hpieces : ∀ s ∈ pieces, Text.MadeOf ['*'] s) (hpath : ofSegments? pieces = some path)
    (hsegments : ∀ s ∈ segments, '.' ∉ s) (h : matchSegments path segments = true) :
    IsNameOf (Text.joinWith '.' pieces) (Text.joinWith '.' segments) := by
  have hpartOf : ∀ {part s : List Char}, IsSegment part → '.' ∉ s →
      Text.globMatches (fun _ => true) part s = true → IsPartOf part s :=
    fun hpart hs hmatches => (isPartOf_iff hpart.dot_not_mem).mpr ⟨hmatches, hs⟩
  induction pieces using ofSegments?.induct generalizing path segments with
  | case1 => cases hpath
  | case2 rest => cases hpath
  | case3 part hne =>
    have hpart : IsSegment part := ⟨hne, hpieces part List.mem_cons_self⟩
    rw [ofSegments?_single hne] at hpath
    obtain rfl := Option.some.inj hpath
    obtain ⟨s, rest, rfl, hmatches, hrest⟩ := (matchSegments_segment _ _ _).mp h
    obtain rfl : rest = [] := by simpa [matchSegments] using hrest
    exact .segment hpart (hpartOf hpart (hsegments s List.mem_cons_self) hmatches)
  | case4 part pieces hne ih =>
    obtain ⟨hchars, -, hpieces⟩ := by simpa only [List.forall_mem_cons] using hpieces
    rw [ofSegments?_dots hne] at hpath
    obtain ⟨later, hlater, rfl⟩ := Option.map_eq_some_iff.mp hpath
    obtain ⟨s, rest, rfl, hmatches, hrest⟩ := (matchSegments_segment _ _ _).mp h
    obtain ⟨skipped, rest, rfl, hskipped, hrest⟩ := (matchSegments_skip _ _).mp hrest
    obtain ⟨hs, hsegments⟩ := List.forall_mem_cons.mp hsegments
    obtain ⟨hdots, hsegments⟩ := List.forall_mem_append.mp hsegments
    have hpiecesNe : pieces ≠ [] := by
      rintro rfl
      cases hlater
    have hrestNe := ne_nil_of_matchSegments hlater hrest
    rw [joinWith_cons (List.cons_ne_nil _ _), Text.joinWith_nil_cons _ hpiecesNe,
      joinWith_cons (List.append_ne_nil_of_right_ne_nil _ hrestNe), joinWith_append hrestNe]
    exact .dots ⟨hne, hchars⟩ (hpartOf ⟨hne, hchars⟩ hs hmatches)
      (fun x hx => ⟨hskipped x hx, hdots x hx⟩) (ih hpieces hlater hsegments hrest)
  | case5 part pieces hne hpiecesNe hskip ih =>
    obtain ⟨hchars, hpieces⟩ := List.forall_mem_cons.mp hpieces
    obtain ⟨next, pieces, rfl⟩ := List.exists_cons_of_ne_nil hpiecesNe
    rw [ofSegments?_dot hne fun hnext => hskip pieces (hnext ▸ rfl)] at hpath
    obtain ⟨later, hlater, rfl⟩ := Option.map_eq_some_iff.mp hpath
    obtain ⟨s, rest, rfl, hmatches, hrest⟩ := (matchSegments_segment _ _ _).mp h
    obtain ⟨hs, hsegments⟩ := List.forall_mem_cons.mp hsegments
    rw [joinWith_cons hpiecesNe, joinWith_cons (ne_nil_of_matchSegments hlater hrest)]
    exact .dot ⟨hne, hchars⟩ (hpartOf ⟨hne, hchars⟩ hs hmatches) (ih hpieces hlater hsegments hrest)

end PathStep

theorem IsNameOf.isDotted {name s : List Char} (h : IsNameOf name s) : IsDotted name := by
  induction h with
  | segment hpart _ => exact .segment hpart
  | dot hpart _ _ ih => exact .dot hpart ih
  | dots hpart _ _ _ ih => exact .dots hpart ih

theorem IsDotted.bracket_not_mem {name : List Char} (h : IsDotted name) : ']' ∉ name := by
  intro hmem
  have hpath := h.isPathChar _ hmem
  revert hpath
  decide

/-- The path of a pattern goes along the names that it stands for. -/
theorem IsNameOf.matchSegments {name s : List Char} (h : IsNameOf name s) {path : List PathStep}
    (hpath : PathStep.ofSegments? (Text.splitAt '.' name) = some path) :
    PathStep.matchSegments path (Text.splitAt '.' s) = true := by
  have hmatches : ∀ {part s : List Char}, IsSegment part → IsPartOf part s →
      Text.globMatches (fun _ => true) part s = true ∧ '.' ∉ s :=
    fun hpart hs => (isPartOf_iff hpart.dot_not_mem).mp hs
  induction h generalizing path with
  | segment hpart hs =>
    obtain ⟨hglob, hdot⟩ := hmatches hpart hs
    rw [Text.splitAt_of_not_mem hpart.dot_not_mem, PathStep.ofSegments?_single hpart.1] at hpath
    obtain rfl := Option.some.inj hpath
    rw [Text.splitAt_of_not_mem hdot, PathStep.matchSegments_segment]
    exact ⟨_, _, rfl, hglob, rfl⟩
  | dot hpart hs ht ih =>
    obtain ⟨hglob, hdot⟩ := hmatches hpart hs
    obtain ⟨⟨next, pieces, hsplit, hnext⟩, -⟩ := PathStep.isSome_ofSegments?_splitAt ht.isDotted
    rw [Text.splitAt_append_cons hpart.dot_not_mem, hsplit,
      PathStep.ofSegments?_dot hpart.1 hnext, ← hsplit] at hpath
    obtain ⟨later, hlater, rfl⟩ := Option.map_eq_some_iff.mp hpath
    rw [Text.splitAt_append_cons hdot, PathStep.matchSegments_segment]
    exact ⟨_, _, rfl, hglob, ih hlater⟩
  | dots hpart hs hskipped ht ih =>
    obtain ⟨hglob, hdot⟩ := hmatches hpart hs
    rw [Text.splitAt_append_cons hpart.dot_not_mem, Text.splitAt, if_pos rfl,
      PathStep.ofSegments?_dots hpart.1] at hpath
    obtain ⟨later, hlater, rfl⟩ := Option.map_eq_some_iff.mp hpath
    rw [Text.splitAt_append_cons hdot, splitAt_withDots fun x hx => (hskipped x hx).2,
      PathStep.matchSegments_segment]
    refine ⟨_, _, rfl, hglob, ?_⟩
    rw [PathStep.matchSegments_skip]
    exact ⟨_, _, rfl, fun x hx => (hskipped x hx).1, ih hlater⟩

/-- **A name follows the path of a pattern just if the pattern stands for it.** -/
theorem matchSegments_splitAt_iff {name s : List Char} {path : List PathStep}
    (hname : IsDotted name) (hpath : PathStep.ofSegments? (Text.splitAt '.' name) = some path) :
    PathStep.matchSegments path (Text.splitAt '.' s) = true ↔ IsNameOf name s := by
  refine ⟨fun h => ?_, fun h => h.matchSegments hpath⟩
  rw [← Text.joinWith_splitAt '.' name, ← Text.joinWith_splitAt '.' s]
  refine PathStep.isNameOf_joinWith (fun part hpart c hc => ?_) hpath
    (fun x hx => Text.not_mem_of_mem_splitAt hx) h
  have hchar := hname.isPathChar c (Text.mem_of_mem_splitAt hpart hc)
  have hdot : c ≠ '.' := fun hdot => Text.not_mem_of_mem_splitAt hpart (hdot ▸ hc)
  simpa [TypePattern.isPathChar, hdot] using hchar

namespace TypePattern

/-- The check for a pattern that is tried in `java.lang`, too: a single part without stars that is
no keyword. -/
theorem isUnqualified_iff {name : List Char} (hname : IsDotted name) :
    isUnqualified name = true ↔ IsUnqualified name := by
  have hsegment : '.' ∉ name ↔ IsSegment name := by
    refine ⟨fun hdot => ?_, IsSegment.dot_not_mem⟩
    cases hname with
    | segment hs => exact hs
    | dot => simp at hdot
    | dots => simp at hdot
  have hall : (name.all fun c => c ≠ '.' && c ≠ '*') = true ↔ '.' ∉ name ∧ '*' ∉ name := by
    rw [List.all_eq_true]
    simp only [Bool.and_eq_true, decide_eq_true_eq, imp_and, forall_and]
    exact and_congr ⟨fun h hmem => h _ hmem rfl, fun h c hc heq => h (heq ▸ hc)⟩
      ⟨fun h hmem => h _ hmem rfl, fun h c hc heq => h (heq ▸ hc)⟩
  rw [isUnqualified, Bool.and_eq_true, hall, decide_eq_true_eq, hsegment, and_assoc]
  rfl

/-- Where a name is a class of `java.lang`, its first two segments are cut off. -/
theorem take_splitAt_eq_lang_iff {s : List Char} {P : List (List Char) → Prop} (hP : ¬P []) :
    (Text.splitAt '.' s).take 2 = [['j', 'a', 'v', 'a'], ['l', 'a', 'n', 'g']] ∧
        P ((Text.splitAt '.' s).drop 2) ↔
      ∃ rest, s = langPrefix ++ rest ∧ P (Text.splitAt '.' rest) := by
  constructor
  · rintro ⟨htake, hdrop⟩
    have hsplit : Text.splitAt '.' s =
        ['j', 'a', 'v', 'a'] :: ['l', 'a', 'n', 'g'] :: (Text.splitAt '.' s).drop 2 := by
      have happend := List.take_append_drop 2 (Text.splitAt '.' s)
      rw [htake] at happend
      exact happend.symm
    have hne : (Text.splitAt '.' s).drop 2 ≠ [] := fun hnil => hP (hnil ▸ hdrop)
    refine ⟨Text.joinWith '.' ((Text.splitAt '.' s).drop 2), ?_, ?_⟩
    · have hjoin := Text.joinWith_splitAt '.' s
      rw [hsplit, joinWith_cons (List.cons_ne_nil _ _), joinWith_cons hne] at hjoin
      exact hjoin.symm
    · rwa [Text.splitAt_joinWith hne fun x hx =>
        Text.not_mem_of_mem_splitAt (List.mem_of_mem_drop hx)]
  · rintro ⟨rest, rfl, h⟩
    exact ⟨rfl, h⟩

/-- Behind the package `java.lang` there is a name of its own. -/
theorem matchName_iff {path : List PathStep} {orInLang : Bool} {name s : List Char}
    (hname : IsDotted name) (hpath : PathStep.ofSegments? (Text.splitAt '.' name) = some path) :
    matchName path orInLang (Text.splitAt '.' s) = true ↔
      IsNameOf name s ∨ orInLang = true ∧ ∃ rest, s = langPrefix ++ rest ∧ IsNameOf name rest := by
  have hnil : ¬PathStep.matchSegments path [] = true := fun h =>
    PathStep.ne_nil_of_matchSegments hpath h rfl
  rw [matchName, Bool.or_eq_true, matchSegments_splitAt_iff hname hpath, Bool.and_eq_true,
    Bool.and_eq_true, beq_iff_eq, and_assoc,
    take_splitAt_eq_lang_iff (P := (PathStep.matchSegments path · = true)) hnil]
  simp only [matchSegments_splitAt_iff hname hpath]

theorem reverse_dimensions_succ (n : Nat) :
    (dimensions (n + 1)).reverse = ']' :: '[' :: (dimensions n).reverse := by
  rw [dimensions_succ, List.reverse_append]
  rfl

/-- Dimensions are dropped if they are there. -/
theorem dropDimensions?_eq_some_iff {n : Nat} {s t : List Char} :
    dropDimensions? n s = some t ↔ s = (dimensions n).reverse ++ t := by
  induction n, s using dropDimensions?.induct with
  | case1 s => simp [dropDimensions?, dimensions]
  | case2 n s ih =>
    rw [dropDimensions?, ih, reverse_dimensions_succ, List.cons_append, List.cons_append,
      List.cons_inj_right, List.cons_inj_right]
  | case3 n s hs =>
    rw [dropDimensions?, reverse_dimensions_succ]
    · simpa using hs _
    · exact hs

/-- A type accepts a name with as many dimensions, of which the path accepts the segments. -/
theorem accepts_named_iff {path : List PathStep} {orInLang : Bool} {n : Nat} {s : List Char} :
    (named path orInLang n).accepts s = true ↔
      ∃ t, s = t ++ dimensions n ∧ matchName path orInLang (Text.splitAt '.' t) = true := by
  have hdrop : ∀ t : List Char,
      dropDimensions? n s.reverse = some t.reverse ↔ s = t ++ dimensions n := fun t => by
    rw [dropDimensions?_eq_some_iff, ← List.reverse_append, List.reverse_inj]
  rw [accepts]
  cases h : dropDimensions? n s.reverse with
  | none =>
    refine iff_of_false Bool.false_ne_true ?_
    rintro ⟨t, hs, -⟩
    rw [(hdrop t).mpr hs] at h
    cases h
  | some reversed =>
    have hs := (hdrop reversed.reverse).mp (by rw [h, List.reverse_reverse])
    constructor
    · exact fun hmatch => ⟨_, hs, hmatch⟩
    · rintro ⟨t, ht, hmatch⟩
      obtain rfl : reversed.reverse = t := List.append_cancel_right (hs.symm.trans ht)
      exact hmatch

/-- A pattern that is not one of the two special ones is read into its path. -/
theorem parse?_named {text : List Char} {p : TypePattern} (hp : parse? text = some p)
    (hstar : ¬(text = ['*'] ∨ text = ['*', '.', '.', '*'])) :
    ∃ name path n, IsDotted name ∧ QualifiedName.dotted text = name ++ dimensions n ∧
      PathStep.ofSegments? (Text.splitAt '.' name) = some path ∧
      p = .named path (isUnqualified name) n := by
  rw [parse?, if_neg hstar] at hp
  dsimp only at hp
  split at hp
  · next hall =>
    obtain ⟨path, hpath, rfl⟩ := Option.map_eq_some_iff.mp hp
    refine ⟨_, path, _, ?_, ?_, hpath, rfl⟩
    · exact isDotted_iff.mpr ⟨List.all_eq_true.mp hall, Option.isSome_of_eq_some hpath⟩
    · rw [← reverse_eq_dropDimensions, List.reverse_reverse]
  · cases hp

/-- **What a pattern of types means.** The patterns `*` and `*..*` accept every line. Any other is
a dotted name with array dimensions, once a `$` is read as a dot, and it accepts the names that
the dotted name stands for, with the same dimensions; and if it is a single part without stars,
and no keyword, these names in the package `java.lang`, too. -/
theorem accepts_iff {text : List Char} {p : TypePattern} (hp : parse? text = some p)
    {s : List Char} (hs : '\n' ∉ s) :
    p.accepts s = true ↔
      text = ['*'] ∨ text = ['*', '.', '.', '*'] ∨
        ∃ name n t, QualifiedName.dotted text = name ++ dimensions n ∧ s = t ++ dimensions n ∧
          (IsNameOf name t ∨
            IsUnqualified name ∧ ∃ rest, t = langPrefix ++ rest ∧ IsNameOf name rest) := by
  rw [← or_assoc]
  by_cases hstar : text = ['*'] ∨ text = ['*', '.', '.', '*']
  · rw [parse?, if_pos hstar] at hp
    obtain rfl := Option.some.inj hp
    refine iff_of_true ?_ (.inl hstar)
    rw [accepts, List.all_eq_true]
    exact fun c hc => decide_eq_true fun heq => hs (heq ▸ hc)
  · obtain ⟨name, path, n, hname, htext, hpath, rfl⟩ := parse?_named hp hstar
    rw [or_iff_right hstar, accepts_named_iff]
    simp only [matchName_iff hname hpath, isUnqualified_iff hname]
    constructor
    · rintro ⟨t, hs, h⟩
      exact ⟨name, n, t, htext, hs, h⟩
    · rintro ⟨name', n', t, htext', hs, h⟩
      -- there is one way only to take the dimensions off
      have hname' : IsDotted name' := by
        rcases h with h | ⟨-, rest, -, h⟩
        · exact h.isDotted
        · exact h.isDotted
      have hdrop := dropDimensions_reverse hname.bracket_not_mem n
      rw [← htext, htext', dropDimensions_reverse hname'.bracket_not_mem, Prod.mk.injEq,
        List.reverse_inj] at hdrop
      obtain ⟨rfl, rfl⟩ := hdrop
      exact ⟨t, hs, h⟩

/-- Two segments are skipped, a star stands for part of one, and one dimension is left to it. -/
theorem accepts_iff_skipped :
    parse? ['a', '.', '.', 'b', '*', '[', ']'] =
        some (.named [.segment ['a'], .skip, .segment ['b', '*']] false 1) ∧
      '\n' ∉ ['a', '.', 'x', '.', 'y', '.', 'b', 'c', '[', ']'] ∧
      (named [.segment ['a'], .skip, .segment ['b', '*']] false 1).accepts
        ['a', '.', 'x', '.', 'y', '.', 'b', 'c', '[', ']'] = true := by
  have hp : parse? ['a', '.', '.', 'b', '*', '[', ']'] =
      some (.named [.segment ['a'], .skip, .segment ['b', '*']] false 1) := by decide
  have hs : '\n' ∉ ['a', '.', 'x', '.', 'y', '.', 'b', 'c', '[', ']'] := by decide
  have ha : IsSegment ['a'] := ⟨by decide, by decide⟩
  have hb : IsSegment ['b', '*'] := ⟨by decide, by decide⟩
  have hskipped : ∀ x ∈ [['x'], ['y']], x ≠ [] ∧ '.' ∉ x := by decide
  have hrun : '.' ∉ ['c'] := by decide
  have hname : IsNameOf ['a', '.', '.', 'b', '*'] ['a', '.', 'x', '.', 'y', '.', 'b', 'c'] :=
    .dots ha (.char (by decide) .nil) hskipped
      (.segment hb (.char (by decide) (.star hrun .nil)))
  exact ⟨hp, hs, (accepts_iff hp hs).mpr (.inr (.inr ⟨_, 1, _, rfl, rfl, .inl hname⟩))⟩

end TypePattern

end Lossless.Java
