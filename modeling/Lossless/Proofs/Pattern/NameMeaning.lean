import Lossless.Proofs.Pattern.NameOnly

/-!
# What patterns of names mean

A pattern of names is a glob, and a name is found to match it by trying, at each star, how many
characters to pass over. Here it is said without trying. Put a run of characters in place of each
star (`Lossless.Text.withRuns`): the names that arise in this way are the names that the pattern
accepts (`Lossless.Java.NamePattern.accepts_iff_exists_runs`).

The runs are made of the characters of names, and so is the rest of a pattern. The pointed brackets
around the name of all constructors are no such characters. So constructors are kept apart from
methods: the pattern that is their name accepts nothing else, and no other pattern accepts them.
Which name it is that counts depends on the attribution of a call
(`Lossless.Java.Matcher.comparedName`), but this is so for either.
-/

namespace Lossless

namespace Text

/-- A glob with runs of characters in place of its stars, from the first to the last. -/
def withRuns : List Char → List (List Char) → List Char
  | [], _ => []
  | c :: glob, runs =>
    if c = '*' then runs.headD [] ++ withRuns glob runs.tail else c :: withRuns glob runs

theorem withRuns_star (glob run : List Char) (runs : List (List Char)) :
    withRuns ('*' :: glob) (run :: runs) = run ++ withRuns glob runs := rfl

theorem withRuns_char {c : Char} (hc : c ≠ '*') (glob : List Char) (runs : List (List Char)) :
    withRuns (c :: glob) runs = c :: withRuns glob runs := if_neg hc

/-- A character of the result stands in the glob or in one of the runs. -/
theorem mem_of_mem_withRuns {glob : List Char} {runs : List (List Char)} {c : Char}
    (h : c ∈ withRuns glob runs) : c ∈ glob ∨ ∃ run ∈ runs, c ∈ run := by
  induction glob generalizing runs with
  | nil => cases h
  | cons d glob ih =>
    by_cases hd : d = '*'
    · rw [hd] at h ⊢
      cases runs with
      | nil =>
        have hrest : c ∈ withRuns glob [] := h
        exact (ih hrest).imp_left (List.mem_cons_of_mem _)
      | cons run runs =>
        rw [withRuns_star, List.mem_append] at h
        rcases h with hrun | hrest
        · exact .inr ⟨run, List.mem_cons_self, hrun⟩
        · refine (ih hrest).imp (List.mem_cons_of_mem _) ?_
          rintro ⟨run', hmem, hc⟩
          exact ⟨run', List.mem_cons_of_mem _ hmem, hc⟩
    · rw [withRuns_char hd, List.mem_cons] at h
      rcases h with rfl | hrest
      · exact .inl List.mem_cons_self
      · exact (ih hrest).imp_left (List.mem_cons_of_mem _)

/-- **A glob matches the texts that arise from it by putting runs in place of its stars.** -/
theorem globMatches_iff_exists_runs {p : Char → Bool} {glob s : List Char} :
    globMatches p glob s = true ↔
      ∃ runs : List (List Char), runs.length = glob.count '*' ∧
        (∀ run ∈ runs, ∀ c ∈ run, p c = true) ∧ s = withRuns glob runs := by
  induction glob generalizing s with
  | nil =>
    constructor
    · intro h
      exact ⟨[], rfl, by simp, by simpa [globMatches, withRuns] using h⟩
    · rintro ⟨runs, -, -, rfl⟩
      rfl
  | cons d glob ih =>
    by_cases hd : d = '*'
    · rw [hd, globMatches_star_iff, List.count_cons_self]
      constructor
      · rintro ⟨run, rest, rfl, hrun, hrest⟩
        obtain ⟨runs, hlength, hruns, rfl⟩ := ih.mp hrest
        exact ⟨run :: runs, congrArg (· + 1) hlength, List.forall_mem_cons.mpr ⟨hrun, hruns⟩, rfl⟩
      · rintro ⟨runs, hlength, hruns, rfl⟩
        cases runs with
        | nil => cases hlength
        | cons run runs =>
          obtain ⟨hrun, hruns⟩ := List.forall_mem_cons.mp hruns
          exact ⟨run, _, rfl, hrun, ih.mpr ⟨runs, Nat.succ.inj hlength, hruns, rfl⟩⟩
    · rw [List.count_cons_of_ne hd]
      cases s with
      | nil =>
        refine iff_of_false (by simp [globMatches, globStep, hd]) ?_
        rintro ⟨runs, -, -, hs⟩
        rw [withRuns_char hd] at hs
        cases hs
      | cons e s =>
        have hmatch : globMatches p (d :: glob) (e :: s) = true ↔
            e = d ∧ globMatches p glob s = true := by
          simp [globMatches, globStep, hd]
        rw [hmatch, ih]
        constructor
        · rintro ⟨rfl, runs, hlength, hruns, rfl⟩
          exact ⟨runs, hlength, hruns, (withRuns_char hd glob runs).symm⟩
        · rintro ⟨runs, hlength, hruns, hs⟩
          rw [withRuns_char hd] at hs
          obtain ⟨rfl, rfl⟩ := List.cons.inj hs
          exact ⟨rfl, runs, hlength, hruns, rfl⟩

end Text

namespace Java

/-! ### Names -/

namespace NamePattern

variable {item : List Char} {q : NamePattern}

/-- A pattern of names is the name of all constructors, or it is read as it is written. -/
theorem parse?_eq_some (h : parse? item = some q) :
    item = MethodType.constructorName.toList ∧ q = constructors ∨
      item ≠ MethodType.constructorName.toList ∧ Text.MadeOf ['$', '*'] item ∧ q = form item := by
  have hname := isSome_parse?_iff.mp (Option.isSome_of_eq_some h)
  rw [parse?] at h
  split at h
  · next hitem => exact .inl ⟨hitem, (Option.some.inj h).symm⟩
  · next hitem =>
    split at h
    · exact .inr ⟨hitem, (hname.resolve_left hitem).2, (Option.some.inj h).symm⟩
    · cases h

/-- The pattern for constructors accepts their name only. -/
theorem accepts_constructors_iff {name : String} :
    constructors.accepts name = true ↔ name = MethodType.constructorName :=
  decide_eq_true_iff

/-- A form accepts what comes of runs in the places of its stars. -/
theorem accepts_form_iff {glob : List Char} {name : String} :
    (form glob).accepts name = true ↔
      ∃ runs : List (List Char), runs.length = glob.count '*' ∧
        (∀ run ∈ runs, Text.MadeOf ['$'] run) ∧ name.toList = Text.withRuns glob runs := by
  have hchar : ∀ c, isNameChar c = true ↔ Text.isWordChar c = true ∨ c ∈ ['$'] := by
    simp [isNameChar]
  rw [accepts, Text.globMatches_iff_exists_runs]
  simp only [hchar, Text.MadeOf]

/-- **Constructors are kept apart.** Of the patterns that accept the name of all constructors
there is but one, and it accepts nothing else. -/
theorem eq_constructorName_iff (h : parse? item = some q) {name : String}
    (haccepts : q.accepts name = true) :
    name = MethodType.constructorName ↔ item = MethodType.constructorName.toList := by
  rcases parse?_eq_some h with ⟨hitem, rfl⟩ | ⟨hitem, hchars, rfl⟩
  · exact iff_of_true (accepts_constructors_iff.mp haccepts) hitem
  · refine iff_of_false ?_ hitem
    rintro rfl
    obtain ⟨runs, -, hruns, hname⟩ := accepts_form_iff.mp haccepts
    have hbracket : '<' ∈ Text.withRuns item runs := hname ▸ by decide
    rcases Text.mem_of_mem_withRuns hbracket with hmem | ⟨run, hrun, hmem⟩
    · exact hchars.not_mem (by decide) (by decide) hmem
    · exact (hruns run hrun).not_mem (by decide) (by decide) hmem

end NamePattern

/-! ### Calls -/

namespace Matcher

/-- The name of a call that is compared with the pattern: that of the attributed method, except if
none is attributed, or if the matcher goes by the name because a parameter is unknown. -/
def comparedName (m : Matcher) (c : Call) : String :=
  match c.methodType with
  | some type =>
    if type.parameterTypes.any (·.isUnknown) && m.fallback = .nameOnly then c.name else type.name
  | none => c.name

/-- Calls that are accepted have a name that is. -/
theorem accepts_comparedName {m : Matcher} {c : Call} (h : m.acceptsCall c = true) :
    m.pattern.name.accepts (m.comparedName c) = true := by
  have hname : ∀ {n}, m.acceptsName c.name n = true → m.pattern.name.accepts c.name = true := by
    intro n hn
    rw [acceptsName, Bool.and_eq_true, Bool.and_eq_true] at hn
    exact hn.1.2
  rw [acceptsCall] at h
  rw [comparedName]
  cases htype : c.methodType with
  | none =>
    rw [htype] at h
    exact hname h
  | some type =>
    rw [htype] at h
    change m.acceptsAttributed type c.name c.realArguments.length = true at h
    rw [acceptsAttributed] at h
    dsimp only
    by_cases hunknown : (type.parameterTypes.any (·.isUnknown) && m.fallback = .nameOnly) = true
    · rw [if_pos hunknown] at h ⊢
      exact hname h
    · rw [if_neg hunknown] at h ⊢
      rw [acceptsMethod, MethodPattern.accepts, Bool.and_eq_true, Bool.and_eq_true] at h
      exact h.1.1

end Matcher

/-- **What a pattern of names means.** It accepts the names that arise from it by putting a run of
characters of names in place of each star, except for the name of all constructors: as a pattern
this accepts itself alone. So, whichever name of a call is compared, a call that is accepted goes by
the name of all constructors just if this is the pattern. -/
theorem NamePattern.accepts_iff_exists_runs {item : List Char} {q : NamePattern}
    (h : parse? item = some q) :
    (item ≠ MethodType.constructorName.toList → ∀ name : String, q.accepts name = true ↔
      ∃ runs : List (List Char), runs.length = item.count '*' ∧
        (∀ run ∈ runs, Text.MadeOf ['$'] run) ∧ name.toList = Text.withRuns item runs) ∧
      (item = MethodType.constructorName.toList → ∀ name : String, q.accepts name = true ↔
        name = MethodType.constructorName) ∧
      ∀ (m : Matcher) (t : Tree) (c : Call), m.pattern.name = q → t.call? = some c →
        m.accepts t = true →
        (m.comparedName c = MethodType.constructorName ↔
          item = MethodType.constructorName.toList) := by
  refine ⟨fun hitem name => ?_, fun hitem name => ?_, fun m t c hq hcall haccepts => ?_⟩
  · rcases parse?_eq_some h with ⟨hconstructors, -⟩ | ⟨-, -, rfl⟩
    · exact absurd hconstructors hitem
    · exact accepts_form_iff
  · rcases parse?_eq_some h with ⟨-, rfl⟩ | ⟨hne, -, -⟩
    · exact accepts_constructors_iff
    · exact absurd hitem hne
  · rw [Matcher.accepts_of_call? m hcall] at haccepts
    exact eq_constructorName_iff h (hq ▸ Matcher.accepts_comparedName haccepts)

/-- The name `ta$a1` arises from `*a$*`. A constructor is called under its own name where the types
of its parameters are not known, and a pattern that accepts the call is no other. -/
theorem NamePattern.accepts_iff_exists_runs_twoStars :
    let item := "*a$*".toList
    let type : MethodType :=
      { MethodType.constructor (.named "A") with parameterTypes := [.unknown] }
    let t := Build.newClass (.named "A") [Build.literal "1" .int] (some type)
    let m : Matcher := {
      pattern := {
        text := "A <constructor>(..)"
        parts := ⟨['A'], MethodType.constructorName.toList, [['.', '.']]⟩
        type := .named [.segment ['A']] true 0
        name := .constructors
        parameters := [.anyTrailing] }
      fallback := .nameOnly }
    parse? item = some (.form item) ∧ item ≠ MethodType.constructorName.toList ∧
      (∃ runs : List (List Char), runs.length = item.count '*' ∧
        (∀ run ∈ runs, Text.MadeOf ['$'] run) ∧ "ta$a1".toList = Text.withRuns item runs) ∧
      parse? MethodType.constructorName.toList = some m.pattern.name ∧
      ∃ c, t.call? = some c ∧ m.accepts t = true ∧
        m.comparedName c = MethodType.constructorName := by
  intro item type t m
  have hitem : parse? item = some (.form item) := by decide
  have hne : item ≠ MethodType.constructorName.toList := by decide
  have hconstructors : parse? MethodType.constructorName.toList = some m.pattern.name := by decide
  have haccepts : m.accepts t = true := by decide
  refine ⟨hitem, hne, ?_, hconstructors, _, rfl, haccepts, ?_⟩
  · exact ((accepts_iff_exists_runs hitem).1 hne "ta$a1").mp (by decide)
  · exact ((accepts_iff_exists_runs hconstructors).2.2 m t _ rfl rfl haccepts).mpr rfl

end Java

end Lossless
