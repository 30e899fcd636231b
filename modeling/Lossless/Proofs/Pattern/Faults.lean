import Lossless.Proofs.Pattern.MethodGrammar

/-!
# What is wrong with a text that is no pattern of methods

Reading a pattern of methods and checking one are two uses of one check
(`Lossless.Java.MethodPattern.check`), which finds all faults; reading reports the first. Here
its faults are compared with the grammar. A text without parts has a single fault. A text with
parts has a fault for each part that is no pattern of its kind, in the order of the parts
(`Lossless.Java.faultsOf`). So it has none just if all parts are correct, and this is what it
means to be a pattern (`Lossless.Java.isMethodPattern_iff`).

A parameter can be at fault in two ways, but not in both: what stands for any number of
parameters is a pattern of parameters, and out of place only if another item follows.
-/

namespace Lossless.Java

/-- The faults of the parameters, in their order. -/
def parameterFaults : List (List Char) → List PatternError
  | [] => []
  | item :: rest =>
    (if ¬IsParameter item then [.invalidParameter (String.ofList item)]
    else if IsTrailing item ∧ rest ≠ [] then [.misplacedWildcard (String.ofList item)]
    else []) ++ parameterFaults rest

/-- The faults of the parts of a pattern: of the type, of the name, and of the parameters. -/
def faultsOf (parts : PatternParts) : List PatternError :=
  (if IsTypePattern parts.type then [] else [.invalidType (String.ofList parts.type)]) ++
    (if IsNamePattern parts.name then [] else [.invalidName (String.ofList parts.name)]) ++
    parameterFaults parts.parameters

/-- The faults of a text that is no pattern of methods. -/
inductive Fails : List Char → List PatternError → Prop
  /-- There is no text. -/
  | empty : Fails [] [.empty]
  /-- The text has no parts. -/
  | malformed {text : List Char} (hne : text ≠ []) (h : ∀ parts, ¬HasParts text parts) :
      Fails text [.malformed (String.ofList text)]
  /-- Some of its parts are wrong. -/
  | parts {text : List Char} {parts : PatternParts} (h : HasParts text parts)
      (hne : faultsOf parts ≠ []) : Fails text (faultsOf parts)

/-- A text that is no pattern has a fault. -/
theorem Fails.ne_nil {text : List Char} {faults : List PatternError} (h : Fails text faults) :
    faults ≠ [] := by
  cases h with
  | empty => exact List.cons_ne_nil _ _
  | malformed _ _ => exact List.cons_ne_nil _ _
  | parts _ hne => exact hne

/-- There is no fault in a list of parameters exactly if all are parameters and only the last one is
trailing. -/
theorem parameterFaults_eq_nil_iff {items : List (List Char)} :
    parameterFaults items = [] ↔
      (∀ item ∈ items, IsParameter item) ∧ ∀ item ∈ items.dropLast, ¬IsTrailing item := by
  induction items with
  | nil => simp [parameterFaults]
  | cons item rest ih =>
    have hitem : (if ¬IsParameter item then [PatternError.invalidParameter (String.ofList item)]
        else if IsTrailing item ∧ rest ≠ [] then [.misplacedWildcard (String.ofList item)]
        else []) = [] ↔ IsParameter item ∧ (rest ≠ [] → ¬IsTrailing item) := by
      split
      · next h => simp [h]
      · next h =>
        split
        · next h' => simp [h']
        · next h' => exact iff_of_true rfl ⟨not_not.mp h, fun hrest hitem => h' ⟨hitem, hrest⟩⟩
    rw [parameterFaults, List.append_eq_nil_iff, hitem, ih, List.forall_mem_cons]
    cases rest with
    | nil => simp
    | cons next rest =>
      have hne : next :: rest ≠ [] := List.cons_ne_nil next rest
      rw [List.dropLast_cons_cons, List.forall_mem_cons (p := (¬IsTrailing ·)),
        forall_prop_of_true hne, and_and_and_comm]

/-- The parts have no faults just if they are correct. -/
theorem faultsOf_eq_nil_iff {parts : PatternParts} : faultsOf parts = [] ↔ parts.IsCorrect := by
  rw [faultsOf, List.append_eq_nil_iff, List.append_eq_nil_iff, parameterFaults_eq_nil_iff,
    ite_eq_left_iff, ite_eq_left_iff]
  constructor
  · rintro ⟨⟨htype, hname⟩, hparameters, htrailing⟩
    exact ⟨by simpa using htype, by simpa using hname, hparameters, htrailing⟩
  · rintro ⟨htype, hname, hparameters, htrailing⟩
    exact ⟨⟨fun h => absurd htype h, fun h => absurd hname h⟩, hparameters, htrailing⟩

namespace MethodPattern

/-- What the check finds wrong with one parameter. -/
theorem faults_checkParameter (isLast : Bool) (item : List Char) :
    (checkParameter isLast item).faults =
      if ¬IsParameter item then [.invalidParameter (String.ofList item)]
      else if IsTrailing item ∧ isLast = false then [.misplacedWildcard (String.ofList item)]
      else [] := by
  obtain ⟨hsome, htrailing⟩ := ParameterPattern.parse?_spec item
  rw [checkParameter]
  cases hparse : ParameterPattern.parse? item with
  | none =>
    rw [hparse] at hsome
    rw [if_pos fun h => Bool.false_ne_true (hsome.mpr h)]
    rfl
  | some p =>
    rw [hparse] at hsome
    have hwrong : (p.isTrailing && !isLast) = true ↔ IsTrailing item ∧ isLast = false := by
      rw [Bool.and_eq_true, Bool.not_eq_true', htrailing p hparse]
    rw [if_neg (not_not.mpr (hsome.mp rfl))]
    simp only [hwrong]
    split <;> rfl

/-- What the check finds wrong with all of them. -/
theorem faults_checkParameters (items : List (List Char)) :
    (checkParameters items).faults = parameterFaults items := by
  induction items with
  | nil => rfl
  | cons item rest ih =>
    have hlast : rest.isEmpty = false ↔ rest ≠ [] := List.isEmpty_eq_false_iff
    rw [checkParameters, Validated.faults_seq, Validated.faults_map, faults_checkParameter, ih,
      parameterFaults]
    simp only [hlast]

/-- What the check finds wrong with the parts of a text. -/
theorem faults_checkParts (text : List Char) (parts : PatternParts) :
    (checkParts text parts).faults = faultsOf parts := by
  rw [checkParts, Validated.faults_seq, Validated.faults_seq, Validated.faults_map,
    Validated.faults_ofOption, Validated.faults_ofOption, faults_checkParameters, faultsOf]
  simp only [TypePattern.isSome_parse?_iff, NamePattern.isSome_parse?_iff]

/-- No fault is found in a pattern, and those of another text are found. -/
theorem faults_check (p : String) :
    (IsMethodPattern (Text.trim p.toList) ∧ (check p).faults = []) ∨
      (¬IsMethodPattern (Text.trim p.toList) ∧ Fails (Text.trim p.toList) (check p).faults) := by
  rw [check, isMethodPattern_iff]
  split
  · next hempty =>
    rw [hempty]
    refine .inr ⟨?_, .empty⟩
    rintro ⟨parts, ⟨blank, middle, list, htext, -⟩, -⟩
    simp at htext
  · next hne =>
    cases hsplit : PatternParts.split? (Text.trim p.toList) with
    | none =>
      have hnone : ∀ parts, ¬HasParts (Text.trim p.toList) parts := fun parts h => by
        rw [PatternParts.split?_eq_some_iff.mpr h] at hsplit
        cases hsplit
      refine .inr ⟨?_, .malformed (fun h => hne h) hnone⟩
      rintro ⟨parts, h, -⟩
      exact hnone parts h
    | some parts =>
      have hparts := PatternParts.split?_eq_some_iff.mp hsplit
      dsimp only
      rw [faults_checkParts]
      by_cases hcorrect : parts.IsCorrect
      · exact .inl ⟨⟨parts, hparts, hcorrect⟩, faultsOf_eq_nil_iff.mpr hcorrect⟩
      · refine .inr ⟨?_, .parts hparts (mt faultsOf_eq_nil_iff.mp hcorrect)⟩
        rintro ⟨parts', hparts', hcorrect'⟩
        rw [hparts'.unique hparts] at hcorrect'
        exact hcorrect hcorrect'

/-- **The patterns of methods that are read, and what is wrong with the others.** A pattern is
read just if, without the blanks around it, it is a text of the grammar; checking it finds no
fault then, and finds what the grammar says otherwise; and reading reports the first fault. -/
theorem parse_grammar (p : String) :
    ((∃ m, parse p = .ok m) ↔ IsMethodPattern (Text.trim p.toList)) ∧
      ((check p).isGood = true ↔ ∃ m, parse p = .ok m) ∧
      (¬IsMethodPattern (Text.trim p.toList) → Fails (Text.trim p.toList) (check p).faults) ∧
      ∀ e, parse p = .error e ↔ (check p).faults.head? = some e := by
  have hgood : (check p).isGood = true ↔ ∃ m, parse p = .ok m := by
    simp only [parse, Validated.toExcept_eq_ok, Validated.isGood_iff]
  refine ⟨?_, hgood, ?_, fun e => Validated.toExcept_eq_error⟩
  · rw [← hgood, ← Validated.faults_eq_nil_iff]
    rcases faults_check p with ⟨hpattern, hfaults⟩ | ⟨hpattern, hfails⟩
    · exact iff_of_true hfaults hpattern
    · exact iff_of_false hfails.ne_nil hpattern
  · intro hpattern
    rcases faults_check p with ⟨hpattern', -⟩ | ⟨-, hfails⟩
    · exact absurd hpattern' hpattern
    · exact hfails

example : (check "a..b$ <init>(T.., *, int...)").faults =
    [.invalidType "a..b$", .invalidName "<init>", .misplacedWildcard "T.."] := by
  decide +kernel

end MethodPattern

end Lossless.Java
