import Lossless.Java.MethodPattern

/-!
# The text of a pattern

A pattern of methods keeps the text that it was read from, without the blanks around it. So
it is determined by this text (`Lossless.Java.MethodPattern.eq_of_text_eq`). It also keeps the parts
of the text, and what it is for is read from these
(`Lossless.Java.MethodPattern.checkParts_of_parse`).
-/

namespace Lossless

namespace Validated

variable {ε α β : Type}

/-- A combined check is good exactly if both checks are. -/
theorem seq_eq_good {f : Validated ε (α → β)} {a : Validated ε α} {b : β} :
    f <*> a = .good b ↔ ∃ g x, f = .good g ∧ a = .good x ∧ g x = b := by
  show f.seq a = .good b ↔ _
  cases f <;> cases a <;> simp [seq]

theorem map_eq_good {f : α → β} {a : Validated ε α} {b : β} :
    f <$> a = .good b ↔ ∃ x, a = .good x ∧ f x = b := by
  show seq (.good f) a = .good b ↔ _
  cases a <;> simp [seq]

theorem ofOption_eq_good {e : ε} {o : Option α} {x : α} :
    ofOption e o = .good x ↔ o = some x := by
  cases o <;> simp [ofOption]

/-- A check gives a result exactly if it is good. -/
theorem toExcept_eq_ok {a : Validated ε α} {x : α} : a.toExcept = .ok x ↔ a = .good x := by
  cases a <;> simp [toExcept]

/-- The first fault is reported. -/
theorem toExcept_eq_error {a : Validated ε α} {e : ε} :
    a.toExcept = .error e ↔ a.faults.head? = some e := by
  cases a <;> simp [toExcept, faults]

theorem isGood_iff {a : Validated ε α} : a.isGood = true ↔ ∃ x, a = .good x := by
  cases a <;> simp [isGood]

/-- All is well if no fault is found. -/
theorem faults_eq_nil_iff {a : Validated ε α} : a.faults = [] ↔ a.isGood = true := by
  cases a <;> simp [faults, isGood]

/-- Nothing at all is the one fault of an option. -/
theorem faults_ofOption (e : ε) (o : Option α) :
    (ofOption e o).faults = if o.isSome then [] else [e] := by
  cases o <;> rfl

end Validated

namespace Java.MethodPattern

/-- Parts are all right if each can be read, and they are kept as they are. -/
theorem checkParts_eq_good_iff {text : List Char} {parts : PatternParts} {p : MethodPattern} :
    checkParts text parts = .good p ↔ p.text = String.ofList text ∧ p.parts = parts ∧
      TypePattern.parse? parts.type = some p.type ∧ NamePattern.parse? parts.name = some p.name ∧
        checkParameters parts.parameters = .good p.parameters := by
  constructor
  · intro h
    obtain ⟨named, ps, hnamed, hps, rfl⟩ := Validated.seq_eq_good.mp h
    obtain ⟨typed, name, htyped, hname, rfl⟩ := Validated.seq_eq_good.mp hnamed
    obtain ⟨type, htype, rfl⟩ := Validated.map_eq_good.mp htyped
    exact ⟨rfl, rfl, Validated.ofOption_eq_good.mp htype, Validated.ofOption_eq_good.mp hname, hps⟩
  · rintro ⟨htext, rfl, htype, hname, hps⟩
    rw [checkParts, htype, hname, hps, ← htext]
    rfl

/-- A pattern that was read is what its parts were read as. -/
theorem checkParts_of_parse {s : String} {p : MethodPattern} (h : parse s = .ok p) :
    checkParts (Text.trim s.toList) p.parts = .good p := by
  have hcheck := Validated.toExcept_eq_ok.mp h
  rw [check] at hcheck
  split at hcheck
  · cases hcheck
  · split at hcheck
    · cases hcheck
    · rwa [(checkParts_eq_good_iff.mp hcheck).2.1]

/-- The text of a pattern is the one that it was read from, without blanks around it. -/
theorem text_of_parse {s : String} {p : MethodPattern} (h : parse s = .ok p) :
    p.text = String.ofList (Text.trim s.toList) :=
  (checkParts_eq_good_iff.mp (checkParts_of_parse h)).1

/-- **A pattern is determined by its text.** -/
theorem eq_of_text_eq {s s' : String} {p p' : MethodPattern} (h : parse s = .ok p)
    (h' : parse s' = .ok p') (htext : p.text = p'.text) : p = p' := by
  rw [text_of_parse h, text_of_parse h'] at htext
  have hsame : parse s = parse s' := by
    rw [parse, parse, check, check, String.ofList_injective htext]
  rw [h, h'] at hsame
  exact Except.ok.inj hsame

end Java.MethodPattern

end Lossless
