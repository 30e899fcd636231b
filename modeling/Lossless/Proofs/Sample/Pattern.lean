import Lossless.Proofs.Java.Ancestry
import Lossless.Proofs.Pattern.Spelling
import Lossless.Sample.CallSite

/-!
# The patterns of call sites

The sites that are looked at are the samples (`Lossless.Sample.CallSite.isSample`): calls of a
method `bar` or of a constructor, in the arguments of which there may be calls of a method `baz`,
and the variables are of known classes. The pattern of a sample is made from its parts without
looking at the reader of patterns. It is read all the same, and what is read accepts the method
that the sample calls, part by part: the class of the receiver, the name, and the type of every
argument. It accepts no method that is called in an argument, because of the name
(`Lossless.Sample.CallSite.exists_parse_pattern`).
-/

namespace Lossless

/-! ### Attributed methods -/

namespace Java

/-- Parameters are added behind those that are there. -/
theorem MethodType.withParameters_eq (m : MethodType) (types : List JavaType) :
    (m.withParameters types).name = m.name ∧
      (m.withParameters types).declaringType = m.declaringType ∧
      (m.withParameters types).parameterTypes = m.parameterTypes ++ types := by
  induction types generalizing m with
  | nil => simp [withParameters]
  | cons type types ih =>
    obtain ⟨hname, hdeclaring, htypes⟩ :=
      ih (m.withParameter ("arg" ++ toString m.parameterTypes.length) type)
    refine ⟨hname, hdeclaring, htypes.trans ?_⟩
    simp [withParameter]

end Java

namespace Sample

open Java

/-- The method that a sample calls. -/
theorem methodTypeOf_eq (receiver : Receiver) (name : Option String) (types : List JavaType) :
    (methodTypeOf receiver name types).name = patternName name ∧
      (methodTypeOf receiver name types).declaringType = receiver.classType ∧
      (methodTypeOf receiver name types).parameterTypes = types := by
  cases name with
  | some name =>
    exact MethodType.withParameters_eq (MethodType.named receiver.classType name) types
  | none => exact MethodType.withParameters_eq (MethodType.constructor receiver.classType) types

/-! ### Samples -/

/-- The variables that arguments can name, with the classes of the objects that they hold. -/
def locals : List (String × String) :=
  [("widget", "com.acme.model.Widget"), ("gadget", "com.acme.model.Gadget"),
    ("items", "java.util.List")]

mutual

/-- Does an argument name only known variables, and call only the method `baz`? -/
def Argument.isSample : Argument → Bool
  | .int _ | .text _ | .constant _ => true
  | .localVariable name className => locals.contains (name, className)
  | .call ⟨_, name, arguments⟩ => name = some "baz" && areSamples arguments

/-- Do some arguments? -/
def areSamples : List PlacedArgument → Bool
  | [] => true
  | ⟨_, argument⟩ :: rest => argument.isSample && areSamples rest

end

/-- Is this a call of the method `bar` or of a constructor, with such arguments? -/
def CallSite.isSample (c : CallSite) : Bool :=
  (c.name = none || c.name = some "bar") && areSamples c.arguments

theorem areSamples_iff {arguments : List PlacedArgument} :
    areSamples arguments = true ↔ ∀ placed ∈ arguments, placed.argument.isSample = true := by
  induction arguments with
  | nil => simp [areSamples]
  | cons first rest ih =>
    obtain ⟨lead, argument⟩ := first
    rw [areSamples, Bool.and_eq_true, ih, List.forall_mem_cons]

/-! ### Parts of the patterns -/

/-- The receiver is read as a type that accepts it. -/
theorem exists_parse?_receiver (receiver : Receiver) :
    ∃ type, TypePattern.parse? receiver.fullyQualifiedName.toList = some type ∧
      type.accepts receiver.classType.signature.toList = true := by
  have h : (TypePattern.parse? receiver.fullyQualifiedName.toList).any
      (·.accepts receiver.classType.signature.toList) = true := by
    cases receiver <;> decide
  exact (Option.any_eq_true _ _).mp h

/-- The name is read as one that accepts it, and does not accept `baz`. -/
theorem exists_parse?_name {name : Option String} (h : name = none ∨ name = some "bar") :
    ∃ p, NamePattern.parse? (patternName name).toList = some p ∧
      p.accepts (patternName name) = true ∧ p.accepts "baz" = false := by
  rcases h with rfl | rfl
  · exact ⟨.constructors, by decide⟩
  · exact ⟨.form "bar".toList, by decide⟩

/-- The parameters of samples: how they are written in patterns, and their types. -/
def parameterKinds : List (String × JavaType) :=
  [("int", .primitive .int), ("String", .ofClass (.named "java.lang.String"))] ++
    locals.map fun x => (x.2, .ofClass (.named x.2))

theorem mem_parameterKinds {a : Argument} (h : a.isSample = true) :
    (a.patternType, a.parameterType) ∈ parameterKinds := by
  cases a with
  | localVariable name className =>
    have hmem : (name, className) ∈ locals := List.contains_iff_mem.mp h
    exact List.mem_append_right _ (List.mem_map_of_mem hmem)
  | text content => exact .tail _ (.head _)
  | _ => exact .head _

/-- What is written in a pattern for the parameter of a sample stands for its type. -/
theorem exists_parse?_patternType {a : Argument} (h : a.isSample = true) :
    ∃ type, ParameterPattern.parse? a.patternType.toList = some (.exact type) ∧
      type.accepts a.parameterType.signature.toList = true := by
  -- arguments are without number, but their parameters are of five kinds
  have hall : ∀ kind ∈ parameterKinds,
      ParameterPattern.parse? kind.1.toList = (TypePattern.parse? kind.1.toList).map .exact ∧
        (TypePattern.parse? kind.1.toList).any (·.accepts kind.2.signature.toList) = true := by
    decide
  obtain ⟨hexact, hany⟩ := hall _ (mem_parameterKinds h)
  obtain ⟨type, htype, haccepts⟩ := (Option.any_eq_true _ _).mp hany
  refine ⟨type, ?_, haccepts⟩
  rw [hexact, htype]
  rfl

theorem not_isUnknown_parameterType (a : Argument) : a.parameterType.isUnknown = false := by
  cases a <;> rfl

/-- The parameters in the pattern of a sample are read as patterns that accept their types. -/
theorem exists_checkParameters {arguments : List PlacedArgument}
    (h : areSamples arguments = true) :
    ∃ ps, MethodPattern.checkParameters (arguments.map (·.argument.patternType.toList)) = .good ps ∧
      ParameterPattern.acceptAll ps
        (arguments.map (·.argument.parameterType.signature.toList)) = true := by
  rw [areSamples_iff] at h
  induction arguments with
  | nil => exact ⟨[], rfl, rfl⟩
  | cons first rest ih =>
    obtain ⟨hfirst, hrest⟩ := List.forall_mem_cons.mp h
    obtain ⟨type, htype, haccepts⟩ := exists_parse?_patternType hfirst
    obtain ⟨ps, hps, hall⟩ := ih hrest
    refine ⟨.exact type :: ps, ?_, ?_⟩
    · rw [List.map_cons, MethodPattern.checkParameters, MethodPattern.checkParameter, htype, hps]
      rfl
    · rw [List.map_cons, ParameterPattern.acceptAll, haccepts, hall]
      rfl

/-! ### The pattern of a site -/

namespace CallSite

variable {c : CallSite}

/-- The parts of the pattern of a call. -/
def patternParts (c : CallSite) : PatternParts where
  type := c.receiver.fullyQualifiedName.toList
  name := (patternName c.name).toList
  parameters := c.arguments.map (·.argument.patternType.toList)

/-- The pattern of a sample is spelled from its parts. -/
theorem toList_pattern (c : CallSite) : c.pattern.toList = spelled c.patternParts := by
  simp [pattern, spelled, patternParts, Function.comp_def]

/-- These are correct. -/
theorem isCorrect_patternParts (h : c.isSample = true) : c.patternParts.IsCorrect := by
  rw [isSample, Bool.and_eq_true] at h
  obtain ⟨type, htype, -⟩ := exists_parse?_receiver c.receiver
  obtain ⟨name, hname, -⟩ := exists_parse?_name (by simpa using h.1)
  have hitem : ∀ item ∈ c.patternParts.parameters, IsParameter item ∧ ¬IsTrailing item := by
    refine List.forall_mem_map.mpr fun placed hplaced => ?_
    obtain ⟨type, hparse, -⟩ := exists_parse?_patternType (areSamples_iff.mp h.2 placed hplaced)
    obtain ⟨hsome, htrailing⟩ := ParameterPattern.parse?_spec placed.argument.patternType.toList
    refine ⟨hsome.mp (Option.isSome_of_eq_some hparse), fun hitem => ?_⟩
    cases (htrailing _ hparse).mpr hitem
  exact ⟨TypePattern.isSome_parse?_iff.mp (Option.isSome_of_eq_some htype),
    NamePattern.isSome_parse?_iff.mp (Option.isSome_of_eq_some hname),
    fun item hmem => (hitem item hmem).1,
    fun item hmem => (hitem item (List.dropLast_subset _ hmem)).2⟩

/-- **The pattern of a sample is a pattern.** It accepts the method of the sample, and no method
`baz`. -/
theorem exists_parse_pattern (hc : c.isSample = true) :
    ∃ p, MethodPattern.parse c.pattern = .ok p ∧ p.accepts true c.methodType = true ∧
      p.name.accepts "baz" = false := by
  have h := hc
  rw [isSample, Bool.and_eq_true] at h
  obtain ⟨type, htype, htypeAccepts⟩ := exists_parse?_receiver c.receiver
  obtain ⟨name, hname, hnameAccepts, hbaz⟩ := exists_parse?_name (by simpa using h.1)
  obtain ⟨ps, hps, hpsAccepts⟩ := exists_checkParameters h.2
  refine ⟨_, MethodPattern.parse_of_spelled (isCorrect_patternParts hc) c.toList_pattern htype hname
    hps, ?_, hbaz⟩
  obtain ⟨hmethodName, hdeclaring, hparameters⟩ := methodTypeOf_eq c.receiver c.name
    (c.arguments.map (·.argument.parameterType))
  refine MethodPattern.accepts_of_declaringType ?_ ?_ ?_ true
  · rwa [methodType, hmethodName]
  · rwa [methodType, hparameters, List.map_map]
  · rwa [methodType, hdeclaring]

end CallSite

end Sample

end Lossless
