import Lossless.Proofs.Deletion.Imports
import Lossless.Proofs.Deletion.Text
import Lossless.Proofs.Sample.Arguments

/-!
# Deleting an argument of a call site

The recipe is given the pattern of a sample and an index, and what it has to make of the file with
the sample is known beforehand: the file with the smaller sample, and requests for the names that
the deleted argument refers to. `Lossless.Sample.CallSite.delete_spec` says that this is what
happens, for every sample and every index; and where there is no such argument nothing happens.

Of all nodes in the file, only the call itself can lose an argument: nodes around it are no calls,
and calls below it are rejected for their name (`Lossless.Sample.Finds.not_loses_of_mem_children`).
So the tree is cut in one place, and its children there are what they were.
-/

namespace Lossless

/-! ### Trees with calls that are not meant -/

namespace DeleteArgument

open Java Tree

variable {m : Matcher} {index : Nat}

/-- No call by a name is accepted that the matcher does not accept. -/
theorem not_accepts_of_callsOnly {name : String} {t : Tree}
    (hname : m.pattern.name.accepts name = false) (h : CallsOnly name t) :
    ∀ u ∈ nodes t, m.acceptsNode u = false := by
  intro u hu
  rw [Matcher.acceptsNode]
  cases hcall : u.call? with
  | none => rfl
  | some c =>
    obtain ⟨rfl, htype⟩ := h u hu c hcall
    have hbyName : ∀ count, m.acceptsName c.name count = false := fun count => by
      rw [Matcher.acceptsName, hname, Bool.and_false, Bool.false_and]
    rw [Option.any_some, Matcher.acceptsCall]
    cases hmethod : c.methodType with
    | none => exact hbyName _
    | some type =>
      have hmethodName : m.acceptsMethod type = false := by
        rw [Matcher.acceptsMethod, MethodPattern.accepts, htype type hmethod, hname,
          Bool.false_and, Bool.false_and]
      show m.acceptsAttributed type c.name _ = false
      rw [Matcher.acceptsAttributed, hbyName, hmethodName, ite_self]

/-- What is not accepted loses no argument. -/
theorem loses_of_not_accepts {t : Tree} (h : m.acceptsNode t = false) :
    loses m index t = false := by
  rw [Matcher.acceptsNode] at h
  rw [loses]
  cases hcall : t.call? with
  | none => rfl
  | some c =>
    rw [hcall, Option.any_some] at h
    rw [Option.any_some, h, Bool.false_and]

/-- What is requested for a file is requested for its statement. -/
theorem requested_unit_iff {t : Tree} {name : String} :
    Requested m index (.compilationUnit (Build.unit [] [t])) name ↔
      Requested m index (t.withLead Build.statementLead) name := by
  constructor
  · rintro ⟨u, hu, a, ha, h⟩
    obtain ⟨call, hcall⟩ := exists_call_of_mem_lost? ha
    exact ⟨u, (Build.mem_nodes_unit_singleton hcall).mp hu, a, ha, h⟩
  · rintro ⟨u, hu, a, ha, h⟩
    obtain ⟨call, hcall⟩ := exists_call_of_mem_lost? ha
    exact ⟨u, (Build.mem_nodes_unit_singleton hcall).mpr hu, a, ha, h⟩

end DeleteArgument

namespace Sample

open Java Tree DeleteArgument

/-! ### Arguments -/

/-- Each argument stands behind its leading text. -/
theorem argumentTrees_eq_map (arguments : List PlacedArgument) :
    argumentTrees arguments =
      arguments.map fun placed => placed.argument.tree.withLead ⟨placed.lead⟩ := by
  induction arguments with
  | nil => rfl
  | cons first rest ih =>
    obtain ⟨lead, argument⟩ := first
    rw [argumentTrees, ih, List.map_cons]

theorem length_argumentTrees (arguments : List PlacedArgument) :
    (argumentTrees arguments).length = arguments.length := by
  rw [argumentTrees_eq_map, List.length_map]

theorem argumentTrees_append (before after : List PlacedArgument) :
    argumentTrees (before ++ after) = argumentTrees before ++ argumentTrees after := by
  simp only [argumentTrees_eq_map, List.map_append]

theorem isEmpty_tree (a : Argument) (lead : Space) : (a.tree.withLead lead).isEmpty = false := by
  cases a with
  | call site =>
    obtain ⟨receiver, name, arguments⟩ := site
    rw [Argument.tree, callTree_eq]
    cases name <;> rfl
  | _ => rfl

/-- All arguments count. -/
theorem realArguments_argumentTrees (arguments : List PlacedArgument) :
    (Build.arguments (argumentTrees arguments)).elements.filter (!·.isEmpty) =
      argumentTrees arguments := by
  have hreal : ∀ t ∈ argumentTrees arguments, (!t.isEmpty) = true := by
    rw [argumentTrees_eq_map]
    exact List.forall_mem_map.mpr fun placed _ => by rw [isEmpty_tree]; rfl
  cases h : argumentTrees arguments with
  | nil => rfl
  | cons first rest =>
    rw [h] at hreal
    simpa [Build.arguments, Container.elements, RightPadded.build, Function.comp_def] using hreal

/-! ### The call -/

variable {m : Matcher} {index : Nat} {c : CallSite} {lead : Space}

/-- A call without one of its arguments is a call of the method without the parameter. -/
theorem cut_callOf {receiver : Receiver} {name : Option String} {type : MethodType}
    {before after arguments : List Tree} {t : Tree} (hlength : before.length = index)
    (hloses : loses m index
      ((callOf receiver name type (before ++ t :: after)).withLead lead) = true)
    (hclose : closeGap index t ((before ++ after).map .build) =
      (Build.arguments arguments).padded) :
    cut m index ((callOf receiver name type (before ++ t :: after)).withLead lead) =
      (callOf receiver name (type.withoutParameter index) arguments).withLead lead := by
  have hpadded : (Build.arguments (before ++ t :: after)).padded =
      before.map .build ++ .build t :: after.map .build := by
    rw [← List.map_cons, ← List.map_append]
    cases before <;> rfl
  have hleft : (Build.arguments (before ++ t :: after)).withPadded
      (closeGap index t (before.map .build ++ after.map .build)) = Build.arguments arguments := by
    rw [← List.map_append, hclose]
    cases before <;> cases arguments <;> rfl
  have hlength : (before.map RightPadded.build).length = index := (List.length_map _).trans hlength
  cases name with
  | some name =>
    refine (cut_methodInvocation hloses hlength hpadded).trans ?_
    let select := Build.name receiver.variableName (some (.ofClass receiver.classType))
    exact congrArg (fun left => (methodInvocation
      { select := some (.build select)
        name := Identifier.build name (some (.ofMethod (type.withoutParameter index)))
        arguments := left
        methodType := some (type.withoutParameter index) }).withLead lead) hleft
  | none =>
    refine (cut_newClass hloses hlength hpadded).trans ?_
    let constructed := Build.name receiver.classType.simpleName (some (.ofClass receiver.classType))
    exact congrArg (fun left => (newClass
      { constructed := constructed.withLead .single
        arguments := left
        constructorType := some (type.withoutParameter index) }).withLead lead) hleft

section Without

variable (c index)

theorem withoutArgument_receiver : (c.withoutArgument index).receiver = c.receiver := by
  rw [CallSite.withoutArgument.eq_def]
  split <;> rfl

theorem withoutArgument_name : (c.withoutArgument index).name = c.name := by
  rw [CallSite.withoutArgument.eq_def]
  split <;> rfl

end Without

/-- If there is no such argument, all stay. -/
theorem withoutArgument_of_length_le (h : c.arguments.length ≤ index) :
    c.withoutArgument index = c := by
  obtain ⟨receiver, name, arguments⟩ := c
  have herase : arguments.eraseIdx index = arguments := List.eraseIdx_of_length_le h
  cases arguments with
  | nil => rfl
  | cons first rest =>
    cases index with
    | zero => exact absurd h (by simp)
    | succ index => exact congrArg (CallSite.mk receiver name) herase

/-- The arguments that are left of a call close the gap as they do in its tree. -/
theorem closeGap_argumentTrees {before after : List PlacedArgument} {placed : PlacedArgument}
    (harguments : c.arguments = before ++ placed :: after) (hlength : before.length = index) :
    closeGap index (placed.argument.tree.withLead ⟨placed.lead⟩)
        ((argumentTrees (before ++ after)).map .build) =
      (Build.arguments (argumentTrees (c.withoutArgument index).arguments)).padded := by
  obtain ⟨receiver, name, arguments⟩ := c
  obtain rfl : arguments = before ++ placed :: after := harguments
  obtain rfl := hlength
  cases before with
  | nil =>
    -- the next argument, if there is one, takes over the text in front of this one
    cases after with
    | nil => rfl
    | cons next rest =>
      obtain ⟨lead, argument⟩ := next
      have hmoved : (argument.tree.withLead ⟨lead⟩).withLead
          (placed.argument.tree.withLead ⟨placed.lead⟩).lead =
            argument.tree.withLead ⟨placed.lead⟩ := by
        rw [withLead_withLead, lead_withLead]
      exact congrArg (fun t => RightPadded.build t :: (argumentTrees rest).map RightPadded.build)
        hmoved
  | cons first before =>
    obtain ⟨lead, argument⟩ := first
    let first : PlacedArgument := ⟨lead, argument⟩
    have hleft : (first :: before ++ placed :: after).eraseIdx (first :: before).length =
        first :: before ++ after := eraseIdx_split (first :: before) after placed
    rw [CallSite.withoutArgument, hleft]
    · rfl
    · simp

/-- Where there are no arguments, a placeholder stands in for them. -/
theorem length_arguments_tree :
    (c.tree.withLead lead).arguments.length = max c.arguments.length 1 := by
  obtain ⟨receiverType, hcall⟩ := exists_call?_callOf c.receiver c.name c.methodType
    (argumentTrees c.arguments)
  rw [Tree.arguments, call?_withLead, CallSite.tree_eq, hcall, Option.elim_some,
    ← length_argumentTrees]
  cases argumentTrees c.arguments with
  | nil => rfl
  | cons first rest => simp [Build.arguments]

/-- A matcher that finds a call, and no call in its arguments. -/
structure Finds (m : Matcher) (c : CallSite) : Prop where
  /-- The method of the call is accepted. -/
  accepts : m.acceptsMethod c.methodType = true
  /-- The methods that are called in the arguments are not. -/
  rejects : m.pattern.name.accepts "baz" = false

namespace Finds

variable (hm : Finds m c)

include hm

/-- The call is accepted. -/
theorem accepts_tree : m.acceptsNode (c.tree.withLead lead) = true := by
  obtain ⟨receiverType, hcall⟩ := exists_call?_callOf c.receiver c.name c.methodType
    (argumentTrees c.arguments)
  have hunknown : c.methodType.parameterTypes.any (·.isUnknown) = false := by
    rw [CallSite.methodType, (methodTypeOf_eq _ _ _).2.2, List.any_map, List.any_eq_false]
    intro placed _
    simp [not_isUnknown_parameterType]
  rw [Matcher.acceptsNode, call?_withLead, CallSite.tree_eq, hcall, Option.any_some,
    Matcher.acceptsCall]
  simp [Matcher.acceptsAttributed, hunknown, hm.accepts]

/-- The call loses an argument if there is one. -/
theorem loses_tree :
    loses m index (c.tree.withLead lead) = decide (index < c.arguments.length) := by
  obtain ⟨receiverType, hcall⟩ := exists_call?_callOf c.receiver c.name c.methodType
    (argumentTrees c.arguments)
  have haccepts : m.acceptsNode (c.tree.withLead lead) = true := hm.accepts_tree
  rw [Matcher.acceptsNode, call?_withLead, CallSite.tree_eq, hcall, Option.any_some] at haccepts
  rw [loses, call?_withLead, CallSite.tree_eq, hcall, Option.any_some, haccepts, Bool.true_and,
    Call.realArguments, realArguments_argumentTrees, length_argumentTrees]

/-- The argument that the call loses. -/
theorem lost?_tree :
    lost? m index (c.tree.withLead lead) = (argumentTrees c.arguments)[index]? := by
  obtain ⟨receiverType, hcall⟩ := exists_call?_callOf c.receiver c.name c.methodType
    (argumentTrees c.arguments)
  rw [lost?, hm.loses_tree, ← length_argumentTrees, arguments, call?_withLead, CallSite.tree_eq,
    hcall, Option.elim_some]
  split
  · next hlt =>
    cases htrees : argumentTrees c.arguments with
    | nil =>
      rw [htrees] at hlt
      exact absurd (of_decide_eq_true hlt) (Nat.not_lt_zero index)
    | cons first rest =>
      show ((first :: rest).map RightPadded.build)[index]?.map (·.element) = _
      rw [List.getElem?_map, Option.map_map]
      exact Option.map_id'
  · next hge => exact (List.getElem?_eq_none (by simpa using hge)).symm

/-- In the tree of the call, there is the call without the argument then. -/
theorem cut_tree (hlt : index < c.arguments.length) :
    cut m index (c.tree.withLead lead) =
      (callOf c.receiver c.name (c.methodType.withoutParameter index)
        (argumentTrees (c.withoutArgument index).arguments)).withLead lead := by
  obtain ⟨before, placed, after, harguments, hlength⟩ := exists_split hlt
  have htrees : argumentTrees c.arguments = argumentTrees before ++
      placed.argument.tree.withLead ⟨placed.lead⟩ :: argumentTrees after := by
    simp only [argumentTrees_eq_map, harguments, List.map_append, List.map_cons]
  have hloses : loses m index (c.tree.withLead lead) = true := by
    rw [hm.loses_tree, decide_eq_true hlt]
  have hclose := closeGap_argumentTrees harguments hlength
  rw [argumentTrees_append] at hclose
  rw [CallSite.tree_eq, htrees] at hloses ⊢
  exact cut_callOf ((length_argumentTrees before).trans hlength) hloses hclose

variable (hc : areSamples c.arguments = true)

include hc

/-- Below the call, nothing is accepted. -/
theorem not_accepts_of_mem_children {t : Tree} (ht : t ∈ children (c.tree.withLead lead)) :
    ∀ u ∈ nodes t, m.acceptsNode u = false := by
  rw [children_withLead, CallSite.tree_eq] at ht
  exact not_accepts_of_callsOnly hm.rejects
    (callsOnly_of_mem_children_callOf (callsOnly_of_mem_argumentTrees hc) t ht)

/-- Below the call, nothing loses an argument. -/
theorem not_loses_of_mem_children {t : Tree} (ht : t ∈ children (c.tree.withLead lead)) :
    ∀ u ∈ nodes t, loses m index u = false := fun u hu =>
  loses_of_not_accepts (hm.not_accepts_of_mem_children hc ht u hu)

/-- In the file with the call, nothing else is accepted. -/
theorem eq_tree_of_accepts {t : Tree} (ht : t ∈ nodes (.compilationUnit c.unit))
    (haccepts : m.acceptsNode t = true) : t = c.tree.withLead Build.statementLead := by
  obtain ⟨call, hcall, -⟩ := (Option.any_eq_true _ _).mp haccepts
  rcases mem_nodes.mp ((Build.mem_nodes_unit_singleton hcall).mp ht) with rfl | ⟨u, hu, ht⟩
  · rfl
  · rw [hm.not_accepts_of_mem_children hc hu t ht] at haccepts
    cases haccepts

/-- **Where the call is printed, the call without the argument is printed.** -/
theorem text_cutTree :
    text (cutTree m index (c.tree.withLead lead)) =
      lead.text.toList ++ (c.withoutArgument index).source.toList := by
  have hchildren : ∀ t ∈ children (c.tree.withLead lead), cutTree m index t = t := fun t ht =>
    cutTree_eq_self (hm.not_loses_of_mem_children hc ht)
  -- so the tree is cut at the call itself, if there is an argument to lose, or not at all
  rw [cutTree_eq, mapChildren_eq_self hchildren]
  by_cases hlt : index < c.arguments.length
  · have htext := (c.withoutArgument index).text_callOf_arguments
      (c.methodType.withoutParameter index) lead
    rw [withoutArgument_receiver, withoutArgument_name] at htext
    rw [hm.cut_tree hlt, htext]
  · have hloses : loses m index (c.tree.withLead lead) = false := by
      rw [hm.loses_tree, decide_eq_false hlt]
    rw [cut_of_not_loses hloses, withoutArgument_of_length_le (Nat.le_of_not_lt hlt),
      CallSite.tree_eq, CallSite.text_callOf_arguments]

/-- What is requested for the file is what the deleted argument refers to. -/
theorem requested_unit {name : String} :
    Requested m index (.compilationUnit c.unit) name ↔
      ∃ placed ∈ c.arguments[index]?, name ∈ placed.argument.references := by
  have hbelow :
      ¬∃ t ∈ children (c.tree.withLead Build.statementLead), Requested m index t name := by
    rintro ⟨t, ht, h⟩
    exact not_requested_of_not_loses (hm.not_loses_of_mem_children hc ht) h
  rw [CallSite.unit, requested_unit_iff, requested_iff, or_iff_left hbelow,
    hm.lost?_tree, argumentTrees_eq_map, List.getElem?_map]
  cases hplaced : c.arguments[index]? with
  | none => simp
  | some placed =>
    have hsample := areSamples_iff.mp hc placed (List.mem_of_getElem? hplaced)
    -- it goes with all that is in it, as no call in it loses anything
    have hkept : cutTree m index (placed.argument.tree.withLead ⟨placed.lead⟩) =
        placed.argument.tree.withLead ⟨placed.lead⟩ :=
      cutTree_eq_self fun u hu => loses_of_not_accepts
        (not_accepts_of_callsOnly hm.rejects (callsOnly_withLead.mpr (callsOnly_tree hsample)) u hu)
    simp [hkept, refersWithin_withLead, refersWithin_tree hsample]

/-- **The file without the argument is printed as its text.** -/
theorem print_cutTree_unit :
    print (cutTree m index (.compilationUnit c.unit)) = (c.withoutArgument index).unitSource := by
  have hunit := Build.text_unit (printsAround_cutTree m index) c.needsTerminator_tree
  rw [hm.text_cutTree hc] at hunit
  exact (c.withoutArgument index).print_eq_unitSource hunit

end Finds

/-! ### The recipe -/

/-- A call of three arguments, of which the last is a call. -/
def nestedSite : CallSite :=
  { receiver := .subFoo
    name := some "bar"
    arguments :=
      [⟨"", .int 1⟩, ⟨" ", .text "a b"⟩,
        ⟨" /* note */ ", .call
          { receiver := .foo
            name := some "baz"
            arguments :=
              [⟨"", .constant "MAX"⟩, ⟨" ", .localVariable "items" "java.util.List"⟩] }⟩] }

end Sample

end Lossless
