import Lossless.Proofs.Java.References
import Lossless.Proofs.Sample.Pattern
import Lossless.Proofs.Sample.Text

/-!
# What the arguments of call sites call and refer to

Two things about an argument matter when it is deleted, or when another is. All calls in it, at any
depth, are calls of `baz` (`Lossless.Sample.callsOnly_tree`), so that a pattern for the call around
it finds none of them. And what its tree refers to are the names that it is known to refer to
(`Lossless.Sample.refersWithin_tree`): its class for a variable, the field for a constant, and for a
call the class of its receiver and whatever the arguments refer to. Both are shown for arguments and
lists of arguments together, by induction over the calls within calls.
-/

namespace Lossless

/-! ### Trees with calls of one name -/

namespace Java.Tree

/-- All calls in a tree go by this name, and so do the methods that are attributed to them. -/
def CallsOnly (name : String) (t : Tree) : Prop :=
  ∀ u ∈ nodes t, ∀ c ∈ u.call?, c.name = name ∧ ∀ type ∈ c.methodType, type.name = name

variable {name : String} {t : Tree}

/-- There are only such calls in a tree if the node is none other, and none of its children has
others in it. -/
theorem callsOnly_iff :
    CallsOnly name t ↔
      (∀ c ∈ t.call?, c.name = name ∧ ∀ type ∈ c.methodType, type.name = name) ∧
        ∀ d ∈ children t, CallsOnly name d := by
  constructor
  · exact fun h =>
      ⟨h t (self_mem_nodes t), fun d hd u hu => h u (nodes_subset_of_mem_children hd hu)⟩
  · rintro ⟨hself, hchildren⟩ u hu
    rcases mem_nodes.mp hu with rfl | ⟨d, hd, hu⟩
    · exact hself
    · exact hchildren d hd u hu

theorem callsOnly_withLead {lead : Space} :
    CallsOnly name (t.withLead lead) ↔ CallsOnly name t := by
  rw [callsOnly_iff, callsOnly_iff (t := t), call?_withLead, children_withLead]

/-- In a node without children that is no call there is none. -/
theorem callsOnly_leaf (hcall : t.call? = none) (hchildren : children t = []) :
    CallsOnly name t := by
  rw [callsOnly_iff, hcall, hchildren]
  simp

end Java.Tree

namespace Sample

open Java Tree

/-! ### Calls -/

section Call

variable {receiver : Receiver} {name : Option String} {m : MethodType} {arguments : List Tree}

variable (receiver name m arguments) in
/-- The call that a sample is. -/
theorem exists_call?_callOf :
    ∃ receiverType, (callOf receiver name m arguments).call? =
      some { arguments := Build.arguments arguments
             methodType := some m
             name := patternName name
             receiverType } := by
  cases name with
  | some name => exact ⟨_, rfl⟩
  | none => exact ⟨_, rfl⟩

/-- Beside its arguments, a call has only names below it. -/
theorem callsOnly_of_mem_children_callOf {only : String}
    (h : ∀ t ∈ arguments, CallsOnly only t) :
    ∀ t ∈ children (callOf receiver name m arguments), CallsOnly only t := by
  have hname : ∀ n, CallsOnly only (.identifier n) := fun n =>
    callsOnly_leaf rfl (children_identifier n)
  have harguments : ∀ t ∈ (Build.arguments arguments).elements, CallsOnly only t := by
    intro t ht
    rcases Build.mem_arguments.mp ht with ht | ⟨-, rfl⟩
    · exact h t ht
    · exact callsOnly_leaf rfl (children_empty _)
  cases name with
  | some name =>
    rw [callOf, Build.invocation, children_methodInvocation]
    simpa [Build.name, RightPadded.build, hname] using harguments
  | none =>
    rw [callOf, Build.newClass, children_newClass]
    simpa [Build.name, withLead, withHead, hname] using harguments

end Call

mutual

/-- **Arguments call nothing but `baz`.** -/
theorem callsOnly_tree {a : Argument} (h : a.isSample = true) : CallsOnly "baz" a.tree := by
  cases a with
  | call site =>
    obtain ⟨receiver, name, arguments⟩ := site
    rw [Argument.isSample, Bool.and_eq_true, decide_eq_true_eq] at h
    obtain ⟨rfl, harguments⟩ := h
    rw [Argument.tree, callTree_eq, callsOnly_iff]
    refine ⟨fun c hc => ?_, callsOnly_of_mem_children_callOf
      (callsOnly_of_mem_argumentTrees harguments)⟩
    obtain ⟨receiverType, hcall⟩ := exists_call?_callOf receiver (some "baz")
      (methodTypeOf receiver (some "baz") (arguments.map (·.argument.parameterType)))
      (argumentTrees arguments)
    rw [hcall] at hc
    obtain rfl := Option.some.inj hc
    refine ⟨rfl, fun type htype => ?_⟩
    obtain rfl := Option.some.inj htype
    exact (methodTypeOf_eq _ _ _).1
  | int value => exact callsOnly_leaf rfl (children_literal _)
  | text content => exact callsOnly_leaf rfl (children_literal _)
  | localVariable name className => exact callsOnly_leaf rfl (children_identifier _)
  | constant name => exact callsOnly_leaf rfl (children_identifier _)

/-- In the arguments of a sample there are calls of `baz` only. -/
theorem callsOnly_of_mem_argumentTrees {arguments : List PlacedArgument}
    (h : areSamples arguments = true) : ∀ t ∈ argumentTrees arguments, CallsOnly "baz" t := by
  cases arguments with
  | nil => exact fun _ ht => absurd ht List.not_mem_nil
  | cons first rest =>
    obtain ⟨lead, argument⟩ := first
    rw [areSamples, Bool.and_eq_true] at h
    rw [argumentTrees, List.forall_mem_cons, callsOnly_withLead]
    exact ⟨callsOnly_tree h.1, callsOnly_of_mem_argumentTrees h.2⟩

end

/-! ### References -/

section References

variable {name : String}

/-- A name of an object refers to the class. -/
theorem refersWithin_name {c : ClassType} (hpackage : c.packageName ≠ "java.lang") (s : String) :
    RefersWithin (Build.name s (some (.ofClass c))) name ↔ name = c.fullyQualifiedName := by
  rw [Build.name, refersWithin_identifier, refersTo_iff]
  simpa [attributedTypes, Identifier.build, importedName?, importedMethod?, hpackage] using eq_comm

/-- A static field refers to its own name. -/
theorem refersWithin_staticField (c : ClassType) (s : String) (type : Primitive) :
    RefersWithin (Build.staticField c s (.primitive type)) name ↔
      name = c.fullyQualifiedName ++ "." ++ s := by
  rw [Build.staticField, refersWithin_identifier, refersTo_iff]
  simpa [attributedTypes, Identifier.build, importedName?, importedMethod?] using eq_comm

theorem not_refersWithin_literal (n : Literal) : ¬RefersWithin (.literal n) name := by
  rw [refersWithin_iff, refersTo_iff, children_literal]
  simp [attributedTypes, importedMethod?]

/-- A call of a method of an object refers to the class of the object, and to what the arguments
refer to. -/
theorem refersWithin_callOf (receiver : Receiver) (method : String) (m : MethodType)
    (arguments : List Tree) :
    RefersWithin (callOf receiver (some method) m arguments) name ↔
      name = receiver.fullyQualifiedName ∨ ∃ t ∈ arguments, RefersWithin t name := by
  have hreceiver : receiver.classType.packageName ≠ "java.lang" := by cases receiver <;> decide
  have hname : receiver.classType.fullyQualifiedName = receiver.fullyQualifiedName := by
    cases receiver <;> rfl
  have harguments : (∃ t ∈ (Build.arguments arguments).elements, RefersWithin t name) ↔
      ∃ t ∈ arguments, RefersWithin t name := by
    constructor
    · rintro ⟨t, ht, h⟩
      rcases Build.mem_arguments.mp ht with ht | ⟨-, rfl⟩
      · exact ⟨t, ht, h⟩
      · exact absurd h (not_refersWithin_empty _)
    · rintro ⟨t, ht, h⟩
      exact ⟨t, Build.mem_arguments.mpr (.inl ht), h⟩
  -- static or not, a method that is called with a receiver is not imported
  have hself : ∀ n : MethodInvocation Tree, n.methodType = some m → n.select.isSome = true →
      ¬RefersTo (.methodInvocation n) name := by
    intro n hm hselect
    rw [refersTo_iff, importedMethod?, hm]
    cases hn : n.select <;> simp_all [attributedTypes, importedName?]
  have hcalled : ¬RefersTo (.identifier (Identifier.build method (some (.ofMethod m)))) name := by
    rw [refersTo_iff]
    simp [attributedTypes, Identifier.build, importedName?, importedMethod?]
  have hselect :
      RefersWithin (Build.name receiver.variableName (some (.ofClass receiver.classType))) name ↔
        name = receiver.fullyQualifiedName := by
    rw [refersWithin_name hreceiver, hname]
  rw [callOf, Build.invocation, refersWithin_methodInvocation, harguments]
  simp only [Option.map_some, hcalled, false_or]
  simp [hself, RightPadded.build, hselect]

end References

mutual

/-- **An argument refers to its references.** -/
theorem refersWithin_tree {a : Argument} (h : a.isSample = true) (name : String) :
    RefersWithin a.tree name ↔ name ∈ a.references := by
  cases a with
  | int value => exact iff_of_false (not_refersWithin_literal _) List.not_mem_nil
  | text content => exact iff_of_false (not_refersWithin_literal _) List.not_mem_nil
  | localVariable s className =>
    have hpackage : ∀ x ∈ locals, (ClassType.named x.2).packageName ≠ "java.lang" := by decide
    rw [Argument.tree, Argument.references, List.mem_singleton]
    exact refersWithin_name (hpackage _ (List.contains_iff_mem.mp h)) s
  | constant s =>
    rw [Argument.tree, Argument.references, List.mem_singleton]
    exact refersWithin_staticField _ s .int
  | call site =>
    obtain ⟨receiver, method, arguments⟩ := site
    rw [Argument.isSample, Bool.and_eq_true, decide_eq_true_eq] at h
    obtain ⟨rfl, harguments⟩ := h
    rw [Argument.tree, Argument.references, callTree_eq, refersWithin_callOf,
      exists_refersWithin_argumentTrees harguments, List.mem_cons]

/-- The arguments of a sample refer to what is said of them. -/
theorem exists_refersWithin_argumentTrees {arguments : List PlacedArgument}
    (h : areSamples arguments = true) (name : String) :
    (∃ t ∈ argumentTrees arguments, RefersWithin t name) ↔ name ∈ argumentReferences arguments := by
  cases arguments with
  | nil => simp [argumentTrees, argumentReferences]
  | cons first rest =>
    obtain ⟨lead, argument⟩ := first
    rw [areSamples, Bool.and_eq_true] at h
    have hrest := exists_refersWithin_argumentTrees h.2 name
    rw [argumentTrees, argumentReferences, List.mem_append, ← refersWithin_tree h.1, ← hrest]
    simp [refersWithin_withLead]

end

end Sample

end Lossless
