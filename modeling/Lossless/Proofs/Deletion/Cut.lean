import Lossless.Proofs.Java.Print
import Lossless.Recipe.DeleteArgument

/-!
# Calls that lose an argument

Where arguments are deleted, of every node that loses an argument only the cut node is left
(`Lossless.DeleteArgument.cut`), and a tree is cut from the bottom up
(`Lossless.DeleteArgument.cutTree`). What the argument referred to is noted
(`Lossless.DeleteArgument.requests`). Whether a node loses an argument depends on its gist, so it
can be seen in the tree as it was, before anything below the node has been cut
(`Lossless.DeleteArgument.loses_mapChildren`).
-/

namespace Lossless.DeleteArgument

open Java

/-- The matcher of the recipe, given its pattern. -/
def matcher (r : DeleteArgument) (pattern : MethodPattern) : Matcher :=
  { pattern, fallback := r.fallback }

variable (m : Matcher) (index : Nat)

/-! ### One node -/

/-- Is a node a call that the matcher accepts, with more arguments than `index`? -/
def loses (t : Tree) : Bool :=
  t.call?.any fun c => m.acceptsCall c && index < c.realArguments.length

/-- What becomes of a node when it loses an argument, if it does. -/
def cutting (t : Tree) : Update Tree :=
  if loses m index t then (t.withoutArgument? index).elim .same fun x => .new x.1 else .same

/-- A node without the argument that it loses. -/
def cut (t : Tree) : Tree := (cutting m index t).of t

/-- What the argument that a node loses referred to. -/
def requests (t : Tree) : List String :=
  if loses m index t then (t.withoutArgument? index).elim [] fun x => references x.2 else []

/-- Does the matcher accept calls with this gist? -/
def acceptsGist (g : Option MethodType × String × Nat) : Bool :=
  match g.1 with
  | some type => m.acceptsAttributed type g.2.1 g.2.2
  | none => m.acceptsName g.2.1 g.2.2

/-- Whether a call loses an argument is a matter of its gist. -/
theorem loses_eq (t : Tree) :
    loses m index t = (t.call?.map Call.gist).any fun g => acceptsGist m g && index < g.2.2 := by
  rw [Option.any_map]
  rfl

/-- **What is changed below a node does not decide whether it loses an argument.** -/
theorem loses_mapChildren {f : Tree → Tree} (hf : Tree.KeepsForm f) (t : Tree) :
    loses m index (mapChildren f t) = loses m index t := by
  rw [loses_eq, loses_eq, hf.gist_mapChildren]

variable {m index} {t : Tree}

/-- A node that loses nothing is left the same. -/
theorem cutting_of_not_loses (h : loses m index t = false) : cutting m index t = .same := by
  rw [cutting, h]
  rfl

theorem cut_of_not_loses (h : loses m index t = false) : cut m index t = t := by
  rw [cut, cutting_of_not_loses h, Update.of_same]

theorem requests_of_not_loses (h : loses m index t = false) : requests m index t = [] := by
  rw [requests, h]
  rfl

theorem exists_split {α : Type} {l : List α} {i : Nat} (h : i < l.length) :
    ∃ before a after, l = before ++ a :: after ∧ before.length = i := by
  refine ⟨l.take i, l[i], l.drop (i + 1), ?_, ?_⟩
  · rw [List.cons_getElem_drop_succ, List.take_append_drop]
  · rw [List.length_take, Nat.min_eq_left (Nat.le_of_lt h)]

/-- Where an argument is lost there is one, with others before and behind it. -/
theorem exists_call_of_loses (h : loses m index t = true) :
    ∃ c before p after, t.call? = some c ∧ c.arguments.padded = before ++ p :: after ∧
      before.length = index := by
  obtain ⟨c, hcall, hc⟩ := (Option.any_eq_true _ _).mp h
  rw [Bool.and_eq_true, decide_eq_true_eq] at hc
  have hlt : index < c.arguments.padded.length := by
    refine Nat.lt_of_lt_of_le hc.2 (Nat.le_trans (List.length_filter_le _ _) ?_)
    rw [Container.elements, List.length_map]
  obtain ⟨before, p, after, hpadded, hlength⟩ := exists_split hlt
  exact ⟨c, before, p, after, hcall, hpadded, hlength⟩

/-- There is an argument to remove if there are more than the position says. -/
theorem withoutArgument?_eq_none_iff {c : Call} (hcall : t.call? = some c) :
    t.withoutArgument? index = none ↔ c.arguments.padded.length ≤ index := by
  cases t with
  | methodInvocation n =>
    obtain rfl := Option.some.inj hcall
    rw [Tree.withoutArgument?, Java.withoutArgument?]
    cases hget : n.arguments.padded[index]? with
    | none => simpa using hget
    | some p => simpa using (List.getElem?_eq_some_iff.mp hget).1
  | newClass n =>
    obtain rfl := Option.some.inj hcall
    rw [Tree.withoutArgument?, Java.withoutArgument?]
    cases hget : n.arguments.padded[index]? with
    | none => simpa using hget
    | some p => simpa using (List.getElem?_eq_some_iff.mp hget).1
  | _ => cases hcall

/-- Where an argument is to be lost there is one to be taken out. -/
theorem exists_withoutArgument?_eq (h : loses m index t = true) :
    ∃ x, t.withoutArgument? index = some x := by
  obtain ⟨c, before, p, after, hcall, hpadded, hlength⟩ := exists_call_of_loses h
  rw [← Option.ne_none_iff_exists', ne_eq, withoutArgument?_eq_none_iff hcall, hpadded,
    List.length_append, List.length_cons]
  omega

/-- A call that loses an argument is another one then. -/
theorem exists_cutting_eq_new (h : loses m index t = true) :
    ∃ t', cutting m index t = .new t' := by
  obtain ⟨x, hx⟩ := exists_withoutArgument?_eq h
  rw [cutting, if_pos h, hx]
  exact ⟨x.1, rfl⟩

theorem eraseIdx_split {α : Type} (before after : List α) (a : α) :
    (before ++ a :: after).eraseIdx before.length = before ++ after := by
  rw [List.eraseIdx_append_of_length_le (Nat.le_refl _), Nat.sub_self, List.eraseIdx_cons_zero]

section Cut

variable {arguments : Container Tree} {before after : List (RightPadded Tree)}
  {p : RightPadded Tree}

/-- The list of arguments without one of them: the gap between those in front and those behind is
closed. -/
theorem withoutArgument?_eq (hlength : before.length = index)
    (hpadded : arguments.padded = before ++ p :: after) :
    Java.withoutArgument? arguments index =
      some (arguments.withPadded (closeGap index p.element (before ++ after)), p.element) := by
  obtain rfl := hlength
  have hget : arguments.padded[before.length]? = some p := by
    rw [hpadded, List.getElem?_append_right (Nat.le_refl _), Nat.sub_self, List.getElem?_cons_zero]
  rw [Java.withoutArgument?, hget, Option.map_some, hpadded, eraseIdx_split]

/-- What is left of a method invocation that loses an argument: the others, with the gap closed, and
the types that go with them. -/
theorem cut_methodInvocation {n : MethodInvocation Tree}
    (h : loses m index (.methodInvocation n) = true) (hlength : before.length = index)
    (hpadded : n.arguments.padded = before ++ p :: after) :
    cut m index (.methodInvocation n) =
      .methodInvocation { n with
        arguments := n.arguments.withPadded (closeGap index p.element (before ++ after))
        methodType := n.methodType.map (·.withoutParameter index)
        name := n.name.attribute (n.methodType.map (·.withoutParameter index)) } := by
  rw [cut, cutting, if_pos h, Tree.withoutArgument?, withoutArgument?_eq hlength hpadded]
  rfl

/-- The same for a constructor call, which has no name to be attributed. -/
theorem cut_newClass {n : NewClass Tree} (h : loses m index (.newClass n) = true)
    (hlength : before.length = index) (hpadded : n.arguments.padded = before ++ p :: after) :
    cut m index (.newClass n) =
      .newClass { n with
        arguments := n.arguments.withPadded (closeGap index p.element (before ++ after))
        constructorType := n.constructorType.map (·.withoutParameter index) } := by
  rw [cut, cutting, if_pos h, Tree.withoutArgument?, withoutArgument?_eq hlength hpadded]
  rfl

end Cut

section CutCall

variable {c : Call} {before after : List (RightPadded Tree)} {p : RightPadded Tree}

theorem attribute_eq (n : Identifier) (type : Option MethodType) :
    n.attribute type = { n with type := n.type.map fun old => type.elim old .ofMethod } := by
  obtain ⟨head, simpleName, old, fieldType⟩ := n
  cases type <;> cases old <;> rfl

/-- Of a call that loses an argument, a call is left. -/
theorem call?_cut_of_loses (h : loses m index t = true) (hcall : t.call? = some c)
    (hpadded : c.arguments.padded = before ++ p :: after) (hlength : before.length = index) :
    (cut m index t).call? = some
      { c with
        arguments := c.arguments.withPadded (closeGap index p.element (before ++ after))
        methodType := c.methodType.map (·.withoutParameter index) } := by
  cases t with
  | methodInvocation n =>
    obtain rfl := Option.some.inj hcall
    rw [cut_methodInvocation h hlength hpadded, attribute_eq]
    rfl
  | newClass n =>
    obtain rfl := Option.some.inj hcall
    rw [cut_newClass h hlength hpadded]
    rfl
  | _ => cases hcall

end CutCall

variable (m index)

/-- A node that is cut is cut behind its head, and stays of its kind. -/
theorem cut_keeps (t : Tree) :
    (cut m index t).kind = t.kind ∧ (cut m index t).head = t.head ∧
      (cut m index t).needsTerminator = t.needsTerminator := by
  cases hloses : loses m index t with
  | false =>
    rw [cut_of_not_loses hloses]
    exact ⟨rfl, rfl, rfl⟩
  | true =>
    obtain ⟨c, before, p, after, hcall, hpadded, hlength⟩ := exists_call_of_loses hloses
    cases t with
    | methodInvocation n =>
      obtain rfl := Option.some.inj hcall
      rw [cut_methodInvocation hloses hlength hpadded]
      exact ⟨rfl, rfl, rfl⟩
    | newClass n =>
      obtain rfl := Option.some.inj hcall
      rw [cut_newClass hloses hlength hpadded]
      exact ⟨rfl, rfl, rfl⟩
    | _ => cases hcall

/-- To cut nodes is not noticed by the nodes above. -/
theorem keepsForm_cut : Tree.KeepsForm (cut m index) :=
  ⟨fun t => (cut_keeps m index t).1, fun t => (cut_keeps m index t).2.2,
    fun _ => cut_of_not_loses rfl⟩

/-- The tree without the arguments that its nodes lose. -/
def cutTree (t : Tree) : Tree := bottomUp (cut m index) t

/-- A tree is cut by cutting its children and then the node over them. -/
theorem cutTree_eq (t : Tree) : cutTree m index t = cut m index (mapChildren (cutTree m index) t) :=
  bottomUp_eq _ t

/-- A cut tree has the form of the tree before. -/
theorem keepsForm_cutTree : Tree.KeepsForm (cutTree m index) := (keepsForm_cut m index).bottomUp

theorem head_cutTree (t : Tree) : (cutTree m index t).head = t.head := by
  rw [cutTree_eq, (cut_keeps m index _).2.1, Tree.head_mapChildren]

variable {m index}

/-- Around a node that loses nothing only its children are cut. -/
theorem cutTree_of_not_loses (h : loses m index t = false) :
    cutTree m index t = mapChildren (cutTree m index) t := by
  rw [cutTree_eq, cut_of_not_loses]
  rw [loses_mapChildren m index (keepsForm_cutTree m index), h]

/-- Where no node loses an argument, nothing is cut. -/
theorem cutTree_eq_self {t : Tree} (h : ∀ u ∈ nodes t, loses m index u = false) :
    cutTree m index t = t :=
  Tree.bottomUp_eq_self fun u hu => cut_of_not_loses (h u hu)

section CutTree

variable {before after : List (RightPadded Tree)} {p : RightPadded Tree}

theorem padded_map {f : Tree → Tree} {arguments : Container Tree}
    (hpadded : arguments.padded = before ++ p :: after) :
    (arguments.map f).padded = before.map (·.map f) ++ p.map f :: after.map (·.map f) := by
  rw [Container.map, hpadded, List.map_append, List.map_cons]

/-- What is left of a method invocation: everything in it is cut, the argument is gone. -/
theorem cutTree_methodInvocation {n : MethodInvocation Tree}
    (h : loses m index (.methodInvocation n) = true) (hlength : before.length = index)
    (hpadded : n.arguments.padded = before ++ p :: after) :
    cutTree m index (.methodInvocation n) =
      .methodInvocation { n with
        select := n.select.map (·.map (cutTree m index))
        arguments := n.arguments.withPadded (closeGap index (cutTree m index p.element)
          ((before ++ after).map (·.map (cutTree m index))))
        methodType := n.methodType.map (·.withoutParameter index)
        name := n.name.attribute (n.methodType.map (·.withoutParameter index)) } := by
  have hkeeps := keepsForm_cutTree m index
  rw [← loses_mapChildren m index hkeeps, hkeeps.mapChildren_methodInvocation] at h
  rw [cutTree_eq, hkeeps.mapChildren_methodInvocation,
    cut_methodInvocation h ((List.length_map _).trans hlength) (padded_map hpadded),
    List.map_append]
  rfl

/-- What is left of a constructor call. -/
theorem cutTree_newClass {n : NewClass Tree} (h : loses m index (.newClass n) = true)
    (hlength : before.length = index) (hpadded : n.arguments.padded = before ++ p :: after) :
    cutTree m index (.newClass n) =
      .newClass { n with
        constructed := cutTree m index n.constructed
        arguments := n.arguments.withPadded (closeGap index (cutTree m index p.element)
          ((before ++ after).map (·.map (cutTree m index))))
        constructorType := n.constructorType.map (·.withoutParameter index) } := by
  have hkeeps := keepsForm_cutTree m index
  rw [← loses_mapChildren m index hkeeps, Tree.mapChildren_newClass] at h
  rw [cutTree_eq, Tree.mapChildren_newClass,
    cut_newClass h ((List.length_map _).trans hlength) (padded_map hpadded), List.map_append]
  rfl

end CutTree

variable (m index)

/-! ### Calls within calls -/

/-- A method `b` of a class `A` with two parameters. Of the first, the type is not known. -/
def sampleMethod : MethodType :=
  { declaringType := { fullyQualifiedName := "A" }
    name := "b"
    flags := {}
    returnType := .primitive .int
    parameterNames := ["p", "q"]
    parameterTypes := [.unknown, .primitive .int] }

/-- The call `b(x,y)`, which is not attributed. -/
def sampleReceiver : Tree :=
  Build.invocation none "b" [Build.name "x" none, Build.name "y" none] none

/-- The call `b(u,v)`. -/
def sampleArgument : Tree :=
  Build.invocation none "b" [Build.name "u" none, Build.name "v" none] sampleMethod

/-- The call `b(x,y).b(b(u,v), w)`. -/
def sampleCall : Tree :=
  Build.invocation sampleReceiver "b"
    [sampleArgument, (Build.name "w" none).withLead .single] sampleMethod

/-- The file with the statement `b(x,y).b(b(u,v), w);`, where the receiver is not attributed. -/
def sampleUnit : CompilationUnit Tree := Build.unit [] [sampleCall]

omit m index in
/-- There are three calls in the file. -/
theorem mem_nodes_sampleUnit {t : Tree} {c : Call} (hcall : t.call? = some c) :
    t ∈ nodes (.compilationUnit sampleUnit) ↔
      t = sampleCall.withLead Build.statementLead ∨ t = sampleReceiver ∨ t = sampleArgument := by
  have hname (s : String) : t ∉ nodes (Build.name s none) := Build.not_mem_nodes_identifier hcall _
  have hlast : t ∉ nodes ((Build.name "w" none).withLead .single) :=
    Build.not_mem_nodes_identifier hcall _
  have hreceiver : t ∈ nodes sampleReceiver ↔ t = sampleReceiver := by
    rw [mem_nodes, sampleReceiver, Build.mem_nodes_children_invocation hcall]
    simp [hname]
  have hargument : t ∈ nodes sampleArgument ↔ t = sampleArgument := by
    rw [mem_nodes, sampleArgument, Build.mem_nodes_children_invocation hcall]
    simp [hname]
  rw [sampleUnit, Build.mem_nodes_unit_singleton hcall, mem_nodes, Tree.children_withLead,
    sampleCall, Build.mem_nodes_children_invocation hcall]
  simp [hlast, hreceiver, hargument]

/-- The recipe for calls of a method `b` with two arguments. -/
def sampleRecipe (index : UInt64) : DeleteArgument :=
  { pattern := "A b(*,*)", index, fallback := .nameOnly }

/-- Its pattern. -/
def samplePattern : MethodPattern :=
  { text := "A b(*,*)"
    parts := ⟨['A'], ['b'], [['*'], ['*']]⟩
    type := .named [.segment ['A']] true 0
    name := .form ['b']
    parameters := [.any, .any] }

theorem parse_samplePattern : MethodPattern.parse "A b(*,*)" = .ok samplePattern := by decide

end Lossless.DeleteArgument
