import Lossless.Java.Call
import Lossless.Proofs.Java.Exchange
import Lossless.Proofs.Java.Places
import Lossless.Proofs.Tree.Pieces
import Lossless.Proofs.Visitor.BottomUp

/-!
# Calls around other children

Changes of nodes that keep the kinds of the nodes, and do not touch names, can be made below any
node without its noticing (`Lossless.Java.Tree.KeepsForm`): it prints what it printed, around the
changed children (`Lossless.Java.Tree.KeepsForm.body_mapChildren`). A call in particular calls
what it called before, with as many arguments, and whatever goes by that alone can be asked before
or after the change (`Lossless.Java.Tree.KeepsForm.gist_mapChildren`).
-/

namespace Lossless.Java

namespace Tree

/-! ### Changes that keep kinds -/

/-- A node with other children has the identity, the leading text and the markers that it had. -/
theorem head_mapChildren (f : Tree → Tree) (t : Tree) : (mapChildren f t).head = t.head :=
  head_rebuild (τ := Tree) (List.length_map _)

theorem kind_mapChildren (f : Tree → Tree) (t : Tree) : (mapChildren f t).kind = t.kind :=
  kind_rebuild (τ := Tree) (List.length_map _)

/-- It has all data that are not in its places. -/
theorem hollow_mapChildren (f : Tree → Tree) (t : Tree) : hollow (mapChildren f t) = hollow t :=
  hollow_rebuild (List.length_map _)

section Kinds

variable {f : Tree → Tree} (hkind : ∀ t, (f t).kind = t.kind) (t : Tree)

include hkind

/-- The new children are of the kinds of the old ones. -/
theorem forall₂_kind_eq :
    List.Forall₂ (fun c u => Anatomy.kind u = Anatomy.kind c) (children t)
      ((children t).map f) := by
  rw [List.forall₂_map_right_iff, List.forall₂_same]
  exact fun c _ => hkind c

/-- If the new children are of the kinds of the old ones, they take their places. -/
theorem children_mapChildren : children (mapChildren f t) = (children t).map f :=
  children_rebuild (forall₂_kind_eq hkind t)

/-- They get the paddings that were there. -/
theorem paddings_mapChildren : paddings (mapChildren f t) = paddings t :=
  paddings_rebuild (forall₂_kind_eq hkind t)

/-- Whether a statement needs a terminator is no matter of its children. -/
theorem needsTerminator_mapChildren : (mapChildren f t).needsTerminator = t.needsTerminator :=
  needsTerminator_eq (kind_mapChildren f t) (paddings_mapChildren hkind t)

end Kinds

/-- Where no node is changed, nothing is. -/
theorem bottomUp_eq_self {f : Tree → Tree} {t : Tree} (h : ∀ u ∈ nodes t, f u = u) :
    bottomUp f t = t := by
  induction t using induction_on_children with
  | step t ih =>
    have hchildren : ∀ c ∈ children t, bottomUp f c = c := fun c hc =>
      ih c hc fun u hu => h u (nodes_subset_of_mem_children hc hu)
    rw [bottomUp_eq, mapChildren_eq_self hchildren, h t (self_mem_nodes t)]

/-! ### Changes that are not noticed -/

/-- A change of nodes that is not noticed by the nodes above. -/
structure KeepsForm (f : Tree → Tree) : Prop where
  kind_eq : ∀ t, (f t).kind = t.kind
  needsTerminator_eq : ∀ t, (f t).needsTerminator = t.needsTerminator
  identifier_eq : ∀ n, f (.identifier n) = .identifier n

namespace KeepsForm

variable {f : Tree → Tree}

/-- Changes that keep the form of each node keep it when they are made from the bottom up. -/
theorem bottomUp (hf : KeepsForm f) : KeepsForm (bottomUp f) := by
  have hkind : ∀ t, (Lossless.bottomUp f t).kind = t.kind := fun t => by
    rw [bottomUp_eq, hf.kind_eq, kind_mapChildren]
  refine ⟨hkind, fun t => ?_, fun n => ?_⟩
  · rw [bottomUp_eq, hf.needsTerminator_eq, needsTerminator_mapChildren hkind]
  · rw [bottomUp_eq]
    exact hf.identifier_eq n

variable (hf : KeepsForm f)

include hf

/-- **A node prints around changed children what it printed before.** -/
theorem body_mapChildren (t : Tree) : (mapChildren f t).body = t.body.map (Piece.map f) := by
  have hchildren := children_mapChildren hf.kind_eq t
  refine eq_map_of_skeleton ?_ hchildren
  refine skeleton_body_eq (hollow_mapChildren f t)
    (paddings_mapChildren hf.kind_eq t) fun _ => ?_
  rw [hchildren, List.map_map]
  exact List.map_congr_left fun c _ => hf.needsTerminator_eq c

end KeepsForm

/-! ### Nodes under another head -/

section WithHead

variable (h : Head) (t : Tree)

theorem kind_withHead : (t.withHead h).kind = t.kind := by
  cases t <;> rfl

theorem head_withHead : (t.withHead h).head = h := by
  cases t <;> rfl

/-- The call that a node is has no part in the head. -/
theorem call?_withHead : (t.withHead h).call? = t.call? := by
  cases t <;> rfl

/-- A node with another head has the same children. -/
theorem children_withHead : children (t.withHead h) = children t := by
  cases t <;> rfl

/-- It prints the same but for the leading text. -/
theorem body_withHead : (t.withHead h).body = t.body := by
  cases t <;> rfl

theorem needsTerminator_withHead : (t.withHead h).needsTerminator = t.needsTerminator := by
  cases t <;> rfl

end WithHead

section WithLead

variable (lead : Space) (t : Tree)

theorem kind_withLead : (t.withLead lead).kind = t.kind := kind_withHead _ t

theorem id_withLead : (t.withLead lead).id = t.id := by
  cases t <;> rfl

theorem lead_withLead : (t.withLead lead).lead = lead := by
  cases t <;> rfl

theorem call?_withLead : (t.withLead lead).call? = t.call? := call?_withHead _ t

theorem children_withLead : children (t.withLead lead) = children t := children_withHead _ t

theorem needsTerminator_withLead : (t.withLead lead).needsTerminator = t.needsTerminator :=
  needsTerminator_withHead _ t

theorem withLead_lead : t.withLead t.lead = t := by
  cases t <;> rfl

theorem withLead_withLead (lead' : Space) :
    (t.withLead lead).withLead lead' = t.withLead lead' := by
  cases t <;> rfl

end WithLead

end Tree

/-! ### Calls -/

/-- What a matcher goes by: the attributed method, the name, and the number of arguments. -/
def Call.gist (c : Call) : Option MethodType × String × Nat :=
  (c.methodType, c.name, c.realArguments.length)

namespace Tree

/-- What a call prints in front of its parentheses. -/
def front : Tree → List (Piece Tree)
  | .methodInvocation n => receiver n.select ++ [.child (.identifier n.name)]
  | .newClass n => [.text "new", .child n.constructed]
  | _ => []

/-- The arguments of a call, with their padding. -/
def arguments (t : Tree) : List (RightPadded Tree) := t.call?.elim [] (·.arguments.padded)

/-- Which of the children of a call is the argument with this index. -/
def argumentPlace (t : Tree) (index : Nat) : Nat := (childrenOf t.front).length + index

/-- A call prints its arguments last, in parentheses. -/
theorem body_of_call {t : Tree} {c : Call} (h : t.call? = some c) :
    t.body = t.front ++ parenthesized c.arguments := by
  cases t with
  | methodInvocation n =>
    obtain rfl := Option.some.inj h
    rfl
  | newClass n =>
    obtain rfl := Option.some.inj h
    rfl
  | _ => cases h

/-- Whether a node is a call is a matter of its kind. -/
theorem isSome_call?_of_kind {t u : Tree} (h : u.kind = t.kind) :
    u.call?.isSome = t.call?.isSome := by
  cases t <;> cases u <;> first | rfl | cases h

/-- With other children a node that is no call does not become one. -/
theorem call?_mapChildren_of_no_call (f : Tree → Tree) {t : Tree} (h : t.call? = none) :
    (mapChildren f t).call? = none := by
  rw [← Option.isNone_iff_eq_none, ← Option.not_isSome, isSome_call?_of_kind (kind_mapChildren f t),
    h]
  rfl

theorem isEmpty_eq_of_kind {t u : Tree} (h : u.kind = t.kind) : u.isEmpty = t.isEmpty := by
  cases t <;> cases u <;> first | rfl | cases h

theorem elements_map (f : Tree → Tree) (c : Container Tree) :
    (c.map f).elements = c.elements.map f := by
  rw [Container.elements, Container.elements, Container.map, List.map_map, List.map_map]
  rfl

/-- With other elements of the same kinds a list has as many arguments that count. -/
theorem length_realArguments_map {f : Tree → Tree} (hkind : ∀ t, (f t).kind = t.kind)
    (c : Container Tree) :
    ((c.map f).elements.filter (!·.isEmpty)).length = (c.elements.filter (!·.isEmpty)).length := by
  rw [elements_map, List.filter_map, List.length_map]
  refine congrArg List.length (List.filter_congr fun t _ => ?_)
  rw [Function.comp_apply, isEmpty_eq_of_kind (hkind t)]

/-- A constructor call with other children. -/
theorem mapChildren_newClass (f : Tree → Tree) (n : NewClass Tree) :
    mapChildren f (.newClass n) =
      .newClass { n with constructed := f n.constructed, arguments := n.arguments.map f } := by
  refine Anatomy.ext (hollow_rebuild (List.length_map _)) ((places_mapChildren ?_).trans ?_)
  · simp [Anatomy.places, places, Place.required, Place.right]
  · simp [Anatomy.places, places, Container.map, Place.mapChild, Place.required, Place.right,
      RightPadded.map, Function.comp_def]

namespace KeepsForm

variable {f : Tree → Tree} (hf : KeepsForm f)

include hf

/-- A method invocation with other children keeps its name, which is of a fixed kind. -/
theorem mapChildren_methodInvocation (n : MethodInvocation Tree) :
    mapChildren f (.methodInvocation n) =
      .methodInvocation
        { n with select := n.select.map (·.map f), arguments := n.arguments.map f } := by
  refine Anatomy.ext (hollow_rebuild (List.length_map _)) ((places_mapChildren ?_).trans ?_)
  · exact fun p hp k hk => (hf.kind_eq p.child).trans (Anatomy.kind_of_only _ p hp k hk)
  · cases hselect : n.select <;>
      simp [Anatomy.places, places, hselect, Container.map, Place.mapChild, Place.fixed,
        Place.right, RightPadded.map, Function.comp_def, hf.identifier_eq]

/-- **A call with changed children is a call as before, with the arguments changed.** -/
theorem call?_mapChildren {t : Tree} {c : Call} (h : t.call? = some c) :
    ∃ receiverType, (mapChildren f t).call? =
      some { c with arguments := c.arguments.map f, receiverType } := by
  cases t with
  | methodInvocation n =>
    obtain rfl := Option.some.inj h
    rw [hf.mapChildren_methodInvocation]
    exact ⟨_, rfl⟩
  | newClass n =>
    obtain rfl := Option.some.inj h
    rw [mapChildren_newClass]
    exact ⟨_, rfl⟩
  | _ => cases h

/-- **The gist of a call is no matter of what is below it.** -/
theorem gist_mapChildren (t : Tree) :
    (mapChildren f t).call?.map Call.gist = t.call?.map Call.gist := by
  cases hcall : t.call? with
  | none => rw [call?_mapChildren_of_no_call f hcall]
  | some c =>
    obtain ⟨receiverType, hcall'⟩ := hf.call?_mapChildren hcall
    rw [hcall', Option.map_some, Option.map_some, Call.gist, Call.gist, Call.realArguments,
      Call.realArguments, length_realArguments_map hf.kind_eq]

end KeepsForm

end Tree

end Lossless.Java
