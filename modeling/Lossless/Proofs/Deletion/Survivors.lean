import Lossless.Proofs.Deletion.Cut

/-!
# Calls that survive

Calls that stand in a deleted argument are gone with it; all others survive
(`Lossless.DeleteArgument.survivors`). In the result they follow each other as they did before, and
there are no others (`Lossless.DeleteArgument.forall₂_survivors`): each is what its own part of the
tree has become, except that an argument may have been moved to the front of its list.

Other nodes are not matched up like this. The placeholder for arguments is new where the only
argument was deleted, and names of calls are attributed anew.
-/

namespace Lossless

open Java

namespace Java.Tree

/-- The calls among some nodes. -/
def calls (ts : List Tree) : List Tree := ts.filter (·.call?.isSome)

theorem calls_cons (t : Tree) (ts : List Tree) : calls (t :: ts) = calls [t] ++ calls ts :=
  List.filter_append [t] ts

theorem calls_flatMap (f : Tree → List Tree) (ts : List Tree) :
    calls (ts.flatMap f) = ts.flatMap fun t => calls (f t) := List.filter_flatMap

end Java.Tree

namespace DeleteArgument

open Tree

variable (m : Matcher) (index : Nat)

/-- The children of a node but for the argument that it loses. -/
def kept (t : Tree) : List Tree :=
  if loses m index t then (children t).eraseIdx (t.argumentPlace index) else children t

/-- The children that are kept are children. -/
theorem kept_subset (t : Tree) : kept m index t ⊆ children t := by
  rw [kept]
  split
  · exact List.eraseIdx_subset
  · exact List.Subset.refl _

/-- The nodes of a tree that are not in a deleted argument. -/
def survivors (t : Tree) : List Tree :=
  t :: (kept m index t).attach.flatMap fun ⟨c, _⟩ => survivors c
termination_by t
decreasing_by exact kept_subset m index t ‹_›

/-- A node survives, and so do the survivors below the children that are kept. -/
theorem survivors_eq (t : Tree) :
    survivors m index t = t :: (kept m index t).flatMap (survivors m index) := by
  rw [survivors, List.flatMap_subtype (g := survivors m index) fun c _ => rfl,
    List.unattach_attach]

/-- Survivors are nodes of the tree. -/
theorem survivors_subset (t : Tree) : survivors m index t ⊆ nodes t := by
  induction t using induction_on_children with
  | step t ih =>
    intro u hu
    rw [survivors_eq, List.mem_cons, List.mem_flatMap] at hu
    rw [mem_nodes]
    refine hu.imp_right ?_
    rintro ⟨c, hc, hu⟩
    exact ⟨c, kept_subset m index t hc, ih c (kept_subset m index t hc) hu⟩

variable {m index}

/-- What a child that is kept has become: it was cut, and perhaps it was moved to the front of the
arguments. Names of calls are no calls themselves, and may have been attributed anew. -/
inductive Becomes (m : Matcher) (index : Nat) : Tree → Tree → Prop
  | cut (c : Tree) (lead : Space) : Becomes m index c ((cutTree m index c).withLead lead)
  | name (n n' : Identifier) : Becomes m index (.identifier n) (.identifier n')

/-- A tree becomes the tree that is cut. -/
theorem becomes_cutTree (c : Tree) : Becomes m index c (cutTree m index c) := by
  have h : Becomes m index c ((cutTree m index c).withLead (cutTree m index c).lead) := .cut c _
  rwa [withLead_lead] at h

theorem forall₂_becomes_map (cs : List Tree) :
    List.Forall₂ (Becomes m index) cs (cs.map (cutTree m index)) := by
  rw [List.forall₂_map_right_iff, List.forall₂_same]
  exact fun c _ => becomes_cutTree c

/-- Arguments that close a gap are the ones that were there, and perhaps a placeholder. -/
theorem forall₂_closeGap (removed : Tree) (ps : List (RightPadded Tree)) :
    ∃ (cs : List Tree) (ns : List Java.Empty),
      List.Forall₂ (fun p c => ∃ lead, c = p.element.withLead lead) ps cs ∧
        (closeGap index removed ps).map (·.element) = cs ++ ns.map .empty := by
  have hsame : ∀ ps : List (RightPadded Tree),
      List.Forall₂ (fun p c => ∃ lead, c = p.element.withLead lead) ps (ps.map (·.element)) := by
    intro ps
    rw [List.forall₂_map_right_iff, List.forall₂_same]
    exact fun p _ => ⟨p.element.lead, (withLead_lead _).symm⟩
  cases ps with
  | nil => exact ⟨[], [Empty.build .empty], .nil, rfl⟩
  | cons first rest =>
    rw [closeGap]
    split
    · exact ⟨_, [], .cons ⟨removed.lead, rfl⟩ (hsame rest), (List.append_nil _).symm⟩
    · exact ⟨_, [], hsame (first :: rest), (List.append_nil _).symm⟩

variable (m index) in
/-- The arguments that are left become, in their order, what is in the list once the gap is closed,
but for the placeholders there. -/
theorem forall₂_becomes_arguments (removed : Tree) (ps : List (RightPadded Tree)) :
    ∃ (cs : List Tree) (ns : List Java.Empty),
      List.Forall₂ (Becomes m index) (ps.map (·.element)) cs ∧
        (closeGap index removed (ps.map (·.map (cutTree m index)))).map (·.element) =
          cs ++ ns.map .empty := by
  obtain ⟨cs, ns, hcs, heq⟩ := forall₂_closeGap removed (ps.map (·.map (cutTree m index)))
  refine ⟨cs, ns, ?_, heq⟩
  rw [List.forall₂_map_left_iff] at hcs ⊢
  refine hcs.imp fun p c hc => ?_
  obtain ⟨lead, rfl⟩ := hc
  exact .cut p.element lead

variable {t : Tree}

/-- A call that loses an argument keeps the rest of its children. -/
theorem kept_of_loses {c : Call} {before after : List (RightPadded Tree)} {p : RightPadded Tree}
    (h : loses m index t = true) (hcall : t.call? = some c)
    (hpadded : c.arguments.padded = before ++ p :: after) (hlength : before.length = index) :
    kept m index t = childrenOf t.front ++ (before ++ after).map (·.element) := by
  have hchildren : children t =
      (childrenOf t.front ++ before.map (·.element)) ++ p.element :: after.map (·.element) := by
    rw [children_eq, body_of_call hcall, childrenOf_append, childrenOf_parenthesized,
      Container.elements, hpadded, List.map_append, List.map_cons, List.append_assoc]
  have hplace : t.argumentPlace index = (childrenOf t.front ++ before.map (·.element)).length := by
    rw [argumentPlace, ← hlength, List.length_append, List.length_map]
  rw [kept, if_pos h, hchildren, hplace, eraseIdx_split, List.map_append, List.append_assoc]

theorem forall₂_becomes_receiver (o : Option (RightPadded Tree)) :
    List.Forall₂ (Becomes m index) (o.toList.map (·.element))
      ((o.map (·.map (cutTree m index))).toList.map (·.element)) := by
  cases o with
  | none => exact .nil
  | some p => exact .cons (becomes_cutTree p.element) .nil

variable (m index) in
/-- **The children of a node are those that were kept**, and perhaps a placeholder. -/
theorem forall₂_becomes (t : Tree) :
    ∃ (cs : List Tree) (ns : List Java.Empty),
      List.Forall₂ (Becomes m index) (kept m index t) cs ∧
        children (cutTree m index t) = cs ++ ns.map .empty := by
  cases h : loses m index t with
  | false =>
    refine ⟨_, [], forall₂_becomes_map _, ?_⟩
    rw [cutTree_of_not_loses h, children_mapChildren (keepsForm_cutTree m index).kind_eq, kept, h]
    exact (List.append_nil _).symm
  | true =>
    obtain ⟨c, before, p, after, hcall, hpadded, hlength⟩ := exists_call_of_loses h
    obtain ⟨cs, ns, hcs, hclosed⟩ := forall₂_becomes_arguments m index
      (cutTree m index p.element) (before ++ after)
    rw [kept_of_loses h hcall hpadded hlength]
    cases t with
    | methodInvocation n =>
      obtain rfl := Option.some.inj hcall
      have hfront : childrenOf (front (.methodInvocation n)) =
          n.select.toList.map (·.element) ++ [.identifier n.name] := by simp [front]
      let name := n.name.attribute (n.methodType.map (·.withoutParameter index))
      have hall : List.Forall₂ (Becomes m index)
          (n.select.toList.map (·.element) ++ [.identifier n.name] ++
            (before ++ after).map (·.element))
          ((n.select.map (·.map (cutTree m index))).toList.map (·.element) ++
            [.identifier name] ++ cs) :=
        List.rel_append (List.rel_append (forall₂_becomes_receiver n.select)
          (.cons (.name n.name name) .nil)) hcs
      refine ⟨_, ns, hfront ▸ hall, ?_⟩
      rw [cutTree_methodInvocation h hlength hpadded, children_methodInvocation,
        Container.elements, Container.withPadded, hclosed]
      simp [name]
    | newClass n =>
      obtain rfl := Option.some.inj hcall
      refine ⟨_, ns, .cons (becomes_cutTree n.constructed) hcs, ?_⟩
      rw [cutTree_newClass h hlength hpadded, children_newClass, Container.elements,
        Container.withPadded, hclosed]
      rfl
    | _ => cases hcall

/-! ### The whole tree -/

/-- There are no calls in placeholders. -/
theorem calls_placeholders (ns : List Java.Empty) :
    (ns.map Tree.empty).flatMap (fun t => calls (nodes t)) = [] := by
  rw [List.flatMap_eq_nil_iff]
  intro t ht
  obtain ⟨n, -, rfl⟩ := List.mem_map.mp ht
  rw [nodes_eq, children_empty]
  rfl

/-- A call and what has become of it. -/
def IsLeftOf (m : Matcher) (index : Nat) (u u' : Tree) : Prop :=
  ∃ lead, u' = (cutTree m index u).withLead lead

/-- The calls that survive and the calls afterwards correspond to each other, in their order. -/
theorem forall₂_of_becomes {t t' : Tree} (h : Becomes m index t t') :
    List.Forall₂ (IsLeftOf m index) (calls (survivors m index t)) (calls (nodes t')) := by
  -- on the tree as it was: what has become of its children is known but for what is in front
  induction t using induction_on_children generalizing t' with
  | step t ih =>
    rw [survivors_eq, nodes_eq, calls_cons, calls_cons t', calls_flatMap, calls_flatMap]
    cases h with
    | cut _ lead =>
      obtain ⟨cs, ns, hcs, hchildren⟩ := forall₂_becomes m index t
      have hkind : ((cutTree m index t).withLead lead).kind = t.kind := by
        rw [kind_withLead, (keepsForm_cutTree m index).kind_eq]
      have hself : List.Forall₂ (IsLeftOf m index) (calls [t])
          (calls [(cutTree m index t).withLead lead]) := by
        rw [calls, calls, List.filter_singleton, List.filter_singleton, isSome_call?_of_kind hkind]
        cases t.call?.isSome with
        | true => exact .cons ⟨lead, rfl⟩ .nil
        | false => exact .nil
      have hbelow : List.Forall₂ (fun c c' => c ∈ kept m index t ∧ Becomes m index c c')
          (kept m index t) cs := (List.forall₂_and_left _ _).mpr ⟨fun _ hc => hc, hcs⟩
      rw [children_withLead, hchildren, List.flatMap_append, calls_placeholders, List.append_nil]
      refine List.rel_append hself (List.rel_flatMap hbelow fun c c' hc => ?_)
      exact ih c (kept_subset m index t hc.1) hc.2
    | name n n' =>
      rw [children_identifier, List.subset_nil.mp (kept_subset m index (.identifier n))]
      exact .nil

/-- **The calls of the result are the calls that survive**, one by one. -/
theorem forall₂_survivors (t : Tree) :
    List.Forall₂ (fun u u' => u ∈ nodes t ∧ IsLeftOf m index u u') (calls (survivors m index t))
      (calls (nodes (cutTree m index t))) := by
  refine (List.forall₂_and_left _ _).mpr ⟨fun u hu => ?_, forall₂_of_becomes (becomes_cutTree t)⟩
  exact survivors_subset m index t (List.mem_filter.mp hu).1

/-- Every call of the result is left of a call that was there. -/
theorem exists_isLeftOf {u' : Tree} (h : u' ∈ nodes (cutTree m index t))
    (hcall : u'.call?.isSome = true) : ∃ u ∈ nodes t, IsLeftOf m index u u' := by
  have hmem : u' ∈ calls (nodes (cutTree m index t)) := List.mem_filter.mpr ⟨h, hcall⟩
  obtain ⟨hlength, hleft⟩ := List.forall₂_iff_get.mp (forall₂_survivors (m := m) t)
  obtain ⟨i, hi, rfl⟩ := List.getElem_of_mem hmem
  exact ⟨_, hleft i (hlength ▸ hi) hi⟩

end DeleteArgument

end Lossless
