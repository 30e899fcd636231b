import Lossless.Proofs.Deletion.Attribution
import Lossless.Proofs.Java.References

/-!
# Imports that a deletion makes superfluous

An argument is looked through for references when it is deleted, and by then the calls inside it
have been cut. What they have lost meanwhile was looked through when they lost it, so together the
requests are what the arguments referred to in the tree as it was
(`Lossless.DeleteArgument.refersWithin_forgetNames`).

There is one exception. A call that loses an argument has the method attributed to its name anew,
in the place of whatever was attributed to the name before. If that was a class, and the call
stands in an argument that goes as well, then nobody asks for the class
(`Lossless.DeleteArgument.renamed_class_not_requested`). So the arguments are taken with these
types left out (`Lossless.DeleteArgument.forgetNames`). Where names of calls mean methods, as they
should, this makes no difference, and `Lossless.DeleteArgument.importRequests_apply` says both.
-/

namespace Lossless

open Java

namespace DeleteArgument

open Tree

variable (m : Matcher) (index : Nat)

/-! ### The arguments that go -/

/-- The argument that a node loses. -/
def lost? (t : Tree) : Option Tree :=
  if loses m index t then t.arguments[index]?.map (·.element) else none

/-- The names that the arguments refer to which go from a tree, when they go. -/
def Requested (t : Tree) (name : String) : Prop :=
  ∃ u ∈ nodes t, ∃ a ∈ lost? m index u, RefersWithin (cutTree m index a) name

/-- What is taken out is the argument at the position. -/
theorem snd_withoutArgument? (t : Tree) :
    (t.withoutArgument? index).map Prod.snd = t.arguments[index]?.map (·.element) := by
  cases t with
  | methodInvocation n =>
    rw [Tree.withoutArgument?, Java.withoutArgument?, arguments, call?, Option.elim_some]
    cases n.arguments.padded[index]? <;> rfl
  | newClass n =>
    rw [Tree.withoutArgument?, Java.withoutArgument?, arguments, call?, Option.elim_some]
    cases n.arguments.padded[index]? <;> rfl
  | _ => rfl

/-- The requests are the references of the argument that is lost. -/
theorem requests_eq (t : Tree) : requests m index t = (lost? m index t).elim [] references := by
  rw [requests, lost?, ← snd_withoutArgument?]
  split
  · cases t.withoutArgument? index <;> rfl
  · rfl

theorem arguments_mapChildren {f : Tree → Tree} (hf : KeepsForm f) (t : Tree) :
    (mapChildren f t).arguments = t.arguments.map (·.map f) := by
  cases hcall : t.call? with
  | none =>
    rw [arguments, arguments, call?_mapChildren_of_no_call f hcall, hcall]
    rfl
  | some c =>
    obtain ⟨receiverType, hcall'⟩ := hf.call?_mapChildren hcall
    rw [arguments, arguments, hcall, hcall']
    rfl

/-- Which argument is lost can be said of the tree before its children change. -/
theorem lost?_mapChildren {f : Tree → Tree} (hf : KeepsForm f) (t : Tree) :
    lost? m index (mapChildren f t) = (lost? m index t).map f := by
  rw [lost?, lost?, loses_mapChildren m index hf, arguments_mapChildren hf]
  split
  · rw [List.getElem?_map]
    cases t.arguments[index]? <;> rfl
  · rfl

/-- **What is requested for a tree** is what the arguments refer to when they go. -/
theorem mem_requests_turns {t : Tree} {name : String} :
    name ∈ (turns (cut m index) t).flatMap (requests m index) ↔ Requested m index t name := by
  have hturn : ∀ u, name ∈ requests m index (mapChildren (bottomUp (cut m index)) u) ↔
      ∃ a ∈ lost? m index u, RefersWithin (cutTree m index a) name := by
    intro u
    rw [requests_eq]
    show name ∈ (lost? m index (mapChildren (cutTree m index) u)).elim [] references ↔ _
    rw [lost?_mapChildren m index (keepsForm_cutTree m index)]
    cases lost? m index u with
    | none => simp
    | some a => simp [mem_references_iff]
  simp only [List.mem_flatMap, mem_turns, Requested]
  constructor
  · rintro ⟨_, ⟨u, hu, rfl⟩, hname⟩
    exact ⟨u, hu, (hturn u).mp hname⟩
  · rintro ⟨u, hu, h⟩
    exact ⟨_, ⟨u, hu, rfl⟩, (hturn u).mpr h⟩

/-- A name is requested for the argument that a node loses, with everything cut in it, or below a
child. -/
theorem requested_iff {t : Tree} {name : String} :
    Requested m index t name ↔
      (∃ a ∈ lost? m index t, RefersWithin (cutTree m index a) name) ∨
        ∃ c ∈ children t, Requested m index c name :=
  exists_mem_nodes_iff

variable {m index} in
theorem lost?_of_not_loses {t : Tree} (h : loses m index t = false) : lost? m index t = none := by
  rw [lost?, h]
  rfl

variable {m index} in
/-- What loses an argument is a call. -/
theorem exists_call_of_mem_lost? {t a : Tree} (ha : a ∈ lost? m index t) :
    ∃ c, t.call? = some c := by
  cases h : loses m index t with
  | false =>
    rw [lost?_of_not_loses h] at ha
    cases ha
  | true =>
    obtain ⟨c, hcall, -⟩ := (Option.any_eq_true _ _).mp h
    exact ⟨c, hcall⟩

variable {m index} in
/-- Where no node loses an argument no name is requested. -/
theorem not_requested_of_not_loses {t : Tree} {name : String}
    (h : ∀ u ∈ nodes t, loses m index u = false) : ¬Requested m index t name := by
  rintro ⟨u, hu, a, ha, -⟩
  rw [lost?_of_not_loses (h u hu)] at ha
  cases ha

/-! ### Names of calls that mean something else -/

/-- The name of a call, with no type if the method is known. -/
def untyped (n : MethodInvocation Tree) : Identifier :=
  { n.name with type := if n.methodType.isSome then none else n.name.type }

/-- A call that loses an argument, with no type for its name if the method is known. -/
def forgetName (t : Tree) : Tree :=
  match t with
  | .methodInvocation n =>
    if loses m index t then
      .methodInvocation { n with name := untyped n }
    else t
  | _ => t

/-- The tree with nothing attributed to the names of such calls. -/
def forgetNames (t : Tree) : Tree := bottomUp (forgetName m index) t

theorem keepsForm_forgetName : KeepsForm (forgetName m index) := by
  refine ⟨fun t => ?_, fun t => ?_, fun _ => rfl⟩
  · cases t with
    | methodInvocation n => rw [forgetName]; split <;> rfl
    | _ => rfl
  · cases t with
    | methodInvocation n => rw [forgetName]; split <;> rfl
    | _ => rfl

theorem keepsForm_forgetNames : KeepsForm (forgetNames m index) :=
  (keepsForm_forgetName m index).bottomUp

/-- Names are forgotten below a node first, and then at the node. -/
theorem forgetNames_eq (t : Tree) :
    forgetNames m index t = forgetName m index (mapChildren (forgetNames m index) t) :=
  bottomUp_eq _ t

/-! ### One node -/

section Node

variable {m index} {t : Tree} {name : String}

theorem forgetName_of_not_loses (h : loses m index t = false) : forgetName m index t = t := by
  cases t with
  | methodInvocation n =>
    rw [forgetName, h]
    rfl
  | _ => rfl

/-- The argument that is lost stands behind `index` others. -/
theorem lost?_of_loses {c : Call} {before after : List (RightPadded Tree)} {p : RightPadded Tree}
    (h : loses m index t = true) (hcall : t.call? = some c)
    (hpadded : c.arguments.padded = before ++ p :: after) (hlength : before.length = index) :
    lost? m index t = some p.element := by
  obtain rfl := hlength
  rw [lost?, if_pos h, arguments, hcall, Option.elim_some, hpadded,
    List.getElem?_append_right (Nat.le_refl _), Nat.sub_self]
  rfl

variable (index name) in
/-- In arguments that close a gap the same names are referred to. -/
theorem exists_refersWithin_closeGap (removed : Tree) (ps : List (RightPadded Tree)) :
    (∃ c ∈ (closeGap index removed ps).map (·.element), RefersWithin c name) ↔
      ∃ c ∈ ps.map (·.element), RefersWithin c name := by
  cases ps with
  | nil => simpa [closeGap, RightPadded.build] using not_refersWithin_empty (Empty.build .empty)
  | cons first rest =>
    rw [closeGap]
    split
    · simp [RightPadded.withElement, refersWithin_withLead]
    · exact Iff.rfl

variable (index name) in
/-- The arguments that are left, and the one that goes, are the arguments. -/
theorem exists_refersWithin_left {arguments : Container Tree}
    {before after : List (RightPadded Tree)} {p : RightPadded Tree}
    (hpadded : arguments.padded = before ++ p :: after) :
    (∃ c ∈ arguments.elements, RefersWithin c name) ↔
      (∃ c ∈ (arguments.withPadded (closeGap index p.element (before ++ after))).elements,
        RefersWithin c name) ∨ RefersWithin p.element name := by
  have hclose := exists_refersWithin_closeGap index name p.element (before ++ after)
  rw [Container.elements, Container.elements, Container.withPadded, hclose, hpadded]
  simp [or_and_right, exists_or, or_left_comm, or_comm]

section Cut

variable (index) (n : MethodInvocation Tree) (left : Container Tree)

/-- When it is cut, the name of a call refers to what it refers to without its type. -/
theorem refersTo_attribute :
    RefersTo (.identifier (n.name.attribute (n.methodType.map (·.withoutParameter index)))) name ↔
      RefersTo (.identifier (untyped n)) name := by
  rw [refersTo_iff, refersTo_iff, Identifier.attribute.eq_def, untyped]
  cases n.methodType with
  | none => rfl
  | some type =>
    cases htype : n.name.type <;> simp [attributedTypes, importedName?, importedMethod?, htype]

/-- When it is cut, a call refers to the method to which it referred. -/
theorem refersTo_withoutParameter :
    RefersTo (.methodInvocation { n with
        arguments := left
        methodType := n.methodType.map (·.withoutParameter index)
        name := n.name.attribute (n.methodType.map (·.withoutParameter index)) }) name ↔
      RefersTo (.methodInvocation { n with name := untyped n }) name := by
  rw [refersTo_iff, refersTo_iff, attribute_eq, importedMethod?, importedMethod?, untyped]
  cases n.methodType <;> cases n.select <;>
    simp [attributedTypes, importedName?, MethodType.withoutParameter]

end Cut

variable (m index t name) in
/-- **A call refers to what it refers to when it is cut, and to what the argument refers to that
it loses**, but for what was attributed to its name. -/
theorem refersWithin_forgetName :
    RefersWithin (forgetName m index t) name ↔
      RefersWithin (cut m index t) name ∨ ∃ a ∈ lost? m index t, RefersWithin a name := by
  cases h : loses m index t with
  | false =>
    rw [forgetName_of_not_loses h, cut_of_not_loses h, lost?, h]
    simp
  | true =>
    obtain ⟨c, before, p, after, hcall, hpadded, hlength⟩ := exists_call_of_loses h
    rw [lost?_of_loses h hcall hpadded hlength]
    cases t with
    | methodInvocation n =>
      obtain rfl := Option.some.inj hcall
      have hleft := exists_refersWithin_left index name hpadded
      rw [forgetName, if_pos h, cut_methodInvocation h hlength hpadded,
        refersWithin_methodInvocation, refersWithin_methodInvocation]
      refine (or_congr (refersTo_withoutParameter index n
        (n.arguments.withPadded (closeGap index p.element (before ++ after)))).symm
          (or_congr (refersTo_attribute index n).symm (or_congr_right hleft))).trans ?_
      simp only [or_assoc, Option.mem_some_iff, exists_eq_left']
    | newClass n =>
      obtain rfl := Option.some.inj hcall
      have hleft := exists_refersWithin_left index name hpadded
      have hforget : forgetName m index (.newClass n) = .newClass n := rfl
      rw [hforget, cut_newClass h hlength hpadded, refersWithin_newClass, refersWithin_newClass,
        hleft, or_assoc]
      simp
    | _ => cases hcall

end Node

/-! ### The whole tree -/

variable {m index} {t : Tree} {name : String}

/-- To forget the name of a node and to change its children can be done in either order. -/
theorem forgetName_mapChildren {f : Tree → Tree} (hf : KeepsForm f) (t : Tree) :
    forgetName m index (mapChildren f t) = mapChildren f (forgetName m index t) := by
  have hloses := loses_mapChildren m index hf t
  cases h : loses m index t with
  | false => rw [forgetName_of_not_loses h, forgetName_of_not_loses (hloses.trans h)]
  | true =>
    cases t with
    | methodInvocation n =>
      rw [h, hf.mapChildren_methodInvocation] at hloses
      rw [hf.mapChildren_methodInvocation, forgetName, if_pos hloses, forgetName, if_pos h,
        hf.mapChildren_methodInvocation]
      rfl
    | newClass n =>
      have hforget : ∀ n, forgetName m index (.newClass n) = .newClass n := fun _ => rfl
      rw [hforget, mapChildren_newClass, hforget]
    | _ => cases h

/-- A call that loses an argument has a name, and beside it no other children than before. -/
theorem mem_children_forgetName {t c : Tree} (hc : c.kind ≠ .identifier) :
    c ∈ children (forgetName m index t) ↔ c ∈ children t := by
  have hname : ∀ n : Identifier, c ≠ .identifier n := by
    rintro n rfl
    exact hc rfl
  cases h : loses m index t with
  | false => rw [forgetName_of_not_loses h]
  | true =>
    cases t with
    | methodInvocation n =>
      rw [forgetName, if_pos h, children_methodInvocation, children_methodInvocation]
      simp [hname]
    | _ => rfl

theorem not_requested_identifier {n : Identifier} : ¬Requested m index (.identifier n) name := by
  rw [requested_iff, children_identifier]
  simp [lost?, loses, call?]

variable (m index t) in
/-- **No name is lost or invented by cutting calls within calls**: what a tree refers to is what it
refers to after it has been cut, and what is requested for it. -/
theorem refersWithin_forgetNames :
    RefersWithin (forgetNames m index t) name ↔
      RefersWithin (cutTree m index t) name ∨ Requested m index t name := by
  induction t using induction_on_children with
  | step t ih =>
    have hforget := keepsForm_forgetNames m index
    have hcut := keepsForm_cutTree m index
    -- the name of a call is not among the children of the tree as it was
    have hchild : ∀ c ∈ children (forgetName m index t),
        (RefersWithin (forgetNames m index c) name ↔
          RefersWithin (cutTree m index c) name ∨ Requested m index c name) := by
      intro c hc
      by_cases hkind : c.kind = .identifier
      · cases c with
        | identifier n =>
          rw [hforget.identifier_eq, hcut.identifier_eq]
          exact (or_iff_left not_requested_identifier).symm
        | _ => cases hkind
      · exact ih c ((mem_children_forgetName hkind).mp hc)
    have hrequested : (∃ c ∈ children (forgetName m index t), Requested m index c name) ↔
        ∃ c ∈ children t, Requested m index c name := by
      refine exists_congr fun c => ?_
      by_cases hkind : c.kind = .identifier
      · cases c with
        | identifier n => simp [not_requested_identifier]
        | _ => cases hkind
      · rw [mem_children_forgetName hkind]
    have hnode := refersWithin_forgetName m index (mapChildren (cutTree m index) t) name
    rw [lost?_mapChildren m index hcut, ← cutTree_eq] at hnode
    calc RefersWithin (forgetNames m index t) name
      _ ↔ RefersTo (forgetName m index t) name ∨
          ∃ c ∈ children (forgetName m index t), RefersWithin (forgetNames m index c) name := by
        rw [forgetNames_eq, forgetName_mapChildren hforget, hforget.refersWithin_mapChildren]
      _ ↔ (RefersTo (forgetName m index t) name ∨
          ∃ c ∈ children (forgetName m index t), RefersWithin (cutTree m index c) name) ∨
          ∃ c ∈ children t, Requested m index c name := by
        rw [← hrequested, or_assoc, ← exists_or]
        simp only [← and_or_left]
        exact or_congr_right (exists_congr fun c => and_congr_right (hchild c))
      _ ↔ RefersWithin (cutTree m index t) name ∨ Requested m index t name := by
        rw [← hcut.refersWithin_mapChildren, ← forgetName_mapChildren hcut, hnode, or_assoc,
          requested_iff]
        simp

/-- The argument that a node loses is a part of it. -/
theorem nodes_subset_of_lost? {a : Tree} (ha : a ∈ lost? m index t) : nodes a ⊆ nodes t := by
  refine nodes_subset_of_mem_children ?_
  rw [Option.mem_def, lost?] at ha
  split at ha
  · obtain ⟨p, hp, rfl⟩ := Option.map_eq_some_iff.mp ha
    have hmem := List.mem_of_getElem? hp
    cases t with
    | methodInvocation n =>
      rw [children_methodInvocation]
      exact List.mem_append_right _ (List.mem_cons_of_mem _ (List.mem_map_of_mem hmem))
    | newClass n =>
      rw [children_newClass]
      exact List.mem_cons_of_mem _ (List.mem_map_of_mem hmem)
    | _ => cases hmem
  · cases ha

/-- What is requested for a tree is what the arguments that go refer to in the tree as it is. -/
theorem requested_iff_exists_forgetNames :
    Requested m index t name ↔
      ∃ u ∈ nodes t, ∃ a ∈ lost? m index u, RefersWithin (forgetNames m index a) name := by
  simp only [refersWithin_forgetNames]
  constructor
  · rintro ⟨u, hu, a, ha, h⟩
    exact ⟨u, hu, a, ha, .inl h⟩
  · rintro ⟨u, hu, a, ha, h | ⟨v, hv, h⟩⟩
    · exact ⟨u, hu, a, ha, h⟩
    · exact ⟨v, nodes_subset_of_mem_nodes hu (nodes_subset_of_lost? ha hv), h⟩

/-- The name of a call does not mean anything that could be imported. -/
def NamesMethod (t : Tree) : Prop :=
  ∀ n ∈ t.calledName?, ∀ type ∈ n.type, importedName? type = none

/-- A name that is attributed with the method refers to nothing, so nothing changes if it is
forgotten. -/
theorem refersWithin_forgetName_of_namesMethod (h : NamesMethod t) :
    RefersWithin (forgetName m index t) name ↔ RefersWithin t name := by
  cases hloses : loses m index t with
  | false => rw [forgetName_of_not_loses hloses]
  | true =>
    cases t with
    | methodInvocation n =>
      have hname : RefersTo (.identifier (untyped n)) name ↔
          RefersTo (.identifier n.name) name := by
        have hnone := h n.name rfl
        rw [refersTo_iff, refersTo_iff, untyped]
        cases n.methodType <;> cases htype : n.name.type <;>
          simp_all [attributedTypes, importedMethod?]
      have hself : RefersTo (.methodInvocation { n with name := untyped n }) name ↔
          RefersTo (.methodInvocation n) name := by
        rw [refersTo_iff, refersTo_iff]
        rfl
      rw [forgetName, if_pos hloses, refersWithin_methodInvocation, refersWithin_methodInvocation,
        hname, hself]
    | _ => exact Iff.rfl

/-- Where the names of calls mean methods, nothing is left out. -/
theorem refersWithin_forgetNames_of_namesMethod (h : ∀ u ∈ nodes t, NamesMethod u) :
    RefersWithin (forgetNames m index t) name ↔ RefersWithin t name := by
  induction t using induction_on_children with
  | step t ih =>
    have hforget := keepsForm_forgetNames m index
    have hnames : NamesMethod (mapChildren (forgetNames m index) t) := by
      rw [NamesMethod, hforget.calledName?_mapChildren]
      exact h t (self_mem_nodes t)
    rw [forgetNames_eq, refersWithin_forgetName_of_namesMethod hnames,
      hforget.refersWithin_mapChildren, refersWithin_iff (t := t)]
    exact or_congr_right (exists_congr fun c => and_congr_right fun hc =>
      ih c hc fun u hu => h u (nodes_subset_of_mem_children hc hu))

/-! ### The context -/

/-- After several requests the imports are requested that were before, and these. -/
theorem mem_importRequests_foldl {names : List String} {c : Context} {name : String} :
    name ∈ (names.foldl Context.requestRemoval c).importRequests ↔
      name ∈ c.importRequests ∨ name ∈ names := by
  induction names generalizing c with
  | nil => simp
  | cons new names ih =>
    have hnew : name ∈ (c.requestRemoval new).importRequests ↔
        name ∈ c.importRequests ∨ name = new := by
      by_cases h : new ∈ c.importRequests
      · rw [Context.requestRemoval, dif_pos h]
        refine (or_iff_left_of_imp ?_).symm
        rintro rfl
        exact h
      · rw [Context.requestRemoval, dif_neg h, List.mem_append, List.mem_singleton]
    rw [List.foldl_cons, ih, hnew, List.mem_cons, or_assoc]

/-- The recipe requests what is requested for the tree. -/
theorem exists_apply_importRequests {r : DeleteArgument} {pattern : MethodPattern}
    (hpattern : MethodPattern.parse r.pattern = .ok pattern)
    (hposition : r.index.toNat + 1 < UInt64.size) {c : Context} (hc : c.shared.Quiet)
    {unit : CompilationUnit Tree} {d : Draft} (hd : d.source = .java unit) :
    ∃ (w : Update (CompilationUnit Tree)) (c' : Context),
      r.recipe.apply (some d) c = .ok (some (d.revise (w.map .java)), c') ∧
      cutTree (r.matcher pattern) r.index.toNat (.compilationUnit unit) =
        .compilationUnit (w.of unit) ∧
      ∀ name, name ∈ c'.importRequests ↔ name ∈ c.importRequests ∨
        Requested (r.matcher pattern) r.index.toNat (.compilationUnit unit) name := by
  obtain ⟨w, shared, -, hunit, happly⟩ := exists_apply_eq_cutTree hpattern hposition hc unit
  refine ⟨w, _, happly d hd, hunit, fun name => ?_⟩
  rw [mem_importRequests_foldl, mem_requests_turns]

/-- **Imports are requested for exactly what the arguments referred to**, if the position has a
successor. The requests of a run are without repetitions. Those that are new are the names to which
the arguments that go referred in the tree as it was, but for what had been attributed to the names
of calls within them that lose an argument. These names are no exception where they mean nothing
that is imported. At the last position the recipe fails where there is a call that the matcher
accepts. -/
theorem importRequests_apply {r : DeleteArgument} {pattern : MethodPattern}
    (hpattern : MethodPattern.parse r.pattern = .ok pattern) {c : Context} (hc : c.shared.Quiet)
    {unit : CompilationUnit Tree} {d : Draft} (hd : d.source = .java unit) :
    (r.index.toNat + 1 < UInt64.size →
      ∃ (w : Update (CompilationUnit Tree)) (c' : Context),
        r.recipe.apply (some d) c = .ok (some (d.revise (w.map .java)), c') ∧
        c'.importRequests.Nodup ∧
        (∀ name, name ∈ c'.importRequests ↔ name ∈ c.importRequests ∨
          ∃ u ∈ nodes (.compilationUnit unit),
            ∃ a ∈ lost? (r.matcher pattern) r.index.toNat u,
              RefersWithin (forgetNames (r.matcher pattern) r.index.toNat a) name) ∧
        ((∀ u ∈ nodes (.compilationUnit unit), NamesMethod u) →
          ∀ name, name ∈ c'.importRequests ↔ name ∈ c.importRequests ∨
            ∃ u ∈ nodes (.compilationUnit unit),
              ∃ a ∈ lost? (r.matcher pattern) r.index.toNat u, RefersWithin a name)) ∧
    (r.index.toNat + 1 = UInt64.size →
      (∀ t ∈ nodes (compilationUnit unit), (r.matcher pattern).acceptsNode t = true →
        t.arguments.length < UInt64.size) →
      r.FailsAtCalls (r.matcher pattern) unit d c) := by
  refine ⟨fun hposition => ?_, fun hlast => failsAtCalls_apply hpattern hlast hc hd⟩
  obtain ⟨w, c', happly, -, hrequests⟩ := exists_apply_importRequests hpattern hposition hc hd
  have hexact : ∀ name, name ∈ c'.importRequests ↔ name ∈ c.importRequests ∨
      ∃ u ∈ nodes (.compilationUnit unit), ∃ a ∈ lost? (r.matcher pattern) r.index.toNat u,
        RefersWithin (forgetNames (r.matcher pattern) r.index.toNat a) name := by
    intro name
    rw [hrequests, requested_iff_exists_forgetNames]
  refine ⟨w, c', happly, c'.importRequests_nodup, hexact, fun hnames name => ?_⟩
  rw [hexact]
  refine or_congr_right (exists_congr fun u => and_congr_right fun hu =>
    exists_congr fun a => and_congr_right fun ha =>
      refersWithin_forgetNames_of_namesMethod fun v hv => hnames v ?_)
  exact nodes_subset_of_mem_nodes hu (nodes_subset_of_lost? ha hv)

/-- The call `b(u,v)`. Its name means a class, and so does `v`. -/
def renamedArgument : Tree :=
  .methodInvocation
    { name := Identifier.build "b" (some (.ofClass { fullyQualifiedName := "com.x.Y" }))
      arguments := Build.arguments
        [Build.name "u" none, Build.name "v" (some (.ofClass { fullyQualifiedName := "com.x.Z" }))]
      methodType := some sampleMethod }

/-- The call `b(b(u,v), w)`. -/
def renamedCall : Tree :=
  Build.invocation none "b" [renamedArgument, (Build.name "w" none).withLead .single] sampleMethod

/-- The file with the statement `b(b(u,v), w);`. -/
def renamedUnit : CompilationUnit Tree := Build.unit [] [renamedCall]

/-- There are two calls in the file. -/
theorem mem_nodes_renamedUnit {t : Tree} {c : Call} (hcall : t.call? = some c) :
    t ∈ nodes (.compilationUnit renamedUnit) ↔
      t = renamedCall.withLead Build.statementLead ∨ t = renamedArgument := by
  have hname (s : String) (type : Option JavaType) : t ∉ nodes (Build.name s type) :=
    Build.not_mem_nodes_identifier hcall _
  have hlast : t ∉ nodes ((Build.name "w" none).withLead .single) :=
    Build.not_mem_nodes_identifier hcall _
  have hargument : t ∈ nodes renamedArgument ↔ t = renamedArgument := by
    rw [mem_nodes, renamedArgument, Build.mem_nodes_children_methodInvocation hcall]
    simp [Build.mem_arguments, hname]
  rw [renamedUnit, Build.mem_nodes_unit_singleton hcall, mem_nodes, children_withLead, renamedCall,
    Build.mem_nodes_children_invocation hcall]
  simp [hlast, hargument]

/-- The class that the name of the inner call meant is not requested: the name has lost it when the
call goes. -/
theorem not_requested_renamedUnit :
    ¬Requested ((sampleRecipe 0).matcher samplePattern) 0 (.compilationUnit renamedUnit)
      "com.x.Y" := by
  rw [requested_iff_exists_forgetNames]
  rintro ⟨u, hu, a, ha, h⟩
  obtain ⟨c, hcall⟩ := exists_call_of_mem_lost? ha
  have hkeeps := keepsForm_forgetNames ((sampleRecipe 0).matcher samplePattern) 0
  have hplain : ∀ s type, (∀ t ∈ type, importedName? t ≠ some "com.x.Y") →
      ¬RefersWithin (Build.name s type) "com.x.Y" := by
    intro s type htype
    rw [Build.name, refersWithin_identifier, refersTo_iff]
    simpa [attributedTypes, importedMethod?, Identifier.build] using htype
  rcases (mem_nodes_renamedUnit hcall).mp hu with rfl | rfl
  · obtain rfl : renamedArgument = a := Option.some.inj ha
    have hchildren : ∀ d ∈ children renamedArgument, ∃ n, d = .identifier n := by
      rw [renamedArgument, children_methodInvocation]
      simp [Build.mem_arguments, Build.name]
    rw [forgetNames_eq, mapChildren_eq_self, renamedArgument, forgetName, if_pos (by decide),
      refersWithin_methodInvocation] at h
    · rcases h with h | h | ⟨d, hd, -⟩ | ⟨d, hd, h⟩
      · exact absurd (refersTo_iff.mp h) (by decide)
      · exact absurd (refersTo_iff.mp h) (by decide)
      · cases hd
      · rcases List.mem_pair.mp hd with rfl | rfl
        · exact hplain _ _ (by decide) h
        · exact hplain _ _ (by decide) h
    · intro d hd
      obtain ⟨n, rfl⟩ := hchildren d hd
      exact hkeeps.identifier_eq n
  · obtain rfl : Build.name "u" none = a := Option.some.inj ha
    rw [Build.name, hkeeps.identifier_eq] at h
    exact hplain "u" none (by decide) h

/-- The names of the calls in the other sample mean nothing. -/
theorem namesMethod_sampleUnit : ∀ u ∈ nodes (.compilationUnit sampleUnit), NamesMethod u := by
  intro u hu n hn
  cases hcall : u.call? with
  | none =>
    cases u with
    | methodInvocation _ => cases hcall
    | _ => cases hn
  | some c =>
    rcases (mem_nodes_sampleUnit hcall).mp hu with rfl | rfl | rfl <;>
      obtain rfl := Option.some.inj hn <;> decide

/-- In `b(b(u,v), w)` the first argument goes from two calls, of which one stands in the first
argument of the other. In `b(x,y).b(b(u,v), w)` no name of a call means a class. At the last
position the recipe fails. -/
theorem importRequests_apply_nested :
    let d : Draft := { source := .java renamedUnit }
    let d' : Draft := { source := .java sampleUnit }
    MethodPattern.parse (sampleRecipe 0).pattern = .ok samplePattern ∧
      ({} : Context).shared.Quiet ∧
      (∃ (w : Update (CompilationUnit Tree)) (c' : Context),
        (sampleRecipe 0).recipe.apply (some d) {} = .ok (some (d.revise (w.map .java)), c') ∧
        c'.importRequests.Nodup ∧
        ∀ name, name ∈ c'.importRequests ↔ name ∈ ({} : Context).importRequests ∨
          ∃ u ∈ nodes (.compilationUnit renamedUnit),
            ∃ a ∈ lost? ((sampleRecipe 0).matcher samplePattern) 0 u,
              RefersWithin (forgetNames ((sampleRecipe 0).matcher samplePattern) 0 a) name) ∧
      (∀ u ∈ nodes (.compilationUnit sampleUnit), NamesMethod u) ∧
      (∃ (w : Update (CompilationUnit Tree)) (c' : Context),
        (sampleRecipe 0).recipe.apply (some d') {} = .ok (some (d'.revise (w.map .java)), c') ∧
        ∀ name, name ∈ c'.importRequests ↔ name ∈ ({} : Context).importRequests ∨
          ∃ u ∈ nodes (.compilationUnit sampleUnit),
            ∃ a ∈ lost? ((sampleRecipe 0).matcher samplePattern) 0 u, RefersWithin a name) ∧
      ∃ e, (sampleRecipe (-1)).recipe.apply (some d') {} = .error e := by
  intro d d'
  obtain ⟨w, c', happly, hnodup, hexact, -⟩ :=
    (importRequests_apply (r := sampleRecipe 0) parse_samplePattern (c := {}) Shared.quiet_fresh
      (d := d) rfl).1 (by decide)
  obtain ⟨w', c'', happly', -, -, hnames⟩ :=
    (importRequests_apply (r := sampleRecipe 0) parse_samplePattern (c := {}) Shared.quiet_fresh
      (d := d') rfl).1 (by decide)
  have hfails := (importRequests_apply (r := sampleRecipe (-1)) parse_samplePattern (c := {})
    Shared.quiet_fresh (d := d') rfl).2 (by decide) fun t ht _ => length_arguments_sampleUnit t ht
  exact ⟨parse_samplePattern, Shared.quiet_fresh, ⟨w, c', happly, hnodup, hexact⟩,
    namesMethod_sampleUnit, ⟨w', c'', happly', hnames namesMethod_sampleUnit⟩,
    hfails.exists_error (exists_accepts_sampleUnit (-1))⟩

/-- The class that the name of the inner call meant is not asked for, though the argument that goes
from the outer call referred to it. -/
theorem renamed_class_not_requested :
    (∀ u ∈ nodes (.compilationUnit renamedUnit), EmptyAlone u) ∧
      (∃ u ∈ nodes (.compilationUnit renamedUnit),
        ∃ a ∈ lost? ((sampleRecipe 0).matcher samplePattern) 0 u, RefersWithin a "com.x.Y") ∧
      ∃ d' c', (sampleRecipe 0).recipe.apply (some { source := .java renamedUnit }) {} =
          .ok (some d', c') ∧
        "com.x.Y" ∉ c'.importRequests := by
  refine ⟨fun u hu c hcall => ?_, ?_, ?_⟩
  · have hempty : EmptyAlone u := by
      rcases (mem_nodes_renamedUnit hcall).mp hu with rfl | rfl <;> decide
    exact hempty c hcall
  · have hname : RefersWithin renamedArgument "com.x.Y" :=
      refersWithin_methodInvocation.mpr (.inr (.inl (refersTo_iff.mpr (by decide))))
    exact ⟨renamedCall.withLead Build.statementLead, (mem_nodes_renamedUnit rfl).mpr (.inl rfl),
      renamedArgument, rfl, hname⟩
  · obtain ⟨w, c', happly, -, hrequests⟩ := exists_apply_importRequests (r := sampleRecipe 0)
      parse_samplePattern (by decide) (c := {}) Shared.quiet_fresh
      (d := { source := .java renamedUnit }) rfl
    refine ⟨_, c', happly, fun hmem => ?_⟩
    rcases (hrequests _).mp hmem with h | h
    · cases h
    · exact not_requested_renamedUnit h

end DeleteArgument

end Lossless
