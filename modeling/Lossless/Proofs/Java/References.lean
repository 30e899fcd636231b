import Lossless.Java.References
import Lossless.Proofs.Java.Call
import Lossless.Proofs.Java.Places

/-!
# What a tree refers to

The names that the collector of references brings back from a tree are the names that its nodes
refer to, each by itself (`Lossless.Java.mem_references_iff`). What a single node refers to
(`Lossless.Java.RefersTo`) can be read off it without the collector: classes and static fields are
told by the types attributed to the node, and static methods by calls without a receiver.
-/

namespace Lossless.Java

/-! ### One node -/

/-- A node by itself refers to something by this name, which has to be imported. -/
inductive RefersTo : Tree → String → Prop
  /-- A class is attributed to the node. Those of `java.lang` need no import. -/
  | ofClass {t : Tree} {c : ClassType} (htype : .ofClass c ∈ attributedTypes t)
      (hpackage : c.packageName ≠ "java.lang") : RefersTo t c.fullyQualifiedName
  /-- A static field of a class is attributed to the node. -/
  | ofField {t : Tree} {v : VariableType} {owner : ClassType}
      (htype : .ofVariable v ∈ attributedTypes t) (howner : v.owner = some (.ofClass owner))
      (hstatic : v.flags.isStatic = true) :
      RefersTo t (owner.fullyQualifiedName ++ "." ++ v.name)
  /-- A static method is called without a receiver. -/
  | ofMethod {n : MethodInvocation Tree} {m : MethodType} (htype : n.methodType = some m)
      (hselect : n.select = none) (hstatic : m.flags.isStatic = true) :
      RefersTo (.methodInvocation n)
        (m.declaringType.fullyQualifiedName ++ "." ++ n.name.simpleName)

/-- A type needs an import if it is a class outside of `java.lang` or a static field of a class. -/
theorem importedName?_eq_some_iff {type : JavaType} {name : String} :
    importedName? type = some name ↔
      (∃ c, type = .ofClass c ∧ c.packageName ≠ "java.lang" ∧ c.fullyQualifiedName = name) ∨
        ∃ v owner, type = .ofVariable v ∧ v.owner = some (.ofClass owner) ∧
          v.flags.isStatic = true ∧ owner.fullyQualifiedName ++ "." ++ v.name = name := by
  constructor
  · intro h
    rw [importedName?.eq_def] at h
    split at h
    · split at h
      · cases h
      · next c hpackage => exact .inl ⟨c, rfl, hpackage, Option.some.inj h⟩
    · split at h
      · next name owner type flags hstatic =>
        exact .inr ⟨_, owner, rfl, rfl, hstatic, Option.some.inj h⟩
      · cases h
    · cases h
  · rintro (⟨c, rfl, hpackage, rfl⟩ | ⟨⟨field, _, type, flags⟩, owner, rfl, rfl, hstatic, rfl⟩)
    · rw [importedName?, if_neg hpackage]
    · rw [importedName?]
      exact if_pos hstatic

/-- So does a static method that is called without a receiver. -/
theorem importedMethod?_eq_some_iff {t : Tree} {name : String} :
    importedMethod? t = some name ↔
      ∃ n m, t = .methodInvocation n ∧ n.methodType = some m ∧ n.select = none ∧
        m.flags.isStatic = true ∧
        m.declaringType.fullyQualifiedName ++ "." ++ n.name.simpleName = name := by
  constructor
  · intro h
    rw [importedMethod?.eq_def] at h
    split at h
    · next n =>
      split at h
      · next m htype hselect =>
        split at h
        · next hstatic => exact ⟨n, m, rfl, htype, hselect, hstatic, Option.some.inj h⟩
        · cases h
      · cases h
    · cases h
  · rintro ⟨n, m, rfl, htype, hselect, hstatic, rfl⟩
    simp only [importedMethod?, htype, hselect, hstatic, if_true]

/-- What the collector asks for at a node are the names that the node refers to. -/
theorem refersTo_iff {t : Tree} {name : String} :
    RefersTo t name ↔
      (∃ type ∈ attributedTypes t, importedName? type = some name) ∨
        importedMethod? t = some name := by
  simp only [importedName?_eq_some_iff, importedMethod?_eq_some_iff]
  constructor
  · rintro (⟨htype, hpackage⟩ | ⟨htype, howner, hstatic⟩ | ⟨htype, hselect, hstatic⟩)
    · exact .inl ⟨_, htype, .inl ⟨_, rfl, hpackage, rfl⟩⟩
    · exact .inl ⟨_, htype, .inr ⟨_, _, rfl, howner, hstatic, rfl⟩⟩
    · exact .inr ⟨_, _, rfl, htype, hselect, hstatic, rfl⟩
  · rintro (⟨type, htype, ⟨c, rfl, hpackage, rfl⟩ | ⟨v, owner, rfl, howner, hstatic, rfl⟩⟩ |
      ⟨n, m, rfl, htype, hselect, hstatic, rfl⟩)
    · exact .ofClass htype hpackage
    · exact .ofField htype howner hstatic
    · exact .ofMethod htype hselect hstatic

/-! ### All nodes -/

/-- Some node of the tree refers to something by this name. -/
def RefersWithin (t : Tree) (name : String) : Prop := ∃ u ∈ nodes t, RefersTo u name

/-- A name is referred to at a node or below one of its children. -/
theorem refersWithin_iff {t : Tree} {name : String} :
    RefersWithin t name ↔ RefersTo t name ∨ ∃ c ∈ children t, RefersWithin c name :=
  exists_mem_nodes_iff

/-! ### The collector -/

theorem mem_addName {new : Option String} {names : List String} {name : String} :
    name ∈ addName new names ↔ name ∈ names ∨ new = some name := by
  cases new with
  | none => simp [addName]
  | some new =>
    by_cases h : new ∈ names
    · rw [addName, if_pos h]
      refine (or_iff_left_of_imp ?_).symm
      rintro ⟨⟩
      exact h
    · rw [addName, if_neg h, List.mem_append, List.mem_singleton, Option.some.injEq,
        eq_comm (a := name)]

/-- The names that have come up when the collector is done with a node itself. -/
def note (names : List String) (t : Tree) : List String :=
  addName (importedMethod? t)
    ((attributedTypes t).foldl (fun names type => addName (importedName? type) names) names)

/-- At each node the names are added to which it refers. -/
theorem mem_note {names : List String} {t : Tree} {name : String} :
    name ∈ note names t ↔ name ∈ names ∨ RefersTo t name := by
  have htypes : ∀ (types : List JavaType) (names : List String),
      name ∈ types.foldl (fun names type => addName (importedName? type) names) names ↔
        name ∈ names ∨ ∃ type ∈ types, importedName? type = some name := by
    intro types
    induction types with
    | nil => simp
    | cons type types ih =>
      intro names
      rw [List.foldl_cons, ih, mem_addName, or_assoc]
      simp
  rw [note, mem_addName, htypes, or_assoc, refersTo_iff]

/-- The collector adds the names for the types that are attributed to a node, and enters it. -/
theorem referenceCollector_enter (t : Tree) (names : List String) :
    referenceCollector.toVisitor.enter t names =
      (true, (attributedTypes t).foldl (fun names type => addName (importedName? type) names)
        names) := by
  have hforM : ∀ (types : List JavaType) (names : List String),
      (types.forM referenceCollector.visitType : StateM (List String) Unit) names =
        ((), types.foldl (fun names type => addName (importedName? type) names) names) := by
    intro types
    induction types with
    | nil => exact fun _ => rfl
    | cons type types ih => exact fun names => ih (addName (importedName? type) names)
  exact (bind_of_eq rfl).trans (bind_of_eq (hforM (attributedTypes t) names))

/-- The collector leaves the tree alone and comes to its nodes one after the other. -/
theorem referenceCollector_visit (t : Tree) (s : Traversal Tree (List String)) :
    referenceCollector.toVisitor.visit t s =
      (some .same, { s with state := (nodes t).foldl note s.state }) := by
  induction t using induction_on_children generalizing s with
  | step t ih =>
    -- what comes up below the children comes up in the nodes below them, one after the other
    have hfold : ∀ (cs : List Tree) (s : Traversal Tree (List String)),
        cs.foldl (fun s c => { s with state := (nodes c).foldl note s.state }) s =
          { s with state := (cs.flatMap nodes).foldl note s.state } := by
      intro cs
      induction cs with
      | nil => exact fun _ => rfl
      | cons c cs ih =>
        intro s
        rw [List.foldl_cons, ih, List.flatMap_cons, List.foldl_append]
    have hwalk := Lossless.Visitor.walk_same ih ⟨note s.state t, s.cursor.push t⟩
    rw [hfold] at hwalk
    rw [nodes_eq, List.foldl_cons]
    exact Lossless.Visitor.visit_of_entered (referenceCollector_enter t s.state)
      ((bind_of_eq rfl).trans (bind_of_eq hwalk))

/-- The references of a tree are noted node by node. -/
theorem references_eq (t : Tree) : references t = (nodes t).foldl note [] := by
  rw [references, Lossless.Visitor.reduce, Lossless.Visitor.run]
  exact congrArg (·.2.state) (referenceCollector_visit t _)

/-- **The names collected from a tree are those that its nodes refer to.** -/
theorem mem_references_iff {t : Tree} {name : String} :
    name ∈ references t ↔ RefersWithin t name := by
  have hnodes : ∀ (us : List Tree) (names : List String),
      name ∈ us.foldl note names ↔ name ∈ names ∨ ∃ u ∈ us, RefersTo u name := by
    intro us
    induction us with
    | nil => simp
    | cons u us ih =>
      intro names
      rw [List.foldl_cons, ih, mem_note, or_assoc]
      simp
  rw [references_eq, hnodes, RefersWithin]
  simp

/-! ### Calls and their children -/

section Children

variable {t : Tree} {name : String}

open Java.Tree

/-- The leading text of a node refers to nothing. -/
theorem refersTo_withLead {lead : Space} :
    RefersTo (t.withLead lead) name ↔ RefersTo t name := by
  rw [refersTo_iff, refersTo_iff]
  cases t <;> rfl

theorem refersWithin_identifier {n : Identifier} :
    RefersWithin (.identifier n) name ↔ RefersTo (.identifier n) name := by
  rw [refersWithin_iff, children_identifier]
  simp

theorem not_refersWithin_empty (n : Empty) : ¬RefersWithin (.empty n) name := by
  rw [refersWithin_iff, refersTo_iff, children_empty]
  simp [attributedTypes, importedMethod?]

/-- A method invocation refers to names itself, by the identifier in it, and in its receiver and its
arguments. -/
theorem refersWithin_methodInvocation {n : MethodInvocation Tree} :
    RefersWithin (.methodInvocation n) name ↔
      RefersTo (.methodInvocation n) name ∨ RefersTo (.identifier n.name) name ∨
        (∃ c ∈ n.select.toList.map (·.element), RefersWithin c name) ∨
        ∃ c ∈ n.arguments.elements, RefersWithin c name := by
  rw [refersWithin_iff, children_methodInvocation]
  simp [or_and_right, exists_or, refersWithin_identifier, or_left_comm]

/-- A constructor call refers to names in what is constructed and in its arguments. -/
theorem refersWithin_newClass {n : NewClass Tree} :
    RefersWithin (.newClass n) name ↔
      RefersWithin n.constructed name ∨ ∃ c ∈ n.arguments.elements, RefersWithin c name := by
  have hself : ¬RefersTo (.newClass n) name := by
    rw [refersTo_iff]
    cases htype : n.constructorType <;>
      simp [attributedTypes, htype, importedMethod?, importedName?]
  rw [refersWithin_iff, children_newClass]
  simp [hself]

theorem refersWithin_withLead {lead : Space} :
    RefersWithin (t.withLead lead) name ↔ RefersWithin t name := by
  rw [refersWithin_iff, refersWithin_iff (t := t), refersTo_withLead, children_withLead]

end Children

/-! ### Nodes around other children -/

/-- Which types are attributed to a node is no matter of its children. -/
theorem attributedTypes_mapChildren (f : Tree → Tree) (t : Tree) :
    attributedTypes (mapChildren f t) = attributedTypes t := by
  have hhollow : ∀ t : Tree, attributedTypes t.hollow = attributedTypes t := fun t => by
    cases t <;> rfl
  rw [← hhollow, ← hhollow t]
  exact congrArg attributedTypes (Tree.hollow_mapChildren f t)

/-- **What a node refers to does not depend on its children.** -/
theorem Tree.KeepsForm.refersTo_mapChildren {f : Tree → Tree} (hf : KeepsForm f) {t : Tree}
    {name : String} : RefersTo (mapChildren f t) name ↔ RefersTo t name := by
  -- a call without a receiver has none afterwards
  have hmethod : importedMethod? (mapChildren f t) = importedMethod? t := by
    by_cases hkind : t.kind = .methodInvocation
    · cases t with
      | methodInvocation n =>
        rw [hf.mapChildren_methodInvocation, importedMethod?, importedMethod?]
        cases n.methodType <;> cases n.select <;> rfl
      | _ => cases hkind
    · have hnone : ∀ u : Tree, u.kind ≠ .methodInvocation → importedMethod? u = none := by
        intro u hu
        cases u with
        | methodInvocation n => exact absurd rfl hu
        | _ => rfl
      rw [hnone t hkind, hnone _ (kind_mapChildren f t ▸ hkind)]
  rw [refersTo_iff, refersTo_iff, attributedTypes_mapChildren, hmethod]

/-- With other children a node refers to what it did, and its children to what they do now. -/
theorem Tree.KeepsForm.refersWithin_mapChildren {f : Tree → Tree} (hf : KeepsForm f) {t : Tree}
    {name : String} :
    RefersWithin (mapChildren f t) name ↔
      RefersTo t name ∨ ∃ c ∈ children t, RefersWithin (f c) name := by
  rw [refersWithin_iff, hf.refersTo_mapChildren, children_mapChildren hf.kind_eq]
  simp

end Lossless.Java
