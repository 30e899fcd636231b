import Lossless.Proofs.Deletion.Visit
import Lossless.Proofs.Deletion.Survivors

/-!
# The attribution of calls that lose an argument

How many arguments a call has is known in four places: from the arguments themselves, from the
types and from the names of the parameters of the attributed method, and once more from the method
that is attributed to the name of the call. An argument that goes has to go from all of them. What
becomes of each call is said by `Lossless.DeleteArgument.Carried`, and if the places agreed before
the deletion they do so after it (`Lossless.DeleteArgument.attribution_apply`).

Placeholders have to stand alone for this. Else a placeholder could be deleted in the place of an
argument, and the numbers would part.
-/

namespace Lossless

open Java

namespace Java.Tree

/-- If there is a placeholder among the arguments of a call, there is nothing else. -/
def EmptyAlone (t : Tree) : Prop :=
  ∀ c ∈ t.call?, ∀ a ∈ c.arguments.elements, a.isEmpty = true → c.arguments.elements = [a]

/-- The method that is attributed to a call, if any, has this many parameters as the call has
arguments. -/
def CountedBy (count : MethodType → Nat) (t : Tree) : Prop :=
  ∀ c ∈ t.call?, ∀ type ∈ c.methodType, count type = c.realArguments.length

instance (t : Tree) : Decidable t.EmptyAlone :=
  inferInstanceAs (Decidable (∀ c ∈ t.call?, ∀ a ∈ c.arguments.elements,
    a.isEmpty = true → c.arguments.elements = [a]))

instance (count : MethodType → Nat) (t : Tree) : Decidable (t.CountedBy count) :=
  inferInstanceAs (Decidable (∀ c ∈ t.call?, ∀ type ∈ c.methodType,
    count type = c.realArguments.length))

/-- The name of a called method, as it stands in the tree. -/
def calledName? : Tree → Option Identifier
  | .methodInvocation n => some n.name
  | _ => none

theorem calledName?_of_kind {t : Tree} (h : t.kind ≠ .methodInvocation) : t.calledName? = none := by
  cases t with
  | methodInvocation n => exact absurd rfl h
  | _ => rfl

theorem calledName?_withLead (lead : Space) (t : Tree) :
    (t.withLead lead).calledName? = t.calledName? := by
  cases t <;> rfl

/-- The identifier that names the called method stays, whatever the children become. -/
theorem KeepsForm.calledName?_mapChildren {f : Tree → Tree} (hf : KeepsForm f) (t : Tree) :
    (mapChildren f t).calledName? = t.calledName? := by
  by_cases h : t.kind = .methodInvocation
  · cases t with
    | methodInvocation n => rw [hf.mapChildren_methodInvocation, calledName?, calledName?]
    | _ => cases h
  · rw [calledName?_of_kind h, calledName?_of_kind (kind_mapChildren f t ▸ h)]

end Java.Tree

namespace DeleteArgument

open Tree

variable {m : Matcher} {index : Nat} {u u' : Tree}

/-! ### One call -/

/-- What the recipe makes of a call. -/
structure Carried (m : Matcher) (index : Nat) (u u' : Tree) : Prop where
  /-- It is of the kind that it was. -/
  kind_eq : u'.kind = u.kind
  /-- It has the identity that it had. -/
  id_eq : u'.id = u.id
  /-- If it loses an argument it has one less, and a method that was attributed to it has one
  parameter less, both in the types and in the names. Else all this is what it was. -/
  gist_eq : u'.call?.map Call.gist = u.call?.map fun c =>
    if loses m index u then
      (c.methodType.map fun type =>
        { type with
          parameterNames := type.parameterNames.eraseIdx index
          parameterTypes := type.parameterTypes.eraseIdx index },
        c.name, c.realArguments.length - 1)
    else c.gist
  /-- If it loses an argument, and anything was attributed to its name, the method is attributed to
  the name as it is now. Else the name is what it was. -/
  calledName?_eq : u'.calledName? = u.calledName?.map fun name =>
    if loses m index u then
      { name with
        type := name.type.map fun old => (u'.call?.bind (·.methodType)).elim old .ofMethod }
    else name

/-! ### The arguments -/

section Arguments

variable {c : Call} {before after : List (RightPadded Tree)} {p : RightPadded Tree}

/-- A call that loses an argument has one at this position. -/
theorem lt_of_loses (h : loses m index u = true) (hcall : u.call? = some c) :
    index < c.realArguments.length := by
  rw [loses, hcall, Option.any_some, Bool.and_eq_true, decide_eq_true_eq] at h
  exact h.2

/-- Where an argument is lost there are no placeholders. -/
theorem not_isEmpty_of_loses (hempty : EmptyAlone u) (h : loses m index u = true)
    (hcall : u.call? = some c) : ∀ a ∈ c.arguments.elements, a.isEmpty = false := by
  intro a ha
  by_contra hne
  rw [Bool.not_eq_false] at hne
  have hlt := lt_of_loses h hcall
  rw [Call.realArguments, hempty c hcall a ha hne] at hlt
  simp [hne] at hlt

theorem realArguments_eq (h : ∀ a ∈ c.arguments.elements, a.isEmpty = false) :
    c.realArguments = c.arguments.elements := by
  rw [Call.realArguments, List.filter_eq_self]
  intro a ha
  rw [h a ha, Bool.not_false]

variable (index) in
/-- Arguments that close a gap are as many as they were, and there is a placeholder only where
there are none. -/
theorem closeGap_elements (removed : Tree) {ps : List (RightPadded Tree)}
    (h : ∀ p ∈ ps, p.element.isEmpty = false) :
    (closeGap index removed ps).map (·.element) = [.empty (Empty.build .empty)] ∧ ps = [] ∨
      ((closeGap index removed ps).map (·.element)).length = ps.length ∧
        ∀ a ∈ (closeGap index removed ps).map (·.element), a.isEmpty = false := by
  cases ps with
  | nil => exact .inl ⟨rfl, rfl⟩
  | cons first rest =>
    rw [List.forall_mem_cons] at h
    have hmoved : (first.element.withLead removed.lead).isEmpty = false := by
      rw [isEmpty_eq_of_kind (kind_withLead _ _), h.1]
    refine .inr ?_
    rw [closeGap, List.forall_mem_map]
    split
    · exact ⟨List.length_map _, List.forall_mem_cons.mpr ⟨hmoved, h.2⟩⟩
    · exact ⟨List.length_map _, List.forall_mem_cons.mpr h⟩

/-- The arguments that are left of a call. -/
def leftArguments (m : Matcher) (index : Nat) (arguments : Container Tree)
    (before : List (RightPadded Tree)) (p : RightPadded Tree) (after : List (RightPadded Tree)) :
    Container Tree :=
  arguments.withPadded (closeGap index (cutTree m index p.element)
    ((before ++ after).map (·.map (cutTree m index))))

variable (m index) in
/-- What is left of the arguments is a single placeholder, if there was one argument, and otherwise
all the others. -/
theorem leftArguments_elements (hpadded : c.arguments.padded = before ++ p :: after)
    (hnone : ∀ a ∈ c.arguments.elements, a.isEmpty = false) :
    (leftArguments m index c.arguments before p after).elements = [.empty (Empty.build .empty)] ∧
        before ++ after = [] ∨
      (leftArguments m index c.arguments before p after).elements.length =
        (before ++ after).length ∧
        ∀ a ∈ (leftArguments m index c.arguments before p after).elements, a.isEmpty = false := by
  have hleft : ∀ q ∈ (before ++ after).map (·.map (cutTree m index)),
      q.element.isEmpty = false := by
    rw [List.forall_mem_map]
    intro q hq
    have hmem : q ∈ c.arguments.padded := by
      rw [hpadded]
      exact (List.mem_append.mp hq).elim (List.mem_append_left _) fun hq =>
        List.mem_append_right _ (List.mem_cons_of_mem p hq)
    refine (isEmpty_eq_of_kind ((keepsForm_cutTree m index).kind_eq q.element)).trans ?_
    exact hnone _ (List.mem_map_of_mem hmem)
  exact (closeGap_elements index (cutTree m index p.element) hleft).imp
    (fun ⟨hsole, hnil⟩ => ⟨hsole, List.map_eq_nil_iff.mp hnil⟩)
    fun ⟨hlength, hreal⟩ => ⟨hlength.trans (List.length_map _), hreal⟩

variable (m index) in
/-- Of the arguments that count there is one less. -/
theorem length_leftArguments (hpadded : c.arguments.padded = before ++ p :: after)
    (hnone : ∀ a ∈ c.arguments.elements, a.isEmpty = false) :
    ((leftArguments m index c.arguments before p after).elements.filter (!·.isEmpty)).length =
      c.realArguments.length - 1 := by
  have hbefore : c.realArguments.length = (before ++ after).length + 1 := by
    rw [realArguments_eq hnone, Container.elements, List.length_map, hpadded, List.length_append,
      List.length_append]
    rfl
  rw [hbefore, Nat.add_sub_cancel]
  rcases leftArguments_elements m index hpadded hnone with ⟨hsole, hnil⟩ | ⟨hlength, hreal⟩
  · rw [hsole, hnil]
    rfl
  · rw [List.filter_eq_self.mpr, hlength]
    intro a ha
    rw [hreal a ha, Bool.not_false]

/-- A call that loses an argument is a call of the same method afterwards, with the arguments that
are left and the method type that goes with them. -/
theorem call?_cutTree_of_loses (h : loses m index u = true) (hcall : u.call? = some c)
    (hpadded : c.arguments.padded = before ++ p :: after) (hlength : before.length = index) :
    ∃ receiverType, (cutTree m index u).call? = some
      { c with
        arguments := leftArguments m index c.arguments before p after
        methodType := c.methodType.map (·.withoutParameter index)
        receiverType } := by
  have hkeeps := keepsForm_cutTree m index
  obtain ⟨receiverType, hbelow⟩ := hkeeps.call?_mapChildren hcall
  rw [← loses_mapChildren m index hkeeps] at h
  have hcut := call?_cut_of_loses h hbelow (padded_map hpadded) ((List.length_map _).trans hlength)
  refine ⟨receiverType, ?_⟩
  rw [cutTree_eq, hcut, leftArguments, List.map_append]
  rfl

end Arguments

/-! ### What becomes of a call -/

theorem Carried.withLead (h : Carried m index u u') (lead : Space) :
    Carried m index u (u'.withLead lead) where
  kind_eq := by rw [kind_withLead, h.kind_eq]
  id_eq := by rw [id_withLead, h.id_eq]
  gist_eq := by rw [call?_withLead, h.gist_eq]
  calledName?_eq := by rw [calledName?_withLead, call?_withLead, h.calledName?_eq]

/-- A call that loses an argument carries over what it should. -/
theorem carried_of_loses (hempty : EmptyAlone u) (h : loses m index u = true) :
    Carried m index u (cutTree m index u) := by
  obtain ⟨c, before, p, after, hcall, hpadded, hlength⟩ := exists_call_of_loses h
  obtain ⟨receiverType, hcut⟩ := call?_cutTree_of_loses h hcall hpadded hlength
  have hcount := length_leftArguments m index hpadded (not_isEmpty_of_loses hempty h hcall)
  refine ⟨(keepsForm_cutTree m index).kind_eq u, congrArg Head.id (head_cutTree m index u), ?_, ?_⟩
  · rw [hcut, hcall, Option.map_some, Option.map_some, if_pos h, ← hcount]
    rfl
  · cases u with
    | methodInvocation n =>
      obtain rfl := Option.some.inj hcall
      rw [hcut, cutTree_methodInvocation h hlength hpadded, calledName?, calledName?,
        Option.map_some, if_pos h, attribute_eq]
      rfl
    -- constructors are called by no name of their own
    | newClass n =>
      obtain rfl := Option.some.inj hcall
      rw [cutTree_newClass h hlength hpadded]
      rfl
    | _ => cases hcall

/-- So does one that keeps them all. -/
theorem carried_of_not_loses (h : loses m index u = false) :
    Carried m index u (cutTree m index u) := by
  have hkeeps := keepsForm_cutTree m index
  refine ⟨hkeeps.kind_eq u, congrArg Head.id (head_cutTree m index u), ?_, ?_⟩
  · rw [cutTree_of_not_loses h, hkeeps.gist_mapChildren, h]
    rfl
  · rw [h, cutTree_of_not_loses h, hkeeps.calledName?_mapChildren]
    exact Option.map_id'.symm

/-- And so does a call that has come to another place, where it may have another leading text. -/
theorem carried_of_isLeftOf (hempty : EmptyAlone u) (h : IsLeftOf m index u u') :
    Carried m index u u' := by
  obtain ⟨lead, rfl⟩ := h
  refine Carried.withLead ?_ lead
  cases hloses : loses m index u with
  | true => exact carried_of_loses hempty hloses
  | false => exact carried_of_not_loses hloses

/-- Where nothing is lost a placeholder still stands alone. -/
theorem emptyAlone_of_not_loses (hempty : EmptyAlone u) (h : loses m index u = false) :
    EmptyAlone (cutTree m index u) := by
  intro c' hcall' a ha hplaceholder
  have hkeeps := keepsForm_cutTree m index
  rw [cutTree_of_not_loses h] at hcall'
  cases hcall : u.call? with
  | none =>
    rw [call?_mapChildren_of_no_call _ hcall] at hcall'
    cases hcall'
  | some c =>
    obtain ⟨receiverType, hc'⟩ := hkeeps.call?_mapChildren hcall
    obtain rfl := Option.some.inj (hc'.symm.trans hcall')
    rw [elements_map] at ha ⊢
    obtain ⟨b, hb, rfl⟩ := List.mem_map.mp ha
    rw [isEmpty_eq_of_kind (hkeeps.kind_eq b)] at hplaceholder
    rw [hempty c hcall b hb hplaceholder, List.map_singleton]

/-- Where an argument is lost a placeholder stands alone, too: it takes the place of the only one.
-/
theorem emptyAlone_of_loses (hempty : EmptyAlone u) (h : loses m index u = true) :
    EmptyAlone (cutTree m index u) := by
  obtain ⟨c, before, p, after, hcall, hpadded, hlength⟩ := exists_call_of_loses h
  obtain ⟨receiverType, hcut⟩ := call?_cutTree_of_loses h hcall hpadded hlength
  intro c' hcall' a ha hplaceholder
  obtain rfl := Option.some.inj (hcut.symm.trans hcall')
  rcases leftArguments_elements m index hpadded
    (not_isEmpty_of_loses hempty h hcall) with ⟨hsole, -⟩ | ⟨-, hreal⟩
  -- a placeholder is the one that was put where the only argument was
  · rw [hsole] at ha ⊢
    rw [List.mem_singleton.mp ha]
  · rw [hreal a ha] at hplaceholder
    cases hplaceholder

theorem emptyAlone_of_isLeftOf (hempty : EmptyAlone u) (h : IsLeftOf m index u u') :
    EmptyAlone u' := by
  obtain ⟨lead, rfl⟩ := h
  rw [EmptyAlone, call?_withLead]
  cases hloses : loses m index u with
  | true => exact emptyAlone_of_loses hempty hloses
  | false => exact emptyAlone_of_not_loses hempty hloses

/-- What the new call has in place of its method type and how many arguments it has, in terms of the
old one. -/
theorem Carried.exists_call {c' : Call} (h : Carried m index u u') (hcall' : u'.call? = some c') :
    ∃ c, u.call? = some c ∧
      c'.methodType = (if loses m index u then c.methodType.map (·.withoutParameter index)
        else c.methodType) ∧
      c'.realArguments.length = c.realArguments.length - if loses m index u then 1 else 0 := by
  have hgist := h.gist_eq
  rw [hcall', Option.map_some] at hgist
  obtain ⟨c, hcall, hc⟩ := Option.map_eq_some_iff.mp hgist.symm
  refine ⟨c, hcall, (congrArg Prod.fst hc).symm.trans (apply_ite Prod.fst _ _ _), ?_⟩
  refine (congrArg (·.2.2) hc).symm.trans ?_
  split <;> rfl

/-- Calls with as many arguments as parameters stay such, however the parameters are counted, if
one less is counted where one was lost. -/
theorem Carried.countedBy {count : MethodType → Nat}
    (hcount : ∀ type : MethodType, index < count type →
      count (type.withoutParameter index) = count type - 1)
    (h : Carried m index u u') (hu : CountedBy count u) : CountedBy count u' := by
  intro c' hcall' type' htype'
  obtain ⟨c, hcall, htypes, hlength⟩ := h.exists_call hcall'
  rw [hlength]
  rw [htypes] at htype'
  cases hloses : loses m index u with
  | false =>
    rw [if_neg (ne_true_of_eq_false hloses)] at htype'
    exact hu c hcall type' htype'
  | true =>
    rw [if_pos hloses] at htype'
    obtain ⟨type, hmem, rfl⟩ := Option.map_eq_some_iff.mp htype'
    have hagree := hu c hcall type hmem
    rw [if_pos rfl, ← hagree]
    exact hcount type (hagree ▸ lt_of_loses hloses hcall)

theorem length_parameterTypes_withoutParameter (type : MethodType)
    (h : index < type.parameterTypes.length) :
    (type.withoutParameter index).parameterTypes.length = type.parameterTypes.length - 1 :=
  List.length_eraseIdx_of_lt h

theorem length_parameterNames_withoutParameter (type : MethodType)
    (h : index < type.parameterNames.length) :
    (type.withoutParameter index).parameterNames.length = type.parameterNames.length - 1 :=
  List.length_eraseIdx_of_lt h

/-! ### The whole tree -/

/-- There is no placeholder in the sample. -/
theorem emptyAlone_sampleUnit : ∀ u ∈ nodes (.compilationUnit sampleUnit), EmptyAlone u := by
  intro u hu c hcall
  have h : EmptyAlone u := by
    rcases (mem_nodes_sampleUnit hcall).mp hu with rfl | rfl | rfl <;> decide
  exact h c hcall

/-- The methods that are attributed there have two parameters each. -/
theorem countedBy_sampleUnit : ∀ u ∈ nodes (.compilationUnit sampleUnit),
    CountedBy (·.parameterTypes.length) u ∧ CountedBy (·.parameterNames.length) u := by
  have h : ∀ u c, u.call? = some c → u ∈ nodes (.compilationUnit sampleUnit) →
      CountedBy (·.parameterTypes.length) u ∧ CountedBy (·.parameterNames.length) u := by
    intro u c hcall hu
    rcases (mem_nodes_sampleUnit hcall).mp hu with rfl | rfl | rfl <;> decide
  exact fun u hu => ⟨fun c hcall => (h u c hcall hu).1 c hcall,
    fun c hcall => (h u c hcall hu).2 c hcall⟩

end DeleteArgument

end Lossless
