import Lossless.Proofs.Deletion.Visit
import Lossless.Proofs.Java.Ancestry

/-!
# Which argument is deleted

Whether a call has enough arguments to lose one is decided without its placeholders. But the
argument to delete is looked up among all that stands between the parentheses, and there the
placeholders count. If none stands at the position or in front of it, the two ways to count agree.
A list of arguments may hold placeholders anywhere, though, and what is deleted then is said by
`Lossless.DeleteArgument.deleteFrom_bareArguments`: nothing, if a placeholder stands at the
position, or else an argument with a smaller number than the one that was meant. That this is so
can be seen in the result, unless the arguments from the one to the other are all alike.
-/

namespace Lossless

/-! ### Lists without one of their entries -/

section EraseIdx

variable {α : Type}

/-- Where entries are alike, it makes no difference which of them goes. -/
theorem eraseIdx_eq_eraseIdx_iff {l : List α} {i j : Nat} (hij : i ≤ j) :
    l.eraseIdx i = l.eraseIdx j ↔ ∀ n, i ≤ n → n < j → l[n]? = l[n + 1]? := by
  constructor
  · intro h n hi hj
    have hn : (l.eraseIdx i)[n]? = (l.eraseIdx j)[n]? := congrArg (·[n]?) h
    rw [List.getElem?_eraseIdx, List.getElem?_eraseIdx, if_neg (Nat.not_lt.mpr hi), if_pos hj] at hn
    exact hn.symm
  · intro h
    refine List.ext_getElem? fun n => ?_
    rw [List.getElem?_eraseIdx, List.getElem?_eraseIdx]
    by_cases hi : n < i
    · rw [if_pos hi, if_pos (Nat.lt_of_lt_of_le hi hij)]
    · rw [if_neg hi]
      split
      · next hj => exact (h n (Nat.not_lt.mp hi) hj).symm
      · rfl

theorem eraseIdx_ne_self {l : List α} {i : Nat} (h : i < l.length) : l.eraseIdx i ≠ l := by
  intro heq
  have hlength := List.length_eraseIdx_of_lt h
  rw [heq] at hlength
  omega

end EraseIdx

namespace Java

/-! ### Arguments without what stands in front of them -/

/-- The trees of a list that are no placeholders, without the text in front of each. -/
def bareTrees (ts : List Tree) : List Tree := (ts.filter (!·.isEmpty)).map (·.withLead .empty)

/-- The arguments of a call, without the text in front of each. -/
def Call.bareArguments (c : Call) : List Tree := bareTrees c.arguments.elements

/-- How many arguments stand in front of a position, where placeholders do not count. -/
def Call.countBefore (c : Call) (index : Nat) : Nat :=
  (bareTrees (c.arguments.elements.take index)).length

section BareTrees

variable {t : Tree} {ts us : List Tree}

theorem bareTrees_append : bareTrees (ts ++ us) = bareTrees ts ++ bareTrees us := by
  rw [bareTrees, List.filter_append, List.map_append]
  rfl

theorem bareTrees_cons_empty (h : t.isEmpty = true) : bareTrees (t :: ts) = bareTrees ts := by
  rw [bareTrees, List.filter_cons_of_neg (by simp [h])]
  rfl

theorem bareTrees_cons (h : t.isEmpty = false) :
    bareTrees (t :: ts) = t.withLead .empty :: bareTrees ts := by
  rw [bareTrees, List.filter_cons_of_pos (by simp [h])]
  rfl

/-- The leading text of an argument does not matter. -/
theorem bareTrees_cons_withLead (lead : Space) :
    bareTrees (t.withLead lead :: ts) = bareTrees (t :: ts) := by
  have hempty : (t.withLead lead).isEmpty = t.isEmpty :=
    Tree.isEmpty_eq_of_kind (Tree.kind_withLead lead t)
  cases h : t.isEmpty with
  | true => rw [bareTrees_cons_empty h, bareTrees_cons_empty (hempty.trans h)]
  | false => rw [bareTrees_cons h, bareTrees_cons (hempty.trans h), Tree.withLead_withLead]

theorem length_bareTrees_le : (bareTrees ts).length ≤ ts.length := by
  rw [bareTrees, List.length_map]
  exact List.length_filter_le _ _

/-- Without placeholders all trees are counted. -/
theorem length_bareTrees (h : ∀ t ∈ ts, t.isEmpty = false) : (bareTrees ts).length = ts.length := by
  rw [bareTrees, List.length_map, List.filter_eq_self.mpr]
  intro t ht
  rw [h t ht, Bool.not_false]

/-- To close a gap changes nothing but the text in front of the first tree. -/
theorem bareTrees_closeGap (index : Nat) (removed : Tree) (ps : List (RightPadded Tree)) :
    bareTrees ((closeGap index removed ps).map (·.element)) = bareTrees (ps.map (·.element)) := by
  cases ps with
  | nil => rfl
  | cons first rest =>
    rw [closeGap]
    split
    · rw [List.map_cons, List.map_cons]
      exact bareTrees_cons_withLead removed.lead
    · rfl

end BareTrees

/-- The bare arguments are as many as the arguments that count. -/
theorem Call.length_bareArguments (c : Call) : c.bareArguments.length = c.realArguments.length :=
  List.length_map _

/-- In front of a position there are at most so many arguments. -/
theorem Call.countBefore_le (c : Call) (index : Nat) : c.countBefore index ≤ index :=
  Nat.le_trans length_bareTrees_le (List.length_take_le index _)

/-- Where no placeholder comes first, the arguments in front are as many as the positions. -/
theorem Call.countBefore_eq {c : Call} {index : Nat} (hindex : index ≤ c.arguments.elements.length)
    (h : ∀ a ∈ c.arguments.elements.take index, a.isEmpty = false) :
    c.countBefore index = index := by
  rw [countBefore, length_bareTrees h, List.length_take, Nat.min_eq_left hindex]

end Java

namespace DeleteArgument

open Java

variable {m : Matcher} {index : Nat} {t : Tree} {c : Call}

/-- What goes with a position: nothing, if a placeholder stands there, and else the argument with as
many arguments in front of it as there are in front of the position. -/
theorem exists_call_cut (h : loses m index t = true) (hcall : t.call? = some c) :
    ∃ c' a, (cut m index t).call? = some c' ∧ c.arguments.elements[index]? = some a ∧
      c'.bareArguments = if a.isEmpty then c.bareArguments
        else c.bareArguments.eraseIdx (c.countBefore index) := by
  obtain ⟨d, before, p, after, hd, hpadded, rfl⟩ := exists_call_of_loses h
  obtain rfl := Option.some.inj (hcall.symm.trans hd)
  have helements : c.arguments.elements =
      before.map (·.element) ++ p.element :: after.map (·.element) := by
    rw [Container.elements, hpadded, List.map_append, List.map_cons]
  have hbefore : (before.map (·.element)).length = before.length := List.length_map _
  refine ⟨_, p.element, call?_cut_of_loses h hcall hpadded rfl, ?_, ?_⟩
  · rw [helements, ← hbefore, List.getElem?_append_right (Nat.le_refl _), Nat.sub_self,
      List.getElem?_cons_zero]
  · rw [Call.bareArguments, Container.elements, Container.withPadded, bareTrees_closeGap,
      List.map_append, bareTrees_append, Call.countBefore, Call.bareArguments, helements,
      bareTrees_append, ← hbefore, List.take_left]
    cases hp : p.element.isEmpty with
    | true => rw [bareTrees_cons_empty hp, if_pos rfl]
    | false =>
      rw [bareTrees_cons hp, if_neg Bool.false_ne_true, eraseIdx_split]

/-- **Which argument is deleted from a call that is matched.** If there are too few, none, and
nothing happens, unless the position is the last one: there the call fails. Else what stands at the
position goes. If no placeholder stands there or in front of it, that is the argument with the
number that was meant. In general, the arguments that are left are those without the one that was
meant if and only if no placeholder stands at the position and the arguments from the one that goes
to the one that was meant are all alike. -/
theorem deleteFrom_bareArguments (position : UInt64) (hcall : t.call? = some c)
    (haccepts : m.acceptsCall c = true) (ctx : Context) :
    (position.toNat + 1 < UInt64.size → c.realArguments.length ≤ position.toNat →
        deleteFrom m position t ctx = .ok (.same, ctx)) ∧
      (position.toNat + 1 = UInt64.size → c.arguments.padded.length < UInt64.size →
        deleteFrom m position t ctx =
          .error (.removal position.toNat c.arguments.padded.length)) ∧
      (position.toNat < c.realArguments.length →
        ∃ t' ctx' c' a, deleteFrom m position t ctx = .ok (.new t', ctx') ∧ t'.call? = some c' ∧
          c.arguments.elements[position.toNat]? = some a ∧
          (c'.bareArguments = if a.isEmpty then c.bareArguments
            else c.bareArguments.eraseIdx (c.countBefore position.toNat)) ∧
          ((∀ b ∈ c.arguments.elements.take (position.toNat + 1), b.isEmpty = false) →
            c'.bareArguments = c.bareArguments.eraseIdx position.toNat) ∧
          (c'.bareArguments = c.bareArguments.eraseIdx position.toNat ↔ a.isEmpty = false ∧
            ∀ n, c.countBefore position.toNat ≤ n → n < position.toNat →
              c.bareArguments[n]? = c.bareArguments[n + 1]?)) := by
  have hloses : loses m position.toNat t = decide (position.toNat < c.realArguments.length) := by
    rw [loses, hcall, Option.any_some, haccepts, Bool.true_and]
  refine ⟨fun hposition hle => ?_, fun hlast hcount => ?_, fun hlt => ?_⟩
  · have hnot : loses m position.toNat t = false :=
      hloses.trans (decide_eq_false (Nat.not_lt.mpr hle))
    exact deleteFrom_of_not_loses hposition hnot ctx
  · have hnode : m.acceptsNode t = true := by
      rw [Matcher.acceptsNode, hcall]
      exact haccepts
    have harguments : t.arguments.length = c.arguments.padded.length := by
      rw [Tree.arguments, hcall]
      rfl
    rw [deleteFrom_of_last hlast hnode (harguments ▸ hcount), removal, harguments]
  · obtain ⟨t', hcutting⟩ := exists_cutting_eq_new (hloses.trans (decide_eq_true hlt))
    obtain ⟨c', a, hc', ha, hleft⟩ := exists_call_cut (hloses.trans (decide_eq_true hlt)) hcall
    have hdelete := deleteFrom_of_loses (hloses.trans (decide_eq_true hlt)) ctx
    rw [hcutting] at hdelete
    rw [cut, hcutting, Update.of_new] at hc'
    refine ⟨t', _, c', a, hdelete, hc', ha, hleft, fun hnone => ?_, ?_⟩
    · obtain ⟨hindex, hget⟩ := List.getElem?_eq_some_iff.mp ha
      rw [List.take_add_one, ha, List.forall_mem_append] at hnone
      have hreal : a.isEmpty = false := hnone.2 a (by simp)
      rw [hleft, hreal, if_neg Bool.false_ne_true,
        Call.countBefore_eq (Nat.le_of_lt hindex) hnone.1]
    · rw [hleft]
      cases a.isEmpty with
      | true =>
        -- all arguments are left, so one too many
        rw [if_pos rfl]
        refine iff_of_false (fun heq => ?_) (by simp)
        exact eraseIdx_ne_self (c.length_bareArguments ▸ hlt) heq.symm
      | false =>
        rw [if_neg Bool.false_ne_true, eraseIdx_eq_eraseIdx_iff (c.countBefore_le _)]
        exact (and_iff_right rfl).symm

/-- The first of two arguments with a placeholder between them. -/
theorem deleteFrom_bareArguments_first :
    let arguments := [Build.name "x" none, .empty (Empty.build .empty), Build.name "y" none]
    let m := (sampleRecipe 0).matcher samplePattern
    let t := Build.invocation none "b" arguments sampleMethod
    let c : Call := ⟨Build.arguments arguments, sampleMethod, "b", none⟩
    let ctx : Context := {}
    t.call? = some c ∧ m.acceptsCall c = true ∧ 0 < c.realArguments.length ∧
      deleteFrom m 2 t ctx = .ok (.same, ctx) ∧
      deleteFrom m (-1) t ctx = .error (.removal (UInt64.size - 1) 3) ∧
      ∃ t' ctx' c', deleteFrom m 0 t ctx = .ok (.new t', ctx') ∧ t'.call? = some c' ∧
        c'.bareArguments = c.bareArguments.eraseIdx 0 := by
  intro arguments m t c ctx
  have hcall : t.call? = some c := rfl
  have haccepts : m.acceptsCall c = true := by decide
  have htooFew : c.realArguments.length ≤ 2 := by decide
  have henough : 0 < c.realArguments.length := by decide
  obtain ⟨t', ctx', c', a, hdelete, hc', -, -, hfirst, -⟩ :=
    (deleteFrom_bareArguments 0 hcall haccepts ctx).2.2 henough
  exact ⟨hcall, haccepts, henough,
    (deleteFrom_bareArguments 2 hcall haccepts ctx).1 (by decide) htooFew,
    (deleteFrom_bareArguments (-1) hcall haccepts ctx).2.1 (by decide) (by decide),
    t', ctx', c', hdelete, hc', hfirst (by decide)⟩

/-- A placeholder is deleted, and the only argument stays. -/
theorem deleteFrom_placeholder :
    let arguments := [.empty (Empty.build .empty), Build.name "x" none]
    let pattern : MethodPattern :=
      { text := "A b(*)"
        parts := ⟨['A'], ['b'], [['*']]⟩
        type := .named [.segment ['A']] true 0
        name := .form ['b']
        parameters := [.any] }
    let m : Matcher := { pattern, fallback := .failClosed }
    let type : MethodType :=
      { sampleMethod with parameterNames := ["p"], parameterTypes := [.primitive .int] }
    let t := Build.invocation none "b" arguments type
    let c : Call := ⟨Build.arguments arguments, type, "b", none⟩
    let ctx : Context := {}
    MethodPattern.parse "A b(*)" = .ok pattern ∧ t.call? = some c ∧ m.acceptsCall c = true ∧
      0 < c.realArguments.length ∧ c.bareArguments.eraseIdx 0 = [] ∧
      ∃ t' ctx' c', deleteFrom m 0 t ctx = .ok (.new t', ctx') ∧ t'.call? = some c' ∧
        c'.bareArguments = [Build.name "x" none] := by
  intro arguments pattern m type t c ctx
  have hmethod : pattern.accepts true type = true :=
    MethodPattern.accepts_of_declaringType (by decide) (by decide) (by decide) true
  have haccepts : m.acceptsCall c = true := hmethod
  have hloses : loses m 0 t = true := by
    show (m.acceptsCall c && decide (0 < c.realArguments.length)) = true
    rw [haccepts]
    rfl
  have hpadded : c.arguments.padded =
      [] ++ .build (.empty (Empty.build .empty)) :: [.build (Build.name "x" none)] := rfl
  have hcut := call?_cut_of_loses hloses (c := c) rfl hpadded rfl
  obtain ⟨t', hcutting⟩ := exists_cutting_eq_new hloses
  have hdelete : deleteFrom m 0 t ctx = _ := deleteFrom_of_loses hloses ctx
  rw [UInt64.toNat_zero, hcutting] at hdelete
  rw [cut, hcutting, Update.of_new] at hcut
  exact ⟨by decide, rfl, haccepts, by decide, rfl, t', _, _, hdelete, hcut, rfl⟩

end DeleteArgument

end Lossless
