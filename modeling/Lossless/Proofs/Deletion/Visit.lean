import Lossless.Proofs.Deletion.Cut
import Lossless.Proofs.Recipe.Calls

/-!
# The recipe that deletes arguments

Seen from outside, the recipe cuts the tree of a file, and the arguments that go make requests
(`Lossless.DeleteArgument.exists_apply_eq_cutTree`). That there was a test, a visitor and a
traversal can be forgotten then.

All this holds for positions that have a successor. At the last position, which has none, every
call that the matcher accepts is taken for one with enough arguments, however many it has, and the
recipe fails as soon as it comes to such a call (`Lossless.DeleteArgument.failsAtCalls_apply`). For
this, a call should not have more arguments than there are positions.
-/

namespace Lossless.DeleteArgument

open Java Tree

variable {ω : Type} {m : Matcher} {position : UInt64}

/-! ### One step of the recipe -/

section Step

variable {t : Tree}

/-- To have an argument at a position means to have as many as the number that comes next. -/
theorem toNat_succ_le_iff (h : position.toNat + 1 < UInt64.size) {n : Nat} :
    (position + 1).toNat ≤ n ↔ position.toNat < n := by
  rw [UInt64.toNat_add, UInt64.toNat_one, Nat.mod_eq_of_lt h]
  rfl

/-- After the last position the numbers begin again. -/
theorem toNat_succ_of_last (h : position.toNat + 1 = UInt64.size) : (position + 1).toNat = 0 := by
  rw [UInt64.toNat_add, UInt64.toNat_one, h]
  rfl

/-- Imports are requested one after the other. -/
theorem forM_requestRemoval (names : List String) (c : Context ω) :
    (names.forM fun name => modify (·.requestRemoval name) : ContextM ω Unit) c =
      .ok ((), names.foldl Context.requestRemoval c) := by
  induction names generalizing c with
  | nil => rfl
  | cons name names ih => exact ih (c.requestRemoval name)

/-- What is done to an accepted call that seems to have enough arguments. -/
theorem deleteFrom_of_enough {d : Call} (hcall : t.call? = some d)
    (haccepts : m.acceptsCall d = true)
    (henough : (position + 1).toNat ≤ d.realArguments.length) (c : Context ω) :
    deleteFrom m position t c = match t.withoutArgument? position.toNat with
      | some x => .ok (.new x.1, (references x.2).foldl Context.requestRemoval c)
      | none => .error (.removal position.toNat d.arguments.padded.length) := by
  rw [deleteFrom, hcall]
  simp only [haccepts, henough, decide_true, Bool.and_self, if_true]
  cases t.withoutArgument? position.toNat with
  | none => rfl
  | some x => exact bind_of_eq (forM_requestRemoval (references x.2) c)

/-- A call with enough arguments is cut, whatever the position is. -/
theorem deleteFrom_of_loses (h : loses m position.toNat t = true) (c : Context ω) :
    deleteFrom m position t c = .ok (cutting m position.toNat t,
      (requests m position.toNat t).foldl Context.requestRemoval c) := by
  obtain ⟨d, hcall, hd⟩ := (Option.any_eq_true _ _).mp h
  rw [Bool.and_eq_true, decide_eq_true_eq] at hd
  have henough : (position + 1).toNat ≤ d.realArguments.length := by
    rw [UInt64.toNat_add, UInt64.toNat_one]
    exact Nat.le_trans (Nat.mod_le _ _) hd.2
  obtain ⟨x, hx⟩ := exists_withoutArgument?_eq h
  rw [deleteFrom_of_enough hcall hd.1 henough, cutting, requests, if_pos h, if_pos h, hx]
  rfl

/-- A call with too few arguments is left as it is, if the position has a successor. -/
theorem deleteFrom_of_not_loses (hposition : position.toNat + 1 < UInt64.size)
    (h : loses m position.toNat t = false) (c : Context ω) :
    deleteFrom m position t c = .ok (.same, c) := by
  cases haccepts : m.acceptsNode t with
  | false =>
    rw [deleteFrom_of_not_accepted m position haccepts]
    rfl
  | true =>
    obtain ⟨d, hcall, hd⟩ := (Option.any_eq_true _ _).mp haccepts
    rw [loses, hcall, Option.any_some, hd, Bool.true_and, decide_eq_false_iff_not,
      ← toNat_succ_le_iff hposition] at h
    rw [deleteFrom, hcall]
    simp only [hd, h, decide_false, Bool.and_false, Bool.false_eq_true, if_false]
    rfl

/-- **At a position that has a successor**, a node is cut, and requests are made. -/
theorem deleteFrom_eq (hposition : position.toNat + 1 < UInt64.size) (t : Tree) (c : Context ω) :
    deleteFrom m position t c = .ok (cutting m position.toNat t,
      (requests m position.toNat t).foldl Context.requestRemoval c) := by
  cases h : loses m position.toNat t with
  | true => exact deleteFrom_of_loses h c
  | false =>
    rw [deleteFrom_of_not_loses hposition h, cutting_of_not_loses h, requests_of_not_loses h]
    rfl

/-- Why no argument of a call can be removed from a position behind all of them. -/
def removal (position : UInt64) (t : Tree) : Failure :=
  .removal position.toNat t.arguments.length

/-- **At the last position** every call that is accepted seems to have enough arguments, and none of
them is there. -/
theorem deleteFrom_of_last (hlast : position.toNat + 1 = UInt64.size)
    (h : m.acceptsNode t = true) (hcount : t.arguments.length < UInt64.size) (c : Context ω) :
    deleteFrom m position t c = .error (removal position t) := by
  obtain ⟨d, hcall, haccepts⟩ := (Option.any_eq_true _ _).mp h
  have hlength : t.arguments.length = d.arguments.padded.length := by
    rw [Tree.arguments, hcall]
    rfl
  have henough : (position + 1).toNat ≤ d.realArguments.length := by
    rw [toNat_succ_of_last hlast]
    exact Nat.zero_le _
  have hnone : t.withoutArgument? position.toNat = none := by
    rw [withoutArgument?_eq_none_iff hcall]
    omega
  rw [deleteFrom_of_enough hcall haccepts henough, hnone, removal, hlength]

/-- An argument fails to be removed only at the last position. -/
theorem failsOnly_deleteFrom (t : Tree) :
    FailsOnly
      (fun e => position.toNat + 1 = UInt64.size ∧ ∃ length, e = .removal position.toNat length)
      (deleteFrom (ω := ω) m position t) := by
  intro c e h
  have hsize : position.toNat < UInt64.size := position.toNat_lt
  constructor
  · by_contra hne
    rw [deleteFrom_eq (by omega)] at h
    cases h
  · cases haccepts : m.acceptsNode t with
    | false =>
      rw [deleteFrom_of_not_accepted m position haccepts] at h
      cases h
    | true =>
      obtain ⟨d, hcall, hd⟩ := (Option.any_eq_true _ _).mp haccepts
      by_cases henough : (position + 1).toNat ≤ d.realArguments.length
      · rw [deleteFrom_of_enough hcall hd henough] at h
        cases hcut : t.withoutArgument? position.toNat with
        | some x =>
          rw [hcut] at h
          cases h
        | none =>
          rw [hcut] at h
          exact ⟨_, (Except.error.inj h).symm⟩
      · rw [deleteFrom, hcall] at h
        simp only [hd, henough, decide_false, Bool.and_false, Bool.false_eq_true, if_false] at h
        cases h

end Step

/-! ### The whole tree -/

/-- What the visitor does at a node, once the walk over the children is done: it cuts the node and
requests what this takes away. -/
theorem action_node (hposition : position.toNat + 1 < UInt64.size) (t : Tree)
    (walk : VisitM Tree (Context ω) (Except Failure) (Update Tree))
    (s : Traversal Tree (Context ω)) (w : Update Tree) (s' : Traversal Tree (Context ω))
    (hwalk : walk s = .ok (w, s')) :
    (action m position ω).node t walk s =
      .ok (some (w.andThen (cutting m position.toNat (w.of t))),
        { s' with
          state :=
            (requests m position.toNat (w.of t)).foldl Context.requestRemoval s'.state }) := by
  have hcut : VisitM.onState (deleteFrom m position (w.of t)) s' =
      (.ok (cutting m position.toNat (w.of t),
        { s' with
          state := (requests m position.toNat (w.of t)).foldl Context.requestRemoval s'.state }) :
        Except Failure _) := by
    rw [VisitM.onState, deleteFrom_eq hposition]
    rfl
  exact (bind_of_eq hwalk).trans (bind_of_eq hcut)

/-- The visit of a file cuts its tree from the bottom up. -/
theorem visitUnit_eq_cutTree (hposition : position.toNat + 1 < UInt64.size)
    (unit : CompilationUnit Tree) (c : Context ω) :
    ∃ w : Update (CompilationUnit Tree),
      cutTree m position.toNat (.compilationUnit unit) = .compilationUnit (w.of unit) ∧
      visitUnit (action m position ω) unit c =
        .ok (.tree (w.map .java),
          ((turns (cut m position.toNat) (.compilationUnit unit)).flatMap
            (requests m position.toNat)).foldl Context.requestRemoval c) := by
  obtain ⟨w, hunit, hvisit⟩ := visitUnit_of_changes (v := action m position ω)
    (h := fun c t => (requests m position.toNat t).foldl Context.requestRemoval c)
    (keepsForm_cut m position.toNat) (fun _ => rfl) (fun _ => rfl) (action_node hposition) unit c
  refine ⟨w, ?_, ?_⟩
  · rw [← Update.of_map Tree.compilationUnit, ← hunit]
    exact (of_changes _ _).symm
  · rw [hvisit, List.foldl_flatMap]
    rfl

/-- Where no node loses an argument, nothing happens. -/
theorem visitUnit_of_not_loses (hposition : position.toNat + 1 < UInt64.size)
    {unit : CompilationUnit Tree}
    (h : ∀ t ∈ nodes (.compilationUnit unit), loses m position.toNat t = false) (c : Context ω) :
    visitUnit (action m position ω) unit c = .ok (.tree .same, c) := by
  refine visitUnit_of_same (fun _ => rfl) (fun _ => rfl) (fun t ht => ?_) c
  have hkept : deleteFrom (ω := ω) m position t = pure .same := by
    funext c
    exact deleteFrom_of_not_loses hposition (h t ht) c
  show (VisitM.onState (deleteFrom m position t) >>= fun w =>
    pure (some (Update.same.andThen w))) = _
  rw [hkept]
  rfl

/-- Why the deletion at the last position fails at a node, if it does. -/
def failure? (m : Matcher) (position : UInt64) (t : Tree) : Option Failure :=
  if m.acceptsNode t then some (removal position t) else none

theorem failure?_eq_none_iff {t : Tree} :
    failure? m position t = none ↔ m.acceptsNode t = false := by
  simp [failure?]

theorem failure?_eq_some_iff {t : Tree} {e : Failure} :
    failure? m position t = some e ↔ m.acceptsNode t = true ∧ removal position t = e := by
  simp [failure?]

section Last

variable (hlast : position.toNat + 1 = UInt64.size) {unit : CompilationUnit Tree}
  (hcount : ∀ t ∈ nodes (compilationUnit unit), m.acceptsNode t = true →
    t.arguments.length < UInt64.size)

include hlast hcount

/-- At the last position the visitor fails where a call is accepted, and elsewhere does nothing. -/
theorem failsOrNot_action (s : Traversal Tree (Context ω)) :
    (action m position ω).toVisitor.FailsOrNot (failure? m position) (.compilationUnit unit) s := by
  refine Lossless.Visitor.visit_of_failures (Visitor.enter_eq fun _ => rfl)
    (fun t walk s e hwalk => bind_of_error hwalk) ?_ ?_ s
  · intro t ht hnone walk s s' hwalk
    refine (bind_of_eq hwalk).trans ?_
    rw [Update.of_same, deleteFrom_of_not_accepted m position (failure?_eq_none_iff.mp hnone)]
    rfl
  · intro t ht e he walk s s' hwalk
    obtain ⟨haccepts, rfl⟩ := failure?_eq_some_iff.mp he
    refine (bind_of_eq hwalk).trans (bind_of_error ?_)
    rw [VisitM.onState, Update.of_same, deleteFrom_of_last hlast haccepts (hcount t ht haccepts)]
    rfl

/-- **At the last position** the visit of a file fails at a call that the matcher accepts, or there
is none, and then it does nothing. -/
theorem visitUnit_of_last (c : Context ω) :
    (∀ t ∈ nodes (.compilationUnit unit), m.acceptsNode t = false) ∧
        visitUnit (action m position ω) unit c = .ok (.tree .same, c) ∨
      ∃ t ∈ nodes (.compilationUnit unit), m.acceptsNode t = true ∧
        visitUnit (action m position ω) unit c = .error (removal position t) := by
  rcases failsOrNot_action hlast hcount ⟨c, .empty⟩ with ⟨hnone, hvisit⟩ | ⟨t, ht, e, he, hvisit⟩
  · exact .inl ⟨fun t ht => failure?_eq_none_iff.mp (hnone t ht), visitUnit_of_visit hvisit⟩
  · obtain ⟨haccepts, rfl⟩ := failure?_eq_some_iff.mp he
    exact .inr ⟨t, ht, haccepts, visitUnit_of_visit_error hvisit⟩

end Last

/-- A visit fails only at the last position. -/
theorem failsOnly_visitor (r : DeleteArgument) (s : Source) :
    FailsOnly
      (fun e => r.index.toNat + 1 = UInt64.size ∧ ∃ length, e = .removal r.index.toNat length)
      (r.visitor ω s) := by
  rw [visitor]
  cases MethodPattern.parse r.pattern with
  | error e => exact .pure _
  | ok pattern =>
    exact failsOnly_check (failsOnly_visitUnit (fun _ => rfl) (fun _ => rfl)
      fun t walk hwalk => hwalk.bind fun w =>
        (failsOnly_deleteFrom (w.of t)).onState.bind fun w' => .pure _) s

/-! ### The recipe -/

section Apply

variable {r : DeleteArgument} {pattern : MethodPattern}

/-- **The recipe does to a Java file what its visitor does.** The test for calls that comes
first, and the memo of its answers, leave no trace but in the memo. -/
theorem exists_apply_eq (hpattern : MethodPattern.parse r.pattern = .ok pattern) {c : Context}
    (hc : c.shared.Quiet) (unit : CompilationUnit Tree) :
    ∃ shared : Shared, shared.Quiet ∧ ∀ d : Draft, d.source = .java unit →
      r.recipe.apply (some d) c =
        (Visited.outcome d <$> visitUnit (action (r.matcher pattern) r.index) unit)
          { c with shared } := by
  refine exists_apply_gated (m := r.matcher pattern) ⟨r.pattern, hpattern⟩ ?_
    (visitUnit_same (r.matcher pattern) r.index) hc
  show r.visitor = _
  rw [visitor, hpattern]
  rfl

/-- At a position that has a successor, the recipe cuts the tree of a file and requests imports to
be removed. -/
theorem exists_apply_eq_cutTree (hpattern : MethodPattern.parse r.pattern = .ok pattern)
    (hposition : r.index.toNat + 1 < UInt64.size) {c : Context} (hc : c.shared.Quiet)
    (unit : CompilationUnit Tree) :
    ∃ (w : Update (CompilationUnit Tree)) (shared : Shared), shared.Quiet ∧
      cutTree (r.matcher pattern) r.index.toNat (.compilationUnit unit) =
        .compilationUnit (w.of unit) ∧
      ∀ d : Draft, d.source = .java unit →
        r.recipe.apply (some d) c = .ok (some (d.revise (w.map .java)),
          ((turns (cut (r.matcher pattern) r.index.toNat) (.compilationUnit unit)).flatMap
            (requests (r.matcher pattern) r.index.toNat)).foldl Context.requestRemoval
              { c with shared }) := by
  obtain ⟨shared, hshared, happly⟩ := exists_apply_eq hpattern hc unit
  obtain ⟨w, hunit, hvisit⟩ := visitUnit_eq_cutTree (m := r.matcher pattern) hposition unit
    { c with shared }
  exact ⟨w, shared, hshared, hunit, fun d hd => (happly d hd).trans (map_of_eq hvisit)⟩

/-- What the recipe does with a file at the last position: it fails at one of the calls that the
matcher accepts, or there is none, and then nothing happens to the file. -/
def FailsAtCalls (r : DeleteArgument) (m : Matcher) (unit : CompilationUnit Tree) (d : Draft)
    (c : Context) : Prop :=
  (∃ t ∈ nodes (.compilationUnit unit), m.acceptsNode t = true ∧
      r.recipe.apply (some d) c = .error (removal r.index t)) ∨
    (∀ t ∈ nodes (.compilationUnit unit), m.acceptsNode t = false) ∧
      ∃ shared : Shared, shared.Quiet ∧
        r.recipe.apply (some d) c = .ok (some d, { c with shared })

/-- **At the last position the recipe fails where it should do nothing.** -/
theorem failsAtCalls_apply (hpattern : MethodPattern.parse r.pattern = .ok pattern)
    (hlast : r.index.toNat + 1 = UInt64.size) {c : Context} (hc : c.shared.Quiet)
    {unit : CompilationUnit Tree} {d : Draft} (hd : d.source = .java unit)
    (hcount : ∀ t ∈ nodes (compilationUnit unit), (r.matcher pattern).acceptsNode t = true →
      t.arguments.length < UInt64.size) :
    r.FailsAtCalls (r.matcher pattern) unit d c := by
  obtain ⟨shared, hshared, happly⟩ := exists_apply_eq hpattern hc unit
  rw [FailsAtCalls, happly d hd]
  rcases visitUnit_of_last hlast hcount { c with shared } with
    ⟨hnone, hvisit⟩ | ⟨t, ht, haccepts, hvisit⟩
  · exact .inr ⟨hnone, shared, hshared, map_of_eq hvisit⟩
  · exact .inl ⟨t, ht, haccepts, map_of_error hvisit⟩

/-- Where there is a call that the matcher accepts, the recipe fails. -/
theorem FailsAtCalls.exists_error {m : Matcher} {unit : CompilationUnit Tree} {d : Draft}
    {c : Context} (h : r.FailsAtCalls m unit d c)
    (haccepts : ∃ t ∈ nodes (compilationUnit unit), m.acceptsNode t = true) :
    ∃ e, r.recipe.apply (some d) c = .error e := by
  rcases h with ⟨t, -, -, happly⟩ | ⟨hnone, -⟩
  · exact ⟨_, happly⟩
  · obtain ⟨t, ht, haccepts⟩ := haccepts
    rw [hnone t ht] at haccepts
    cases haccepts

end Apply

/-! ### Calls within calls -/

/-- Of the calls in the sample at least one is accepted. -/
theorem exists_accepts_sampleUnit (position : UInt64) :
    ∃ t ∈ nodes (compilationUnit sampleUnit),
      ((sampleRecipe position).matcher samplePattern).acceptsNode t = true := by
  refine ⟨sampleArgument, (mem_nodes_sampleUnit rfl).mpr (.inr (.inr rfl)), ?_⟩
  show ((sampleRecipe 0).matcher samplePattern).acceptsNode sampleArgument = true
  decide

/-- None of them has a position too many. -/
theorem length_arguments_sampleUnit :
    ∀ t ∈ nodes (compilationUnit sampleUnit), t.arguments.length < UInt64.size := by
  intro t ht
  cases hcall : t.call? with
  | none =>
    rw [arguments, hcall]
    decide
  | some c => rcases (mem_nodes_sampleUnit hcall).mp ht with rfl | rfl | rfl <;> decide

end Lossless.DeleteArgument
