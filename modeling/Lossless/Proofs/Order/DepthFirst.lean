import Mathlib.Data.List.Nodup
import Mathlib.Logic.Relation
import Lossless.Recipe.Order

/-!
# What a depth-first order is worth

`Lossless.Order.order` puts things in an order in which each comes after those that it
depends on, or names one that lies on a cycle. Both answers are right:
`Lossless.Order.order_ok` and `Lossless.Order.order_error`. Since a cycle has no order
(`Lossless.Order.not_cyclic_of_order_ok`), the walk finds a cycle exactly when there is one.

The walk keeps a stack of tasks, and everything it knows is in that stack.
`Lossless.Order.Underway` says what: the things not entered, those with a task to finish
them, and those finished are all things, once each; below a task to finish something
there is nothing but what led to it, so that the thing at the bottom reaches all that lies
above; and no thing is finished before all that depends on it has been entered. So when a
thing is finished, each thing that depends on it is finished already – or is still open
below it, and then it lies on a cycle with it. The finished things are therefore *placed*
(`Lossless.Order.Placed`) and not yet in order: that no dependency is out of place has to
be looked at once more, and if one is, it closes a cycle.
-/

namespace Lossless.Order

open Relation

variable {α : Type}

namespace Task

/-- The thing that a task is about. -/
def thing : Task α → α
  | .enter a => a
  | .finish a => a

/-- The thing that a task finishes. -/
def finishes? : Task α → Option α
  | .enter _ => none
  | .finish a => some a

theorem filterMap_finishes?_enter (as : List α) :
    (as.map Task.enter).filterMap finishes? = [] := by
  rw [List.filterMap_map]
  exact List.filterMap_eq_nil_iff.mpr fun _ _ => rfl

end Task

/-! ### What the walk keeps -/

section Walk

variable (dependents : α → List α)

/-- One thing has to come before another, which depends on it. -/
def Before (a b : α) : Prop := b ∈ dependents a

/-- No task finishes a thing before all that depends on it has been entered, given what
has been entered already. -/
def Provided : (α → Prop) → List (Task α) → Prop
  | _, [] => True
  | entered, .enter a :: tasks => Provided (fun b => b = a ∨ entered b) tasks
  | entered, .finish a :: tasks => (∀ b ∈ dependents a, entered b) ∧ Provided entered tasks

/-- What depends on a finished thing was finished before it, or else reaches it. -/
def Placed : List α → Prop
  | [] => True
  | a :: finished =>
    (∀ b ∈ dependents a, b ∈ finished ∨ TransGen (Before dependents) b a) ∧
      a ∉ dependents a ∧ Placed finished

/-- The state of a walk over `all`: what was not entered yet, the tasks, and what is
finished, the latest first. -/
structure Underway (all unseen : List α) (tasks : List (Task α)) (finished : List α) : Prop where
  /-- Every thing is in one of three states. -/
  perm : (unseen ++ (tasks.filterMap Task.finishes? ++ finished)).Perm all
  /-- Every thing will be entered. -/
  entered : ∀ a ∈ unseen, .enter a ∈ tasks
  provided : Provided dependents (· ∉ unseen) tasks
  /-- A thing that is to be finished reaches all that the tasks above are about. -/
  nested : tasks.Pairwise fun t u => ∀ a ∈ u.finishes?, TransGen (Before dependents) a t.thing
  loopless : ∀ a, .finish a ∈ tasks → a ∉ dependents a
  placed : Placed dependents finished

variable {dependents}

theorem Provided.mono {tasks : List (Task α)} {e e' : α → Prop} (hsub : ∀ b, e b → e' b)
    (h : Provided dependents e tasks) : Provided dependents e' tasks := by
  induction tasks generalizing e e' with
  | nil => trivial
  | cons t tasks ih =>
    cases t with
    | enter a => exact ih (fun b hb => hb.imp_right (hsub b)) h
    | finish a => exact ⟨fun b hb => hsub b (h.1 b hb), ih hsub h.2⟩

/-- Whatever is to be entered first is provided for. -/
theorem provided_enter_append {as : List α} {tasks : List (Task α)} {e : α → Prop} :
    Provided dependents e (as.map .enter ++ tasks) ↔
      Provided dependents (fun b => b ∈ as ∨ e b) tasks := by
  induction as generalizing e with
  | nil => simp
  | cons a as ih =>
    have hsets : (fun b => b ∈ as ∨ b = a ∨ e b) = fun b => b ∈ a :: as ∨ e b := by
      funext b
      rw [List.mem_cons, or_left_comm, or_assoc]
    exact ih.trans (iff_of_eq (congrArg (Provided dependents · tasks) hsets))

variable {all unseen finished : List α} {tasks : List (Task α)} {a : α}

namespace Underway

/-- In the beginning all that has not been seen is to be entered. -/
theorem start (all : List α) : Underway dependents all all (all.map .enter) [] where
  perm := by rw [Task.filterMap_finishes?_enter]; simp
  entered a ha := List.mem_map_of_mem ha
  provided := by
    rw [← List.append_nil (all.map Task.enter)]
    exact provided_enter_append.mpr trivial
  nested := by
    refine List.pairwise_map.mpr (List.pairwise_of_forall fun b c a ha => ?_)
    cases ha
  loopless a ha := by simp at ha
  placed := trivial

theorem nodup_unseen (hall : all.Nodup) (h : Underway dependents all unseen tasks finished) :
    unseen.Nodup :=
  (h.perm.nodup_iff.mpr hall).of_append_left

/-- A thing that was entered before is not entered again. -/
theorem skip (h : Underway dependents all unseen (.enter a :: tasks) finished)
    (ha : a ∉ unseen) : Underway dependents all unseen tasks finished where
  perm := h.perm
  entered b hb := by
    rcases List.mem_cons.mp (h.entered b hb) with heq | hmem
    · cases heq
      exact absurd hb ha
    · exact hmem
  provided := by
    refine Provided.mono (fun b hb => ?_) h.provided
    rcases hb with rfl | hb
    · exact ha
    · exact hb
  nested := (List.pairwise_cons.mp h.nested).2
  loopless b hb := h.loopless b (List.mem_cons_of_mem _ hb)
  placed := h.placed

/-- **Finishing a thing places it**: what depends on it has been entered, and is finished
or among the things below it that reach it. -/
theorem finish (hclosed : ∀ a b, Before dependents a b → a ∈ all ∧ b ∈ all)
    (h : Underway dependents all unseen (.finish a :: tasks) finished) :
    Underway dependents all unseen tasks (a :: finished) where
  perm := (List.perm_middle.append_left unseen).trans h.perm
  entered b hb := by
    rcases List.mem_cons.mp (h.entered b hb) with heq | hmem
    · cases heq
    · exact hmem
  provided := h.provided.2
  nested := (List.pairwise_cons.mp h.nested).2
  loopless b hb := h.loopless b (List.mem_cons_of_mem _ hb)
  placed := by
    have hstates : ∀ b ∈ all,
        b ∈ unseen ∨ b = a ∨ b ∈ tasks.filterMap Task.finishes? ∨ b ∈ finished := fun b hb => by
      rw [← h.perm.mem_iff] at hb
      simpa [Task.finishes?] using hb
    refine ⟨fun b hb => ?_, h.loopless a List.mem_cons_self, h.placed⟩
    rcases hstates b (hclosed a b hb).2 with hb' | rfl | hb' | hb'
    · exact absurd hb' (h.provided.1 b hb)
    · exact Or.inr (.single hb)
    · -- still open, so it lies below and reaches the thing
      obtain ⟨u, hu, hub⟩ := List.mem_filterMap.mp hb'
      exact Or.inr ((List.pairwise_cons.mp h.nested).1 u hu b hub)
    · exact Or.inl hb'

variable [DecidableEq α]

/-- Entering a thing puts what depends on it on the stack, above the task to finish it. -/
theorem enter (hall : all.Nodup) (h : Underway dependents all unseen (.enter a :: tasks) finished)
    (ha : a ∈ unseen) (hloop : a ∉ dependents a) :
    Underway dependents all (unseen.erase a) ((dependents a).map .enter ++ .finish a :: tasks)
      finished where
  perm := by
    have hmove : (unseen.erase a ++ a :: (tasks.filterMap Task.finishes? ++ finished)).Perm
        (unseen ++ (tasks.filterMap Task.finishes? ++ finished)) :=
      List.perm_middle.trans ((List.perm_cons_erase ha).symm.append_right _)
    rw [List.filterMap_append, Task.filterMap_finishes?_enter]
    exact hmove.trans h.perm
  entered b hb := by
    obtain ⟨hne, hb⟩ := ((h.nodup_unseen hall).mem_erase_iff).mp hb
    rcases List.mem_cons.mp (h.entered b hb) with heq | hmem
    · cases heq
      exact absurd rfl hne
    · exact List.mem_append_right _ (List.mem_cons_of_mem _ hmem)
  provided := by
    refine provided_enter_append.mpr ⟨fun b hb => Or.inl hb, ?_⟩
    refine Provided.mono (fun b hb => Or.inr fun hmem => ?_) h.provided
    obtain ⟨hne, hmem⟩ := ((h.nodup_unseen hall).mem_erase_iff).mp hmem
    rcases hb with rfl | hb
    · exact hne rfl
    · exact hb hmem
  nested := by
    obtain ⟨htop, hrest⟩ := List.pairwise_cons.mp h.nested
    refine List.pairwise_append.mpr ⟨?_, List.pairwise_cons.mpr ⟨htop, hrest⟩, ?_⟩
    · refine List.pairwise_map.mpr (List.pairwise_of_forall fun b c d hd => ?_)
      cases hd
    · intro t ht u hu b hb
      obtain ⟨c, hc, rfl⟩ := List.mem_map.mp ht
      rcases List.mem_cons.mp hu with rfl | hu
      · cases hb
        exact .single hc
      · exact (htop u hu b hb).tail hc
  loopless b hb := by
    rcases List.mem_append.mp hb with hb | hb
    · obtain ⟨c, -, hc⟩ := List.mem_map.mp hb
      cases hc
    · rcases List.mem_cons.mp hb with heq | hb
      · cases heq
        exact hloop
      · exact h.loopless b (List.mem_cons_of_mem _ hb)
  placed := h.placed

end Underway

/-- **Where a walk ends**: all things are finished and placed, or one of them depends on
itself. -/
theorem walk_spec [DecidableEq α] (hall : all.Nodup)
    (hclosed : ∀ a b, Before dependents a b → a ∈ all ∧ b ∈ all)
    (h : Underway dependents all unseen tasks finished) :
    match walk dependents unseen tasks finished with
    | .ok found => found.Perm all ∧ Placed dependents found
    | .error a => a ∈ dependents a := by
  fun_induction walk dependents unseen tasks finished with
  | case1 unseen finished =>
    have hnil : unseen = [] := List.eq_nil_iff_forall_not_mem.mpr fun a ha => by
      simpa using h.entered a ha
    subst hnil
    exact ⟨by simpa using h.perm, h.placed⟩
  | case2 unseen finished a tasks ih => exact ih (h.finish hclosed)
  | case3 unseen finished a tasks ha hloop => exact hloop
  | case4 unseen finished a tasks ha hloop ih => exact ih (h.enter hall ha hloop)
  | case5 unseen finished a tasks ha ih => exact ih (h.skip ha)

/-! ### From places to an order -/

/-- The later part of a list in which all is placed is one. -/
theorem Placed.of_append {as bs : List α} (h : Placed dependents (as ++ bs)) :
    Placed dependents bs := by
  induction as with
  | nil => exact h
  | cons a as ih => exact ih h.2.2

/-- What is placed does not depend on itself. -/
theorem Placed.loopless {as : List α} (h : Placed dependents as) (ha : a ∈ as) :
    a ∉ dependents a := by
  obtain ⟨front, back, rfl⟩ := List.append_of_mem ha
  exact (Placed.of_append h).2.1

variable [DecidableEq α] {dependencies : α → List α} {before found : List α} {d : α}

/-- What is found out of place stands behind something that has to come later. -/
theorem outOfPlace?_eq_some (h : outOfPlace? dependencies before found = some d) :
    d ∉ before ∧ ∃ front a back,
      found = front ++ a :: back ∧ d ∈ dependencies a ∧ d ∉ front ∧ d ≠ a := by
  induction found generalizing before with
  | nil => simp [outOfPlace?] at h
  | cons a found ih =>
    rw [outOfPlace?] at h
    split at h
    next d' hfind =>
      cases h
      have hout := List.find?_some hfind
      simp only [List.mem_cons, not_or, decide_eq_true_eq] at hout
      exact ⟨hout.2, [], a, found, rfl, List.mem_of_find?_eq_some hfind, List.not_mem_nil, hout.1⟩
    next hnone =>
      obtain ⟨hbefore, front, b, back, rfl, hd, hfront, hne⟩ := ih h
      obtain ⟨hda, hbefore⟩ : d ≠ a ∧ d ∉ before := by simpa using hbefore
      exact ⟨hbefore, a :: front, b, back, rfl, hd, by simp [hda, hfront], hne⟩

/-- If nothing is out of place then nothing depends on what comes later. -/
theorem pairwise_of_outOfPlace?_eq_none (hnodup : found.Nodup) (hfresh : before.Disjoint found)
    (h : outOfPlace? dependencies before found = none) :
    found.Pairwise fun a b => b ∉ dependencies a := by
  induction found generalizing before with
  | nil => exact .nil
  | cons a found ih =>
    obtain ⟨ha, hnodup⟩ := List.nodup_cons.mp hnodup
    obtain ⟨hab, hfresh⟩ := List.disjoint_cons_right.mp hfresh
    rw [outOfPlace?] at h
    split at h
    next => cases h
    next hnone =>
      refine List.pairwise_cons.mpr ⟨fun b hb hdep => ?_,
        ih hnodup (List.disjoint_cons_left.mpr ⟨ha, hfresh⟩) h⟩
      have hin := List.find?_eq_none.mp hnone b hdep
      simp only [List.mem_cons, decide_eq_true_eq, not_not] at hin
      rcases hin with rfl | hin
      · exact ha hb
      · exact hfresh hin hb

end Walk

/-! ### What an order is -/

section Order

variable [DecidableEq α] {all found : List α} {dependencies dependents : α → List α} {a : α}

/-- **What is found is an order**: every thing once, after all that it depends on. -/
theorem order_ok (hall : all.Nodup)
    (hclosed : ∀ a b, Before dependents a b → a ∈ all ∧ b ∈ all)
    (hsymm : ∀ a b, b ∈ dependents a ↔ a ∈ dependencies b)
    (h : order all dependencies dependents = .ok found) :
    found.Perm all ∧ found.Pairwise (fun a b => b ∉ dependencies a) ∧
      ∀ a ∈ found, a ∉ dependencies a := by
  have hwalk := walk_spec hall hclosed (.start all)
  rw [order] at h
  cases hw : walk dependents all (all.map .enter) [] with
  | error b => rw [hw] at h; cases h
  | ok found' =>
    rw [hw] at h hwalk
    obtain ⟨hperm, hplaced⟩ := hwalk
    simp only [bind, Except.bind] at h
    split at h
    next => cases h
    next hnone =>
      cases h
      refine ⟨hperm, ?_, fun a ha hloop => hplaced.loopless ha ((hsymm a a).mpr hloop)⟩
      exact pairwise_of_outOfPlace?_eq_none (hperm.nodup_iff.mpr hall) (List.disjoint_nil_left _)
        hnone

/-- **What is named lies on a cycle.** A thing that depends on itself does. A dependency out
of place stands behind what depends on it, and so was finished before; but then it was
reached from there. -/
theorem order_error (hall : all.Nodup)
    (hclosed : ∀ a b, Before dependents a b → a ∈ all ∧ b ∈ all)
    (hsymm : ∀ a b, b ∈ dependents a ↔ a ∈ dependencies b)
    (h : order all dependencies dependents = .error a) :
    TransGen (Before dependents) a a := by
  have hwalk := walk_spec hall hclosed (.start all)
  rw [order] at h
  cases hw : walk dependents all (all.map .enter) [] with
  | error b =>
    rw [hw] at h hwalk
    cases h
    exact .single hwalk
  | ok found =>
    rw [hw] at h hwalk
    obtain ⟨hperm, hplaced⟩ := hwalk
    simp only [bind, Except.bind] at h
    split at h
    next d hout =>
      cases h
      obtain ⟨-, front, b, back, rfl, hdep, hfront, hne⟩ := outOfPlace?_eq_some hout
      have hedge : Before dependents a b := (hsymm a b).mpr hdep
      have hmem : a ∈ front ++ b :: back := hperm.mem_iff.mpr (hclosed a b hedge).1
      have hback : a ∈ back := by simpa [hfront, hne] using hmem
      obtain ⟨mid, rest, rfl⟩ := List.append_of_mem hback
      have hnodup := (List.nodup_append.mp (hperm.nodup_iff.mpr hall)).2.1
      have hplace : Placed dependents (a :: rest) := by
        have hsplit : front ++ b :: (mid ++ a :: rest) = (front ++ b :: mid) ++ a :: rest := by simp
        exact Placed.of_append (hsplit ▸ hplaced)
      -- the dependent stands in front of what it depends on, so it was not finished by then
      rcases hplace.1 b hedge with hb | hb
      · exact absurd (by simp [hb]) (List.nodup_cons.mp hnodup).1
      · exact .head hedge hb
    next => cases h

/-- **A cycle has no order**: along a dependency the position grows. -/
theorem not_cyclic_of_order_ok (hall : all.Nodup)
    (hclosed : ∀ a b, Before dependents a b → a ∈ all ∧ b ∈ all)
    (hsymm : ∀ a b, b ∈ dependents a ↔ a ∈ dependencies b)
    (h : order all dependencies dependents = .ok found) :
    ¬TransGen (Before dependents) a a := by
  obtain ⟨hperm, hpair, hloop⟩ := order_ok hall hclosed hsymm h
  -- by induction on the path; its single steps are where the order is used
  have hgrow : ∀ {b c}, TransGen (Before dependents) b c → found.idxOf b < found.idxOf c := by
    intro b c hbc
    refine TransGen.trans_induction_on hbc (fun {b c} hedge => ?_) fun _ _ => Nat.lt_trans
    have hb := hperm.mem_iff.mpr (hclosed b c hedge).1
    have hc := hperm.mem_iff.mpr (hclosed b c hedge).2
    have hdep := (hsymm b c).mp hedge
    rcases Nat.lt_trichotomy (found.idxOf b) (found.idxOf c) with hlt | heq | hgt
    · exact hlt
    · rw [(List.idxOf_inj hb).mp heq] at hdep
      exact absurd hdep (hloop c hc)
    · have hno := List.pairwise_iff_getElem.mp hpair _ _ (List.idxOf_lt_length_of_mem hc)
        (List.idxOf_lt_length_of_mem hb) hgt
      rw [List.getElem_idxOf, List.getElem_idxOf] at hno
      exact absurd hdep hno
  exact fun hcycle => Nat.lt_irrefl _ (hgrow hcycle)

/-- **The order fails exactly on a cycle.** -/
theorem exists_order_error_iff (hall : all.Nodup)
    (hclosed : ∀ a b, Before dependents a b → a ∈ all ∧ b ∈ all)
    (hsymm : ∀ a b, b ∈ dependents a ↔ a ∈ dependencies b) :
    (∃ a, order all dependencies dependents = .error a) ↔
      ∃ a, TransGen (Before dependents) a a := by
  constructor
  · rintro ⟨a, ha⟩
    exact ⟨a, order_error hall hclosed hsymm ha⟩
  · rintro ⟨a, ha⟩
    cases ho : order all dependencies dependents with
    | error b => exact ⟨b, rfl⟩
    | ok found => exact absurd ha (not_cyclic_of_order_ok hall hclosed hsymm ho)

end Order

end Lossless.Order
