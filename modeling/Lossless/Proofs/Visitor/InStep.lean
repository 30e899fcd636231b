import Lossless.Proofs.Visitor.Visit

/-!
# Traversals in step

Two computations run *in step* (`Lossless.InStep`) if from related states they give one and
the same answer and end in related states again, or fail both in the same way. Whichever monad
the states are added to, this says that both come from one computation which has the two states
side by side. Where nothing can fail (`Lossless.inStep_id_iff`) or steps can break off
(`Lossless.inStep_except_iff`) it can be said without this.

Steps in step make up runs in step, and so do traversals: if two visitors are in step at every
node, given walks over the children that are, then their traversals of a tree are
(`Lossless.Visitor.InStep.visit`). Neither notices in which of the related states it was started.
-/

namespace Lossless

variable {m : Type → Type} [Monad m] {σ ρ α β : Type}

/-- From related states two computations give the same answer and come to related states. -/
def InStep (R : σ → ρ → Prop) (x : StateT σ m α) (y : StateT ρ m α) : Prop :=
  ∀ s r, R s r → ∃ z : m (α × { p : σ × ρ // R p.1 p.2 }),
    x s = (fun z => (z.1, z.2.val.1)) <$> z ∧ y r = (fun z => (z.1, z.2.val.2)) <$> z

/-- Where nothing can fail, answers and states can be compared directly. -/
theorem inStep_id_iff {R : σ → ρ → Prop} {x : StateM σ α} {y : StateM ρ α} :
    InStep R x y ↔ ∀ s r, R s r → (x s).1 = (y r).1 ∧ R (x s).2 (y r).2 := by
  refine forall₃_congr fun s r _ => ⟨?_, fun ⟨ha, hR⟩ => ?_⟩
  · rintro ⟨z, hx, hy⟩
    rw [hx, hy]
    exact ⟨rfl, z.2.property⟩
  · exact ⟨((x s).1, ⟨((x s).2, (y r).2), hR⟩), rfl, Prod.ext ha.symm rfl⟩

/-- Where steps can break off, both succeed or both break off for the same reason. -/
theorem inStep_except_iff {ε : Type} {R : σ → ρ → Prop} {x : StateT σ (Except ε) α}
    {y : StateT ρ (Except ε) α} :
    InStep R x y ↔ ∀ s r, R s r →
      (∃ a s' r', x s = .ok (a, s') ∧ y r = .ok (a, r') ∧ R s' r') ∨
        ∃ e, x s = .error e ∧ y r = .error e := by
  refine forall₃_congr fun s r _ => ⟨?_, ?_⟩
  · rintro ⟨z, hx, hy⟩
    cases z with
    | ok z => exact .inl ⟨z.1, z.2.val.1, z.2.val.2, hx, hy, z.2.property⟩
    | error e => exact .inr ⟨e, hx, hy⟩
  · rintro (⟨a, s', r', hx, hy, hR⟩ | ⟨e, hx, hy⟩)
    · exact ⟨.ok (a, ⟨(s', r'), hR⟩), hx, hy⟩
    · exact ⟨.error e, hx, hy⟩

variable [LawfulMonad m]

namespace InStep

variable {R : σ → ρ → Prop}

theorem pure (a : α) : InStep R (pure a : StateT σ m α) (pure a) := fun s r h => by
  refine ⟨Pure.pure (a, ⟨(s, r), h⟩), ?_, ?_⟩
  · rw [map_pure]
    rfl
  · rw [map_pure]
    rfl

/-- A step that does not look at the state is in step with itself. -/
theorem lift (x : m α) :
    InStep R (StateT.lift x : StateT σ m α) (StateT.lift x : StateT ρ m α) := fun s r h => by
  refine ⟨(fun a => (a, ⟨(s, r), h⟩)) <$> x, ?_, ?_⟩
  · rw [StateT.lift, Functor.map_map, map_eq_pure_bind]
  · rw [StateT.lift, Functor.map_map, map_eq_pure_bind]

/-- Steps in step, one after the other, are in step. -/
theorem bind {x : StateT σ m α} {y : StateT ρ m α} {f : α → StateT σ m β} {g : α → StateT ρ m β}
    (hx : InStep R x y) (hf : ∀ a, InStep R (f a) (g a)) : InStep R (x >>= f) (y >>= g) := by
  intro s r h
  obtain ⟨z, hxz, hyz⟩ := hx s r h
  choose rest hleft hright using fun a s r => hf a s r
  refine ⟨z >>= fun z => rest z.1 z.2.val.1 z.2.val.2 z.2.property, ?_, ?_⟩
  · show (x s >>= fun p => f p.1 p.2) = _
    rw [hxz, bind_map_left, map_bind]
    exact bind_congr fun z => hleft z.1 _ _ z.2.property
  · show (y r >>= fun p => g p.1 p.2) = _
    rw [hyz, bind_map_left, map_bind]
    exact bind_congr fun z => hright z.1 _ _ z.2.property

theorem map {x : StateT σ m α} {y : StateT ρ m α} (f : α → β) (hx : InStep R x y) :
    InStep R (f <$> x) (f <$> y) := by
  rw [map_eq_pure_bind, map_eq_pure_bind]
  exact hx.bind fun a => .pure (f a)

/-- Changes of the states that keep them related run in step. -/
theorem modify {f : σ → σ} {g : ρ → ρ} (h : ∀ s r, R s r → R (f s) (g r)) :
    InStep R (modify f : StateT σ m Unit) (modify g) := fun s r hR => by
  refine ⟨Pure.pure ((), ⟨(f s, g r), h s r hR⟩), ?_, ?_⟩
  · rw [map_pure]
    rfl
  · rw [map_pure]
    rfl

/-- Actions over a list run in step where they do so at each of its elements. -/
theorem mapM {f : α → StateT σ m β} {g : α → StateT ρ m β} {as : List α}
    (h : ∀ a ∈ as, InStep R (f a) (g a)) : InStep R (as.mapM f) (as.mapM g) := by
  induction as with
  | nil => exact .pure []
  | cons a as ih =>
    obtain ⟨ha, has⟩ := List.forall_mem_cons.mp h
    rw [List.mapM_cons, List.mapM_cons]
    exact ha.bind fun b => (ih has).bind fun bs => .pure (b :: bs)

theorem forM {f : α → StateT σ m Unit} {g : α → StateT ρ m Unit} {as : List α}
    (h : ∀ a ∈ as, InStep R (f a) (g a)) : InStep R (as.forM f) (as.forM g) := by
  induction as with
  | nil => exact .pure ()
  | cons a as ih =>
    obtain ⟨ha, has⟩ := List.forall_mem_cons.mp h
    exact ha.bind fun _ => ih has

end InStep

/-! ### Visitors -/

variable {τ : Type}

/-- Two traversals stand at the same node, and their visitors are in related states. -/
def Standing (R : σ → ρ → Prop) (s : Traversal τ σ) (r : Traversal τ ρ) : Prop :=
  R s.state r.state ∧ s.cursor = r.cursor

variable {R : σ → ρ → Prop}

/-- Actions on the visitor's own state run in step within the traversal. -/
theorem InStep.onState {x : StateT σ m α} {y : StateT ρ m α} (h : InStep R x y) :
    InStep (Standing R) (VisitM.onState x : VisitM τ σ m α) (VisitM.onState y) := by
  rintro s r ⟨hstate, hcursor⟩
  obtain ⟨z, hx, hy⟩ := h s.state r.state hstate
  refine ⟨(fun z => (z.1, ⟨(⟨z.2.val.1, s.cursor⟩, ⟨z.2.val.2, r.cursor⟩),
    z.2.property, hcursor⟩)) <$> z, ?_, ?_⟩
  · rw [VisitM.onState, hx, ← map_eq_pure_bind, Functor.map_map, Functor.map_map]
  · rw [VisitM.onState, hy, ← map_eq_pure_bind, Functor.map_map, Functor.map_map]

theorem inStep_cursor :
    InStep (Standing R) (VisitM.cursor : VisitM τ σ m (Cursor τ)) VisitM.cursor := fun s r hs => by
  refine ⟨Pure.pure (s.cursor, ⟨(s, r), hs⟩), ?_, ?_⟩
  · show (Pure.pure (s, s) >>= fun p => Pure.pure (p.1.cursor, p.2)) = _
    rw [pure_bind, map_pure]
  · show (Pure.pure (r, r) >>= fun p => Pure.pure (p.1.cursor, p.2)) = _
    rw [pure_bind, map_pure, hs.2]

theorem inStep_push (t : τ) :
    InStep (Standing R) (VisitM.push t : VisitM τ σ m Unit) (VisitM.push t) :=
  .modify fun _ _ hs => ⟨hs.1, congrArg (·.push t) hs.2⟩

theorem inStep_pop : InStep (Standing R) (VisitM.pop : VisitM τ σ m Unit) VisitM.pop :=
  .modify fun _ _ hs => ⟨hs.1, congrArg (·.pop) hs.2⟩

namespace Visitor

variable [Node τ] {v : Visitor τ σ m} {w : Visitor τ ρ m}

/-- Two visitors are in step at every node. -/
structure InStep (R : σ → ρ → Prop) (v : Visitor τ σ m) (w : Visitor τ ρ m) : Prop where
  enter : ∀ t, Lossless.InStep R (v.enter t) (w.enter t)
  node : ∀ t x y, Lossless.InStep (Standing R) x y →
    Lossless.InStep (Standing R) (v.node t x) (w.node t y)

/-- **Visitors in step make traversals in step.** -/
theorem InStep.visit (h : v.InStep R w) (t : τ) :
    Lossless.InStep (Standing R) (v.visit t) (w.visit t) := by
  induction t using induction_on_children with
  | step t ih =>
    rw [visit_eq, visit_eq]
    refine (h.enter t).onState.bind fun entered => ?_
    cases entered with
    | false => exact .pure (some Update.same)
    | true =>
      refine (inStep_push t).bind fun _ => (h.node t _ _ ?_).bind fun answer =>
        inStep_pop.bind fun _ => .pure answer
      exact (Lossless.InStep.mapM ih).map (update t)

/-- Traversals in step that begin with a fresh cursor end in related states. -/
theorem InStep.run (h : v.InStep R w) (t : τ) :
    Lossless.InStep R (fun s => (fun z => (z.1, z.2.state)) <$> v.run t s)
      (fun s => (fun z => (z.1, z.2.state)) <$> w.run t s) := by
  intro s r hR
  obtain ⟨z, hv, hw⟩ := h.visit t ⟨s, .empty⟩ ⟨r, .empty⟩ ⟨hR, rfl⟩
  refine ⟨(fun z => (z.1, ⟨(z.2.val.1.state, z.2.val.2.state), z.2.property.1⟩)) <$> z, ?_, ?_⟩
  · show (fun z => (z.1, z.2.state)) <$> v.visit t ⟨s, .empty⟩ = _
    rw [hv, Functor.map_map, Functor.map_map]
  · show (fun z => (z.1, z.2.state)) <$> w.visit t ⟨r, .empty⟩ = _
    rw [hw, Functor.map_map, Functor.map_map]

end Visitor

end Lossless
