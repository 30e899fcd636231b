import Mathlib.Data.List.Basic
import Lossless.Visitor
import Lossless.Proofs.Tree.Nodes
import Lossless.Proofs.Tree.Settled

/-!
# One node of a traversal

What a traversal does at a node, with the traversals of the children spelt out
(`Lossless.Visitor.visit_eq`). From this follows, by induction along the children, what can
be said of a whole traversal. The simplest is that one which does nothing at any node does
nothing at all (`Lossless.Visitor.visit_same`).
-/

namespace Lossless

/-! ### Steps with a known outcome -/

section Bind

variable {m : Type → Type} [Monad m] [LawfulMonad m] {σ : Type}

/-- A step that is known to succeed can be left out, with what it gives put in. -/
theorem bind_of_eq {α β : Type} {x : StateT σ m α} {f : α → StateT σ m β} {s s' : σ} {a : α}
    (h : x s = pure (a, s')) : (x >>= f) s = f a s' := by
  show (x s >>= fun r => f r.1 r.2) = _
  rw [h, pure_bind]

/-- Behind a step that fails nothing is done. -/
theorem bind_of_error {ε α β : Type} {x : StateT σ (Except ε) α} {f : α → StateT σ (Except ε) β}
    {s : σ} {e : ε} (h : x s = .error e) : (x >>= f) s = .error e := by
  show (x s >>= fun r => f r.1 r.2) = _
  rw [h]
  rfl

/-- What a step gives that is known to succeed can be put to another use. -/
theorem map_of_eq {α β : Type} {x : StateT σ m α} {f : α → β} {s s' : σ} {a : α}
    (h : x s = pure (a, s')) : (f <$> x) s = pure (f a, s') := by
  rw [map_eq_pure_bind]
  exact bind_of_eq h

/-- Mapping the result of an action that fails fails with the same error. -/
theorem map_of_error {ε α β : Type} {x : StateT σ (Except ε) α} {f : α → β} {s : σ} {e : ε}
    (h : x s = .error e) : (f <$> x) s = .error e := by
  rw [map_eq_pure_bind]
  exact bind_of_error h

end Bind

section FailsOnly

variable {σ τ ε α β : Type} {P : ε → Prop}

/-- A step that fails, if at all, for such reasons only. -/
def FailsOnly (P : ε → Prop) (x : StateT σ (Except ε) α) : Prop := ∀ s e, x s = .error e → P e

namespace FailsOnly

/-- Where there are no such reasons, the step succeeds. -/
theorem exists_ok {x : StateT σ (Except ε) α} (h : FailsOnly (fun _ => False) x) (s : σ) :
    ∃ a s', x s = .ok (a, s') := by
  cases hx : x s with
  | ok z => exact ⟨z.1, z.2, rfl⟩
  | error e => exact (h s e hx).elim

/-- Steps that fail only as allowed do so one after the other. -/
theorem bind {x : StateT σ (Except ε) α} {f : α → StateT σ (Except ε) β} (hx : FailsOnly P x)
    (hf : ∀ a, FailsOnly P (f a)) : FailsOnly P (x >>= f) := by
  intro s e h
  cases hs : x s with
  | ok z =>
    rw [bind_of_eq hs] at h
    exact hf z.1 z.2 e h
  | error e' =>
    rw [bind_of_error hs] at h
    obtain rfl := Except.error.inj h
    exact hx s e' hs

theorem pure (a : α) : FailsOnly P (pure a : StateT σ (Except ε) α) := fun _ _ h => nomatch h

theorem modify (f : σ → σ) : FailsOnly P (modify f : StateT σ (Except ε) Unit) :=
  fun _ _ h => nomatch h

/-- An action on the visitor's own state fails within the traversal only as it does alone. -/
theorem onState {x : StateT σ (Except ε) α} (hx : FailsOnly P x) :
    FailsOnly P (VisitM.onState x : VisitM τ σ (Except ε) α) := by
  intro s e h
  cases hs : x s.state with
  | ok z =>
    rw [VisitM.onState, hs] at h
    cases h
  | error e' =>
    rw [VisitM.onState, hs] at h
    obtain rfl := Except.error.inj h
    exact hx s.state e' hs

theorem cursor : FailsOnly P (VisitM.cursor : VisitM τ σ (Except ε) (Cursor τ)) :=
  fun _ _ h => nomatch h

/-- An action over a list fails only as it may at the elements. -/
theorem mapM {f : α → StateT σ (Except ε) β} {as : List α} (h : ∀ a ∈ as, FailsOnly P (f a)) :
    FailsOnly P (as.mapM f) := by
  induction as with
  | nil => exact .pure []
  | cons a as ih =>
    obtain ⟨ha, has⟩ := List.forall_mem_cons.mp h
    rw [List.mapM_cons]
    exact ha.bind fun b => (ih has).bind fun bs => .pure (b :: bs)

end FailsOnly

end FailsOnly

/-! ### Traversals -/

variable {m : Type → Type} [Monad m] [LawfulMonad m] {τ σ : Type} [Node τ]

namespace Visitor

omit [LawfulMonad m] in
/-- The walk over the children of a node, as the visitor is handed it. -/
def walk (v : Visitor τ σ m) (t : τ) : VisitM τ σ m (Update τ) :=
  update t <$> (children t).mapM v.visit

/-- **A traversal at a node.** -/
theorem visit_eq (v : Visitor τ σ m) (t : τ) :
    v.visit t = do
      if ← VisitM.onState (v.enter t) then
        VisitM.push t
        let answer ← v.node t (v.walk t)
        VisitM.pop
        return answer
      else
        return some .same := by
  rw [visit, walk, List.mapM_subtype (g := v.visit) fun c _ => rfl, List.unattach_attach]

/-- A node that is refused stays the same, and the cursor where it is. -/
theorem visit_of_refused {v : Visitor τ σ m} {t : τ} {s : Traversal τ σ} {state : σ}
    (h : v.enter t s.state = pure (false, state)) :
    v.visit t s = pure (some .same, { s with state }) := by
  have henter : VisitM.onState (v.enter t) s = pure (false, { s with state }) := by
    rw [VisitM.onState, h, pure_bind]
  rw [visit_eq]
  exact bind_of_eq henter

/-- A node that is entered is answered by the visitor's own rule, under the cursor that stands on
it. -/
theorem visit_of_entered {v : Visitor τ σ m} {t : τ} {s r : Traversal τ σ} {state : σ}
    {answer : Option (Update τ)} (h : v.enter t s.state = pure (true, state))
    (hnode : v.node t (v.walk t) ⟨state, s.cursor.push t⟩ = pure (answer, r)) :
    v.visit t s = pure (answer, { r with cursor := r.cursor.pop }) := by
  have henter : VisitM.onState (v.enter t) s = pure (true, { s with state }) := by
    rw [VisitM.onState, h, pure_bind]
  have hpush : (VisitM.push t : VisitM τ σ m Unit) { s with state } =
      pure ((), ⟨state, s.cursor.push t⟩) := rfl
  have hpop : (VisitM.pop : VisitM τ σ m Unit) r = pure ((), { r with cursor := r.cursor.pop }) :=
    rfl
  rw [visit_eq]
  refine (bind_of_eq henter).trans ?_
  rw [if_pos rfl, bind_of_eq hpush, bind_of_eq hnode, bind_of_eq hpop]
  rfl

omit [LawfulMonad m] [Monad m] in
/-- The failure of that rule is the failure of the visit. -/
theorem visit_of_entered_error {ε : Type} {v : Visitor τ σ (Except ε)} {t : τ}
    {s : Traversal τ σ} {state : σ} {e : ε} (h : v.enter t s.state = pure (true, state))
    (hnode : v.node t (v.walk t) ⟨state, s.cursor.push t⟩ = .error e) :
    v.visit t s = .error e := by
  have henter : VisitM.onState (v.enter t) s = pure (true, { s with state }) := by
    rw [VisitM.onState, h, pure_bind]
  have hpush : (VisitM.push t : VisitM τ σ (Except ε) Unit) { s with state } =
      pure ((), ⟨state, s.cursor.push t⟩) := rfl
  rw [visit_eq]
  refine (bind_of_eq henter).trans ?_
  rw [if_pos rfl, bind_of_eq hpush, bind_of_error hnode]

/-- The walk over the children, given how each of them is answered and what its traversal makes
of the state. -/
theorem walk_of_answers {v : Visitor τ σ m} {t : τ} {a : τ → Option (Update τ)}
    {f : Traversal τ σ → τ → Traversal τ σ}
    (hchildren : ∀ c ∈ children t, ∀ s, v.visit c s = pure (a c, f s c)) (s : Traversal τ σ) :
    v.walk t s = pure (update t ((children t).map a), (children t).foldl f s) := by
  have hmap : ∀ cs ⊆ children t, ∀ s, cs.mapM v.visit s = pure (cs.map a, cs.foldl f s) := by
    intro cs hcs
    induction cs with
    | nil => exact fun _ => rfl
    | cons c cs ih =>
      intro s
      obtain ⟨hc, hcs⟩ := List.cons_subset.mp hcs
      rw [List.mapM_cons, List.map_cons, List.foldl_cons, bind_of_eq (hchildren c hc s),
        bind_of_eq (ih hcs (f s c))]
      rfl
  rw [walk, map_eq_pure_bind, bind_of_eq (hmap _ (List.Subset.refl _) s)]
  rfl

/-- The walk over children whose traversals leave the state as it is. -/
theorem walk_of_unmoved {v : Visitor τ σ m} {t : τ} {a : τ → Option (Update τ)}
    {s : Traversal τ σ} (hchildren : ∀ c ∈ children t, v.visit c s = pure (a c, s)) :
    v.walk t s = pure (update t ((children t).map a), s) := by
  have hmap : ∀ cs ⊆ children t, cs.mapM v.visit s = pure (cs.map a, s) := by
    intro cs hcs
    induction cs with
    | nil => rfl
    | cons c cs ih =>
      obtain ⟨hc, hcs⟩ := List.cons_subset.mp hcs
      rw [List.mapM_cons, bind_of_eq (hchildren c hc), bind_of_eq (ih hcs)]
      rfl
  rw [walk, map_eq_pure_bind, bind_of_eq (hmap _ (List.Subset.refl _))]
  rfl

omit [LawfulMonad m] [Monad m] in
/-- A walk that succeeds has as many answers as there are children. -/
theorem exists_answers_of_walk {ε : Type} {v : Visitor τ σ (Except ε)} {t : τ}
    {s s' : Traversal τ σ} {w : Update τ} (h : v.walk t s = .ok (w, s')) :
    ∃ answers, answers.length = (children t).length ∧ w = update t answers := by
  have hlength : ∀ (cs : List τ) (s : Traversal τ σ) answers s',
      cs.mapM v.visit s = .ok (answers, s') → answers.length = cs.length := by
    intro cs
    induction cs with
    | nil =>
      intro s answers s' h
      obtain ⟨rfl, -⟩ := Prod.mk.inj (Except.ok.inj h)
      rfl
    | cons c cs ih =>
      intro s answers s' h
      rw [List.mapM_cons] at h
      cases hvisit : v.visit c s with
      | error e =>
        rw [bind_of_error hvisit] at h
        cases h
      | ok first =>
        rw [bind_of_eq hvisit] at h
        cases hrest : cs.mapM v.visit first.2 with
        | error e =>
          rw [bind_of_error hrest] at h
          cases h
        | ok rest =>
          rw [bind_of_eq hrest] at h
          obtain ⟨rfl, -⟩ := Prod.mk.inj (Except.ok.inj h)
          exact congrArg (· + 1) (ih _ _ _ hrest)
  rw [walk, map_eq_pure_bind] at h
  cases hanswers : (children t).mapM v.visit s with
  | error e =>
    rw [bind_of_error hanswers] at h
    cases h
  | ok answers =>
    rw [bind_of_eq hanswers] at h
    obtain ⟨rfl, -⟩ := Prod.mk.inj (Except.ok.inj h)
    exact ⟨answers.1, hlength _ _ _ _ hanswers, rfl⟩

omit [LawfulMonad m] [Monad m] in
/-- A walk fails only for reasons for which the traversals of the children do. -/
theorem walk_failsOnly {ε : Type} {P : ε → Prop} {v : Visitor τ σ (Except ε)} {t : τ}
    (h : ∀ c ∈ children t, FailsOnly P (v.visit c)) : FailsOnly P (v.walk t) := by
  rw [walk, map_eq_pure_bind]
  exact (FailsOnly.mapM h).bind fun answers => .pure _

omit [LawfulMonad m] [Monad m] in
/-- **A traversal fails only for reasons for which a step at a node does.** -/
theorem visit_failsOnly {ε : Type} {P : ε → Prop} {v : Visitor τ σ (Except ε)}
    (henter : ∀ t, FailsOnly P (v.enter t))
    (hnode : ∀ t walk, FailsOnly P walk → FailsOnly P (v.node t walk)) (t : τ) :
    FailsOnly P (v.visit t) := by
  induction t using induction_on_children with
  | step t ih =>
    rw [visit_eq]
    refine (henter t).onState.bind fun entered => ?_
    cases entered with
    | false => exact .pure _
    | true =>
      exact (FailsOnly.modify _).bind fun _ => (hnode t _ (walk_failsOnly ih)).bind fun answer =>
        (FailsOnly.modify _).bind fun _ => .pure answer

variable {κ : Type} [Anatomy τ κ] [DecidableEq κ] [LawfulNode τ κ]

include κ

/-- The walk over children that all stay the same leaves the node the same. -/
theorem walk_same {v : Visitor τ σ m} {t : τ} {f : Traversal τ σ → τ → Traversal τ σ}
    (hchildren : ∀ c ∈ children t, ∀ s, v.visit c s = pure (some .same, f s c))
    (s : Traversal τ σ) : v.walk t s = pure (.same, (children t).foldl f s) := by
  rw [walk_of_answers hchildren, update_same]

/-- **Where nothing happens at any node, nothing happens.** -/
theorem visit_same {v : Visitor τ σ m} {t : τ} (henter : ∀ u ∈ nodes t, v.enter u = pure true)
    (hnode : ∀ u ∈ nodes t, v.node u (pure .same) = pure (some .same)) :
    v.visit t = pure (some .same) := by
  induction t using induction_on_children with
  | step t ih =>
    have hself := self_mem_nodes t
    have hchildren : ∀ c ∈ children t, ∀ s, v.visit c s = pure (some .same, s) := by
      intro c hc s
      have hsub := nodes_subset_of_mem_children hc
      rw [ih c hc (fun u hu => henter u (hsub hu)) fun u hu => hnode u (hsub hu)]
      rfl
    have hwalk : v.walk t = pure .same := by
      funext s
      rw [walk_same hchildren, List.foldl_fixed]
      rfl
    funext s
    have henter' : v.enter t s.state = pure (true, s.state) := by
      rw [henter t hself]
      rfl
    refine visit_of_entered henter' (r := ⟨s.state, s.cursor.push t⟩) ?_
    rw [hwalk, hnode t hself]
    rfl

end Visitor

end Lossless
