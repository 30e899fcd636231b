import Lossless.Proofs.Visitor.Visit

/-!
# Traversals that change nodes from the bottom up

Many visitors walk over the children of a node first, and then change the node that comes out
of the walk by themselves. What becomes of the tree is then a matter of this change alone
(`Lossless.changes`): seen as a tree, all nodes are changed, children before their parents
(`Lossless.bottomUp`), and it is the same tree if no node is changed. What becomes of the state
depends only on the nodes that are changed, as they are when their turn comes (`Lossless.turns`):
each stands over children that were changed before it. `Lossless.Visitor.visit_of_changes` says
so, and lets us forget that there was a traversal.

A change may also fail. If the nodes at which it fails are the only ones at which it would do
anything, the traversal fails as soon as it has come to one of them
(`Lossless.Visitor.visit_of_failures`).
-/

namespace Lossless

variable {τ : Type} [Node τ]

/-- The tree with all nodes changed, children before their parents. -/
def bottomUp (g : τ → τ) (t : τ) : τ :=
  g (rebuild t ((children t).attach.map fun ⟨c, _⟩ => bottomUp g c))
termination_by t

/-- What becomes of a tree all nodes of which are changed, children before their parents. -/
def changes (g : τ → Update τ) (t : τ) : Update τ :=
  let w := update t ((children t).attach.map fun ⟨c, _⟩ => some (changes g c))
  w.andThen (g (w.of t))
termination_by t

/-- The nodes of a tree when their turn comes to be changed, in this order. -/
def turns (g : τ → τ) (t : τ) : List τ :=
  ((children t).attach.flatMap fun ⟨c, _⟩ => turns g c) ++ [mapChildren (bottomUp g) t]
termination_by t

/-- A function applied from the bottom up: first to the children, then to the node over what has
become of them. -/
theorem bottomUp_eq (g : τ → τ) (t : τ) : bottomUp g t = g (mapChildren (bottomUp g) t) := by
  rw [bottomUp, List.map_subtype (g := bottomUp g) fun c _ => rfl, List.unattach_attach]
  rfl

/-- The same with answers: a node over children that have changed is a new node, and the function
may change it once more. -/
theorem changes_eq (g : τ → Update τ) (t : τ) :
    changes g t =
      (update t ((children t).map fun c => some (changes g c))).andThen
        (g ((update t ((children t).map fun c => some (changes g c))).of t)) := by
  rw [changes, List.map_subtype (g := fun c => some (changes g c)) fun c _ => rfl,
    List.unattach_attach]

/-- The nodes the function is applied to: those of each child, and then the node over what has
become of the children. -/
theorem turns_eq (g : τ → τ) (t : τ) :
    turns g t = (children t).flatMap (turns g) ++ [mapChildren (bottomUp g) t] := by
  rw [turns, List.flatMap_subtype (g := turns g) fun c _ => rfl, List.unattach_attach]

/-- Every node of a tree has one turn. -/
theorem mem_turns {g : τ → τ} {t u' : τ} :
    u' ∈ turns g t ↔ ∃ u ∈ nodes t, mapChildren (bottomUp g) u = u' := by
  induction t using induction_on_children with
  | step t ih =>
    rw [turns_eq, List.mem_append, List.mem_singleton, List.mem_flatMap]
    constructor
    · rintro (⟨c, hc, hu'⟩ | rfl)
      · obtain ⟨u, hu, rfl⟩ := (ih c hc).mp hu'
        exact ⟨u, nodes_subset_of_mem_children hc hu, rfl⟩
      · exact ⟨t, self_mem_nodes t, rfl⟩
    · rintro ⟨u, hu, rfl⟩
      rcases mem_nodes.mp hu with rfl | ⟨c, hc, hu⟩
      · exact .inr rfl
      · exact .inl ⟨c, hc, (ih c hc).mpr ⟨u, hu, rfl⟩⟩

section Lawful

variable {κ : Type} [Anatomy τ κ] [DecidableEq κ] [LawfulNode τ κ]

include κ

/-- **Changes lead to the changed tree.** -/
theorem of_changes (g : τ → Update τ) (t : τ) :
    (changes g t).of t = bottomUp (fun t => (g t).of t) t := by
  induction t using induction_on_children with
  | step t ih =>
    rw [bottomUp_eq, changes_eq, Update.of_andThen, of_update_map, mapChildren_congr ih]

/-- A node over changed children. -/
theorem of_update_changes (g : τ → Update τ) (t : τ) :
    (update t ((children t).map fun c => some (changes g c))).of t =
      mapChildren (bottomUp fun t => (g t).of t) t := by
  rw [of_update_map, mapChildren_congr fun c _ => of_changes g c]

/-- Where no node is changed, the tree stays the same. -/
theorem changes_eq_same {g : τ → Update τ} {t : τ} (h : ∀ u ∈ nodes t, g u = .same) :
    changes g t = .same := by
  induction t using induction_on_children with
  | step t ih =>
    have hchildren : (children t).map (fun c => some (changes g c)) =
        (children t).map fun _ => some .same :=
      List.map_congr_left fun c hc =>
        congrArg some (ih c hc fun u hu => h u (nodes_subset_of_mem_children hc hu))
    rw [changes_eq, hchildren, update_same, Update.of_same, h t (self_mem_nodes t)]
    rfl

namespace Visitor

variable {m : Type → Type} [Monad m] [LawfulMonad m] {σ : Type}

/-- **A traversal that changes every node by itself** changes the tree from the bottom up, and
the state node by node. -/
theorem visit_of_changes {v : Visitor τ σ m} {g : τ → Update τ} {h : σ → τ → σ}
    (henter : ∀ t, v.enter t = pure true)
    (hnode : ∀ t walk s w s', walk s = pure (w, s') → v.node t walk s =
      pure (some (w.andThen (g (w.of t))), { s' with state := h s'.state (w.of t) }))
    (t : τ) (s : Traversal τ σ) :
    v.visit t s = pure (some (changes g t),
      { s with state := (turns (fun t => (g t).of t) t).foldl h s.state }) := by
  induction t using induction_on_children generalizing s with
  | step t ih =>
    have hfold : ∀ (cs : List τ) (s : Traversal τ σ),
        cs.foldl (fun s c =>
            { s with state := (turns (fun t => (g t).of t) c).foldl h s.state }) s =
          { s with
            state := (cs.flatMap (turns fun t => (g t).of t)).foldl h s.state } := by
      intro cs
      induction cs with
      | nil => exact fun _ => rfl
      | cons c cs ih =>
        intro s
        rw [List.foldl_cons, ih, List.flatMap_cons, List.foldl_append]
    have hwalk := walk_of_answers ih ⟨s.state, s.cursor.push t⟩
    have hchanged := hnode t (v.walk t) _ _ _ hwalk
    rw [hfold, of_update_changes] at hchanged
    rw [changes_eq, turns_eq, List.foldl_append, of_update_changes]
    have henter' : v.enter t s.state = pure (true, s.state) := by
      rw [henter]
      rfl
    exact visit_of_entered henter' hchanged

section Failures

variable {ε : Type} {v : Visitor τ σ (Except ε)} {failure? : τ → Option ε}

/-- A traversal does nothing, and the tree gives no reason to fail, or it fails for a reason that
the tree gives. -/
def FailsOrNot (v : Visitor τ σ (Except ε)) (failure? : τ → Option ε) (t : τ) (s : Traversal τ σ) :
    Prop :=
  (∀ u ∈ nodes t, failure? u = none) ∧ v.visit t s = .ok (some .same, s) ∨
    ∃ u ∈ nodes t, ∃ e, failure? u = some e ∧ v.visit t s = .error e

omit κ [Anatomy τ κ] [DecidableEq κ] [LawfulNode τ κ] in
/-- The traversals of some children, one after the other, do nothing, or the first that fails is
the last. -/
theorem mapM_of_failures {cs : List τ} {s : Traversal τ σ}
    (h : ∀ c ∈ cs, FailsOrNot v failure? c s) :
    (∀ c ∈ cs, ∀ u ∈ nodes c, failure? u = none) ∧
        cs.mapM v.visit s = .ok (cs.map fun _ => some .same, s) ∨
      ∃ c ∈ cs, ∃ u ∈ nodes c, ∃ e, failure? u = some e ∧ cs.mapM v.visit s = .error e := by
  induction cs with
  | nil => exact .inl ⟨nofun, rfl⟩
  | cons c cs ih =>
    rw [List.forall_mem_cons] at h
    rw [List.mapM_cons]
    rcases h.1 with ⟨hnone, hvisit⟩ | ⟨u, hu, e, he, hvisit⟩
    · rw [bind_of_eq hvisit]
      rcases ih h.2 with ⟨hnones, hvisits⟩ | ⟨d, hd, u, hu, e, he, hvisits⟩
      · rw [bind_of_eq hvisits]
        exact .inl ⟨List.forall_mem_cons.mpr ⟨hnone, hnones⟩, rfl⟩
      · rw [bind_of_error hvisits]
        exact .inr ⟨d, List.mem_cons_of_mem c hd, u, hu, e, he, rfl⟩
    · rw [bind_of_error hvisit]
      exact .inr ⟨c, List.mem_cons_self, u, hu, e, he, rfl⟩

/-- **A traversal that fails at some nodes, and does nothing at the others**, fails if there is
such a node, and otherwise does nothing. -/
theorem visit_of_failures (henter : ∀ t, v.enter t = pure true)
    (hfailed : ∀ t walk s e, walk s = .error e → v.node t walk s = .error e) {t : τ}
    (hsame : ∀ u ∈ nodes t, failure? u = none → ∀ walk s s', walk s = .ok (.same, s') →
      v.node u walk s = .ok (some .same, s'))
    (hfails : ∀ u ∈ nodes t, ∀ e, failure? u = some e → ∀ walk s s', walk s = .ok (.same, s') →
      v.node u walk s = .error e) (s : Traversal τ σ) : FailsOrNot v failure? t s := by
  induction t using induction_on_children generalizing s with
  | step t ih =>
    have hchildren := mapM_of_failures (s := ⟨s.state, s.cursor.push t⟩) fun c hc =>
      have hsub := nodes_subset_of_mem_children hc
      ih c hc (fun u hu => hsame u (hsub hu)) (fun u hu => hfails u (hsub hu)) _
    have henter' : v.enter t s.state = pure (true, s.state) := by
      rw [henter]
      rfl
    have hself := self_mem_nodes t
    rcases hchildren with ⟨hnone, hmap⟩ | ⟨c, hc, u, hu, e, he, hmap⟩
    · have hwalk : v.walk t ⟨s.state, s.cursor.push t⟩ =
          .ok (.same, ⟨s.state, s.cursor.push t⟩) := by
        rw [walk, map_eq_pure_bind, bind_of_eq hmap, update_same]
        rfl
      cases ht : failure? t with
      | none =>
        have hnode := hsame t hself ht _ _ _ hwalk
        refine .inl ⟨fun u hu => ?_, visit_of_entered henter' hnode⟩
        rcases mem_nodes.mp hu with rfl | ⟨c, hc, hu⟩
        · exact ht
        · exact hnone c hc u hu
      | some e =>
        have hnode := hfails t hself e ht _ _ _ hwalk
        exact .inr ⟨t, hself, e, ht, visit_of_entered_error henter' hnode⟩
    · have hwalk : v.walk t ⟨s.state, s.cursor.push t⟩ = .error e := map_of_error hmap
      exact .inr ⟨u, nodes_subset_of_mem_children hc hu, e, he,
        visit_of_entered_error henter' (hfailed t _ _ e hwalk)⟩

end Failures

end Visitor

end Lawful

end Lossless
