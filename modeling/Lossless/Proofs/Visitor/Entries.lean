import Lossless.Proofs.Tree.Positions
import Lossless.Proofs.Visitor.InStep
import Lossless.Java.Visitor

/-!
# The nodes that a traversal enters

A visitor may do at a node what it likes, with the walk over the children in its hands. If it
runs this walk exactly once (`Lossless.Visitor.Descends`), a traversal is complete: it comes to
every node of the tree, in the order of `Lossless.positions`, unless it was refused a node
above, and at every node that it enters the path of the cursor is the lineage of the node in the
tree that is traversed (`Lossless.Visitor.Descends.visit_recorded`).

What a traversal does on its way is seen by recording it: `Lossless.Visitor.Descends.recorded` is
the same visitor with a list of events beside its state, which it adds to and does not look at.
-/

namespace Lossless

/-- What happens to a node when a traversal comes to it. -/
inductive Event (τ : Type) where
  /-- The visitor does not agree to enter it. -/
  | refused (t : τ)
  /-- It is entered, and this is the path of the cursor. -/
  | entered (path : List τ)

variable {τ σ α β : Type}

/-- A state with something beside it, and the state itself. -/
def SameState {ε : Type} (s : σ × ε) (r : σ) : Prop := s.1 = r

namespace VisitM

/-- When a step is done, the path of the cursor is again what it was. -/
def KeepsPath (x : VisitM τ σ Id α) : Prop := ∀ s, (x s).2.cursor.path = s.cursor.path

/-- A step with something beside its state. -/
def beside {ε : Type} (x : VisitM τ σ Id α) : VisitM τ (σ × ε) Id α := fun s =>
  let (a, r) := x ⟨s.state.1, s.cursor⟩
  (a, ⟨(r.state, s.state.2), r.cursor⟩)

/-- An action that stands beside a record runs in step with itself. -/
theorem inStep_beside {ε : Type} (x : VisitM τ σ Id α) :
    InStep (Standing SameState) (x.beside : VisitM τ (σ × ε) Id α) x := by
  refine inStep_id_iff.mpr ?_
  rintro s r ⟨hstate, hcursor⟩
  have hsame : (⟨s.state.1, s.cursor⟩ : Traversal τ σ) = r := by
    rw [hstate, hcursor]
  rw [beside, hsame]
  exact ⟨rfl, rfl, rfl⟩

/-- Notes down that a node is entered. -/
def noteEntry : VisitM τ (σ × List (Event τ)) Id Unit :=
  modify fun s => { s with state := (s.state.1, s.state.2 ++ [.entered s.cursor.path]) }

end VisitM

/-! ### What there is to record -/

variable [Node τ]

/-- Is no node above this position refused? -/
def reached (refused : Position → Bool) (p : Position) : Bool :=
  p.inits.all fun q => q == p || !refused q

/-- What happens to the node at a position, if the traversal starts below the nodes of
`path`. -/
def eventAt? (refused : Position → Bool) (path : List τ) (t : τ) (p : Position) :
    Option (Event τ) :=
  (at? t p).map fun u => if refused p then .refused u else .entered (lineage t p ++ path)

/-- What happens in a traversal to which exactly these positions are refused: every node that it
can reach is entered or refused, in the order of the positions. -/
def events (refused : Position → Bool) (path : List τ) (t : τ) : List (Event τ) :=
  ((positions t).filter (reached refused)).filterMap (eventAt? refused path t)

/-- A position below a child is reached if the node is not refused and the rest of the way is
reached. -/
theorem reached_cons (refused : Position → Bool) (i : Nat) (p : Position) :
    reached refused (i :: p) = (!refused [] && reached (fun q => refused (i :: q)) p) := by
  rw [reached, List.inits_cons, List.all_cons, List.all_map, reached]
  congr 1
  simp [Function.comp_def]

/-- A refused node is the only event. -/
theorem events_of_refused {refused : Position → Bool} (path : List τ) (t : τ)
    (h : refused [] = true) : events refused path t = [.refused t] := by
  have hbelow : ((children t).zipIdx.flatMap fun x => (positions x.1).map (x.2 :: ·)).filter
      (reached refused) = [] := by
    refine List.filter_eq_nil_iff.mpr fun p hp => ?_
    obtain ⟨x, -, hp⟩ := List.mem_flatMap.mp hp
    obtain ⟨q, -, rfl⟩ := List.mem_map.mp hp
    simp [reached_cons, h]
  rw [events, positions_eq, List.filter_cons_of_pos (by rfl), hbelow]
  simp [eventAt?, at?, h]

/-- A node that is entered comes first, and then the events of its children. -/
theorem events_of_entered {refused : Position → Bool} (path : List τ) (t : τ)
    (h : refused [] = false) :
    events refused path t = .entered (t :: path) :: (children t).zipIdx.flatMap fun x =>
      events (fun p => refused (x.2 :: p)) (t :: path) x.1 := by
  have hself : eventAt? refused path t [] = some (.entered (t :: path)) := by
    simp [eventAt?, at?, lineage, h]
  rw [events, positions_eq, List.filter_cons_of_pos (by rfl), List.filterMap_cons_some hself,
    List.filter_flatMap, List.filterMap_flatMap]
  refine congrArg _ (List.flatMap_congr ?_)
  rintro ⟨c, i⟩ hc
  have hc := List.mem_zipIdx_iff_getElem?.mp hc
  rw [List.filter_map, List.filterMap_map, events]
  have hreached : reached refused ∘ (i :: ·) = reached fun p => refused (i :: p) := by
    funext p
    rw [Function.comp_apply, reached_cons, h]
    rfl
  rw [hreached]
  refine List.filterMap_congr fun p _ => ?_
  rw [Function.comp_apply, eventAt?, eventAt?, at?_cons hc, lineage, hc]
  simp only [Option.elim_some, List.append_assoc, List.singleton_append]

namespace Visitor

/-- Of the nodes that can be reached, the visitor refuses those at these positions and agrees to
enter the others: there is a state in which it says so. -/
def Decides (v : Visitor τ σ) (refused : Position → Bool) (t : τ) : Prop :=
  ∀ p u, at? t p = some u → reached refused p = true → ∃ s, (v.enter u s).1 = !refused p

/-- A visitor that says no at a node decides as a function that refuses it. -/
theorem Decides.of_refused {v : Visitor τ σ} {refused : Position → Bool} {t : τ} {s : σ}
    (hs : (v.enter t s).1 = false) (h : refused [] = true) : v.Decides refused t := by
  intro p u hu hreached
  cases p with
  | nil =>
    obtain rfl := Option.some.inj hu
    exact ⟨s, by rw [hs, h]; rfl⟩
  | cons i p => simp [reached_cons, h] at hreached

/-- A visitor that says yes at a node decides as a function that does not refuse it and that it
follows below each child. -/
theorem Decides.of_entered {v : Visitor τ σ} {refused : Position → Bool} {t : τ} {s : σ}
    (hs : (v.enter t s).1 = true) (h : refused [] = false)
    (hchildren : ∀ x ∈ (children t).zipIdx, v.Decides (fun p => refused (x.2 :: p)) x.1) :
    v.Decides refused t := by
  intro p u hu hreached
  cases p with
  | nil =>
    obtain rfl := Option.some.inj hu
    exact ⟨s, by rw [hs, h]; rfl⟩
  | cons i p =>
    obtain ⟨c, hc, hu⟩ := Option.bind_eq_some_iff.mp hu
    rw [reached_cons, h, Bool.not_false, Bool.true_and] at hreached
    exact hchildren (c, i) (List.mem_zipIdx_iff_getElem?.mpr hc) p u hu hreached

/-! ### Visitors that descend -/

/-- A visitor that runs the walk over the children exactly once at every node that it enters,
between two steps of its own. A node without children need not be asked for its walk, which
does nothing. -/
structure Descends (v : Visitor τ σ) where
  /-- What the visitor keeps in mind during the walk. -/
  Kept : Type
  /-- What it does before the walk. -/
  before : τ → VisitM τ σ Id Kept
  /-- What it does with what comes out of the walk. -/
  after : τ → Kept → Update τ → VisitM τ σ Id (Option (Update τ))
  /-- It leaves no node on the cursor and takes none away. -/
  keepsPath_before : ∀ t, (before t).KeepsPath
  keepsPath_after : ∀ t k w, (after t k w).KeepsPath
  /-- There is nothing else that it does. -/
  node_eq : ∀ t walk, (children t = [] → walk = pure (update t [])) →
    v.node t walk = do
      let k ← before t
      let w ← walk
      after t k w

/-- The walk over a node without children asks nothing. -/
theorem walk_of_children_eq_nil {v : Visitor τ σ} {t : τ} (h : children t = []) :
    v.walk t = pure (update t []) := by
  rw [walk, h]
  rfl

namespace Descends

variable {v : Visitor τ σ} (d : v.Descends)

/-- The visitor together with a record of its events. -/
def recorded : Visitor τ (σ × List (Event τ)) where
  enter t := fun s =>
    let (entered, state) := v.enter t s.1
    (entered, (state, if entered then s.2 else s.2 ++ [.refused t]))
  node t walk := do
    VisitM.noteEntry
    let k ← (d.before t).beside
    let w ← walk
    (d.after t k w).beside

/-- **Recording changes nothing.** -/
theorem inStep_recorded (t : τ) :
    Lossless.InStep (Standing SameState) (d.recorded.visit t) (v.visit t) := by
  induction t using induction_on_children with
  | step t ih =>
    have henter : Lossless.InStep SameState (d.recorded.enter t) (v.enter t) := by
      refine inStep_id_iff.mpr ?_
      rintro s r rfl
      exact ⟨rfl, rfl⟩
    rw [visit_eq, visit_eq]
    refine henter.onState.bind fun entered => ?_
    cases entered with
    | false => exact .pure (some Update.same)
    | true =>
      have hnote : Lossless.InStep (Standing SameState)
          (VisitM.noteEntry : VisitM τ (σ × List (Event τ)) Id Unit)
          (pure () : VisitM τ σ Id Unit) :=
        inStep_id_iff.mpr fun s r h => ⟨rfl, h⟩
      have hwalk : Lossless.InStep (Standing SameState) (d.recorded.walk t) (v.walk t) :=
        (Lossless.InStep.mapM ih).map (update t)
      refine (inStep_push t).bind fun _ => (?_ : Lossless.InStep _ _ _).bind fun answer =>
        inStep_pop.bind fun _ => .pure answer
      rw [d.node_eq t _ walk_of_children_eq_nil]
      have hnode := hnote.bind fun _ => (VisitM.inStep_beside (d.before t)).bind fun k =>
        hwalk.bind fun w => VisitM.inStep_beside (d.after t k w)
      exact hnode

/-! ### What is recorded -/

/-- A step adds such events, given the path of the cursor, and keeps the path. -/
def Adds (x : VisitM τ (σ × List (Event τ)) Id α) (P : List τ → List (Event τ) → Prop) : Prop :=
  ∀ s, ∃ es, P s.cursor.path es ∧ (x s).2.state.2 = s.state.2 ++ es ∧
    (x s).2.cursor.path = s.cursor.path

omit [Node τ] in
/-- Events are added in the order of the steps. -/
theorem Adds.bind {x : VisitM τ (σ × List (Event τ)) Id α}
    {f : α → VisitM τ (σ × List (Event τ)) Id β}
    {P Q R : List τ → List (Event τ) → Prop} (hx : Adds x P) (hf : ∀ a, Adds (f a) Q)
    (hR : ∀ path es es', P path es → Q path es' → R path (es ++ es')) : Adds (x >>= f) R := by
  intro s
  obtain ⟨es, hP, hlog, hpath⟩ := hx s
  obtain ⟨es', hQ, hlog', hpath'⟩ := hf (x s).1 (x s).2
  rw [hpath] at hQ hpath'
  rw [hlog, List.append_assoc] at hlog'
  exact ⟨es ++ es', hR _ _ _ hP hQ, hlog', hpath'⟩

/-- A step keeps the record and the path. -/
def AddsNothing (x : VisitM τ (σ × List (Event τ)) Id α) : Prop := Adds x fun _ es => es = []

omit [Node τ] in
theorem addsNothing_beside {x : VisitM τ σ Id α} (hx : x.KeepsPath) : AddsNothing x.beside :=
  fun s => ⟨[], rfl, (List.append_nil _).symm, hx ⟨s.state.1, s.cursor⟩⟩

omit [Node τ] in
theorem addsNothing_pure (a : α) : AddsNothing (pure a : VisitM τ (σ × List (Event τ)) Id α) :=
  fun _ => ⟨[], rfl, (List.append_nil _).symm, rfl⟩

omit [Node τ] in
/-- A first step that adds nothing leaves the events to the second. -/
theorem AddsNothing.bind {x : VisitM τ (σ × List (Event τ)) Id α}
    {f : α → VisitM τ (σ × List (Event τ)) Id β} {P : List τ → List (Event τ) → Prop}
    (hx : AddsNothing x) (hf : ∀ a, Adds (f a) P) : Adds (x >>= f) P := by
  refine Adds.bind hx hf ?_
  rintro path es es' rfl hP
  exact hP

omit [Node τ] in
/-- A second step that adds nothing leaves the events of the first. -/
theorem Adds.bind_nothing {x : VisitM τ (σ × List (Event τ)) Id α}
    {f : α → VisitM τ (σ × List (Event τ)) Id β} {P : List τ → List (Event τ) → Prop}
    (hx : Adds x P) (hf : ∀ a, AddsNothing (f a)) : Adds (x >>= f) P := by
  refine hx.bind hf ?_
  rintro path es es' hP rfl
  rwa [List.append_nil]

omit [Node τ] in
/-- Noting an entry adds this one event. -/
theorem adds_noteEntry :
    Adds (VisitM.noteEntry : VisitM τ (σ × List (Event τ)) Id Unit) fun path es =>
      es = [.entered path] :=
  fun s => ⟨[.entered s.cursor.path], rfl, rfl, rfl⟩

/-- The events of a traversal of `t` below the nodes of `path`. -/
def EventsOf (v : Visitor τ σ) (t : τ) (path : List τ) (es : List (Event τ)) : Prop :=
  ∃ refused, es = events refused path t ∧ v.Decides refused t

/-- The events of traversals of several trees, one after the other. -/
def EventsOfAll (v : Visitor τ σ) (ts : List (τ × Nat)) (path : List τ) (es : List (Event τ)) :
    Prop :=
  ∃ refused : Nat → Position → Bool, es = ts.flatMap (fun x => events (refused x.2) path x.1) ∧
    ∀ x ∈ ts, v.Decides (refused x.2) x.1

/-- Visiting the nodes of a list adds the events of each, in the order of the list. -/
theorem adds_mapM {w : Visitor τ (σ × List (Event τ))} {cs : List τ}
    (h : ∀ c ∈ cs, Adds (w.visit c) (EventsOf v c)) (n : Nat) :
    Adds (cs.mapM w.visit) (EventsOfAll v (cs.zipIdx n)) := by
  induction cs generalizing n with
  | nil =>
    -- no trees have no events, whatever is refused
    have hnone : EventsOfAll v [] = fun _ es => es = [] := by
      funext path es
      simp [EventsOfAll]
    rw [List.zipIdx_nil, hnone]
    exact addsNothing_pure []
  | cons c cs ih =>
    obtain ⟨hc, hcs⟩ := List.forall_mem_cons.mp h
    rw [List.mapM_cons]
    refine hc.bind (fun a => (ih hcs (n + 1)).bind_nothing fun as => addsNothing_pure (a :: as)) ?_
    rintro path es es' ⟨refused, rfl, hrefused⟩ ⟨later, rfl, hlater⟩
    -- what is refused below this child, and what below the later ones
    have hupdate : ∀ x ∈ cs.zipIdx (n + 1), Function.update later n refused x.2 = later x.2 := by
      intro x hx
      have hle := List.le_snd_of_mem_zipIdx hx
      exact Function.update_of_ne (by omega) _ _
    refine ⟨Function.update later n refused, ?_, ?_⟩
    · rw [List.zipIdx_cons, List.flatMap_cons, Function.update_self]
      exact congrArg _ (List.flatMap_congr fun x hx => by rw [hupdate x hx])
    · rw [List.zipIdx_cons, List.forall_mem_cons, Function.update_self]
      exact ⟨hrefused, fun x hx => by rw [hupdate x hx]; exact hlater x hx⟩

/-- A node, once it is entered. -/
theorem adds_node {t : τ} (h : ∀ c ∈ children t, Adds (d.recorded.visit c) (EventsOf v c)) :
    Adds (d.recorded.node t (d.recorded.walk t)) fun path es =>
      ∃ es', es = .entered path :: es' ∧ EventsOfAll v (children t).zipIdx path es' := by
  have hwalk := (adds_mapM h 0).bind_nothing fun as => addsNothing_pure (update t as)
  have hrest := (addsNothing_beside (d.keepsPath_before t)).bind fun k =>
    hwalk.bind_nothing fun w => addsNothing_beside (d.keepsPath_after t k w)
  refine adds_noteEntry.bind (fun _ => hrest) ?_
  rintro path es es' rfl hes'
  exact ⟨es', rfl, hes'⟩

/-- **What a recorded traversal adds to the record.** -/
theorem adds_visit_recorded (t : τ) : Adds (d.recorded.visit t) (EventsOf v t) := by
  induction t using induction_on_children with
  | step t ih =>
    intro s
    rcases henter : v.enter t s.state.1 with ⟨entered, state⟩
    cases entered with
    | false =>
      have hrefused : d.recorded.enter t s.state = (false, (state, s.state.2 ++ [.refused t])) := by
        simp only [recorded, henter]
        rfl
      have hvisit : d.recorded.visit t s =
          (some .same, { s with state := (state, s.state.2 ++ [.refused t]) }) :=
        visit_of_refused hrefused
      rw [hvisit]
      -- nothing below is reached, so it does not matter what is refused there
      refine ⟨_, ⟨fun _ => true, (events_of_refused _ t rfl).symm, ?_⟩, rfl, rfl⟩
      exact .of_refused (congrArg Prod.fst henter) rfl
    | true =>
      have hentered : d.recorded.enter t s.state = (true, (state, s.state.2)) := by
        simp only [recorded, henter]
        rfl
      obtain ⟨es, ⟨es', rfl, refused, rfl, hdecides⟩, hlog, hpath⟩ :=
        d.adds_node ih ⟨(state, s.state.2), s.cursor.push t⟩
      rcases hnode : d.recorded.node t (d.recorded.walk t) ⟨(state, s.state.2), s.cursor.push t⟩
        with ⟨answer, r⟩
      have hvisit : d.recorded.visit t s = (answer, { r with cursor := r.cursor.pop }) :=
        visit_of_entered hentered hnode
      rw [hnode] at hlog hpath
      rw [hvisit]
      refine ⟨_, ⟨fun
        | [] => false
        | i :: p => refused i p, (events_of_entered _ t rfl).symm, ?_⟩, hlog, ?_⟩
      · exact .of_entered (congrArg Prod.fst henter) rfl hdecides
      · rw [Cursor.path, Cursor.pop, List.map_tail]
        exact congrArg List.tail hpath

/-- **A traversal comes to every node that it is not kept from**, and has the lineage of each
node that it enters at hand. It leaves the cursor where it was. -/
theorem visit_recorded (t : τ) (s : σ) (c : Cursor τ) :
    (∃ refused, (d.recorded.visit t ⟨(s, []), c⟩).2.state.2 = events refused c.path t ∧
        v.Decides refused t) ∧
      (d.recorded.visit t ⟨(s, []), c⟩).1 = (v.visit t ⟨s, c⟩).1 ∧
      (d.recorded.visit t ⟨(s, []), c⟩).2.state.1 = (v.visit t ⟨s, c⟩).2.state ∧
      (d.recorded.visit t ⟨(s, []), c⟩).2.cursor = (v.visit t ⟨s, c⟩).2.cursor ∧
      (v.visit t ⟨s, c⟩).2.cursor.path = c.path := by
  obtain ⟨es, ⟨refused, rfl, hdecides⟩, hlog, hpath⟩ := d.adds_visit_recorded t ⟨(s, []), c⟩
  obtain ⟨hanswer, hstate, hcursor⟩ :=
    inStep_id_iff.mp (d.inStep_recorded t) ⟨(s, []), c⟩ ⟨s, c⟩ ⟨rfl, rfl⟩
  rw [hcursor] at hpath
  exact ⟨⟨refused, hlog, hdecides⟩, hanswer, hstate, hcursor, hpath⟩

end Descends

end Visitor

/-- Positions are in the order in which a tree is traversed and printed. -/
theorem pairwise_positions_printed (t : τ) :
    (positions t).Pairwise fun p q => p < q ∧ (p <+: q ∨ stop t p ≤ start t q) :=
  (pairwise_positions t).imp_of_mem fun hp hq hlt => ⟨hlt, prefix_or_stop_le_start hp hq hlt⟩

namespace Java.Visitor

/-- A node is refused if the visitor says so before it is entered. -/
theorem enter_fst (v : Visitor σ) (t : Tree) (s : σ) :
    (v.toVisitor.enter t s).1 = (v.preVisit t s).1 := by
  have henter : v.toVisitor.enter t s = (do
      if ← v.preVisit t then
        (attributedTypes t).forM v.visitType
        return true
      else
        return false) s := rfl
  rcases hpre : v.preVisit t s with ⟨agreed, state⟩
  rw [henter, bind_of_eq hpre]
  cases agreed <;> rfl

/-- **A traversal of a Java tree is complete.** There is one position for each node, and they
are listed parents first and otherwise in the order of the text. In this order a traversal comes
to all positions that are not below a refused one, refuses a node when the visitor does, and
has the lineage of every node that it enters on the cursor, which it leaves as it was. That is
what a record says which does not change what is done. -/
theorem visit_complete (v : Visitor σ) (d : v.toVisitor.Descends) (t : Tree) (s : σ)
    (c : Cursor Tree) :
    (positions t).filterMap (at? t) = nodes t ∧
      (positions t).Pairwise (fun p q => p < q ∧ (p <+: q ∨ stop t p ≤ start t q)) ∧
      (∃ refused, (d.recorded.visit t ⟨(s, []), c⟩).2.state.2 = events refused c.path t ∧
        ∀ p u, at? t p = some u → reached refused p = true →
          ∃ r, (v.preVisit u r).1 = !refused p) ∧
      (d.recorded.visit t ⟨(s, []), c⟩).1 = (v.toVisitor.visit t ⟨s, c⟩).1 ∧
      (d.recorded.visit t ⟨(s, []), c⟩).2.state.1 = (v.toVisitor.visit t ⟨s, c⟩).2.state ∧
      (d.recorded.visit t ⟨(s, []), c⟩).2.cursor = (v.toVisitor.visit t ⟨s, c⟩).2.cursor ∧
      (v.toVisitor.visit t ⟨s, c⟩).2.cursor.path = c.path := by
  obtain ⟨⟨refused, hlog, hdecides⟩, hsame⟩ := d.visit_recorded t s c
  refine ⟨filterMap_at?_positions t, pairwise_positions_printed t, ⟨refused, hlog, ?_⟩, hsame⟩
  intro p u hu hreached
  obtain ⟨r, hr⟩ := hdecides p u hu hreached
  exact ⟨r, (v.enter_fst u r).symm.trans hr⟩

/-- Does not enter blocks, counts the other nodes and removes the text in front of them. -/
def outsideBlocks : Visitor Nat where
  preVisit t := return t.kind != .block
  node t walk := do
    VisitM.onState (modify (· + 1))
    let w ← walk
    return some (w.andThen (.new ((w.of t).withLead .empty)))

/-- It runs the walk once at every node. -/
def outsideBlocks_descends : outsideBlocks.toVisitor.Descends where
  Kept := Unit
  before _ := VisitM.onState (modify (· + 1))
  after t _ w := return some (w.andThen (.new ((w.of t).withLead .empty)))
  keepsPath_before _ _ := rfl
  keepsPath_after _ _ _ _ := rfl
  node_eq _ _ _ := rfl

/-- A method with a body, into which this visitor does not go. -/
def methodWithBody : Tree :=
  .methodDeclaration { name := { simpleName := "m" }, body := some {} }

theorem visit_complete_outsideBlocks :
    (outsideBlocks_descends.recorded.visit methodWithBody ⟨(0, []), .empty⟩).2.state.2 =
      [.entered [methodWithBody],
        .entered [.identifier { simpleName := "m" }, methodWithBody], .refused (.block {})] := by
  obtain ⟨-, -, ⟨refused, hlog, hdecides⟩, -⟩ :=
    visit_complete outsideBlocks outsideBlocks_descends methodWithBody 0 .empty
  have hroot : refused [] = false := by
    obtain ⟨_, h⟩ := hdecides [] methodWithBody rfl rfl
    exact (Bool.not_eq_true' _).mp h.symm
  have hname : refused [0] = false := by
    obtain ⟨_, h⟩ := hdecides [0] _ rfl (by simp [reached, hroot])
    exact (Bool.not_eq_true' _).mp h.symm
  have hbody : refused [1] = true := by
    obtain ⟨_, h⟩ := hdecides [1] _ rfl (by simp [reached, hroot])
    exact (Bool.not_eq_false' _).mp h.symm
  have hchildren : children methodWithBody =
      [.identifier { simpleName := "m" }, .block {}] := rfl
  rw [hlog, events_of_entered _ _ hroot, hchildren]
  simp only [List.zipIdx_cons, List.zipIdx_nil, List.flatMap_cons, List.flatMap_nil]
  rw [events_of_entered _ _ hname, events_of_refused _ _ hbody]
  rfl

end Java.Visitor

end Lossless
