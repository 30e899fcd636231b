import Lossless.Proofs.Visitor.Entries
import Lossless.Proofs.Visitor.Walk

/-!
# Visitors that keep kinds

A visitor that keeps the kinds of nodes has a traversal of its own
(`Lossless.Java.IsoVisitor.visit`): no node can be deleted, so there is always an answer, and the
answer for a node is of the kind of the node. If at every node another visitor does the same, given
the same walk over the children (`Lossless.Java.IsoVisitor.Follows`), then the two make the same
traversals (`Lossless.Java.IsoVisitor.Follows.visit_eq`). For one, the traversal is what
`Lossless.Java.IsoVisitor.toVisitor` makes of the visitor.

Most visitors walk over the children of a node and answer with what a rule makes of the outcome. The
same rules (`Lossless.Java.Rules`) can be given to a visitor of either sort. If no rule deletes a
node or changes its kind, nothing tells the two visitors apart
(`Lossless.Java.Rules.visit_isomorphic`): neither the answer nor the state, the cursor or what
was called on the way. The calls are seen by having the rules note them down
(`Lossless.Java.Rules.traced`).
-/

namespace Lossless.Java

variable {σ : Type}

/-! ### Nodes of the kind of another -/

namespace SameKind

variable {t : Tree}

/-- What keeps the kind is found to keep it. -/
theorem ofUpdate?_map_val (w : Update (SameKind t)) : ofUpdate? t (w.map Subtype.val) = some w := by
  cases w with
  | same => rfl
  | new u => exact congrArg (Option.map Update.new) (dif_pos u.property)

theorem ofUpdate_map_val (w : Update (SameKind t)) : ofUpdate t (w.map Subtype.val) = w := by
  rw [ofUpdate, ofUpdate?_map_val, Option.getD]

/-- Whatever leads to a node of the kind of `t` keeps the kind. -/
theorem exists_map_val {w : Update Tree} (h : (w.of t).kind = t.kind) :
    ∃ w' : Update (SameKind t), w'.map Subtype.val = w := by
  cases w with
  | same => exact ⟨.same, rfl⟩
  | new u => exact ⟨.new ⟨u, h⟩, rfl⟩

/-- A node with other children is of the kind that it was. -/
theorem map_val_ofUpdate_update {answers : List (Option (Update Tree))}
    (h : answers.length = (children t).length) :
    (ofUpdate t (update t answers)).map Subtype.val = update t answers := by
  obtain ⟨w, hw⟩ := exists_map_val (settled_update t answers h).kind_eq
  rw [← hw, ofUpdate_map_val]

end SameKind

/-! ### The traversal -/

namespace IsoVisitor

/-- The answer for a child. -/
def kept {t : Tree} (w : Update (SameKind t)) : Option (Update Tree) := some (w.map Subtype.val)

/-- The traversal of a tree by a visitor that keeps kinds: the tree that comes out is of the kind of
the one that went in. -/
def visit (v : IsoVisitor σ) (t : Tree) : VisitM Tree σ Id (Update (SameKind t)) := do
  if ← VisitM.onState (v.preVisit t) then
    VisitM.onState ((attributedTypes t).forM v.visitType)
    VisitM.push t
    let w ← v.node t <|
      (SameKind.ofUpdate t <| update t ·) <$> (children t).attach.mapM fun ⟨c, _⟩ =>
        kept <$> v.visit c
    VisitM.pop
    return w
  else
    return .same
termination_by t

/-- The walk over the children of a node, as the visitor is handed it. -/
def walk (v : IsoVisitor σ) (t : Tree) : VisitM Tree σ Id (Update (SameKind t)) :=
  (SameKind.ofUpdate t <| update t ·) <$> (children t).mapM fun c => kept <$> v.visit c

/-- One visit of the kind-keeping visitor, step by step. -/
theorem visit_eq (v : IsoVisitor σ) (t : Tree) :
    v.visit t = do
      if ← VisitM.onState (v.preVisit t) then
        VisitM.onState ((attributedTypes t).forM v.visitType)
        VisitM.push t
        let w ← v.node t (v.walk t)
        VisitM.pop
        return w
      else
        return .same := by
  rw [visit, walk, List.mapM_subtype (g := fun c => kept <$> v.visit c) fun c _ => rfl,
    List.unattach_attach]

/-- A visitor does what one does that keeps kinds: it runs the same before a node is entered, and at
a node it gives the same answer if it is handed the same walk. -/
structure Follows (w : Visitor σ) (v : IsoVisitor σ) : Prop where
  preVisit_eq : w.preVisit = v.preVisit
  visitType_eq : w.visitType = v.visitType
  node_eq : ∀ (t : Tree) (walk : VisitM Tree σ Id (Update (SameKind t))),
    w.node t (Update.map Subtype.val <$> walk) = kept <$> v.node t walk

theorem onState_bind {α β : Type} (x : StateM σ α) (f : α → StateM σ β) :
    (VisitM.onState (x >>= f) : VisitM Tree σ Id β) =
      VisitM.onState x >>= fun a => VisitM.onState (f a) := rfl

namespace Follows

variable {w : Visitor σ} {v : IsoVisitor σ}

/-- Visitors that agree on the nodes of a list agree on the list. -/
theorem mapM_visit {ts : List Tree} (h : ∀ t ∈ ts, w.toVisitor.visit t = kept <$> v.visit t) :
    ts.mapM w.toVisitor.visit = ts.mapM fun t => kept <$> v.visit t := by
  induction ts with
  | nil => rfl
  | cons t ts ih =>
    obtain ⟨ht, hts⟩ := List.forall_mem_cons.mp h
    rw [List.mapM_cons, List.mapM_cons, ht, ih hts]

/-- The walk over children that were followed is the same walk. -/
theorem walk_eq {t : Tree} (h : ∀ c ∈ children t, w.toVisitor.visit c = kept <$> v.visit c) :
    w.toVisitor.walk t = Update.map Subtype.val <$> v.walk t := by
  rw [Visitor.walk, mapM_visit h, walk]
  funext s
  have hlength : ((children t).mapM (fun c => kept <$> v.visit c) s).1.length = _ :=
    length_of_mapM (children t) s
  exact congrArg (·, ((children t).mapM (fun c => kept <$> v.visit c) s).2)
    (SameKind.map_val_ofUpdate_update hlength).symm

/-- **Who follows at every node follows on every tree.** -/
theorem visit_eq (h : Follows w v) (t : Tree) : w.toVisitor.visit t = kept <$> v.visit t := by
  induction t using induction_on_children with
  | step t ih =>
    have hnode : w.toVisitor.node t (w.toVisitor.walk t) = kept <$> v.node t (v.walk t) := by
      rw [walk_eq ih]
      exact h.node_eq t (v.walk t)
    have henter : w.toVisitor.enter t = do
        if ← v.preVisit t then
          (attributedTypes t).forM v.visitType
          return true
        else
          return false := by
      rw [← h.preVisit_eq, ← h.visitType_eq]
      rfl
    -- what comes before the node is the same step by step, and so is what comes after it
    rw [Visitor.visit_eq, IsoVisitor.visit_eq, hnode, henter]
    simp only [onState_bind, bind_assoc, map_bind]
    refine bind_congr fun entered => ?_
    cases entered with
    | false => rfl
    | true => rfl

end Follows

/-- As a visitor that need not keep kinds, a visitor does what it did. -/
theorem follows_toVisitor (v : IsoVisitor σ) : Follows v.toVisitor v where
  preVisit_eq := rfl
  visitType_eq := rfl
  node_eq t walk := by
    have hwalk : SameKind.ofUpdate t <$> Update.map Subtype.val <$> walk = walk := by
      simp only [Functor.map_map, SameKind.ofUpdate_map_val, id_map']
    show (do return kept (← v.node t (SameKind.ofUpdate t <$> Update.map Subtype.val <$> walk))) = _
    rw [hwalk, map_eq_pure_bind]

end IsoVisitor

/-! ### Rules -/

/-- What a visitor does at nodes whose children it always walks over. -/
structure Rules (σ : Type) where
  /-- Runs before a node is entered. -/
  preVisit : Tree → StateM σ Bool := fun _ => pure true
  /-- Runs for each type attributed to a node that will be entered. -/
  visitType : JavaType → StateM σ Unit := fun _ => pure ()
  /-- Runs at a node that was entered, before the walk. -/
  before : Tree → VisitM Tree σ Id Unit := fun _ => pure ()
  /-- Answers a node, given what came out of the walk. -/
  rule : Tree → Update Tree → VisitM Tree σ Id (Option (Update Tree)) := fun _ w => pure (some w)

namespace Rules

/-- The visitor with these rules. -/
def visitor (r : Rules σ) : Visitor σ where
  preVisit := r.preVisit
  visitType := r.visitType
  node t walk := do
    r.before t
    r.rule t (← walk)

/-- The visitor with these rules, if it keeps kinds: an answer that is no node of the right kind is
ignored. -/
def isoVisitor (r : Rules σ) : IsoVisitor σ where
  preVisit := r.preVisit
  visitType := r.visitType
  node t walk := do
    r.before t
    let w ← walk
    return ((← r.rule t (w.map Subtype.val)).bind (SameKind.ofUpdate? t)).getD w

/-- Nodes are answered with nodes of their kinds. -/
def KeepsKinds (r : Rules σ) : Prop :=
  ∀ t w s, (w.of t).kind = t.kind → ∃ v, (r.rule t w s).1 = some v ∧ (v.of t).kind = t.kind

/-- Rules that keep kinds make a visitor that follows the kind-keeping one made of them. -/
theorem KeepsKinds.follows {r : Rules σ} (h : r.KeepsKinds) :
    IsoVisitor.Follows r.visitor r.isoVisitor where
  preVisit_eq := rfl
  visitType_eq := rfl
  node_eq t walk := by
    have hrule : ∀ w : Update (SameKind t), r.rule t (w.map Subtype.val) = IsoVisitor.kept <$> (do
        return ((← r.rule t (w.map Subtype.val)).bind (SameKind.ofUpdate? t)).getD w) := by
      intro w
      funext s
      have hkind : ((w.map Subtype.val).of t).kind = t.kind := by
        cases w with
        | same => rfl
        | new u => exact u.property
      obtain ⟨v, hanswer, hv⟩ := h t (w.map Subtype.val) s hkind
      obtain ⟨v, rfl⟩ := SameKind.exists_map_val hv
      show _ = (IsoVisitor.kept
        (((r.rule t (w.map Subtype.val) s).1.bind (SameKind.ofUpdate? t)).getD w),
        (r.rule t (w.map Subtype.val) s).2)
      rw [hanswer, Option.bind_some, SameKind.ofUpdate?_map_val]
      exact Prod.ext hanswer rfl
    simp only [map_bind] at hrule
    simp only [visitor, isoVisitor, bind_map_left, map_bind]
    exact bind_congr fun _ => bind_congr hrule

/-! ### The calls of a traversal -/

end Rules

/-- What is called in a traversal. -/
inductive Callback where
  /-- Whether to enter a node. -/
  | preVisit (t : Tree)
  /-- What to do about a type. -/
  | visitType (type : JavaType)
  /-- What to do at a node, with this path of the cursor. -/
  | node (t : Tree) (path : List Tree)

/-- Notes down a call. -/
def Callback.note (call : Callback) : StateM (σ × List Callback) Unit :=
  modify fun s => (s.1, s.2 ++ [call])

/-- Noting a call beside the state is nothing to the state. -/
theorem Callback.inStep_note (call : Callback) :
    InStep SameState (call.note : StateM (σ × List Callback) Unit) (pure () : StateM σ Unit) :=
  inStep_id_iff.mpr fun _ _ h => ⟨rfl, h⟩

/-- A step with something beside its state. -/
def besides {ε α : Type} (x : StateM σ α) : StateM (σ × ε) α := fun s =>
  let (a, state) := x s.1
  (a, (state, s.2))

/-- An action beside the notes runs in step with the action alone. -/
theorem inStep_besides {ε α : Type} (x : StateM σ α) :
    InStep SameState (besides x : StateM (σ × ε) α) x := by
  refine inStep_id_iff.mpr ?_
  rintro s r rfl
  exact ⟨rfl, rfl⟩

namespace Rules

/-- The rules together with a note of every call. -/
def traced (r : Rules σ) : Rules (σ × List Callback) where
  preVisit t := do
    Callback.note (.preVisit t)
    besides (r.preVisit t)
  visitType type := do
    Callback.note (.visitType type)
    besides (r.visitType type)
  before t := do
    VisitM.onState (Callback.note (.node t (← VisitM.cursor).path))
    (r.before t).beside
  rule t w := (r.rule t w).beside

/-- Rules that keep kinds do so when their calls are noted, too. -/
theorem KeepsKinds.traced {r : Rules σ} (h : r.KeepsKinds) : r.traced.KeepsKinds :=
  fun t w s hw => h t w ⟨s.state.1, s.cursor⟩ hw

/-- **Noting down the calls changes nothing.** -/
theorem inStep_traced (r : Rules σ) :
    Visitor.InStep SameState r.traced.visitor.toVisitor r.visitor.toVisitor where
  enter t := by
    have hpre : InStep SameState (r.traced.preVisit t) (r.preVisit t) :=
      (Callback.inStep_note (.preVisit t)).bind fun _ => inStep_besides (r.preVisit t)
    have htype : ∀ type, InStep SameState (r.traced.visitType type) (r.visitType type) :=
      fun type => (Callback.inStep_note (.visitType type)).bind fun _ => inStep_besides _
    refine hpre.bind fun entered => ?_
    cases entered with
    | false => exact .pure false
    | true => exact (InStep.forM fun type _ => htype type).bind fun _ => .pure true
  node t x y hwalk := by
    have hbefore : InStep (Standing SameState) (r.traced.before t) (r.before t) :=
      inStep_cursor.bind fun c => (Callback.inStep_note (.node t c.path)).onState.bind fun _ =>
        VisitM.inStep_beside (r.before t)
    exact hbefore.bind fun _ => hwalk.bind fun w => VisitM.inStep_beside (r.rule t w)

/-- Three traversals come to the same answer and the same end. -/
theorem KeepsKinds.visit_eq {r : Rules σ} (h : r.KeepsKinds) {t : Tree} {s s' : Traversal Tree σ}
    {w : Update (SameKind t)} (hvisit : r.isoVisitor.visit t s = (w, s')) :
    r.visitor.toVisitor.visit t s = (some (w.map Subtype.val), s') ∧
      r.isoVisitor.toVisitor.toVisitor.visit t s = (some (w.map Subtype.val), s') := by
  have hanswer : (IsoVisitor.kept <$> r.isoVisitor.visit t) s =
      (some (w.map Subtype.val), s') := by
    rw [map_eq_pure_bind]
    exact bind_of_eq hvisit
  constructor
  · rw [h.follows.visit_eq, hanswer]
  · rw [r.isoVisitor.follows_toVisitor.visit_eq, hanswer]

/-- A traversal on which these calls have been noted. -/
def noted (s : Traversal Tree σ) (calls : List Callback) : Traversal Tree (σ × List Callback) :=
  ⟨(s.state, calls), s.cursor⟩

/-- **Rules that keep kinds make the same traversals** in a visitor that keeps kinds by its type,
with its own traversal or as a visitor of the other sort, and in one that need not: they answer with
the same tree, come to the same state and the same cursor, and make the same calls in the same
order. -/
theorem visit_isomorphic (r : Rules σ) (h : r.KeepsKinds) (t : Tree) (s : Traversal Tree σ) :
    ∃ (w : Update (SameKind t)) (s' : Traversal Tree σ) (calls : List Callback),
      r.visitor.toVisitor.visit t s = (some (w.map Subtype.val), s') ∧
      r.isoVisitor.visit t s = (w, s') ∧
      r.isoVisitor.toVisitor.toVisitor.visit t s = (some (w.map Subtype.val), s') ∧
      r.traced.visitor.toVisitor.visit t (noted s []) =
        (some (w.map Subtype.val), noted s' calls) ∧
      r.traced.isoVisitor.visit t (noted s []) = (w, noted s' calls) ∧
      r.traced.isoVisitor.toVisitor.toVisitor.visit t (noted s []) =
        (some (w.map Subtype.val), noted s' calls) := by
  obtain ⟨w, s', hiso⟩ : ∃ w s', r.isoVisitor.visit t s = (w, s') := ⟨_, _, rfl⟩
  obtain ⟨v, r', htraced⟩ : ∃ v r', r.traced.isoVisitor.visit t (noted s []) = (v, r') :=
    ⟨_, _, rfl⟩
  obtain ⟨hpoly, hadapted⟩ := h.visit_eq hiso
  obtain ⟨hpolyTraced, hadaptedTraced⟩ := h.traced.visit_eq htraced
  -- the notes stand beside the traversal, so it comes to the same answer and the same end
  obtain ⟨hanswer, hstate, hcursor⟩ :=
    inStep_id_iff.mp (r.inStep_traced.visit t) (noted s []) s ⟨rfl, rfl⟩
  rw [hpolyTraced, hpoly] at hanswer hstate hcursor
  obtain rfl : v = w := Option.some.inj <| by
    rw [← SameKind.ofUpdate?_map_val, ← SameKind.ofUpdate?_map_val, Option.some.inj hanswer]
  have hend : r' = noted s' r'.state.2 := by
    rw [noted, ← hcursor, ← (hstate : r'.state.1 = s'.state)]
  rw [hend] at hpolyTraced htraced hadaptedTraced
  exact ⟨v, s', _, hpoly, hiso, hadapted, hpolyTraced, htraced, hadaptedTraced⟩

/-- Rules that take away the text in front of every node, and count the types on the way. -/
def trimming : Rules Nat where
  visitType _ := modify (· + 1)
  rule t w := pure (some (w.andThen (.new ((w.of t).withLead .empty))))

theorem keepsKinds_trimming : trimming.KeepsKinds := by
  intro t w s hw
  refine ⟨_, rfl, ?_⟩
  rw [← hw, Update.andThen_new, Update.of_new]
  cases w.of t <;> rfl

/-- ` return x`, with a type attributed to `x`. -/
def returned : Tree :=
  .returnStmt
    { lead := ⟨" "⟩
      expression := some (.identifier
        { lead := ⟨" "⟩, simpleName := "x", type := some (.primitive .int) }) }

/-- No text is left in front of the two nodes, whichever visitor takes it away. -/
theorem visit_isomorphic_trimming : trimming.KeepsKinds ∧
    ∃ w s' calls, trimming.visitor.toVisitor.visit returned ⟨0, .empty⟩ = (some w, s') ∧
      trimming.isoVisitor.toVisitor.toVisitor.visit returned ⟨0, .empty⟩ = (some w, s') ∧
      trimming.traced.visitor.toVisitor.visit returned ⟨(0, []), .empty⟩ =
        (some w, noted s' calls) ∧
      trimming.traced.isoVisitor.toVisitor.toVisitor.visit returned ⟨(0, []), .empty⟩ =
        (some w, noted s' calls) := by
  obtain ⟨w, s', calls, hpoly, -, hadapted, hpolyTraced, -, hadaptedTraced⟩ :=
    visit_isomorphic trimming keepsKinds_trimming returned ⟨0, .empty⟩
  exact ⟨keepsKinds_trimming, _, s', calls, hpoly, hadapted, hpolyTraced, hadaptedTraced⟩

end Rules

end Lossless.Java
