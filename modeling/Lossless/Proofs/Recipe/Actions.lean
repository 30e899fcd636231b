import Lossless.Proofs.Java.Scan
import Lossless.Proofs.Run.InStep
import Lossless.Proofs.Xml.Places
import Lossless.Recipe.ChangeProperty
import Lossless.Recipe.DeleteArgument
import Lossless.Recipe.FindCalls

/-!
# What the recipes do to what they share

None of the recipes looks at what contexts share, but for the answers of its own
precondition. So their procedures are in step with themselves. For the two recipes that
change calls (`Lossless.DeleteArgument.inStep_procedure`,
`Lossless.FindCalls.inStep_procedure`) this is a matter of what is done at a node: nothing,
or imports are requested to be removed. For the recipe that changes a property it is a matter of
the tags (`Lossless.ChangeProperty.inStep_procedure`).

Two of the recipes cannot fail (`Lossless.FindCalls.failsOnly_visitor`,
`Lossless.ChangeProperty.failsOnly_visitor`): to mark a call is always possible, and the document
of a project keeps its markers, and with them its model.

Where no call is accepted by the matcher, the recipes for calls do nothing at all: a visit
leaves the file and the context as they are (`Lossless.DeleteArgument.visitUnit_same`,
`Lossless.FindCalls.visitUnit_same`).
-/

namespace Lossless

open Java

/-! ### Visitors of calls -/

section Unit

variable {ω : Type} {v : Java.Visitor (Context ω) (Except Failure)}

/-- The visit of a file is the traversal of its tree from a fresh cursor. -/
theorem visitUnit_of_visit {unit : CompilationUnit Tree} {c : Context ω}
    {answer : Option (Update Tree)} {s : Traversal Tree (Context ω)}
    (h : v.toVisitor.visit (.compilationUnit unit) ⟨c, .empty⟩ = .ok (answer, s)) :
    visitUnit v unit c = .ok (.ofAnswer .java (Answers.place Tree.unit? answer), s.state) := by
  show (v.toVisitor.visit (.compilationUnit unit) ⟨c, .empty⟩ >>= _) = _
  rw [h]
  rfl

/-- It fails where the traversal fails. -/
theorem visitUnit_of_visit_error {unit : CompilationUnit Tree} {c : Context ω} {e : Failure}
    (h : v.toVisitor.visit (.compilationUnit unit) ⟨c, .empty⟩ = .error e) :
    visitUnit v unit c = .error e := by
  show (v.toVisitor.visit (.compilationUnit unit) ⟨c, .empty⟩ >>= _) = _
  rw [h]
  rfl

/-- A visitor that does nothing at any node of a file leaves the file the same. -/
theorem visitUnit_of_same {unit : CompilationUnit Tree}
    (hpre : ∀ t, v.preVisit t = pure true) (htype : ∀ type, v.visitType type = pure ())
    (hnode : ∀ t ∈ nodes (.compilationUnit unit), v.node t (pure .same) = pure (some .same))
    (c : Context ω) : visitUnit v unit c = .ok (.tree .same, c) := by
  have hvisit : v.toVisitor.visit (.compilationUnit unit) = pure (some .same) :=
    Lossless.Visitor.visit_same (fun u _ => (Visitor.enter_eq htype u).trans (hpre u)) hnode
  exact visitUnit_of_visit (congrFun hvisit ⟨c, .empty⟩)

/-- A visit of a file fails only for reasons for which a step at a node does. -/
theorem failsOnly_visitUnit {P : Failure → Prop} (hpre : ∀ t, v.preVisit t = pure true)
    (htype : ∀ type, v.visitType type = pure ())
    (hnode : ∀ t walk, FailsOnly P walk → FailsOnly P (v.node t walk))
    (unit : CompilationUnit Tree) : FailsOnly P (visitUnit v unit) := by
  have hvisit : FailsOnly P (v.toVisitor.visit (.compilationUnit unit)) := by
    refine Lossless.Visitor.visit_failsOnly (fun t => ?_) hnode _
    rw [Visitor.enter_eq htype, hpre]
    exact .pure true
  intro c e h
  cases hs : v.toVisitor.visit (.compilationUnit unit) ⟨c, .empty⟩ with
  | ok z =>
    rw [visitUnit_of_visit hs] at h
    cases h
  | error e' =>
    rw [visitUnit_of_visit_error hs] at h
    obtain rfl := Except.error.inj h
    exact hvisit ⟨c, .empty⟩ e' hs

/-- A visit behind the test for calls fails only if the visit does. -/
theorem failsOnly_check {P : Failure → Prop} {m : Matcher}
    (hv : ∀ unit, FailsOnly P (visitUnit v unit)) (s : Source) :
    FailsOnly P (SourceVisitor.check (.test (.usesMethod m ω))
      (Capabilities.visitor { java := some v }) s) := by
  have htest : FailsOnly P (ContextM.ofState ((Precondition.test (.usesMethod m ω)).applies s)) :=
    fun _ _ h => nomatch h
  refine htest.bind fun applies => ?_
  cases applies with
  | false => exact .pure _
  | true => cases s with
    | java unit => exact hv unit
    | xml document => exact .pure _
    | maven description => exact .pure _

end Unit

section InStep

variable {v : Java.Visitor Context (Except Failure)}

/-- A visitor of Java trees is in step with itself if its steps at the nodes are. -/
theorem inStep_toVisitor (hpre : ∀ t, v.preVisit t = pure true)
    (htype : ∀ type, v.visitType type = pure ())
    (hnode : ∀ t x y, InStep (Standing Context.Alike) x y →
      InStep (Standing Context.Alike) (v.node t x) (v.node t y)) :
    v.toVisitor.InStep Context.Alike v.toVisitor where
  enter t := by
    rw [Visitor.enter_eq htype, hpre]
    exact .pure true
  node := hnode

/-- Where the test for calls finds none, no node is accepted. -/
theorem acceptsNode_of_usesMethod {m : Matcher} {unit : CompilationUnit Tree}
    (h : usesMethod m unit false = false) :
    ∀ t ∈ nodes (.compilationUnit unit), m.acceptsNode t = false := by
  intro t ht
  rw [usesMethod_eq_anyNode] at h
  by_contra hne
  rw [(anyNode_iff _ _).mpr ⟨t, ht, Bool.not_eq_false _ ▸ hne⟩] at h
  cases h

/-- Then it is so on all files. -/
theorem inStep_java (hv : v.toVisitor.InStep Context.Alike v.toVisitor) (s : Source) :
    ContextM.InStep (Capabilities.visitor { java := some v } s)
      (Capabilities.visitor { java := some v } s) := by
  cases s with
  | java unit => exact inStep_visitUnit hv unit
  | xml document => exact .pure _
  | maven description => exact .pure _

/-- And so it is behind the test for calls, from any memo. -/
theorem inStep_check_java {m : Matcher} (hm : m.Compiled)
    (hv : v.toVisitor.InStep Context.Alike v.toVisitor) (s : Source) :
    ContextM.InStep
      (SourceVisitor.check (.test (.usesMethod m)) (Capabilities.visitor { java := some v }) s)
      (SourceVisitor.check (.test (.usesMethod m)) (Capabilities.visitor { java := some v }) s) :=
  have hcheck := inStep_check hm (inStep_java hv s)
  hcheck.trans hcheck.symm

end InStep

namespace DeleteArgument

variable {ω : Type} (m : Matcher) (index : UInt64)

/-- Where no call is accepted nothing is deleted. -/
theorem deleteFrom_of_not_accepted {t : Tree} (h : m.acceptsNode t = false) :
    deleteFrom (ω := ω) m index t = pure .same := by
  rw [Matcher.acceptsNode] at h
  rw [deleteFrom]
  cases hcall : t.call? with
  | none => rfl
  | some c =>
    rw [hcall, Option.any_some] at h
    simp [h]

/-- Where the test for calls finds none, a visit does nothing. -/
theorem visitUnit_same {unit : CompilationUnit Tree} (h : usesMethod m unit false = false)
    (c : Context ω) : visitUnit (action m index ω) unit c = .ok (.tree .same, c) := by
  refine visitUnit_of_same (fun _ => rfl) (fun _ => rfl) (fun t ht => ?_) c
  have hkept : deleteFrom (ω := ω) m index t = pure .same :=
    deleteFrom_of_not_accepted m index (acceptsNode_of_usesMethod h t ht)
  show (VisitM.onState (deleteFrom m index t) >>= fun w => pure (some (Update.same.andThen w))) = _
  rw [hkept]
  rfl

/-- To delete an argument from a node does the same in contexts that are alike. -/
theorem inStep_deleteFrom (t : Tree) :
    ContextM.InStep (deleteFrom m index t) (deleteFrom m index t) := by
  have hrequests : ∀ names : List String,
      ContextM.InStep (names.forM fun name => modify (·.requestRemoval name))
        (names.forM fun name => modify (·.requestRemoval name)) :=
    fun names => .forM fun name _ => .modify fun _ _ h => h.requestRemoval name
  rw [deleteFrom]
  split
  · exact .pure Update.same
  · split
    · split
      next updated removed _ => exact (hrequests _).bind fun _ => .pure (Update.new updated)
      next => exact inStep_except_iff.mpr fun c d _ => .inr ⟨_, rfl, rfl⟩
    · exact .pure Update.same

theorem inStep_action :
    (action m index).toVisitor.InStep Context.Alike (action m index).toVisitor := by
  refine inStep_toVisitor (fun _ => rfl) (fun _ => rfl) fun t x y hxy => ?_
  exact hxy.bind fun w => (inStep_deleteFrom m index (w.of t)).onState.bind fun u =>
    .pure (some (w.andThen u))

omit m index in
/-- **A deletion does not depend on what is shared.** -/
theorem inStep_procedure (r : DeleteArgument) : r.procedure.InStep r.procedure := by
  refine fun d => .map _ ?_
  show ContextM.InStep (r.visitor Unit d.source) (r.visitor Unit d.source)
  rw [visitor]
  cases hpattern : MethodPattern.parse r.pattern with
  | error e => exact .pure _
  | ok pattern => exact inStep_check_java ⟨r.pattern, hpattern⟩ (inStep_action _ r.index) d.source

end DeleteArgument

namespace FindCalls

variable {ω : Type} (m : Matcher)

/-- Where no call is accepted nothing is marked. -/
theorem mark_of_not_accepted {t : Tree} (h : m.acceptsNode t = false) : mark m t = .same := by
  rw [Matcher.acceptsNode] at h
  rw [mark, h]
  rfl

/-- Where the test for calls finds none, a visit does nothing. -/
theorem visitUnit_same {unit : CompilationUnit Tree} (h : usesMethod m unit false = false)
    (c : Context ω) : visitUnit (action m ω) unit c = .ok (.tree .same, c) := by
  refine visitUnit_of_same (fun _ => rfl) (fun _ => rfl) (fun t ht => ?_) c
  show (pure (some (Update.same.andThen (mark m t))) :
    VisitM Tree (Context ω) (Except Failure) _) = _
  rw [mark_of_not_accepted m (acceptsNode_of_usesMethod h t ht)]
  rfl

theorem inStep_action : (action m).toVisitor.InStep Context.Alike (action m).toVisitor :=
  inStep_toVisitor (fun _ => rfl) (fun _ => rfl) fun t _ _ hxy =>
    hxy.bind fun w => .pure (some (w.andThen (mark m (w.of t))))

omit m in
/-- **Neither does a search.** -/
theorem inStep_procedure (r : FindCalls) : r.procedure.InStep r.procedure := by
  refine fun d => .map _ ?_
  show ContextM.InStep (r.visitor Unit d.source) (r.visitor Unit d.source)
  rw [visitor]
  cases hpattern : MethodPattern.parse r.pattern with
  | error e => exact .pure _
  | ok pattern => exact inStep_check_java ⟨r.pattern, hpattern⟩ (inStep_action _) d.source

omit m in
/-- A search for calls does not fail. -/
theorem failsOnly_visitor (r : FindCalls) (s : Source) :
    FailsOnly (fun _ => False) (r.visitor ω s) := by
  rw [visitor]
  cases MethodPattern.parse r.pattern with
  | error e => exact .pure _
  | ok pattern =>
    exact failsOnly_check (failsOnly_visitUnit (fun _ => rfl) (fun _ => rfl)
      fun t walk hwalk => hwalk.bind fun w => .pure _) s

end FindCalls

/-! ### The visitor of project descriptions -/

/-- A document that carries a model is wrapped with it. -/
theorem Maven.Document.ofBase_eq {base : Xml.Document Xml.Tree} {model : Maven.Pom}
    (h : base.markers.pom? = some model) (downloader : Maven.Downloader) :
    ofBase base downloader = .ok ⟨base, model, downloader, h⟩ := by
  rw [ofBase]
  split
  next model' h' =>
    cases h.symm.trans h'
    rfl
  next h' => cases h.symm.trans h'

/-- A visit of a document runs the visitor from a fresh cursor and reads the answer. -/
theorem Maven.visitBase_eq {m : Type → Type} [Monad m] [LawfulMonad m] {σ : Type}
    (v : Lossless.Visitor Xml.Tree σ m) (base : Xml.Document Xml.Tree) :
    Maven.visitBase v base = Answers.place Xml.Tree.document? <$>
      (fun s => (fun z => (z.1, z.2.state)) <$> v.run (.document base) s :
        StateT σ m (Option (Update Xml.Tree))) := by
  funext s
  show (v.run (.document base) s >>= fun z => pure (Answers.place Xml.Tree.document? z.1,
    z.2.state)) = _
  rw [map_eq_pure_bind]
  show _ = ((fun z => (z.1, z.2.state)) <$> v.run (.document base) s) >>=
    fun z => pure (Answers.place Xml.Tree.document? z.1, z.2)
  rw [bind_map_left]

/-- The visit of a document is the traversal of its tree from a fresh cursor. -/
theorem Maven.visitBase_of_visit {σ ε : Type} {v : Lossless.Visitor Xml.Tree σ (Except ε)}
    {base : Xml.Document Xml.Tree} {c : σ} {answer : Option (Update Xml.Tree)}
    {s : Traversal Xml.Tree σ} (h : v.visit (.document base) ⟨c, .empty⟩ = .ok (answer, s)) :
    Maven.visitBase v base c = .ok (Answers.place Xml.Tree.document? answer, s.state) := by
  show (v.visit (.document base) ⟨c, .empty⟩ >>= _) = _
  rw [h]
  rfl

/-- A description is visited by visiting its document; the description with what became of the
document is then finished. -/
theorem visitDescription_of_visited {ω : Type} {v : Maven.Visitor (Context ω) (Except Failure)}
    {d : Maven.Document} {c c' : Context ω} {base : Update (Xml.Document Xml.Tree)}
    {visited : Update Maven.Document}
    (hbase : Maven.visitBase v.inside d.base c = .ok (some base, c'))
    (hvisited : d.visited base = .ok visited) :
    visitDescription v d c = .ok (.tree ((v.finish d visited).map .maven), c') := by
  refine (bind_of_eq hbase).trans ?_
  show (liftM ((d.visited base).mapError Failure.missingModel) >>= _ : ContextM ω Visited) c' = _
  rw [hvisited]
  rfl

namespace ChangeProperty

variable {ω : Type} (r : ChangeProperty)

/-- A walk over what is in a document does not fail, and what comes out is a document with the
same markers. -/
theorem exists_walk_document (base : Xml.Document Xml.Tree) (s : Traversal Xml.Tree (Context ω)) :
    ∃ w s', (r.action ω).inside.walk (.document base) s = .ok (Update.map .document w, s') ∧
      (w.of base).markers = base.markers := by
  have hwalk : FailsOnly (fun _ => False) ((r.action ω).inside.walk (.document base)) :=
    Lossless.Visitor.walk_failsOnly fun t _ => Lossless.Visitor.visit_failsOnly
      (fun _ => .pure true) (fun _ _ hwalk => hwalk.bind fun _ => .bind .cursor fun _ => .pure _) t
  obtain ⟨w, s', hw⟩ := hwalk.exists_ok s
  obtain ⟨answers, hlength, rfl⟩ := Lossless.Visitor.exists_answers_of_walk hw
  have hsettled := settled_update _ answers hlength
  cases hupdate : Node.update (.document base) answers with
  | same =>
    rw [hupdate] at hw
    exact ⟨.same, s', hw, rfl⟩
  | new t =>
    rw [hupdate] at hw hsettled
    cases t with
    | document base' => exact ⟨.new base', s', hw, congrArg Head.markers hsettled.head_eq⟩
    | _ => cases hsettled.kind_eq

/-- **A visit of a document does not fail**, and the document keeps its markers. -/
theorem exists_visitBase (base : Xml.Document Xml.Tree) (c : Context ω) :
    ∃ visited c', Maven.visitBase (r.action ω).inside base c = .ok (some visited, c') ∧
      (visited.of base).markers = base.markers := by
  obtain ⟨w, s, hwalk, hmarkers⟩ :=
    r.exists_walk_document base ⟨c, Cursor.empty.push (.document base)⟩
  -- a document is no tag, so nothing is done when its own turn comes
  have hchanged : (r.action ω).inside.node (.document base)
      ((r.action ω).inside.walk (.document base)) ⟨c, Cursor.empty.push (.document base)⟩ =
      pure (some (w.map .document), s) := by
    refine (bind_of_eq hwalk).trans ?_
    show Except.ok (some ((w.map Xml.Tree.document).andThen
      (r.update s.cursor ((w.map .document).of (.document base)))), s) = _
    rw [Update.of_map]
    rfl
  have henter : (r.action ω).inside.enter (.document base) c = pure (true, c) := rfl
  have hvisit := Lossless.Visitor.visit_of_entered (s := ⟨c, .empty⟩) henter hchanged
  refine ⟨w, s.state, (Maven.visitBase_of_visit hvisit).trans ?_, hmarkers⟩
  cases w <;> rfl

/-- **A change of a property does not fail**: the document keeps the model that it carries. -/
theorem failsOnly_visitor (s : Source) :
    FailsOnly (fun _ => False) ((r.procedure ω).visitor s) := by
  cases s with
  | java unit => exact .pure _
  | xml document => exact .pure _
  | maven d =>
    intro c e h
    obtain ⟨visited, c', hbase, hmarkers⟩ := r.exists_visitBase d.base c
    obtain ⟨d', hd'⟩ : ∃ d', d.visited visited = .ok d' := by
      cases visited with
      | same => exact ⟨.same, rfl⟩
      | new base =>
        have hmodel : base.markers.pom? = some d.model := by
          rw [← d.pom?_eq]
          exact congrArg Markers.pom? hmarkers
        exact ⟨_, congrArg (Update.new <$> ·) (Maven.Document.ofBase_eq hmodel d.downloader)⟩
    have hvisit : (r.procedure ω).visitor (.maven d) c =
        .ok (.tree (((r.action ω).finish d d').map .maven), c') :=
      visitDescription_of_visited hbase hd'
    rw [hvisit] at h
    cases h

theorem inStep_inside : r.action.inside.InStep Context.Alike r.action.inside where
  enter _ := .pure true
  node t _ _ hxy := hxy.bind fun w => inStep_cursor.bind fun c =>
    .pure (some (w.andThen (r.update c (w.of t))))

/-- A description is visited in the same way in contexts that are alike. -/
theorem inStep_visitDescription (d : Maven.Document) :
    ContextM.InStep (visitDescription r.action d) (visitDescription r.action d) := by
  have hbase : ContextM.InStep (Maven.visitBase r.action.inside d.base)
      (Maven.visitBase r.action.inside d.base) := by
    rw [Maven.visitBase_eq]
    exact (r.inStep_inside.run (.document d.base)).map _
  refine hbase.bind fun answer => ?_
  cases answer with
  | none => exact .pure _
  | some base => exact (InStep.lift _).bind fun visited => .pure _

/-- **Nor does a change of a property.** -/
theorem inStep_procedure : r.procedure.InStep r.procedure := by
  refine fun d => .map _ ?_
  show ContextM.InStep (Capabilities.visitor { maven := some r.action } d.source)
    (Capabilities.visitor { maven := some r.action } d.source)
  cases d.source with
  | java unit => exact .pure _
  | xml document => exact .pure _
  | maven description => exact r.inStep_visitDescription description

end ChangeProperty

end Lossless
