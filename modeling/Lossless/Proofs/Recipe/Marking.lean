import Lossless.Java.Build
import Lossless.Proofs.Java.Frames
import Lossless.Proofs.Java.Print
import Lossless.Proofs.Recipe.Calls

/-!
# Calls that are found

The recipe that marks calls goes through a tree from the bottom up, so it looks at calls in which
others have been marked already. That makes no difference: a marker is neither seen by the matcher
(`Lossless.FindCalls.finds_mapChildren`) nor printed (`Lossless.FindCalls.text_markTree`). So what
comes out is described by the tree that went in (`Lossless.FindCalls.Marked`): there are the same
nodes at the same positions, and those that are to be found have one marker more. There is no
other such tree (`Lossless.FindCalls.Marked.unique`).

A call that has been marked is not to be found again, so a second run returns the very tree that it
was given (`Lossless.FindCalls.mark_spec`).
-/

namespace Lossless.FindCalls

open Java

/-- The matcher of the recipe, given its pattern. -/
def matcher (r : FindCalls) (pattern : MethodPattern) : Matcher :=
  { pattern, fallback := r.fallback }

variable (m : Matcher)

/-! ### One node -/

/-- Is a node to be found: is it a call that the matcher accepts, and has no search found it? -/
def finds (t : Tree) : Bool := m.acceptsNode t && !t.markers.contains .searchResult

/-- Found are the calls that the matcher accepts and that have not been found before. -/
theorem finds_iff (t : Tree) :
    finds m t = true ↔ (t.kind = .methodInvocation ∨ t.kind = .newClass) ∧ m.accepts t = true ∧
      t.markers.contains .searchResult = false := by
  rw [finds, Bool.and_eq_true, Matcher.acceptsNode_iff, Bool.not_eq_true', and_assoc]

/-- A node with the marker for what was found, behind its other markers. -/
def found (t : Tree) : Tree := t.withMarkers (t.markers.add (.searchResult none))

/-- A node after the search. -/
def searched (t : Tree) : Tree := if finds m t then found t else t

theorem mark_eq (t : Tree) : mark m t = if finds m t then .new (found t) else .same := rfl

theorem of_mark (t : Tree) : (mark m t).of t = searched m t := by
  rw [mark_eq, searched]
  split <;> rfl

/-- What was found bears the mark. -/
theorem contains_found (t : Tree) : (found t).markers.contains .searchResult = true := by
  have hmarkers : (found t).markers = t.markers.add (.searchResult none) := by
    rw [found, Tree.withMarkers, Tree.markers, Tree.head_withHead]
  rw [hmarkers, Markers.contains, Markers.add, List.any_append]
  exact Bool.or_true _

/-- What is marked is not to be found again. -/
theorem finds_searched (t : Tree) : finds m (searched m t) = false := by
  rw [searched]
  split
  case isTrue h => rw [finds, contains_found, Bool.not_true, Bool.and_false]
  case isFalse h => exact Bool.eq_false_iff.mpr h

/-- To mark nodes is not noticed by the nodes above. -/
theorem keepsForm_searched : Tree.KeepsForm (searched m) := by
  refine ⟨fun t => ?_, fun t => ?_, fun _ => rfl⟩
  · rw [searched]
    split
    · exact Tree.kind_withHead _ t
    · rfl
  · rw [searched]
    split
    · exact Tree.needsTerminator_withHead _ t
    · rfl

/-- A mark leaves the children. -/
theorem children_searched (t : Tree) : children (searched m t) = children t := by
  rw [searched]
  split
  · exact Tree.children_withHead _ t
  · rfl

/-- A marker is not printed. -/
theorem text_searched (t : Tree) : text (searched m t) = text t := by
  rw [searched]
  split
  · have hlead : (found t).lead = t.lead := by
      rw [found, Tree.withMarkers, Tree.lead, Tree.head_withHead, Tree.lead]
    rw [Tree.text_eq_append, Tree.text_eq_append, hlead, found, Tree.withMarkers,
      Tree.body_withHead]
  · rfl

/-- **What is changed below a node does not decide whether it is found.** -/
theorem finds_mapChildren {f : Tree → Tree} (hf : Tree.KeepsForm f) (t : Tree) :
    finds m (mapChildren f t) = finds m t := by
  rw [finds, finds, m.acceptsNode_mapChildren hf, Tree.markers, Tree.head_mapChildren, Tree.markers]

/-- Around other children, a node is marked as it would have been. -/
theorem frame_searched_mapChildren {f : Tree → Tree} (hf : Tree.KeepsForm f) (t : Tree) :
    (searched m (mapChildren f t)).frame = (searched m t).frame := by
  rw [searched, searched, finds_mapChildren m hf]
  split
  · rw [found, found, Tree.withMarkers, Tree.withMarkers, Tree.markers, Tree.head_mapChildren]
    exact Tree.frame_withHead_mapChildren hf.kind_eq _ t
  · exact Tree.frame_mapChildren hf.kind_eq t

/-! ### The whole tree -/

/-- The tree with all calls marked. -/
def markTree (t : Tree) : Tree := bottomUp (searched m) t

/-- A tree is marked by marking its children and then the node over them. -/
theorem markTree_eq (t : Tree) : markTree m t = searched m (mapChildren (markTree m) t) :=
  bottomUp_eq _ t

theorem keepsForm_markTree : Tree.KeepsForm (markTree m) := (keepsForm_searched m).bottomUp

/-- The children of a marked tree are marked. -/
theorem children_markTree (t : Tree) : children (markTree m t) = (children t).map (markTree m) := by
  rw [markTree_eq, children_searched, Tree.children_mapChildren (keepsForm_markTree m).kind_eq]

/-- A node of a marked tree is marked itself, and otherwise it is the node that it was. -/
theorem frame_markTree (t : Tree) : (markTree m t).frame = (searched m t).frame := by
  rw [markTree_eq, frame_searched_mapChildren m (keepsForm_markTree m)]

/-- **Markers are not printed.** -/
theorem text_markTree (t : Tree) : text (markTree m t) = text t := by
  induction t using induction_on_children with
  | step t ih =>
    rw [markTree_eq, text_searched, Tree.text_eq_append, Tree.text_eq_append, Tree.lead,
      Tree.head_mapChildren, (keepsForm_markTree m).body_mapChildren, chars_map, Tree.lead]
    exact ih

/-- **In the marked tree there is nothing to be found.** -/
theorem finds_of_mem_markTree {t u : Tree} (hu : u ∈ nodes (markTree m t)) : finds m u = false := by
  -- every node of the marked tree is what has become of a node, and so has been searched itself
  rw [nodes_changed (children_markTree m)] at hu
  obtain ⟨v, -, rfl⟩ := List.mem_map.mp hu
  rw [markTree_eq, finds_searched]

/-! ### What comes out -/

/-- A tree is another one with its calls marked: node by node, the two agree in everything beside
the children, but for one marker behind the others of each call that the matcher accepts and no
search has found. -/
structure Marked (t t' : Tree) : Prop where
  /-- There are nodes at the same positions. -/
  positions_eq : positions t' = positions t
  /-- A call that is to be found has one marker more. -/
  frame_found : ∀ p u u', at? t p = some u → at? t' p = some u' →
    (u.kind = .methodInvocation ∨ u.kind = .newClass) → m.accepts u = true →
    u.markers.contains .searchResult = false →
      u'.frame = (u.withMarkers (u.markers.add (.searchResult none))).frame
  /-- All other nodes are what they were. -/
  frame_kept : ∀ p u u', at? t p = some u → at? t' p = some u' →
    ¬((u.kind = .methodInvocation ∨ u.kind = .newClass) ∧ m.accepts u = true ∧
      u.markers.contains .searchResult = false) → u'.frame = u.frame

variable {m} {t t' t'' : Tree}

/-- At each position there is the node that was there, marked if it was to be found. -/
theorem Marked.map_frame (h : Marked m t t') (p : Position) :
    (at? t' p).map Tree.frame = (at? t p).map fun u => (searched m u).frame := by
  have hsome : (∃ u', at? t' p = some u') ↔ ∃ u, at? t p = some u := by
    rw [← mem_positions, ← mem_positions, h.positions_eq]
  cases hu : at? t p with
  | none =>
    have hnone : at? t' p = none := by
      rw [← Option.not_isSome_iff_eq_none, Option.isSome_iff_exists, hsome, hu]
      rintro ⟨u, ⟨⟩⟩
    rw [hnone]
    rfl
  | some u =>
    obtain ⟨u', hu'⟩ := hsome.mpr ⟨u, hu⟩
    rw [hu', Option.map_some, Option.map_some, searched]
    split
    case isTrue hfinds =>
      obtain ⟨hkind, haccepts, hmarkers⟩ := (finds_iff m u).mp hfinds
      rw [h.frame_found p u u' hu hu' hkind haccepts hmarkers, found]
    case isFalse hfinds =>
      rw [h.frame_kept p u u' hu hu' fun hu => hfinds ((finds_iff m u).mpr hu)]

/-- **There is one tree with the calls marked.** -/
theorem Marked.unique (h : Marked m t t') (h' : Marked m t t'') : t' = t'' :=
  Tree.eq_of_frames fun p => by rw [h.map_frame, h'.map_frame]

variable (m t)

/-- **Marking a tree marks it**, and does nothing else. -/
theorem marked_markTree : Marked m t (markTree m t) := by
  have hframe : ∀ p u u', at? t p = some u → at? (markTree m t) p = some u' →
      u'.frame = (searched m u).frame := by
    intro p u u' hu hu'
    rw [at?_changed (children_markTree m), hu] at hu'
    obtain rfl := Option.some.inj hu'
    exact frame_markTree m u
  refine ⟨positions_changed (children_markTree m) t, ?_, ?_⟩
  · intro p u u' hu hu' hkind haccepts hmarkers
    rw [hframe p u u' hu hu', searched, if_pos ((finds_iff m u).mpr ⟨hkind, haccepts, hmarkers⟩),
      found]
  · intro p u u' hu hu' hnot
    rw [hframe p u u' hu hu', searched, if_neg fun hfinds => hnot ((finds_iff m u).mp hfinds)]

/-! ### The recipe -/

variable {pattern : MethodPattern}

/-- The visit of a file marks the calls in its tree, and leaves the context alone. -/
theorem visitUnit_eq_markTree (unit : CompilationUnit Tree) (c : Context) :
    ∃ w : Update (CompilationUnit Tree),
      markTree m (.compilationUnit unit) = .compilationUnit (w.of unit) ∧
      visitUnit (action m) unit c = .ok (.tree (w.map .java), c) := by
  have hsearched : (fun t => (mark m t).of t) = searched m := funext (of_mark m)
  obtain ⟨w, hunit, hvisit⟩ :=
    visitUnit_of_changes (v := action m) (g := mark m) (h := fun c _ => c)
    (hsearched ▸ keepsForm_searched m) (fun _ => rfl) (fun _ => rfl)
    (fun t walk s w s' hwalk => bind_of_eq hwalk) unit c
  refine ⟨w, ?_, ?_⟩
  · rw [← Update.of_map Tree.compilationUnit, ← hunit, of_changes, hsearched]
    rfl
  · rw [hvisit, List.foldl_fixed]

/-- The visit of a file in which nothing is to be found does nothing. -/
theorem visitUnit_of_not_finds {unit : CompilationUnit Tree}
    (h : ∀ t ∈ nodes (.compilationUnit unit), finds m t = false) (c : Context) :
    visitUnit (action m) unit c = .ok (.tree .same, c) := by
  refine visitUnit_of_same (fun _ => rfl) (fun _ => rfl) (fun t ht => ?_) c
  show (pure (some (Update.same.andThen (mark m t))) : VisitM Tree Context (Except Failure) _) = _
  rw [mark_eq, h t ht]
  rfl

/-- The recipe does to a Java file what its visitor does. -/
theorem exists_apply_eq {r : FindCalls} (hpattern : MethodPattern.parse r.pattern = .ok pattern)
    (unit : CompilationUnit Tree) {c : Context} (hc : c.shared.Quiet) :
    ∃ shared : Shared, shared.Quiet ∧ ∀ d : Draft, d.source = .java unit →
      r.recipe.apply (some d) c =
        (Visited.outcome d <$> visitUnit (action (r.matcher pattern)) unit) { c with shared } := by
  refine exists_apply_gated (m := r.matcher pattern) ⟨r.pattern, hpattern⟩ ?_
    (visitUnit_same (r.matcher pattern)) hc
  show r.visitor = _
  rw [visitor, hpattern]
  rfl

/-- **The recipe marks the calls that are to be found, and does nothing else.** What comes out is
the file with its calls marked. It is printed as it was, and a second run, from any context, leaves
it the very tree that it is. -/
theorem mark_spec {r : FindCalls} (hpattern : MethodPattern.parse r.pattern = .ok pattern)
    (unit : CompilationUnit Tree) {c : Context} (hc : c.shared.Quiet) :
    ∃ w : Update (CompilationUnit Tree),
      (∃ shared : Shared, shared.Quiet ∧ ∀ d : Draft, d.source = .java unit →
        r.recipe.apply (some d) c = .ok (some (d.revise (w.map .java)), { c with shared })) ∧
      Marked (r.matcher pattern) (.compilationUnit unit) (.compilationUnit (w.of unit)) ∧
      print (Tree.compilationUnit (w.of unit)) = print (Tree.compilationUnit unit) ∧
      ∀ c₂ : Context, c₂.shared.Quiet → ∃ shared : Shared, shared.Quiet ∧
        ∀ d : Draft, d.source = .java (w.of unit) →
          r.recipe.apply (some d) c₂ = .ok (some d, { c₂ with shared }) := by
  obtain ⟨shared, hshared, happly⟩ := exists_apply_eq hpattern unit hc
  obtain ⟨w, hunit, hvisit⟩ := visitUnit_eq_markTree (r.matcher pattern) unit { c with shared }
  have hmarked := marked_markTree (r.matcher pattern) (.compilationUnit unit)
  have htext := text_markTree (r.matcher pattern) (.compilationUnit unit)
  rw [hunit] at hmarked htext
  refine ⟨w, ⟨shared, hshared, fun d hd => (happly d hd).trans (map_of_eq hvisit)⟩, hmarked,
    String.toList_inj.mp htext, fun c₂ hc₂ => ?_⟩
  obtain ⟨shared', hshared', hagain⟩ := exists_apply_eq hpattern (w.of unit) hc₂
  have hnone : ∀ t ∈ nodes (.compilationUnit (w.of unit)), finds (r.matcher pattern) t = false := by
    rw [← hunit]
    exact fun t ht => finds_of_mem_markTree _ ht
  have hvisit' := visitUnit_of_not_finds (r.matcher pattern) hnone { c₂ with shared := shared' }
  exact ⟨shared', hshared', fun d hd => (hagain d hd).trans (map_of_eq hvisit')⟩

/-- The call `b(x).b(b(y))`, in which no method is attributed. -/
def nestedCall : Tree :=
  Build.invocation (some (Build.invocation none "b" [Build.name "x" none] none)) "b"
    [Build.invocation none "b" [Build.name "y" none] none] none

/-- The pattern `A b(..)`. -/
def anyArguments : MethodPattern :=
  { text := "A b(..)"
    parts := ⟨['A'], ['b'], [['.', '.']]⟩
    type := .named [.segment ['A']] true 0
    name := .form ['b']
    parameters := [.anyTrailing] }

/-- All calls in the statement `b(x).b(b(y));` are found by their names. -/
theorem mark_spec_nestedCall :
    let r : FindCalls := { pattern := "A b(..)", fallback := .nameOnly }
    let unit := Build.unit [] [nestedCall]
    MethodPattern.parse r.pattern = .ok anyArguments ∧
      (∀ t ∈ nestedCall :: children nestedCall,
        finds (r.matcher anyArguments) t = t.call?.isSome) ∧
      ∃ w : Update (CompilationUnit Tree),
        (∃ shared : Shared, shared.Quiet ∧ ∀ d : Draft, d.source = .java unit →
          r.recipe.apply (some d) {} = .ok (some (d.revise (w.map .java)), { shared })) ∧
        Marked (r.matcher anyArguments) (.compilationUnit unit)
          (.compilationUnit (w.of unit)) := by
  have hpattern : MethodPattern.parse "A b(..)" = .ok anyArguments := by decide
  intro r unit
  obtain ⟨w, happly, hmarked, -⟩ :=
    mark_spec (r := r) hpattern unit (c := {}) Shared.quiet_fresh
  exact ⟨hpattern, by decide, w, happly, hmarked⟩

end Lossless.FindCalls
