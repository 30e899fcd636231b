import Mathlib.Data.List.Basic
import Lossless.Tree
import Lossless.Head
import Lossless.Proofs.Tree.Answers

/-!
# The places of a node

Every kind of nodes has places for its children, and what an answer does to a place depends
on three things only: whether the place can be empty, whether it is for one kind of nodes, and
which padding goes with it. `Lossless.Place` is a place with its child, and
`Lossless.Place.settle` is the one rule for all places of all kinds of nodes in all languages.

A language says where its places are (`Lossless.Anatomy.places`) and what is left of a node
without them (`Lossless.Anatomy.hollow`). Its readers then *fill* places
(`Lossless.Answers.Fills`) in the sense of the rule: one lemma for each kind of places, and
`Lossless.Answers.Fills.bind` puts a node together field by field, in the order in which its
reader goes through them.
-/

namespace Lossless

variable {τ κ α β : Type}

/-! ### Places -/

/-- The text and the markers that a child is kept with. -/
inductive Padding where
  /-- No padding. -/
  | none
  /-- A padding in front of the child. -/
  | before (text : Space) (markers : Markers)
  /-- A padding behind the child. -/
  | after (text : Space) (markers : Markers)

/-- A place with the child in it. -/
structure Place (τ κ : Type) where
  /-- The child. -/
  child : τ
  /-- What goes with the child. -/
  padding : Padding := .none
  /-- The kind of nodes that the place is for, unless it is for all. -/
  only : Option κ := none
  /-- Can the place be empty? -/
  vacatable : Bool := false

namespace Place

/-- The place with another child in it. -/
def mapChild (f : τ → τ) (p : Place τ κ) : Place τ κ := { p with child := f p.child }

/-- A place that cannot be empty. -/
def required (child : τ) : Place τ κ := { child }

/-- A place that can be empty. -/
def plain (child : τ) : Place τ κ := { child, vacatable := true }

/-- A place that can be empty, with the padding behind it. -/
def right (p : RightPadded τ) : Place τ κ :=
  { child := p.element, padding := .after p.after p.markers, vacatable := true }

/-- A place that can be empty, with the padding in front of it. -/
def left (p : LeftPadded τ) : Place τ κ :=
  { child := p.element, padding := .before p.before p.markers, vacatable := true }

section OfKind

variable (tree : α → τ) (kind : κ)

/-- A place for one kind of nodes that cannot be empty. -/
def fixed (n : α) : Place τ κ := { child := tree n, only := some kind }

/-- A place for one kind of nodes that cannot be empty, with the padding in front of it. -/
def leftFixed (p : LeftPadded α) : Place τ κ :=
  { child := tree p.element, padding := .before p.before p.markers, only := some kind }

/-- A place for one kind of nodes that can be empty. -/
def ofKind (n : α) : Place τ κ := { child := tree n, only := some kind, vacatable := true }

/-- A place for one kind of nodes that can be empty, with the padding behind it. -/
def rightOfKind (p : RightPadded α) : Place τ κ :=
  { child := tree p.element, padding := .after p.after p.markers, only := some kind,
    vacatable := true }

end OfKind

theorem plain_injective : (plain : τ → Place τ κ).Injective :=
  fun _ _ h => congrArg child h

theorem right_injective : (right : RightPadded τ → Place τ κ).Injective := by
  rintro ⟨c, t, m⟩ ⟨d, u, n⟩ h
  simp_all [right]

theorem left_injective : (left : LeftPadded τ → Place τ κ).Injective := by
  rintro ⟨t, c, m⟩ ⟨u, d, n⟩ h
  simp_all [left]

theorem ofKind_injective {tree : α → τ} (htree : tree.Injective) (k : κ) :
    (ofKind tree k).Injective :=
  fun _ _ h => htree (congrArg child h)

theorem rightOfKind_injective {tree : α → τ} (htree : tree.Injective) (k : κ) :
    (rightOfKind tree k).Injective := by
  rintro ⟨c, t, m⟩ ⟨d, u, n⟩ h
  simp only [rightOfKind, Place.mk.injEq, Padding.after.injEq] at h
  obtain ⟨hc, ⟨rfl, rfl⟩, -⟩ := h
  rw [htree hc]

/-- A field with at most one place is told by the place that it shows. -/
theorem toList_map_inj {f : α → β} (hf : f.Injective) {o p : Option α} :
    o.toList.map f = p.toList.map f ↔ o = p := by
  cases o <;> cases p <;> simp [hf.eq_iff]

end Place

/-- What the nodes of a language consist of. -/
class Anatomy (τ : Type) (κ : outParam Type) [Node τ] where
  /-- The kind of a node. -/
  kind : τ → κ
  /-- Identity, leading text and markers of a node. -/
  head : τ → Head
  /-- A node with nothing in its places: all that a walk over the children does not visit. -/
  hollow : τ → τ
  /-- The places of a node, field by field. -/
  places : τ → List (List (Place τ κ))
  /-- The kind of a node is no matter of its places. -/
  kind_hollow : ∀ t, kind (hollow t) = kind t
  /-- Neither are its identity, leading text and markers. -/
  head_hollow : ∀ t, head (hollow t) = head t
  /-- The places are for the children, in their order. -/
  map_child_places : ∀ t, (places t).flatten.map Place.child = children t
  /-- In a place for one kind of nodes there is a node of this kind. -/
  kind_of_only : ∀ t, ∀ p ∈ (places t).flatten, ∀ k ∈ p.only, kind p.child = k
  /-- A node consists of its places and of what is not in them. -/
  ext : ∀ {t u}, hollow t = hollow u → places t = places u → t = u

open Anatomy (kind hollow places)

/-- Nodes that differ in nothing but their children are of one kind. -/
theorem Anatomy.kind_eq_of_hollow [Node τ] [Anatomy τ κ] {t u : τ} (h : hollow u = hollow t) :
    kind u = kind t := by
  rw [← kind_hollow u, h, kind_hollow]

/-- And they have one head. -/
theorem Anatomy.head_eq_of_hollow [Node τ] [Anatomy τ κ] {t u : τ} (h : hollow u = hollow t) :
    Anatomy.head u = Anatomy.head t := by
  rw [← head_hollow u, h, head_hollow]

variable [Node τ] [Anatomy τ κ] [DecidableEq κ]

/-- What an answer makes of a place. Where the child is to go, it goes with its padding, unless
the place must not be empty; what is put in its place has to be of the right kind, or else the
child stays. -/
def Place.settle (p : Place τ κ) : Option (Update τ) → Option (Update (Place τ κ))
  | none => if p.vacatable then none else some .same
  | some .same => some .same
  | some (.new t) =>
    if ∀ k ∈ p.only, kind t = k then some (.new { p with child := t }) else some .same

/-- The place that an answer leaves, if it leaves one. -/
def Place.left? (p : Place τ κ) (answer : Option (Update τ)) : Option (Place τ κ) :=
  (p.settle answer).map (·.of p)

/-- What answers make of the places of a field; the places that are left stay in order. -/
def settleField (ps : List (Place τ κ)) (answers : List (Option (Update τ))) :
    List (Place τ κ) :=
  (ps.zipWith Place.left? answers).filterMap id

/-- What answers make of the places of a node, field by field. -/
def settleAll : List (List (Place τ κ)) → List (Option (Update τ)) → List (List (Place τ κ))
  | [], _ => []
  | ps :: rest, answers => settleField ps answers :: settleAll rest (answers.drop ps.length)

/-- Does any of these places change, because it loses its child or gets another one? -/
def anyChange (ps : List (Place τ κ)) (answers : List (Option (Update τ))) : Bool :=
  (ps.zipWith Place.settle answers).any (·.all Update.isNew)

/-! ### The rule at each kind of places -/

/-- Nodes of type `α` are the trees of one kind. -/
structure IsKind (tree : α → τ) (cast? : τ → Option α) (k : κ) : Prop where
  cast_tree : ∀ n, cast? (tree n) = some n
  eq_tree : ∀ {t n}, cast? t = some n → t = tree n
  isSome_cast : ∀ t, (cast? t).isSome ↔ kind t = k

omit [DecidableEq κ] in
/-- A node made by the constructor of a kind is of this kind. -/
theorem IsKind.kind_tree {tree : α → τ} {cast? : τ → Option α} {k : κ}
    (h : IsKind tree cast? k) (n : α) : kind (tree n) = k := by
  rw [← h.isSome_cast, h.cast_tree]
  rfl

section Settle

variable {tree : α → τ} {cast? : τ → Option α} {k : κ}

/-- A place without a kind of its own takes every node. -/
theorem settle_some_of_any {p : Place τ κ} (honly : p.only = none) (w : Update τ) :
    p.settle (some w) = some (w.map fun t => { p with child := t }) := by
  cases w with
  | same => rfl
  | new t => simp [Place.settle, honly, Update.map]

/-- A place for one kind of nodes takes the nodes of this kind. -/
theorem settle_some_of_only (h : IsKind tree cast? k) {p : Place τ κ} (honly : p.only = some k)
    (w : Update τ) :
    p.settle (some w) =
      (Answers.place cast? (some w)).map (·.map fun n => { p with child := tree n }) := by
  cases w with
  | same => rfl
  | new t =>
    have hkind := h.isSome_cast t
    cases hcast : cast? t with
    | none =>
      have hne : ¬kind t = k := by simpa [hcast] using hkind
      simp [Place.settle, honly, hne, Answers.place, hcast, Update.map]
    | some n =>
      rw [h.eq_tree hcast]
      simp [Place.settle, honly, h.kind_tree, Answers.place, h.cast_tree, Update.map]

/-- A child that must stand keeps its place whatever the answer. -/
theorem settle_required (c : τ) (answer : Option (Update τ)) :
    (Place.required c : Place τ κ).settle answer =
      some ((answer.getD .same).map .required) := by
  cases answer with
  | none => rfl
  | some w => exact settle_some_of_any rfl w

theorem settle_plain (c : τ) (answer : Option (Update τ)) :
    (Place.plain c : Place τ κ).settle answer = (Answers.plain c answer).map (·.map .plain) := by
  cases answer with
  | none => rfl
  | some w => exact settle_some_of_any rfl w

theorem settle_right (p : RightPadded τ) (answer : Option (Update τ)) :
    (Place.right p : Place τ κ).settle answer = (Answers.right p answer).map (·.map .right) := by
  cases answer with
  | none => rfl
  | some w =>
    rw [Answers.right, Option.map_some, Option.map_some, Update.map_map]
    exact settle_some_of_any rfl w

theorem settle_left (p : LeftPadded τ) (answer : Option (Update τ)) :
    (Place.left p : Place τ κ).settle answer = (Answers.left p answer).map (·.map .left) := by
  cases answer with
  | none => rfl
  | some w =>
    rw [Answers.left, Option.map_some, Option.map_some, Update.map_map]
    exact settle_some_of_any rfl w

/-- A child of one kind that must stand keeps its place where the answer is of another kind. -/
theorem settle_fixed (h : IsKind tree cast? k) (n : α) (answer : Option (Update τ)) :
    (Place.fixed tree k n).settle answer =
      some (((Answers.place cast? answer).getD .same).map (.fixed tree k)) := by
  cases answer with
  | none => rfl
  | some w =>
    rw [settle_some_of_only h rfl w]
    cases w <;> rfl

/-- The same for a child with a text in front of it. -/
theorem settle_leftFixed (h : IsKind tree cast? k) (p : LeftPadded α)
    (answer : Option (Update τ)) :
    (Place.leftFixed tree k p).settle answer =
      some (((Answers.place cast? answer).getD .same).map fun n =>
        .leftFixed tree k (p.withElement n)) := by
  cases answer with
  | none => rfl
  | some w =>
    rw [settle_some_of_only h rfl w]
    cases w <;> rfl

/-- A child of one kind in a list is left out where there is no answer, and stays where the answer
is of another kind. -/
theorem settle_ofKind (h : IsKind tree cast? k) (n : α) (answer : Option (Update τ)) :
    (Place.ofKind tree k n).settle answer =
      (Answers.plainFixed cast? n answer).map (·.map (.ofKind tree k)) := by
  cases answer with
  | none => rfl
  | some w => exact settle_some_of_only h rfl w

/-- The same for a child with a text behind it. -/
theorem settle_rightOfKind (h : IsKind tree cast? k) (p : RightPadded α)
    (answer : Option (Update τ)) :
    (Place.rightOfKind tree k p).settle answer =
      (Answers.rightFixed cast? p answer).map (·.map (.rightOfKind tree k)) := by
  cases answer with
  | none => rfl
  | some w =>
    rw [settle_some_of_only h rfl w, Answers.rightFixed, Option.map_map]
    congr 1
    funext w
    exact (Update.map_map p.withElement (Place.rightOfKind tree k) w).symm

end Settle

/-! ### Field by field -/

omit [Node τ] [Anatomy τ κ] [DecidableEq κ] in
/-- A field has no use for answers beyond its places. -/
theorem zipWith_take (f : Place τ κ → Option (Update τ) → α) (ps : List (Place τ κ))
    (answers : List (Option (Update τ))) :
    ps.zipWith f (answers.take ps.length) = ps.zipWith f answers := by
  induction ps generalizing answers with
  | nil => rfl
  | cons p ps ih =>
    cases answers with
    | nil => rfl
    | cons a as => exact congrArg (f p a :: ·) (ih as)

/-- A field reads no more answers than it has places. -/
theorem settleField_take (ps : List (Place τ κ)) (answers : List (Option (Update τ))) :
    settleField ps (answers.take ps.length) = settleField ps answers := by
  rw [settleField, zipWith_take, settleField]

/-- Places one behind the other have changed where those in front or those behind have, by their own
answers. -/
theorem anyChange_append (ps qs : List (Place τ κ)) (answers : List (Option (Update τ)))
    (h : answers.length = ps.length + qs.length) :
    anyChange (ps ++ qs) answers =
      (anyChange ps (answers.take ps.length) || anyChange qs (answers.drop ps.length)) := by
  have htake : ps.length = (answers.take ps.length).length := by
    rw [List.length_take]; omega
  conv_lhs => rw [← List.take_append_drop ps.length answers]
  rw [anyChange, List.zipWith_append htake, List.any_append]
  rfl

/-- No place changes exactly if each of them keeps its child. -/
theorem anyChange_eq_false_iff {ps : List (Place τ κ)} {answers : List (Option (Update τ))} :
    anyChange ps answers = false ↔
      ∀ x ∈ ps.zip answers, x.1.settle x.2 = some .same := by
  have hsame (o : Option (Update (Place τ κ))) :
      o.all Update.isNew = false ↔ o = some .same := by
    cases o with
    | none => simp
    | some w => simp [Update.isNew_eq_false_iff]
  rw [anyChange, ← List.map_uncurry_zip_eq_zipWith, List.any_map, List.any_eq_false]
  simp only [Function.comp_apply, Bool.not_eq_true, hsame, Function.uncurry_def]

namespace Answers

/-! ### Readers that fill places -/

/-- A reader takes off one answer for each of some places, notes whether any of them changes,
and what it gives fits to what the answers make of them. -/
def Fills (x : Answers τ α) (ps : List (Place τ κ)) (Q : α → List (Place τ κ) → Prop) : Prop :=
  ∀ as, as.length = ps.length → ∃ a, Reads x as a (anyChange ps as) ∧ Q a (settleField ps as)

/-- The same for several fields. -/
def FillsAll (x : Answers τ α) (pss : List (List (Place τ κ)))
    (Q : α → List (List (Place τ κ)) → Prop) : Prop :=
  ∀ as, as.length = pss.flatten.length →
    ∃ a, Reads x as a (anyChange pss.flatten as) ∧ Q a (settleAll pss as)

theorem FillsAll.pure {a : α} {Q : α → List (List (Place τ κ)) → Prop} (h : Q a []) :
    FillsAll (Pure.pure a) [] Q := by
  intro as has
  rw [List.length_eq_zero_iff.mp has]
  exact ⟨a, .pure a, h⟩

/-- **A node is read field by field.** -/
theorem Fills.bind {x : Answers τ α} {f : α → Answers τ β} {ps : List (Place τ κ)}
    {pss : List (List (Place τ κ))} {P : α → List (Place τ κ) → Prop}
    {Q : β → List (List (Place τ κ)) → Prop} (hx : Fills x ps P)
    (hf : ∀ a qs, P a qs → FillsAll (f a) pss fun b qss => Q b (qs :: qss)) :
    FillsAll (x >>= f) (ps :: pss) Q := by
  intro as has
  rw [List.flatten_cons, List.length_append] at has
  have htake : (as.take ps.length).length = ps.length := by
    rw [List.length_take]; omega
  have hdrop : (as.drop ps.length).length = pss.flatten.length := by
    rw [List.length_drop]; omega
  obtain ⟨a, hread, hP⟩ := hx _ htake
  obtain ⟨b, hreadAll, hQ⟩ := hf a _ hP _ hdrop
  refine ⟨b, .cast (List.take_append_drop _ _) rfl ?_ (hread.bind hreadAll), ?_⟩
  · rw [List.flatten_cons, anyChange_append ps pss.flatten as has]
  · rw [settleField_take] at hQ
    exact hQ

/-! ### The readers of single fields

`view` says how a field shows its places. -/

/-- A field shows these places. -/
def Shows (view : α → List (Place τ κ)) (a : α) (ps : List (Place τ κ)) : Prop := view a = ps

/-- A place that cannot be empty is filled by what an answer makes of its child. -/
theorem fills_kept {child : α} {place : Option (Update τ) → Option (Update α)}
    (shown : α → Place τ κ)
    (hsettle : ∀ a, (shown child).settle a = some (((place a).getD .same).map shown)) :
    Fills (do keep child (place (← next))) [shown child] (Shows fun c => [shown c]) := by
  intro as has
  obtain ⟨a, rfl⟩ := List.length_eq_one_iff.mp has
  refine ⟨_, .cast rfl rfl ?_ (reads_kept child place a), ?_⟩
  · simp [anyChange, hsettle]
  · simp [Shows, settleField, Place.left?, hsettle]

/-- A child that must stand fills its place. -/
theorem fills_required (child : τ) :
    Fills (required child) [.required child] (Shows fun c => [(.required c : Place τ κ)]) :=
  fills_kept .required (settle_required child)

section OfKind

variable {tree : α → τ} {cast? : τ → Option α} {k : κ}

/-- So does a child of one kind. -/
theorem fills_fixed (h : IsKind tree cast? k) (n : α) :
    Fills (fixed cast? n) [.fixed tree k n] (Shows fun n => [.fixed tree k n]) :=
  fills_kept (.fixed tree k) (settle_fixed h n)

/-- And so does one with a text in front of it. -/
theorem fills_leftFixed (h : IsKind tree cast? k) (p : LeftPadded α) :
    Fills (fixed cast? p.element) [.leftFixed tree k p]
      (Shows fun n => [.leftFixed tree k (p.withElement n)]) :=
  fills_kept (fun n => .leftFixed tree k (p.withElement n)) (settle_leftFixed h p)

end OfKind

section Lists

variable {place : α → Option (Update τ) → Option (Update α)} {shown : α → Place τ κ}

/-- A child that may be missing fills its place if there is one. -/
theorem fills_optional
    (hsettle : ∀ c a, (shown c).settle a = (place c a).map (·.map shown)) (o : Option α) :
    Fills (optional place o) (o.toList.map shown) (Shows fun o => o.toList.map shown) := by
  intro as has
  cases o with
  | none =>
    rw [List.length_eq_zero_iff.mp has]
    exact ⟨none, .pure none, rfl⟩
  | some c =>
    obtain ⟨a, rfl⟩ := List.length_eq_one_iff.mp has
    refine ⟨_, .cast rfl rfl ?_ (reads_left c place a), ?_⟩
    · cases hplace : place c a <;> simp [anyChange, hsettle, hplace]
    · cases hplace : place c a <;> simp [Shows, settleField, Place.left?, hsettle, hplace]

/-- A list of children fills the places of its elements. -/
theorem fills_list
    (hsettle : ∀ c a, (shown c).settle a = (place c a).map (·.map shown)) (cs : List α) :
    Fills (list place cs) (cs.map shown) (Shows fun cs => cs.map shown) := by
  intro as has
  have hchange (o : Option (Update α)) :
      (o.map (·.map shown)).all Update.isNew = o.all Update.isNew := by
    cases o <;> simp
  have hleft (c : α) (a : Option (Update τ)) :
      (shown c).left? a = ((place c a).map (·.of c)).map shown := by
    cases hplace : place c a <;> simp [Place.left?, hsettle, hplace]
  refine ⟨_, .cast rfl rfl ?_ (reads_list place (by simpa using has)), ?_⟩
  · rw [anyChange, List.zipWith_map_left]
    simp only [hsettle, ← List.map_zipWith, List.any_map, Function.comp_def, hchange]
  · rw [Shows, settleField, List.zipWith_map_left]
    simp only [hleft, ← List.map_zipWith, List.filterMap_map]
    rw [List.map_filterMap]
    rfl

end Lists

/-- A list in delimiters keeps them. -/
theorem fills_container (c : Container τ) :
    Fills (container c) (c.padded.map .right) fun d ps =>
      Shows (fun d => d.padded.map (.right : _ → Place τ κ)) d ps ∧
        d.withPadded [] = c.withPadded [] := by
  intro as has
  obtain ⟨padded, hread, hshows⟩ := fills_list settle_right c.padded as has
  exact ⟨_, hread.map c.withPadded, hshows, rfl⟩

end Answers

end Lossless
