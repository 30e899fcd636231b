import Mathlib.Data.List.Forall2
import Lossless.Proofs.Tree.Places

/-!
# Nodes with settled places

What answers for its children make of a node (`Lossless.Settled`): its places are settled by
them, all else stays, and it is the very same node exactly if no place changes. A reader that
fills the places makes this of a node (`Lossless.Answers.FillsAll.settled`), and for the nodes of
a language whose readers all do it is what an update does (`Lossless.LawfulNode`).

If the answers are nodes of the kinds that were there, every place takes what it is offered, and
keeps its padding (`Lossless.Settled.children_eq`, `Lossless.Settled.paddings_eq`). Whatever the
answers are, every child was there before or is one of them
(`Lossless.Settled.child_or_answer`). Where no child is to go, only the nodes count that the
answers lead to, and not which of them are new (`Lossless.of_update`).
-/

namespace Lossless

open Anatomy (kind head hollow places)

variable {τ κ : Type} [Node τ] [Anatomy τ κ]

/-- The paddings of the places of a node, field by field. -/
def paddings (t : τ) : List (List Padding) := (places t).map fun ps => ps.map Place.padding

variable [DecidableEq κ]

/-- What answers for the children make of a node. -/
structure Settled (t : τ) (answers : List (Option (Update τ))) (w : Update τ) : Prop where
  /-- It is of the kind that it was. -/
  kind_eq : kind (w.of t) = kind t
  /-- It has the identity, the leading text and the markers that it had. -/
  head_eq : head (w.of t) = head t
  /-- What is not in its places is what it was. -/
  hollow_eq : hollow (w.of t) = hollow t
  /-- Its places are those that it had, each with what the answer for its child makes of it. -/
  places_eq : places (w.of t) = settleAll (places t) answers
  /-- It is the very same node exactly if the answers leave the very same child in each place. -/
  same_iff : w = .same ↔ ∀ x ∈ (places t).flatten.zip answers, x.1.settle x.2 = some .same

/-- Nodes that are updated in this sense. -/
class LawfulNode (τ : Type) (κ : outParam Type) [Node τ] [Anatomy τ κ] [DecidableEq κ] : Prop where
  /-- An update settles the places. -/
  settled_update : ∀ (t : τ) (answers : List (Option (Update τ))),
    answers.length = (children t).length → Settled t answers (update t answers)

export LawfulNode (settled_update)

/-- What becomes of a node that is offered other children. -/
theorem settled_offer [LawfulNode τ κ] {t : τ} {us : List τ}
    (h : us.length = (children t).length) : Settled t (offer us) (update t (offer us)) :=
  settled_update t (offer us) (by rw [offer, List.length_map, h])

/-! ### Readers settle places -/

/-- A field of which no place changes is left as it is. -/
theorem settleField_eq_self {ps : List (Place τ κ)} {answers : List (Option (Update τ))}
    (hlength : answers.length = ps.length)
    (h : ∀ x ∈ ps.zip answers, x.1.settle x.2 = some .same) : settleField ps answers = ps := by
  induction ps generalizing answers with
  | nil => rfl
  | cons p ps ih =>
    obtain ⟨a, as, rfl⟩ := List.exists_cons_of_length_eq_add_one hlength
    rw [List.zip_cons_cons, List.forall_mem_cons] at h
    have hp : p.left? a = some p := by
      rw [Place.left?, h.1, Option.map_some, Update.of_same]
    have hps := ih (Nat.succ.inj hlength) h.2
    rw [settleField] at hps
    rw [settleField, List.zipWith_cons_cons, hp]
    exact congrArg (p :: ·) hps

/-- **A node of which no place changes is left as it is.** -/
theorem settleAll_eq_self {pss : List (List (Place τ κ))} {answers : List (Option (Update τ))}
    (hlength : answers.length = pss.flatten.length)
    (h : ∀ x ∈ pss.flatten.zip answers, x.1.settle x.2 = some .same) :
    settleAll pss answers = pss := by
  induction pss generalizing answers with
  | nil => rfl
  | cons ps pss ih =>
    rw [List.flatten_cons, List.length_append] at hlength
    have htake : (answers.take ps.length).length = ps.length := by
      rw [List.length_take]; omega
    have hdrop : (answers.drop ps.length).length = pss.flatten.length := by
      rw [List.length_drop]; omega
    have hzip : (ps ++ pss.flatten).zip answers =
        ps.zip (answers.take ps.length) ++ pss.flatten.zip (answers.drop ps.length) := by
      rw [← List.zip_append htake.symm, List.take_append_drop]
    rw [List.flatten_cons, hzip, List.forall_mem_append] at h
    rw [settleAll, ih hdrop h.2, ← settleField_take, settleField_eq_self htake h.1]

/-- **A reader that fills the places of a node settles them.** -/
theorem Answers.FillsAll.settled {x : Answers τ τ} {t : τ} {answers : List (Option (Update τ))}
    (hfills : FillsAll x (places t) fun u pss => hollow u = hollow t ∧ places u = pss)
    (hlength : answers.length = (children t).length) :
    Settled t answers (x.result answers) := by
  have hplaces : answers.length = (places t).flatten.length := by
    rw [hlength, ← Anatomy.map_child_places, List.length_map]
  obtain ⟨u, hread, hhollow, hsettle⟩ := hfills answers hplaces
  rw [hread.result]
  cases hchange : anyChange (places t).flatten answers with
  | true =>
    rw [if_pos rfl]
    refine ⟨Anatomy.kind_eq_of_hollow hhollow, ?_, hhollow, hsettle, ?_⟩
    · rw [Update.of_new, Anatomy.head_eq_of_hollow hhollow]
    · rw [← anyChange_eq_false_iff, hchange]
      simp
  | false =>
    rw [if_neg Bool.false_ne_true]
    have hkept := anyChange_eq_false_iff.mp hchange
    exact ⟨rfl, rfl, rfl, (settleAll_eq_self hplaces hkept).symm, iff_of_true rfl hkept⟩

/-! ### Where children come from -/

/-- What stands in a settled place is the child that stood there or the new node of the answer. -/
theorem child_of_settle {p q : Place τ κ} {answer : Option (Update τ)}
    (h : p.left? answer = some q) :
    q.child = p.child ∨ some (Update.new q.child) = answer := by
  rw [Place.left?] at h
  cases answer with
  | none =>
    rw [Place.settle] at h
    split at h
    · cases h
    · obtain rfl := Option.some.inj h
      exact .inl rfl
  | some w =>
    cases w with
    | same =>
      obtain rfl := Option.some.inj h
      exact .inl rfl
    | new t =>
      rw [Place.settle] at h
      split at h
      · obtain rfl := Option.some.inj h
        exact .inr rfl
      · obtain rfl := Option.some.inj h
        exact .inl rfl

/-- What stands in a settled field is a child that stood there or a new node of an answer. -/
theorem child_of_mem_settleField {ps : List (Place τ κ)} {answers : List (Option (Update τ))}
    {q : Place τ κ} (h : q ∈ settleField ps answers) :
    (∃ p ∈ ps, q.child = p.child) ∨ some (.new q.child) ∈ answers := by
  rw [settleField, ← List.map_uncurry_zip_eq_zipWith, List.filterMap_map] at h
  obtain ⟨⟨p, answer⟩, hzip, hsettle⟩ := List.mem_filterMap.mp h
  obtain ⟨hp, hanswer⟩ := List.of_mem_zip hzip
  rcases child_of_settle hsettle with hchild | hchild
  · exact .inl ⟨p, hp, hchild⟩
  · exact .inr (hchild ▸ hanswer)

/-- What stands in all the settled fields is a child that stood there or a new node of an answer. -/
theorem child_of_mem_settleAll {pss : List (List (Place τ κ))}
    {answers : List (Option (Update τ))} {q : Place τ κ}
    (h : q ∈ (settleAll pss answers).flatten) :
    (∃ p ∈ pss.flatten, q.child = p.child) ∨ some (.new q.child) ∈ answers := by
  induction pss generalizing answers with
  | nil => cases h
  | cons ps pss ih =>
    rw [settleAll, List.flatten_cons, List.mem_append] at h
    rw [List.flatten_cons]
    rcases h with h | h
    · rcases child_of_mem_settleField h with ⟨p, hp, hchild⟩ | hanswer
      · exact .inl ⟨p, List.mem_append_left _ hp, hchild⟩
      · exact .inr hanswer
    · rcases ih h with ⟨p, hp, hchild⟩ | hanswer
      · exact .inl ⟨p, List.mem_append_right _ hp, hchild⟩
      · exact .inr (List.mem_of_mem_drop hanswer)

/-- **A child was there before, or it is an answer.** -/
theorem Settled.child_or_answer {t c : τ} {w : Update τ} {answers : List (Option (Update τ))}
    (h : Settled t answers w) (hc : c ∈ children (w.of t)) :
    c ∈ children t ∨ some (.new c) ∈ answers := by
  rw [← Anatomy.map_child_places, h.places_eq] at hc
  obtain ⟨q, hq, rfl⟩ := List.mem_map.mp hc
  refine (child_of_mem_settleAll hq).imp_left ?_
  rintro ⟨p, hp, hchild⟩
  rw [hchild, ← Anatomy.map_child_places]
  exact List.mem_map_of_mem hp

/-! ### Answers that are taken -/

/-- A place takes a node of the right kind. -/
theorem left?_new {p : Place τ κ} {t : τ} (h : ∀ k ∈ p.only, kind t = k) :
    p.left? (some (.new t)) = some { p with child := t } := by
  rw [Place.left?, Place.settle, if_pos h]
  rfl

/-- These nodes can stand in these places, one by one. -/
def CanStand (ps : List (Place τ κ)) (ts : List τ) : Prop :=
  List.Forall₂ (fun p t => ∀ k ∈ p.only, kind t = k) ps ts

/-- Nodes offered to the places of a field where they can stand take those places with the paddings
kept. -/
theorem map_settleField_offer {ps : List (Place τ κ)} {ts : List τ} (h : CanStand ps ts) :
    (settleField ps (offer ts)).map Place.padding = ps.map Place.padding ∧
      (settleField ps (offer ts)).map Place.child = ts := by
  induction h with
  | nil => exact ⟨rfl, rfl⟩
  | @cons p t ps ts hp _ ih =>
    have hcons : settleField (p :: ps) (offer (t :: ts)) =
        { p with child := t } :: settleField ps (offer ts) := by
      rw [settleField, offer, List.map_cons, List.zipWith_cons_cons, left?_new hp]
      rfl
    rw [hcons]
    exact ⟨congrArg (p.padding :: ·) ih.1, congrArg (t :: ·) ih.2⟩

/-- And so they do in all the fields together. -/
theorem map_settleAll_offer {pss : List (List (Place τ κ))} {ts : List τ}
    (h : CanStand pss.flatten ts) :
    ((settleAll pss (offer ts)).map fun ps => ps.map Place.padding) =
        pss.map (fun ps => ps.map Place.padding) ∧
      (settleAll pss (offer ts)).flatten.map Place.child = ts := by
  induction pss generalizing ts with
  | nil =>
    cases h
    exact ⟨rfl, rfl⟩
  | cons ps pss ih =>
    have htake : CanStand ps (ts.take ps.length) :=
      (List.forall₂_take_append ts ps pss.flatten h.flip).flip
    have hdrop : CanStand pss.flatten (ts.drop ps.length) :=
      (List.forall₂_drop_append ts ps pss.flatten h.flip).flip
    obtain ⟨hpadding, hchild⟩ := map_settleField_offer htake
    obtain ⟨hpaddings, hchildren⟩ := ih hdrop
    rw [offer, List.map_take, settleField_take] at hpadding hchild
    rw [settleAll, offer, ← List.map_drop]
    constructor
    · rw [List.map_cons, List.map_cons, hpadding]
      exact congrArg _ hpaddings
    · rw [List.flatten_cons, List.map_append, hchild]
      exact (congrArg _ hchildren).trans (List.take_append_drop _ _)

/-- Other children of the right kinds come in the places of the old ones. -/
theorem settleAll_offer_map {pss : List (List (Place τ κ))} {f : τ → τ}
    (h : ∀ p ∈ pss.flatten, ∀ k ∈ p.only, kind (f p.child) = k) :
    settleAll pss (offer (pss.flatten.map fun p => f p.child)) =
      pss.map fun ps => ps.map (Place.mapChild f) := by
  induction pss with
  | nil => rfl
  | cons ps pss ih =>
    rw [List.flatten_cons, List.forall_mem_append] at h
    have hfield : settleField ps (offer (ps.map fun p => f p.child)) =
        ps.map (Place.mapChild f) := by
      have hleft : (ps.map fun p => p.left? (some (.new (f p.child)))) =
          ps.map fun p => some (p.mapChild f) :=
        List.map_congr_left fun p hp => left?_new (h.1 p hp)
      rw [settleField, offer, List.map_map, List.zipWith_map_right, List.zipWith_self]
      show (ps.map fun p => p.left? (some (.new (f p.child)))).filterMap id = _
      rw [hleft, List.filterMap_map]
      exact congrFun List.filterMap_eq_map ps
    have hlength : ps.length = (offer (ps.map fun p => f p.child)).length := by
      rw [offer, List.length_map, List.length_map]
    rw [settleAll, List.flatten_cons, List.map_append, offer, List.map_append, ← offer, ← offer,
      ← settleField_take, List.take_left' hlength.symm, List.drop_left' hlength.symm, hfield,
      ih h.2, List.map_cons]

section SameKinds

variable {t : τ} {w : Update τ} {us : List τ}

omit [DecidableEq κ] in
/-- Nodes can stand where nodes of their kinds stand. -/
theorem canStand_of_kinds (h : List.Forall₂ (fun c u => kind u = kind c) (children t) us) :
    CanStand (places t).flatten us := by
  rw [← Anatomy.map_child_places, List.forall₂_map_left_iff] at h
  refine List.forall₂_iff_zip.mpr ⟨h.length_eq, fun {p u} hpu k hk => ?_⟩
  rw [List.forall₂_zip h hpu]
  exact Anatomy.kind_of_only t p (List.of_mem_zip hpu).1 k hk

/-- **Nodes of the same kinds become the children.** -/
theorem Settled.children_eq (hsettled : Settled t (offer us) w)
    (h : List.Forall₂ (fun c u => kind u = kind c) (children t) us) :
    children (w.of t) = us := by
  rw [← Anatomy.map_child_places, hsettled.places_eq]
  exact (map_settleAll_offer (canStand_of_kinds h)).2

/-- **They get the paddings that were there.** -/
theorem Settled.paddings_eq (hsettled : Settled t (offer us) w)
    (h : List.Forall₂ (fun c u => kind u = kind c) (children t) us) :
    paddings (w.of t) = paddings t := by
  rw [paddings, paddings, hsettled.places_eq]
  exact (map_settleAll_offer (canStand_of_kinds h)).1

end SameKinds

/-! ### Answers that let no child go -/

/-- In a place that keeps its child or gets another one, only the child counts that the answer
leads to. -/
theorem left?_some {p : Place τ κ} (h : ∀ k ∈ p.only, kind p.child = k) (w : Update τ) :
    p.left? (some w) = p.left? (some (.new (w.of p.child))) := by
  cases w with
  | same => rw [Update.of_same, left?_new h]; rfl
  | new t => rfl

/-- Answers that let no child go leave the same as what they lead to. -/
theorem zipWith_left?_some {ps : List (Place τ κ)}
    (h : ∀ p ∈ ps, ∀ k ∈ p.only, kind p.child = k) (ws : List (Update τ)) :
    ps.zipWith Place.left? (ws.map some) =
      ps.zipWith Place.left? (offer ((ps.map Place.child).zipWith (fun c w => w.of c) ws)) := by
  induction ps generalizing ws with
  | nil => rfl
  | cons p ps ih =>
    cases ws with
    | nil => rfl
    | cons w ws =>
      rw [List.forall_mem_cons] at h
      exact congrArg₂ List.cons (left?_some h.1 w) (ih h.2 ws)

/-- What becomes of the places is said place by place. -/
theorem settleAll_congr {pss : List (List (Place τ κ))} {as bs : List (Option (Update τ))}
    (h : pss.flatten.zipWith Place.left? as = pss.flatten.zipWith Place.left? bs) :
    settleAll pss as = settleAll pss bs := by
  induction pss generalizing as bs with
  | nil => rfl
  | cons ps pss ih =>
    have hfield := congrArg (List.take ps.length) h
    have hrest := congrArg (List.drop ps.length) h
    rw [List.flatten_cons, List.take_zipWith, List.take_zipWith, List.take_left, zipWith_take,
      zipWith_take] at hfield
    rw [List.flatten_cons, List.drop_zipWith, List.drop_zipWith, List.drop_left] at hrest
    rw [settleAll, settleAll, settleField, settleField, hfield, ih hrest]

omit [Anatomy τ κ] [DecidableEq κ] in
/-- Functions that agree on the children of a node map its children alike. -/
theorem mapChildren_congr {f g : τ → τ} {t : τ} (h : ∀ c ∈ children t, f c = g c) :
    mapChildren f t = mapChildren g t := by
  rw [mapChildren, mapChildren, List.map_congr_left h]

section Lawful

variable [LawfulNode τ κ]

section Rebuild

variable {t : τ} {us : List τ}

/-- A node with other children is of the kind that it was. -/
theorem kind_rebuild (h : us.length = (children t).length) : kind (rebuild t us) = kind t :=
  (settled_offer h).kind_eq

/-- It has the identity, the leading text and the markers that it had. -/
theorem head_rebuild (h : us.length = (children t).length) : head (rebuild t us) = head t :=
  (settled_offer h).head_eq

/-- What is not in its places is what it was. -/
theorem hollow_rebuild (h : us.length = (children t).length) :
    hollow (rebuild t us) = hollow t :=
  (settled_offer h).hollow_eq

/-- Nodes of the same kinds become its children. -/
theorem children_rebuild (h : List.Forall₂ (fun c u => kind u = kind c) (children t) us) :
    children (rebuild t us) = us :=
  (settled_offer h.length_eq.symm).children_eq h

/-- They get the paddings that were there. -/
theorem paddings_rebuild (h : List.Forall₂ (fun c u => kind u = kind c) (children t) us) :
    paddings (rebuild t us) = paddings t :=
  (settled_offer h.length_eq.symm).paddings_eq h

/-- A change of the children takes place in their places. -/
theorem places_mapChildren {f : τ → τ}
    (h : ∀ p ∈ (places t).flatten, ∀ k ∈ p.only, kind (f p.child) = k) :
    places (mapChildren f t) = (places t).map fun ps => ps.map (Place.mapChild f) := by
  rw [mapChildren, rebuild, (settled_offer (List.length_map _)).places_eq,
    ← Anatomy.map_child_places, List.map_map]
  exact settleAll_offer_map h

end Rebuild

include κ

/-- **Where no child is to go, only the nodes count that the answers lead to**, and not which
of them are new. -/
theorem of_update {t : τ} {ws : List (Update τ)} (h : ws.length = (children t).length) :
    (update t (ws.map some)).of t =
      rebuild t ((children t).zipWith (fun c w => w.of c) ws) := by
  have hlength : ((children t).zipWith (fun c w => w.of c) ws).length = (children t).length := by
    rw [List.length_zipWith, h, Nat.min_self]
  have hgiven := settled_update t (ws.map some) (by rw [List.length_map, h])
  have hoffered := settled_offer hlength
  refine Anatomy.ext (hgiven.hollow_eq.trans hoffered.hollow_eq.symm) ?_
  rw [hgiven.places_eq]
  refine .trans (settleAll_congr ?_) hoffered.places_eq.symm
  rw [← Anatomy.map_child_places]
  exact zipWith_left?_some (Anatomy.kind_of_only t) ws

/-- The same for updates that the children themselves determine. -/
theorem of_update_map (f : τ → Update τ) (t : τ) :
    (update t ((children t).map fun c => some (f c))).of t =
      mapChildren (fun c => (f c).of c) t := by
  have hof : (update t (((children t).map f).map some)).of t = _ := of_update (List.length_map _)
  rw [List.map_map, List.zipWith_map_right, List.zipWith_self] at hof
  exact hof

/-- **A node stays the very same if all of its children do.** -/
theorem update_same (t : τ) : update t ((children t).map fun _ => some .same) = .same := by
  refine (settled_update t _ (List.length_map ..)).same_iff.mpr fun x hx => ?_
  obtain ⟨-, ha⟩ := List.of_mem_zip hx
  obtain ⟨_, -, hsame⟩ := List.mem_map.mp ha
  rw [← hsame]
  rfl

/-- **Children that are set to other nodes**, of the kinds that they have, set their node: it stays
the same exactly if all of them do. -/
theorem update_setting [DecidableEq τ] {f : τ → τ} {t : τ}
    (h : ∀ c ∈ children t, kind (f c) = kind c) :
    update t ((children t).map fun c => some (.setting c (f c))) =
      .setting t (mapChildren f t) := by
  have hof := of_update_map (fun c => .setting c (f c)) t
  simp only [Update.of_setting] at hof
  by_cases hself : mapChildren f t = t
  · have hkinds : List.Forall₂ (fun c u => kind u = kind c) (children t) ((children t).map f) := by
      rw [List.forall₂_map_right_iff, List.forall₂_same]
      exact h
    have hchildren : (children t).map f = (children t).map id := by
      rw [List.map_id, ← children_rebuild hkinds, ← mapChildren, hself]
    have hsame : (children t).map (fun c => some (Update.setting c (f c))) =
        (children t).map fun _ => some .same :=
      List.map_congr_left fun c hc => congrArg some (if_pos (List.map_inj_left.mp hchildren c hc))
    rw [hsame, update_same, Update.setting, if_pos hself]
  · rw [Update.setting, if_neg hself, ← hof]
    cases hw : update t ((children t).map fun c => some (.setting c (f c))) with
    | same =>
      rw [hw] at hof
      exact absurd hof.symm hself
    | new u => rfl

/-- **A node with its own children put back is what it was.** -/
theorem rebuild_children (t : τ) : rebuild t (children t) = t := by
  have hof := of_update_map (fun _ => .same) t
  simp only [update_same, mapChildren, Update.of_same, List.map_id'] at hof
  exact hof.symm

/-- A function that changes no child leaves the node. -/
theorem mapChildren_eq_self {f : τ → τ} {t : τ} (h : ∀ c ∈ children t, f c = c) :
    mapChildren f t = t := by
  rw [mapChildren, List.map_congr_left h, List.map_id', rebuild_children]

end Lawful

end Lossless
