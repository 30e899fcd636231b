import Mathlib.Data.List.Forall2
import Lossless.Proofs.Tree.Positions
import Lossless.Proofs.Tree.Settled

/-!
# Exchanging nodes

Nodes at some positions of a tree are replaced (`Lossless.replace`), and all others are put
together again around them. In the text this exchanges the text of each replaced node for that
of its replacement, and nothing else: that is the meaning of `Lossless.Exchanged`, which takes
both texts apart into the exchanged parts and the gaps between them, and the gaps are the same
in both.

This needs of a language that a node which takes other nodes in its places prints around them
what it printed before, as long as they fit there (`Lossless.Accommodates`). What it means to
fit is a matter of the language, and so is the proof; from there on
`Lossless.Accommodates.exchanged_replace` goes for all languages.
-/

namespace Lossless

variable {τ : Type}

/-! ### Texts with exchanged parts -/

/-- A part of a text that makes way for another. -/
structure Exchange where
  /-- Where the part starts. -/
  start : Nat
  /-- The characters of the part. -/
  old : List Char
  /-- The characters that come in its place. -/
  new : List Char
deriving DecidableEq

/-- The same part, if the text stands behind `n` other characters. -/
def Exchange.shift (n : Nat) (e : Exchange) : Exchange := { e with start := n + e.start }

@[simp]
theorem Exchange.shift_shift (n k : Nat) (e : Exchange) :
    shift n (shift k e) = shift (n + k) e := by
  rw [shift, shift, shift, Nat.add_assoc]

/-- The second text is the first one with these parts exchanged, from left to right; the first
text starts at `n`. -/
inductive Exchanged : Nat → List Exchange → List Char → List Char → Prop
  /-- Nothing is exchanged. -/
  | done (n : Nat) (gap : List Char) : Exchanged n [] gap gap
  /-- Something is exchanged behind a gap, and then more. -/
  | next {n : Nat} {e : Exchange} {es : List Exchange} {gap rest rest' : List Char}
      (hstart : e.start = n + gap.length)
      (hrest : Exchanged (e.start + e.old.length) es rest rest') :
      Exchanged n (e :: es) (gap ++ e.old ++ rest) (gap ++ e.new ++ rest')

namespace Exchanged

variable {n : Nat} {es es' : List Exchange} {a a' b b' : List Char}

/-- Moving the starting point moves the exchanges with it. -/
theorem shift (m : Nat) (h : Exchanged n es a b) :
    Exchanged (m + n) (es.map (Exchange.shift m)) a b := by
  induction h with
  | done n gap => exact .done _ gap
  | next hstart _ ih =>
    rw [← Nat.add_assoc] at ih
    exact .next (e := Exchange.shift m _) (by rw [Exchange.shift, hstart, Nat.add_assoc]) ih

/-- A text in front that both sides share moves the exchanges behind it. -/
theorem behind (gap : List Char) (h : Exchanged (n + gap.length) es a b) :
    Exchanged n es (gap ++ a) (gap ++ b) := by
  cases h with
  | done _ gap' => exact .done n _
  | next hstart hrest =>
    rw [← List.append_assoc, ← List.append_assoc, ← List.append_assoc, ← List.append_assoc]
    exact .next (by rw [hstart, List.length_append, Nat.add_assoc]) hrest

/-- Exchanges in two texts one behind the other are the exchanges in the text of both. -/
theorem append (h : Exchanged n es a b) (h' : Exchanged (n + a.length) es' a' b') :
    Exchanged n (es ++ es') (a ++ a') (b ++ b') := by
  induction h with
  | done n gap => exact h'.behind gap
  | next hstart _ ih =>
    rw [List.append_assoc, List.append_assoc _ _ b']
    refine .next hstart (ih ?_)
    rw [List.length_append, List.length_append, ← Nat.add_assoc, ← Nat.add_assoc, ← hstart] at h'
    exact h'

theorem cast (h : Exchanged n es a b) (hes : es' = es) (ha : a' = a) (hb : b' = b) :
    Exchanged n es' a' b' := by
  rw [hes, ha, hb]
  exact h

theorem append_next {e : Exchange} (h : Exchanged n es a b) (hstart : e.start = n + a.length)
    (hrest : Exchanged (e.start + e.old.length) es' a' b') :
    Exchanged n (es ++ e :: es') (a ++ (e.old ++ a')) (b ++ (e.new ++ b')) := by
  refine h.append ?_
  rw [← hstart]
  have hnext : Exchanged e.start (e :: es') ([] ++ e.old ++ a') ([] ++ e.new ++ b') :=
    .next rfl hrest
  exact hnext

end Exchanged

/-! ### Replacing nodes -/

/-- Which nodes come in the place of others, by position. -/
abbrev Replacements (τ : Type) := Position → Option τ

namespace Replacements

/-- The replacements below a child. -/
def below (E : Replacements τ) (i : Nat) : Replacements τ := fun p => E (i :: p)

variable [Node τ]

/-- No replaced node is below another. -/
def Disjoint (E : Replacements τ) (t : τ) : Prop :=
  ∀ p ∈ positions t, ∀ q ∈ positions t, (E p).isSome → (E q).isSome → p <+: q → p = q

/-- All replacements below the root fit in: `fits parent old new`. -/
def FitIn (fits : τ → τ → τ → Prop) (E : Replacements τ) (t : τ) : Prop :=
  ∀ p parent i old new, at? t p = some parent → (children parent)[i]? = some old →
    E (p ++ [i]) = some new → fits parent old new

variable {E : Replacements τ} {t c : τ} {i : Nat}

/-- Replacements that do not lie within each other do not do so below a child. -/
theorem Disjoint.below (h : E.Disjoint t) (hc : (children t)[i]? = some c) :
    (E.below i).Disjoint c := by
  have hmem : ∀ p ∈ positions c, i :: p ∈ positions t := fun p hp => by
    rw [mem_positions, at?_cons hc]
    exact mem_positions.mp hp
  intro p hp q hq hEp hEq hpre
  exact (List.cons.inj (h _ (hmem p hp) _ (hmem q hq) hEp hEq
    (List.prefix_cons_inj i |>.mpr hpre))).2

/-- Replacements that fit in a tree fit in each child of it. -/
theorem FitIn.below {fits : τ → τ → τ → Prop} (h : E.FitIn fits t)
    (hc : (children t)[i]? = some c) : (E.below i).FitIn fits c := by
  intro p parent j old new hparent hold hnew
  exact h (i :: p) parent j old new (by rwa [at?_cons hc]) hold hnew

end Replacements

variable [Node τ]

/-- The tree with nodes replaced. -/
def replace (E : Replacements τ) (t : τ) : τ :=
  match E [] with
  | some u => u
  | none => rebuild t <| (children t).attach.zipIdx.map fun ⟨⟨c, _⟩, i⟩ =>
      replace (E.below i) c
termination_by t

/-- What comes in the places of the children. -/
def replaceChildren (E : Replacements τ) (t : τ) : List τ :=
  (children t).zipIdx.map fun x => replace (E.below x.2) x.1

/-- What is exchanged in the text when nodes are replaced. -/
def exchanges (E : Replacements τ) (t : τ) : List Exchange :=
  (positions t).filterMap fun p => do
    let old ← at? t p
    let new ← E p
    return { start := start t p, old := text old, new := text new }

variable {E : Replacements τ} {t : τ}

/-- Where the root is to be replaced the replacement is the new tree. -/
theorem replace_of_some {u : τ} (h : E [] = some u) : replace E t = u := by
  rw [replace, h]

/-- Where it is not, the node is rebuilt over its replaced children. -/
theorem replace_of_none (h : E [] = none) :
    replace E t = rebuild t (replaceChildren E t) := by
  rw [replace, h, replaceChildren]
  conv_rhs => rw [← List.attach_map_subtype_val (children t), List.zipIdx_map, List.map_map]
  rfl

/-- Replacing the children one by one where all of them are replaced in one way. -/
theorem replaceChildren_eq_map {f : τ → τ}
    (h : ∀ i c, (children t)[i]? = some c → replace (E.below i) c = f c) :
    replaceChildren E t = (children t).map f := by
  rw [replaceChildren]
  conv_rhs => rw [← List.zipIdx_map_fst 0 (children t), List.map_map]
  exact List.map_congr_left fun x hx => h x.2 x.1 (List.mem_zipIdx_iff_getElem?.mp hx)

/-- Where nothing is replaced, the tree stays as it is. -/
theorem replace_of_forall_none {κ : Type} [Anatomy τ κ] [DecidableEq κ] [LawfulNode τ κ]
    (h : ∀ p, E p = none) : replace E t = t := by
  induction t using induction_on_children generalizing E with
  | step t ih =>
    rw [replace_of_none (h []), replaceChildren_eq_map (f := id) fun i c hc => ?_, List.map_id,
      rebuild_children]
    exact ih c (List.mem_of_getElem? hc) fun p => h (i :: p)

/-- Where the root is to be replaced its whole text is exchanged. -/
theorem exchanges_of_some {u : τ} (hdisjoint : E.Disjoint t) (h : E [] = some u) :
    exchanges E t = [{ start := 0, old := text t, new := text u }] := by
  have hbelow : ∀ p ∈ (children t).zipIdx.flatMap fun x => (positions x.1).map (x.2 :: ·),
      E p = none := by
    intro p hp
    have hmem : p ∈ positions t := by
      rw [positions_eq]
      exact List.mem_cons_of_mem _ hp
    rw [← Option.not_isSome_iff_eq_none]
    intro hsome
    have hroot := hdisjoint [] (mem_positions.mpr ⟨t, rfl⟩) p hmem (by rw [h]; rfl) hsome
      List.nil_prefix
    rw [← hroot] at hp
    simp at hp
  rw [exchanges, positions_eq, List.filterMap_cons_some (b := ⟨0, text t, text u⟩)]
  · rw [List.filterMap_eq_nil_iff.mpr fun p hp => ?_]
    rw [hbelow p hp]
    cases at? t p <;> rfl
  · rw [h]
    rfl

/-- Where it is not, the exchanges are those of the children, each moved to where that child starts.
-/
theorem exchanges_of_none (h : E [] = none) :
    exchanges E t = (children t).zipIdx.flatMap fun x =>
      (exchanges (E.below x.2) x.1).map (Exchange.shift (offset (pieces t) x.2)) := by
  rw [exchanges, positions_eq, List.filterMap_cons_none, List.filterMap_flatMap]
  · refine List.flatMap_congr ?_
    rintro ⟨c, i⟩ hc
    have hc := List.mem_zipIdx_iff_getElem?.mp hc
    rw [List.filterMap_map, exchanges, List.map_filterMap]
    refine List.filterMap_congr fun p _ => ?_
    rw [Function.comp_apply, at?_cons hc, start_cons hc, Replacements.below]
    cases at? c p <;> cases E (i :: p) <;> rfl
  · rw [h]
    rfl

/-! ### Nodes around other children -/

/-- What a node prints itself, with blanks for its children. -/
def skeleton (ps : List (Piece τ)) : List (Option String) :=
  ps.map fun
    | .text s => some s
    | .child _ => none

section Skeleton

variable {α β : Type}

omit [Node τ]

@[simp]
theorem skeleton_text (s : String) (ps : List (Piece τ)) :
    skeleton (.text s :: ps) = some s :: skeleton ps := rfl

@[simp]
theorem skeleton_child (t : τ) (ps : List (Piece τ)) :
    skeleton (.child t :: ps) = none :: skeleton ps := rfl

@[simp]
theorem skeleton_append (ps qs : List (Piece τ)) :
    skeleton (ps ++ qs) = skeleton ps ++ skeleton qs := List.map_append

/-- Of elements printed one after the other only what their skeletons depend on matters. -/
theorem skeleton_flatMap_congr {f : α → List (Piece τ)} {g : α → β}
    (hf : ∀ a b, g a = g b → skeleton (f a) = skeleton (f b)) {as bs : List α}
    (h : as.map g = bs.map g) : skeleton (as.flatMap f) = skeleton (bs.flatMap f) := by
  induction as generalizing bs with
  | nil => rw [List.map_eq_nil_iff.mp h.symm]
  | cons a as ih =>
    obtain ⟨b, bs, rfl, hb, hbs⟩ := List.map_eq_cons_iff.mp h.symm
    rw [List.flatMap_cons, List.flatMap_cons, skeleton_append, skeleton_append, hf a b hb.symm,
      ih hbs.symm]

end Skeleton

/-- Nodes print around other children what they print around their own, if the others fit. And
a node with other children fits wherever it fitted before. -/
structure Accommodates (fits : τ → τ → τ → Prop) : Prop where
  children_rebuild : ∀ {t us}, List.Forall₂ (fits t) (children t) us →
    children (rebuild t us) = us
  skeleton_rebuild : ∀ {t us}, List.Forall₂ (fits t) (children t) us →
    skeleton (pieces (rebuild t us)) = skeleton (pieces t)
  fits_rebuild : ∀ {parent t us}, List.Forall₂ (fits t) (children t) us →
    fits parent t (rebuild t us)

/-- If the text is exchanged within the children, it is so within the node. -/
theorem exchanged_of_skeleton {ps qs : List (Piece τ)} {es : τ → Nat → List Exchange}
    (hskeleton : skeleton qs = skeleton ps)
    (hchildren : ∀ i c d, (childrenOf ps)[i]? = some c → (childrenOf qs)[i]? = some d →
      Exchanged 0 (es c i) (text c) (text d)) (n : Nat) :
    Exchanged n
      ((childrenOf ps).zipIdx.flatMap fun x =>
        (es x.1 x.2).map (Exchange.shift (n + offset ps x.2)))
      (ps.flatMap Piece.chars) (qs.flatMap Piece.chars) := by
  induction ps generalizing qs es n with
  | nil =>
    obtain rfl := List.map_eq_nil_iff.mp hskeleton
    exact .done n []
  | cons piece ps ih =>
    obtain ⟨piece', qs, rfl, hhead, htail⟩ := List.map_eq_cons_iff.mp hskeleton
    cases piece with
    | text s =>
      cases piece' with
      | child d => cases hhead
      | text s' =>
        obtain rfl := Option.some.inj hhead
        have hrest := ih htail hchildren (n + s'.toList.length)
        simp only [Nat.add_assoc] at hrest
        exact hrest.behind s'.toList
    | child c =>
      cases piece' with
      | text s => cases hhead
      | child d =>
        have hfirst := (hchildren 0 c d rfl rfl).shift n
        have hlater : ∀ i c d, (childrenOf ps)[i]? = some c → (childrenOf qs)[i]? = some d →
            Exchanged 0 (es c (i + 1)) (text c) (text d) := fun i => hchildren (i + 1)
        have hrest := @ih qs (fun c i => es c (i + 1)) htail hlater (n + (text c).length)
        rw [childrenOf_child, List.zipIdx_cons, List.flatMap_cons, Nat.zero_add,
          List.zipIdx_succ, List.flatMap_map]
        simp only [Nat.add_assoc] at hrest
        exact hfirst.append hrest

/-- With all replacements made below it, every child fits where it stood. -/
theorem forall₂_replaceChildren {fits : τ → τ → τ → Prop} (hfit : E.FitIn fits t)
    (hbelow : ∀ i c, (children t)[i]? = some c → E [i] = none → fits t c (replace (E.below i) c)) :
    List.Forall₂ (fits t) (children t) (replaceChildren E t) := by
  rw [replaceChildren, List.forall₂_map_right_iff]
  conv => arg 2; rw [← List.zipIdx_map_fst 0 (children t)]
  rw [List.forall₂_map_left_iff, List.forall₂_same]
  rintro ⟨c, i⟩ hc
  have hc := List.mem_zipIdx_iff_getElem?.mp hc
  cases hE : E [i] with
  | none => exact hbelow i c hc hE
  | some u =>
    rw [replace_of_some (E := E.below i) hE]
    exact hfit [] t i c u rfl hc hE

namespace Accommodates

variable {fits : τ → τ → τ → Prop} (hfits : Accommodates fits)

include hfits

/-- What comes of a tree by replacements below its root fits where the tree stood. -/
theorem fits_replace (parent : τ) (hfit : E.FitIn fits t) (hroot : E [] = none) :
    fits parent t (replace E t) := by
  induction t using induction_on_children generalizing E parent with
  | step t ih =>
    rw [replace_of_none hroot]
    refine hfits.fits_rebuild (forall₂_replaceChildren hfit fun i c hc hE => ?_)
    exact ih c (List.mem_of_getElem? hc) t (hfit.below hc) hE

/-- What comes of the children fits where each of them stood. -/
theorem forall₂_children (hfit : E.FitIn fits t) :
    List.Forall₂ (fits t) (children t) (replaceChildren E t) :=
  forall₂_replaceChildren hfit fun _ _ hc hE => hfits.fits_replace t (hfit.below hc) hE

/-- **Nodes that fit are exchanged for each other in the text, and nothing else changes.** -/
theorem exchanged_replace (hdisjoint : E.Disjoint t) (hfit : E.FitIn fits t) :
    Exchanged 0 (exchanges E t) (text t) (text (replace E t)) := by
  induction t using induction_on_children generalizing E with
  | step t ih =>
    cases hroot : E [] with
    | some u =>
      rw [exchanges_of_some hdisjoint hroot, replace_of_some hroot]
      have hwhole : Exchanged 0 [⟨0, text t, text u⟩] ([] ++ text t ++ []) ([] ++ text u ++ []) :=
        .next rfl (.done _ [])
      rwa [List.append_nil, List.append_nil] at hwhole
    | none =>
      have hall := hfits.forall₂_children hfit
      rw [exchanges_of_none hroot, replace_of_none hroot, text_eq t, text_eq]
      have hexchanged := @exchanged_of_skeleton _ _ _ _ (fun c i => exchanges (E.below i) c)
        (hfits.skeleton_rebuild hall) (fun i c d hc hd => ?_) 0
      · simp only [Nat.zero_add] at hexchanged
        exact hexchanged
      · have hd : (replaceChildren E t)[i]? = some d := by
          rw [← hfits.children_rebuild hall]
          exact hd
        have hc : (children t)[i]? = some c := hc
        rw [replaceChildren, List.getElem?_map, List.getElem?_zipIdx, hc] at hd
        obtain rfl := Option.some.inj hd
        rw [Nat.zero_add]
        exact ih c (List.mem_of_getElem? hc) (hdisjoint.below hc) (hfit.below hc)

/-- **Replacements stand where the replaced nodes stood.** -/
theorem at?_replace (hdisjoint : E.Disjoint t) (hfit : E.FitIn fits t) {p : Position} {u : τ}
    (hp : p ∈ positions t) (hu : E p = some u) : at? (replace E t) p = some u := by
  induction p generalizing t E with
  | nil => rw [replace_of_some hu, at?]
  | cons i p ih =>
    have hroot : E [] = none := by
      rw [← Option.not_isSome_iff_eq_none]
      intro hsome
      cases hdisjoint [] (mem_positions.mpr ⟨t, rfl⟩) _ hp hsome (by rw [hu]; rfl) List.nil_prefix
    obtain ⟨v, hv⟩ := mem_positions.mp hp
    obtain ⟨c, hc, hv⟩ := Option.bind_eq_some_iff.mp hv
    have hnew : (children (replace E t))[i]? = some (replace (E.below i) c) := by
      rw [replace_of_none hroot, hfits.children_rebuild (hfits.forall₂_children hfit),
        replaceChildren, List.getElem?_map, List.getElem?_zipIdx, hc, Nat.zero_add]
      rfl
    rw [at?_cons hnew]
    exact ih (hdisjoint.below hc) (hfit.below hc) (mem_positions.mpr ⟨v, hv⟩) hu

end Accommodates

end Lossless
