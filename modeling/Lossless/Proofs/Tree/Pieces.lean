import Lossless.Proofs.Tree.Exchange

/-!
# Exchanges within the pieces of a node

When a node keeps its own text and only its children change, all that is exchanged in its text
is what is exchanged in the texts of the children, each as far behind as the child stands
(`Lossless.exchangesIn`). Pieces can be taken apart anywhere for this
(`Lossless.exchangesIn_append`), so that it can be used for the pieces on both sides of a place
where something else happens (`Lossless.flatMap_exchanges_split`).
-/

namespace Lossless

variable {τ : Type}

/-! ### Pieces with other children -/

/-- A piece with another child. -/
def Piece.map (f : τ → τ) : Piece τ → Piece τ
  | .text s => .text s
  | .child t => .child (f t)

section Map

variable {f : τ → τ}

@[simp]
theorem Piece.map_text (f : τ → τ) (s : String) : Piece.map f (.text s) = .text s := rfl

@[simp]
theorem Piece.map_child (f : τ → τ) (t : τ) : Piece.map f (.child t) = .child (f t) := rfl

/-- Exchanging the children leaves the texts between them. -/
theorem skeleton_map (f : τ → τ) (ps : List (Piece τ)) :
    skeleton (ps.map (Piece.map f)) = skeleton ps := by
  rw [skeleton, skeleton, List.map_map]
  refine List.map_congr_left fun piece _ => ?_
  cases piece <;> rfl

theorem childrenOf_map (f : τ → τ) (ps : List (Piece τ)) :
    childrenOf (ps.map (Piece.map f)) = (childrenOf ps).map f := by
  rw [childrenOf, childrenOf, List.filterMap_map, List.map_filterMap]
  refine List.filterMap_congr fun piece _ => ?_
  cases piece <;> rfl

/-- Pieces are known from the children among them and from what is left without these. -/
theorem eq_map_of_skeleton {ps qs : List (Piece τ)} (hskeleton : skeleton qs = skeleton ps)
    (hchildren : childrenOf qs = (childrenOf ps).map f) : qs = ps.map (Piece.map f) := by
  induction ps generalizing qs with
  | nil => exact List.map_eq_nil_iff.mp hskeleton
  | cons piece ps ih =>
    obtain ⟨piece', qs, rfl, hhead, htail⟩ := List.map_eq_cons_iff.mp hskeleton
    cases piece with
    | text s =>
      cases piece' with
      | child d => cases hhead
      | text s' =>
        obtain rfl := Option.some.inj hhead
        rw [List.map_cons, Piece.map, ih htail hchildren]
    | child c =>
      cases piece' with
      | text s => cases hhead
      | child d =>
        obtain ⟨rfl, hlater⟩ := List.cons.inj hchildren
        rw [List.map_cons, Piece.map, ih htail hlater]

end Map

variable [Node τ]

/-! ### Offsets -/

/-- The characters that some pieces are printed as. -/
def chars (ps : List (Piece τ)) : List Char := ps.flatMap Piece.chars

@[simp]
theorem chars_nil : chars ([] : List (Piece τ)) = [] := rfl

@[simp]
theorem chars_text (s : String) (ps : List (Piece τ)) :
    chars (.text s :: ps) = s.toList ++ chars ps := rfl

@[simp]
theorem chars_child (t : τ) (ps : List (Piece τ)) :
    chars (.child t :: ps) = text t ++ chars ps := rfl

@[simp]
theorem chars_append (ps qs : List (Piece τ)) : chars (ps ++ qs) = chars ps ++ chars qs :=
  List.flatMap_append

/-- Other children that are printed alike. -/
theorem chars_map {f : τ → τ} {ps : List (Piece τ)} (h : ∀ c ∈ childrenOf ps, text (f c) = text c) :
    chars (ps.map (Piece.map f)) = chars ps := by
  rw [chars, List.flatMap_map]
  refine List.flatMap_congr fun piece hpiece => ?_
  cases piece with
  | text s => rfl
  | child c => exact h c (mem_childrenOf.mpr hpiece)

/-- A child of the pieces in front starts where it did. -/
theorem offset_append_of_lt {ps : List (Piece τ)} {i : Nat} (qs : List (Piece τ))
    (h : i < (childrenOf ps).length) : offset (ps ++ qs) i = offset ps i := by
  induction ps generalizing i with
  | nil => simp at h
  | cons piece ps ih =>
    cases piece with
    | text s => exact congrArg (s.toList.length + ·) (ih h)
    | child c =>
      cases i with
      | zero => rfl
      | succ i => exact congrArg ((text c).length + ·) (ih (Nat.lt_of_succ_lt_succ h))

/-- A child of the pieces behind starts after all the text in front. -/
theorem offset_append_add (ps qs : List (Piece τ)) (i : Nat) :
    offset (ps ++ qs) ((childrenOf ps).length + i) = (chars ps).length + offset qs i := by
  induction ps with
  | nil => simp
  | cons piece ps ih =>
    cases piece with
    | text s =>
      rw [List.cons_append, childrenOf_text, offset, ih, chars_text, List.length_append,
        Nat.add_assoc]
    | child c =>
      rw [List.cons_append, childrenOf_child, List.length_cons, Nat.add_right_comm, offset, ih,
        chars_child, List.length_append, Nat.add_assoc]

/-! ### Exchanges -/

/-- What is exchanged in the text of some pieces, which starts at `n`, if this is exchanged in
the texts of nodes. -/
def exchangesIn (es : τ → List Exchange) (n : Nat) (ps : List (Piece τ)) : List Exchange :=
  (childrenOf ps).zipIdx.flatMap fun x => (es x.1).map (Exchange.shift (n + offset ps x.2))

variable {es : τ → List Exchange}

@[simp]
theorem exchangesIn_nil (n : Nat) : exchangesIn es n [] = [] := rfl

@[simp]
theorem exchangesIn_text (n : Nat) (s : String) (ps : List (Piece τ)) :
    exchangesIn es n (.text s :: ps) = exchangesIn es (n + s.toList.length) ps := by
  simp only [exchangesIn, childrenOf_text, offset, Nat.add_assoc]

@[simp]
theorem exchangesIn_child (n : Nat) (c : τ) (ps : List (Piece τ)) :
    exchangesIn es n (.child c :: ps) =
      (es c).map (Exchange.shift n) ++ exchangesIn es (n + (text c).length) ps := by
  rw [exchangesIn, childrenOf_child, List.zipIdx_cons, List.flatMap_cons, Nat.zero_add,
    List.zipIdx_succ, List.flatMap_map, exchangesIn]
  simp only [Nat.add_assoc]
  rfl

/-- The exchanges in pieces one behind the other, those behind moved by the text in front. -/
theorem exchangesIn_append (n : Nat) (ps qs : List (Piece τ)) :
    exchangesIn es n (ps ++ qs) =
      exchangesIn es n ps ++ exchangesIn es (n + (chars ps).length) qs := by
  induction ps generalizing n with
  | nil => rfl
  | cons piece ps ih =>
    cases piece with
    | text s => simp [ih, Nat.add_assoc]
    | child c => simp [ih, Nat.add_assoc]

/-- **What is exchanged in the children is exchanged in the node.** -/
theorem exchanged_map {f : τ → τ} {ps : List (Piece τ)}
    (h : ∀ c ∈ childrenOf ps, Exchanged 0 (es c) (text c) (text (f c))) (n : Nat) :
    Exchanged n (exchangesIn es n ps) (chars ps) (chars (ps.map (Piece.map f))) := by
  have hchildren : ∀ (i : Nat) (c d : τ), (childrenOf ps)[i]? = some c →
      (childrenOf (ps.map (Piece.map f)))[i]? = some d → Exchanged 0 (es c) (text c) (text d) := by
    intro i c d hc hd
    rw [childrenOf_map, List.getElem?_map, hc] at hd
    obtain rfl := Option.some.inj hd
    exact h c (List.mem_of_getElem? hc)
  exact @exchanged_of_skeleton _ _ ps _ (fun c _ => es c) (skeleton_map f ps) hchildren n

variable (es) in
/-- The exchanges in a node in which something else is exchanged for one of the children. -/
theorem flatMap_exchanges_split (ps qs : List (Piece τ)) (c : τ) (own : List Exchange) :
    ((childrenOf (ps ++ .child c :: qs)).zipIdx.flatMap fun x =>
        if x.2 = (childrenOf ps).length then own
        else (es x.1).map (Exchange.shift (offset (ps ++ .child c :: qs) x.2))) =
      exchangesIn es 0 ps ++ own ++
        exchangesIn es ((chars ps).length + (text c).length) qs := by
  rw [childrenOf_append, childrenOf_child, List.zipIdx_append, List.flatMap_append,
    List.zipIdx_cons, List.flatMap_cons, Nat.zero_add, if_pos rfl, ← List.append_assoc]
  congr 1
  · congr 1
    refine List.flatMap_congr fun x hx => ?_
    have hlt : x.2 < (childrenOf ps).length := List.snd_lt_of_mem_zipIdx hx
    rw [if_neg (Nat.ne_of_lt hlt), offset_append_of_lt _ hlt, Nat.zero_add]
  · rw [exchangesIn, List.zipIdx_eq_map_add, List.flatMap_map]
    refine List.flatMap_congr ?_
    rintro ⟨d, i⟩ -
    have hindex : (childrenOf ps).length + 1 + i = (childrenOf ps).length + (i + 1) := by omega
    have hne : (childrenOf ps).length + 1 + i ≠ (childrenOf ps).length := by omega
    refine (if_neg hne).trans ?_
    dsimp only
    rw [hindex, offset_append_add, offset, Nat.add_assoc]

end Lossless
