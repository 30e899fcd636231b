import Mathlib.Data.List.Infix
import Lossless.Proofs.Tree.Nodes

/-!
# Positions in a tree

Equal nodes can stand at several places of a tree, so which node is meant is said by a
position: the way down to it from the root. `Lossless.at?` goes to a position, and
`Lossless.positions` lists the positions of a tree, one for each node
(`Lossless.filterMap_at?_positions`).

The list is in lexicographic order (`Lossless.pairwise_positions`): a node comes before the
nodes below it, and these come child by child. This is also the order in which nodes are
printed. `Lossless.start` says how many characters of the text of a tree come before the text
of the node at a position, and of two positions, one after the other in the list, either the
second is below the first or its text starts where that of the first has ended
(`Lossless.prefix_or_stop_le_start`).
-/

namespace Lossless

/-- The way from the root down to a node: at each step, which child it goes to. -/
abbrev Position := List Nat

variable {τ : Type} [Node τ]

/-! ### The nodes at positions -/

/-- The node at a position. -/
def at? : τ → Position → Option τ
  | t, [] => some t
  | t, i :: p => (children t)[i]?.bind fun c => at? c p

/-- The node at a position and the nodes above it, up to the root. -/
def lineage : τ → Position → List τ
  | t, [] => [t]
  | t, i :: p => ((children t)[i]?.elim [] fun c => lineage c p) ++ [t]

/-- The positions of a tree, those above before those below and child by child. -/
def positions (t : τ) : List Position :=
  [] :: (children t).attach.zipIdx.flatMap fun ⟨⟨c, _⟩, i⟩ => (positions c).map (i :: ·)
termination_by t

theorem at?_cons {t c : τ} {i : Nat} (hc : (children t)[i]? = some c) (p : Position) :
    at? t (i :: p) = at? c p := by
  rw [at?, hc, Option.bind_some]

/-- Below the roots of trees with the same children there are the same nodes. -/
theorem at?_of_children_eq {t u : τ} {p : Position} (h : children u = children t) (hp : p ≠ []) :
    at? u p = at? t p := by
  cases p with
  | nil => exact absurd rfl hp
  | cons i p => rw [at?, at?, h]

/-- The node at a position is found in two parts of the way. -/
theorem at?_append (t : τ) (p q : Position) :
    at? t (p ++ q) = (at? t p).bind fun u => at? u q := by
  induction p generalizing t with
  | nil => rfl
  | cons i p ih =>
    rw [List.cons_append, at?, at?, Option.bind_assoc]
    exact Option.bind_congr fun c _ => ih c

/-- The positions of a tree are the root and the positions below its children, in printed order. -/
theorem positions_eq (t : τ) :
    positions t = [] :: (children t).zipIdx.flatMap fun x => (positions x.1).map (x.2 :: ·) := by
  conv_rhs => rw [← List.attach_map_subtype_val (children t), List.zipIdx_map, List.flatMap_map]
  rw [positions]
  rfl

/-- A position of a tree is one where a node stands. -/
theorem mem_positions {t : τ} {p : Position} : p ∈ positions t ↔ ∃ u, at? t p = some u := by
  induction p generalizing t with
  | nil =>
    rw [positions_eq]
    exact iff_of_true List.mem_cons_self ⟨t, rfl⟩
  | cons i p ih =>
    rw [positions_eq, List.mem_cons, or_iff_right (List.cons_ne_nil i p), List.mem_flatMap]
    constructor
    · rintro ⟨⟨c, j⟩, hc, hp⟩
      obtain ⟨q, hq, heq⟩ := List.mem_map.mp hp
      obtain ⟨rfl, rfl⟩ := List.cons.inj heq
      rw [at?_cons (List.mem_zipIdx_iff_getElem?.mp hc)]
      exact ih.mp hq
    · rintro ⟨u, hu⟩
      obtain ⟨c, hc, hu⟩ := Option.bind_eq_some_iff.mp hu
      exact ⟨(c, i), List.mem_zipIdx_iff_getElem?.mpr hc, List.mem_map_of_mem (ih.mpr ⟨u, hu⟩)⟩

/-- **There is one position for each node of a tree.** -/
theorem filterMap_at?_positions (t : τ) : (positions t).filterMap (at? t) = nodes t := by
  induction t using induction_on_children with
  | step t ih =>
    have hself : at? t [] = some t := rfl
    have hbelow : ∀ x ∈ (children t).zipIdx,
        ((positions x.1).map (x.2 :: ·)).filterMap (at? t) = nodes x.1 := by
      rintro ⟨c, i⟩ hc
      rw [List.filterMap_map, ← ih c (List.fst_mem_of_mem_zipIdx hc)]
      exact List.filterMap_congr fun p _ => at?_cons (List.mem_zipIdx_iff_getElem?.mp hc) p
    rw [positions_eq, nodes_eq, List.filterMap_cons_some hself, List.filterMap_flatMap,
      List.flatMap_congr hbelow]
    conv_rhs => rw [← List.zipIdx_map_fst 0 (children t), List.flatMap_map]

/-- **Positions are listed in lexicographic order.** -/
theorem pairwise_positions (t : τ) : (positions t).Pairwise (· < ·) := by
  induction t using induction_on_children with
  | step t ih =>
    have hindices : (children t).zipIdx.Pairwise fun x y => x.2 < y.2 := by
      rw [← List.pairwise_map, List.zipIdx_map_snd]
      exact List.pairwise_lt_range'
    rw [positions_eq, List.pairwise_cons]
    constructor
    · intro p hp
      obtain ⟨x, -, hp⟩ := List.mem_flatMap.mp hp
      obtain ⟨q, -, rfl⟩ := List.mem_map.mp hp
      exact List.nil_lt_cons x.2 q
    · refine List.pairwise_flatMap.mpr ⟨fun x hx => ?_, hindices.imp fun hlt p hp q hq => ?_⟩
      · refine List.pairwise_map.mpr ((ih x.1 (List.fst_mem_of_mem_zipIdx hx)).imp fun hlt => ?_)
        exact List.cons_lt_cons_iff.mpr (.inr ⟨rfl, hlt⟩)
      · obtain ⟨p, -, rfl⟩ := List.mem_map.mp hp
        obtain ⟨q, -, rfl⟩ := List.mem_map.mp hq
        exact List.cons_lt_cons_iff.mpr (.inl hlt)

/-! ### Trees changed node by node -/

section Changed

variable {f : τ → τ} (hchildren : ∀ t, children (f t) = (children t).map f)

include hchildren

/-- If a change of trees changes the children likewise, then it changes the node at every
position. -/
theorem at?_changed (t : τ) (p : Position) : at? (f t) p = (at? t p).map f := by
  induction p generalizing t with
  | nil => rfl
  | cons i p ih =>
    rw [at?, at?, hchildren, List.getElem?_map]
    cases (children t)[i]? with
    | none => rfl
    | some c => exact ih c

/-- A tree changed everywhere in one way has the nodes of the tree, each of them changed. -/
theorem nodes_changed (t : τ) : nodes (f t) = (nodes t).map f := by
  induction t using induction_on_children with
  | step t ih =>
    rw [nodes_eq, nodes_eq, hchildren, List.flatMap_map, List.map_cons, List.map_flatMap,
      List.flatMap_congr ih]

/-- And it has the positions of the tree. -/
theorem positions_changed (t : τ) : positions (f t) = positions t := by
  induction t using induction_on_children with
  | step t ih =>
    rw [positions_eq, positions_eq, hchildren, List.zipIdx_map, List.flatMap_map]
    refine congrArg _ (List.flatMap_congr fun x hx => ?_)
    exact congrArg _ (ih x.1 (List.fst_mem_of_mem_zipIdx hx))

end Changed

/-! ### The text at positions -/

/-- The characters of the text of a tree. -/
def text (t : τ) : List Char := (print t).toList

theorem toList_print (t : τ) : (print t).toList = text t := rfl

/-- The characters that a piece is printed as. -/
def Piece.chars : Piece τ → List Char
  | .text s => s.toList
  | .child t => Lossless.text t

/-- The text of a tree is that of its pieces one behind the other. -/
theorem text_eq (t : τ) : text t = (pieces t).flatMap Piece.chars := by
  rw [text, print, String.toList_join, List.flatMap_map]
  conv_rhs => rw [← List.attach_map_subtype_val (pieces t), List.flatMap_map]
  refine List.flatMap_congr fun x _ => ?_
  obtain ⟨s | c, h⟩ := x
  · rfl
  · rfl

/-- How many characters come before the child with this index, in the text of some pieces. -/
def offset : List (Piece τ) → Nat → Nat
  | [], _ => 0
  | .text s :: ps, i => s.toList.length + offset ps i
  | .child _ :: _, 0 => 0
  | .child c :: ps, i + 1 => (text c).length + offset ps i

/-- Where the text of the node at a position starts in the text of the tree. -/
def start : τ → Position → Nat
  | _, [] => 0
  | t, i :: p => offset (pieces t) i + (children t)[i]?.elim 0 fun c => start c p

/-- Where the text of the node at a position has ended in the text of the tree. -/
def stop (t : τ) (p : Position) : Nat := start t p + (at? t p).elim 0 fun u => (text u).length

/-- A node below a child starts as far behind the start of the child as it does in the child alone.
-/
theorem start_cons {t c : τ} {i : Nat} (hc : (children t)[i]? = some c) (p : Position) :
    start t (i :: p) = offset (pieces t) i + start c p := by
  rw [start, hc, Option.elim_some]

/-- And it stops as far behind it. -/
theorem stop_cons {t c : τ} {i : Nat} (hc : (children t)[i]? = some c) (p : Position) :
    stop t (i :: p) = offset (pieces t) i + stop c p := by
  rw [stop, stop, start_cons hc, at?_cons hc, Nat.add_assoc]

/-- The text of a child stands in the text of the pieces where its offset says. -/
theorem exists_flatMap_chars_eq {ps : List (Piece τ)} {i : Nat} {c : τ}
    (hc : (childrenOf ps)[i]? = some c) :
    ∃ before after, ps.flatMap Piece.chars = before ++ text c ++ after ∧
      before.length = offset ps i := by
  induction ps generalizing i with
  | nil => simp at hc
  | cons piece ps ih =>
    cases piece with
    | text s =>
      obtain ⟨before, after, heq, hlen⟩ := ih hc
      refine ⟨s.toList ++ before, after, ?_, ?_⟩
      · rw [List.flatMap_cons, heq, Piece.chars, List.append_assoc, List.append_assoc,
          List.append_assoc]
      · rw [List.length_append, hlen, offset]
    | child d =>
      cases i with
      | zero =>
        obtain rfl := Option.some.inj hc
        exact ⟨[], _, rfl, rfl⟩
      | succ i =>
        obtain ⟨before, after, heq, hlen⟩ := ih hc
        refine ⟨text d ++ before, after, ?_, ?_⟩
        · rw [List.flatMap_cons, heq, Piece.chars, List.append_assoc, List.append_assoc,
            List.append_assoc]
        · rw [List.length_append, hlen, offset]

/-- **The text of a node stands in the text of the tree, where it starts.** -/
theorem exists_text_eq {t u : τ} {p : Position} (hu : at? t p = some u) :
    ∃ before after, text t = before ++ text u ++ after ∧ before.length = start t p := by
  induction p generalizing t with
  | nil =>
    obtain rfl := Option.some.inj hu
    exact ⟨[], [], (List.append_nil _).symm, rfl⟩
  | cons i p ih =>
    obtain ⟨c, hc, hu⟩ := Option.bind_eq_some_iff.mp hu
    obtain ⟨before, after, heq, hlen⟩ := exists_flatMap_chars_eq hc
    obtain ⟨before', after', heq', hlen'⟩ := ih hu
    refine ⟨before ++ before', after' ++ after, ?_, ?_⟩
    · rw [text_eq, heq, heq']
      simp only [List.append_assoc]
    · rw [List.length_append, hlen, hlen', start_cons hc]

/-- A node stops within the text of the tree. -/
theorem stop_le_length {t u : τ} {p : Position} (hu : at? t p = some u) :
    stop t p ≤ (text t).length := by
  obtain ⟨before, after, heq, hlen⟩ := exists_text_eq hu
  rw [stop, hu, Option.elim_some, heq, List.length_append, List.length_append, hlen]
  exact Nat.le_add_right _ _

/-- A child ends before a later one starts. -/
theorem offset_add_length_le {ps : List (Piece τ)} {i j : Nat} {c : τ}
    (hc : (childrenOf ps)[i]? = some c) (hij : i < j) :
    offset ps i + (text c).length ≤ offset ps j := by
  induction ps generalizing i j with
  | nil => simp at hc
  | cons piece ps ih =>
    cases piece with
    | text s =>
      have := ih hc hij
      simp only [offset]
      omega
    | child d =>
      obtain ⟨j, rfl⟩ : ∃ k, j = k + 1 := ⟨j - 1, by omega⟩
      cases i with
      | zero =>
        obtain rfl := Option.some.inj hc
        simp only [offset]
        omega
      | succ i =>
        have := ih hc (Nat.lt_of_succ_lt_succ hij)
        simp only [offset]
        omega

/-- **Positions are in the order of the text.** Of two nodes, one after the other, the second
is below the first, or it is printed after the first. -/
theorem prefix_or_stop_le_start {t : τ} {p q : Position} (hp : p ∈ positions t)
    (hq : q ∈ positions t) (hlt : p < q) : p <+: q ∨ stop t p ≤ start t q := by
  induction p generalizing t q with
  | nil => exact .inl List.nil_prefix
  | cons i p ih =>
    obtain ⟨u, hu⟩ := mem_positions.mp hp
    obtain ⟨c, hc, hu⟩ := Option.bind_eq_some_iff.mp hu
    cases q with
    | nil => cases List.not_lt_nil _ hlt
    | cons j q =>
      obtain ⟨v, hv⟩ := mem_positions.mp hq
      obtain ⟨d, hd, hv⟩ := Option.bind_eq_some_iff.mp hv
      rcases List.cons_lt_cons_iff.mp hlt with hij | ⟨rfl, hpq⟩
      · right
        have hoff : offset (pieces t) i + (text c).length ≤ offset (pieces t) j :=
          offset_add_length_le hc hij
        have hstop := stop_le_length hu
        rw [stop_cons hc, start_cons hd]
        omega
      · obtain rfl := Option.some.inj (hc.symm.trans hd)
        rw [stop_cons hc, start_cons hc, Nat.add_le_add_iff_left, List.prefix_cons_inj]
        exact ih (mem_positions.mpr ⟨u, hu⟩) (mem_positions.mpr ⟨v, hv⟩) hpq

end Lossless
