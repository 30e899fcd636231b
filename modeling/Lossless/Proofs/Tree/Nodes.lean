import Lossless.Tree

/-!
# The nodes of a tree

How `Lossless.nodes` and `Lossless.anyNode` go down to the children. A tree is the node at
its top, followed by the nodes of its children, and a search through a tree finds what is
among them (`Lossless.anyNode_iff`).
-/

namespace Lossless

variable {τ : Type} [Node τ]

/-- The nodes of a tree are its root and the nodes of its children, in printed order. -/
theorem nodes_eq (t : τ) : nodes t = t :: (children t).flatMap nodes := by
  rw [nodes, List.flatMap_subtype (g := nodes) fun c _ => rfl, List.unattach_attach]

/-- A node of a tree is its root or a node of one of its children. -/
theorem mem_nodes {t u : τ} : u ∈ nodes t ↔ u = t ∨ ∃ c ∈ children t, u ∈ nodes c := by
  rw [nodes_eq, List.mem_cons, List.mem_flatMap]

theorem self_mem_nodes (t : τ) : t ∈ nodes t := mem_nodes.mpr (Or.inl rfl)

theorem nodes_subset_of_mem_children {t c : τ} (hc : c ∈ children t) : nodes c ⊆ nodes t :=
  fun _ hu => mem_nodes.mpr (Or.inr ⟨c, hc, hu⟩)

/-- Something holds of the root or of a node below a child if it holds of a node at all. -/
theorem exists_mem_nodes_iff {p : τ → Prop} {t : τ} :
    (∃ u ∈ nodes t, p u) ↔ p t ∨ ∃ c ∈ children t, ∃ u ∈ nodes c, p u := by
  constructor
  · rintro ⟨u, hu, h⟩
    rcases mem_nodes.mp hu with rfl | ⟨c, hc, hu⟩
    · exact .inl h
    · exact .inr ⟨c, hc, u, hu, h⟩
  · rintro (h | ⟨c, hc, u, hu, h⟩)
    · exact ⟨t, self_mem_nodes t, h⟩
    · exact ⟨u, nodes_subset_of_mem_children hc hu, h⟩

/-- The nodes of a node are nodes of the tree it stands in. -/
theorem nodes_subset_of_mem_nodes {t u : τ} (hu : u ∈ nodes t) : nodes u ⊆ nodes t := by
  induction t using induction_on_children with
  | step t ih =>
    rcases mem_nodes.mp hu with rfl | ⟨c, hc, hu⟩
    · exact List.Subset.refl _
    · exact List.Subset.trans (ih c hc hu) (nodes_subset_of_mem_children hc)

/-- Some node passes the test where the root does or some node below a child. -/
theorem anyNode_eq (p : τ → Bool) (t : τ) :
    anyNode p t = (p t || (children t).any (anyNode p)) := by
  rw [anyNode, List.any_subtype (g := anyNode p) fun c _ => rfl, List.unattach_attach]

/-- **A search finds what is among the nodes.** -/
theorem anyNode_iff (p : τ → Bool) (t : τ) : anyNode p t = true ↔ ∃ u ∈ nodes t, p u = true := by
  induction t using induction_on_children with
  | step t ih =>
    rw [anyNode_eq, Bool.or_eq_true, List.any_eq_true, exists_mem_nodes_iff]
    exact or_congr_right (exists_congr fun c => and_congr_right fun hc => ih c hc)

end Lossless
