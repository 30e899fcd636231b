/-!
# Lossless trees

What the trees of all languages have in common. A node is printed as a run of
pieces (`Lossless.Piece`): literal text and, between it, the children. Whatever is
read off a tree follows from these pieces alone: the printed text
(`Lossless.print`), the children in the order in which they are printed
(`Lossless.children`), and the traversals of `Lossless.Visitor`.

The other way round, `Lossless.Node.update` puts an answer into the place of every
child. An answer says what becomes of the child (`Lossless.Update`), or it is `none`, which asks
to delete the child. A place that cannot be empty keeps its child then, and so does a place for
one kind of nodes that is offered another kind.
-/

namespace Lossless

/-- A part of a printed node. -/
inductive Piece (τ : Type) where
  /-- Text that belongs to the node itself. -/
  | text (s : String)
  /-- A child, printed in its own way. -/
  | child (t : τ)

/-- The child that a piece is. -/
def Piece.child? {τ : Type} : Piece τ → Option τ
  | .text _ => none
  | .child t => some t

/-- The children among some pieces. -/
def childrenOf {τ : Type} (ps : List (Piece τ)) : List τ := ps.filterMap Piece.child?

section ChildrenOf

variable {τ α : Type}

/-- The children of pieces one behind the other. -/
@[simp]
theorem childrenOf_append (ps qs : List (Piece τ)) :
    childrenOf (ps ++ qs) = childrenOf ps ++ childrenOf qs := by
  simp [childrenOf]

@[simp]
theorem childrenOf_nil : childrenOf ([] : List (Piece τ)) = [] := rfl

@[simp]
theorem childrenOf_text (s : String) (ps : List (Piece τ)) :
    childrenOf (.text s :: ps) = childrenOf ps := rfl

@[simp]
theorem childrenOf_child (t : τ) (ps : List (Piece τ)) :
    childrenOf (.child t :: ps) = t :: childrenOf ps := rfl

@[simp]
theorem childrenOf_map_child (f : α → τ) (as : List α) :
    childrenOf (as.map fun a => .child (f a)) = as.map f := by
  induction as <;> simp_all

@[simp]
theorem childrenOf_map_of_trees (ts : List τ) : childrenOf (ts.map .child) = ts := by
  induction ts <;> simp_all

theorem mem_childrenOf {c : τ} {ps : List (Piece τ)} : c ∈ childrenOf ps ↔ .child c ∈ ps := by
  simp only [childrenOf, List.mem_filterMap]
  constructor
  · rintro ⟨p, hp, h⟩
    cases p with
    | text s => cases h
    | child u => cases h; exact hp
  · exact fun h => ⟨_, h, rfl⟩

end ChildrenOf

/-! ### Updates -/

/-- What becomes of something that is visited. Whoever shares the parts that did not change
can tell these by being the *same*, without comparing them. What was put together again is
new, and be it equal to what was there before. -/
inductive Update (τ : Type) where
  /-- It stays the very one that it was. -/
  | same
  /-- Another one takes its place. -/
  | new (t : τ)
deriving DecidableEq

namespace Update

variable {τ κ : Type}

/-- What is there after an update of `t`. -/
def of (t : τ) : Update τ → τ
  | .same => t
  | .new u => u

/-- One update after the other. -/
def andThen (w : Update τ) : Update τ → Update τ
  | .same => w
  | .new u => .new u

/-- The update to `u` of what was `t`, where nothing is set that is there already. -/
def setting [DecidableEq τ] (t u : τ) : Update τ := if u = t then .same else .new u

/-- An update of what is seen in another way. -/
def map (f : τ → κ) : Update τ → Update κ
  | .same => .same
  | .new u => .new (f u)

/-- Does another one take the place? -/
def isNew : Update τ → Bool
  | .same => false
  | .new _ => true

@[simp]
theorem of_same (t : τ) : (same : Update τ).of t = t := rfl

@[simp]
theorem of_new (t u : τ) : (new u).of t = u := rfl

@[simp]
theorem andThen_same (w : Update τ) : w.andThen .same = w := rfl

@[simp]
theorem andThen_new (w : Update τ) (u : τ) : w.andThen (.new u) = .new u := rfl

/-- Two answers one after the other stand for what the second makes of the first. -/
@[simp]
theorem of_andThen (t : τ) (w v : Update τ) : (w.andThen v).of t = v.of (w.of t) := by
  cases v <;> rfl

/-- Setting a node to another gives that one, whether or not it is the same. -/
@[simp]
theorem of_setting [DecidableEq τ] (t u : τ) : (setting t u).of t = u := by
  rw [setting]
  split
  next h => exact h.symm
  next => rfl

@[simp]
theorem of_map (f : τ → κ) (t : τ) (w : Update τ) : (w.map f).of (f t) = f (w.of t) := by
  cases w <;> rfl

@[simp]
theorem map_map {ι : Type} (f : τ → κ) (g : κ → ι) (w : Update τ) :
    (w.map f).map g = w.map fun t => g (f t) := by
  cases w <;> rfl

@[simp]
theorem isNew_map (f : τ → κ) (w : Update τ) : (w.map f).isNew = w.isNew := by
  cases w <;> rfl

/-- An answer that is not new is the one that nothing has changed. -/
theorem isNew_eq_false_iff {w : Update τ} : w.isNew = false ↔ w = .same := by
  cases w <;> simp [isNew]

end Update

/-! ### Nodes -/

/-- A type of trees whose nodes come apart into pieces and can be put together
again. -/
class Node (τ : Type) where
  /-- What a node is printed as. -/
  pieces : τ → List (Piece τ)
  /-- What becomes of a node, given what becomes of its children, in their order. -/
  update : τ → List (Option (Update τ)) → Update τ
  /-- Going from a node to a child comes to an end. -/
  wellFounded : WellFounded fun c t : τ => .child c ∈ pieces t

export Node (pieces update)

variable {τ : Type} [Node τ]

/-- The children of a node, in the order in which they are printed. -/
def children (t : τ) : List τ := childrenOf (pieces t)

/-- A child of a node is one of its pieces. -/
theorem mem_children {t c : τ} : c ∈ children t ↔ .child c ∈ pieces t := mem_childrenOf

/-- Recursion on trees descends from a node to its children. -/
instance descent : WellFoundedRelation τ where
  rel c t := c ∈ children t
  wf := by simpa only [mem_children] using Node.wellFounded

/-- Induction along the children. -/
theorem induction_on_children {P : τ → Prop} (step : ∀ t, (∀ c ∈ children t, P c) → P t) (t : τ) :
    P t :=
  step t fun c _ => induction_on_children step c
termination_by t

/-- The text of a tree: its pieces one after the other. -/
def print (t : τ) : String :=
  String.join <| (pieces t).attach.map fun
    | ⟨.text s, _⟩ => s
    | ⟨.child c, h⟩ =>
      have := mem_children.mpr h
      print c
termination_by t

/-- The answers that offer these nodes for the places of the children. -/
def offer (us : List τ) : List (Option (Update τ)) := us.map fun u => some (.new u)

/-- The node with these nodes in the places of its children. -/
def rebuild (t : τ) (us : List τ) : τ := (update t (offer us)).of t

/-- The node with other children. -/
def mapChildren (f : τ → τ) (t : τ) : τ := rebuild t ((children t).map f)

/-- The nodes of a tree, a parent before its children. -/
def nodes (t : τ) : List τ := t :: (children t).attach.flatMap fun ⟨c, _⟩ => nodes c
termination_by t

/-- How many nodes there are on the longest way down. -/
def height (t : τ) : Nat :=
  ((children t).attach.map fun ⟨c, _⟩ => height c).foldr max 0 + 1
termination_by t

/-- Does a node of the tree satisfy `p`? -/
def anyNode (p : τ → Bool) (t : τ) : Bool :=
  p t || (children t).attach.any fun ⟨c, _⟩ => anyNode p c
termination_by t

/-! ### Equality

A node is determined by its children and by all else about it, its *frame*. So two
trees are compared frame by frame. -/

/-- Lists are equal if their elements are, one by one. -/
def decEqList {α : Type} :
    (as bs : List α) → (∀ a ∈ as, ∀ b, Decidable (a = b)) → Decidable (as = bs)
  | [], [], _ => isTrue rfl
  | a :: as, b :: bs, dec =>
    match dec a List.mem_cons_self b,
        decEqList as bs fun x h => dec x (List.mem_cons_of_mem a h) with
    | isTrue h, isTrue hs => isTrue (by rw [h, hs])
    | isFalse h, _ => isFalse (by simp [h])
    | _, isFalse hs => isFalse (by simp [hs])
  | [], _ :: _, _ => isFalse nofun
  | _ :: _, [], _ => isFalse nofun

/-- Equality of trees that are determined by their frame and their children. -/
def decEqOfFrame {φ : Type} [DecidableEq φ] (frame : τ → φ)
    (ext : ∀ {a b : τ}, frame a = frame b → children a = children b → a = b) (a b : τ) :
    Decidable (a = b) :=
  if hf : frame a = frame b then
    match decEqList (children a) (children b) fun c _ d => decEqOfFrame frame ext c d with
    | isTrue hc => isTrue (ext hf hc)
    | isFalse hc => isFalse fun h => hc (h ▸ rfl)
  else isFalse fun h => hf (h ▸ rfl)
termination_by a

end Lossless
