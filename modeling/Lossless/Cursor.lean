import Lossless.Message

/-!
# Cursors

The path from the root of a tree down to the node where a traversal stands. A
traversal pushes every node that it enters and pops it on its way out, so the frames
of a cursor are the node itself and its ancestors. Each frame also holds messages
(`Lossless.Messages`), which live as long as the frame: they are how a visitor tells
an ancestor, or all descendants of a node, what it found.
-/

namespace Lossless

/-- One level of a cursor. -/
structure Frame (τ : Type) (μ : Type := Message) where
  /-- The node of this level. -/
  value : τ
  /-- What was left here. -/
  messages : Messages μ := .empty

/-- A path of frames, the innermost first. -/
structure Cursor (τ : Type) (μ : Type := Message) where
  /-- The frames. -/
  frames : List (Frame τ μ)

namespace Cursor

variable {τ μ κ : Type}

/-- The cursor of a traversal that has not started. -/
def empty : Cursor τ μ := ⟨[]⟩

/-- Enters a node. -/
def push (c : Cursor τ μ) (t : τ) : Cursor τ μ := ⟨{ value := t } :: c.frames⟩

/-- Leaves the innermost node; its messages go with it. -/
def pop (c : Cursor τ μ) : Cursor τ μ := ⟨c.frames.tail⟩

/-- How many nodes have been entered and not left. -/
def depth (c : Cursor τ μ) : Nat := c.frames.length

/-- Is there no ancestor above the current node? -/
def isRoot (c : Cursor τ μ) : Bool := c.depth ≤ 1

/-- The nodes from the current one up to the root. -/
def path (c : Cursor τ μ) : List τ := c.frames.map (·.value)

/-- The current node. -/
def value? (c : Cursor τ μ) : Option τ := c.path.head?

/-- The parent of the current node. -/
def parent? (c : Cursor τ μ) : Option τ := c.path.tail.head?

/-- The node where the traversal started. -/
def root? (c : Cursor τ μ) : Option τ := c.path.getLast?

/-- The nearest node that satisfies `p`, the current one included. -/
def enclosing? (c : Cursor τ μ) (p : τ → Bool) : Option τ := c.path.find? p

/-! ### Messages -/

variable [DecidableEq κ] [Kinded μ κ]

/-- Changes the messages of the innermost frame. -/
def modifyHead (f : Messages μ → Messages μ) : List (Frame τ μ) → List (Frame τ μ)
  | [] => []
  | fr :: rest => { fr with messages := f fr.messages } :: rest

/-- Leaves a message on the current node. Before the start it is lost. -/
def putMessage (c : Cursor τ μ) (key : String) (m : μ) : Cursor τ μ :=
  ⟨modifyHead (·.insert key m) c.frames⟩

/-- The message on the current node itself. -/
def message? (c : Cursor τ μ) (key : String) (k : κ) : Option μ :=
  c.frames.head?.bind (·.messages.get? key k)

/-- The message on the nearest node that has one of this kind. -/
def nearestMessage? (c : Cursor τ μ) (key : String) (k : κ) : Option μ :=
  c.frames.findSome? (·.messages.get? key k)

/-- Takes a message off the current node, if it is of the kind asked for. -/
def pollMessage (c : Cursor τ μ) (key : String) (k : κ) : Option μ × Cursor τ μ :=
  match c.frames with
  | [] => (none, c)
  | fr :: rest =>
    let (m, messages) := fr.messages.poll key k
    (m, ⟨{ fr with messages } :: rest⟩)

/-- Changes the messages of the first frame whose node satisfies `p`; `none` if there
is no such frame. -/
def modifyFirst (p : τ → Bool) (f : Messages μ → Messages μ) :
    List (Frame τ μ) → Option (List (Frame τ μ))
  | [] => none
  | fr :: rest =>
    if p fr.value then some ({ fr with messages := f fr.messages } :: rest)
    else (modifyFirst p f rest).map (fr :: ·)

/-- Leaves a message on the nearest node that satisfies `p`. The answer says whether
there is one. -/
def putMessageOn (c : Cursor τ μ) (p : τ → Bool) (key : String) (m : μ) : Bool × Cursor τ μ :=
  match modifyFirst p (·.insert key m) c.frames with
  | some frames => (true, ⟨frames⟩)
  | none => (false, c)

end Cursor

end Lossless
