import Lossless.Message
import Lossless.Source
import Lossless.Text.Quoted

/-!
# The context of a run

What visitors can read and write beside the tree. One part belongs to the file that is
being visited: messages, and the imports that may be superfluous now
(`Lossless.Context.requestRemoval`). The other part is shared by all files of a run: whether
the run was cancelled, and the answers of preconditions
(`Lossless.Memo`). `Lossless.Context.fork` makes a context for another file.

Visitors and tests may have a state of their own, of a type `ω` that nobody else knows. It is
carried along with what is shared, and not looked at here. The steps of a visit
(`Lossless.ContextM`) can break off (`Lossless.Failure`).

An answer is remembered under the precondition's key and the identity of the file, and
together with the very tree that it was given for. It counts for this tree only: an
edited file keeps its identity, but what was true of it before may be false now.
-/

namespace Lossless

/-! ### Remembered answers -/

/-- An answer of a precondition. -/
structure MemoEntry where
  /-- The key of the precondition. -/
  key : String
  /-- The file that it was asked about. -/
  source : Source
  /-- Its answer. -/
  answer : Bool

/-- Is an entry about this key and a file of this identity? -/
def MemoEntry.isAbout (e : MemoEntry) (key : String) (id : TreeId) : Bool :=
  e.key = key && e.source.id = id

/-- Answers of preconditions. -/
structure Memo where
  /-- The answers, the latest first. -/
  entries : List MemoEntry
  /-- There is at most one for a key and an identity. -/
  distinct : entries.Pairwise fun a b => !b.isAbout a.key a.source.id

namespace Memo

/-- No answers. -/
def empty : Memo := ⟨[], .nil⟩

/-- How many answers there are. -/
def size (m : Memo) : Nat := m.entries.length

/-- The answer that was given for this tree. -/
def answer? (m : Memo) (key : String) (s : Source) : Option Bool :=
  match m.entries.find? (·.isAbout key s.id) with
  | some e => if e.source.isSameTree s then some e.answer else none
  | none => none

/-- Remembers an answer, in place of any for the same key and identity. -/
def store (m : Memo) (key : String) (s : Source) (answer : Bool) : Memo where
  entries := ⟨key, s, answer⟩ :: m.entries.filter (!·.isAbout key s.id)
  distinct := List.pairwise_cons.2
    ⟨fun _ h => (List.mem_filter.1 h).2, m.distinct.sublist List.filter_sublist⟩

end Memo

/-! ### Contexts -/

/-- What the contexts of a run share. -/
structure Shared (ω : Type := Unit) where
  /-- Was the run cancelled? -/
  cancelled : Bool := false
  /-- Answers of preconditions. -/
  memo : Memo := .empty
  /-- What visitors and tests keep for themselves. -/
  outside : ω := by exact ()

/-- The context of a visit. -/
structure Context (ω : Type := Unit) where
  /-- Notes. -/
  messages : Messages := .empty
  /-- The imports that may be superfluous, oldest first. -/
  importRequests : List String := []
  /-- No import is named twice. -/
  importRequests_nodup : importRequests.Nodup := by exact List.nodup_nil
  /-- What other contexts of the run have, too. -/
  shared : Shared ω := by exact {}

namespace Context

variable {ω : Type}

/-- The context for another file of the same run. -/
def fork (c : Context ω) : Context ω := { shared := c.shared }

/-- Was the run cancelled? -/
def isCancelled (c : Context ω) : Bool := c.shared.cancelled

/-- Cancels the run. -/
def cancel (c : Context ω) : Context ω := { c with shared := { c.shared with cancelled := true } }

/-- Asks that an import be removed if nothing uses it any more. -/
def requestRemoval (c : Context ω) (name : String) : Context ω :=
  if h : name ∈ c.importRequests then c
  else
    { c with
      importRequests := c.importRequests ++ [name]
      importRequests_nodup := by
        refine List.nodup_append.2
          ⟨c.importRequests_nodup, List.pairwise_singleton .., fun a ha b hb => ?_⟩
        rw [List.mem_singleton.1 hb]
        exact fun hab => h (hab ▸ ha) }

/-- The imports that may be superfluous; they are then forgotten. -/
def takeImportRequests (c : Context ω) : List String × Context ω :=
  (c.importRequests, { c with importRequests := [], importRequests_nodup := List.nodup_nil })

/-- The answer of a precondition that was given for this tree. -/
def answer? (c : Context ω) (key : String) (s : Source) : Option Bool :=
  c.shared.memo.answer? key s

/-- Remembers an answer. -/
def remember (c : Context ω) (key : String) (s : Source) (answer : Bool) : Context ω :=
  { c with shared := { c.shared with memo := c.shared.memo.store key s answer } }

/-- The context as it appears in diagnostics. -/
def describe (c : Context ω) : String :=
  let list (ss : List String) : String := "[" ++ ", ".intercalate (ss.map Text.quoted) ++ "]"
  "ExecutionContext \x7b messages: " ++ list c.messages.keys ++
    ", import_requests: " ++ list c.importRequests ++
    ", cancelled: " ++ toString c.isCancelled ++
    ", memoized_preconditions: " ++ toString c.shared.memo.size ++ " \x7d"

end Context

/-! ### Steps of a visit -/

/-- Why a visit breaks off, and with it the run. -/
inductive Failure where
  /-- The model of a project got lost. -/
  | missingModel (e : Maven.MissingModel)
  /-- An element was to be removed at an index that a list of this length does not have. -/
  | removal (index length : Nat)
deriving DecidableEq, Repr

/-- The text of a failure. -/
def Failure.message : Failure → String
  | .missingModel e => e.message
  | .removal index length =>
    "removal index (is " ++ toString index ++ ") should be < len (is " ++ toString length ++ ")"

/-- Steps of a visit, which may fail. -/
abbrev ContextM (ω : Type) := StateT (Context ω) (Except Failure)

/-- A step that does not fail. -/
def ContextM.ofState {ω α : Type} (x : StateM (Context ω) α) : ContextM ω α := fun c => .ok (x c)

end Lossless
