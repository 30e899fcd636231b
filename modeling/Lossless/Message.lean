import Lossless.Table

/-!
# Messages

Short notes left under a key, for whoever comes later: on a frame of a cursor, or in
the context of a run. A note is read by key and kind; asking for another kind than
the note's finds nothing.

What can be noted is left open: any values that come in kinds (`Lossless.Kinded`).
Where nothing is said the notes are numbers, texts and truth values
(`Lossless.Message`). Notes are kept sorted by key, so that two collections of them
are equal exactly when they hold the same notes.
-/

namespace Lossless

/-- Values that come in kinds. -/
class Kinded (μ : Type) (κ : outParam Type) where
  /-- The kind of a value. -/
  kind : μ → κ

/-- A note. -/
inductive Message where
  /-- A number. -/
  | int (n : Int)
  /-- A text. -/
  | text (s : String)
  /-- A truth value. -/
  | flag (b : Bool)
deriving DecidableEq, Repr

/-- The kinds of notes. -/
inductive MessageKind where
  | int
  | text
  | flag
deriving DecidableEq, Repr

/-- The kind of a note. -/
def Message.kind : Message → MessageKind
  | .int _ => .int
  | .text _ => .text
  | .flag _ => .flag

instance : Kinded Message MessageKind := ⟨Message.kind⟩

/-- Notes by key. -/
structure Messages (μ : Type := Message) where
  /-- The notes. -/
  entries : List (String × μ)
  /-- They are sorted by key. -/
  sorted : Table.IsSorted entries
deriving DecidableEq, Repr

namespace Messages

variable {μ κ : Type}

/-- No notes. -/
def empty : Messages μ := ⟨[], .nil⟩

/-- The keys in use. -/
def keys (m : Messages μ) : List String := m.entries.map Prod.fst

/-- The note under a key, whatever its kind. -/
def find? (m : Messages μ) (key : String) : Option μ := m.entries.lookup key

/-- The note under a key, if it is of this kind. -/
def get? [DecidableEq κ] [Kinded μ κ] (m : Messages μ) (key : String) (k : κ) : Option μ :=
  (m.find? key).filter (Kinded.kind · = k)

/-- Collections are equal if they hold the same notes. -/
theorem ext_find? {m n : Messages μ} (h : ∀ key, m.find? key = n.find? key) : m = n := by
  cases m with
  | mk es hes =>
    cases n with
    | mk fs hfs => simp only [mk.injEq]; exact Table.ext_lookup hes hfs h

/-- Leaves a note, in place of any note under the same key. -/
def insert (m : Messages μ) (key : String) (x : μ) : Messages μ :=
  ⟨Table.insert key x m.entries, Table.isSorted_insert key x m.sorted⟩

@[simp]
theorem find?_insert (m : Messages μ) (key : String) (x : μ) (k : String) :
    (m.insert key x).find? k = if k = key then some x else m.find? k :=
  Table.lookup_insert key x k m.entries

/-- Drops the note under a key. -/
def erase (m : Messages μ) (key : String) : Messages μ :=
  ⟨Table.erase key m.entries, Table.isSorted_erase key m.sorted⟩

@[simp]
theorem find?_erase (m : Messages μ) (key k : String) :
    (m.erase key).find? k = if k = key then none else m.find? k :=
  Table.lookup_erase key k m.entries

/-- Takes the note under a key away. If it is not of this kind it is put back. -/
def poll [DecidableEq κ] [Kinded μ κ] (m : Messages μ) (key : String) (k : κ) :
    Option μ × Messages μ :=
  match m.find? key with
  | none => (none, m)
  | some x =>
    if Kinded.kind x = k then (some x, m.erase key) else (none, (m.erase key).insert key x)

/-- A note that is taken away and put back is where it was. -/
theorem insert_erase {m : Messages μ} {key : String} {x : μ} (h : m.find? key = some x) :
    (m.erase key).insert key x = m := by
  refine ext_find? fun k => ?_
  rw [find?_insert, find?_erase]
  by_cases hk : k = key
  · rw [if_pos hk, hk, h]
  · rw [if_neg hk, if_neg hk]

/-- Asking for a note that is not there, or that is of another kind, changes nothing. -/
theorem poll_of_get?_eq_none [DecidableEq κ] [Kinded μ κ] {m : Messages μ} {key : String} {k : κ}
    (h : m.get? key k = none) : m.poll key k = (none, m) := by
  unfold poll
  cases hfound : m.find? key with
  | none => rfl
  | some x =>
    have hkind : Kinded.kind x ≠ k := by
      rw [get?, hfound] at h
      simpa using h
    simp only [if_neg hkind, insert_erase hfound]

end Messages

end Lossless
