import Lossless.Maven.Pom
import Lossless.Text.Quoted

/-!
# Markers

Facts attached to a node beside its syntax: that a search found it, which project
model a document carries, a label or a version of the user's. A node carries a bag
of them (`Lossless.Markers`), in the order in which they were added and with
repetitions. Operations that speak of "the" marker of a kind mean the first.
-/

namespace Lossless

/-- A fact attached to a node. -/
inductive Marker where
  /-- A free label. -/
  | label (text : String)
  /-- A version number. -/
  | version (number : Int)
  /-- The node was found by a search, which may say why. -/
  | searchResult (description : Option String)
  /-- The model of the project that the document describes. -/
  | pom (model : Maven.Pom)
  /-- The models of the project's modules. -/
  | modules (models : List Maven.Pom)
deriving DecidableEq, Repr

/-- The kinds of markers. -/
inductive MarkerKind where
  | label
  | version
  | searchResult
  | pom
  | modules
deriving DecidableEq, Repr

/-- The kind of a marker. -/
def Marker.kind : Marker → MarkerKind
  | .label _ => .label
  | .version _ => .version
  | .searchResult _ => .searchResult
  | .pom _ => .pom
  | .modules _ => .modules

/-- The name of a kind of markers. -/
def MarkerKind.name : MarkerKind → String
  | .label => "Label"
  | .version => "Version"
  | .searchResult => "SearchResult"
  | .pom => "Pom"
  | .modules => "Modules"

/-- A marker as it appears in diagnostics. Of models only the coordinates are shown. -/
def Marker.describe : Marker → String
  | .label text => "Label(" ++ Text.quoted text ++ ")"
  | .version number => "Version(" ++ toString number ++ ")"
  | .searchResult none => "SearchResult \x7b description: None \x7d"
  | .searchResult (some d) =>
    "SearchResult \x7b description: Some(" ++ Text.quoted d ++ ") \x7d"
  | .pom model => "Pom(" ++ model.gav.display ++ ")"
  | .modules models => "Modules(" ++ ", ".intercalate (models.map (·.gav.display)) ++ ")"

/-- Two markers of one kind in one: labels are joined, version numbers are added, as
numbers of 64 bits with a sign, and of others the new one counts. -/
def Marker.join : Marker → Marker → Marker
  | .label old, .label new => .label (old ++ "+" ++ new)
  | .version old, .version new => .version ((old + new).bmod (1 <<< 64))
  | _, new => new

/-- The markers of a node, oldest first. -/
structure Markers where
  /-- The markers themselves. -/
  toList : List Marker
deriving DecidableEq, Repr

namespace Markers

/-- No marker. -/
def empty : Markers := ⟨[]⟩

instance : Inhabited Markers := ⟨empty⟩

/-- How many markers there are. -/
def size (m : Markers) : Nat := m.toList.length

/-- Is there no marker? -/
def isEmpty (m : Markers) : Bool := m.toList.isEmpty

/-- The first marker of a kind. -/
def find? (m : Markers) (k : MarkerKind) : Option Marker := m.toList.find? (·.kind = k)

/-- All markers of a kind. -/
def findAll (m : Markers) (k : MarkerKind) : List Marker := m.toList.filter (·.kind = k)

/-- Is there a marker of this kind? -/
def contains (m : Markers) (k : MarkerKind) : Bool := m.toList.any (·.kind = k)

/-- The position of the first marker of a kind. -/
def firstIndex? (m : Markers) (k : MarkerKind) : Option Nat := m.toList.findIdx? (·.kind = k)

/-- Appends a marker. -/
def add (m : Markers) (x : Marker) : Markers := ⟨m.toList ++ [x]⟩

/-- Replaces the first marker `y` of the kind of `x` by `merge y x`, in its place; if
there is none, appends `x`. -/
def mergeInto (merge : Marker → Marker → Marker) (x : Marker) : List Marker → List Marker
  | [] => [x]
  | y :: rest => if y.kind = x.kind then merge y x :: rest else y :: mergeInto merge x rest

/-- Adds a marker to a bag, combining it with the first of its kind. -/
def merge (m : Markers) (x : Marker) (f : Marker → Marker → Marker) : Markers :=
  ⟨mergeInto f x m.toList⟩

/-- Puts a marker in the place of the first of its kind, or at the end. -/
def set (m : Markers) (x : Marker) : Markers := m.merge x fun _ new => new

/-- Drops all markers of a kind. -/
def removeAll (m : Markers) (k : MarkerKind) : Markers := ⟨m.toList.filter (·.kind ≠ k)⟩

/-- The markers as they appear in diagnostics. -/
def describe (m : Markers) : String :=
  "[" ++ ", ".intercalate (m.toList.map Marker.describe) ++ "]"

/-- The model that the first model marker holds. -/
def pom? (m : Markers) : Option Maven.Pom :=
  m.toList.findSome? fun | .pom model => some model | _ => none

theorem findSome?_mergeInto_pom (model : Maven.Pom) (ms : List Marker) :
    ((mergeInto (fun _ new => new) (.pom model) ms).findSome? fun
      | .pom model => some model
      | _ => none) = some model := by
  induction ms with
  | nil => rfl
  | cons m ms ih => cases m <;> simp_all [mergeInto, Marker.kind]

/-- A model that is set can be read back. -/
@[simp]
theorem pom?_set (m : Markers) (model : Maven.Pom) : (m.set (.pom model)).pom? = some model :=
  findSome?_mergeInto_pom model m.toList

/-- The modules that the first marker for them lists; none without such a marker. -/
def modules (m : Markers) : List Maven.Pom :=
  (m.toList.findSome? fun | .modules models => some models | _ => none).getD []

end Markers

end Lossless
