import Lossless.Table

/-!
# Project models

The part of a project's description that edits rest on: its coordinates, those of
its parent, its properties and its dependencies. Reading a model off a document is
the work of `Lossless.Maven.Resolve`; here are the model and what it answers about
itself.

Properties are kept sorted by key, so that two models are equal exactly when they
answer alike. A text may refer to a property as `${key}`;
`Lossless.Maven.Pom.value` puts in what the model knows, in one pass from left to
right.
-/

namespace Lossless.Maven

/-- The coordinates of a project: group, artifact and version. -/
structure Gav where
  /-- The group identifier. -/
  groupId : String
  /-- The artifact identifier. -/
  artifactId : String
  /-- The version, where one is known. -/
  version : Option String
deriving DecidableEq, Repr, Inhabited

/-- The coordinates in one word, `group:artifact` or `group:artifact:version`. -/
def Gav.display (g : Gav) : String :=
  match g.version with
  | some v => g.groupId ++ ":" ++ g.artifactId ++ ":" ++ v
  | none => g.groupId ++ ":" ++ g.artifactId

/-- A project that a model builds on. -/
structure Dependency where
  /-- What is depended on. -/
  gav : Gav
  /-- Where it is visible. -/
  scope : Option String
deriving DecidableEq, Repr, Inhabited

/-- A table of properties. -/
structure Properties where
  /-- The entries. -/
  entries : List (String × String)
  /-- They are sorted by key. -/
  sorted : Table.IsSorted entries
deriving DecidableEq, Repr

namespace Properties

/-- The table without entries. -/
def empty : Properties := ⟨[], .nil⟩

instance : Inhabited Properties := ⟨empty⟩

/-- The value of a key. -/
def get? (p : Properties) (key : String) : Option String := p.entries.lookup key

/-- Maps a key to a value, in place of any value it had. -/
def insert (p : Properties) (key value : String) : Properties :=
  ⟨Table.insert key value p.entries, Table.isSorted_insert key value p.sorted⟩

@[simp]
theorem get?_insert (p : Properties) (key value k : String) :
    (p.insert key value).get? k = if k = key then some value else p.get? k :=
  Table.lookup_insert key value k p.entries

/-- Tables are equal if they give every key the same value. -/
theorem ext_get? {p q : Properties} (h : ∀ k, p.get? k = q.get? k) : p = q := by
  cases p with
  | mk es hes =>
    cases q with
    | mk fs hfs => simp only [mk.injEq]; exact Table.ext_lookup hes hfs h

/-- Adds the entries one by one; of two with one key the later counts. -/
def insertAll (p : Properties) (entries : List (String × String)) : Properties :=
  entries.foldl (fun p e => p.insert e.1 e.2) p

/-- The table with the given entries; of two with one key the later counts. -/
def ofList (entries : List (String × String)) : Properties := empty.insertAll entries

end Properties

/-- The model of a project. -/
structure Pom where
  /-- The project's own coordinates. -/
  gav : Gav
  /-- The coordinates of its parent. -/
  parent : Option Gav
  /-- The kind of artifact that the project produces. -/
  packaging : String
  /-- The properties, inherited ones included. -/
  properties : Properties
  /-- The declared dependencies, in the order of the document. -/
  dependencies : List Dependency
deriving DecidableEq, Repr, Inhabited

/-! ### References in a text -/

/-- The key of a reference and the text after it, given the text after `${`: the
key is not empty and runs up to the first closing brace. -/
def reference? (s : List Char) : Option (List Char × List Char) :=
  match s.takeWhile (· ≠ '}'), s.dropWhile (· ≠ '}') with
  | c :: key, _ :: rest => some (c :: key, rest)
  | _, _ => none

/-- What stands behind a reference is shorter than the text it starts. -/
theorem length_of_reference? {s key rest : List Char} (h : reference? s = some (key, rest)) :
    rest.length < s.length := by
  unfold reference? at h
  split at h
  · rename_i hd
    have hle := (List.dropWhile_sublist (· ≠ '}') (l := s)).length_le
    rw [hd] at hle
    simp only [Option.some.injEq, Prod.mk.injEq] at h
    obtain ⟨-, rfl⟩ := h
    simp only [List.length_cons] at hle
    omega
  · cases h

/-- Replaces every reference whose key `find` knows, from left to right. What was
put in is not read again. -/
def substitute (find : List Char → Option (List Char)) (s : List Char) : List Char :=
  match s with
  | [] => []
  | '$' :: '{' :: s =>
    match h : reference? s with
    | some (key, rest) =>
      (find key).getD ('$' :: '{' :: key ++ ['}']) ++
        have := length_of_reference? h
        substitute find rest
    | none => '$' :: substitute find ('{' :: s)
  | c :: s => c :: substitute find s
termination_by s.length

namespace Pom

/-- The value of a property. -/
def property (p : Pom) (key : String) : Option String := p.properties.get? key

/-- The model with one property set. -/
def withProperty (p : Pom) (key value : String) : Pom :=
  { p with properties := p.properties.insert key value }

/-- What a reference stands for: the project's own group or artifact, else a
property. -/
def lookup (p : Pom) (key : String) : Option String :=
  if key = "project.groupId" then some p.gav.groupId
  else if key = "project.artifactId" then some p.gav.artifactId
  else p.property key

/-- A text with all known references replaced; unknown ones stay as written. -/
def value (p : Pom) (text : String) : String :=
  String.ofList
    (substitute (fun key => (p.lookup (String.ofList key)).map String.toList) text.toList)

/-- The first dependency on an artifact of a group. -/
def findDependency (p : Pom) (groupId artifactId : String) : Option Dependency :=
  p.dependencies.find? fun d => d.gav.groupId = groupId && d.gav.artifactId = artifactId

end Pom

end Lossless.Maven
