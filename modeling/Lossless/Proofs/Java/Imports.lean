import Lossless.Proofs.Java.Print
import Lossless.Proofs.Text.Pieces

/-!
# Imports of dotted names

A dotted name is cut at its dots, and the segments are put together as accesses to members of
members, the last segment outermost (`Lossless.Java.Build.access?`). Two recursions come back from
this tree to a text: the name that it spells, and the printer. Both go into the target of an access
and come out with a dot and the name of a member
(`Lossless.Java.Build.flattened_memberOfMember`), so both give the segments with dots between them,
which is the name that was cut. Segments may be empty.
-/

namespace Lossless.Java.Build

open Java.Tree

/-! ### Accesses -/

/-- The access to a member of a node. -/
def member (target : Tree) (s : List Char) : FieldAccess Tree :=
  { target, name := .build (Identifier.build (String.ofList s) none) }

/-- The access to a member of a member of … of an access. -/
def memberOfMember (n : FieldAccess Tree) (segments : List (List Char)) : FieldAccess Tree :=
  segments.foldl (fun n s => member (.fieldAccess n) s) n

/-- A dotted name is an access to the last segment of the name in front of it. -/
theorem access?_cons (target : Tree) (s : List Char) (rest : List (List Char)) :
    access? target (s :: rest) = some (memberOfMember (member target s) rest) := by
  induction rest generalizing target s with
  | nil => rfl
  | cons next rest ih => exact ih (.fieldAccess (member target s)) next

/-- The leading text of a dotted name is that of its first segment. -/
theorem lead_memberOfMember {n : FieldAccess Tree} (h : n.lead = .empty)
    (segments : List (List Char)) : (memberOfMember n segments).lead = .empty := by
  induction segments generalizing n with
  | nil => exact h
  | cons s segments ih => exact ih rfl

/-- What gives an access as its target, a dot and its member gives a chain of accesses as the
segments with dots between them. -/
theorem flattened_memberOfMember {f : Tree → List Char}
    (hf : ∀ target s, f (.fieldAccess (member target s)) = f target ++ '.' :: s)
    (n : FieldAccess Tree) (segments : List (List Char)) :
    f (.fieldAccess (memberOfMember n segments)) =
      f (.fieldAccess n) ++ segments.flatMap ('.' :: ·) := by
  induction segments generalizing n with
  | nil => exact (List.append_nil _).symm
  | cons s segments ih =>
    have hrest := ih (member (.fieldAccess n) s)
    rwa [hf, List.append_assoc] at hrest

/-- The name of a member is that of its owner with one more segment. -/
theorem qualifiedName_member (target : Tree) (s : List Char) :
    (Tree.fieldAccess (member target s)).qualifiedName.toList =
      target.qualifiedName.toList ++ '.' :: s := by
  rw [Tree.qualifiedName]
  simp [member, LeftPadded.build, Identifier.build]

/-- So is its text. -/
theorem text_member (target : Tree) (s : List Char) :
    text (Tree.fieldAccess (member target s)) = text target ++ '.' :: s := by
  rw [text_eq_append]
  simp [body, member, LeftPadded.build, Identifier.build, text_identifier, Tree.lead, head,
    Space.text_empty]

/-! ### Names -/

/-- A text without a dot is no qualified name. -/
theorem qualifiedName?_of_not_mem {s : List Char} (h : '.' ∉ s) : qualifiedName? s = none := by
  rw [qualifiedName?, Text.splitAt_of_not_mem h]
  rfl

/-- A dotted name is found again in the tree for it, and printed. -/
theorem exists_qualifiedName? {s : List Char} (h : '.' ∈ s) :
    ∃ n, qualifiedName? s = some n ∧ n.lead = .empty ∧
      (Tree.fieldAccess n).qualifiedName.toList = s ∧ text (Tree.fieldAccess n) = s := by
  obtain ⟨first, second, rest, hsplit⟩ := Text.exists_splitAt_of_mem h
  have hjoin := Text.joinWith_splitAt '.' s
  rw [hsplit, Text.joinWith_cons, List.flatMap_cons, ← List.append_assoc] at hjoin
  refine ⟨memberOfMember (member (name (String.ofList first) none) second) rest, ?_,
    lead_memberOfMember rfl rest, ?_, ?_⟩
  · rw [qualifiedName?, hsplit]
    exact access?_cons ..
  · have hfirst : (name (String.ofList first) none).qualifiedName.toList = first := by
      simp [name, Identifier.build, Tree.qualifiedName]
    rw [flattened_memberOfMember (f := fun t => t.qualifiedName.toList) qualifiedName_member,
      qualifiedName_member, hfirst, hjoin]
  · have hfirst : text (name (String.ofList first) none) = first := by
      simp [name, Identifier.build, text_identifier, Space.text_empty]
    rw [flattened_memberOfMember text_member, text_member, hfirst, hjoin]

/-! ### Imports -/

theorem staticName?_of_not_prefix {s : List Char} (h : ¬"static ".toList <+: s) :
    staticName? s = none := by
  rw [staticName?, if_neg (by rwa [List.isPrefixOf_iff_prefix])]

theorem staticName?_append (s : String) : staticName? ("static " ++ s).toList = some s.toList := by
  rw [staticName?, String.toList_append,
    if_pos (List.isPrefixOf_iff_prefix.2 (List.prefix_append ..))]
  rfl

section Built

variable (staticLead : Option Space) (n : FieldAccess Tree)

/-- The import of an access. -/
def importing : Import Tree := { staticLead, qualified := { n with lead := .single } }

/-- An import names what the qualified name in it says, static or not. -/
theorem typeName_importing :
    (importing staticLead n).typeName = (Tree.fieldAccess n).qualifiedName := by
  rw [Import.typeName, FieldAccess.qualifiedName, Tree.qualifiedName, Tree.qualifiedName]
  rfl

/-- An import is printed as the keyword, perhaps another one for static ones, and the name. -/
theorem print_importing {n : FieldAccess Tree} (h : n.lead = .empty) :
    print (Tree.importDecl (importing staticLead n)) =
      "import" ++ staticLead.elim "" (·.text ++ "static") ++ " " ++
        print (Tree.fieldAccess n) := by
  have hqualified : text (Tree.fieldAccess (importing staticLead n).qualified) =
      ' ' :: text (Tree.fieldAccess n) := by
    have hbody : text (Tree.fieldAccess n) = chars (Tree.fieldAccess n).body := by
      rw [text_eq_append, Tree.lead, head, h]
      rfl
    rw [hbody]
    exact text_withLead .single (Tree.fieldAccess n)
  refine String.toList_injective ?_
  rw [toList_print, text_eq_append, body, chars_append, chars_child, hqualified]
  cases staticLead <;>
    simp [importing, staticKeyword, Tree.lead, head, Space.text_empty, toList_print]

end Built

/-- An import is read by looking for the keyword for static ones first, and then for a qualified
name. -/
theorem importOf_eq (s : String) :
    importOf s =
      match qualifiedName? ((staticName? s.toList).getD s.toList) with
      | some n => .ok (importing ((staticName? s.toList).map fun _ => .single) n)
      | none => .error ⟨String.ofList ((staticName? s.toList).getD s.toList)⟩ := rfl

/-- **Dotted names are imported as they are.** The import of a name with a dot in it names this name
and is printed as this name behind the keyword, and if the keyword of static imports stands in front
of the name, it is a static import of the name. A name without a dot is refused. -/
theorem importOf_spec (s : String) :
    ('.' ∈ s.toList →
      (¬"static ".toList <+: s.toList → ∃ n, importOf s = .ok n ∧ n.isStatic = false ∧
        n.typeName = s ∧ print (Tree.importDecl n) = "import " ++ s) ∧
      ∃ n, importOf ("static " ++ s) = .ok n ∧ n.isStatic = true ∧
        n.typeName = s ∧ print (Tree.importDecl n) = "import static " ++ s) ∧
    ('.' ∉ s.toList →
      (¬"static ".toList <+: s.toList → importOf s = .error ⟨s⟩) ∧
      importOf ("static " ++ s) = .error ⟨s⟩) := by
  refine ⟨fun h => ?_, fun h => ⟨fun hstatic => ?_, ?_⟩⟩
  · obtain ⟨n, hn, hlead, hname, htext⟩ := exists_qualifiedName? h
    have hprint : print (Tree.fieldAccess n) = s := String.toList_injective htext
    refine ⟨fun hstatic => ⟨importing none n, ?_, rfl, ?_, ?_⟩,
      ⟨importing (some .single) n, ?_, rfl, ?_, ?_⟩⟩
    · rw [importOf_eq, staticName?_of_not_prefix hstatic, Option.getD_none, hn]
      rfl
    · exact (typeName_importing ..).trans (String.toList_injective hname)
    · rw [print_importing _ hlead, hprint]
      rfl
    · rw [importOf_eq, staticName?_append, Option.getD_some, hn]
      rfl
    · exact (typeName_importing ..).trans (String.toList_injective hname)
    · rw [print_importing _ hlead, hprint]
      rfl
  · rw [importOf_eq, staticName?_of_not_prefix hstatic, Option.getD_none,
      qualifiedName?_of_not_mem h, String.ofList_toList]
  · rw [importOf_eq, staticName?_append, Option.getD_some, qualifiedName?_of_not_mem h,
      String.ofList_toList]

/-- Empty segments are kept, and of two keywords the second is part of the name. -/
theorem importOf_spec_emptySegments :
    (∃ n, importOf "a..b." = .ok n ∧ n.isStatic = false ∧ n.typeName = "a..b." ∧
      print (Tree.importDecl n) = "import a..b.") ∧
    (∃ n, importOf "static static .A" = .ok n ∧ n.isStatic = true ∧ n.typeName = "static .A" ∧
      print (Tree.importDecl n) = "import static static .A") ∧
    importOf "A" = .error ⟨"A"⟩ ∧ importOf "static A" = .error ⟨"A"⟩ := by
  obtain ⟨hplain, hstatic⟩ := (importOf_spec "A").2 (by decide)
  exact ⟨((importOf_spec "a..b.").1 (by decide)).1 (by decide),
    ((importOf_spec "static .A").1 (by decide)).2, hplain (by decide), hstatic⟩

end Lossless.Java.Build
