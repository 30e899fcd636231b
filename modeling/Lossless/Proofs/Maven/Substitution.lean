import Lossless.Maven.Pom
import Lossless.Proofs.Text.Pieces

/-!
# References are replaced in one pass

A text is read from left to right. Where a reference begins, its key runs up to the next closing
brace, whatever else it holds, and what the key stands for goes into the text in its place. So a
text is a first piece and then references, each with the piece behind it
(`Lossless.Maven.assemble`), and a model puts what it knows in place of the references and leaves
the pieces alone.

If no dollar sign stands in the pieces, the references between them are the ones that are replaced,
also where a key holds what opens a reference. And every text can be seen in such pieces, before
there is a model (`Lossless.Maven.exists_readsAs`): which references are replaced does not depend on
what they are replaced by. A value that looks like a reference is not one.
-/

namespace Lossless.Maven

/-! ### The pieces of a text -/

/-- A reference in a text and the piece of the text behind it. -/
structure Reference where
  /-- The key of the reference. -/
  key : String
  /-- What stands between this reference and the next one. -/
  after : String

/-- Can a text be the key of a reference? -/
def IsKey (key : String) : Prop := key ≠ "" ∧ '}' ∉ key.toList

/-- A reference as it is written. -/
def asWritten (key : String) : String := "$\x7b" ++ key ++ "\x7d"

/-- A text of pieces, with something for every reference between them. -/
def assemble (put : String → String) (first : String) (rs : List Reference) : String :=
  first ++ String.join (rs.map fun r => put r.key ++ r.after)

theorem assemble_nil (put : String → String) (first : String) : assemble put first [] = first :=
  String.append_empty

theorem assemble_cons (put : String → String) (first : String) (r : Reference)
    (rs : List Reference) :
    assemble put first (r :: rs) = first ++ (put r.key ++ assemble put r.after rs) := by
  simp only [assemble, List.map_cons, String.join_cons, String.append_assoc]

/-- What stands in front of everything stays in front. -/
theorem assemble_append (put : String → String) (s first : String) (rs : List Reference) :
    assemble put (s ++ first) rs = s ++ assemble put first rs :=
  String.append_assoc ..

/-- What a key stands for in a model. The project's own group and artifact come before properties of
these names, and a key that is not known stands for the reference itself. -/
def Pom.standsFor (p : Pom) (key : String) : String :=
  if key = "project.groupId" then p.gav.groupId
  else if key = "project.artifactId" then p.gav.artifactId
  else (p.property key).getD (asWritten key)

/-- A reference stands for what is found for it, or else for itself. -/
theorem Pom.getD_lookup (p : Pom) (key : String) :
    (p.lookup key).getD (asWritten key) = p.standsFor key := by
  unfold Pom.lookup Pom.standsFor
  split
  · rfl
  · split <;> rfl

/-! ### One step of the pass -/

/-- A key up to the next brace is a reference. -/
theorem reference?_append {key : List Char} (hne : key ≠ []) (hkey : '}' ∉ key) (s : List Char) :
    reference? (key ++ '}' :: s) = some (key, s) := by
  have hrun : ∀ c ∈ key, decide (c ≠ '}') = true := fun c hc =>
    decide_eq_true fun h => hkey (h ▸ hc)
  obtain ⟨c, cs, rfl⟩ := List.exists_cons_of_ne_nil hne
  rw [reference?, Text.takeWhile_append_cons hrun (by decide),
    Text.dropWhile_append_cons hrun (by decide)]

/-- A reference is a key up to the next brace. -/
theorem eq_append_of_reference? {s key rest : List Char} (h : reference? s = some (key, rest)) :
    s = key ++ '}' :: rest ∧ key ≠ [] ∧ '}' ∉ key := by
  have happend := List.takeWhile_append_dropWhile (p := fun c => decide (c ≠ '}')) (l := s)
  unfold reference? at h
  split at h
  · next c cs d ds htake hdrop =>
    cases h
    obtain rfl : d = '}' := by simpa using Text.eq_false_of_dropWhile_eq_cons hdrop
    rw [htake, hdrop] at happend
    refine ⟨happend.symm, List.cons_ne_nil _ _, fun hmem => ?_⟩
    rw [← htake] at hmem
    simpa using List.mem_takeWhile_imp hmem
  · cases h

section Step

variable (find : List Char → Option (List Char))

/-- A character at which no reference begins is kept. -/
theorem substitute_cons {c : Char} {s : List Char}
    (h : ∀ t, c = '$' → s = '{' :: t → reference? t = none) :
    substitute find (c :: s) = c :: substitute find s := by
  by_cases hopen : ∃ t, c = '$' ∧ s = '{' :: t
  · obtain ⟨t, rfl, rfl⟩ := hopen
    rw [substitute.eq_2]
    split
    · next hsome => rw [h t rfl rfl] at hsome; cases hsome
    · rfl
  · exact substitute.eq_3 _ _ _ fun t hc hs => hopen ⟨t, hc, hs⟩

/-- Up to the first dollar sign nothing is replaced. -/
theorem substitute_append {l : List Char} (h : '$' ∉ l) (s : List Char) :
    substitute find (l ++ s) = l ++ substitute find s := by
  induction l with
  | nil => rfl
  | cons c l ih =>
    obtain ⟨hc, hl⟩ := not_or.1 (mt List.mem_cons.2 h)
    rw [List.cons_append, substitute_cons find fun _ h => absurd h.symm hc, ih hl, List.cons_append]

/-- A reference is replaced as a whole, and the pass goes on behind it. -/
theorem substitute_reference {key : List Char} (hne : key ≠ []) (hkey : '}' ∉ key)
    (s : List Char) :
    substitute find ('$' :: '{' :: (key ++ '}' :: s)) =
      (find key).getD ('$' :: '{' :: key ++ ['}']) ++ substitute find s := by
  rw [substitute.eq_2]
  split
  · next hsome =>
    rw [reference?_append hne hkey] at hsome
    cases hsome
    rfl
  · next hnone => rw [reference?_append hne hkey] at hnone; cases hnone

end Step

/-! ### The pass -/

namespace Pom

variable (p : Pom)

theorem value_empty : p.value "" = "" := by
  simp [value, substitute]

/-- A character that does not begin a reference stays. -/
theorem value_singleton_append {c : Char} {s : List Char}
    (h : ∀ t, c = '$' → s = '{' :: t → reference? t = none) :
    p.value (String.ofList (c :: s)) = String.singleton c ++ p.value (String.ofList s) := by
  rw [value, value, String.toList_ofList, String.toList_ofList, substitute_cons _ h,
    ← String.toList_inj]
  simp

/-- A text without dollar signs stays. -/
theorem value_append {l : String} (h : '$' ∉ l.toList) (s : String) :
    p.value (l ++ s) = l ++ p.value s := by
  rw [value, String.toList_append, substitute_append _ h, String.ofList_append,
    String.ofList_toList]
  rfl

/-- A reference makes way for what it stands for, and what comes behind it is replaced on its own.
-/
theorem value_asWritten_append {key : String} (h : IsKey key) (s : String) :
    p.value (asWritten key ++ s) = p.standsFor key ++ p.value s := by
  have hne : key.toList ≠ [] := fun hnil => h.1 (String.toList_eq_nil_iff.1 hnil)
  have htext : (asWritten key ++ s).toList = '$' :: '{' :: (key.toList ++ '}' :: s.toList) := by
    simp [asWritten]
  rw [value, htext, substitute_reference _ hne h.2, String.ofList_append, ← getD_lookup]
  congr 1
  rw [String.ofList_toList]
  cases p.lookup key with
  | none => simp [asWritten, ← String.toList_inj]
  | some value => simp

/-- Where no dollar sign stands in the pieces, exactly the references between them are replaced. -/
theorem value_assemble {first : String} {rs : List Reference} (hfirst : '$' ∉ first.toList)
    (hrs : ∀ r ∈ rs, IsKey r.key ∧ '$' ∉ r.after.toList) :
    p.value (assemble asWritten first rs) = assemble p.standsFor first rs := by
  induction rs generalizing first with
  | nil =>
    rw [assemble_nil, assemble_nil]
    have hvalue := p.value_append hfirst ""
    rwa [value_empty, String.append_empty] at hvalue
  | cons r rs ih =>
    obtain ⟨⟨hkey, hafter⟩, hrs⟩ := List.forall_mem_cons.1 hrs
    rw [assemble_cons, assemble_cons, value_append p hfirst, value_asWritten_append p hkey,
      ih hafter hrs]

end Pom

/-- A text is made of these pieces and references, and the references are what models replace. -/
structure ReadsAs (text first : String) (rs : List Reference) : Prop where
  text_eq : assemble asWritten first rs = text
  isKey : ∀ r ∈ rs, IsKey r.key
  value_eq : ∀ p : Pom, p.value text = assemble p.standsFor first rs

namespace ReadsAs

variable {first : String} {rs : List Reference}

/-- A character at which no reference begins belongs to the piece in front. -/
theorem cons {c : Char} {s : List Char} (h : ReadsAs (String.ofList s) first rs)
    (hc : ∀ t, c = '$' → s = '{' :: t → reference? t = none) :
    ReadsAs (String.ofList (c :: s)) (String.singleton c ++ first) rs where
  text_eq := by
    rw [assemble_append, h.text_eq, ← String.toList_inj]
    simp
  isKey := h.isKey
  value_eq p := by rw [assemble_append, p.value_singleton_append hc, h.value_eq]

theorem reference {key : String} {s : String} (h : ReadsAs s first rs) (hkey : IsKey key) :
    ReadsAs (asWritten key ++ s) "" (⟨key, first⟩ :: rs) where
  text_eq := by rw [assemble_cons, h.text_eq, String.empty_append]
  isKey := List.forall_mem_cons.2 ⟨hkey, h.isKey⟩
  value_eq p := by
    rw [assemble_cons, p.value_asWritten_append hkey, h.value_eq, String.empty_append]

end ReadsAs

/-- **The references of a text are known before there is a model.** -/
theorem exists_readsAs (s : List Char) : ∃ first rs, ReadsAs (String.ofList s) first rs := by
  induction s using substitute.induct with
  | case1 => exact ⟨"", [], rfl, fun _ h => absurd h List.not_mem_nil, Pom.value_empty⟩
  | case2 s key rest hreference ih =>
    obtain ⟨first, rs, hrest⟩ := ih
    obtain ⟨rfl, hne, hkey⟩ := eq_append_of_reference? hreference
    have hiskey : IsKey (String.ofList key) := by
      refine ⟨fun h => hne ?_, by rwa [String.toList_ofList]⟩
      simpa using h
    have hwritten : String.ofList ('$' :: '{' :: (key ++ '}' :: rest)) =
        asWritten (String.ofList key) ++ String.ofList rest := by
      simp [asWritten, ← String.toList_inj]
    exact ⟨_, _, hwritten ▸ hrest.reference hiskey⟩
  | case3 s hreference ih =>
    obtain ⟨first, rs, hrest⟩ := ih
    refine ⟨_, _, hrest.cons fun t _ h => ?_⟩
    obtain rfl : s = t := List.tail_eq_of_cons_eq h
    exact hreference
  | case4 c s hother ih =>
    obtain ⟨first, rs, hrest⟩ := ih
    exact ⟨_, _, hrest.cons fun t hc hs => absurd hs (hother t hc)⟩

/-- **References are replaced in one pass.** A text of pieces without dollar signs and of references
between them keeps the pieces, and has in the place of each reference what its key stands for. In
every text the references that are replaced are the same for all models, so that none of them can
come out of a value. -/
theorem Pom.value_spec :
    (∀ (p : Pom) (first : String) (rs : List Reference), '$' ∉ first.toList →
      (∀ r ∈ rs, IsKey r.key ∧ '$' ∉ r.after.toList) →
        p.value (assemble asWritten first rs) = assemble p.standsFor first rs) ∧
    ∀ text : String, ∃ first rs, assemble asWritten first rs = text ∧ (∀ r ∈ rs, IsKey r.key) ∧
      ∀ p : Pom, p.value text = assemble p.standsFor first rs := by
  refine ⟨fun p _ _ hfirst hrs => p.value_assemble hfirst hrs, fun text => ?_⟩
  obtain ⟨first, rs, h⟩ := exists_readsAs text.toList
  rw [String.ofList_toList] at h
  exact ⟨first, rs, h.text_eq, h.isKey, h.value_eq⟩

/-- A model with a property that looks like a reference, and with one that no reference reaches. -/
def circular : Pom :=
  { (default : Pom) with
    gav := { groupId := "g", artifactId := "a", version := none }
    properties := .ofList [("x", "$\x7bx\x7d"), ("project.groupId", "no")] }

/-- A value is not read again, and a key may hold what opens a reference. -/
theorem Pom.value_spec_circular :
    circular.value "l$\x7bx\x7d$\x7bproject.groupId\x7dm$\x7b$\x7bx\x7dn" =
      "l$\x7bx\x7dgm$\x7b$\x7bx\x7dn" :=
  Pom.value_spec.1 circular "l" [⟨"x", ""⟩, ⟨"project.groupId", "m"⟩, ⟨"$\x7bx", "n"⟩]
    (by decide) (by simp [IsKey])

end Lossless.Maven
