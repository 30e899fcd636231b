import Lossless.Proofs.Maven.Property

/-!
# Models that fall behind their documents

When a property changes, the recipe changes it in the model as well. So the model should be the
one that would be read off the new document. Most of it is: of what is read, only the properties
depend on the tags that change (`Lossless.ChangeProperty.read_changedTag`). But there are two
things that the recipe does not see to.

* In the version, references have been replaced when the model was read. The version in the
  model keeps the old value of the property (`Lossless.ChangeProperty.version_falls_behind`).
* Only the first section of properties of a project is read, while the recipe changes tags in all
  of them. A property may be set in the model though no tag that is read declares it.

`Lossless.ChangeProperty.model_apply_resolve_iff` says that there is nothing else.
-/

namespace Lossless

open Xml

/-! ### Properties -/

namespace Maven

namespace Properties

variable (p : Properties) (key value : String)

/-- The last entry is inserted last. -/
theorem insertAll_concat (es : List (String × String)) (e : String × String) :
    p.insertAll (es ++ [e]) = (p.insertAll es).insert e.1 e.2 := List.foldl_append

theorem insert_insert (old : String) :
    (p.insert key old).insert key value = p.insert key value := by
  refine ext_get? fun k => ?_
  rw [get?_insert, get?_insert, get?_insert]
  split <;> rfl

/-- Entries with different keys can be inserted in either order. -/
theorem insert_comm {key' : String} (h : key' ≠ key) (value' : String) :
    (p.insert key value).insert key' value' = (p.insert key' value').insert key value := by
  refine ext_get? fun k => ?_
  simp only [get?_insert]
  by_cases hk : k = key'
  · rw [if_pos hk, if_pos hk, if_neg (hk ▸ h)]
  · rw [if_neg hk, if_neg hk]

/-- To insert an entry changes nothing exactly if it is there. -/
theorem insert_eq_self_iff : p.insert key value = p ↔ p.get? key = some value := by
  constructor
  · intro h
    rw [← h, get?_insert, if_pos rfl]
  · intro h
    refine ext_get? fun k => ?_
    rw [get?_insert]
    split
    · next hk => rw [hk, h]
    · rfl

/-- If all entries with a key are given the same value, the key has this value in the table, if
there are any. -/
theorem insertAll_map (es : List (String × String)) :
    p.insertAll (es.map fun e => (e.1, if e.1 = key then value else e.2)) =
      if key ∈ es.map Prod.fst then (p.insertAll es).insert key value else p.insertAll es := by
  -- from the end, as the last entry with a key is the one that counts
  induction es using List.reverseRecOn with
  | nil => rfl
  | append_singleton es e ih =>
    rw [List.map_append, List.map_append, List.map_singleton, List.map_singleton, insertAll_concat,
      insertAll_concat, ih]
    by_cases he : e.1 = key
    · rw [if_pos he, if_pos (List.mem_append_right _ (List.mem_singleton.mpr he.symm)), he,
        insert_insert]
      split
      · rw [insert_insert]
      · rfl
    · have hkeys : key ∈ es.map Prod.fst ++ [e.1] ↔ key ∈ es.map Prod.fst := by
        simp [Ne.symm he]
      rw [if_neg he, if_congr hkeys rfl rfl]
      split
      · rw [insert_comm _ _ _ he]
      · rfl

end Properties

namespace Pom

variable (p : Pom) (key value : String)

theorem withProperty_eq_self_iff : p.withProperty key value = p ↔ p.property key = some value := by
  rw [property, ← Properties.insert_eq_self_iff]
  constructor
  · exact congrArg Pom.properties
  · intro h
    rw [withProperty, h]

/-- To replace the references in a version and to set a property come to the same in either order
exactly if the version reads the same with this property. -/
theorem interpolated_withProperty_iff :
    p.interpolated.withProperty key value = (p.withProperty key value).interpolated ↔
      p.gav.version.map (p.withProperty key value).value = p.gav.version.map p.value := by
  constructor
  · intro h
    exact (congrArg (·.gav.version) h).symm
  · intro h
    have hversion : p.gav.version.map p.value =
        (p.withProperty key value).gav.version.map (p.withProperty key value).value := h.symm
    rw [interpolated, interpolated, hversion]
    rfl

end Pom

end Maven

namespace Xml

/-- The tags inside a tag, as they are found among its children. -/
theorem Tag.childTags_eq (n : Tag Tree) :
    n.childTags = (children (.tag n)).filterMap Tree.tag? := by
  have hattributes : (n.attributes.map Tree.attr).filterMap Tree.tag? = [] := by
    rw [List.filterMap_map, List.filterMap_eq_nil_iff]
    exact fun _ _ => rfl
  rw [Tree.children_eq_inner, Tree.inner, List.filterMap_append, hattributes, List.nil_append]
  rfl

theorem Tag.name_of_child? {n c : Tag Tree} {name : String} (h : n.child? name = some c) :
    c.name = name := by
  simpa using List.find?_some h

/-- The way to a node begins with the node where it begins. -/
theorem prefix_pathTo {t u : Tree} {p : Position} (hu : at? t p = some u) :
    tagNames [t] <+: pathTo t p := by
  cases p with
  | nil => exact List.prefix_refl _
  | cons i p =>
    obtain ⟨c, hc, -⟩ := Option.bind_eq_some_iff.mp hu
    rw [pathTo_cons hc]
    exact List.prefix_append _ _

end Xml

namespace ChangeProperty

variable {r : ChangeProperty} {above : List String} {n : Tag Tree} {t : Tree}

/-! ### Tags that are read -/

/-- The tag with the replacements made. -/
def changedTag (r : ChangeProperty) (above : List String) (n : Tag Tree) : Tag Tree :=
  (replace (r.replacements above (.tag n)) (.tag n)).tag?.getD n

/-- A tag makes way for a tag. -/
theorem replace_tag_eq (above : List String) (n : Tag Tree) :
    replace (r.replacements above (.tag n)) (.tag n) = .tag (r.changedTag above n) := by
  have hkind := kind_replace (r := r) above (.tag n)
  rw [changedTag]
  cases hnew : replace (r.replacements above (.tag n)) (.tag n) with
  | tag m => rfl
  | _ =>
    rw [hnew] at hkind
    cases hkind

/-- What is a tag remains one, and what is none becomes none. -/
theorem tag?_replace (above : List String) (t : Tree) :
    (replace (r.replacements above t) t).tag? = t.tag?.map (r.changedTag above) := by
  have hnone : ∀ t : Tree, t.kind ≠ .tag → t.tag? = none := by
    intro t h
    cases t with
    | tag n => exact absurd rfl h
    | _ => rfl
  by_cases h : t.kind = .tag
  · cases t with
    | tag n => rw [replace_tag_eq]; rfl
    | _ => cases h
  · rw [hnone t h, hnone _ (kind_replace above t ▸ h), Option.map_none]

/-- A declaring tag gets the new value. -/
theorem changedTag_of_declares (h : r.Declares above (.tag n)) :
    r.changedTag above n = n.withValue r.newValue := by
  rw [changedTag, replace_tag h]
  rfl

/-- A tag that is not on the way to a declaring tag stays as it is. -/
theorem changedTag_eq_self (h : ¬above ++ [n.name] <+: r.path) : r.changedTag above n = n := by
  rw [changedTag, replace_replacements_of_none]
  · rfl
  · refine fun p => replacements_eq_none_iff.mpr fun m hm => absurd ?_ h
    rw [← hm.2]
    exact (List.prefix_append_right_inj above).mpr (prefix_pathTo hm.1)

/-- A tag keeps its name. -/
theorem name_changedTag (above : List String) (n : Tag Tree) :
    (r.changedTag above n).name = n.name := by
  by_cases h : r.Declares above (.tag n)
  · rw [changedTag_of_declares h, n.name_withValue]
  · have hnames := tagNames_eq_of_hollow (hollow_replace h)
    rw [replace_tag_eq] at hnames
    exact List.singleton_inj.mp hnames

/-- The tags inside a tag are those that were there, with the replacements made in them. -/
theorem childTags_changedTag (h : ¬r.Declares above (.tag n)) :
    (r.changedTag above n).childTags = n.childTags.map (r.changedTag (above ++ [n.name])) := by
  rw [Tag.childTags_eq, Tag.childTags_eq, ← replace_tag_eq, children_replace h, List.filterMap_map,
    List.map_filterMap]
  exact List.filterMap_congr fun c _ => tag?_replace _ c

/-- The first tag inside with some name is the one that it was, with the replacements made in it. -/
theorem child?_changedTag (h : ¬r.Declares above (.tag n)) (name : String) :
    (r.changedTag above n).child? name =
      (n.child? name).map (r.changedTag (above ++ [n.name])) := by
  rw [Tag.child?, Tag.child?, childTags_changedTag h, List.find?_map]
  congr 2
  funext c
  simp only [Function.comp_apply, name_changedTag]

/-! ### The model that is read -/

section Root

variable {root : Tag Tree}

theorem not_declares_of_length (h : above.length ≠ 2) : ¬r.Declares above (.tag n) := by
  intro hn
  have hlength := congrArg List.length (declares_tag.mp hn)
  rw [List.length_append] at hlength
  exact h (Nat.succ.inj hlength)

/-- What is no project has no properties. -/
theorem changedTag_of_not_project (h : root.name ≠ "project") : r.changedTag [] root = root := by
  refine changedTag_eq_self fun hprefix => h ?_
  exact (List.cons_prefix_cons.mp hprefix).1

variable (h : root.name = "project")

include h

/-- Beside its properties a project has the tags that it had. -/
theorem child?_changedTag_project {name : String} (hname : name ≠ "properties") :
    (r.changedTag [] root).child? name = root.child? name := by
  rw [child?_changedTag (not_declares_of_length (by decide)), h]
  cases hc : root.child? name with
  | none => rfl
  | some c =>
    have hcname := Tag.name_of_child? hc
    rw [Option.map_some, changedTag_eq_self]
    intro hprefix
    exact hname (hcname ▸ (List.cons_prefix_cons.mp (List.cons_prefix_cons.mp hprefix).2).1)

theorem childValue?_changedTag_project {name : String} (hname : name ≠ "properties") :
    (r.changedTag [] root).childValue? [name] = root.childValue? [name] := by
  rw [Tag.childValue?, Tag.childValue?, child?_changedTag_project h hname]

/-- **Of the properties that are read, those with the key have the new value.** -/
theorem declaredProperties_changedTag :
    Maven.declaredProperties (r.changedTag [] root) =
      (Maven.declaredProperties root).map fun e =>
        (e.1, if e.1 = r.key then r.newValue else e.2) := by
  rw [Maven.declaredProperties, Maven.declaredProperties,
    child?_changedTag (not_declares_of_length (by decide)), h]
  cases hsection : root.child? "properties" with
  | none => rfl
  | some tag =>
    have hname := Tag.name_of_child? hsection
    show ((r.changedTag _ tag).childTags.map fun p => (p.name, p.value?.getD "")) =
      (tag.childTags.map fun p => (p.name, p.value?.getD "")).map _
    rw [childTags_changedTag (not_declares_of_length (by decide)), hname, List.map_map,
      List.map_map]
    refine List.map_congr_left fun p _ => ?_
    simp only [Function.comp_apply, name_changedTag]
    -- in the section, a tag declares the property or is not on the way to a tag that does
    by_cases hkey : p.name = r.key
    · have hdeclares : r.Declares ["project", "properties"] (.tag p) := by
        rw [declares_tag, hkey]
        rfl
      rw [if_pos hkey]
      show (p.name, (r.changedTag ["project", "properties"] p).value?.getD "") = _
      rw [changedTag_of_declares hdeclares, p.value?_withValue]
      rfl
    · rw [if_neg hkey]
      show (p.name, (r.changedTag ["project", "properties"] p).value?.getD "") = _
      rw [changedTag_eq_self]
      intro hprefix
      have hlast := (List.cons_prefix_cons.mp (List.cons_prefix_cons.mp hprefix).2).2
      exact hkey (List.cons_prefix_cons.mp hlast).1

end Root

/-- In the section that is read from a project the property is declared. -/
def ReadFrom (r : ChangeProperty) (root : Tag Tree) : Prop :=
  root.name = "project" ∧ r.key ∈ (Maven.declaredProperties root).map Prod.fst

instance (r : ChangeProperty) (root : Tag Tree) : Decidable (r.ReadFrom root) :=
  inferInstanceAs (Decidable (_ ∧ _))

open Maven (Pom Downloader)

/-- **Of what is read from a project only the property changes**, if it is declared where it is
read. -/
theorem read_changedTag (root : Tag Tree) (downloader : Downloader) :
    Pom.read (r.changedTag [] root) downloader =
      if r.ReadFrom root then (Pom.read root downloader).withProperty r.key r.newValue
      else Pom.read root downloader := by
  by_cases h : root.name = "project"
  · -- what does not come from the properties is read from tags that are not on the way to them
    have hcoordinates : ∀ inherited,
        Maven.coordinates (r.changedTag [] root) inherited = Maven.coordinates root inherited := by
      intro inherited
      rw [Maven.coordinates, Maven.coordinates, childValue?_changedTag_project h (by decide),
        childValue?_changedTag_project h (by decide), childValue?_changedTag_project h (by decide)]
    have hdependencies : Maven.declaredDependencies (r.changedTag [] root) =
        Maven.declaredDependencies root := by
      rw [Maven.declaredDependencies, Maven.declaredDependencies,
        child?_changedTag_project h (by decide)]
    rw [Pom.read, child?_changedTag_project h (by decide), hcoordinates,
      childValue?_changedTag_project h (by decide), declaredProperties_changedTag h,
      Maven.Properties.insertAll_map, hdependencies]
    by_cases hkey : r.key ∈ (Maven.declaredProperties root).map Prod.fst
    · rw [if_pos hkey, if_pos ⟨h, hkey⟩]
      rfl
    · rw [if_neg hkey, if_neg fun hread => hkey hread.2]
      rfl
  · rw [changedTag_of_not_project h, if_neg fun hread => h hread.1]

/-- The new root is the old one with the replacements made. -/
theorem root_eq {base base' : Document Tree}
    (h : replace (r.replacements [] (.document base)) (.document base) = .document base') :
    base'.root = r.changedTag [] base.root := by
  have hnot : ¬r.Declares [] (.document base) := fun hdeclares => by cases hdeclares.1
  have hchildren := children_replace hnot
  rw [h, Tree.children_eq_inner, Tree.children_eq_inner] at hchildren
  rw [Tree.inner, Tree.inner, List.map_append] at hchildren
  have hroot := List.singleton_inj.mp (List.append_inj_right' hchildren rfl)
  exact Tree.tag.inj (hroot.trans (replace_tag_eq [] base.root))

/-- The model that the recipe leaves is the one of the new document in these cases only. -/
theorem withProperty_eq_resolve_iff (root : Tag Tree) (downloader : Downloader) :
    (Pom.resolve root downloader).withProperty r.key r.newValue =
        Pom.resolve (r.changedTag [] root) downloader ↔
      if r.ReadFrom root then
        let p := Pom.read root downloader
        p.gav.version.map (p.withProperty r.key r.newValue).value = p.gav.version.map p.value
      else (Pom.resolve root downloader).property r.key = some r.newValue := by
  rw [Pom.resolve, Pom.resolve, read_changedTag]
  split
  · exact Pom.interpolated_withProperty_iff _ _ _
  · exact Pom.withProperty_eq_self_iff _ _ _

section Resolve

variable {ω : Type} (r) (base : Document Tree) (downloader : Downloader) {c : Context ω}
  (hc : c.isCancelled = false)

include hc

/-- If a tag changes, the model has the new property in what was read off the old document. -/
theorem exists_apply_resolve_of_changed
    (h : ∃ p n, r.DeclaredAt [] (.document base) p n ∧ n.value? ≠ some r.newValue) :
    ∃ d' : Maven.Document,
      (∀ draft : Draft, draft.source = .maven (.resolve base downloader) →
        (r.recipe ω).apply (some draft) c = .ok (some ⟨.maven d', true⟩, c)) ∧
      d'.downloader = downloader ∧ d'.base.root = r.changedTag [] base.root ∧
      d'.model = (Pom.resolve base.root downloader).withProperty r.key r.newValue := by
  obtain ⟨base', hmodel, hbase, -, happly⟩ := r.exists_apply_eq (.resolve base downloader)
  have hne : base' ≠ (Maven.Document.resolve base downloader).base := by
    obtain ⟨p, n, hn, hvalue⟩ := h
    exact fun heq => hvalue ((document_eq_iff hbase).mp heq p n
      ((declaredAt_document (Tree.children_withMarkers base _)).mpr hn))
  have hroot := root_eq hbase
  rw [revision, if_neg hne] at happly
  exact ⟨_, fun draft => happly c draft hc, rfl, hroot, rfl⟩

/-- **When the model keeps up with the document.** After a run the model is the one that would be
read off the new document if and only if nothing has changed, or the property is declared in the
section that is read and the version reads the same with its new value, or it is not declared there
but has been inherited with the new value. -/
theorem model_apply_resolve_iff :
    ∃ w : Update Maven.Document,
      let d' := w.of (.resolve base downloader)
      (∀ draft : Draft, draft.source = .maven (.resolve base downloader) →
        (r.recipe ω).apply (some draft) c = .ok (some (draft.revise (w.map .maven)), c)) ∧
      d'.downloader = downloader ∧
      (d'.model = Pom.resolve d'.base.root downloader ↔
        (∀ p n, r.DeclaredAt [] (.document base) p n → n.value? = some r.newValue) ∨
          if r.ReadFrom base.root then
            let p := Pom.read base.root downloader
            p.gav.version.map (p.withProperty r.key r.newValue).value = p.gav.version.map p.value
          else (Pom.resolve base.root downloader).property r.key = some r.newValue) := by
  by_cases hvalues : ∀ p n, r.DeclaredAt [] (.document base) p n → n.value? = some r.newValue
  · have hresolved : ∀ p n,
        r.DeclaredAt [] (.document (Maven.Document.resolve base downloader).base) p n →
          n.value? = some r.newValue := fun p n hn =>
      hvalues p n ((declaredAt_document (Tree.children_withMarkers base _)).mp hn)
    exact ⟨.same, fun draft => apply_of_value hresolved hc, rfl, iff_of_true rfl (.inl hvalues)⟩
  · have hchanged : ∃ p n, r.DeclaredAt [] (.document base) p n ∧ n.value? ≠ some r.newValue := by
      simpa using hvalues
    obtain ⟨d', happly, hdownloader, hroot, hmodel⟩ :=
      exists_apply_resolve_of_changed r base downloader hc hchanged
    refine ⟨.new d', happly, hdownloader, ?_⟩
    rw [or_iff_right hvalues, Update.of_new, hroot, hmodel]
    exact withProperty_eq_resolve_iff base.root downloader

end Resolve

/-- The description of a project whose version refers to a property. -/
def referringProject : Document Tree :=
  { sourcePath := "pom.xml"
    root := Build.tag "project" .empty
      [.tag (Build.textTag "groupId" .empty "com.acme"),
        .tag (Build.textTag "artifactId" .empty "app"),
        .tag (Build.textTag "version" .empty "$\x7bv\x7d"),
        .tag (Build.tag "properties" .empty [.tag (Build.textTag "v" .empty "1")] .empty)]
      .empty }

/-- The property `v` changes from 1 to 2, and the version refers to it. -/
theorem model_apply_resolve_iff_referring :
    ({} : Context).isCancelled = false ∧
      ∃ w : Update Maven.Document,
        let d' := w.of (.resolve referringProject .offline)
        (∀ draft : Draft, draft.source = .maven (.resolve referringProject .offline) →
          (ChangeProperty.mk "v" "2").recipe.apply (some draft) {} =
            .ok (some (draft.revise (w.map .maven)), {})) ∧
        d'.downloader = .offline ∧
        (d'.model = Pom.resolve d'.base.root .offline ↔
          (∀ p n, (ChangeProperty.mk "v" "2").DeclaredAt [] (.document referringProject) p n →
            n.value? = some "2") ∨
            if (ChangeProperty.mk "v" "2").ReadFrom referringProject.root then
              let p := Pom.read referringProject.root .offline
              p.gav.version.map (p.withProperty "v" "2").value = p.gav.version.map p.value
            else (Pom.resolve referringProject.root .offline).property "v" = some "2") :=
  ⟨rfl, model_apply_resolve_iff (ChangeProperty.mk "v" "2") referringProject .offline (c := {}) rfl⟩

/-- The model keeps the old version when the property to which the version refers changes. -/
theorem version_falls_behind :
    ∃ d' : Maven.Document,
      (ChangeProperty.mk "v" "2").recipe.apply
        (some { source := .maven (.resolve referringProject .offline) }) {} =
          .ok (some ⟨.maven d', true⟩, ({} : Context)) ∧
      d'.downloader = .offline ∧ d'.model.gav.version = some "1" ∧
      (Pom.resolve d'.base.root .offline).gav.version = some "2" := by
  have hdeclared : (ChangeProperty.mk "v" "2").DeclaredAt [] (.document referringProject) [0, 3, 0]
      (Build.textTag "v" .empty "1") := ⟨rfl, rfl⟩
  have hread : (ChangeProperty.mk "v" "2").ReadFrom referringProject.root := by decide
  obtain ⟨d', happly, hdownloader, hroot, hmodel⟩ :=
    exists_apply_resolve_of_changed (ChangeProperty.mk "v" "2") referringProject .offline (c := {})
      rfl ⟨_, _, hdeclared, by decide⟩
  refine ⟨d', happly _ rfl, hdownloader, ?_, ?_⟩
  · rw [hmodel]
    decide +kernel
  · rw [hroot, Pom.resolve, read_changedTag, if_pos hread]
    decide +kernel

end ChangeProperty

end Lossless
