import Lossless.Proofs.Recipe.Actions
import Lossless.Proofs.Run.Alone
import Lossless.Proofs.Xml.Exchange
import Lossless.Xml.Build

/-!
# Properties that change

Which tags declare a property is a matter of the names around them, and these are not changed by
the recipe that gives the property another value. So what the recipe does to the tree of a
description can be said beforehand, by position: `Lossless.ChangeProperty.replacements`. Declaring
tags never stand within each other, as the way to each of them leads through three tags. That is
why the traversal, which comes to a tag after its content, finds the content as it was
(`Lossless.ChangeProperty.visit_inside`).

The outcome is `Lossless.ChangeProperty.Outcome`, and
`Lossless.ChangeProperty.apply_outcome` says that every description has it.
-/

namespace Lossless

open Xml

/-! ### The names of tags on a way -/

namespace Xml

/-- The names of the tags among some nodes, of which the last comes first. -/
def tagNames (us : List Tree) : List String := (us.filterMap fun t => t.tag?.map (·.name)).reverse

/-- The names of the tags around the node at a position, its own included, from the root down. -/
def pathTo (t : Tree) (p : Position) : List String := tagNames (lineage t p)

variable {t u c : Tree} {p : Position} {i : Nat}

theorem tagNames_append (us ts : List Tree) : tagNames (us ++ ts) = tagNames ts ++ tagNames us := by
  rw [tagNames, List.filterMap_append, List.reverse_append]
  rfl

/-- One step down, the name of the node comes last on the way, if it is a tag. -/
theorem tagPath_push (c : Cursor Tree) (t : Tree) :
    tagPath (c.push t) = tagPath c ++ tagNames [t] :=
  tagNames_append [t] c.path

/-- The way to a node below a child leads through the child. -/
theorem pathTo_cons (hc : (children t)[i]? = some c) (p : Position) :
    pathTo t (i :: p) = tagNames [t] ++ pathTo c p := by
  rw [pathTo, lineage, hc, Option.elim_some, tagNames_append]
  rfl

/-- The way to a tag ends with its name. -/
theorem exists_pathTo_eq {n : Tag Tree} (hn : at? t p = some (.tag n)) :
    ∃ names, pathTo t p = names ++ [n.name] := by
  induction p generalizing t with
  | nil =>
    obtain rfl := Option.some.inj hn
    exact ⟨[], rfl⟩
  | cons i p ih =>
    obtain ⟨c, hc, hn⟩ := Option.bind_eq_some_iff.mp hn
    obtain ⟨names, heq⟩ := ih hn
    exact ⟨tagNames [t] ++ names, by rw [pathTo_cons hc, heq, List.append_assoc]⟩

/-- Names of tags are no matter of what is in their places. -/
theorem tagNames_eq_of_hollow (h : u.hollow = t.hollow) : tagNames [u] = tagNames [t] := by
  have hname : ∀ t : Tree, t.hollow.tag?.map (·.name) = t.tag?.map (·.name) := fun t => by
    cases t <;> rfl
  have hsame : u.tag?.map (·.name) = t.tag?.map (·.name) := by rw [← hname, h, hname]
  simp only [tagNames, List.filterMap_cons, hsame]

/-- The markers of a document are no matter of its children. -/
theorem Tree.children_withMarkers (base : Document Tree) (markers : Markers) :
    children (.document { base with markers } : Tree) = children (.document base) := by
  rw [children_eq_inner, children_eq_inner]
  rfl

end Xml

/-! ### The value of a tag -/

theorem Xml.Tag.withValue_of_value {n : Tag Tree} {value : String} (h : n.value? = some value) :
    n.withValue value = n := if_pos h

/-- A value that is given to a tag is its value. -/
theorem Xml.Tag.value?_withValue (n : Tag Tree) (value : String) :
    (n.withValue value).value? = some value := by
  rw [withValue]
  split
  · assumption
  · show some (n.textFor value).text = some value
    rw [textFor]
    split <;> rfl

theorem Xml.Tag.name_withValue (n : Tag Tree) (value : String) :
    (n.withValue value).name = n.name := by
  rw [withValue]
  split <;> rfl

/-! ### Markers -/

/-- A model that is set comes in the place of the first one that was there. -/
theorem Markers.exists_set_pom {ms : Markers} {model : Maven.Pom} (h : ms.pom? = some model)
    (new : Maven.Pom) :
    ∃ before after, ms.toList = before ++ .pom model :: after ∧
      (∀ m ∈ before, m.kind ≠ .pom) ∧ (ms.set (.pom new)).toList = before ++ .pom new :: after := by
  obtain ⟨ms⟩ := ms
  induction ms with
  | nil => cases h
  | cons m ms ih =>
    by_cases hkind : m.kind = .pom
    · cases m with
      | pom old =>
        obtain rfl := Option.some.inj h
        exact ⟨[], ms, rfl, by simp, rfl⟩
      | _ => cases hkind
    · have hrest : pom? ⟨ms⟩ = some model := by
        cases m with
        | pom old => exact absurd rfl hkind
        | _ => exact h
      have hset : (set ⟨m :: ms⟩ (.pom new)).toList = m :: (set ⟨ms⟩ (.pom new)).toList :=
        if_neg hkind
      obtain ⟨before, after, heq, hbefore, hnew⟩ := ih hrest
      have heq : ms = before ++ .pom model :: after := heq
      refine ⟨m :: before, after, ?_, List.forall_mem_cons.mpr ⟨hkind, hbefore⟩, ?_⟩
      · rw [heq]
        rfl
      · rw [hset, hnew]
        rfl

/-- Another model leaves the modules. -/
theorem Markers.modules_set_pom {ms : Markers} {model : Maven.Pom} (h : ms.pom? = some model)
    (new : Maven.Pom) : (ms.set (.pom new)).modules = ms.modules := by
  obtain ⟨before, after, heq, -, hnew⟩ := exists_set_pom h new
  rw [modules, modules, heq, hnew, List.findSome?_append, List.findSome?_append]
  rfl

namespace ChangeProperty

variable (r : ChangeProperty)

/-! ### The tags that declare the property -/

/-- The names on the way to a tag that declares the property. -/
def path : List String := ["project", "properties", r.key]

/-- In a tree that stands within tags of these names, the tag at a position declares the
property. -/
def DeclaredAt (above : List String) (t : Tree) (p : Position) (n : Tag Tree) : Prop :=
  at? t p = some (.tag n) ∧ above ++ pathTo t p = r.path

/-- The tree itself, standing within tags of these names, is a tag that declares the property. -/
def Declares (above : List String) (t : Tree) : Prop :=
  t.kind = .tag ∧ above ++ tagNames [t] = r.path

/-- What comes in the place of the node at a position: a declaring tag makes way for one with the
new value, unless it has that value. -/
def replacements (above : List String) (t : Tree) : Replacements Tree := fun p =>
  match at? t p with
  | some (.tag n) =>
    if above ++ pathTo t p = r.path ∧ n.value? ≠ some r.newValue then
      some (.tag (n.withValue r.newValue))
    else none
  | _ => none

variable {r} {above : List String} {t c u : Tree} {p : Position} {i : Nat} {n : Tag Tree}

/-- Replaced are the declaring tags with another value. -/
theorem replacements_eq_some_iff :
    r.replacements above t p = some u ↔
      ∃ n, r.DeclaredAt above t p n ∧ n.value? ≠ some r.newValue ∧
        u = .tag (n.withValue r.newValue) := by
  constructor
  · intro h
    rw [replacements] at h
    split at h
    · next n hn =>
      split at h
      · next hcond => exact ⟨n, ⟨hn, hcond.1⟩, hcond.2, (Option.some.inj h).symm⟩
      · cases h
    · cases h
  · rintro ⟨n, ⟨hn, hpath⟩, hvalue, rfl⟩
    simp only [replacements, hn]
    exact if_pos ⟨hpath, hvalue⟩

/-- Nothing is replaced at a position where no tag declares another value. -/
theorem replacements_eq_none_iff :
    r.replacements above t p = none ↔
      ∀ n, r.DeclaredAt above t p n → n.value? = some r.newValue := by
  rw [Option.eq_none_iff_forall_ne_some]
  constructor
  · intro h n hn
    by_contra hvalue
    exact h _ (replacements_eq_some_iff.mpr ⟨n, hn, hvalue, rfl⟩)
  · intro h u hu
    obtain ⟨n, hn, hvalue, -⟩ := replacements_eq_some_iff.mp hu
    exact hvalue (h n hn)

theorem declares_tag : r.Declares above (.tag n) ↔ above ++ [n.name] = r.path :=
  and_iff_right rfl

/-- At the root a tag declares the property if the tree itself does. -/
theorem declaredAt_nil : r.DeclaredAt above t [] n ↔ t = .tag n ∧ r.Declares above t := by
  constructor
  · rintro ⟨hn, hpath⟩
    obtain rfl := Option.some.inj hn
    exact ⟨rfl, rfl, hpath⟩
  · rintro ⟨rfl, -, hpath⟩
    exact ⟨rfl, hpath⟩

theorem not_declares_of_forall (h : ∀ n, ¬r.DeclaredAt above t [] n) : ¬r.Declares above t := by
  intro ht
  cases t with
  | tag n => exact h n (declaredAt_nil.mpr ⟨rfl, ht⟩)
  | _ => cases ht.1

/-- Below a child a tag declares the property if it does so as seen from the child. -/
theorem declaredAt_cons (hc : (children t)[i]? = some c) :
    r.DeclaredAt above t (i :: p) n ↔ r.DeclaredAt (above ++ tagNames [t]) c p n := by
  rw [DeclaredAt, DeclaredAt, at?_cons hc, pathTo_cons hc, List.append_assoc]

theorem exists_of_declaredAt_cons (h : r.DeclaredAt above t (i :: p) n) :
    ∃ c, (children t)[i]? = some c ∧ r.DeclaredAt (above ++ tagNames [t]) c p n := by
  obtain ⟨c, hc, -⟩ := Option.bind_eq_some_iff.mp h.1
  exact ⟨c, hc, (declaredAt_cons hc).mp h⟩

/-- Whether a node declares the property is no matter of what is in its places. -/
theorem declares_iff_of_hollow (h : u.hollow = t.hollow) :
    r.Declares above u ↔ r.Declares above t := by
  have hkind : u.kind = t.kind := Anatomy.kind_eq_of_hollow h
  rw [Declares, Declares, tagNames_eq_of_hollow h, hkind]

/-- **Declaring tags do not stand within each other.** -/
theorem not_declaredAt_of_path (h : above = r.path) : ¬r.DeclaredAt above t p n := by
  rintro ⟨hn, hpath⟩
  obtain ⟨names, heq⟩ := exists_pathTo_eq hn
  rw [heq, h] at hpath
  have := congrArg List.length hpath
  simp at this

/-- The replacements below a child are those that are made in it, standing where it does. -/
theorem replacements_below (hc : (children t)[i]? = some c) :
    (r.replacements above t).below i = r.replacements (above ++ tagNames [t]) c := by
  funext p
  rw [Replacements.below, replacements, replacements, at?_cons hc, pathTo_cons hc,
    List.append_assoc]

/-- A tree in which nothing is replaced stays as it is. -/
theorem replace_replacements_of_none (h : ∀ p, r.replacements above t p = none) :
    replace (r.replacements above t) t = t :=
  replace_of_forall_none h

/-- Below a declaring tag nothing is replaced. -/
theorem replace_of_path (h : above = r.path) (t : Tree) :
    replace (r.replacements above t) t = t :=
  replace_replacements_of_none fun _ => replacements_eq_none_iff.mpr fun _ hn =>
    absurd hn (not_declaredAt_of_path h)

/-- The children make way for what the replacements within them make of them. -/
theorem replaceChildren_replacements (t : Tree) :
    replaceChildren (r.replacements above t) t =
      (children t).map fun c => replace (r.replacements (above ++ tagNames [t]) c) c :=
  replaceChildren_eq_map fun _ _ hc => by rw [replacements_below hc]

/-! ### The traversal -/

/-- The traversal stands at a declaring tag exactly if the names on its way are the path of the
property. -/
theorem isPropertyTag_iff {c : Cursor Tree} {name : String} (h : tagPath c = above ++ [name]) :
    (name = r.key ∧ Maven.isPropertyTag c = true) ↔ above ++ [name] = r.path := by
  rw [Maven.isPropertyTag, h, path]
  constructor
  · rintro ⟨rfl, hproperty⟩
    split at hproperty
    · next x heq =>
      rw [heq]
      have hlast := congrArg List.getLast? heq
      simp at hlast
      rw [hlast]
    · cases hproperty
  · intro heq
    have hlast := congrArg List.getLast? heq
    simp at hlast
    exact ⟨hlast, by simp [heq]⟩

section Update

variable {cursor : Cursor Tree}

/-- A tag that declares the property is set to the tag with the new value. -/
theorem update_tag (h : tagPath cursor = above ++ [n.name]) (hn : r.Declares above (.tag n)) :
    r.update cursor (.tag n) = .setting (.tag n) (.tag (n.withValue r.newValue)) := by
  obtain ⟨hname, hproperty⟩ := (isPropertyTag_iff h).mpr (declares_tag.mp hn)
  by_cases hvalue : n.value? = some r.newValue
  · simp [update, Update.setting, hvalue, Tag.withValue_of_value]
  · have hne : n.withValue r.newValue ≠ n := fun heq => hvalue (heq ▸ n.value?_withValue r.newValue)
    simp [update, Update.setting, hname, hproperty, hvalue, hne]

/-- A node that does not declare the property is left the same. -/
theorem update_of_not_declares (h : tagPath cursor = above ++ tagNames [t])
    (ht : ¬r.Declares above t) : r.update cursor t = .same := by
  cases t with
  | tag n =>
    have hproperty := mt (isPropertyTag_iff h).mp (mt declares_tag.mpr ht)
    rw [update, if_neg]
    intro hcond
    rw [Bool.and_eq_true, Bool.and_eq_true, decide_eq_true_eq] at hcond
    exact hproperty hcond.1
  | _ => rfl

end Update

/-- A tag that declares the property makes way for the tag with the new value. -/
theorem replace_tag (hn : r.Declares above (.tag n)) :
    replace (r.replacements above (.tag n)) (.tag n) = .tag (n.withValue r.newValue) := by
  by_cases hvalue : n.value? = some r.newValue
  · rw [Tag.withValue_of_value hvalue]
    refine replace_replacements_of_none fun p => replacements_eq_none_iff.mpr fun m hm => ?_
    cases p with
    | nil =>
      obtain rfl := Tree.tag.inj (declaredAt_nil.mp hm).1
      exact hvalue
    | cons i p =>
      obtain ⟨c, -, hc⟩ := exists_of_declaredAt_cons hm
      exact absurd hc (not_declaredAt_of_path (declares_tag.mp hn))
  · exact replace_of_some (replacements_eq_some_iff.mpr
      ⟨n, declaredAt_nil.mpr ⟨rfl, hn⟩, hvalue, rfl⟩)

/-- A node that does not declare the property itself is put together again. -/
theorem replace_of_not_declares (ht : ¬r.Declares above t) :
    replace (r.replacements above t) t =
      mapChildren (fun c => replace (r.replacements (above ++ tagNames [t]) c) c) t := by
  rw [mapChildren, ← replaceChildren_replacements]
  exact replace_of_none <| replacements_eq_none_iff.mpr fun _ hn =>
    absurd (declaredAt_nil.mp hn).2 ht

/-- A node that does not declare the property keeps its data. -/
theorem hollow_replace (ht : ¬r.Declares above t) :
    (replace (r.replacements above t) t).hollow = t.hollow := by
  rw [replace_of_not_declares ht]
  exact hollow_rebuild (List.length_map _)

/-- A node makes way for one of its kind. -/
theorem kind_replace (above : List String) (t : Tree) :
    (replace (r.replacements above t) t).kind = t.kind := by
  by_cases ht : r.Declares above t
  · cases t with
    | tag n => rw [replace_tag ht]; rfl
    | _ => cases ht.1
  · exact Anatomy.kind_eq_of_hollow (hollow_replace ht)

/-- Its children are those with the replacements made in them. -/
theorem children_replace (ht : ¬r.Declares above t) :
    children (replace (r.replacements above t) t) =
      (children t).map fun c => replace (r.replacements (above ++ tagNames [t]) c) c := by
  rw [replace_of_not_declares ht]
  refine children_rebuild ?_
  rw [List.forall₂_map_right_iff, List.forall₂_same]
  exact fun c _ => kind_replace _ c

/-- At a node whose children have had their turn, the recipe makes the replacement that is left to
be made there. -/
theorem andThen_update (cursor : Cursor Tree) (t : Tree) :
    let w := Update.setting t
      (mapChildren (fun c => replace (r.replacements (tagPath (cursor.push t)) c) c) t)
    w.andThen (r.update (cursor.push t) (w.of t)) =
      .setting t (replace (r.replacements (tagPath cursor) t) t) := by
  intro w
  have hcursor := tagPath_push cursor t
  by_cases ht : r.Declares (tagPath cursor) t
  · -- nothing has been replaced in the children, as declaring tags do not stand within each other
    have hpath : tagPath (cursor.push t) = r.path := hcursor.trans ht.2
    have hw : w = .same := if_pos (mapChildren_eq_self fun c _ => replace_of_path hpath c)
    rw [hw, Update.of_same]
    cases t with
    | tag n =>
      rw [replace_tag ht, update_tag hcursor ht]
      cases Update.setting (Tree.tag n) (.tag (n.withValue r.newValue)) <;> rfl
    | _ => cases ht.1
  · -- the node has other children now, but whether it declares the property is a matter of its name
    have hw : w = .setting t (replace (r.replacements (tagPath cursor) t) t) := by
      rw [replace_of_not_declares ht, ← hcursor]
    have hhollow : (w.of t).hollow = t.hollow := by
      rw [hw, Update.of_setting, hollow_replace ht]
    rw [← tagNames_eq_of_hollow hhollow] at hcursor
    rw [update_of_not_declares hcursor (mt (declares_iff_of_hollow hhollow).mp ht),
      Update.andThen_same, hw]

/-- **The traversal makes the replacements**, and what comes out is the very tree that was there if
there are none to be made. -/
theorem visit_inside {ω : Type} (t : Tree) (s : Traversal Tree (Context ω)) :
    (r.action ω).inside.visit t s =
      .ok (some (.setting t (replace (r.replacements (tagPath s.cursor) t) t)), s) := by
  induction t using induction_on_children generalizing s with
  | step t ih =>
    -- on the way to a child there is the node in addition, so by induction it makes way for what
    -- the replacements below the node make of it
    have hwalk := Lossless.Visitor.walk_of_unmoved (v := (r.action ω).inside) (t := t)
      (s := ⟨s.state, s.cursor.push t⟩) fun c hc => ih c hc _
    rw [update_setting fun c _ => kind_replace _ c] at hwalk
    have hnode : (r.action ω).inside.node t ((r.action ω).inside.walk t)
        ⟨s.state, s.cursor.push t⟩ =
          .ok (some (.setting t (replace (r.replacements (tagPath s.cursor) t) t)),
            ⟨s.state, s.cursor.push t⟩) := by
      rw [← andThen_update]
      exact (bind_of_eq hwalk).trans (bind_of_eq rfl)
    have henter : (r.action ω).inside.enter t s.state = pure (true, s.state) := rfl
    exact Lossless.Visitor.visit_of_entered henter hnode

/-! ### The tree afterwards -/

/-- **Afterwards the declaring tags have the new value.** -/
theorem value?_of_declaredAt_replace
    (hn : r.DeclaredAt above (replace (r.replacements above t) t) p n) :
    n.value? = some r.newValue := by
  induction p generalizing above t with
  | nil =>
    by_cases ht : r.Declares above t
    · cases t with
      | tag m =>
        rw [replace_tag ht] at hn
        obtain rfl := Tree.tag.inj (declaredAt_nil.mp hn).1
        exact m.value?_withValue r.newValue
      | _ => cases ht.1
    · exact absurd ((declares_iff_of_hollow (hollow_replace ht)).mp (declaredAt_nil.mp hn).2) ht
  | cons i p ih =>
    obtain ⟨c, hc, hn⟩ := exists_of_declaredAt_cons hn
    by_cases ht : r.Declares above t
    · cases t with
      | tag m =>
        -- the new tag has the name of the old one, and so declares the property itself
        rw [replace_tag ht] at hn
        refine absurd hn (not_declaredAt_of_path ?_)
        rw [← declares_tag.mp ht, ← m.name_withValue r.newValue]
        rfl
      | _ => cases ht.1
    · rw [children_replace ht, List.getElem?_map] at hc
      obtain ⟨d, hd, rfl⟩ := Option.map_eq_some_iff.mp hc
      rw [tagNames_eq_of_hollow (hollow_replace ht)] at hn
      exact ih hn

/-- At the position of a declaring tag there is the tag with the new value. -/
theorem at?_replace_of_declaredAt (hn : r.DeclaredAt above t p n) :
    at? (replace (r.replacements above t) t) p = some (.tag (n.withValue r.newValue)) := by
  induction p generalizing above t with
  | nil =>
    obtain ⟨rfl, ht⟩ := declaredAt_nil.mp hn
    rw [replace_tag ht, at?]
  | cons i p ih =>
    obtain ⟨c, hc, hn⟩ := exists_of_declaredAt_cons hn
    have ht : ¬r.Declares above t := fun ht => not_declaredAt_of_path ht.2 hn
    have hnew := congrArg (·[i]?) (children_replace ht)
    rw [List.getElem?_map, hc] at hnew
    rw [at?_cons hnew]
    exact ih hn

/-- At a position that is not within a declaring tag there is a node with the same data, around as
many children. -/
theorem at?_replace_of_not_declaredAt (hu : at? t p = some u)
    (hnot : ∀ q n, q <+: p → ¬r.DeclaredAt above t q n) :
    ∃ u', at? (replace (r.replacements above t) t) p = some u' ∧ u'.hollow = u.hollow ∧
      (children u').length = (children u).length := by
  have ht : ¬r.Declares above t := not_declares_of_forall fun n => hnot [] n List.nil_prefix
  induction p generalizing above t with
  | nil =>
    obtain rfl := Option.some.inj hu
    refine ⟨_, rfl, hollow_replace ht, ?_⟩
    rw [children_replace ht, List.length_map]
  | cons i p ih =>
    obtain ⟨c, hc, hu⟩ := Option.bind_eq_some_iff.mp hu
    have hnew := congrArg (·[i]?) (children_replace ht)
    rw [List.getElem?_map, hc] at hnew
    rw [at?_cons hnew]
    have hbelow : ∀ q n, q <+: p → ¬r.DeclaredAt (above ++ tagNames [t]) c q n :=
      fun q n hq hn =>
        hnot (i :: q) n ((List.prefix_cons_inj i).mpr hq) ((declaredAt_cons hc).mpr hn)
    exact ih hu hbelow (not_declares_of_forall fun n => hbelow [] n List.nil_prefix)

/-! ### The description -/

/-- What comes in the place of a document is a document with the same markers. -/
theorem exists_document (r : ChangeProperty) (base : Document Tree) :
    ∃ base' : Document Tree,
      replace (r.replacements [] (.document base)) (.document base) = .document base' ∧
        base'.markers = base.markers := by
  have hnot : ¬r.Declares [] (.document base) := fun h => by cases h.1
  have hhollow := hollow_replace hnot
  have hkind := kind_replace (r := r) [] (.document base)
  cases hnew : replace (r.replacements [] (.document base)) (.document base) with
  | document base' =>
    rw [hnew] at hhollow
    exact ⟨base', rfl, congrArg (fun t : Tree => t.head.markers) hhollow⟩
  | _ =>
    rw [hnew] at hkind
    cases hkind

section Revision

variable {d : Maven.Document} {base' : Document Tree}

/-- What becomes of a description with such a document: it stays the same if the document is the one
that it has, and otherwise the model is changed. -/
def revision (r : ChangeProperty) (d : Maven.Document) (base' : Document Tree)
    (hmodel : base'.markers.pom? = some d.model) : Update Maven.Document :=
  if base' = d.base then .same
  else .new (Maven.Document.withModel ⟨base', d.model, d.downloader, hmodel⟩
    (d.model.withProperty r.key r.newValue))

/-- **A visit of a description** makes the replacements in its document and revises the model. -/
theorem visitDescription_eq {ω : Type} (hmodel : base'.markers.pom? = some d.model)
    (hbase : replace (r.replacements [] (.document d.base)) (.document d.base) = .document base')
    (c : Context ω) :
    visitDescription (r.action ω) d c =
      .ok (.tree ((r.revision d base' hmodel).map .maven), c) := by
  have hvisit := visit_inside (r := r) (.document d.base) ⟨c, .empty⟩
  rw [show tagPath (Cursor.empty : Cursor Tree) = [] from rfl, hbase] at hvisit
  rw [revision]
  by_cases h : base' = d.base
  · rw [h, Update.setting, if_pos rfl] at hvisit
    rw [if_pos h, visitDescription_of_visited (Maven.visitBase_of_visit hvisit) rfl]
    rfl
  · have hne : Tree.document base' ≠ .document d.base := fun heq => h (Tree.document.inj heq)
    rw [Update.setting, if_neg hne] at hvisit
    rw [if_neg h, visitDescription_of_visited (Maven.visitBase_of_visit hvisit)
      (congrArg (Update.new <$> ·) (Maven.Document.ofBase_eq hmodel d.downloader))]
    rfl

end Revision

/-- The recipe leaves a description with the replacements made in its document, and with another
model if there were any. The context is left alone. -/
theorem exists_apply_eq {ω : Type} (r : ChangeProperty) (d : Maven.Document) :
    ∃ (base' : Document Tree) (hmodel : base'.markers.pom? = some d.model),
      replace (r.replacements [] (.document d.base)) (.document d.base) = .document base' ∧
        base'.markers = d.base.markers ∧
        ∀ (c : Context ω) (draft : Draft), c.isCancelled = false → draft.source = .maven d →
          (r.recipe ω).apply (some draft) c =
            .ok (some (draft.revise ((r.revision d base' hmodel).map .maven)), c) := by
  obtain ⟨base', hbase, hmarkers⟩ := r.exists_document d.base
  have hmodel : base'.markers.pom? = some d.model := by rw [hmarkers, d.pom?_eq]
  refine ⟨base', hmodel, hbase, hmarkers, fun c draft hc hdraft => ?_⟩
  have happly : (r.recipe ω).apply (some draft) = (r.procedure ω).apply (some draft) := by
    rw [Recipe.apply_eq_applyAll]
    exact bind_pure _
  rw [happly, Procedure.apply_some _ _ hc, hdraft]
  exact map_of_eq (visitDescription_eq hmodel hbase c)

/-- The document stays as it is exactly if no tag declares another value. -/
theorem document_eq_iff {base base' : Document Tree}
    (h : replace (r.replacements [] (.document base)) (.document base) = .document base') :
    base' = base ↔ ∀ p n, r.DeclaredAt [] (.document base) p n → n.value? = some r.newValue := by
  constructor
  · rintro rfl p n hn
    rw [← h] at hn
    exact value?_of_declaredAt_replace hn
  · intro hvalues
    rw [replace_replacements_of_none fun p => replacements_eq_none_iff.mpr (hvalues p)] at h
    exact (Tree.document.inj h).symm

/-- What is not in the places of a document does not matter to the tags in it. -/
theorem declaredAt_document {base base' : Document Tree}
    (h : children (Tree.document base') = children (Tree.document base)) :
    r.DeclaredAt [] (.document base') p n ↔ r.DeclaredAt [] (.document base) p n := by
  cases p with
  | nil => simp [declaredAt_nil]
  | cons i p =>
    constructor <;> intro hn <;> obtain ⟨c, hc, hn⟩ := exists_of_declaredAt_cons hn
    · exact (declaredAt_cons (h ▸ hc)).mpr hn
    · exact (declaredAt_cons (h.symm ▸ hc)).mpr hn

/-- What the recipe makes of a description. -/
structure Outcome (r : ChangeProperty) (d : Maven.Document) (w : Update Maven.Document) : Prop where
  /-- But for the markers of the document, its tree is the old one with the replacements made. -/
  tree_eq : Tree.document { (w.of d).base with markers := d.markers } =
    replace (r.replacements [] (.document d.base)) (.document d.base)
  /-- Each declaring tag is the old one with the new value. -/
  declaring : ∀ p n, r.DeclaredAt [] (.document d.base) p n →
    at? (Tree.document (w.of d).base) p = some (.tag (n.withValue r.newValue))
  /-- All nodes outside these tags have the data that they had, and as many children. -/
  other : ∀ p u, p ≠ [] → at? (Tree.document d.base) p = some u →
    (∀ q n, q <+: p → ¬r.DeclaredAt [] (.document d.base) q n) →
      ∃ u', at? (Tree.document (w.of d).base) p = some u' ∧ u'.hollow = u.hollow ∧
        (children u').length = (children u).length
  /-- No tag declares another value. -/
  value : ∀ p n, r.DeclaredAt [] (.document (w.of d).base) p n → n.value? = some r.newValue
  /-- If no tag did so before, and only then, it is the same description. -/
  same : (∀ p n, r.DeclaredAt [] (.document d.base) p n → n.value? = some r.newValue) ↔ w = .same
  /-- If some tag did, the model has changed, and with it the marker that holds it. -/
  model : (∃ p n, r.DeclaredAt [] (.document d.base) p n ∧ n.value? ≠ some r.newValue) →
    (w.of d).model = d.model.withProperty r.key r.newValue ∧
      ∃ before after, d.markers.toList = before ++ .pom d.model :: after ∧
        (∀ m ∈ before, m.kind ≠ .pom) ∧
        (w.of d).markers.toList = before ++ .pom (w.of d).model :: after
  /-- The modules are the same. -/
  modules_eq : (w.of d).modules = d.modules
  /-- Models of other projects come from where they came from. -/
  downloader_eq : (w.of d).downloader = d.downloader

section Apply

variable {ω : Type} {d : Maven.Document} {w : Update Maven.Document} {base' : Document Tree}

/-- The outcome for the tree, if but for the markers the document is the old one with the
replacements made. -/
theorem outcome_of_tree
    (hbase : replace (r.replacements [] (.document d.base)) (.document d.base) = .document base')
    (htree : base' = { (w.of d).base with markers := d.markers })
    (hsame : base' = d.base ↔ w = .same)
    (hmodel : base' ≠ d.base → (w.of d).model = d.model.withProperty r.key r.newValue ∧
      ∃ before after, d.markers.toList = before ++ .pom d.model :: after ∧
        (∀ m ∈ before, m.kind ≠ .pom) ∧
        (w.of d).markers.toList = before ++ .pom (w.of d).model :: after)
    (hmodules : (w.of d).modules = d.modules) (hdownloader : (w.of d).downloader = d.downloader) :
    Outcome r d w := by
  have hchildren : children (Tree.document (w.of d).base) = children (Tree.document base') :=
    htree ▸ (Tree.children_withMarkers (w.of d).base d.markers).symm
  refine ⟨htree ▸ hbase.symm, fun p n hn => ?_, fun p u hp hu hnot => ?_, fun p n hn => ?_,
    (document_eq_iff hbase).symm.trans hsame, ?_, hmodules, hdownloader⟩
  · have hp : p ≠ [] := by
      rintro rfl
      cases (declaredAt_nil.mp hn).1
    rw [at?_of_children_eq hchildren hp, ← hbase]
    exact at?_replace_of_declaredAt hn
  · rw [at?_of_children_eq hchildren hp, ← hbase]
    exact at?_replace_of_not_declaredAt hu hnot
  · rw [declaredAt_document hchildren, ← hbase] at hn
    exact value?_of_declaredAt_replace hn
  · rintro ⟨p, n, hn, hvalue⟩
    exact hmodel fun heq => hvalue ((document_eq_iff hbase).mp heq p n hn)

/-- The outcome is that of the recipe. -/
theorem outcome_revision (hmodel : base'.markers.pom? = some d.model)
    (hbase : replace (r.replacements [] (.document d.base)) (.document d.base) = .document base')
    (hmarkers : base'.markers = d.base.markers) :
    Outcome r d (r.revision d base' hmodel) := by
  -- whether the model changes depends on whether the recipe has changed anything in the document
  rw [revision]
  by_cases heq : base' = d.base
  · rw [if_pos heq]
    exact outcome_of_tree hbase heq (iff_of_true heq rfl) (fun hne => absurd heq hne) rfl rfl
  · rw [if_neg heq]
    refine outcome_of_tree hbase ?_ (iff_of_false heq nofun) (fun _ => ⟨rfl, ?_⟩) ?_ rfl
    · show base' = { base' with markers := d.base.markers }
      rw [← hmarkers]
    · rw [show d.markers = base'.markers from hmarkers.symm]
      exact Markers.exists_set_pom hmodel (d.model.withProperty r.key r.newValue)
    · exact (Markers.modules_set_pom hmodel _).trans (congrArg Markers.modules hmarkers)

/-- Where all declaring tags have the new value the recipe does nothing. -/
theorem apply_of_value
    (h : ∀ p n, r.DeclaredAt [] (.document d.base) p n → n.value? = some r.newValue) {c : Context ω}
    (hc : c.isCancelled = false) {draft : Draft} (hdraft : draft.source = .maven d) :
    (r.recipe ω).apply (some draft) c = .ok (some draft, c) := by
  obtain ⟨base', hmodel, hbase, -, happly⟩ := r.exists_apply_eq d
  rw [happly c draft hc hdraft, revision, if_pos ((document_eq_iff hbase).mpr h)]
  rfl

end Apply

/-- **What becomes of a description**, whatever was done to it before in the run. The context stays
as it is, and a second run does nothing. -/
theorem apply_outcome {ω : Type} (r : ChangeProperty) (d : Maven.Document) {c : Context ω}
    (hc : c.isCancelled = false) :
    ∃ w : Update Maven.Document,
      (∀ draft : Draft, draft.source = .maven d →
        (r.recipe ω).apply (some draft) c = .ok (some (draft.revise (w.map .maven)), c)) ∧
      r.Outcome d w ∧
      ∀ draft : Draft, draft.source = .maven (w.of d) →
        (r.recipe ω).apply (some draft) c = .ok (some draft, c) := by
  obtain ⟨base', hmodel, hbase, hmarkers, happly⟩ := r.exists_apply_eq d
  have houtcome := outcome_revision hmodel hbase hmarkers
  exact ⟨_, fun draft => happly c draft hc, houtcome, fun draft => apply_of_value houtcome.value hc⟩

/-- In a project with two properties one of them changes. -/
theorem apply_outcome_project :
    ({} : Context).isCancelled = false ∧
      ∃ w : Update Maven.Document,
        (∀ draft : Draft,
          draft.source =
            .maven (.resolve (Build.project [("v", "1"), ("w", "1")]) .offline) →
          (ChangeProperty.mk "v" "2").recipe.apply (some draft) {} =
            .ok (some (draft.revise (w.map .maven)), {})) ∧
        (ChangeProperty.mk "v" "2").Outcome
          (.resolve (Build.project [("v", "1"), ("w", "1")]) .offline) w ∧
        ∀ draft : Draft,
          draft.source =
            .maven (w.of (.resolve (Build.project [("v", "1"), ("w", "1")]) .offline)) →
          (ChangeProperty.mk "v" "2").recipe.apply (some draft) {} = .ok (some draft, {}) :=
  ⟨rfl, apply_outcome (ChangeProperty.mk "v" "2")
    (.resolve (Build.project [("v", "1"), ("w", "1")]) .offline) (c := {}) rfl⟩

end ChangeProperty

end Lossless
