import Lossless.Proofs.Maven.Sync
import Lossless.Proofs.Maven.Wrapper

/-!
# What a project says and what it inherits

A model is read off a project tag, but not all of it is written there. Properties that the project
does not declare come from the model of its parent, which has to be downloaded. A missing group or
version comes from the tag that names the parent, so from the same document, and no downloaded model
has a say in it. Here the two ways are described by what is looked up
(`Lossless.Maven.propertyOf?`, `Lossless.Maven.coordinateOf?`), without the tables that a reading
goes through, and `Lossless.Maven.Pom.resolve_spec` says that nothing else is in the model.

A table that is filled entry by entry has the last entry of a key
(`Lossless.Maven.Properties.get?_insertAll`), while of the tags of one name the first is read, and
also the first section of properties. That is the one place where the last counts.

Reading a model leaves a marker behind and nothing else. So whoever reads it once more finds the
same tags, and the marker that is to be set is there already.
-/

namespace Lossless.Maven

open Xml

/-! ### Properties that are added -/

namespace Properties

/-- A key has the value of the last entry that was added for it, or else the value it had. -/
theorem get?_insertAll (p : Properties) (es : List (String × String)) (key : String) :
    (p.insertAll es).get? key =
      ((es.filter (·.1 = key)).getLast?.map Prod.snd).or (p.get? key) := by
  -- from the end, since it is the last entry that counts
  induction es using List.reverseRecOn with
  | nil => rfl
  | append_singleton es e ih =>
    rw [insertAll_concat, get?_insert, List.filter_append, ih]
    by_cases h : e.1 = key
    · rw [if_pos h.symm, List.filter_cons_of_pos (by simpa using h), List.filter_nil,
        List.getLast?_concat]
      rfl
    · rw [if_neg (Ne.symm h), List.filter_cons_of_neg (by simpa using h), List.filter_nil,
        List.append_nil]

theorem get?_getD_empty (o : Option Properties) (key : String) :
    (o.getD .empty).get? key = o.bind (·.get? key) := by
  cases o <;> rfl

end Properties

/-! ### What is looked up -/

section LookUp

variable (project : Tag Tree) (downloader : Downloader) (name key : String)

/-- The text of the first tag of a name, if it has one. -/
def written? : Option String := (project.child? name).bind (·.value?)

/-- The value that a project gives to a property: that of the last tag of this name in the first
section of properties. If this tag has no text the value is empty. -/
def ownProperty? : Option String :=
  ((project.child? "properties").bind fun tag => (tag.childrenNamed key).getLast?).map fun tag =>
    tag.value?.getD ""

/-- The model that can be had under the coordinates that are written in the tag for the parent. -/
def parentModel? : Option Pom :=
  (project.child? "parent").bind fun parent =>
    downloader.download
      { groupId := (written? parent "groupId").getD ""
        artifactId := (written? parent "artifactId").getD ""
        version := written? parent "version" }

/-- The value of a property: the project's own, or else that in the model of the parent. -/
def propertyOf? : Option String :=
  (ownProperty? project key).or ((parentModel? project downloader).bind (·.property key))

/-- What a project says of a coordinate, or else what it says in the tag for its parent. -/
def coordinateOf? : Option String :=
  (written? project name).or ((project.child? "parent").bind (written? · name))

/-- A text in which a table says what references stand for. -/
def replaceReferences (table : String → Option String) (text : String) : String :=
  String.ofList (substitute (fun key => (table (String.ofList key)).map String.toList) text.toList)

/-! ### What is read -/

/-- The value of a child tag is what is written there. -/
theorem childValue?_singleton : project.childValue? [name] = written? project name := by
  rw [Tag.childValue?, written?]

/-- Without a parent all coordinates are those that are written. -/
theorem coordinates_none : coordinates project none =
    { groupId := (written? project "groupId").getD ""
      artifactId := (written? project "artifactId").getD ""
      version := written? project "version" } := by
  simp only [coordinates, childValue?_singleton, Option.map_none, Option.bind_none, Option.or_none]

/-- Of several declarations of a property the last one counts. -/
theorem ownProperty?_eq : ownProperty? project key =
    ((declaredProperties project).filter (·.1 = key)).getLast?.map Prod.snd := by
  rw [ownProperty?, declaredProperties]
  cases project.child? "properties" with
  | none => rfl
  | some tag =>
    simp only [Option.bind_some, List.filter_map, List.getLast?_map, Option.map_map,
      Tag.childrenNamed]
    rfl

/-- The properties that are read are the own ones before those of the parent. -/
theorem property_read : (Pom.read project downloader).property key =
    propertyOf? project downloader key := by
  have hparent : ((project.child? "parent").map (coordinates · none)).bind downloader.download =
      parentModel? project downloader := by
    rw [Option.bind_map, parentModel?]
    congr 1
    funext parent
    exact congrArg downloader.download (coordinates_none parent)
  rw [Pom.property, Pom.read, Properties.get?_insertAll, Properties.get?_getD_empty,
    Option.bind_map, hparent, propertyOf?, ownProperty?_eq]
  rfl

/-- The version that is read is the own one, or else that of the parent. -/
theorem version_read :
    (Pom.read project downloader).gav.version = coordinateOf? project "version" := by
  show (project.childValue? ["version"]).or
    (((project.child? "parent").map (coordinates · none)).bind (·.version)) = _
  rw [childValue?_singleton, Option.bind_map, coordinateOf?]
  simp only [Function.comp_def, coordinates_none]

/-- So is the group. -/
theorem groupId_read :
    (Pom.read project downloader).gav.groupId = (coordinateOf? project "groupId").getD "" := by
  show ((project.childValue? ["groupId"]).or
    (((project.child? "parent").map (coordinates · none)).map (·.groupId))).getD "" = _
  rw [childValue?_singleton, coordinateOf?]
  cases project.child? "parent" with
  | none => rfl
  | some parent =>
    simp only [Option.map_some, Option.bind_some, coordinates_none]
    cases written? project "groupId" <;> rfl

end LookUp

/-! ### Reading once more -/

/-- The model that a document carries need not be attached again. -/
theorem Document.attach_self (d : Document) : attach d.base d.model d.downloader = d := by
  obtain ⟨base, model, downloader, h⟩ := d
  simp only [attach, Markers.set_pom_self h]

/-- **What the model of a project holds.** A property has the value that the project gives it, or
else that in the downloaded model of the parent. The group and the version are those of the project,
or else those in the tag for its parent, and the references in the version are replaced by what the
model says. Reading the model of a document again changes nothing. -/
theorem Pom.resolve_spec :
    (∀ (project : Tag Tree) (downloader : Downloader),
      let model := Pom.resolve project downloader
      (∀ key, model.property key = propertyOf? project downloader key) ∧
        model.gav.groupId = (coordinateOf? project "groupId").getD "" ∧
        model.gav.artifactId = (written? project "artifactId").getD "" ∧
        model.gav.version = (coordinateOf? project "version").map (replaceReferences fun key =>
          if key = "project.groupId" then some ((coordinateOf? project "groupId").getD "")
          else if key = "project.artifactId" then some ((written? project "artifactId").getD "")
          else propertyOf? project downloader key)) ∧
    ∀ (base : Xml.Document Tree) (downloader : Downloader),
      let resolved := Document.resolve base downloader
      let again := Document.resolve resolved.base downloader
      again = resolved ∧ again.model = resolved.model ∧
        resolved.base.edit (.markers (resolved.base.markers.set (.pom again.model))) =
          resolved.base := by
  refine ⟨fun project downloader => ?_, fun base downloader => ?_⟩
  · have hgroup := groupId_read project downloader
    have hartifact : (Pom.read project downloader).gav.artifactId =
        (written? project "artifactId").getD "" := by
      rw [← childValue?_singleton]
      rfl
    refine ⟨property_read project downloader, hgroup, hartifact, ?_⟩
    have hlookup : (Pom.read project downloader).lookup = fun key =>
        if key = "project.groupId" then some ((coordinateOf? project "groupId").getD "")
        else if key = "project.artifactId" then some ((written? project "artifactId").getD "")
        else propertyOf? project downloader key := by
      funext key
      rw [Pom.lookup, hgroup, hartifact, property_read]
    rw [← version_read project downloader, ← hlookup]
    rfl
  · -- no tag has changed, so the model that is read is the one that the document carries
    have hagain := (Document.resolve base downloader).attach_self
    refine ⟨hagain, rfl, ?_⟩
    rw [Xml.Document.Field.edit_markers]
    exact congrArg (·.base) hagain

end Lossless.Maven
