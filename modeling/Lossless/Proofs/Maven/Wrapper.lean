import Lossless.Proofs.Maven.Property
import Lossless.Proofs.Xml.Fields

/-!
# Descriptions stay descriptions

The description of a project is a document and what is read off its markers: the model, which is
the first one there, and the modules (`Lossless.Maven.Document.Wraps`). It can be changed in many
ways (`Lossless.Maven.Document.Change`), and all of them come to the same: another document takes
the place of the old one, and everything is read again (`Lossless.Maven.Document.Change.apply_eq`).
So a description stays one as long as there is a model among the markers, and what is set reads
back, and nothing happens where the value is there already
(`Lossless.Maven.Document.wrapper_spec`).

The same goes for visits, whether by a visitor of project descriptions or by one of XML: the
document that comes out of the traversal takes the place of the old one.
-/

namespace Lossless

/-! ### Reading markers -/

namespace Markers

/-- The model is the content of the first marker of its kind. -/
theorem find?_pom (ms : Markers) : ms.find? .pom = ms.pom?.map .pom := by
  obtain ⟨ms⟩ := ms
  induction ms with
  | nil => rfl
  | cons m ms ih =>
    cases m with
    | pom model => rfl
    | _ => exact ih

theorem contains_pom (ms : Markers) : ms.contains .pom = ms.pom?.isSome := by
  obtain ⟨ms⟩ := ms
  induction ms with
  | nil => rfl
  | cons m ms ih =>
    cases m with
    | pom model => rfl
    | _ => exact ih

/-- The content of the first marker for modules. -/
theorem modules_eq (ms : Markers) :
    ms.modules = match ms.find? .modules with
      | some (.modules models) => models
      | _ => [] := by
  obtain ⟨ms⟩ := ms
  induction ms with
  | nil => rfl
  | cons m ms ih =>
    cases m with
    | modules models => rfl
    | _ => exact ih

/-- To set the model that is there changes nothing. -/
theorem set_pom_self {ms : Markers} {model : Maven.Pom} (h : ms.pom? = some model) :
    ms.set (.pom model) = ms := by
  obtain ⟨before, after, hlist, -, hset⟩ := exists_set_pom h model
  obtain ⟨ms⟩ := ms
  exact congrArg Markers.mk (hset.trans hlist.symm)

end Markers

namespace Maven.Document

/-- A description wraps a document: its model is the first one among the markers, and its modules
are those of the first marker for modules. -/
structure Wraps (d : Document) (base : Xml.Document Xml.Tree) (downloader : Downloader) : Prop where
  base_eq : d.base = base
  model : base.markers.find? .pom = some (.pom d.model)
  modules : d.modules = match base.markers.find? .modules with
    | some (.modules models) => models
    | _ => []
  downloader_eq : d.downloader = downloader

/-- A description wraps its own document. -/
theorem wraps_self (d : Document) : d.Wraps d.base d.downloader where
  base_eq := rfl
  model := by rw [Markers.find?_pom, d.pom?_eq, Option.map_some]
  modules := Markers.modules_eq d.base.markers
  downloader_eq := rfl

section OfBase

variable {n : Xml.Document Xml.Tree}

/-- Whatever carries a model can be wrapped. -/
theorem exists_ofBase (h : isDescription n = true) (downloader : Downloader) :
    ∃ d, ofBase n downloader = .ok d ∧ d.Wraps n downloader := by
  rw [isDescription, Markers.contains_pom] at h
  obtain ⟨model, hmodel⟩ := Option.isSome_iff_exists.mp h
  exact ⟨⟨n, model, downloader, hmodel⟩, ofBase_eq hmodel downloader, wraps_self _⟩

/-- Nothing else can. -/
theorem ofBase_of_not_isDescription (h : isDescription n = false) (downloader : Downloader) :
    ofBase n downloader = .error ⟨n.sourcePath⟩ := by
  rw [isDescription, Markers.contains_pom] at h
  rw [ofBase]
  split
  next model hmodel =>
    rw [hmodel] at h
    cases h
  next => rfl

/-- To wrap the document of a description again gives the same description. -/
theorem ofBase_self (d : Document) : ofBase d.base d.downloader = .ok d :=
  ofBase_eq d.pom?_eq d.downloader

end OfBase

/-! ### Changes -/

/-- A change of a description. -/
inductive Change where
  /-- Another document takes the place of the old one. -/
  | document (value : Xml.Document Xml.Tree)
  /-- A field of the document is set. -/
  | field (f : Xml.Document.Field)
  /-- The model is set. -/
  | model (value : Pom)

namespace Change

/-- The description after a change. -/
def apply (d : Document) : Change → Except MissingModel Document
  | .document value => d.withBase value
  | .field f => d.edit f.edit
  | .model value => .ok (d.withModel value)

/-- The document after a change. -/
def base (d : Document) : Change → Xml.Document Xml.Tree
  | .document value => value
  | .field f => d.base.edit f.edit
  | .model value => d.base.edit (.markers (d.base.markers.set (.pom value)))

/-- A description has the new value already, up to the identities of nodes in a field. -/
def Agrees (d : Document) : Change → Prop
  | .document value => d.base = value
  | .field f => f.Agrees d.base
  | .model value => d.model = value

variable {d d' : Document} {x : Change}

/-- **To change a description is to wrap another document.** -/
theorem apply_eq (d : Document) (x : Change) : x.apply d = ofBase (x.base d) d.downloader := by
  cases x with
  | document value => rfl
  | field f => rfl
  | model value =>
    rw [base, Xml.Document.Field.edit_markers]
    exact (ofBase_eq (Markers.pom?_set _ _) d.downloader).symm

/-- If the new value is there already, the document stays. -/
theorem base_of_agrees (h : x.Agrees d) : x.base d = d.base := by
  cases x with
  | document value => exact h.symm
  | field f => exact Xml.Document.Field.edit_of_agrees h
  | model value =>
    obtain rfl : d.model = value := h
    rw [base, Xml.Document.Field.edit_markers, Markers.set_pom_self d.pom?_eq]

/-- What was set reads back. -/
theorem agrees_of_base_eq (h : d'.base = x.base d) : x.Agrees d' := by
  cases x with
  | document value => exact h
  | field f =>
    rw [Agrees, h]
    exact Xml.Document.Field.agrees_edit d.base f
  | model value =>
    have hmodel := d'.pom?_eq
    rw [h, base, Xml.Document.Field.edit_markers, Markers.pom?_set] at hmodel
    exact (Option.some.inj hmodel).symm

/-- A change that leaves a model is made, and what was set reads back. -/
theorem apply_of_isDescription (h : isDescription (x.base d) = true) :
    ∃ d', x.apply d = .ok d' ∧ d'.Wraps (x.base d) d.downloader ∧ x.Agrees d' := by
  obtain ⟨d', hd', hwraps⟩ := exists_ofBase h d.downloader
  exact ⟨d', (apply_eq d x).trans hd', hwraps, agrees_of_base_eq hwraps.base_eq⟩

/-- A change to what is there already changes nothing. -/
theorem apply_of_agrees (h : x.Agrees d) : x.apply d = .ok d := by
  rw [apply_eq, base_of_agrees h, ofBase_self]

end Change

/-- Some changes, one after the other. -/
def applyChanges (xs : List Change) (d : Document) : Except MissingModel Document :=
  xs.foldlM (fun d x => x.apply d) d

theorem applyChanges_concat {xs : List Change} {d d' : Document} (h : applyChanges xs d = .ok d')
    (x : Change) : applyChanges (xs ++ [x]) d = x.apply d' := by
  have h : xs.foldlM (fun d x => x.apply d) d = .ok d' := h
  rw [applyChanges, List.foldlM_append, h]
  show (x.apply d' >>= fun d => Except.ok d) = x.apply d'
  cases x.apply d' <;> rfl

/-- The downloader is carried along. -/
theorem downloader_applyChanges {xs : List Change} {d d' : Document}
    (h : applyChanges xs d = .ok d') : d'.downloader = d.downloader := by
  induction xs generalizing d with
  | nil =>
    obtain rfl := Except.ok.inj h
    rfl
  | cons x xs ih =>
    rw [applyChanges, List.foldlM_cons] at h
    cases hdescription : isDescription (x.base d) with
    | true =>
      obtain ⟨d₁, hd₁, hwraps, -⟩ := Change.apply_of_isDescription hdescription
      rw [hd₁] at h
      rw [ih h, hwraps.downloader_eq]
    | false =>
      rw [Change.apply_eq, ofBase_of_not_isDescription hdescription] at h
      cases h

end Maven.Document

/-! ### Visits -/

variable {ω : Type}

/-- The visitor for project descriptions, or else the one for XML, which does no more than to visit
the document. -/
def Capabilities.descriptionVisitor? (k : Capabilities ω) :
    Option (Maven.Visitor (Context ω) (Except Failure)) :=
  k.maven.or (k.xml.map fun inside => { inside })

/-- A description goes to the visitor of descriptions, or else to that of XML. -/
theorem Capabilities.visitor_maven {k : Capabilities ω} {d : Maven.Document}
    (h : k.isAcceptable (.maven d) = true) :
    k.visitor (.maven d) = match k.descriptionVisitor? with
      | some v => visitDescription v d
      | none => return .unsupported := by
  obtain ⟨isAcceptable, java, xml, maven⟩ := k
  cases maven <;> cases xml <;> exact if_pos h

section Visits

variable {v : Maven.Visitor (Context ω) (Except Failure)} {d : Maven.Document}
  {w : Update (Xml.Document Xml.Tree)} {c c' : Context ω}

/-- A visit fails where the traversal of the document fails. -/
theorem visitDescription_of_error {e : Failure}
    (h : Maven.visitBase v.inside d.base c = .error e) : visitDescription v d c = .error e :=
  bind_of_error h

/-- With its document a description is deleted. -/
theorem visitDescription_of_deleted (h : Maven.visitBase v.inside d.base c = .ok (none, c')) :
    visitDescription v d c = .ok (.deleted, c') :=
  bind_of_eq h

/-- Without a model among the markers of the document that comes out of the traversal, the visit
fails. -/
theorem visitDescription_of_not_isDescription
    (h : Maven.visitBase v.inside d.base c = .ok (some w, c'))
    (hw : Maven.Document.isDescription (w.of d.base) = false) :
    visitDescription v d c = .error (.missingModel ⟨(w.of d.base).sourcePath⟩) := by
  cases w with
  | same =>
    rw [Update.of_same, Maven.Document.isDescription, Markers.contains_pom, d.pom?_eq] at hw
    cases hw
  | new n =>
    have hvisited : d.visited (.new n) = .error ⟨n.sourcePath⟩ :=
      congrArg (Update.new <$> ·) (Maven.Document.ofBase_of_not_isDescription hw d.downloader)
    refine (bind_of_eq h).trans ?_
    show (liftM ((d.visited (.new n)).mapError Failure.missingModel) >>= _ : ContextM ω Visited) c'
      = _
    rw [hvisited]
    rfl

/-- With a model it is wrapped. -/
theorem visitDescription_of_isDescription
    (h : Maven.visitBase v.inside d.base c = .ok (some w, c'))
    (hw : Maven.Document.isDescription (w.of d.base) = true) :
    ∃ visited : Update Maven.Document, (visited.of d).Wraps (w.of d.base) d.downloader ∧
      (visited = .same ↔ w = .same) ∧
      visitDescription v d c = .ok (.tree ((v.finish d visited).map .maven), c') := by
  cases w with
  | same => exact ⟨.same, d.wraps_self, iff_of_true rfl rfl, visitDescription_of_visited h rfl⟩
  | new n =>
    obtain ⟨d', hd', hwraps⟩ := Maven.Document.exists_ofBase hw d.downloader
    exact ⟨.new d', hwraps, iff_of_false nofun nofun,
      visitDescription_of_visited h (congrArg (Update.new <$> ·) hd')⟩

end Visits

namespace Maven.Document

/-- **Descriptions stay descriptions.** A document can be wrapped just if it carries a model. After
any changes, the model and the modules are what the markers tell, and the downloader is the first
one. A further change fails just if its document carries no model. Otherwise that document is
wrapped and what was set reads back, and if it was there already, nothing happens. A visitor of
project descriptions or of XML deletes a description, or wraps what comes out of the traversal,
which fails just if that carries no model. What the visitor makes of it afterwards wraps its own
document, with the same downloader if it is made by changes. -/
theorem wrapper_spec :
    (∀ (n : Xml.Document Xml.Tree) (downloader : Downloader),
      (isDescription n = false → ofBase n downloader = .error ⟨n.sourcePath⟩) ∧
      (isDescription n = true → ∃ d, ofBase n downloader = .ok d ∧ d.Wraps n downloader)) ∧
    (∀ (d₀ d : Document) (xs : List Change), applyChanges xs d₀ = .ok d →
      d.Wraps d.base d₀.downloader ∧ ∀ x : Change,
        (isDescription (x.base d) = false →
          applyChanges (xs ++ [x]) d₀ = .error ⟨(x.base d).sourcePath⟩) ∧
        (isDescription (x.base d) = true → ∃ d', applyChanges (xs ++ [x]) d₀ = .ok d' ∧
          d'.Wraps (x.base d) d₀.downloader ∧ x.Agrees d') ∧
        (x.Agrees d → applyChanges (xs ++ [x]) d₀ = .ok d)) ∧
    ∀ (k : Capabilities ω) (v : Maven.Visitor (Context ω) (Except Failure)) (d : Document)
      (c : Context ω), k.isAcceptable (.maven d) = true → k.descriptionVisitor? = some v →
        (∀ e, visitBase v.inside d.base c = .error e → k.visitor (.maven d) c = .error e) ∧
        (∀ c', visitBase v.inside d.base c = .ok (none, c') →
          k.visitor (.maven d) c = .ok (.deleted, c')) ∧
        ∀ w c', visitBase v.inside d.base c = .ok (some w, c') →
          (isDescription (w.of d.base) = false →
            k.visitor (.maven d) c = .error (.missingModel ⟨(w.of d.base).sourcePath⟩)) ∧
          (isDescription (w.of d.base) = true → ∃ visited : Update Document,
            (visited.of d).Wraps (w.of d.base) d.downloader ∧ (visited = .same ↔ w = .same) ∧
            k.visitor (.maven d) c = .ok (.tree ((v.finish d visited).map .maven), c') ∧
            let d' := (v.finish d visited).of d
            d'.Wraps d'.base d'.downloader ∧
            ∀ xs, applyChanges xs (visited.of d) = .ok d' → d'.downloader = d.downloader) := by
  refine ⟨fun n downloader => ⟨fun h => ofBase_of_not_isDescription h downloader,
    fun h => exists_ofBase h downloader⟩, fun d₀ d xs hxs => ?_, fun k v d c haccept hv => ?_⟩
  · have hdownloader := downloader_applyChanges hxs
    refine ⟨hdownloader ▸ d.wraps_self, fun x => ⟨fun h => ?_, fun h => ?_, fun h => ?_⟩⟩
    · rw [applyChanges_concat hxs, Change.apply_eq, ofBase_of_not_isDescription h]
    · rw [applyChanges_concat hxs, ← hdownloader]
      exact Change.apply_of_isDescription h
    · rw [applyChanges_concat hxs, Change.apply_of_agrees h]
  · have hvisit : k.visitor (.maven d) c = visitDescription v d c := by
      rw [Capabilities.visitor_maven haccept, hv]
    rw [hvisit]
    refine ⟨fun e => visitDescription_of_error, fun c' => visitDescription_of_deleted,
      fun w c' hw => ⟨visitDescription_of_not_isDescription hw, fun h => ?_⟩⟩
    obtain ⟨visited, hwraps, hsame, hvisited⟩ := visitDescription_of_isDescription hw h
    refine ⟨visited, hwraps, hsame, hvisited, wraps_self _, fun xs hxs => ?_⟩
    rw [downloader_applyChanges hxs, hwraps.downloader_eq]

/-- The description of a project of which nothing else is known. -/
def bareProject : Document := attach { root := {} } default .offline

/-- The model of a project that produces no artifact. -/
def parentModel : Pom := { (default : Pom) with packaging := "pom" }

/-- A visitor of XML that enters nothing. -/
def passingBy : Lossless.Visitor Xml.Tree Context (Except Failure) where
  enter _ := pure false

theorem visitBase_passingBy (n : Xml.Document Xml.Tree) (c : Context) :
    visitBase passingBy n c = .ok (some .same, c) :=
  visitBase_of_visit (Visitor.visit_of_refused (v := passingBy) (s := ⟨c, .empty⟩) rfl)

/-- A model is set, once and again, then all markers are taken away; and there is a visit. -/
theorem wrapper_spec_bareProject :
    (∃ d, applyChanges [.model parentModel] bareProject = .ok d ∧
      d.Wraps d.base .offline ∧ d.model = parentModel ∧
      applyChanges ([.model parentModel] ++ [.model parentModel]) bareProject = .ok d ∧
      applyChanges ([.model parentModel] ++ [.field (.markers .empty)]) bareProject =
        .error ⟨""⟩) ∧
      ∃ visited : Update Document, visited = .same ∧
        ({ xml := some passingBy } : Capabilities).visitor (.maven bareProject) {} =
          .ok (.tree (visited.map .maven), {}) := by
  obtain ⟨-, hchanges, hvisits⟩ := wrapper_spec (ω := Unit)
  constructor
  · obtain ⟨hwraps, hnext⟩ := hchanges bareProject _ [.model parentModel] rfl
    have hempty : (Change.field (.markers .empty)).base (bareProject.withModel parentModel) =
        { root := {} } := Xml.Document.Field.edit_markers _ _
    refine ⟨_, rfl, hwraps, rfl, (hnext (.model parentModel)).2.2 rfl, ?_⟩
    rw [(hnext (.field (.markers .empty))).1 (by rw [hempty]; rfl), hempty]
  · obtain ⟨-, -, hvisit⟩ :=
      hvisits { xml := some passingBy } { inside := passingBy } bareProject {} rfl rfl
    obtain ⟨visited, -, hsame, hvisited, -⟩ :=
      (hvisit .same {} (visitBase_passingBy _ _)).2 rfl
    exact ⟨visited, hsame.mpr rfl, hvisited⟩

end Maven.Document

end Lossless
