import Lossless.Proofs.Deletion.Visit
import Lossless.Proofs.Java.Pattern
import Lossless.Proofs.Pipeline.Ordered
import Lossless.Proofs.Run.Partial
import Lossless.Proofs.Text.Pieces

/-!
# What is checked before a run

Every recipe checks its own options, and the checks of a tree of recipes are combined
(`Lossless.Recipe.validateAll`), each recipe with those that it lists. No fault gets lost on the
way up, and none comes twice: the faults of the whole are those of the recipes in preorder, which
is also the order in which they would run (`Lossless.Recipe.faults_validateAll`). If there is any, a
run ends with these faults, before it has seen a file.

A pipeline whose steps depend on each other lists none of them, so it would be a recipe that does
nothing, and that is why having no order has to be a fault. It is one wherever the pipeline stands,
as a step of another pipeline, too (`Lossless.Recipe.StandsIn`): either the other one has an order,
and lists it, or it has a fault itself.

In the same way a recipe whose pattern is none would support no file, and nobody would hear of it.
Its check finds a fault just for the texts that are not read as patterns
(`Lossless.patternChecks_eq_nil_iff`), though it looks twice, first for a text that is blank.
`Lossless.Recipe.validation_spec` puts these together.
-/

namespace Lossless

open Relation Java

variable {ω : Type}

/-! ### Checks of nested recipes -/

/-- What the check of a procedure finds in its own options. -/
def Procedure.validate (p : Procedure ω) : Validated ValidationError Unit :=
  match p.faults with
  | [] => .good ()
  | e :: es => .bad e es

/-- The check of a procedure finds its faults. -/
theorem Procedure.faults_validate (p : Procedure ω) : p.validate.faults = p.faults := by
  rw [validate]
  cases p.faults <;> rfl

namespace Recipe

mutual

/-- The check of a recipe, combined with those of the recipes that it lists. -/
def validateAll : Recipe ω → Validated ValidationError Unit
  | .mk p list => (fun _ => ()) <$> ((· :: ·) <$> p.validate <*> validateList list)

/-- The checks of some recipes, combined. -/
def validateList : List (Recipe ω) → Validated ValidationError (List Unit)
  | [] => pure []
  | r :: rs => (· :: ·) <$> validateAll r <*> validateList rs

end

mutual

/-- **No fault gets lost, and none comes twice.** -/
theorem faults_validateAll : ∀ r : Recipe ω, r.validateAll.faults = r.allFaults
  | .mk p list => by
    rw [validateAll, Validated.faults_map, Validated.faults_seq, Validated.faults_map,
      p.faults_validate, faults_validateList list, allFaults]

theorem faults_validateList : ∀ rs : List (Recipe ω), (validateList rs).faults = listFaults rs
  | [] => rfl
  | r :: rs => by
    rw [validateList, Validated.faults_seq, Validated.faults_map, faults_validateAll r,
      faults_validateList rs, listFaults]

end

/-- A recipe has no fault exactly if none of its procedures has one. -/
theorem allFaults_eq_nil_iff (r : Recipe ω) :
    r.allFaults = [] ↔ ∀ p ∈ r.procedures, p.faults = [] := by
  rw [allFaults_eq_flatMap, List.flatMap_eq_nil_iff]

/-- The faults of some recipes are those of each of them. -/
theorem mem_listFaults {e : ValidationError} {rs : List (Recipe ω)} :
    e ∈ listFaults rs ↔ ∃ r ∈ rs, e ∈ r.allFaults := by
  induction rs with
  | nil => simp [listFaults]
  | cons r rs ih => rw [listFaults, List.mem_append, ih, List.exists_mem_cons_iff]

end Recipe

/-! ### The gate -/

namespace RecipeRun

variable {r : RecipeRun ω} {sources : List Source} {shared : Shared ω}

/-- Faults end a run before it begins. -/
theorem run_of_faults (h : r.recipe.allFaults ≠ []) :
    r.run sources shared = .ok (.error (.validation r.recipe.allFaults), shared) := by
  rw [run]
  cases hfaults : r.recipe.allFaults with
  | nil => exact absurd hfaults h
  | cons e es => rfl

/-- Later on no run ends like this. -/
theorem run_ne_validation (h : r.recipe.allFaults = []) {errors : List ValidationError}
    {shared' : Shared ω} : r.run sources shared ≠ .ok (.error (.validation errors), shared') := by
  intro hrun
  rw [run, h] at hrun
  cases hsources : r.runSources sources shared with
  | error e =>
    rw [hsources] at hrun
    cases hrun
  | ok x =>
    rw [hsources] at hrun
    change (if _ then _ else _ : Except Failure (Except RunError RunResult × Shared ω)) =
      _ at hrun
    split at hrun <;> cases hrun

end RecipeRun

/-! ### Pipelines without an order -/

namespace Pipeline

variable {p : Pipeline (Recipe ω)} {id : String}

/-- The fault of a pipeline in which a step is on a cycle. -/
def cycleFault (id : String) : ValidationError :=
  ⟨"core.RecipePipeline", "recipeList", cycleMessage id⟩

/-- A pipeline without an order has this fault only. -/
theorem allFaults_recipe_of_error (h : p.ordered = .error id) :
    p.recipe.allFaults = [cycleFault id] := by
  rw [recipe, h]
  rfl

/-- A pipeline with an order has the faults of its steps. -/
theorem allFaults_recipe_of_ok {rs : List (Recipe ω)} (h : p.ordered = .ok rs) :
    p.recipe.allFaults = Recipe.listFaults rs := by
  rw [recipe, h]
  rfl

/-- In what is in force, a step has to come before itself. -/
def IsCyclic {α : Type} (p : Pipeline α) : Prop := ∃ id, TransGen (Order.Before p.dependents) id id

/-- A cycle of the present declarations is one, whatever else is in force. -/
theorem isCyclic_of_depends {α : Type} (name : String) {cs : List (Change α)}
    (h : TransGen (Depends cs) id id) : (ofChanges name cs).IsCyclic :=
  ⟨id, (cyclic_or_leftover_iff name cs id).mpr (.inl h)⟩

/-- A pipeline has no order exactly if it is cyclic. -/
theorem exists_ordered_error_iff {α : Type} (name : String) (cs : List (Change α)) :
    (∃ id, (ofChanges name cs).ordered = .error id) ↔ (ofChanges name cs).IsCyclic := by
  have htracks := tracks_ofChanges name cs
  simp only [ordered_error_iff, IsCyclic]
  exact Order.exists_order_error_iff htracks.nodup htracks.closed
    (mem_dependents_iff_mem_dependencies _)

end Pipeline

namespace Recipe

open Pipeline

/-- A recipe stands somewhere in another one: it is listed there, or it is what a step of a pipeline
does, whether the pipeline has an order or not. -/
inductive StandsIn (q : Recipe ω) : Recipe ω → Prop where
  /-- It is the recipe itself. -/
  | self : StandsIn q q
  /-- It stands in a recipe that is listed. -/
  | listed {p : Procedure ω} {list : List (Recipe ω)} {r : Recipe ω} (hr : r ∈ list)
    (h : StandsIn q r) : StandsIn q (.mk p list)
  /-- It stands in what a step does that is present. -/
  | step {name : String} {cs : List (Change (Recipe ω))} {s : PipelineStep (Recipe ω)}
    (hs : present? cs s.id = some s) (h : StandsIn q s.recipe) :
    StandsIn q (ofChanges name cs).recipe

/-- Without an order, the pipeline or one around it is at fault. -/
theorem StandsIn.exists_cycleFault {q r : Recipe ω} (h : StandsIn q r)
    (hq : ∃ id, cycleFault id ∈ q.allFaults) : ∃ id, cycleFault id ∈ r.allFaults := by
  induction h with
  | self => exact hq
  | listed hr _ ih =>
    obtain ⟨id, hid⟩ := ih
    rw [allFaults]
    exact ⟨id, List.mem_append_right _ (mem_listFaults.mpr ⟨_, hr, hid⟩)⟩
  | @step name cs s hs _ ih =>
    cases hordered : (ofChanges name cs).ordered with
    | error id =>
      rw [allFaults_recipe_of_error hordered]
      exact ⟨id, List.mem_singleton_self _⟩
    | ok rs =>
      -- every step that is present is listed then
      have htracks := tracks_ofChanges name cs
      obtain ⟨steps, rfl, hperm, -⟩ := htracks.ordered_perm hordered
      have hlisted := List.mem_map_of_mem (f := (·.recipe))
        (hperm.mem_iff.mpr ((htracks.steps s).mpr hs))
      obtain ⟨id, hid⟩ := ih
      rw [allFaults_recipe_of_ok hordered]
      exact ⟨id, mem_listFaults.mpr ⟨_, hlisted, hid⟩⟩

end Recipe

/-! ### Patterns as options -/

/-- A text that is read as a pattern is not blank. -/
theorem Java.MethodPattern.not_blank_of_parse {s : String} {p : MethodPattern}
    (h : parse s = .ok p) : s.toList.all Text.isBlank = false := by
  rw [Bool.eq_false_iff]
  intro hblank
  have htrim : Text.trim s.toList = [] := by
    rw [Text.trim, Text.trimStart, List.dropWhile_eq_nil_iff.mpr (List.all_eq_true.mp hblank)]
    rfl
  have hcheck := Validated.toExcept_eq_ok.mp h
  rw [check, htrim] at hcheck
  cases hcheck

/-- No option is missing exactly if the required ones are set. -/
theorem missingOptions_eq_nil_iff {recipe : String} {options : List OptionDescriptor} :
    missingOptions recipe options = [] ↔ ∀ o ∈ options, o.required = true → o.isSet = true := by
  simp [missingOptions, List.filter_eq_nil_iff]

/-- A text without a fault is read as a pattern. -/
theorem patternFaults_eq_nil_iff {recipe option pattern : String} :
    patternFaults recipe option pattern = [] ↔ ∃ p, MethodPattern.parse pattern = .ok p := by
  simp only [patternFaults, List.map_eq_nil_iff, Validated.faults_eq_nil_iff,
    Validated.isGood_iff, MethodPattern.parse, Validated.toExcept_eq_ok]

/-- **The two checks of a pattern agree**: if no option but the pattern can be missing, there is no
fault just if the pattern is read. -/
theorem patternChecks_eq_nil_iff {recipe option pattern : String} {options : List OptionDescriptor}
    (h : ∀ o ∈ options, o.required = true → o.isSet = true ∨ o.value = .text pattern) :
    missingOptions recipe options ++ patternFaults recipe option pattern = [] ↔
      ∃ p, MethodPattern.parse pattern = .ok p := by
  rw [List.append_eq_nil_iff, patternFaults_eq_nil_iff, missingOptions_eq_nil_iff]
  refine and_iff_right_of_imp fun ⟨p, hp⟩ o ho hrequired => ?_
  rcases h o ho hrequired with hset | hvalue
  · exact hset
  · rw [OptionDescriptor.isSet, hvalue]
    show (!pattern.toList.all Text.isBlank) = true
    rw [MethodPattern.not_blank_of_parse hp]
    rfl

/-! ### Visitors that do something -/

/-- A visitor for Java files. There may be nothing to do, and some files may make it fail, but none
is left aside. -/
def SourceVisitor.SupportsJava (v : SourceVisitor ω) (P : Failure → Prop) : Prop :=
  ∀ unit c, (∃ visited c', v (.java unit) c = .ok (visited, c') ∧ visited ≠ .unsupported) ∨
    ∃ e, v (.java unit) c = .error e ∧ P e

/-- The visit of a Java file does not leave it aside. -/
theorem visitUnit_ne_unsupported {v : Java.Visitor (Context ω) (Except Failure)}
    {unit : CompilationUnit Tree} {c c' : Context ω} {visited : Visited}
    (h : visitUnit v unit c = .ok (visited, c')) : visited ≠ .unsupported := by
  cases hs : v.toVisitor.visit (.compilationUnit unit) ⟨c, .empty⟩ with
  | error e =>
    rw [visitUnit_of_visit_error hs] at h
    cases h
  | ok z =>
    rw [visitUnit_of_visit hs] at h
    obtain ⟨rfl, -⟩ := Prod.mk.inj (Except.ok.inj h)
    cases Answers.place Tree.unit? z.1 <;> nofun

/-- A visitor for Java files behind a test supports them. Where the test does not apply, a file
stays as it is, and that is not the same as to be left aside. -/
theorem supportsJava_check {v : Java.Visitor (Context ω) (Except Failure)} {P : Failure → Prop}
    (scan : Precondition ω)
    (hv : ∀ s, FailsOnly P (SourceVisitor.check scan (Capabilities.visitor { java := some v }) s)) :
    (SourceVisitor.check scan (Capabilities.visitor { java := some v })).SupportsJava P := by
  intro unit c
  cases hcheck :
    SourceVisitor.check scan (Capabilities.visitor { java := some v }) (.java unit) c with
  | error e => exact .inr ⟨e, rfl, hv _ c e hcheck⟩
  | ok x =>
    refine .inl ⟨x.1, x.2, rfl, ?_⟩
    have hvisit : (if (scan.applies (.java unit) c).1 then visitUnit v unit
        else return .tree .same : ContextM ω Visited) (scan.applies (.java unit) c).2 = .ok x :=
      hcheck
    split at hvisit
    · exact visitUnit_ne_unsupported hvisit
    · obtain rfl := Except.ok.inj hvisit
      nofun

section Visitors

variable [Inhabited ω]

/-- What does nothing leaves Java files aside, too. -/
theorem SourceVisitor.SupportsJava.ne_noop {v : SourceVisitor ω} {P : Failure → Prop}
    (h : v.SupportsJava P) : v ≠ .noop := by
  rintro rfl
  rcases h {} { shared := { outside := default } } with ⟨visited, c', hvisit, hne⟩ | ⟨e, hvisit, -⟩
  · obtain ⟨rfl, -⟩ := Prod.mk.inj (Except.ok.inj hvisit)
    exact hne rfl
  · cases hvisit

/-- What a procedure does about its pattern: a pattern that cannot be read is a fault, and without
a fault no Java file is left aside. -/
structure Procedure.ChecksPattern (p : Procedure ω) (pattern : String) (P : Failure → Prop) :
    Prop where
  faults_iff : p.faults = [] ↔ ∃ m, MethodPattern.parse pattern = .ok m
  ne_noop_iff : p.faults = [] ↔ p.visitor ≠ .noop
  supportsJava : p.faults = [] → p.visitor.SupportsJava P

/-- A procedure checks its pattern if its faults do, and if it has a visitor of Java files just for
what is read. -/
theorem Procedure.ChecksPattern.of_parse {p : Procedure ω} {pattern : String} {P : Failure → Prop}
    (hfaults : p.faults = [] ↔ ∃ m, MethodPattern.parse pattern = .ok m)
    (hok : ∀ m, MethodPattern.parse pattern = .ok m → p.visitor.SupportsJava P)
    (herror : ∀ e, MethodPattern.parse pattern = .error e → p.visitor = .noop) :
    p.ChecksPattern pattern P := by
  have hsupports : p.faults = [] → p.visitor.SupportsJava P := fun h =>
    let ⟨m, hm⟩ := hfaults.mp h
    hok m hm
  refine ⟨hfaults, ⟨fun h => (hsupports h).ne_noop, fun h => ?_⟩, hsupports⟩
  cases hparse : MethodPattern.parse pattern with
  | ok m => exact hfaults.mpr ⟨m, hparse⟩
  | error e => exact absurd (herror e hparse) h

/-- Without a fault, a deletion leaves no Java file aside; it fails at the last position only. -/
theorem DeleteArgument.checksPattern (r : DeleteArgument) :
    (r.procedure ω).ChecksPattern r.pattern fun e =>
      r.index.toNat + 1 = UInt64.size ∧ ∃ length, e = .removal r.index.toNat length := by
  refine .of_parse (patternChecks_eq_nil_iff ?_) (fun m hm => ?_) fun e he => ?_
  · simp [options, OptionDescriptor.isSet, Datum.nat]
  · have hfails := failsOnly_visitor (ω := ω) r
    show (r.visitor ω).SupportsJava _
    rw [visitor, hm] at hfails ⊢
    exact supportsJava_check _ hfails
  · show r.visitor ω = _
    rw [visitor, he]

/-- Without a fault, a search leaves no Java file aside, and it does not fail. -/
theorem FindCalls.checksPattern (r : FindCalls) :
    (r.procedure ω).ChecksPattern r.pattern fun _ => False := by
  refine .of_parse (patternChecks_eq_nil_iff ?_) (fun m hm => ?_) fun e he => ?_
  · simp [options]
  · have hfails := failsOnly_visitor (ω := ω) r
    show (r.visitor ω).SupportsJava _
    rw [visitor, hm] at hfails ⊢
    exact supportsJava_check _ hfails
  · show r.visitor ω = _
    rw [visitor, he]

end Visitors

/-! ### All checks -/

namespace Recipe

open Pipeline

/-- **What is checked before a run, and what the checks are good for.** The faults of a recipe are
those that the procedures find in their options, in the order of the procedures. If there is a fault
a run ends with these faults, whatever the files are, and has done nothing to what is shared; a run
never ends so otherwise. One reason for that is a cyclic pipeline, wherever it stands. And a recipe
for calls has no fault just if its pattern is read, so that it always has a visitor then. -/
theorem validation_spec [Inhabited ω] :
    (∀ r : Recipe ω, r.validateAll.faults = r.procedures.flatMap (fun p => p.validate.faults) ∧
      (r.validateAll.isGood = true ↔ ∀ p ∈ r.procedures, p.validate.isGood = true)) ∧
    (∀ (run : RecipeRun ω) (sources : List Source) (shared : Shared ω),
      (run.recipe.validateAll.isGood = false →
        run.run sources shared =
          .ok (.error (.validation run.recipe.validateAll.faults), shared)) ∧
      ∀ errors shared', run.run sources shared = .ok (.error (.validation errors), shared') →
        run.recipe.validateAll.isGood = false ∧ errors = run.recipe.validateAll.faults ∧
          shared' = shared) ∧
    (∀ (name : String) (cs : List (Change (Recipe ω))) (run : RecipeRun ω),
      (ofChanges name cs).IsCyclic → StandsIn (ofChanges name cs).recipe run.recipe →
        ∃ errors, (∃ id, cycleFault id ∈ errors) ∧ ∀ sources shared,
          run.run sources shared = .ok (.error (.validation errors), shared)) ∧
    (∀ d : DeleteArgument, (d.procedure ω).ChecksPattern d.pattern fun e =>
      d.index.toNat + 1 = UInt64.size ∧ ∃ length, e = .removal d.index.toNat length) ∧
    ∀ f : FindCalls, (f.procedure ω).ChecksPattern f.pattern fun _ => False := by
  have hbad : ∀ r : Recipe ω, r.validateAll.isGood = false ↔ r.allFaults ≠ [] := fun r => by
    rw [← faults_validateAll, Ne, Validated.faults_eq_nil_iff, Bool.not_eq_true]
  refine ⟨fun r => ⟨?_, ?_⟩, fun run sources shared => ⟨fun h => ?_, fun errors shared' h => ?_⟩,
    fun name cs run hcyclic hstands => ?_, DeleteArgument.checksPattern, FindCalls.checksPattern⟩
  · simp only [faults_validateAll, Procedure.faults_validate, allFaults_eq_flatMap]
  · simp only [← Validated.faults_eq_nil_iff, faults_validateAll, Procedure.faults_validate,
      allFaults_eq_nil_iff]
  · rw [faults_validateAll]
    exact RecipeRun.run_of_faults ((hbad _).mp h)
  · have hfaults : run.recipe.allFaults ≠ [] := fun hnil => RecipeRun.run_ne_validation hnil h
    rw [RecipeRun.run_of_faults hfaults] at h
    cases h
    exact ⟨(hbad _).mpr hfaults, (faults_validateAll _).symm, rfl⟩
  · obtain ⟨id, hordered⟩ := (exists_ordered_error_iff name cs).mpr hcyclic
    have hfault := hstands.exists_cycleFault
      ⟨id, by rw [allFaults_recipe_of_error hordered]; exact List.mem_singleton_self _⟩
    exact ⟨_, hfault, fun sources shared =>
      RecipeRun.run_of_faults (List.ne_nil_of_mem hfault.choose_spec)⟩

/-- Two steps that wait for each other. -/
def mutualSteps : List (Change Recipe) :=
  [.add ⟨"a", ["b"], FindCalls.recipe { pattern := "A b()" }⟩,
    .add ⟨"b", ["a"], FindCalls.recipe { pattern := "B a()" }⟩]

/-- A pipeline with an order, whose only step is one without. -/
def nestedSteps : List (Change Recipe) :=
  [.add ⟨"inner", [], (ofChanges "inner" mutualSteps).recipe⟩]

/-- The fault of a pipeline is found within another one. -/
theorem validation_spec_nestedSteps :
    (ofChanges "inner" mutualSteps).IsCyclic ∧
      StandsIn (ofChanges "inner" mutualSteps).recipe (ofChanges "outer" nestedSteps).recipe ∧
      ∃ errors, (∃ id, cycleFault id ∈ errors) ∧ ∀ sources shared,
        ({ recipe := (ofChanges "outer" nestedSteps).recipe } : RecipeRun).run sources shared =
          .ok (.error (.validation errors), shared) := by
  have hcyclic : (ofChanges "inner" mutualSteps).IsCyclic := by
    have hab : Depends mutualSteps "a" "b" := ⟨rfl, _, rfl, List.mem_cons_self⟩
    have hba : Depends mutualSteps "b" "a" := ⟨rfl, _, rfl, List.mem_cons_self⟩
    exact isCyclic_of_depends "inner" (.tail (.single hab) hba)
  have hstands : StandsIn (ofChanges "inner" mutualSteps).recipe
      (ofChanges "outer" nestedSteps).recipe :=
    .step (s := ⟨"inner", [], (ofChanges "inner" mutualSteps).recipe⟩) rfl .self
  exact ⟨hcyclic, hstands, (validation_spec (ω := Unit)).2.2.1 "inner" mutualSteps
    { recipe := (ofChanges "outer" nestedSteps).recipe } hcyclic hstands⟩

end Recipe

end Lossless
