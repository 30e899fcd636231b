import Lossless.Proofs.Run.InStep

/-!
# Files that are run alone

A run takes every file through the procedures of a recipe, one after the other
(`Lossless.Recipe.apply_eq_applyAll`). If all procedures are in step with themselves, no file
notices what happens to the others: each comes out as if it were run alone
(`Lossless.RecipeRun.alone`), in a run that starts afresh. A run fails exactly if one of its files
would fail alone, and then as the first of these does. This holds for files that are
visited one after the other (`Lossless.RecipeRun.runSources_eq_mapM_alone`), and also while
other files are visited at the same time and change what is shared between any two
procedures (`Lossless.Recipe.inStep_applyAmid`).
-/

namespace Lossless

/-! ### Sequences of procedures -/

namespace Recipe

variable {ω : Type}

/-- Takes a file through some procedures. -/
def applyAll (ps : List (Procedure ω)) (d : Option Draft) : ContextM ω (Option Draft) :=
  ps.foldlM (fun d p => p.apply d) d

mutual

/-- A recipe takes a file through all procedures in it, in preorder. -/
theorem apply_eq_applyAll :
    ∀ (r : Recipe ω) (d : Option Draft), r.apply d = applyAll r.procedures d
  | .mk p list, d => by
    rw [apply, procedures, applyAll, List.foldlM_cons]
    exact bind_congr fun d => applyList_eq_applyAll list d

theorem applyList_eq_applyAll :
    ∀ (rs : List (Recipe ω)) (d : Option Draft),
      applyList rs d = applyAll (listProcedures rs) d
  | [], d => by
    rw [applyList, listProcedures, applyAll, List.foldlM_nil]
  | r :: rs, d => by
    rw [applyList, listProcedures, applyAll, List.foldlM_append, apply_eq_applyAll r d]
    exact bind_congr fun d => applyList_eq_applyAll rs d

end

/-- Takes a file through some procedures while other files are visited: before each of them
the shared part of the context is what others have made of it. -/
def applyAmid (schedule : List (Procedure × Shared)) (d : Option Draft) :
    ContextM Unit (Option Draft) :=
  schedule.foldlM (fun d x => do modify ({ · with shared := x.2 }); x.1.apply d) d

/-- **A file does not notice other files**: whatever they do to what is shared, it is taken
through its procedures as if there were no others. -/
theorem inStep_applyAmid {schedule : List (Procedure × Shared)}
    (hps : ∀ x ∈ schedule, x.1.InStep x.1) (hquiet : ∀ x ∈ schedule, x.2.Quiet)
    (d : Option Draft) :
    ContextM.InStep (applyAmid schedule d) (applyAll (schedule.map Prod.fst) d) := by
  induction schedule generalizing d with
  | nil => exact .pure d
  | cons x schedule ih =>
    obtain ⟨hp, hps⟩ := List.forall_mem_cons.mp hps
    obtain ⟨hx, hquiet⟩ := List.forall_mem_cons.mp hquiet
    rw [applyAmid, List.map_cons, applyAll, List.foldlM_cons, List.foldlM_cons]
    refine InStep.bind (fun c c' hc => ?_) (ih hps hquiet)
    exact hp.apply d { c with shared := x.2 } c' (hc.withShared hx hc.right)

/-- Procedures that are in step with themselves are so one after the other. -/
theorem inStep_applyAll {ps : List Procedure} (hps : ∀ p ∈ ps, p.InStep p) (d : Option Draft) :
    ContextM.InStep (applyAll ps d) (applyAll ps d) := by
  induction ps generalizing d with
  | nil => exact .pure d
  | cons p ps ih =>
    obtain ⟨hp, hps⟩ := List.forall_mem_cons.mp hps
    rw [applyAll, List.foldlM_cons]
    exact (hp.apply d).bind (ih hps)

/-- So is a recipe that is made of them. -/
theorem inStep_apply {r : Recipe} (h : ∀ p ∈ r.procedures, p.InStep p) (d : Option Draft) :
    ContextM.InStep (r.apply d) (r.apply d) := by
  rw [apply_eq_applyAll]
  exact inStep_applyAll h d

end Recipe

/-! ### Runs -/

namespace RecipeRun

section Result

variable {ω : Type}

/-- The result for a file, from what its visit ended with. -/
def result (r : RecipeRun ω) (before : Source) (after : Option Draft) (c : Context ω) :
    SourceResult where
  before := before
  after := after.map (r.cleanUp c.importRequests)
  importRequests := c.importRequests

/-- A run of a file takes it through the recipe in a fresh context. -/
theorem runSource_eq (r : RecipeRun ω) (before : Source) (shared : Shared ω) :
    r.runSource before shared =
      (fun x => (r.result before x.1 x.2, x.2.shared)) <$>
        r.recipe.apply (some { source := before }) { shared } := by
  rw [runSource, StateT.run]
  cases r.recipe.apply (some { source := before }) { shared } <;> rfl

/-- A file is run by applying the recipe and gathering what has become of it. -/
theorem runSource_of_apply {r : RecipeRun ω} {before : Source} {shared : Shared ω}
    {after : Option Draft} {c : Context ω}
    (h : r.recipe.apply (some { source := before }) { shared } = .ok (after, c)) :
    r.runSource before shared = .ok (r.result before after c, c.shared) := by
  rw [runSource_eq, h]
  rfl

end Result

/-- The result for a file that is run alone, in a fresh context. -/
def alone (r : RecipeRun) (before : Source) : Except Failure SourceResult :=
  (fun x => r.result before x.1 x.2) <$> r.recipe.apply (some { source := before }) {}

/-- The result of a file is about this file. -/
theorem before_of_alone {r : RecipeRun} {before : Source} {x : SourceResult}
    (h : r.alone before = .ok x) : x.before = before := by
  rw [alone] at h
  cases happly : r.recipe.apply (some { source := before }) {} with
  | error e =>
    rw [happly] at h
    cases h
  | ok y =>
    rw [happly] at h
    obtain rfl := Except.ok.inj h
    rfl

variable {r r' : RecipeRun} {shared : Shared}

/-- Visits in step with the visit of a recipe give the result for a file that is run alone, and
leave what is shared quiet; or they fail as the file does that is run alone. -/
theorem alone_of_inStep {before : Source} {x : ContextM Unit (Option Draft)}
    (h : ContextM.InStep x (r.recipe.apply (some { source := before }))) {c : Context}
    (hc : c.Alike {}) :
    (∃ after c', x c = .ok (after, c') ∧ r.alone before = .ok (r.result before after c') ∧
        c'.shared.Quiet) ∨
      ∃ e, x c = .error e ∧ r.alone before = .error e := by
  rcases h.cases hc with ⟨after, c', d, hx, halone, hcd⟩ | ⟨e, hx, halone⟩
  · refine .inl ⟨after, c', hx, ?_, hcd.left⟩
    rw [alone, halone]
    show Except.ok (r.result before after d) = _
    rw [result, result, hcd.importRequests]
  · refine .inr ⟨e, hx, ?_⟩
    rw [alone, halone]
    rfl

/-- **Every file comes out as if it were run alone**, as long as none fails; the first that would
fail alone makes the run fail. -/
theorem runSources_eq_mapM_alone
    (h : ∀ d, ContextM.InStep (r.recipe.apply d) (r.recipe.apply d)) (hquiet : shared.Quiet)
    (sources : List Source) :
    ∃ shared' : Shared, shared'.Quiet ∧
      r.runSources sources shared = (·, shared') <$> sources.mapM r.alone := by
  induction sources generalizing shared with
  | nil => exact ⟨shared, hquiet, rfl⟩
  | cons s rest ih =>
    rcases alone_of_inStep (h (some { source := s })) (c := { shared })
      ⟨rfl, hquiet, Shared.quiet_fresh⟩ with ⟨after, c, happly, halone, hc⟩ | ⟨e, happly, halone⟩
    -- what the first file leaves behind is quiet, and that is all the others need
    · obtain ⟨shared', hquiet', hrest⟩ := ih hc
      refine ⟨shared', hquiet', ?_⟩
      rw [runSources, runSource_of_apply happly, List.mapM_cons, halone]
      show (r.runSources rest c.shared >>= fun x => Except.ok (r.result s after c :: x.1, x.2)) = _
      rw [hrest]
      show _ = (·, shared') <$> (rest.mapM r.alone >>= fun xs => _)
      cases rest.mapM r.alone <;> rfl
    · refine ⟨shared, hquiet, ?_⟩
      rw [runSources, runSource_eq, happly, List.mapM_cons, halone]
      rfl

/-- A run of a recipe with valid options is a run of its files. -/
theorem run_eq_mapM_alone (h : ∀ d, ContextM.InStep (r.recipe.apply d) (r.recipe.apply d))
    (hvalid : r.recipe.allFaults = []) (hquiet : shared.Quiet) (sources : List Source) :
    ∃ shared' : Shared, shared'.Quiet ∧
      r.run sources shared =
        (fun results => (.ok { results, cancelled := false }, shared')) <$>
          sources.mapM r.alone := by
  obtain ⟨shared', hquiet', hrun⟩ := runSources_eq_mapM_alone h hquiet sources
  refine ⟨shared', hquiet', ?_⟩
  rw [run, hvalid]
  show (r.runSources sources shared >>= fun x => _) = _
  rw [hrun]
  cases sources.mapM r.alone with
  | error e => rfl
  | ok results =>
    show (if shared'.cancelled && r.config.failOnCancel then _ else _) = _
    rw [hquiet'.uncancelled]
    rfl

/-- **Recipes in step have runs with the same outcome.** -/
theorem run_eq_of_inStep (h : ∀ d, ContextM.InStep (r.recipe.apply d) (r'.recipe.apply d))
    (hfaults : r.recipe.allFaults = r'.recipe.allFaults) (hremover : r.remover = r'.remover)
    (hquiet : shared.Quiet) (sources : List Source) :
    (r.run sources shared).map Prod.fst = (r'.run sources shared).map Prod.fst := by
  cases hvalid : r.recipe.allFaults with
  | cons e es => rw [run, run, ← hfaults, hvalid]
  | nil =>
    -- both runs come down to files that are run alone, and these agree
    have halone : r.alone = r'.alone := by
      funext before
      have hresult : r.result before = r'.result before := by
        funext after c
        unfold result cleanUp
        rw [hremover]
      rcases alone_of_inStep (h (some { source := before })).symm (c := {})
        ⟨rfl, Shared.quiet_fresh, Shared.quiet_fresh⟩ with
        ⟨after, c, happly, halone, -⟩ | ⟨e, happly, halone⟩
      · rw [halone, alone, happly, hresult]
        rfl
      · rw [halone, alone, happly]
        rfl
    obtain ⟨_, -, hrun⟩ :=
      run_eq_mapM_alone (fun s => (h s).trans (h s).symm) hvalid hquiet sources
    obtain ⟨_, -, hrun'⟩ :=
      run_eq_mapM_alone (fun s => (h s).symm.trans (h s)) (hfaults ▸ hvalid) hquiet sources
    rw [hrun, hrun', halone]
    cases sources.mapM r'.alone <;> rfl

end RecipeRun

end Lossless
