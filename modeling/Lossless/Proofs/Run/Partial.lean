import Lossless.Proofs.Run.Alone

/-!
# Partial runs

A run may be cancelled at any time, and then there are files with which it has come half way.
Such a file is what the recipes before the cancellation, in preorder, have made of it
(`Lossless.RecipeRun.run_partial`). Nothing that they did is undone, and nothing of what would
come later is done.

What one recipe makes of a file (`Lossless.Procedure.effect`) does not look at the cancellation.
It is asked for when the turn of a recipe comes, and if other files are visited at the same time,
it may also be one of these that has cancelled the run. So what others do in the meantime belongs
to a turn (`Lossless.Turn`). They may do to what is shared whatever they like, but a cancellation
is not taken back. The turns before the first one that finds the run cancelled are those that
count (`Lossless.CutAt.applyTurns_eq`).
-/

namespace Lossless

/-! ### Turns -/

variable {ω : Type}

/-- What a procedure makes of a file. A deleted file stays deleted, and one that is not supported
stays as it is. -/
def Procedure.effect (p : Procedure ω) : Option Draft → ContextM ω (Option Draft)
  | none => return none
  | some d => Visited.outcome d <$> p.visitor d.source

/-- What some procedures make of a file, one after the other. -/
def Recipe.effectAll (ps : List (Procedure ω)) (d : Option Draft) : ContextM ω (Option Draft) :=
  ps.foldlM (fun d p => p.effect d) d

/-- The turn of a procedure to visit a file. -/
structure Turn (ω : Type := Unit) where
  /-- The procedure. What others do to what is shared during its visit is part of the visit. -/
  procedure : Procedure ω
  /-- What visits of other files have done to what is shared since the last turn. -/
  meanwhile : Shared ω → Shared ω
  /-- A cancellation is not taken back. -/
  stays : ∀ shared, shared.cancelled = true → (meanwhile shared).cancelled = true

namespace Turn

/-- The turn of a procedure while no other files are visited. -/
def sole (p : Procedure ω) : Turn ω := ⟨p, id, fun _ => id⟩

/-- The context in which it begins. -/
def await (t : Turn ω) (c : Context ω) : Context ω := { c with shared := t.meanwhile c.shared }

/-- The procedure is applied, unless the run was cancelled. -/
def apply (t : Turn ω) (d : Option Draft) : ContextM ω (Option Draft) := do
  modify t.await
  t.procedure.apply d

/-- The procedure is applied even so. -/
def effect (t : Turn ω) (d : Option Draft) : ContextM ω (Option Draft) := do
  modify t.await
  t.procedure.effect d

end Turn

/-- Takes a file through some turns. -/
def applyTurns (ts : List (Turn ω)) (d : Option Draft) : ContextM ω (Option Draft) :=
  ts.foldlM (fun d t => t.apply d) d

/-- What some turns make of a file if no one looks whether the run was cancelled. -/
def effectTurns (ts : List (Turn ω)) (d : Option Draft) : ContextM ω (Option Draft) :=
  ts.foldlM (fun d t => t.effect d) d

/-- The context after some turns in which nothing was done to this file. -/
def awaitTurns (ts : List (Turn ω)) (c : Context ω) : Context ω :=
  (ts.map Turn.meanwhile).foldl (fun c f => { c with shared := f c.shared }) c

/-- So many turns begin before the run is cancelled. -/
structure CutAt (ts : List (Turn ω)) (d : Option Draft) (c : Context ω) (k : Nat) : Prop where
  le_length : k ≤ ts.length
  uncancelled : ∀ j < k, ∀ t, ts[j]? = some t → ∀ d' c',
    effectTurns (ts.take j) d c = .ok (d', c') → (t.await c').isCancelled = false
  cancelled : ∀ t, ts[k]? = some t → ∀ d' c',
    effectTurns (ts.take k) d c = .ok (d', c') → (t.await c').isCancelled = true

section Turns

variable {t : Turn ω} {ts us : List (Turn ω)} {d d' : Option Draft} {c c' : Context ω} {k : Nat}

namespace Turn

/-- If the run was cancelled before its turn, a procedure does nothing. -/
theorem apply_of_cancelled (h : (t.await c).isCancelled = true) :
    t.apply d c = .ok (d, t.await c) := by
  show t.procedure.apply d (t.await c) = _
  cases d with
  | none => rfl
  | some d =>
    show (if (t.await c).isCancelled = true then _ else _ : ContextM ω (Option Draft)) _ = _
    rw [h]
    rfl

/-- Otherwise it does what it does. -/
theorem apply_of_uncancelled (h : (t.await c).isCancelled = false) :
    t.apply d c = t.effect d c := by
  show t.procedure.apply d (t.await c) = t.procedure.effect d (t.await c)
  cases d with
  | none => rfl
  | some d => rw [t.procedure.apply_some d h, Procedure.effect]

theorem isCancelled_await (h : c.isCancelled = true) : (t.await c).isCancelled = true :=
  t.stays c.shared h

end Turn

theorem applyTurns_cons (t : Turn ω) (ts : List (Turn ω)) (d : Option Draft) :
    applyTurns (t :: ts) d = t.apply d >>= applyTurns ts := List.foldlM_cons

theorem effectTurns_cons (t : Turn ω) (ts : List (Turn ω)) (d : Option Draft) :
    effectTurns (t :: ts) d = t.effect d >>= effectTurns ts := List.foldlM_cons

theorem effectTurns_cons_of_ok (h : t.effect d c = .ok (d', c')) :
    effectTurns (t :: ts) d c = effectTurns ts d' c' := by
  rw [effectTurns_cons, bind_of_eq h]

/-- Turns come to an end if the first one does, and the others from there. -/
theorem effectTurns_cons_eq_ok {x : Option Draft × Context ω} :
    effectTurns (t :: ts) d c = .ok x ↔
      ∃ d' c', t.effect d c = .ok (d', c') ∧ effectTurns ts d' c' = .ok x := by
  constructor
  · intro h
    cases heffect : t.effect d c with
    | ok y =>
      rw [effectTurns_cons_of_ok heffect] at h
      exact ⟨y.1, y.2, rfl, h⟩
    | error e =>
      rw [effectTurns_cons, bind_of_error heffect] at h
      cases h
  · rintro ⟨d', c', heffect, h⟩
    rw [effectTurns_cons_of_ok heffect, h]

/-- After the cancellation nothing is done to the file. -/
theorem applyTurns_of_cancelled (h : c.isCancelled = true) :
    applyTurns ts d c = .ok (d, awaitTurns ts c) := by
  induction ts generalizing c with
  | nil => rfl
  | cons t ts ih =>
    have hawait := Turn.isCancelled_await (t := t) h
    rw [applyTurns_cons, bind_of_eq (Turn.apply_of_cancelled hawait), ih hawait]
    rfl

namespace CutAt

/-- If the run was cancelled before the first turn, none is taken. -/
theorem of_cancelled (h : (t.await c).isCancelled = true) : CutAt (t :: ts) d c 0 where
  le_length := Nat.zero_le _
  uncancelled _ hj := absurd hj (Nat.not_lt_zero _)
  cancelled u hu d' c' heffect := by
    obtain rfl : t = u := by simpa using hu
    obtain ⟨-, rfl⟩ := Prod.mk.inj (Except.ok.inj heffect)
    exact h

/-- If the visit fails, there are no later turns to speak of. -/
theorem cons (h : (t.await c).isCancelled = false) (hk : k ≤ ts.length)
    (hcut : ∀ d' c', t.effect d c = .ok (d', c') → CutAt ts d' c' k) :
    CutAt (t :: ts) d c (k + 1) where
  le_length := Nat.succ_le_succ hk
  uncancelled j hj u hu d'' c'' hbefore := by
    cases j with
    | zero =>
      obtain rfl : t = u := by simpa using hu
      obtain ⟨-, rfl⟩ := Prod.mk.inj (Except.ok.inj hbefore)
      exact h
    | succ j =>
      obtain ⟨d', c', heffect, hbefore⟩ := effectTurns_cons_eq_ok.mp hbefore
      exact (hcut d' c' heffect).uncancelled j (Nat.lt_of_succ_lt_succ hj) u (by simpa using hu)
        d'' c'' hbefore
  cancelled u hu d'' c'' hbefore := by
    obtain ⟨d', c', heffect, hbefore⟩ := effectTurns_cons_eq_ok.mp hbefore
    exact (hcut d' c' heffect).cancelled u (by simpa using hu) d'' c'' hbefore

/-- If a turn is taken the run was not cancelled before it. -/
theorem head (h : CutAt (t :: ts) d c (k + 1)) : (t.await c).isCancelled = false :=
  h.uncancelled 0 (Nat.succ_pos k) t rfl d c rfl

/-- After a turn was taken the others are cut at one turn less. -/
theorem tail (h : CutAt (t :: ts) d c (k + 1)) (heffect : t.effect d c = .ok (d', c')) :
    CutAt ts d' c' k where
  le_length := Nat.le_of_succ_le_succ h.le_length
  uncancelled j hj u hu d'' c'' hbefore :=
    h.uncancelled (j + 1) (Nat.succ_lt_succ hj) u (by simpa using hu) d'' c''
      (effectTurns_cons_eq_ok.mpr ⟨d', c', heffect, hbefore⟩)
  cancelled u hu d'' c'' hbefore :=
    h.cancelled u (by simpa using hu) d'' c''
      (effectTurns_cons_eq_ok.mpr ⟨d', c', heffect, hbefore⟩)

end CutAt

/-- There is a first turn that finds the run cancelled, or none does. -/
theorem exists_cutAt (ts : List (Turn ω)) (d : Option Draft) (c : Context ω) :
    ∃ k, CutAt ts d c k := by
  induction ts generalizing d c with
  | nil => exact ⟨0, Nat.le_refl 0, nofun, nofun⟩
  | cons t ts ih =>
    cases h : (t.await c).isCancelled with
    | true => exact ⟨0, .of_cancelled h⟩
    | false =>
      cases heffect : t.effect d c with
      | ok x =>
        obtain ⟨k, hcut⟩ := ih x.1 x.2
        refine ⟨k + 1, .cons h hcut.le_length fun d' c' heffect' => ?_⟩
        obtain rfl := Except.ok.inj (heffect.symm.trans heffect')
        exact hcut
      | error e =>
        refine ⟨1, .cons h (Nat.zero_le _) fun d' c' heffect' => ?_⟩
        cases heffect.symm.trans heffect'

/-- **The turns before the cut are those that count.** -/
theorem CutAt.applyTurns_eq (h : CutAt ts d c k) :
    applyTurns ts d c =
      (effectTurns (ts.take k) d c).map fun x => (x.1, awaitTurns (ts.drop k) x.2) := by
  induction ts generalizing d c k with
  | nil =>
    rw [List.take_nil, List.drop_nil]
    rfl
  | cons t ts ih =>
    cases k with
    | zero =>
      have hawait := h.cancelled t rfl d c rfl
      rw [applyTurns_cons, bind_of_eq (Turn.apply_of_cancelled hawait),
        applyTurns_of_cancelled hawait]
      rfl
    | succ k =>
      have happly := Turn.apply_of_uncancelled (d := d) h.head
      rw [applyTurns_cons, List.take_succ_cons, List.drop_succ_cons]
      cases heffect : t.effect d c with
      | ok x =>
        rw [bind_of_eq (happly.trans heffect), effectTurns_cons_of_ok heffect]
        exact ih (h.tail heffect)
      | error e =>
        rw [bind_of_error (happly.trans heffect), effectTurns_cons,
          bind_of_error heffect]
        rfl

/-- What the turns from the cut on are about does not matter. -/
theorem CutAt.applyTurns_congr (h : CutAt ts d c k) (htake : us.take k = ts.take k)
    (hmeanwhile : us.map Turn.meanwhile = ts.map Turn.meanwhile) :
    applyTurns us d c = applyTurns ts d c := by
  have hlength : us.length = ts.length := by simpa using congrArg List.length hmeanwhile
  have htakes : ∀ j ≤ k, us.take j = ts.take j := fun j hj => by
    rw [← Nat.min_eq_left hj, ← List.take_take, htake, List.take_take]
  have hcut : CutAt us d c k :=
    { le_length := hlength ▸ h.le_length
      uncancelled := fun j hj u hu d' c' hbefore => by
        rw [htakes j (Nat.le_of_lt hj)] at hbefore
        rw [← List.getElem?_take_of_lt hj, htake, List.getElem?_take_of_lt hj] at hu
        exact h.uncancelled j hj u hu d' c' hbefore
      cancelled := fun u hu d' c' hbefore => by
        rw [htake] at hbefore
        -- the turn at the cut may be another one, but the same has happened before it
        have hmap := congrArg (·[k]?) hmeanwhile
        simp only [List.getElem?_map, hu, Option.map_some] at hmap
        obtain ⟨t, ht, hawait⟩ := Option.map_eq_some_iff.mp hmap.symm
        have := h.cancelled t ht d' c' hbefore
        rwa [Turn.await, hawait] at this }
  rw [hcut.applyTurns_eq, h.applyTurns_eq, htake]
  unfold awaitTurns
  rw [List.map_drop, List.map_drop, hmeanwhile]

end Turns

/-! ### Files that are visited one after the other -/

section Sole

variable {ps : List (Procedure ω)} {d d' : Option Draft} {c c' : Context ω} {k : Nat}

/-- Without anything in between, the turns are those of a run. -/
theorem applyTurns_sole (ps : List (Procedure ω)) :
    applyTurns (ps.map .sole) = Recipe.applyAll ps := by
  funext d
  rw [applyTurns, Recipe.applyAll, List.foldlM_map]
  rfl

theorem effectTurns_sole (ps : List (Procedure ω)) :
    effectTurns (ps.map .sole) = Recipe.effectAll ps := by
  funext d
  rw [effectTurns, Recipe.effectAll, List.foldlM_map]
  rfl

theorem awaitTurns_sole (ps : List (Procedure ω)) (c : Context ω) :
    awaitTurns (ps.map .sole) c = c := by
  induction ps with
  | nil => rfl
  | cons p ps ih => exact ih

/-- Without other files, a recipe is run up to the cut. -/
theorem CutAt.apply_eq {r : Recipe ω} (h : CutAt (r.procedures.map .sole) d c k) :
    r.apply d c = Recipe.effectAll (r.procedures.take k) d c := by
  rw [Recipe.apply_eq_applyAll, ← applyTurns_sole, h.applyTurns_eq, ← List.map_take,
    ← List.map_drop, effectTurns_sole]
  simp only [awaitTurns_sole]
  cases Recipe.effectAll (r.procedures.take k) d c <;> rfl

/-- A procedure whose visits do not fail. -/
def Procedure.Returns (p : Procedure ω) : Prop := ∀ s c, ∃ x, p.visitor s c = .ok x

theorem Procedure.Returns.effect {p : Procedure ω} (h : p.Returns) (d : Option Draft)
    (c : Context ω) :
    ∃ d' c', p.effect d c = .ok (d', c') := by
  cases d with
  | none => exact ⟨none, c, rfl⟩
  | some d =>
    obtain ⟨⟨visited, c'⟩, hvisit⟩ := h d.source c
    refine ⟨visited.outcome d, c', ?_⟩
    rw [Procedure.effect, map_eq_pure_bind, bind_of_eq hvisit]
    rfl

/-- Procedures that return do so one after the other. -/
theorem Recipe.effectAll_returns (h : ∀ p ∈ ps, p.Returns) (d : Option Draft) (c : Context ω) :
    ∃ d' c', effectAll ps d c = .ok (d', c') := by
  induction ps generalizing d c with
  | nil => exact ⟨d, c, rfl⟩
  | cons p ps ih =>
    obtain ⟨hp, hps⟩ := List.forall_mem_cons.mp h
    obtain ⟨d', c', heffect⟩ := hp.effect d c
    obtain ⟨d'', c'', hrest⟩ := ih hps d' c'
    refine ⟨d'', c'', ?_⟩
    rw [effectAll, List.foldlM_cons, bind_of_eq heffect]
    exact hrest

end Sole

/-! ### Nested lists of recipes -/

namespace Recipe

/-- The recipe with a list in which no recipe lists any others. -/
def flat (r : Recipe ω) : Recipe ω := .mk r.procedure ((listProcedures r.list).map (.mk · []))

theorem listProcedures_map_mk (ps : List (Procedure ω)) :
    listProcedures (ps.map (.mk · [])) = ps := by
  induction ps with
  | nil => rfl
  | cons p ps ih => rw [List.map_cons, listProcedures, ih]; rfl

/-- The procedures of a flattened recipe are the same, in the same order. -/
theorem procedures_flat (r : Recipe ω) : r.flat.procedures = r.procedures := by
  obtain ⟨p, list⟩ := r
  rw [flat, procedures, listProcedures_map_mk]
  rfl

mutual

/-- The faults of a recipe are those of its procedures. -/
theorem allFaults_eq_flatMap : ∀ r : Recipe ω, r.allFaults = r.procedures.flatMap (·.faults)
  | .mk p list => by
    rw [allFaults, procedures, List.flatMap_cons, listFaults_eq_flatMap list]

theorem listFaults_eq_flatMap :
    ∀ rs : List (Recipe ω), listFaults rs = (listProcedures rs).flatMap (·.faults)
  | [] => rfl
  | r :: rs => by
    rw [listFaults, listProcedures, List.flatMap_append, allFaults_eq_flatMap r,
      listFaults_eq_flatMap rs]

end

end Recipe

namespace RecipeRun

variable {r : RecipeRun ω} {q : Recipe ω} {shared shared' : Shared ω} {before : Source}
  {sources : List Source}

/-- A run is a matter of the procedures. -/
theorem runSources_of_procedures_eq (h : q.procedures = r.recipe.procedures) :
    ({ r with recipe := q } : RecipeRun ω).runSources sources shared =
      r.runSources sources shared := by
  have happly : q.apply = r.recipe.apply := by
    funext s
    rw [Recipe.apply_eq_applyAll, Recipe.apply_eq_applyAll, h]
  have hsource : ({ r with recipe := q } : RecipeRun ω).runSource = r.runSource := by
    funext s shared
    rw [runSource, runSource, happly]
    rfl
  induction sources generalizing shared with
  | nil => rfl
  | cons s rest ih => simp only [runSources, hsource, ih]

/-- **How recipes are nested does not matter**, only in which order they come. -/
theorem run_of_procedures_eq (h : q.procedures = r.recipe.procedures) (sources : List Source)
    (shared : Shared ω) :
    ({ r with recipe := q } : RecipeRun ω).run sources shared = r.run sources shared := by
  simp only [run, Recipe.allFaults_eq_flatMap, h, runSources_of_procedures_eq h]

/-! ### The run -/

theorem cleanUp_keep (h : r.remover = .keep) (names : List String) (d : Draft) :
    r.cleanUp names d = d := by
  unfold cleanUp
  rw [h]
  split
  · split <;> rfl
  · rfl

/-- Files that come to an end do so one after the other. -/
theorem runSources_cons_of_ok {x : SourceResult} {xs : List SourceResult} {shared'' : Shared ω}
    (hfirst : r.runSource before shared = .ok (x, shared'))
    (hrest : r.runSources sources shared' = .ok (xs, shared'')) :
    r.runSources (before :: sources) shared = .ok (x :: xs, shared'') := by
  rw [runSources, hfirst]
  show (r.runSources sources shared' >>= fun y => Except.ok (x :: y.1, y.2)) = _
  rw [hrest]
  rfl

/-- What comes of a file with which a run came to the `k`th procedure. -/
structure Ran (r : RecipeRun ω) (shared : Shared ω) (x : SourceResult) (shared' : Shared ω)
    (k : Nat) : Prop where
  cut : CutAt (r.recipe.procedures.map .sole) (some { source := x.before }) { shared } k
  effect : ∃ c, Recipe.effectAll (r.recipe.procedures.take k) (some { source := x.before })
      { shared } = .ok (x.after, c) ∧ c.importRequests = x.importRequests ∧ c.shared = shared'

section Ran

variable {x : SourceResult} {k : Nat}

/-- A run that did not come to all procedures was cancelled. -/
theorem Ran.isCancelled (h : r.Ran shared x shared' k) (hk : k ≠ r.recipe.procedures.length) :
    shared'.cancelled = true := by
  obtain ⟨c, heffect, -, rfl⟩ := h.effect
  have hle : k ≤ r.recipe.procedures.length := by simpa using h.cut.le_length
  obtain ⟨p, hp⟩ : ∃ p, r.recipe.procedures[k]? = some p :=
    ⟨_, List.getElem?_eq_getElem (Nat.lt_of_le_of_ne hle hk)⟩
  have hturn : (r.recipe.procedures.map Turn.sole)[k]? = some (.sole p) := by
    rw [List.getElem?_map, hp, Option.map_some]
  rw [← effectTurns_sole, List.map_take] at heffect
  exact h.cut.cancelled _ hturn x.after c heffect

/-- A run that was cancelled before comes to none, so it does nothing. -/
theorem Ran.of_cancelled (h : r.Ran shared x shared' k) (hc : shared.cancelled = true) :
    k = 0 ∧ x.after = some { source := x.before } ∧ x.importRequests = [] ∧ shared' = shared := by
  have hk : k = 0 := by
    by_contra hk
    have hpos : 0 < (r.recipe.procedures.map Turn.sole).length :=
      Nat.lt_of_lt_of_le (Nat.pos_of_ne_zero hk) h.cut.le_length
    have hfirst := h.cut.uncancelled 0 (Nat.pos_of_ne_zero hk) _ (List.getElem?_eq_getElem hpos)
      (some { source := x.before }) { shared } rfl
    rw [Turn.isCancelled_await (c := { shared }) hc] at hfirst
    cases hfirst
  subst hk
  obtain ⟨c, heffect, hrequests, rfl⟩ := h.effect
  obtain ⟨hafter, rfl⟩ := Prod.mk.inj (Except.ok.inj heffect)
  exact ⟨rfl, hafter.symm, hrequests.symm, rfl⟩

end Ran

section

variable (hremover : r.remover = .keep) (hreturns : ∀ p ∈ r.recipe.procedures, p.Returns)

include hremover hreturns

/-- Each file comes to an end, after as many procedures as could be applied. -/
theorem exists_ran (before : Source) (shared : Shared ω) :
    ∃ x shared' k, r.runSource before shared = .ok (x, shared') ∧ x.before = before ∧
      r.Ran shared x shared' k := by
  obtain ⟨k, hcut⟩ :=
    exists_cutAt (r.recipe.procedures.map .sole) (some { source := before })
      ({ shared } : Context ω)
  obtain ⟨after, c, heffect⟩ := Recipe.effectAll_returns
    (fun p hp => hreturns p (List.mem_of_mem_take hp)) (some { source := before })
    ({ shared } : Context ω)
  have hrun := runSource_of_apply (hcut.apply_eq.trans heffect)
  refine ⟨_, c.shared, k, hrun, rfl, hcut, c, ?_, rfl, rfl⟩
  have hkeep : r.cleanUp c.importRequests = id := funext (cleanUp_keep hremover _)
  rw [result, hkeep, Option.map_id]
  exact heffect

/-- A run goes through its files one after the other, even if it was cancelled. -/
theorem exists_runSources (sources : List Source) (shared : Shared ω) :
    ∃ results shared', r.runSources sources shared = .ok (results, shared') ∧
      results.map (·.before) = sources ∧ (shared.cancelled = true → shared'.cancelled = true) ∧
      ∀ i x, results[i]? = some x → ∃ before after k,
        r.runSources (sources.take i) shared = .ok (results.take i, before) ∧
        r.Ran before x after k ∧
        r.runSources (sources.take (i + 1)) shared = .ok (results.take (i + 1), after) ∧
        (after.cancelled = true → shared'.cancelled = true) := by
  induction sources generalizing shared with
  | nil => exact ⟨[], shared, rfl, rfl, id, fun i x hx => absurd hx (by simp)⟩
  | cons s rest ih =>
    obtain ⟨y, shared₁, k, hfirst, hbefore, hran⟩ := exists_ran hremover hreturns s shared
    obtain ⟨results, shared', hrest, hbefores, hkept, hrans⟩ := ih shared₁
    refine ⟨y :: results, shared', runSources_cons_of_ok hfirst hrest, ?_, fun hc => ?_, ?_⟩
    · rw [List.map_cons, hbefore, hbefores]
    · obtain ⟨-, -, -, hsame⟩ := hran.of_cancelled hc
      exact hkept (hsame ▸ hc)
    · intro i x hx
      cases i with
      | zero =>
        obtain rfl : y = x := by simpa using hx
        exact ⟨shared, shared₁, k, rfl, hran, runSources_cons_of_ok hfirst rfl, hkept⟩
      | succ i =>
        obtain ⟨before, after, k, htake, hran, htake', hkept⟩ := hrans i x (by simpa using hx)
        exact ⟨before, after, k, runSources_cons_of_ok hfirst htake, hran,
          runSources_cons_of_ok hfirst htake', hkept⟩

end

/-- **Partial runs.** If the recipes are valid, their visits return and the remover keeps imports, a
run has one result for each file, in the order of the files, or is an error, just if it was
cancelled and this is to be one. What has become of a file is the work of the first `k` procedures
in preorder, in the context in which the files before have left the run; the others do nothing with
it. If the run is not cancelled these are all procedures, and for files whose turn comes after the
cancellation there are none. Nested lists are as good as flat ones. If others are visited at the
same time, a file is still the work of the turns before a cut, whatever procedures come later. -/
theorem run_partial (r : RecipeRun ω) (sources : List Source) (shared : Shared ω) :
    (r.recipe.allFaults = [] → r.remover = .keep → (∀ p ∈ r.recipe.procedures, p.Returns) →
      ∃ results shared',
        r.run sources shared = .ok (if shared'.cancelled && r.config.failOnCancel then
          .error .cancelled else .ok { results, cancelled := shared'.cancelled }, shared') ∧
        results.map (·.before) = sources ∧
        ∀ i x, results[i]? = some x → ∃ before after k,
          r.runSources (sources.take i) shared = .ok (results.take i, before) ∧
          r.Ran before x after k ∧
          r.runSources (sources.take (i + 1)) shared = .ok (results.take (i + 1), after) ∧
          (shared'.cancelled = false → k = r.recipe.procedures.length) ∧
          (before.cancelled = true → k = 0 ∧ x.after = some { source := x.before })) ∧
    ({ r with recipe := r.recipe.flat } : RecipeRun ω).run sources shared = r.run sources shared ∧
    ∀ (ts : List (Turn ω)) (d : Option Draft) (c : Context ω), ∃ k, CutAt ts d c k ∧
      applyTurns ts d c =
        (effectTurns (ts.take k) d c).map (fun x => (x.1, awaitTurns (ts.drop k) x.2)) ∧
      ∀ us : List (Turn ω), us.take k = ts.take k →
        us.map Turn.meanwhile = ts.map Turn.meanwhile → applyTurns us d c = applyTurns ts d c := by
  refine ⟨fun hvalid hremover hreturns => ?_,
    run_of_procedures_eq r.recipe.procedures_flat sources shared, fun ts d c => ?_⟩
  · obtain ⟨results, shared', hrun, hbefore, -, hrans⟩ :=
      exists_runSources hremover hreturns sources shared
    refine ⟨results, shared', ?_, hbefore, fun i x hx => ?_⟩
    · rw [run, hvalid]
      show (r.runSources sources shared >>= fun x => _) = _
      rw [hrun]
      show (if _ then _ else _ : Except Failure (Except RunError RunResult × Shared ω)) = _
      split <;> rfl
    · obtain ⟨before, after, k, htake, hran, htake', hkept⟩ := hrans i x hx
      refine ⟨before, after, k, htake, hran, htake', fun hc => ?_, fun hc => ?_⟩
      · by_contra hk
        rw [hkept (hran.isCancelled hk)] at hc
        cases hc
      · obtain ⟨hk, hafter, -, -⟩ := hran.of_cancelled hc
        exact ⟨hk, hafter⟩
  · obtain ⟨k, hcut⟩ := exists_cutAt ts d c
    exact ⟨k, hcut, hcut.applyTurns_eq, fun us => hcut.applyTurns_congr⟩

/-- A run that is cancelled by the first recipe, before the second one can delete a file. -/
def stopping : RecipeRun where
  recipe := .mk { name := "stop", displayName := "Stop", description := "", visitor := .cancelling }
    [.mk { name := "delete", displayName := "Delete", description := "",
           visitor := fun _ => return .deleted } []]
  config := { failOnCancel := false }

/-- Two files. -/
def twoFiles : List Source := [.java { sourcePath := "A.java" }, .java { sourcePath := "B.java" }]

/-- The first of two files cancels the run. -/
theorem run_partial_stopping :
    stopping.recipe.allFaults = [] ∧ stopping.remover = .keep ∧
      (∀ p ∈ stopping.recipe.procedures, p.Returns) ∧
      ∃ results shared', shared'.cancelled = true ∧
        stopping.run twoFiles {} = .ok (.ok { results, cancelled := true }, shared') ∧
        results.map (·.before) = twoFiles ∧
          results.map (·.after) = twoFiles.map fun s => some { source := s } := by
  have hreturns : ∀ p ∈ stopping.recipe.procedures, p.Returns := by
    intro p hp
    rcases List.mem_pair.mp hp with rfl | rfl
    · exact fun s c => ⟨(.tree .same, c.cancel), rfl⟩
    · exact fun s c => ⟨(.deleted, c), rfl⟩
  have hstopped : stopping.run twoFiles {} =
      .ok (.ok ⟨twoFiles.map fun s => ⟨s, some { source := s }, []⟩, true⟩,
        { cancelled := true }) := rfl
  obtain ⟨hpartial, -, -⟩ := run_partial stopping twoFiles {}
  obtain ⟨results, shared', hrun, hbefore, -⟩ := hpartial rfl rfl hreturns
  obtain ⟨hresult, rfl⟩ := Prod.mk.inj (Except.ok.inj (hrun.symm.trans hstopped))
  obtain rfl := (RunResult.mk.inj (Except.ok.inj hresult)).1
  exact ⟨rfl, rfl, hreturns, _, _, rfl, hrun, hbefore, rfl⟩

end RecipeRun

end Lossless
