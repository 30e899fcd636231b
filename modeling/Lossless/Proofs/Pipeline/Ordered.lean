import Mathlib.Data.List.Permutation
import Lossless.Proofs.Order.DepthFirst
import Lossless.Proofs.Pipeline.History

/-!
# The order of a pipeline

After any history of additions, replacements and removals, the order in which a pipeline
runs its steps is one in which they can run (`Lossless.Pipeline.ordered_ok_spec`): every
step that is present, once, and after all that its own declaration depends on.

When there is no order, one would expect the present declarations to be in a cycle
(`Lossless.Pipeline.Depends`), with the step that is named on it. That is so unless the
step is a *leftover* (`Lossless.Pipeline.Leftover`): a step of that name depended on itself
once, and the present one does not lie on a cycle at all. Then the pipeline has no order,
for no reason that its steps give. `Lossless.Pipeline.ordered_error_spec` says that this is
the only thing that can go wrong, and `Lossless.Pipeline.leftover_error` that it does.
-/

namespace Lossless.Pipeline

open Relation

variable {α : Type}

/-- The present declaration of a step names another that is present. -/
def Depends (cs : List (Change α)) (d a : String) : Prop :=
  (present? cs d).isSome ∧ ∃ s, present? cs a = some s ∧ d ∈ s.dependencies

/-- A step waits for itself, though it is on no cycle of the present declarations. -/
def Leftover (cs : List (Change α)) (id : String) : Prop :=
  (present? cs id).isSome ∧ EverLooped cs id ∧ ¬TransGen (Depends cs) id id

/-- The recipes in order are those of the steps. -/
theorem mem_of_ordered_eq_ok {p : Pipeline α} {rs : List α} (h : p.ordered = .ok rs) {r : α}
    (hr : r ∈ rs) : ∃ s ∈ p.steps, s.recipe = r := by
  rw [ordered] at h
  cases hids : Order.order (p.steps.map (·.id)) p.dependencies p.dependents with
  | error id =>
    rw [hids] at h
    cases h
  | ok ids =>
    rw [hids] at h
    cases h
    obtain ⟨id, -, hfind⟩ := List.mem_filterMap.mp hr
    obtain ⟨s, hs, rfl⟩ := Option.map_eq_some_iff.mp hfind
    exact ⟨s, List.mem_of_find?_eq_some hs, rfl⟩

/-! ### The dependencies in force -/

/-- Dependents and dependencies are the two ends of the same edges. -/
theorem mem_dependents_iff_mem_dependencies (p : Pipeline α) (d a : String) :
    a ∈ p.dependents d ↔ d ∈ p.dependencies a := by
  rw [mem_dependents, mem_dependencies]

namespace Tracks

variable {present : String → Option (PipelineStep α)} {looped : String → Prop} {p : Pipeline α}

/-- The steps of a pipeline are those that are present. -/
theorem mem_ids_iff (h : Tracks present looped p) (id : String) :
    id ∈ p.steps.map (·.id) ↔ (present id).isSome := by
  rw [← h.contains_iff id, contains, List.any_eq_true, List.mem_map]
  simp

/-- A dependency in force is one between steps that are there. -/
theorem closed (h : Tracks present looped p) (d a : String)
    (hda : Order.Before p.dependents d a) :
    d ∈ p.steps.map (·.id) ∧ a ∈ p.steps.map (·.id) := by
  obtain ⟨hd, hw⟩ := (h.edges d a).mp (mem_dependents.mp hda)
  rw [h.mem_ids_iff, h.mem_ids_iff]
  refine ⟨hd, ?_⟩
  rcases hw with ⟨s, hs, -⟩ | ⟨rfl, -⟩
  · rw [hs]
    rfl
  · exact hd

/-- A step is found under its name. -/
theorem find?_id (h : Tracks present looped p) {s : PipelineStep α} (hs : s ∈ p.steps) :
    p.steps.find? (·.id = s.id) = some s := by
  cases hfind : p.steps.find? (·.id = s.id) with
  | none =>
    have hne := List.find?_eq_none.mp hfind s hs
    simp at hne
  | some t =>
    have hid : t.id = s.id := by simpa using List.find?_some hfind
    have ht := (h.steps t).mp (List.mem_of_find?_eq_some hfind)
    rw [hid, (h.steps s).mp hs] at ht
    exact ht.symm

/-- What is ordered are the steps, each after those that it waits for. -/
theorem ordered_perm (h : Tracks present looped p) {rs : List α} (ho : p.ordered = .ok rs) :
    ∃ steps : List (PipelineStep α), rs = steps.map (·.recipe) ∧ steps.Perm p.steps ∧
      steps.Pairwise (fun a b => (b.id, a.id) ∉ p.edges) ∧
      ∀ s ∈ steps, (s.id, s.id) ∉ p.edges := by
  rw [ordered] at ho
  cases hf : Order.order (p.steps.map (·.id)) p.dependencies p.dependents with
  | error id =>
    rw [hf] at ho
    cases ho
  | ok found =>
    rw [hf] at ho
    cases ho
    obtain ⟨hperm, hpair, hloop⟩ :=
      Order.order_ok h.nodup h.closed (mem_dependents_iff_mem_dependencies p) hf
    -- every name that is found stands for just one step
    have hfound : ∀ id ∈ found, (p.steps.find? (·.id = id)).map (·.id) = some id := by
      intro id hid
      obtain ⟨s, hs, rfl⟩ := List.mem_map.mp (hperm.mem_iff.mp hid)
      rw [h.find?_id hs, Option.map_some]
    have hnames : (found.filterMap fun id => p.steps.find? (·.id = id)).map (·.id) = found := by
      rw [List.map_filterMap, List.filterMap_congr hfound, List.filterMap_some]
    have hsteps : (p.steps.map (·.id)).filterMap (fun id => p.steps.find? (·.id = id)) =
        p.steps := by
      rw [List.filterMap_map]
      exact (List.filterMap_congr fun s hs => h.find?_id hs).trans List.filterMap_some
    have hstepsPerm := hperm.filterMap fun id => p.steps.find? (·.id = id)
    rw [hsteps] at hstepsPerm
    rw [← hnames, List.pairwise_map] at hpair
    refine ⟨_, List.map_filterMap.symm, hstepsPerm, hpair.imp fun hab => ?_, fun s hs => ?_⟩
    · rwa [mem_dependencies] at hab
    · rw [← mem_dependencies]
      exact hloop _ (hnames ▸ List.mem_map_of_mem hs)

end Tracks

section Histories

variable (name : String) (cs : List (Change α))

/-- **The order of a pipeline is right.** It has every step that is present, once, and each
stands behind those present that its declaration names. -/
theorem ordered_ok_spec {rs : List α} (h : (ofChanges name cs).ordered = .ok rs) :
    ∃ steps : List (PipelineStep α), rs = steps.map (·.recipe) ∧
      (steps.map (·.id)).Nodup ∧
      (∀ s, s ∈ steps ↔ present? cs s.id = some s) ∧
      ∀ (i j : Nat) (a b : PipelineStep α), steps[i]? = some a → steps[j]? = some b →
        b.id ∈ a.dependencies → j < i := by
  have htracks := tracks_ofChanges name cs
  obtain ⟨steps, rfl, hperm, hpair, hloop⟩ := htracks.ordered_perm h
  have hpresent : ∀ s, s ∈ steps ↔ present? cs s.id = some s := fun s =>
    hperm.mem_iff.trans (htracks.steps s)
  refine ⟨steps, rfl, (hperm.map _).nodup_iff.mpr htracks.nodup, hpresent, ?_⟩
  intro i j a b ha hb hdep
  have hedge : (b.id, a.id) ∈ (ofChanges name cs).edges := by
    have hb' := (hpresent b).mp (List.mem_of_getElem? hb)
    have ha' := (hpresent a).mp (List.mem_of_getElem? ha)
    exact (htracks.edges _ _).mpr ⟨by rw [hb']; rfl, Or.inl ⟨a, ha', hdep⟩⟩
  rcases Nat.lt_trichotomy j i with hlt | rfl | hgt
  · exact hlt
  · -- a step that waits for itself has no place in an order
    rw [ha] at hb
    cases hb
    exact absurd hedge (hloop a (List.mem_of_getElem? ha))
  · obtain ⟨hi, rfl⟩ := List.getElem?_eq_some_iff.mp ha
    obtain ⟨hj, rfl⟩ := List.getElem?_eq_some_iff.mp hb
    exact absurd hedge (List.pairwise_iff_getElem.mp hpair i j hi hj hgt)

omit name cs in
/-- A step that names one before it comes, one that is replaced, and one that is removed. -/
theorem ordered_ok_spec_replaced :
    ∃ steps : List (PipelineStep Nat), [4, 1] = steps.map (·.recipe) ∧
      (steps.map (·.id)).Nodup := by
  have hordered : (ofChanges "pipeline"
      [.add ⟨"a", ["b", "b", "c"], 1⟩, .add ⟨"c", [], 2⟩, .add ⟨"b", ["a"], 3⟩,
        .add ⟨"b", ["c"], 4⟩, .remove "c"]).ordered = .ok [4, 1] := by cbv
  obtain ⟨steps, hrs, hnodup, -⟩ := ordered_ok_spec _ _ hordered
  exact ⟨steps, hrs, hnodup⟩

/-! ### What has no order -/

/-- The dependencies in force are those of the present declarations, and the loops that were
left behind. -/
theorem mem_edges_iff (d a : String) :
    (d, a) ∈ (ofChanges name cs).edges ↔
      Depends cs d a ∨ d = a ∧ (present? cs a).isSome ∧ EverLooped cs a := by
  rw [(tracks_ofChanges name cs).edges d a, Wanted, and_or_left, Depends]
  refine or_congr Iff.rfl ⟨?_, ?_⟩
  · rintro ⟨hd, rfl, hl⟩
    exact ⟨rfl, hd, hl⟩
  · rintro ⟨rfl, hd, hl⟩
    exact ⟨hd, rfl, hl⟩

omit name cs in
/-- Loops lead nowhere. -/
theorem transGen_or_loop {β : Type} {r : β → β → Prop} {l : β → Prop} {a b : β}
    (h : TransGen (fun a b => r a b ∨ a = b ∧ l b) a b) : TransGen r a b ∨ a = b ∧ l b := by
  induction h with
  | single hab => exact hab.imp_left .single
  | tail _ hbc ih =>
    rcases hbc with hbc | ⟨rfl, -⟩
    · rcases ih with hab | ⟨rfl, -⟩
      · exact Or.inl (hab.tail hbc)
      · exact Or.inl (.single hbc)
    · exact ih

/-- What has to come before itself is on a cycle of present declarations, or has a loop that was
left over. -/
theorem cyclic_or_leftover_iff (id : String) :
    TransGen (Order.Before (ofChanges name cs).dependents) id id ↔
      TransGen (Depends cs) id id ∨ Leftover cs id := by
  have hbefore : Order.Before (ofChanges name cs).dependents = fun d a =>
      Depends cs d a ∨ d = a ∧ (present? cs a).isSome ∧ EverLooped cs a := by
    funext d a
    exact propext (mem_dependents.trans (mem_edges_iff name cs d a))
  rw [hbefore]
  constructor
  · intro h
    by_cases hc : TransGen (Depends cs) id id
    · exact Or.inl hc
    · obtain ⟨-, hs, hl⟩ := (transGen_or_loop h).resolve_left hc
      exact Or.inr ⟨hs, hl, hc⟩
  · rintro (h | ⟨hs, hl, -⟩)
    · exact TransGen.mono (fun _ _ hda => Or.inl hda) _ _ h
    · exact .single (Or.inr ⟨rfl, hs, hl⟩)

omit name cs in
/-- A pipeline has no order exactly if its graph has none. -/
theorem ordered_error_iff (p : Pipeline α) (id : String) :
    p.ordered = .error id ↔
      Order.order (p.steps.map (·.id)) p.dependencies p.dependents = .error id := by
  rw [ordered]
  cases Order.order (p.steps.map (·.id)) p.dependencies p.dependents with
  | error e => exact ⟨fun h => by cases h; rfl, fun h => by cases h; rfl⟩
  | ok found => exact ⟨nofun, nofun⟩

/-- **Why a pipeline has no order.** The dependencies in force are those of the present
declarations and the loops of the steps that depended on themselves once. So it fails just
when the declarations are in a cycle or there is a leftover, and the step that is named is
on a cycle unless it is the leftover. What is promised, that it fails just for the cycles of
the declarations and names a step on one, is kept exactly when no leftover is named. -/
theorem ordered_error_spec :
    (∀ d a, (d, a) ∈ (ofChanges name cs).edges ↔
      Depends cs d a ∨ d = a ∧ (present? cs a).isSome ∧ EverLooped cs a) ∧
    ((∃ id, (ofChanges name cs).ordered = .error id) ↔
      (∃ id, TransGen (Depends cs) id id) ∨ ∃ id, Leftover cs id) ∧
    (((∃ id, (ofChanges name cs).ordered = .error id) ↔ ∃ id, TransGen (Depends cs) id id) ↔
      ((∃ id, Leftover cs id) → ∃ id, TransGen (Depends cs) id id)) ∧
    (∀ id, (ofChanges name cs).ordered = .error id →
      (TransGen (Depends cs) id id ↔ ¬Leftover cs id)) ∧
    ((((∃ id, (ofChanges name cs).ordered = .error id) ↔ ∃ id, TransGen (Depends cs) id id) ∧
        ∀ id, (ofChanges name cs).ordered = .error id → TransGen (Depends cs) id id) ↔
      ∀ id, (ofChanges name cs).ordered = .error id → ¬Leftover cs id) := by
  have htracks := tracks_ofChanges name cs
  have hfails : (∃ id, (ofChanges name cs).ordered = .error id) ↔
      (∃ id, TransGen (Depends cs) id id) ∨ ∃ id, Leftover cs id := by
    simp only [ordered_error_iff, ← exists_or, ← cyclic_or_leftover_iff name cs]
    exact Order.exists_order_error_iff htracks.nodup htracks.closed
      (mem_dependents_iff_mem_dependencies _)
  have hnamed : ∀ id, (ofChanges name cs).ordered = .error id →
      (TransGen (Depends cs) id id ↔ ¬Leftover cs id) := by
    intro id hid
    have hor : TransGen (Depends cs) id id ∨ Leftover cs id := by
      rw [← cyclic_or_leftover_iff name cs]
      exact Order.order_error htracks.nodup htracks.closed
        (mem_dependents_iff_mem_dependencies _) ((ordered_error_iff _ id).mp hid)
    exact ⟨fun hcycle hleft => hleft.2.2 hcycle, hor.resolve_right⟩
  refine ⟨mem_edges_iff name cs, hfails, ?_, hnamed, ?_⟩
  · rw [hfails]
    exact ⟨fun h hleft => h.mp (Or.inr hleft), fun h => ⟨fun hor => hor.elim id h, Or.inl⟩⟩
  · refine ⟨fun h id hid => (hnamed id hid).mp (h.2 id hid), fun h => ?_⟩
    have hcycle : ∀ id, (ofChanges name cs).ordered = .error id → TransGen (Depends cs) id id :=
      fun id hid => (hnamed id hid).mpr (h id hid)
    exact ⟨⟨fun ⟨id, hid⟩ => ⟨id, hcycle id hid⟩, fun hc => hfails.mpr (Or.inl hc)⟩, hcycle⟩

omit name cs in
/-- **A leftover**: a step that depended on itself is removed and added anew without any
dependency. The pipeline has no order, and no declaration says why. -/
theorem leftover_error :
    (ofChanges "pipeline" [.add ⟨"a", ["a"], 1⟩, .remove "a", .add ⟨"a", [], 2⟩]).ordered =
        .error "a" ∧
      ∀ id, ¬TransGen (Depends
        [.add ⟨"a", ["a"], 1⟩, .remove "a", .add (⟨"a", [], 2⟩ : PipelineStep Nat)]) id id := by
  refine ⟨by cbv, fun id hcycle => ?_⟩
  -- a cycle ends with a dependency of its step, but the present one has none
  obtain ⟨d, -, -, s, hs, hd⟩ := TransGen.tail'_iff.mp hcycle
  by_cases hid : "a" = id
  · subst hid
    cases hs
    cases hd
  · simp [present?, Change.id, hid] at hs

end Histories

end Lossless.Pipeline
