import Mathlib.Data.List.Basic
import Mathlib.Data.List.Induction
import Mathlib.Logic.Function.Basic
import Mathlib.Tactic.Tauto
import Lossless.Recipe.Pipeline

/-!
# What a pipeline remembers of its history

A pipeline comes about by changes (`Lossless.Pipeline.Change`): steps are added, replaced
and removed, in any order, and a step may name others that are not there yet. What its
steps and their dependencies *should* be is read off the changes themselves: the step
present under an identifier is the one that the last change about it added
(`Lossless.Pipeline.present?`), and it depends on what this declaration names.

What the pipeline keeps instead is two lists of pairs, the dependencies in force and those
pending, patched at every change. `Lossless.Pipeline.Tracks` says how the two accounts
agree: a pair stands in one of the two lists exactly when it is *wanted*, in the first if
the dependency is present and in the second if it is not. The one way to be wanted that no
present declaration accounts for is to have depended on oneself at some time
(`Lossless.Pipeline.EverLooped`): the removal of a step that depends on itself makes it
wait for itself, and no later change takes that back.
-/

namespace Lossless

namespace Pipeline

variable {α : Type}

/-! ### Changes -/

/-- A change of the steps of a pipeline. -/
inductive Change (α : Type) where
  /-- Adds a step, in place of any step of the same name. -/
  | add (s : PipelineStep α)
  /-- Removes the step of a name, if there is one. -/
  | remove (id : String)

namespace Change

/-- The name of the step that a change is about. -/
def id : Change α → String
  | .add s => s.id
  | .remove id => id

/-- What a change leaves under that name. -/
def step? : Change α → Option (PipelineStep α)
  | .add s => some s
  | .remove _ => none

/-- Makes a change. -/
def apply (p : Pipeline α) : Change α → Pipeline α
  | .add s => p.add s
  | .remove id => p.remove id

end Change

/-- The pipeline after some changes, the oldest first. -/
def ofChanges (name : String) (cs : List (Change α)) : Pipeline α :=
  cs.foldl Change.apply { name }

/-- The step that is present under a name: what the last change about it left. -/
def present? (cs : List (Change α)) (id : String) : Option (PipelineStep α) :=
  (cs.reverse.find? (·.id = id)).bind Change.step?

/-- Was a step added at some time that has this name and depends on itself? -/
def EverLooped (cs : List (Change α)) (id : String) : Prop :=
  ∃ s, .add s ∈ cs ∧ s.id = id ∧ id ∈ s.dependencies

/-- The last change decides about its own step, and about no other. -/
theorem present?_concat (cs : List (Change α)) (c : Change α) :
    present? (cs ++ [c]) = Function.update (present? cs) c.id c.step? := by
  funext id
  rw [present?, List.reverse_append, List.reverse_singleton, List.singleton_append,
    List.find?_cons]
  by_cases h : c.id = id
  · subst h
    simp
  · rw [Function.update_of_ne (Ne.symm h)]
    simp [h, present?]

/-- A step has depended on itself if it did before, or does so by the last change. -/
theorem everLooped_concat (cs : List (Change α)) (c : Change α) (id : String) :
    EverLooped (cs ++ [c]) id ↔
      EverLooped cs id ∨ ∃ s, c.step? = some s ∧ s.id = id ∧ id ∈ s.dependencies := by
  simp only [EverLooped, List.mem_append, List.mem_singleton, or_and_right, exists_or]
  refine or_congr Iff.rfl (exists_congr fun s => and_congr_left fun _ => ?_)
  cases c <;> simp [Change.step?, eq_comm]

/-! ### The two accounts -/

section Tracks

variable (present : String → Option (PipelineStep α)) (looped : String → Prop)

/-- Should one step come before another? Its declaration says so, or it is the same step
and was made to wait for itself. -/
def Wanted (d a : String) : Prop :=
  (∃ s, present a = some s ∧ d ∈ s.dependencies) ∨ d = a ∧ looped a

/-- A pipeline keeps what its history says. -/
structure Tracks (p : Pipeline α) : Prop where
  named : ∀ {id s}, present id = some s → s.id = id
  loops : ∀ {id s}, present id = some s → id ∈ s.dependencies → looped id
  steps : ∀ s, s ∈ p.steps ↔ present s.id = some s
  nodup : (p.steps.map (·.id)).Nodup
  edges : ∀ d a, (d, a) ∈ p.edges ↔ (present d).isSome ∧ Wanted present looped d a
  pending : ∀ d a, (d, a) ∈ p.pending ↔ present d = none ∧ Wanted present looped d a

end Tracks

section Wanted

variable {present : String → Option (PipelineStep α)} {looped : String → Prop} {d a id : String}

/-- The edges to other steps are wanted as before. -/
theorem wanted_of_ne (h : a ≠ id) (o : Option (PipelineStep α)) :
    Wanted (Function.update present id o) looped d a ↔ Wanted present looped d a := by
  rw [Wanted, Function.update_of_ne h, Wanted]

/-- To a step that is taken out no edge is wanted but a loop that it once had. -/
theorem wanted_none :
    Wanted (Function.update present id none) looped d id ↔ d = id ∧ looped id := by
  simp [Wanted]

/-- To a step that is put in the edges are wanted that it declares, and a loop that it once had. -/
theorem wanted_some (s : PipelineStep α) :
    Wanted (Function.update present id (some s)) looped d id ↔
      d ∈ s.dependencies ∨ d = id ∧ looped id := by
  simp [Wanted]

/-- What holds of all steps that are present and of the one that takes a place. -/
theorem forall_present_update {P : String → PipelineStep α → Prop}
    {o : Option (PipelineStep α)} (h : ∀ i s, present i = some s → P i s)
    (ho : ∀ s, o = some s → P id s) :
    ∀ i s, Function.update present id o i = some s → P i s := by
  intro i s hs
  rcases eq_or_ne i id with rfl | hi
  · rw [Function.update_self] at hs
    exact ho s hs
  · rw [Function.update_of_ne hi] at hs
    exact h i s hs

end Wanted

/-! ### Taking a step out -/

/-- What is left after a step was taken out are the others, in some order. -/
theorem takeOut_perm (id : String) {steps : List (PipelineStep α)}
    (h : (steps.map (·.id)).Nodup) : (takeOut id steps).Perm (steps.filter (·.id ≠ id)) := by
  induction steps with
  | nil => exact .refl _
  | cons s rest ih =>
    obtain ⟨hs, hrest⟩ := List.nodup_cons.mp h
    rw [takeOut]
    split
    next heq =>
      -- no other step has the name, so what is left is all of the rest, in another order
      have hkeep : (s :: rest).filter (·.id ≠ id) = rest := by
        rw [List.filter_cons_of_neg (by simpa using heq), List.filter_eq_self]
        intro t ht
        have hne : t.id ≠ id := fun hid =>
          hs (List.mem_map.mpr ⟨t, ht, hid.trans heq.symm⟩)
        simpa using hne
      rw [hkeep]
      split
      next last hlast =>
        have hsplit := List.dropLast_append_getLast? last hlast
        exact (List.perm_append_singleton last rest.dropLast).symm.trans (.of_eq hsplit)
      next hnone => rw [List.getLast?_eq_none_iff.mp hnone]
    next hne =>
      rw [List.filter_cons_of_pos (by simpa using hne)]
      exact (ih hrest).cons s

/-- What pairs have at one end, if the other is given. -/
theorem mem_filterMap_ite {es : List (String × String)} {f g : String × String → String}
    {k x : String} :
    x ∈ es.filterMap (fun e => if f e = k then some (g e) else none) ↔
      ∃ e ∈ es, f e = k ∧ g e = x := by
  simp only [List.mem_filterMap, Option.ite_none_right_eq_some, Option.some.injEq]

theorem mem_dependents {p : Pipeline α} {d a : String} :
    a ∈ p.dependents d ↔ (d, a) ∈ p.edges := by
  rw [dependents, mem_filterMap_ite]
  constructor
  · rintro ⟨e, he, rfl, rfl⟩
    exact he
  · exact fun he => ⟨(d, a), he, rfl, rfl⟩

theorem mem_dependencies {p : Pipeline α} {d a : String} :
    d ∈ p.dependencies a ↔ (d, a) ∈ p.edges := by
  rw [dependencies, mem_filterMap_ite]
  constructor
  · rintro ⟨e, he, rfl, rfl⟩
    exact he
  · exact fun he => ⟨(d, a), he, rfl, rfl⟩

/-- What depended on a step that is removed waits for it. -/
theorem mem_map_dependents {p : Pipeline α} {id d a : String} :
    (d, a) ∈ (p.dependents id).reverse.map (fun e => (id, e)) ↔ d = id ∧ (id, a) ∈ p.edges := by
  simp only [List.mem_map, List.mem_reverse, mem_dependents, Prod.mk.injEq]
  constructor
  · rintro ⟨e, he, rfl, rfl⟩
    exact ⟨rfl, he⟩
  · rintro ⟨rfl, he⟩
    exact ⟨a, he, rfl, rfl⟩

namespace Tracks

variable {present : String → Option (PipelineStep α)} {looped : String → Prop} {p : Pipeline α}

/-- A pipeline contains the steps that are present. -/
theorem contains_iff (h : Tracks present looped p) (id : String) :
    p.contains id = true ↔ (present id).isSome = true := by
  simp only [contains, List.any_eq_true, decide_eq_true_eq]
  constructor
  · rintro ⟨s, hs, rfl⟩
    rw [(h.steps s).mp hs]
    rfl
  · intro hid
    obtain ⟨s, hs⟩ := Option.isSome_iff_exists.mp hid
    exact ⟨s, (h.steps s).mpr (by rwa [h.named hs]), h.named hs⟩

theorem wanted_self (h : Tracks present looped p) (id : String) :
    Wanted present looped id id ↔ looped id := by
  constructor
  · rintro (⟨s, hs, hmem⟩ | ⟨-, hl⟩)
    · exact h.loops hs hmem
    · exact hl
  · exact fun hl => Or.inr ⟨rfl, hl⟩

/-- What waits for others is there. -/
theorem present_of_wanted {d a : String} (hw : Wanted present looped d a) (hne : d ≠ a) :
    (present a).isSome := by
  rcases hw with ⟨s, hs, -⟩ | ⟨rfl, -⟩
  · rw [hs]
    rfl
  · exact absurd rfl hne

/-- **What a removal does** to a pipeline with a step of that name: nobody is present under it
any more, and who depended on it waits. -/
theorem remove_of_present (h : Tracks present looped p) {id : String} (hid : (present id).isSome) :
    Tracks (Function.update present id none) looped (p.remove id) := by
  rw [Pipeline.remove, if_pos ((h.contains_iff id).mpr hid)]
  have hperm := takeOut_perm id h.nodup
  have hnamed : ∀ i s, Function.update present id none i = some s → s.id = i :=
    forall_present_update (fun _ _ => h.named) nofun
  have hloops : ∀ i s, Function.update present id none i = some s → i ∈ s.dependencies →
      looped i := forall_present_update (fun _ _ => h.loops) nofun
  refine ⟨fun {i s} => hnamed i s, fun {i s} => hloops i s, fun s => ?_, ?_, fun d a => ?_,
    fun d a => ?_⟩
  · rw [hperm.mem_iff, List.mem_filter, h.steps s]
    by_cases hs : s.id = id <;> simp [hs]
  · exact (hperm.map _).nodup_iff.mpr (h.nodup.sublist (List.filter_sublist.map _))
  · rw [List.mem_filter, h.edges d a]
    rcases eq_or_ne a id with rfl | ha
    · rw [wanted_none]
      by_cases hd : d = a <;> simp [hd]
    · rw [wanted_of_ne ha none]
      by_cases hd : d = id
      · simp [hd]
      · simp [hd, ha]
  · rw [List.mem_append, List.mem_filter, h.pending d a, mem_map_dependents, h.edges id a]
    rcases eq_or_ne d id with rfl | hd
    · -- pending are just those that depended on the step, itself included
      have hsome : present d ≠ none := Option.isSome_iff_ne_none.mp hid
      rcases eq_or_ne a d with rfl | ha
      · rw [wanted_none, h.wanted_self]
        simp [hsome, hid]
      · rw [wanted_of_ne ha none]
        simp [hsome, hid]
    · rcases eq_or_ne a id with rfl | ha
      · rw [wanted_none]
        simp [hd]
      · rw [wanted_of_ne ha none]
        simp [hd, ha]

/-- To take a step out keeps track. -/
theorem remove (h : Tracks present looped p) (id : String) :
    Tracks (Function.update present id none) looped (p.remove id) := by
  by_cases hid : (present id).isSome
  · exact h.remove_of_present hid
  · have hnone : present id = none := by simpa using hid
    have hsame : Function.update present id none = present := by
      rw [← hnone, Function.update_eq_self]
    rw [hsame, Pipeline.remove, if_neg (mt (h.contains_iff id).mp hid)]
    exact h

end Tracks

/-! ### Adding a step -/

section Declare

variable (q : Pipeline α) (id : String) (ds : List String)

/-- What is declared is connected if it is there, and is pending otherwise. -/
theorem foldl_connect :
    ds.foldl (fun q d => connect q d id) q =
      { q with
        edges := q.edges ++ (ds.filter q.contains).map fun d => (d, id)
        pending := q.pending ++ (ds.filter (!q.contains ·)).map fun d => (d, id) } := by
  induction ds generalizing q with
  | nil => simp
  | cons d ds ih =>
    rw [List.foldl_cons, ih, connect]
    by_cases hd : q.contains d = true
    · rw [if_pos hd]
      -- which steps there are does not change on the way
      have hsame : contains { q with edges := q.edges ++ [(d, id)] } = q.contains := rfl
      simp [hsame, hd]
    · rw [if_neg hd]
      have hsame : contains { q with pending := q.pending ++ [(d, id)] } = q.contains := rfl
      simp [hsame, hd]

omit q in
theorem mem_map_pair {d a : String} : (d, a) ∈ ds.map (fun d => (d, id)) ↔ a = id ∧ d ∈ ds := by
  simp only [List.mem_map, Prod.mk.injEq]
  exact ⟨fun ⟨e, he, hd, ha⟩ => ⟨ha.symm, hd ▸ he⟩, fun ⟨ha, hd⟩ => ⟨d, hd, rfl, ha.symm⟩⟩

/-- What comes into force when a step that is there now declares what it depends on. -/
theorem mem_edges_settle (d a : String) :
    (d, a) ∈ ((ds.foldl (fun q d => connect q d id) q).settle id).edges ↔
      (d, a) ∈ q.edges ∨ (a = id ∧ d ∈ ds ∧ q.contains d = true) ∨
        (d = id ∧ q.contains a = true ∧
          ((d, a) ∈ q.pending ∨ a = id ∧ d ∈ ds ∧ q.contains d = false)) := by
  have hsame : ∀ es ps, contains { q with edges := es, pending := ps } = q.contains :=
    fun _ _ => rfl
  rw [foldl_connect, settle, hsame]
  simp only [List.mem_append, List.mem_filter, mem_map_pair, Bool.and_eq_true, decide_eq_true_eq,
    Bool.not_eq_true']
  tauto

/-- What is pending then. -/
theorem mem_pending_settle (d a : String) :
    (d, a) ∈ ((ds.foldl (fun q d => connect q d id) q).settle id).pending ↔
      d ≠ id ∧ ((d, a) ∈ q.pending ∨ a = id ∧ d ∈ ds ∧ q.contains d = false) := by
  rw [foldl_connect, settle]
  simp only [List.mem_append, List.mem_filter, mem_map_pair, decide_eq_true_eq, Bool.not_eq_true']
  tauto

theorem steps_settle : ((ds.foldl (fun q d => connect q d id) q).settle id).steps = q.steps := by
  rw [foldl_connect, settle]

end Declare

namespace Tracks

variable {present : String → Option (PipelineStep α)} {looped : String → Prop} {p : Pipeline α}

/-- What a step that is added wants, and what was wanted before. -/
theorem wanted_add (s : PipelineStep α) (d a : String) :
    Wanted (Function.update present s.id (some s))
        (fun id => looped id ∨ s.id = id ∧ id ∈ s.dependencies) d a ↔
      if a = s.id then d ∈ s.dependencies ∨ d = a ∧ looped a else Wanted present looped d a := by
  split
  next ha =>
    subst ha
    rw [wanted_some]
    constructor
    · rintro (hd | ⟨rfl, hl | ⟨-, hd⟩⟩)
      · exact Or.inl hd
      · exact Or.inr ⟨rfl, hl⟩
      · exact Or.inl hd
    · rintro (hd | ⟨rfl, hl⟩)
      · exact Or.inl hd
      · exact Or.inr ⟨rfl, Or.inl hl⟩
  next ha =>
    rw [wanted_of_ne ha, Wanted, Wanted]
    simp [Ne.symm ha]

theorem contains_append (h : Tracks present looped p) (s : PipelineStep α) (id : String) :
    contains { p with steps := p.steps ++ [s] } id = true ↔
      id = s.id ∨ (present id).isSome = true := by
  rw [← h.contains_iff id, contains, List.any_append, Bool.or_eq_true, or_comm]
  exact or_congr (by simp [eq_comm]) Iff.rfl

/-- **What an addition does**, to a pipeline without a step of that name: the step is present,
and it waits for what it declares. -/
theorem add_of_absent (h : Tracks present looped p) (s : PipelineStep α)
    (habsent : present s.id = none) :
    Tracks (Function.update present s.id (some s))
      (fun id => looped id ∨ s.id = id ∧ id ∈ s.dependencies)
      ((s.dependencies.foldl (fun q d => connect q d s.id)
        { p with steps := p.steps ++ [s] }).settle s.id) := by
  have hfresh : ∀ d, Wanted present looped d s.id ↔ d = s.id ∧ looped s.id := fun d => by
    simp [Wanted, habsent]
  have hnamed : ∀ i t, Function.update present s.id (some s) i = some t → t.id = i :=
    forall_present_update (fun _ _ => h.named) (by rintro _ ⟨⟩; rfl)
  have hloops : ∀ i t, Function.update present s.id (some s) i = some t → i ∈ t.dependencies →
      looped i ∨ s.id = i ∧ i ∈ s.dependencies :=
    forall_present_update (fun _ _ ht hmem => Or.inl (h.loops ht hmem))
      (by rintro _ ⟨⟩ hmem; exact Or.inr ⟨rfl, hmem⟩)
  refine ⟨fun {i t} => hnamed i t, fun {i t} => hloops i t, fun t => ?_, ?_, fun d a => ?_,
    fun d a => ?_⟩
  · rw [steps_settle, List.mem_append, List.mem_singleton, h.steps t]
    by_cases ht : t.id = s.id
    · rw [ht, Function.update_self, habsent]
      simp [eq_comm]
    · rw [Function.update_of_ne ht]
      exact or_iff_left fun heq => ht (congrArg _ heq)
  · rw [steps_settle, List.map_append, List.map_singleton]
    refine List.nodup_append.mpr ⟨h.nodup, List.pairwise_singleton _ _, fun i hi j hj heq => ?_⟩
    obtain ⟨t, ht, rfl⟩ := List.mem_map.mp hi
    have hnone := (h.steps t).mp ht
    rw [heq, List.mem_singleton.mp hj, habsent] at hnone
    cases hnone
  · rw [mem_edges_settle, wanted_add, h.contains_append, h.contains_append, h.edges d a,
      h.pending d a, Function.update_apply]
    rcases eq_or_ne a s.id with rfl | ha
    · -- what the step waits for is what it declares, and itself if it ever did
      rw [hfresh]
      rcases eq_or_ne d s.id with rfl | hd
      · simp [habsent]
        tauto
      · simp [hd]
        tauto
    · rcases eq_or_ne d s.id with rfl | hd
      · -- the step was waited for, and those who did are there
        have hthere : Wanted present looped s.id a → (present a).isSome = true :=
          fun hw => present_of_wanted hw ha.symm
        simp [ha, habsent]
        tauto
      · simp [ha, hd]
  · rw [mem_pending_settle, wanted_add, h.pending d a, Function.update_apply]
    rcases eq_or_ne d s.id with rfl | hd
    · simp
    · have hoff : contains { p with steps := p.steps ++ [s] } d = false ↔ present d = none := by
        rw [← Bool.not_eq_true, h.contains_append]
        simp [hd]
      rcases eq_or_ne a s.id with rfl | ha
      · simp [hfresh, hoff, hd]
        tauto
      · simp [ha, hd]

/-- **What an addition does**: the step takes the place of any step of its name. -/
theorem add (h : Tracks present looped p) (s : PipelineStep α) :
    Tracks (Function.update present s.id (some s))
      (fun id => looped id ∨ s.id = id ∧ id ∈ s.dependencies) (p.add s) := by
  -- a step that is replaced is removed first
  have hadd := (h.remove s.id).add_of_absent s (Function.update_self ..)
  rwa [Function.update_idem] at hadd

/-- **A change keeps track.** -/
theorem apply (h : Tracks present looped p) (c : Change α) :
    Tracks (Function.update present c.id c.step?)
      (fun id => looped id ∨ ∃ s, c.step? = some s ∧ s.id = id ∧ id ∈ s.dependencies)
      (c.apply p) := by
  cases c with
  | add s =>
    have hlooped : (fun id => looped id ∨ ∃ t, some s = some t ∧ t.id = id ∧ id ∈ t.dependencies) =
        fun id => looped id ∨ s.id = id ∧ id ∈ s.dependencies := by
      funext id
      simp
    exact hlooped ▸ h.add s
  | remove id =>
    have hlooped : (fun i => looped i ∨
        ∃ t : PipelineStep α, none = some t ∧ t.id = i ∧ i ∈ t.dependencies) = looped := by
      funext i
      simp
    exact hlooped.symm ▸ h.remove id

end Tracks

/-- **A pipeline tracks its history.** -/
theorem tracks_ofChanges (name : String) (cs : List (Change α)) :
    Tracks (present? cs) (EverLooped cs) (ofChanges name cs) := by
  induction cs using List.reverseRecOn with
  | nil =>
    refine ⟨nofun, nofun, fun s => ?_, .nil, fun d a => ?_, fun d a => ?_⟩
    · simp [ofChanges, present?]
    · simp [ofChanges, present?]
    · simp [ofChanges, present?, Wanted, EverLooped]
  | append_singleton cs c ih =>
    have hlooped : EverLooped (cs ++ [c]) = fun id =>
        EverLooped cs id ∨ ∃ s, c.step? = some s ∧ s.id = id ∧ id ∈ s.dependencies :=
      funext fun id => propext (everLooped_concat cs c id)
    rw [present?_concat, hlooped, ofChanges, List.foldl_append]
    exact ih.apply c

end Pipeline

end Lossless
