import Lossless.Answers

/-!
# What readers of answers read

A node is updated by readers (`Lossless.Answers`) that run one after the other, and each
has to take off just the answers for its own places, or all later ones would go astray.
`Lossless.Answers.Reads` says so: these answers are taken off, whatever comes behind them,
this is what becomes of them, and this is noted about whether a place changes. It is closed
under running readers in sequence (`Lossless.Answers.Reads.bind`), so what a whole node reads
follows from what its places do.
-/

namespace Lossless.Answers

variable {τ κ α β : Type}

/-- A reader takes these answers off, and no others, gives this value, and notes whether a place
has changed. -/
def Reads (x : Answers τ κ) (as : List (Option (Update τ))) (k : κ) (changed : Bool) : Prop :=
  ∀ rest before, x ⟨as ++ rest, before⟩ = (k, ⟨rest, before || changed⟩)

namespace Reads

/-- A reader that reads no answer has read the empty list. -/
theorem pure (k : κ) : Reads (Pure.pure k : Answers τ κ) [] k false :=
  fun rest before => by rw [Bool.or_false]; rfl

/-- One reader after the other takes off what belongs to each, and a change is noted if either
notes one. -/
theorem bind {x : Answers τ α} {f : α → Answers τ β} {as bs : List (Option (Update τ))} {a : α}
    {b : β} {c d : Bool} (hx : Reads x as a c) (hf : Reads (f a) bs b d) :
    Reads (x >>= f) (as ++ bs) b (c || d) := by
  intro rest before
  rw [List.append_assoc, ← Bool.or_assoc]
  show (f (x ⟨as ++ (bs ++ rest), before⟩).1) (x ⟨as ++ (bs ++ rest), before⟩).2 = _
  rw [hx]
  exact hf rest (before || c)

/-- A last step that reads nothing. -/
theorem map {x : Answers τ α} {as : List (Option (Update τ))} {a : α} {c : Bool} (f : α → β)
    (hx : Reads x as a c) : Reads (x >>= fun a => Pure.pure (f a)) as (f a) c := by
  rw [← List.append_nil as, ← Bool.or_false c]
  exact hx.bind (.pure (f a))

theorem cast {x : Answers τ κ} {as bs : List (Option (Update τ))} {k l : κ} {c d : Bool}
    (has : as = bs) (hk : k = l) (hc : c = d) (hx : Reads x as k c) : Reads x bs l d :=
  has ▸ hk ▸ hc ▸ hx

/-- What becomes of a node that is read in this way. -/
theorem result {x : Answers τ κ} {as : List (Option (Update τ))} {k : κ} {c : Bool}
    (hx : Reads x as k c) : x.result as = if c then .new k else .same := by
  have hrun : x.run ⟨as, false⟩ = (k, ⟨[], c⟩) := by
    have h := hx [] false
    rwa [List.append_nil, Bool.false_or] at h
  rw [Answers.result, hrun]

end Reads

/-! ### Places -/

/-- Reading the next answer reads just that one. -/
theorem reads_next (a : Option (Update τ)) : Reads next [a] a false :=
  fun rest before => by rw [Bool.or_false]; rfl

/-- A child that must stand reads nothing more: no answer at all counts as the same node. -/
theorem reads_keep (child : α) (o : Option (Update α)) :
    Reads (keep child o : Answers τ α) [] ((o.getD .same).of child) (o.getD .same).isNew := by
  intro rest before
  cases o with
  | none => rw [Option.getD_none, Update.isNew, Bool.or_false]; rfl
  | some w => cases w with
    | same => rw [Option.getD_some, Update.isNew, Bool.or_false]; rfl
    | new c => rw [Option.getD_some, Update.isNew, Bool.or_true]; rfl

/-- A child that may go is left out where there is no answer. -/
theorem reads_leave (child : α) (o : Option (Update α)) :
    Reads (leave child o : Answers τ (Option α)) [] (o.map (·.of child)) (o.all Update.isNew) := by
  intro rest before
  cases o with
  | none => rw [Option.all_none, Bool.or_true]; rfl
  | some w => cases w with
    | same => rw [Option.all_some, Update.isNew, Bool.or_false]; rfl
    | new c => rw [Option.all_some, Update.isNew, Bool.or_true]; rfl

/-- A place that cannot be empty takes one answer off. -/
theorem reads_kept (child : α) (place : Option (Update τ) → Option (Update α))
    (a : Option (Update τ)) :
    Reads (do keep child (place (← next))) [a] (((place a).getD .same).of child)
      ((place a).getD .same).isNew := by
  have h := (reads_next a).bind (f := fun a => keep child (place a)) (reads_keep child (place a))
  rwa [Bool.false_or] at h

/-- A place that can be empty takes one answer off. -/
theorem reads_left (child : α) (place : α → Option (Update τ) → Option (Update α))
    (a : Option (Update τ)) :
    Reads (do leave child (place child (← next))) [a] ((place child a).map (·.of child))
      ((place child a).all Update.isNew) := by
  have h := (reads_next a).bind (f := fun a => leave child (place child a))
    (reads_leave child (place child a))
  rwa [Bool.false_or] at h

/-- **A list reads one answer for each of its elements**, keeps the order of those that
stay, and notes whether any of them changes. -/
theorem reads_list (place : α → Option (Update τ) → Option (Update α)) {cs : List α}
    {as : List (Option (Update τ))} (h : as.length = cs.length) :
    Reads (list place cs) as
      ((cs.zipWith (fun c a => (place c a).map (·.of c)) as).filterMap id)
      ((cs.zipWith place as).any (·.all Update.isNew)) := by
  induction cs generalizing as with
  | nil =>
    rw [List.length_eq_zero_iff.mp h]
    exact .pure []
  | cons child cs ih =>
    obtain ⟨a, as, rfl⟩ := List.exists_cons_of_length_eq_add_one h
    have hrest := (ih (Nat.succ.inj h)).map fun rest =>
      ((place child a).map (·.of child)).toList ++ rest
    have hall := (reads_left child place a).bind
      (f := fun left => do return left.toList ++ (← list place cs)) hrest
    refine Reads.cast rfl ?_ rfl hall
    rw [List.zipWith_cons_cons]
    cases place child a with
    | none => rfl
    | some w => rfl

end Lossless.Answers
