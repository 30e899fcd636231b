/-!
# Sequences that follow steps

A list of steps describes sequences: a step stands for one element of some kind, or for a
run of elements of some kind, which may be empty. Globs are steps along the characters of
a text (`Lossless.Text.globMatches`), paths of patterns are steps along the segments of a
name (`Lossless.Java.PathStep`).

A run can end at many places, and trying them one after the other takes time that grows
exponentially with the number of runs. So `Lossless.Text.Step.follows` goes through the
steps from the last to the first and finds out, for every suffix of the sequence at once,
whether the remaining steps describe it: the *row* of these answers is computed from the
row of the steps after it, in time proportional to its length.

What it computes is said by one equation per kind of step, and for runs by
`Lossless.Text.Step.follows_run_iff`: some run of such elements can be passed over so
that the rest follows the other steps.
-/

namespace Lossless.Text

/-- A step along a sequence. -/
inductive Step (α : Type) where
  /-- One element that satisfies `p`. -/
  | one (p : α → Bool)
  /-- Any number of elements that satisfy `p`. -/
  | run (p : α → Bool)

namespace Step

variable {α : Type}

/-! ### Rows -/

/-- The row for one element and then some steps, given the row of these steps. -/
def oneRow (p : α → Bool) : List α → List Bool → List Bool
  | x :: s, _ :: row => (p x && row.headD false) :: oneRow p s row
  | _, _ => [false]

/-- The row for a run of elements and then some steps, given the row of these steps. -/
def runRow (p : α → Bool) : List α → List Bool → List Bool
  | x :: s, b :: row =>
    let later := runRow p s row
    (b || p x && later.headD false) :: later
  | _, row => row

/-- Which suffixes of a sequence follow some steps, the longest suffix first. -/
def row : List (Step α) → List α → List Bool
  | [], s => s.map (fun _ => false) ++ [true]
  | .one p :: steps, s => oneRow p s (row steps s)
  | .run p :: steps, s => runRow p s (row steps s)

/-- Does a sequence follow some steps? -/
def follows (steps : List (Step α)) (s : List α) : Bool := (row steps s).headD false

/-! ### What rows are -/

theorem exists_row_cons (steps : List (Step α)) (x : α) (s : List α) :
    ∃ b, row steps (x :: s) = b :: row steps s := by
  induction steps with
  | nil => exact ⟨false, rfl⟩
  | cons step steps ih =>
    obtain ⟨b, hb⟩ := ih
    cases step with
    | one p => exact ⟨_, by simp only [row, hb, oneRow]; rfl⟩
    | run p => exact ⟨_, by simp only [row, hb, runRow]; rfl⟩

/-- The row of a sequence starts with the answer for the sequence and goes on with the
row of its tail. -/
theorem row_cons (steps : List (Step α)) (x : α) (s : List α) :
    row steps (x :: s) = follows steps (x :: s) :: row steps s := by
  obtain ⟨b, hb⟩ := exists_row_cons steps x s
  rw [follows, hb]
  rfl

theorem row_nil (steps : List (Step α)) : row steps [] = [follows steps []] := by
  have h : ∃ b, row steps [] = [b] := by
    induction steps with
    | nil => exact ⟨true, rfl⟩
    | cons step steps ih =>
      obtain ⟨b, hb⟩ := ih
      cases step with
      | one p => exact ⟨false, rfl⟩
      | run p => exact ⟨b, by rw [row, hb]; rfl⟩
  obtain ⟨b, hb⟩ := h
  rw [follows, hb]
  rfl

@[simp]
theorem follows_nil (s : List α) : follows [] s = s.isEmpty := by cases s <;> rfl

@[simp]
theorem follows_one_nil (p : α → Bool) (steps : List (Step α)) :
    follows (.one p :: steps) [] = false := rfl

@[simp]
theorem follows_one_cons (p : α → Bool) (steps : List (Step α)) (x : α) (s : List α) :
    follows (.one p :: steps) (x :: s) = (p x && follows steps s) := by
  rw [follows, row, row_cons]
  rfl

@[simp]
theorem follows_run_nil (p : α → Bool) (steps : List (Step α)) :
    follows (.run p :: steps) [] = follows steps [] := by
  rw [follows, row, row_nil]
  rfl

@[simp]
theorem follows_run_cons (p : α → Bool) (steps : List (Step α)) (x : α) (s : List α) :
    follows (.run p :: steps) (x :: s) =
      (follows steps (x :: s) || p x && follows (.run p :: steps) s) := by
  rw [follows, row, row_cons]
  rfl

/-- A run of elements of the right kind can be passed over so that the rest follows the
other steps. -/
theorem follows_run_iff {p : α → Bool} {steps : List (Step α)} {s : List α} :
    follows (.run p :: steps) s = true ↔
      ∃ run rest, s = run ++ rest ∧ (∀ x ∈ run, p x) ∧ follows steps rest := by
  induction s with
  | nil =>
    rw [follows_run_nil]
    constructor
    · exact fun h => ⟨[], [], rfl, nofun, h⟩
    · rintro ⟨run, rest, hs, -, h⟩
      rwa [(List.append_eq_nil_iff.1 hs.symm).2] at h
  | cons x s ih =>
    simp only [follows_run_cons, Bool.or_eq_true, Bool.and_eq_true, ih]
    constructor
    · rintro (h | ⟨hx, run, rest, rfl, hrun, h⟩)
      · exact ⟨[], x :: s, rfl, nofun, h⟩
      · exact ⟨x :: run, rest, rfl, List.forall_mem_cons.2 ⟨hx, hrun⟩, h⟩
    · rintro ⟨run, rest, hs, hrun, h⟩
      cases run with
      | nil => exact .inl (hs ▸ h)
      | cons y run =>
        obtain ⟨rfl, rfl⟩ := List.cons.inj hs
        have hrun := List.forall_mem_cons.1 hrun
        exact .inr ⟨hrun.1, run, rest, rfl, hrun.2, h⟩

end Step

end Lossless.Text
