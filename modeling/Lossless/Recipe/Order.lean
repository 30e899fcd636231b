/-!
# Dependency order

Things of which some have to come before others are put in an order by a depth-first
walk: a thing is finished once everything that depends on it is, and what is finished
later comes earlier in the order. If no order exists the walk still ends, and then
something comes before a thing that it depends on, which is how a cycle is noticed.

Which of the possible orders is found depends on the order in which things are listed, and
so does the thing that is named when there is none.
-/

namespace Lossless.Order

variable {α : Type} [DecidableEq α]

/-- What is still to be done on a walk. -/
inductive Task (α : Type) where
  /-- To enter a thing, unless that was done before. -/
  | enter (a : α)
  /-- To finish a thing, everything after it being finished. -/
  | finish (a : α)

/-- Carries out tasks, given what was not entered yet and what is finished, the latest
first. A thing that depends on itself ends the walk. -/
def walk (dependents : α → List α) (unseen : List α) : List (Task α) → List α → Except α (List α)
  | [], finished => .ok finished
  | .finish a :: tasks, finished => walk dependents unseen tasks (a :: finished)
  | .enter a :: tasks, finished =>
    if _h : a ∈ unseen then
      if a ∈ dependents a then .error a
      else
        walk dependents (unseen.erase a) ((dependents a).map .enter ++ .finish a :: tasks) finished
    else walk dependents unseen tasks finished
termination_by tasks => (unseen.length, tasks.length)
decreasing_by
  · exact .right _ (by simp)
  · refine .left _ _ ?_
    rw [List.length_erase_of_mem _h]
    have := List.length_pos_of_mem _h
    omega
  · exact .right _ (by simp)

/-- The first dependency that does not come before the thing that has it, given what comes
before the listed things. -/
def outOfPlace? (dependencies : α → List α) (before : List α) : List α → Option α
  | [] => none
  | a :: rest =>
    match (dependencies a).find? fun d => d ∉ a :: before with
    | some d => some d
    | none => outOfPlace? dependencies (a :: before) rest

/-- The things in an order in which each comes after its dependencies, or else one that
lies on a cycle. -/
def order (all : List α) (dependencies dependents : α → List α) : Except α (List α) := do
  let found ← walk dependents all (all.map .enter) []
  match outOfPlace? dependencies [] found with
  | some a => .error a
  | none => .ok found

end Lossless.Order
