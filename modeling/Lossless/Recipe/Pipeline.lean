import Lossless.Recipe.Basic
import Lossless.Recipe.Order

/-!
# Pipelines of recipes

A pipeline runs recipes in an order in which each comes after those that it depends on.
Its steps are added one by one and may be removed or replaced, and a step may depend on
one that is added later: until then the dependency is pending and has no effect.

Dependencies are kept as pairs of identifiers, the step that has to come first and the one
that depends on it, in the order in which they came about. When a step is removed, what
depends on it waits for it again, and what it depended on is forgotten. If it depended on
itself, it waits for itself.
-/

namespace Lossless

/-- A step of a pipeline. -/
structure PipelineStep (α : Type) where
  /-- What the step is called. -/
  id : String
  /-- The steps that it depends on. -/
  dependencies : List String
  /-- What it does. -/
  recipe : α

/-- Steps with their dependencies. -/
structure Pipeline (α : Type) where
  /-- The name of the pipeline. -/
  name : String
  /-- The steps, no two of which have one identifier. -/
  steps : List (PipelineStep α) := []
  /-- The dependencies between steps that are there: first the step depended on. -/
  edges : List (String × String) := []
  /-- The dependencies on steps that are not there, in the same form. -/
  pending : List (String × String) := []

namespace Pipeline

variable {α : Type}

/-- Is there a step of this name? -/
def contains (p : Pipeline α) (id : String) : Bool := p.steps.any (·.id = id)

/-- The steps that depend on a step. -/
def dependents (p : Pipeline α) (id : String) : List String :=
  p.edges.filterMap fun e => if e.1 = id then some e.2 else none

/-- The steps that a step depends on. -/
def dependencies (p : Pipeline α) (id : String) : List String :=
  p.edges.filterMap fun e => if e.2 = id then some e.1 else none

/-- Takes a step out; the last step fills the gap. -/
def takeOut (id : String) : List (PipelineStep α) → List (PipelineStep α)
  | [] => []
  | s :: rest =>
    if s.id = id then
      match rest.getLast? with
      | some last => last :: rest.dropLast
      | none => []
    else s :: takeOut id rest

/-- Removes a step. What depends on it waits for it again. -/
def remove (p : Pipeline α) (id : String) : Pipeline α :=
  if p.contains id then
    { p with
      steps := takeOut id p.steps
      edges := p.edges.filter fun e => e.1 ≠ id && e.2 ≠ id
      pending := p.pending.filter (·.2 ≠ id) ++ (p.dependents id).reverse.map fun d => (id, d) }
  else p

/-- Makes one step depend on another, or wait for it. -/
def connect (p : Pipeline α) (dependency dependent : String) : Pipeline α :=
  if p.contains dependency then { p with edges := p.edges ++ [(dependency, dependent)] }
  else { p with pending := p.pending ++ [(dependency, dependent)] }

/-- Lets go on what waits for a step that is there now. -/
def settle (p : Pipeline α) (id : String) : Pipeline α :=
  { p with
    edges := p.edges ++ p.pending.filter fun e => e.1 = id && p.contains e.2
    pending := p.pending.filter (·.1 ≠ id) }

/-- Adds a step, in place of any step of the same name. -/
def add (p : Pipeline α) (s : PipelineStep α) : Pipeline α :=
  let p := p.remove s.id
  let p := { p with steps := p.steps ++ [s] }
  (s.dependencies.foldl (fun p d => p.connect d s.id) p).settle s.id

/-- What the steps do, in an order in which each comes after its dependencies, or else the
name of a step on a cycle. -/
def ordered (p : Pipeline α) : Except String (List α) := do
  let ids ← Order.order (p.steps.map (·.id)) p.dependencies p.dependents
  return ids.filterMap fun id => (p.steps.find? (·.id = id)).map (·.recipe)

end Pipeline

/-- The text for steps that depend on each other. -/
def cycleMessage (id : String) : String := "Recipe `" ++ id ++ "` is part of a dependency cycle"

/-- A pipeline as a recipe: it does nothing by itself and lists its steps in order. Steps
without an order are a fault, and none of them is listed. -/
def Pipeline.recipe {ω : Type} (p : Pipeline (Recipe ω)) : Recipe ω :=
  let name := "core.RecipePipeline"
  .mk
    { name
      displayName := p.name
      description := "Runs " ++ toString p.steps.length ++ " recipe(s) in dependency order."
      faults := match p.ordered with
        | .ok _ => []
        | .error id => [⟨name, "recipeList", cycleMessage id⟩] }
    (p.ordered.toOption.getD [])

end Lossless
