import Lossless.Recipe.Basic
import Lossless.Recipe.Options

/-!
# Recipe: change a property of a project

The tags that declare a property in a project description get another value. What the
project only inherits stays with its parent. If a tag changed, the property changes in the
model, too.
-/

namespace Lossless

/-- The recipe that changes a property. -/
structure ChangeProperty where
  /-- The property. -/
  key : String
  /-- Its new value. -/
  newValue : String
deriving DecidableEq, Repr

namespace ChangeProperty

/-- Gives a node the new value, if it declares the property and has another. -/
def update (r : ChangeProperty) (c : Cursor Xml.Tree) (t : Xml.Tree) : Update Xml.Tree :=
  match t with
  | .tag n =>
    if n.name = r.key && Maven.isPropertyTag c && n.value? ≠ some r.newValue then
      .new (.tag (n.withValue r.newValue))
    else .same
  | _ => .same

/-- Changes the tags and then the model. -/
def action (r : ChangeProperty) (ω : Type := Unit) :
    Maven.Visitor (Context ω) (Except Failure) where
  inside := {
    node := fun t walk => do
      let w ← walk
      return some (w.andThen (r.update (← VisitM.cursor) (w.of t))) }
  finish _ visited := visited.map fun d => d.withModel (d.model.withProperty r.key r.newValue)

/-- Its options. -/
def options (r : ChangeProperty) : List OptionDescriptor :=
  [{ name := "key"
     displayName := "Key"
     description := "The name of the property key whose value is to be changed."
     sample := some "junit.version"
     value := .text r.key },
   { name := "newValue"
     displayName := "Value"
     description := "Value to apply to the matching property."
     sample := some "4.13"
     value := .text r.newValue }]

/-- What it is and does. -/
def procedure (r : ChangeProperty) (ω : Type := Unit) : Procedure ω where
  name := "maven.ChangePropertyValue"
  displayName := "Change Maven project property value"
  description := "Changes the specified Maven project property value leaving the key intact."
  instanceName := "Change property `" ++ r.key ++ "` to `" ++ r.newValue ++ "`"
  options := r.options
  visitor := Capabilities.visitor { maven := some (r.action ω) }

/-- The recipe. -/
def recipe (r : ChangeProperty) (ω : Type := Unit) : Recipe ω := .mk (r.procedure ω) []

/-- Its options as data. -/
def toDatum (r : ChangeProperty) : Datum :=
  .record [("key", .text r.key), ("newValue", .text r.newValue)]

/-- The recipe with these options. -/
def ofDatum? (d : Datum) : Option ChangeProperty := do
  match ← Options.fields? ["key", "newValue"] d with
  | [some key, some newValue] =>
    return { key := ← Options.text? key, newValue := ← Options.text? newValue }
  | _ => none

end ChangeProperty

end Lossless
