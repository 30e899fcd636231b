import Lossless.Maven.Visitor
import Lossless.Precondition

/-!
# Scripted visitors

A script is a list of rules. A rule is for nodes of one kind, perhaps only for those
that are printed in one way, and says what becomes of such a node once its children
have been visited: it is deleted, replaced, marked, renamed. Two rules act earlier:
`stop` leaves out the children, and `skip` has the node not entered at all. Of the
rules for a node the first one counts; whether a rule is for it is decided on the node
as it was before the visit.

A scripted visitor also keeps a record of what it is told, one line for every call. Where
a record is kept depends on the traversal, so the visitors here are given the step that
appends a line. In a run it is kept among the notes of the visitors and tests
(`Lossless.Notes`), and so is how often the tests with a fixed answer are evaluated.
-/

namespace Lossless

/-! ### Notes -/

/-- What scripted visitors and tests note down in the course of a run. -/
structure Notes where
  /-- What visitors recorded, newest first. -/
  record : List String := []
  /-- How often tests with a fixed answer were evaluated, by key. -/
  evaluations : List (String × Nat) := []

namespace Notes

/-- Adds one to the number under a key in a list of numbers. -/
def increment (key : String) : List (String × Nat) → List (String × Nat)
  | [] => [(key, 1)]
  | (k, n) :: rest => if k = key then (k, n + 1) :: rest else (k, n) :: increment key rest

/-- Records a line. -/
def log (n : Notes) (line : String) : Notes := { n with record := line :: n.record }

/-- Counts an evaluation. -/
def count (n : Notes) (key : String) : Notes :=
  { n with evaluations := increment key n.evaluations }

end Notes

/-- What has been noted in a run. -/
def Context.notes (c : Context Notes) : Notes := c.shared.outside

/-- Changes the notes. -/
def Context.withNotes (f : Notes → Notes) (c : Context Notes) : Context Notes :=
  { c with shared := { c.shared with outside := f c.notes } }

/-- The test that always gives one answer, perhaps after it cancelled the run. Its
evaluations are counted. -/
def Test.fixed (key : String) (answer cancels : Bool) : Test Notes where
  key := key
  evaluate _ := do
    modify (·.withNotes (·.count key))
    if cancels then modify Context.cancel
    return answer

/-! ### Rules -/

/-- What a rule does with a node. -/
inductive RuleAction where
  /-- Deletes the node. -/
  | delete
  /-- Puts another node in its place, if the language is right. -/
  | replaceJava (t : Java.Tree)
  /-- Puts another node in its place, if the language is right. -/
  | replaceXml (t : Xml.Tree)
  /-- Sets the text in front of the node. -/
  | lead (s : Space)
  /-- Leaves the node as it is, without visiting its children. -/
  | stop
  /-- Has the node not entered. -/
  | skip
  /-- Marks the node as found by a search. -/
  | mark (description : String)
  /-- Changes what a name, a literal or a tag is called. -/
  | rename (name : String)
  /-- Changes the text that a tag encloses. -/
  | value (text : String)

/-- A rule for the nodes of a kind. -/
structure Rule where
  /-- The name of the kind. -/
  kind : String
  /-- The printed text that the rule is restricted to. -/
  text : Option String
  /-- What the rule does. -/
  action : RuleAction

/-- Rules, the first of which counts. -/
abbrev Script := List Rule

/-- What a script does with a node of a kind that is printed in this way. -/
def Script.action? (rules : Script) (kind text : String) : Option RuleAction :=
  (rules.find? fun r => r.kind = kind && r.text.all (· = text)).map (·.action)

/-- A word in a record, or a dash if there is none. -/
def orDash (s : Option String) : String := s.getD "-"

/-! ### Java -/

namespace Java

/-- The action for a node. -/
def scripted? (rules : Script) (t : Tree) : Option RuleAction :=
  rules.action? t.kind.name (print t)

/-- What a rule makes of a node whose children have been visited. -/
def applyAction (t : Tree) : RuleAction → Option Tree
  | .delete => none
  | .replaceJava u => some u
  | .lead s => some (t.withLead s)
  | .mark d => some (t.withMarkers (t.markers.add (.searchResult (some d))))
  | .rename s =>
    match t with
    | .identifier n => some (.identifier { n with simpleName := s })
    | .literal n => some (.literal { n with source := s })
    | t => some t
  | .replaceXml _ | .stop | .skip | .value _ => some t

/-- The line for a node that is entered: its kind, how deep it is, its parent, the root,
and the method and class around it. -/
def entryLine (c : Cursor Tree) : String :=
  let kindOf (t : Option Tree) : String := orDash (t.map (·.kind.name))
  let method := c.path.findSome? fun
    | .methodDeclaration n => some n.name.simpleName
    | _ => none
  " ".intercalate
    ["in", kindOf c.value?, toString c.depth, kindOf c.parent?, kindOf c.root?, orDash method,
      kindOf (c.enclosing? fun t => t.kind = .classDeclaration)]

variable {σ : Type} {m : Type → Type} [Monad m] (log : String → StateT σ m Unit) (rules : Script)

/-- Records that a node is about to be entered, or that it is not. -/
def scriptedPreVisit (t : Tree) : StateT σ m Bool := do
  match scripted? rules t with
  | some .skip => log ("skip " ++ t.kind.name); return false
  | _ => log ("pre " ++ t.kind.name); return true

/-- Records a type. -/
def scriptedType (type : JavaType) : StateT σ m Unit := log ("type " ++ type.signature)

/-- Records the entry into a node, and acts on it. -/
def scriptedNode {α : Type} (t : Tree) (stay : α) (walk : VisitM Tree σ m α)
    (act : RuleAction → α → α) : VisitM Tree σ m α := do
  VisitM.onState (log (entryLine (← VisitM.cursor)))
  match scripted? rules t with
  | some .stop => return stay
  | some action => return act action (← walk)
  | none => walk

/-- What a rule makes of a node that came out of the walk. A node that has already what the
rule sets stays as it is. -/
def revised (t : Tree) (action : RuleAction) (w : Update Tree) : Option (Update Tree) :=
  (applyAction (w.of t) action).map fun u => w.andThen (.setting (w.of t) u)

/-- The visitor that a script describes. -/
def scripted : Visitor σ m where
  preVisit := scriptedPreVisit log rules
  visitType := scriptedType log
  node t walk :=
    scriptedNode log rules t (some .same) (some <$> walk) fun action w =>
      w.bind (revised t action)

/-- The visitor that a script describes, except that nodes keep their kinds: what is
not of the right kind is ignored, and so is a deletion. -/
def scriptedIso : IsoVisitor σ m where
  preVisit := scriptedPreVisit log rules
  visitType := scriptedType log
  node t walk :=
    scriptedNode log rules t .same walk fun action w =>
      ((revised t action (w.map Subtype.val)).bind (SameKind.ofUpdate? t)).getD w

/-- The visitor that only records, and leaves out what rules want skipped. -/
def recording : Visitor σ m where
  preVisit := scriptedPreVisit log rules
  visitType := scriptedType log

/-- The same, with nodes that keep their kinds. -/
def recordingIso : IsoVisitor σ m where
  preVisit := scriptedPreVisit log rules
  visitType := scriptedType log

end Java

/-! ### XML -/

namespace Xml

/-- The action for a node. -/
def scripted? (rules : Script) (t : Tree) : Option RuleAction :=
  rules.action? t.kind.name (print t)

/-- What a rule makes of a node whose children have been visited. -/
def applyAction (t : Tree) : RuleAction → Option Tree
  | .delete => none
  | .replaceXml u => some u
  | .lead s => some (t.withLead s)
  | .rename s =>
    match t with
    | .tag n => some (.tag { n with name := s })
    | t => some t
  | .value s =>
    match t with
    | .tag n => some (.tag (n.withValue s))
    | t => some t
  | .replaceJava _ | .stop | .skip | .mark _ => some t

/-- The line for a node that is entered: its kind, how deep it is, its parent, the path
of tags, and whether it is a property or a dependency. -/
def entryLine (c : Cursor Tree) : String :=
  let kindOf (t : Option Tree) : String := orDash (t.map (·.kind.name))
  " ".intercalate
    ["in", kindOf c.value?, toString c.depth, kindOf c.parent?, "/" ++ "/".intercalate (tagPath c),
      toString (Maven.isPropertyTag c), toString (Maven.isDependencyTag c)]

/-- What a rule makes of a node that came out of the walk. A node that has already what the
rule sets stays as it is. -/
def revised (t : Tree) (action : RuleAction) (w : Update Tree) : Option (Update Tree) :=
  (applyAction (w.of t) action).map fun u => w.andThen (.setting (w.of t) u)

/-- The visitor that a script describes. -/
def scripted {σ : Type} {m : Type → Type} [Monad m] (log : String → StateT σ m Unit)
    (rules : Script) : Visitor Tree σ m where
  node t walk := do
    VisitM.onState (log (entryLine (← VisitM.cursor)))
    match scripted? rules t with
    | some .stop => return some .same
    | some action => return revised t action (← walk)
    | none => return some (← walk)

end Xml

end Lossless
