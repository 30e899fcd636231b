import Lossless.Java.Call
import Lossless.Java.MethodPattern

/-!
# Finding calls of a method

A matcher decides which nodes call, construct or declare a method of some pattern. It
goes by the method that is attributed to the node. Where attribution is missing, or knows
nothing of some parameter, the matcher either refuses or compares the name alone, together
with the number of arguments.
-/

namespace Lossless.Java

/-- What to do with nodes whose attribution is missing or incomplete. -/
inductive Fallback where
  /-- Such nodes do not match. -/
  | failClosed
  /-- Their names are compared, and whether the number of arguments fits. -/
  | nameOnly
deriving DecidableEq, Repr

instance : Inhabited Fallback := ⟨.failClosed⟩

/-- How a way to fall back appears in diagnostics. -/
def Fallback.describe : Fallback → String
  | .failClosed => "FailClosed"
  | .nameOnly => "NameOnly"

/-- The words by which ways to fall back are chosen. -/
def Fallback.words : List (String × Fallback) :=
  [("fail_closed", .failClosed), ("name_only", .nameOnly)]

/-- The word for a way to fall back. -/
def Fallback.word : Fallback → String
  | .failClosed => "fail_closed"
  | .nameOnly => "name_only"

/-- A pattern of methods, and how it is applied. -/
structure Matcher where
  /-- The methods to be found. -/
  pattern : MethodPattern
  /-- Whether a method matches that overrides one of the pattern. -/
  overrides : Bool := true
  /-- What to do without attribution. -/
  fallback : Fallback := .failClosed
deriving DecidableEq, Repr

namespace Matcher

/-- Reads the pattern of a matcher that does not fall back. -/
def ofPattern (pattern : String) : Except PatternError Matcher :=
  do return { pattern := ← MethodPattern.parse pattern }

/-- Does a method match? -/
def acceptsMethod (m : Matcher) (type : MethodType) : Bool := m.pattern.accepts m.overrides type

/-- Does a name match that nothing more is known about? -/
def acceptsName (m : Matcher) (name : String) (arguments : Nat) : Bool :=
  m.fallback = .nameOnly && m.pattern.name.accepts name &&
    ParameterPattern.arityFits m.pattern.parameters arguments

/-- Does a name match that has a method attributed to it? The number of arguments counts
where a parameter is unknown. -/
def acceptsAttributed (m : Matcher) (type : MethodType) (name : String) (arguments : Nat) : Bool :=
  if type.parameterTypes.any (·.isUnknown) && m.fallback = .nameOnly then
    m.acceptsName name arguments
  else m.acceptsMethod type

/-- Does a call match? -/
def acceptsCall (m : Matcher) (c : Call) : Bool :=
  match c.methodType with
  | some type => m.acceptsAttributed type c.name c.realArguments.length
  | none => m.acceptsName c.name c.realArguments.length

/-- Does a declaration match? -/
def acceptsDeclaration (m : Matcher) (n : MethodDeclaration Tree) : Bool :=
  match n.methodType with
  | some type => m.acceptsAttributed type n.name.simpleName type.arity
  | none => m.acceptsName n.name.simpleName n.realParameters.length

/-- Does a node match? Only calls and declarations do. -/
def accepts (m : Matcher) (t : Tree) : Bool :=
  match t with
  | .methodDeclaration n => m.acceptsDeclaration n
  | t => t.call?.any m.acceptsCall

end Matcher

end Lossless.Java
