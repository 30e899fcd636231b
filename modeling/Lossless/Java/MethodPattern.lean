import Lossless.Java.TypePattern
import Lossless.Text.Blank
import Lossless.Validated

/-!
# Patterns of methods

A pattern of methods such as `com.acme.Foo bar(int, String)` names a type, a method and
the types of its parameters, in this order. The parts are patterns themselves
(`Lossless.Java.TypePattern`, `Lossless.Java.NamePattern`,
`Lossless.Java.ParameterPattern`), and blanks between them make no difference.

`Lossless.Java.MethodPattern.check` reads a pattern and reports every part that is wrong;
`Lossless.Java.MethodPattern.parse` stops at the first.
-/

namespace Lossless.Java

/-! ### Names of methods -/

/-- A pattern of method names. -/
inductive NamePattern where
  /-- The name of all constructors. -/
  | constructors
  /-- The names of a form, in which a star stands for a part of the name. -/
  | form (glob : List Char)
deriving DecidableEq, Repr

namespace NamePattern

/-- Is this a character of which names of methods are made? -/
def isNameChar (c : Char) : Bool := Text.isWordChar c || c = '$'

/-- Reads a pattern. -/
def parse? (text : List Char) : Option NamePattern :=
  if text = MethodType.constructorName.toList then some .constructors
  else if text ≠ [] ∧ text.all (fun c => isNameChar c || c = '*') then some (.form text)
  else none

/-- Does a name match a pattern? -/
def accepts (p : NamePattern) (name : String) : Bool :=
  match p with
  | .constructors => name = MethodType.constructorName
  | .form glob => Text.globMatches isNameChar glob name.toList

end NamePattern

/-! ### Parameters -/

/-- A pattern of parameters. -/
inductive ParameterPattern where
  /-- One parameter of any type, `*`. -/
  | any
  /-- Any number of parameters, `..`. -/
  | anyTrailing
  /-- Any number of parameters, all of these types. -/
  | trailing (type : TypePattern)
  /-- A list of arguments of these types, `T...`, which is declared as an array. -/
  | varargs (element : TypePattern)
  /-- One parameter of these types. -/
  | exact (type : TypePattern)
deriving DecidableEq, Repr

namespace ParameterPattern

/-- Reads a pattern. -/
def parse? (text : List Char) : Option ParameterPattern :=
  if text = ['*'] then some .any
  else if text = ['.', '.'] then some .anyTrailing
  else
    match text.reverse with
    | '.' :: '.' :: '.' :: element => (TypePattern.parse? element.reverse).map .varargs
    | '.' :: '.' :: type => (TypePattern.parse? type.reverse).map .trailing
    | _ => (TypePattern.parse? text).map .exact

/-- Does a pattern stand for any number of parameters? -/
def isTrailing : ParameterPattern → Bool
  | .anyTrailing | .trailing _ => true
  | .any | .varargs _ | .exact _ => false

/-- Can a call fill a parameter, or what a pattern stands for, with no argument or with
several? -/
def isStretchable : ParameterPattern → Bool
  | .anyTrailing | .trailing _ | .varargs _ => true
  | .any | .exact _ => false

/-- Do parameters of these signatures match? -/
def acceptAll : List ParameterPattern → List (List Char) → Bool
  | [], signatures => signatures.isEmpty
  | .anyTrailing :: _, _ => true
  | .trailing type :: _, signatures => signatures.all type.accepts
  | .any :: ps, _ :: signatures => acceptAll ps signatures
  | .exact type :: ps, s :: signatures => type.accepts s && acceptAll ps signatures
  | .varargs element :: ps, s :: signatures =>
    ((TypePattern.dropDimensions? 1 s.reverse).any fun e => element.accepts e.reverse) &&
      acceptAll ps signatures
  | .any :: _, [] | .exact _ :: _, [] | .varargs _ :: _, [] => false

/-- Can a call with so many arguments have parameters that match? -/
def arityFits (ps : List ParameterPattern) (count : Nat) : Bool :=
  if ps.getLast?.any isStretchable then ps.length ≤ count + 1 else count = ps.length

end ParameterPattern

/-! ### Methods -/

/-- What can be wrong with a pattern. -/
inductive PatternError where
  /-- There is nothing but blanks. -/
  | empty
  /-- A part is missing. -/
  | malformed (pattern : String)
  /-- The part for the type is no pattern of types. -/
  | invalidType (text : String)
  /-- The part for the name is no pattern of names. -/
  | invalidName (text : String)
  /-- A parameter is no pattern of parameters. -/
  | invalidParameter (text : String)
  /-- There are parameters after one that stands for any number of them. -/
  | misplacedWildcard (text : String)
deriving DecidableEq, Repr

/-- The text of an error. -/
def PatternError.message : PatternError → String
  | .empty => "Method pattern is empty"
  | .malformed s => "Method pattern `" ++ s ++
    "` needs a type, a name and a parenthesized parameter list"
  | .invalidType s => "Invalid type pattern `" ++ s ++ "`"
  | .invalidName s => "Invalid method name pattern `" ++ s ++ "`"
  | .invalidParameter s => "Invalid parameter pattern `" ++ s ++ "`"
  | .misplacedWildcard s => "Trailing wildcard `" ++ s ++ "` must be the last parameter"

/-- The parts of a pattern as they are written. -/
structure PatternParts where
  /-- The part for the type. -/
  type : List Char
  /-- The part for the name. -/
  name : List Char
  /-- The parts for the parameters. -/
  parameters : List (List Char)
deriving DecidableEq, Repr

namespace PatternParts

/-- The parameters in a list of parameters. -/
def splitParameters (text : List Char) : List (List Char) :=
  if text.all Text.isBlank then [] else (Text.splitAt ',' text).map Text.trim

/-- Takes a pattern apart, if it has all parts. -/
def split? (text : List Char) : Option PatternParts :=
  match text.dropWhile (!Text.isBlank ·) with
  | [] => none
  | _ :: rest =>
    let rest := Text.trimStart rest
    match (rest.dropWhile (· ≠ '(')).tail.reverse with
    | ')' :: list => some {
        type := text.takeWhile (!Text.isBlank ·)
        name := Text.trimEnd (rest.takeWhile (· ≠ '('))
        parameters := splitParameters list.reverse }
    | _ => none

end PatternParts

/-- A pattern of methods. -/
structure MethodPattern where
  /-- The pattern as it is written. -/
  text : String
  /-- Its parts as they are written. -/
  parts : PatternParts
  /-- What the type has to match. -/
  type : TypePattern
  /-- What the name has to match. -/
  name : NamePattern
  /-- What the parameters have to match. -/
  parameters : List ParameterPattern
deriving DecidableEq, Repr

namespace MethodPattern

/-- Checks a parameter. What stands for any number of parameters has to be the last. -/
def checkParameter (isLast : Bool) (text : List Char) :
    Validated PatternError ParameterPattern :=
  match ParameterPattern.parse? text with
  | none => .bad (.invalidParameter (String.ofList text)) []
  | some p =>
    if p.isTrailing && !isLast then .bad (.misplacedWildcard (String.ofList text)) [] else .good p

/-- Checks the parameters. -/
def checkParameters : List (List Char) → Validated PatternError (List ParameterPattern)
  | [] => pure []
  | text :: rest => (· :: ·) <$> checkParameter rest.isEmpty text <*> checkParameters rest

/-- Checks the parts of a pattern. -/
def checkParts (text : List Char) (parts : PatternParts) : Validated PatternError MethodPattern :=
  MethodPattern.mk (String.ofList text) parts <$>
    .ofOption (.invalidType (String.ofList parts.type)) (TypePattern.parse? parts.type) <*>
    .ofOption (.invalidName (String.ofList parts.name)) (NamePattern.parse? parts.name) <*>
    checkParameters parts.parameters

/-- Reads a pattern, or reports all that is wrong with it. -/
def check (pattern : String) : Validated PatternError MethodPattern :=
  match Text.trim pattern.toList with
  | [] => .bad .empty []
  | text =>
    match PatternParts.split? text with
    | none => .bad (.malformed (String.ofList text)) []
    | some parts => checkParts text parts

/-- Reads a pattern, or reports the first thing that is wrong with it. -/
def parse (pattern : String) : Except PatternError MethodPattern := (check pattern).toExcept

/-- Does a declared method match? If overrides count, a method also matches as one that a
supertype of its class could declare. -/
def accepts (p : MethodPattern) (overrides : Bool) (m : MethodType) : Bool :=
  p.name.accepts m.name &&
    ParameterPattern.acceptAll p.parameters (m.parameterTypes.map (·.signature.toList)) &&
    (if overrides then m.declaringType.ancestry else [m.declaringType]).any fun c =>
      p.type.accepts c.signature.toList

end MethodPattern

end Lossless.Java
