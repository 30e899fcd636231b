import Lossless.Java.Build

/-!
# Call sites

Calls of a few methods of a few classes, with arguments of five kinds, as they could stand
in a program. A call site is known before it is a tree or a text, and it is made into both
independently: `Lossless.Sample.CallSite.source` is the text that the printed
`Lossless.Sample.CallSite.tree` has to have. What the deletion of an argument has to leave
of it is known likewise (`Lossless.Sample.CallSite.withoutArgument`).
-/

namespace Lossless.Sample

open Java

/-- The classes whose methods are called. -/
inductive Receiver where
  | foo
  /-- A subclass of the first. -/
  | subFoo
  | other
deriving DecidableEq, Repr

namespace Receiver

/-- The name of a class. -/
def fullyQualifiedName : Receiver → String
  | .foo => "com.acme.Foo"
  | .subFoo => "com.acme.SubFoo"
  | .other => "com.other.Other"

/-- The variable that holds an object of a class. -/
def variableName : Receiver → String
  | .foo => "foo"
  | .subFoo => "sub"
  | .other => "other"

/-- A class. -/
def classType : Receiver → ClassType
  | .foo => .named (fullyQualifiedName .foo)
  | .subFoo =>
    { ClassType.named (fullyQualifiedName .subFoo) with
      supertype := some (.named (fullyQualifiedName .foo)) }
  | .other => .named (fullyQualifiedName .other)

end Receiver

mutual

/-- An argument of a call. -/
inductive Argument where
  /-- A number. -/
  | int (value : Nat)
  /-- A text literal with this content. -/
  | text (content : String)
  /-- A variable that holds an object of a class. -/
  | localVariable (name className : String)
  /-- A constant of the class of constants. -/
  | constant (name : String)
  /-- Another call. -/
  | call (site : CallSite)

/-- A call with its arguments. -/
structure CallSite where
  /-- The class. -/
  receiver : Receiver
  /-- The method; a constructor has no name. -/
  name : Option String
  /-- The arguments. -/
  arguments : List PlacedArgument

/-- An argument and the text in front of it. -/
structure PlacedArgument where
  /-- The text in front of it. -/
  lead : String
  /-- The argument. -/
  argument : Argument

end

/-- The class of constants. -/
def constantsOwner : String := "com.acme.Limits"

/-! ### Types and patterns -/

/-- The type of the parameter for an argument. -/
def Argument.parameterType : Argument → JavaType
  | .int _ | .constant _ | .call _ => .primitive .int
  | .text _ => .ofClass (.named "java.lang.String")
  | .localVariable _ className => .ofClass (.named className)

/-- The parameter for an argument in a pattern. -/
def Argument.patternType : Argument → String
  | .int _ | .constant _ | .call _ => "int"
  | .text _ => "String"
  | .localVariable _ className => className

/-- The name by which patterns refer to a method or constructor. -/
def patternName (name : Option String) : String := name.getD MethodType.constructorName

/-- The method that is called. -/
def methodTypeOf (receiver : Receiver) (name : Option String) (parameters : List JavaType) :
    MethodType :=
  match name with
  | some name =>
    { (MethodType.named receiver.classType name).withParameters parameters with
      returnType := .primitive .int }
  | none => (MethodType.constructor receiver.classType).withParameters parameters

namespace CallSite

/-- Is a constructor called? -/
def isConstructor (c : CallSite) : Bool := c.name.isNone

/-- The method that is called. -/
def methodType (c : CallSite) : MethodType :=
  methodTypeOf c.receiver c.name (c.arguments.map (·.argument.parameterType))

/-- The pattern of exactly this method. -/
def pattern (c : CallSite) : String :=
  c.receiver.fullyQualifiedName ++ " " ++ patternName c.name ++ "(" ++
    ", ".intercalate (c.arguments.map (·.argument.patternType)) ++ ")"

end CallSite

/-! ### Texts -/

/-- The text of a call, given the texts of its arguments. -/
def callText (receiver : Receiver) (name : Option String) (arguments : List String) : String :=
  let call := match name with
    | some name => receiver.variableName ++ "." ++ name
    | none => "new " ++ receiver.classType.simpleName
  call ++ "(" ++ ",".intercalate arguments ++ ")"

mutual

/-- The text of an argument. -/
def Argument.source : Argument → String
  | .int value => toString value
  | .text content => "\"" ++ content ++ "\""
  | .localVariable name _ => name
  | .constant name => name
  | .call ⟨receiver, name, arguments⟩ => callText receiver name (argumentSources arguments)

/-- The texts of arguments, each behind the text in front of it. -/
def argumentSources : List PlacedArgument → List String
  | [] => []
  | ⟨lead, argument⟩ :: rest => (lead ++ argument.source) :: argumentSources rest

end

/-- The text of a call. -/
def CallSite.source (c : CallSite) : String :=
  callText c.receiver c.name (argumentSources c.arguments)

/-- The text of the file that holds the call. -/
def CallSite.unitSource (c : CallSite) : String :=
  "class A \x7b\n    void m() \x7b\n        " ++ c.source ++ ";\n    \x7d\n\x7d\n"

/-! ### Trees -/

/-- The tree of a call, given the types and the trees of its arguments. -/
def callTree (receiver : Receiver) (name : Option String) (types : List JavaType)
    (arguments : List Tree) : Tree :=
  let methodType := methodTypeOf receiver name types
  match name with
  | some name =>
    Build.invocation
      (some (Build.name receiver.variableName (some (.ofClass receiver.classType))))
      name arguments (some methodType)
  | none => Build.newClass receiver.classType arguments (some methodType)

mutual

/-- The tree of an argument. -/
def Argument.tree : Argument → Tree
  | .int value => Build.literal (toString value) .int
  | .text content => Build.textLiteral content
  | .localVariable name className => Build.name name (some (.ofClass (.named className)))
  | .constant name => Build.staticField (.named constantsOwner) name (.primitive .int)
  | .call ⟨receiver, name, arguments⟩ =>
    callTree receiver name (arguments.map (·.argument.parameterType)) (argumentTrees arguments)

/-- The trees of arguments, each behind the text in front of it. -/
def argumentTrees : List PlacedArgument → List Tree
  | [] => []
  | ⟨lead, argument⟩ :: rest => argument.tree.withLead ⟨lead⟩ :: argumentTrees rest

end

/-- The tree of a call. -/
def CallSite.tree (c : CallSite) : Tree :=
  callTree c.receiver c.name (c.arguments.map (·.argument.parameterType))
    (argumentTrees c.arguments)

/-- A file with the call as its only statement. -/
def CallSite.unit (c : CallSite) : CompilationUnit Tree := Build.unit [] [c.tree]

/-! ### References -/

mutual

/-- The names that an argument refers to and that have to be imported. -/
def Argument.references : Argument → List String
  | .int _ | .text _ => []
  | .localVariable _ className => [className]
  | .constant name => [constantsOwner ++ "." ++ name]
  | .call ⟨receiver, _, arguments⟩ =>
    receiver.fullyQualifiedName :: argumentReferences arguments

/-- The names that some arguments refer to. -/
def argumentReferences : List PlacedArgument → List String
  | [] => []
  | ⟨_, argument⟩ :: rest => argument.references ++ argumentReferences rest

end

/-- The names that a call refers to: its class, and those of its arguments. -/
def CallSite.references (c : CallSite) : List String :=
  c.receiver.fullyQualifiedName :: argumentReferences c.arguments

/-! ### Deletion -/

/-- The first argument behind another text. -/
def placeFirst (lead : String) : List PlacedArgument → List PlacedArgument
  | [] => []
  | first :: rest => { first with lead } :: rest

/-- The call without one of its arguments. What stood in front of the first argument stays
where it is. -/
def CallSite.withoutArgument (c : CallSite) (index : Nat) : CallSite :=
  match c.arguments, index with
  | first :: rest, 0 => { c with arguments := placeFirst first.lead rest }
  | arguments, index => { c with arguments := arguments.eraseIdx index }

/-- The calls with one argument less. -/
def CallSite.smaller (c : CallSite) : List CallSite :=
  (List.range c.arguments.length).map c.withoutArgument

end Lossless.Sample
