import Lossless.Java.Flags
import Lossless.Java.QualifiedName

/-!
# Types attributed to trees

Whoever reads a program resolves its names and attaches what they mean: the class of
an expression, the signature of a called method, the variable behind a name. The
types here are these attributions. They are plain values; no type is ever derived
from a tree, so an edit that changes a signature attaches the changed type itself.

`Lossless.Java.JavaType.signature` is the text of a type that patterns are compared
with.
-/

namespace Lossless.Java

/-- The primitive types, and the types of text and null literals. -/
inductive Primitive where
  | boolean
  | byte
  | char
  | double
  | float
  | int
  | long
  | short
  | void
  | string
  | null
deriving DecidableEq, Repr

/-- The text of a primitive type. A text literal counts as an object of the class of
texts. -/
def Primitive.keyword : Primitive → String
  | .boolean => "boolean"
  | .byte => "byte"
  | .char => "char"
  | .double => "double"
  | .float => "float"
  | .int => "int"
  | .long => "long"
  | .short => "short"
  | .void => "void"
  | .string => "java.lang.String"
  | .null => "null"

/-- The kinds of declarations that introduce a class type. -/
inductive ClassKind where
  | classKind
  | interfaceKind
  | enumKind
  | recordKind
  | annotationKind
deriving DecidableEq, Repr

/-- A class with its name, its flags and what it inherits from. -/
structure ClassType where
  /-- The fully qualified name. -/
  fullyQualifiedName : String
  /-- How the class is declared. -/
  kind : ClassKind := .classKind
  /-- Its modifiers. -/
  flags : Flags := .onlyPublic
  /-- The class that it extends. -/
  supertype : Option ClassType := none
  /-- The interfaces that it implements. -/
  interfaces : List ClassType := []

mutual

/-- The signature of a method or a constructor. -/
structure MethodType where
  /-- The class that declares it. -/
  declaringType : ClassType
  /-- Its name. -/
  name : String
  /-- Its modifiers. -/
  flags : Flags
  /-- The type of its result. -/
  returnType : JavaType
  /-- The names of its parameters. -/
  parameterNames : List String
  /-- The types of its parameters. -/
  parameterTypes : List JavaType

/-- A field or a local variable. -/
structure VariableType where
  /-- Its name. -/
  name : String
  /-- The type that it belongs to, for a field. -/
  owner : Option JavaType
  /-- Its own type. -/
  variableType : JavaType
  /-- Its modifiers. -/
  flags : Flags

/-- What a name or an expression can mean. -/
inductive JavaType where
  /-- A class. -/
  | ofClass (c : ClassType)
  /-- A method. -/
  | ofMethod (m : MethodType)
  /-- A variable. -/
  | ofVariable (v : VariableType)
  /-- A primitive type. -/
  | primitive (p : Primitive)
  /-- An array of something. -/
  | array (element : JavaType)
  /-- Nothing that could be resolved. -/
  | unknown

end

instance : Inhabited ClassType := ⟨{ fullyQualifiedName := "" }⟩
instance : Inhabited JavaType := ⟨.primitive .void⟩

/-! ### Classes -/

namespace ClassType

/-- A public class without supertypes. -/
def named (name : String) : ClassType := { fullyQualifiedName := name }

/-- The package of a class. -/
def packageName (c : ClassType) : String :=
  String.ofList (QualifiedName.package c.fullyQualifiedName.toList)

/-- The name of a class without its package. -/
def className (c : ClassType) : String :=
  String.ofList (QualifiedName.className c.fullyQualifiedName.toList)

/-- The innermost part of the name of a class. -/
def simpleName (c : ClassType) : String :=
  String.ofList (QualifiedName.simpleName c.fullyQualifiedName.toList)

/-- The name of a class with nesting spelled by dots, which is what patterns are compared
with. -/
def signature (c : ClassType) : String :=
  String.ofList (QualifiedName.dotted c.fullyQualifiedName.toList)

/-- The types that a class inherits from directly: its supertype, then its
interfaces. -/
def parents (c : ClassType) : List ClassType := c.supertype.toList ++ c.interfaces

/-- The sum of the sizes of some classes. -/
noncomputable def totalSize : List ClassType → Nat
  | [] => 0
  | c :: cs => sizeOf c + totalSize cs

theorem totalSize_append (cs ds : List ClassType) :
    totalSize (cs ++ ds) = totalSize cs + totalSize ds := by
  induction cs with
  | nil => simp only [List.nil_append, totalSize, Nat.zero_add]
  | cons c cs ih => simp only [List.cons_append, totalSize, ih, Nat.add_assoc]

theorem totalSize_le (cs : List ClassType) : totalSize cs ≤ sizeOf cs := by
  induction cs with
  | nil => exact Nat.zero_le _
  | cons c cs ih =>
    simp only [totalSize, List.cons.sizeOf_spec]
    omega

/-- A class is bigger than all its parents together, by which the walk over the supertypes ends. -/
theorem totalSize_parents_lt (c : ClassType) : totalSize c.parents < sizeOf c := by
  obtain ⟨n, k, f, s, is⟩ := c
  have := totalSize_le is
  rw [parents, totalSize_append]
  cases s <;> simp [totalSize] at * <;> omega

/-- Appends the classes on a stack and all that they inherit from, depth first,
leaving out classes whose name is listed already. -/
def ancestryFrom (seen : List ClassType) : List ClassType → List ClassType
  | [] => seen
  | c :: stack =>
    if seen.any (·.fullyQualifiedName = c.fullyQualifiedName) then ancestryFrom seen stack
    else ancestryFrom (seen ++ [c]) (c.parents ++ stack)
termination_by stack => totalSize stack
decreasing_by
  · simp only [totalSize]
    have : 0 < sizeOf c := by cases c; simp only [mk.sizeOf_spec]; omega
    omega
  · have := totalSize_parents_lt c
    rw [totalSize_append, totalSize]
    omega

/-- A class and all that it inherits from, depth first, no name twice. -/
def ancestry (c : ClassType) : List ClassType := ancestryFrom [] [c]

/-- Does a class inherit from the class of this name, or carry the name itself? -/
def isAssignableTo (c : ClassType) (name : String) : Bool :=
  c.ancestry.any (·.fullyQualifiedName = name)

end ClassType

/-! ### Methods and variables -/

namespace MethodType

/-- The name under which constructors are known. -/
def constructorName : String := "<constructor>"

/-- A public method without parameters and without result. -/
def named (declaringType : ClassType) (name : String) : MethodType where
  declaringType := declaringType
  name := name
  flags := .onlyPublic
  returnType := .primitive .void
  parameterNames := []
  parameterTypes := []

/-- A public constructor without parameters; its result is its class. -/
def constructor (declaringType : ClassType) : MethodType :=
  { named declaringType constructorName with returnType := .ofClass declaringType }

/-- Is this a constructor? -/
def isConstructor (m : MethodType) : Bool := m.name = constructorName

/-- How many parameters a method has. -/
def arity (m : MethodType) : Nat := m.parameterTypes.length

/-- Does a method have all these flags? -/
def hasFlags (m : MethodType) (flags : Flags) : Bool := m.flags.contains flags

/-- The method with one more parameter. -/
def withParameter (m : MethodType) (name : String) (type : JavaType) : MethodType :=
  { m with
    parameterNames := m.parameterNames ++ [name]
    parameterTypes := m.parameterTypes ++ [type] }

end MethodType

/-- Does a variable have all these flags? -/
def VariableType.hasFlags (v : VariableType) (flags : Flags) : Bool := v.flags.contains flags

/-! ### Types -/

namespace JavaType

/-- The class that a type is. -/
def class? : JavaType → Option ClassType
  | .ofClass c => some c
  | _ => none

/-- The method that a type is. -/
def method? : JavaType → Option MethodType
  | .ofMethod m => some m
  | _ => none

/-- Is the type unresolved? -/
def isUnknown : JavaType → Bool
  | .unknown => true
  | _ => false

/-- The text of a type that patterns are compared with: nesting is spelled with dots,
a method stands for its result and a variable for its type. -/
def signature : JavaType → String
  | .ofClass c => c.signature
  | .primitive p => p.keyword
  | .array element => element.signature ++ "[]"
  | .ofMethod ⟨_, _, _, returnType, _, _⟩ => returnType.signature
  | .ofVariable ⟨_, _, variableType, _⟩ => variableType.signature
  | .unknown => "*unknown*"

end JavaType

/-! ### Equality of types -/

mutual

/-- Equality of classes is decided field by field. -/
def ClassType.decEq : (a b : ClassType) → Decidable (a = b)
  | ⟨n, k, f, s, is⟩, ⟨n', k', f', s', is'⟩ =>
    if h : n = n' ∧ k = k' ∧ f = f' then
      match ClassType.decEqOption s s', ClassType.decEqList is is' with
      | isTrue hs, isTrue hi => isTrue (by simp [h, hs, hi])
      | isFalse hs, _ => isFalse (by simp [hs])
      | _, isFalse hi => isFalse (by simp [hi])
    else isFalse (by simp only [ClassType.mk.injEq]; exact fun e => h ⟨e.1, e.2.1, e.2.2.1⟩)

/-- Equality of optional classes. -/
def ClassType.decEqOption : (a b : Option ClassType) → Decidable (a = b)
  | none, none => isTrue rfl
  | some a, some b =>
    match ClassType.decEq a b with
    | isTrue h => isTrue (by rw [h])
    | isFalse h => isFalse (by simp [h])
  | none, some _ => isFalse nofun
  | some _, none => isFalse nofun

/-- Equality of lists of classes. -/
def ClassType.decEqList : (a b : List ClassType) → Decidable (a = b)
  | [], [] => isTrue rfl
  | a :: as, b :: bs =>
    match ClassType.decEq a b, ClassType.decEqList as bs with
    | isTrue h, isTrue hs => isTrue (by rw [h, hs])
    | isFalse h, _ => isFalse (by simp [h])
    | _, isFalse hs => isFalse (by simp [hs])
  | [], _ :: _ => isFalse nofun
  | _ :: _, [] => isFalse nofun

end

instance : DecidableEq ClassType := ClassType.decEq

mutual

/-- Equality of types is decided part by part. -/
def JavaType.decEq : (a b : JavaType) → Decidable (a = b)
  | .ofClass c, .ofClass d => decidable_of_iff (c = d) (by simp)
  | .ofMethod m, .ofMethod n =>
    match MethodType.decEq m n with
    | isTrue h => isTrue (by rw [h])
    | isFalse h => isFalse (by simp [h])
  | .ofVariable v, .ofVariable w =>
    match VariableType.decEq v w with
    | isTrue h => isTrue (by rw [h])
    | isFalse h => isFalse (by simp [h])
  | .primitive p, .primitive q => decidable_of_iff (p = q) (by simp)
  | .array t, .array u =>
    match JavaType.decEq t u with
    | isTrue h => isTrue (by rw [h])
    | isFalse h => isFalse (by simp [h])
  | .unknown, .unknown => isTrue rfl
  | .ofClass _, .ofMethod _ | .ofClass _, .ofVariable _ | .ofClass _, .primitive _
  | .ofClass _, .array _ | .ofClass _, .unknown
  | .ofMethod _, .ofClass _ | .ofMethod _, .ofVariable _ | .ofMethod _, .primitive _
  | .ofMethod _, .array _ | .ofMethod _, .unknown
  | .ofVariable _, .ofClass _ | .ofVariable _, .ofMethod _ | .ofVariable _, .primitive _
  | .ofVariable _, .array _ | .ofVariable _, .unknown
  | .primitive _, .ofClass _ | .primitive _, .ofMethod _ | .primitive _, .ofVariable _
  | .primitive _, .array _ | .primitive _, .unknown
  | .array _, .ofClass _ | .array _, .ofMethod _ | .array _, .ofVariable _
  | .array _, .primitive _ | .array _, .unknown
  | .unknown, .ofClass _ | .unknown, .ofMethod _ | .unknown, .ofVariable _
  | .unknown, .primitive _ | .unknown, .array _ => isFalse nofun

/-- Equality of methods. -/
def MethodType.decEq : (a b : MethodType) → Decidable (a = b)
  | ⟨d, n, f, r, ns, ts⟩, ⟨d', n', f', r', ns', ts'⟩ =>
    if h : d = d' ∧ n = n' ∧ f = f' ∧ ns = ns' then
      match JavaType.decEq r r', JavaType.decEqList ts ts' with
      | isTrue hr, isTrue ht => isTrue (by simp [h, hr, ht])
      | isFalse hr, _ => isFalse (by simp [hr])
      | _, isFalse ht => isFalse (by simp [ht])
    else
      isFalse (by
        simp only [MethodType.mk.injEq]
        exact fun e => h ⟨e.1, e.2.1, e.2.2.1, e.2.2.2.2.1⟩)

/-- Equality of variables. -/
def VariableType.decEq : (a b : VariableType) → Decidable (a = b)
  | ⟨n, o, t, f⟩, ⟨n', o', t', f'⟩ =>
    if h : n = n' ∧ f = f' then
      match JavaType.decEqOption o o', JavaType.decEq t t' with
      | isTrue ho, isTrue ht => isTrue (by simp [h, ho, ht])
      | isFalse ho, _ => isFalse (by simp [ho])
      | _, isFalse ht => isFalse (by simp [ht])
    else isFalse (by simp only [VariableType.mk.injEq]; exact fun e => h ⟨e.1, e.2.2.2⟩)

/-- Equality of optional types. -/
def JavaType.decEqOption : (a b : Option JavaType) → Decidable (a = b)
  | none, none => isTrue rfl
  | some a, some b =>
    match JavaType.decEq a b with
    | isTrue h => isTrue (by rw [h])
    | isFalse h => isFalse (by simp [h])
  | none, some _ => isFalse nofun
  | some _, none => isFalse nofun

/-- Equality of lists of types. -/
def JavaType.decEqList : (a b : List JavaType) → Decidable (a = b)
  | [], [] => isTrue rfl
  | a :: as, b :: bs =>
    match JavaType.decEq a b, JavaType.decEqList as bs with
    | isTrue h, isTrue hs => isTrue (by rw [h, hs])
    | isFalse h, _ => isFalse (by simp [h])
    | _, isFalse hs => isFalse (by simp [hs])
  | [], _ :: _ => isFalse nofun
  | _ :: _, [] => isFalse nofun

end

instance : DecidableEq JavaType := JavaType.decEq
instance : DecidableEq MethodType := MethodType.decEq
instance : DecidableEq VariableType := VariableType.decEq

end Lossless.Java
