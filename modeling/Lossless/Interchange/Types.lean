import Lossless.Interchange.Reader
import Lossless.Interchange.Writer
import Lossless.Java.Type

/-!
# Types as data

A type is a word for a primitive or the unknown type, or a record with one field that
says what it is. Readers of nested data take the reader of what is nested in it; the
knot is tied by counting down the depth of the data.
-/

namespace Lossless.Interchange

open Java

/-! ### Words -/

/-- Reads a set of flags. -/
def readFlags : Datum → Reader Flags :=
  .orElse .onlyPublic fun d => do
    return .ofList (← .list (.word "flag" (Flag.all.map fun f => (f.name, f))) d)

/-- Writes a set of flags. -/
def writeFlags (f : Flags) : Datum := .texts (f.toList.map Flag.name)

/-- The field for flags, those of a public declaration by default. -/
def Field.flags (f : Flags) : Field := .omitIf "flags" (f = .onlyPublic) (writeFlags f)

/-- The words for primitive types. -/
def primitives : List (String × Primitive) :=
  [("boolean", .boolean), ("byte", .byte), ("char", .char), ("double", .double),
    ("float", .float), ("int", .int), ("long", .long), ("short", .short), ("void", .void),
    ("String", .string), ("null", .null)]

/-- Reads a primitive type. -/
def readPrimitive : Datum → Reader Primitive := .word "primitive type" primitives

/-- Writes a primitive type. -/
def writePrimitive : Primitive → Datum := wordFor primitives

/-- The words for kinds of classes. -/
def classKinds : List (String × ClassKind) :=
  [("class", .classKind), ("interface", .interfaceKind), ("enum", .enumKind),
    ("record", .recordKind), ("annotation", .annotationKind)]

/-- Reads a kind of classes. -/
def readClassKind : Datum → Reader ClassKind :=
  .orElse .classKind (.word "kind of classes" classKinds)

/-- The field for a kind of classes. -/
def Field.classKind (k : ClassKind) : Field :=
  .omitIf "kind" (k = .classKind) (wordFor classKinds k)

/-! ### Reading -/

/-- Reads a class, given the reader of its supertypes. -/
def readClassWith (parent : Datum → Reader ClassType) (d : Datum) : Reader ClassType := do
  return {
    fullyQualifiedName := ← .textOr (d.field "fully_qualified_name")
    kind := ← readClassKind (d.field "kind")
    flags := ← readFlags (d.field "flags")
    supertype := ← .optional parent (d.field "supertype")
    interfaces := ← .list parent (d.field "interfaces") }

/-- Reads a class whose data is at most so deep. -/
def readClassTo : Nat → Datum → Reader ClassType
  | 0 => fun _ => .expected "class"
  | n + 1 => readClassWith (readClassTo n)

/-- Reads a class. -/
def readClassType (d : Datum) : Reader ClassType := readClassTo d.depth d

/-- Reads a method, given the reader of types. -/
def readMethodWith (type : Datum → Reader JavaType) (d : Datum) : Reader MethodType := do
  return {
    declaringType := ← readClassType (d.field "declaring_type")
    name := ← .textOr (d.field "name")
    flags := ← readFlags (d.field "flags")
    returnType := ← type (d.field "return_type")
    parameterNames := ← .list .text (d.field "parameter_names")
    parameterTypes := ← .list type (d.field "parameter_types") }

/-- Reads a variable, given the reader of types. -/
def readVariableWith (type : Datum → Reader JavaType) (d : Datum) : Reader VariableType := do
  return {
    name := ← .textOr (d.field "name")
    owner := ← .optional type (d.field "owner")
    variableType := ← type (d.field "variable_type")
    flags := ← readFlags (d.field "flags") }

/-- Reads a type whose data is at most so deep; a missing one is the type of nothing. -/
def readTypeTo : Nat → Datum → Reader JavaType
  | _, .null => return .primitive .void
  | _, .text "unknown" => return .unknown
  | _, .text s => .primitive <$> readPrimitive (.text s)
  | n + 1, .record [("class", d)] => .ofClass <$> readClassTo n d
  | n + 1, .record [("method", d)] => .ofMethod <$> readMethodWith (readTypeTo n) d
  | n + 1, .record [("variable", d)] => .ofVariable <$> readVariableWith (readTypeTo n) d
  | n + 1, .record [("array", d)] => .array <$> readTypeTo n d
  | _, _ => .expected "type"

/-- Reads a type. -/
def readType (d : Datum) : Reader JavaType := readTypeTo d.depth d

/-- Reads a method. -/
def readMethodType : Datum → Reader MethodType := readMethodWith readType

/-- Reads a variable. -/
def readVariableType : Datum → Reader VariableType := readVariableWith readType

/-! ### Writing -/

mutual

/-- Writes a class. -/
def writeClassType : ClassType → Datum
  | ⟨name, kind, flags, supertype, interfaces⟩ =>
    record [.text "fully_qualified_name" name, .classKind kind, .flags flags,
      .optional "supertype" (writeSupertype supertype),
      .list "interfaces" (writeClassTypes interfaces)]

/-- Writes the class that another one extends. -/
def writeSupertype : Option ClassType → Option Datum
  | none => none
  | some c => some (writeClassType c)

/-- Writes some classes. -/
def writeClassTypes : List ClassType → List Datum
  | [] => []
  | c :: cs => writeClassType c :: writeClassTypes cs

end

mutual

/-- Writes a type. -/
def writeType : JavaType → Datum
  | .ofClass c => record [.always "class" (writeClassType c)]
  | .ofMethod m => record [.always "method" (writeMethodType m)]
  | .ofVariable v => record [.always "variable" (writeVariableType v)]
  | .primitive p => writePrimitive p
  | .array t => record [.always "array" (writeType t)]
  | .unknown => .text "unknown"

/-- Writes a method. -/
def writeMethodType : MethodType → Datum
  | ⟨declaringType, name, flags, returnType, parameterNames, parameterTypes⟩ =>
    record [.always "declaring_type" (writeClassType declaringType), .text "name" name,
      .flags flags, .omitIf "return_type" (returnType = .primitive .void) (writeType returnType),
      .list "parameter_names" (parameterNames.map .text),
      .list "parameter_types" (writeTypes parameterTypes)]

/-- Writes a variable. -/
def writeVariableType : VariableType → Datum
  | ⟨name, owner, variableType, flags⟩ =>
    record [.text "name" name, .optional "owner" (writeOwner owner),
      .omitIf "variable_type" (variableType = .primitive .void) (writeType variableType),
      .flags flags]

/-- Writes the type that a variable belongs to. -/
def writeOwner : Option JavaType → Option Datum
  | none => none
  | some t => some (writeType t)

/-- Writes some types. -/
def writeTypes : List JavaType → List Datum
  | [] => []
  | t :: ts => writeType t :: writeTypes ts

end

end Lossless.Interchange
