/-!
# Flags of declarations

The modifiers of a class, method or variable that attribution records. A set of
flags is written as the list of its members, always in the order of
`Lossless.Java.Flag.all`.
-/

namespace Lossless.Java

/-- A modifier that attribution records. -/
inductive Flag where
  | isPublic
  | isPrivate
  | isProtected
  | isStatic
  | isFinal
  | isAbstract
  | isVarargs
deriving DecidableEq, Repr

namespace Flag

/-- All flags, in the order in which they are written. -/
def all : List Flag :=
  [.isPublic, .isPrivate, .isProtected, .isStatic, .isFinal, .isAbstract, .isVarargs]

/-- The word for a flag. -/
def name : Flag → String
  | .isPublic => "public"
  | .isPrivate => "private"
  | .isProtected => "protected"
  | .isStatic => "static"
  | .isFinal => "final"
  | .isAbstract => "abstract"
  | .isVarargs => "varargs"

/-- The flag that a word stands for. -/
def ofName? (s : String) : Option Flag := all.find? (·.name = s)

end Flag

/-- A set of flags. -/
structure Flags where
  isPublic : Bool := false
  isPrivate : Bool := false
  isProtected : Bool := false
  isStatic : Bool := false
  isFinal : Bool := false
  isAbstract : Bool := false
  isVarargs : Bool := false
deriving DecidableEq, Repr

namespace Flags

/-- No flag. -/
def none : Flags := {}

/-- The flag of a public declaration alone, the usual case. -/
def onlyPublic : Flags := { isPublic := true }

instance : Inhabited Flags := ⟨onlyPublic⟩

/-- Is a flag set? -/
def has (s : Flags) : Flag → Bool
  | .isPublic => s.isPublic
  | .isPrivate => s.isPrivate
  | .isProtected => s.isProtected
  | .isStatic => s.isStatic
  | .isFinal => s.isFinal
  | .isAbstract => s.isAbstract
  | .isVarargs => s.isVarargs

/-- The set of the flags that satisfy `p`. -/
def filter (p : Flag → Bool) : Flags where
  isPublic := p .isPublic
  isPrivate := p .isPrivate
  isProtected := p .isProtected
  isStatic := p .isStatic
  isFinal := p .isFinal
  isAbstract := p .isAbstract
  isVarargs := p .isVarargs

/-- The flags that are set. -/
def toList (s : Flags) : List Flag := Flag.all.filter s.has

/-- The set of the listed flags. -/
def ofList (fs : List Flag) : Flags := filter (· ∈ fs)

/-- The flags of either set. -/
def union (s t : Flags) : Flags := filter fun f => s.has f || t.has f

/-- Does `s` have all flags of `t`? -/
def contains (s t : Flags) : Bool := t.toList.all s.has

/-- The set as it appears in diagnostics. -/
def describe (s : Flags) : String :=
  "Flags(" ++ " ".intercalate (s.toList.map Flag.name) ++ ")"

theorem has_filter (p : Flag → Bool) (f : Flag) : (filter p).has f = p f := by
  cases f <;> rfl

end Flags

end Lossless.Java
