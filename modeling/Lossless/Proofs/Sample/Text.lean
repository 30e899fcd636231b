import Lossless.Proofs.Java.Print
import Lossless.Sample.CallSite

/-!
# The text of call sites

The text of a call site is put together from the texts of its arguments, and its tree from the trees
of these. Nothing ties the one to the other but the printer. By induction over the calls within
calls, a tree is printed as the text (`Lossless.Sample.text_tree`), and so is the file around it
(`Lossless.Sample.CallSite.print_unit`).

The method to which a call is attributed is not printed. So the tree of a call is taken here for any
method (`Lossless.Sample.callOf`), which covers what is left of the call when the method has lost a
parameter.
-/

namespace Lossless.Sample

open Java Tree

/-- The tree of a call, given the method and the trees of the arguments. -/
def callOf (receiver : Receiver) (name : Option String) (methodType : MethodType)
    (arguments : List Tree) : Tree :=
  match name with
  | some name =>
    Build.invocation
      (some (Build.name receiver.variableName (some (.ofClass receiver.classType))))
      name arguments (some methodType)
  | none => Build.newClass receiver.classType arguments (some methodType)

section Call

variable (receiver : Receiver) (name : Option String) (arguments : List Tree)

/-- The tree of a sample is a call with the method that goes with its arguments. -/
theorem callTree_eq (types : List JavaType) :
    callTree receiver name types arguments =
      callOf receiver name (methodTypeOf receiver name types) arguments := by
  cases name <;> rfl

/-- **A call is printed as its text, whatever method it is taken to call.** -/
theorem text_callOf (methodType : MethodType) (lead : Space) :
    text ((callOf receiver name methodType arguments).withLead lead) =
      lead.text.toList ++ (callText receiver name (arguments.map print)).toList := by
  cases name with
  | some name =>
    simp [callOf, callText, Build.text_invocation, Build.name, Identifier.build, toList_print,
      text_identifier, Space.text_empty]
  | none =>
    rw [text_withLead]
    simp [callOf, callText, Build.newClass, Build.name, Identifier.build, body, withLead, withHead,
      text_identifier, Build.chars_arguments, Space.text_single]

end Call

theorem print_eq_of_text {t : Tree} {s : String} (h : text t = s.toList) : print t = s :=
  String.toList_injective h

mutual

/-- **An argument is printed as its text.** -/
theorem text_tree (a : Argument) (lead : Space) :
    text (a.tree.withLead lead) = lead.text.toList ++ a.source.toList := by
  cases a with
  | int value =>
    rw [text_withLead, Argument.tree, Argument.source]
    simp [Build.literal, body]
  | text content =>
    rw [text_withLead, Argument.tree, Argument.source]
    simp [Build.textLiteral, Build.literal, body]
  | localVariable name className =>
    rw [text_withLead, Argument.tree, Argument.source]
    simp [Build.name, Identifier.build, body]
  | constant name =>
    rw [text_withLead, Argument.tree, Argument.source]
    simp [Build.staticField, Identifier.build, body]
  | call site =>
    obtain ⟨receiver, name, arguments⟩ := site
    rw [Argument.tree, callTree_eq, text_callOf, map_print_argumentTrees arguments, Argument.source]

/-- The arguments are printed as their sources. -/
theorem map_print_argumentTrees (arguments : List PlacedArgument) :
    (argumentTrees arguments).map print = argumentSources arguments := by
  cases arguments with
  | nil => rfl
  | cons first rest =>
    obtain ⟨lead, argument⟩ := first
    have htext := text_tree argument ⟨lead⟩
    rw [← String.toList_append] at htext
    rw [argumentTrees, List.map_cons, argumentSources, map_print_argumentTrees rest,
      print_eq_of_text htext]

end

/-! ### Files -/

namespace CallSite

variable (c : CallSite)

/-- The tree of a call site. -/
theorem tree_eq :
    c.tree = callOf c.receiver c.name c.methodType (argumentTrees c.arguments) :=
  callTree_eq ..

/-- As a statement it needs a terminator. -/
theorem needsTerminator_tree : c.tree.needsTerminator = true := by
  rw [tree_eq]
  cases c.name <;> rfl

/-- A call with any method is printed as the text of the call. -/
theorem text_callOf_arguments (m : MethodType) (lead : Space) :
    text ((callOf c.receiver c.name m (argumentTrees c.arguments)).withLead lead) =
      lead.text.toList ++ c.source.toList := by
  rw [text_callOf, map_print_argumentTrees, source]

/-- A file with this statement is printed as the text of the file. -/
theorem print_eq_unitSource {unit : Tree}
    (hunit : text unit = Build.unitText (Build.statementLead.text.toList ++ c.source.toList)) :
    print unit = c.unitSource := by
  refine print_eq_of_text (hunit.trans ?_)
  unfold unitSource Build.unitText
  simp [Build.statementLead]

/-- **A file is printed as its text.** -/
theorem print_unit : print (compilationUnit c.unit) = c.unitSource := by
  have hunit := Build.text_unit printsAround_self c.needsTerminator_tree
  rw [tree_eq, text_callOf_arguments, ← tree_eq] at hunit
  exact c.print_eq_unitSource hunit

end CallSite

end Lossless.Sample
