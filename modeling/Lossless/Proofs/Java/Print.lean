import Lossless.Java.Build
import Lossless.Proofs.Java.Call

/-!
# What built trees are printed as

The text of a node is the text in front of it and then what its pieces are printed as
(`Lossless.Java.Tree.text_eq_append`). Arguments in their usual formatting are printed with commas
between them (`Lossless.Java.Build.chars_arguments`). A file around a statement is printed around
the text of the statement (`Lossless.Java.Build.text_unit`), and this is so after a change to the
calls in it, too: no node above the statement is a call. For the same reason the calls in a file are
those in its statements (`Lossless.Java.Build.mem_nodes_unit`).
-/

namespace Lossless

theorem Space.text_empty : Space.empty.text = "" := rfl

theorem Space.text_single : Space.single.text = " " := rfl

namespace Java

namespace Tree

/-- A node prints its leading text first. -/
theorem text_eq_append (t : Tree) : text t = t.lead.text.toList ++ chars t.body := by
  rw [text_eq]
  rfl

/-- Another leading text comes in the place of the old one, and nothing else changes. -/
theorem text_withLead (lead : Space) (t : Tree) :
    text (t.withLead lead) = lead.text.toList ++ chars t.body := by
  rw [text_eq]
  cases t <;> rfl

theorem text_identifier (n : Identifier) :
    text (.identifier n : Tree) = n.lead.text.toList ++ n.simpleName.toList := by
  rw [text_eq_append]
  simp [body, lead, head]

/-- Of a placeholder nothing is seen but the text in front of it. -/
theorem text_empty (n : Empty) : text (.empty n : Tree) = n.lead.text.toList := by
  rw [text_eq_append]
  simp [body, lead, head]

theorem chars_placeholder : chars (separated [.build (.empty (Empty.build .empty))]) = [] := by
  simp [separated, RightPadded.build, text_empty, Empty.build, Space.text_empty]

/-! ### Changes of calls -/

/-- A change of nodes that does not touch what other nodes than calls print themselves. -/
def PrintsAround (f : Tree → Tree) : Prop :=
  ∀ t, t.call? = none → text (f t) = t.lead.text.toList ++ chars (t.body.map (Piece.map f))

/-- To change nothing is such a change. -/
theorem printsAround_self : PrintsAround fun t => t := fun t _ => by
  have hbody : t.body.map (Piece.map fun t => t) = t.body :=
    List.map_id'' (fun piece => by cases piece <;> rfl) t.body
  rw [hbody, text_eq_append]

end Tree

namespace Build

open Java.Tree

/-- Elements without paddings are printed with commas between them. -/
theorem chars_separated (args : List Tree) :
    chars (separated (args.map .build)) = (",".intercalate (args.map print)).toList := by
  induction args with
  | nil => rfl
  | cons arg args ih =>
    cases args with
    | nil => simp [separated, RightPadded.build, Space.empty, toList_print]
    | cons next args =>
      simpa [separated, RightPadded.build, Space.empty, toList_print] using ih

/-- Arguments are printed in parentheses, with commas between them. -/
theorem chars_arguments (args : List Tree) :
    chars (parenthesized (arguments args)) =
      ("(" ++ ",".intercalate (args.map print) ++ ")").toList := by
  have hseparated : chars (separated (arguments args).padded) =
      (",".intercalate (args.map print)).toList := by
    cases args with
    | nil => exact chars_placeholder
    | cons arg args => exact chars_separated (arg :: args)
  have hbefore : (arguments args).before = .empty := by cases args <;> rfl
  simp [parenthesized, hseparated, hbefore, Space.empty]

/-- A call is printed as its receiver with a dot, its name, and its arguments. -/
theorem text_invocation (select : Option Tree) (s : String) (args : List Tree)
    (methodType : Option MethodType) (lead : Space) :
    text ((invocation select s args methodType).withLead lead) =
      lead.text.toList ++ (select.elim "" fun t => print t ++ ".").toList ++ s.toList ++
        ("(" ++ ",".intercalate (args.map print) ++ ")").toList := by
  rw [text_withLead]
  cases select <;>
    simp [invocation, Identifier.build, RightPadded.build, body, Tree.receiver, text_identifier,
      chars_arguments, Space.text_empty, toList_print]

/-- Such a call by itself. -/
theorem print_invocation (select : Option Tree) (s : String) (args : List Tree)
    (methodType : Option MethodType) :
    print (invocation select s args methodType) =
      (select.elim "" fun t => print t ++ ".") ++ s ++
        ("(" ++ ",".intercalate (args.map print) ++ ")") := by
  refine String.toList_injective ?_
  have hlead : (invocation select s args methodType).withLead .empty =
      invocation select s args methodType := rfl
  have htext := text_invocation select s args methodType .empty
  rw [hlead, Space.text_empty] at htext
  simpa [toList_print] using htext

theorem print_name (s : String) (type : Option JavaType) : print (name s type) = s :=
  String.toList_injective (text_identifier _)

/-- Where there are no arguments there is a placeholder. -/
theorem mem_arguments {args : List Tree} {t : Tree} :
    t ∈ (arguments args).elements ↔ t ∈ args ∨ args = [] ∧ t = .empty (Empty.build .empty) := by
  cases args with
  | nil => simp [arguments, Container.elements, RightPadded.build]
  | cons first rest => simp [arguments, Container.elements, RightPadded.build]

/-! ### Files -/

/-- What stands in front of the statement of a file. -/
def statementLead : Space := ⟨"\n        "⟩

/-- The text of a file around that of its statement. -/
def unitText (statement : List Char) : List Char :=
  "class A \x7b\n    void m() \x7b".toList ++ statement ++ ";\n    \x7d\n\x7d\n".toList

section Around

variable {f : Tree → Tree} (hf : PrintsAround f)

include hf

theorem text_name (n : Identifier) :
    text (f (.identifier n)) = n.lead.text.toList ++ n.simpleName.toList :=
  (hf (.identifier n) rfl).trans (by simp [body, Tree.lead, head])

/-- A block around one statement, cut or not. -/
theorem text_block {t : Tree} (ht : t.needsTerminator = true) (lead indent beforeEnd : Space) :
    text (f (.block (block lead [t] indent beforeEnd))) =
      lead.text.toList ++ "\x7b".toList ++ text (f (t.withLead indent)) ++ ";".toList ++
        beforeEnd.text.toList ++ "\x7d".toList := by
  rw [hf _ rfl]
  simp [body, block, statement, RightPadded.build, ht, needsTerminator_withLead, Tree.lead, head,
    Space.text_empty]

/-- The text of the method around a statement. -/
theorem text_method {t : Tree} (ht : t.needsTerminator = true) :
    text (f (.methodDeclaration (method [t]))) =
      "\n    void m() \x7b".toList ++ text (f (t.withLead statementLead)) ++
        ";\n    \x7d".toList := by
  have hempty : text (f (.empty (Empty.build .empty))) = [] := hf (.empty _) rfl
  have hbody := text_block hf ht .single ⟨"\n        "⟩ ⟨"\n    "⟩
  rw [hf _ rfl]
  simp [body, method, name, arguments, parenthesized, separated, RightPadded.build, hempty, hbody,
    statementLead, text_name hf, Tree.lead, head, Space.text_empty, Space.text_single,
    Identifier.build]

/-- The text of the class around it. -/
theorem text_enclosingClass (t : Tree) :
    text (f (.classDeclaration (enclosingClass .empty (method [t])))) =
      "class A \x7b".toList ++ text (f (.methodDeclaration (method [t]))) ++ "\n\x7d".toList := by
  have hterminator : (methodDeclaration (method [t])).needsTerminator = false := rfl
  have hbody := hf (.block (enclosingClass .empty (method [t])).body) rfl
  rw [hf _ rfl]
  simpa [body, enclosingClass, statement, introduced, RightPadded.build, hterminator,
    ClassKind.keyword, text_name hf, Tree.lead, head, Space.text_empty, Space.text_single,
    Identifier.build] using hbody

/-- A file is printed around its statement, whatever becomes of calls. -/
theorem text_unit {t : Tree} (ht : t.needsTerminator = true) :
    text (f (.compilationUnit (unit [] [t]))) =
      unitText (text (f (t.withLead statementLead))) := by
  have hmethod := text_method hf ht
  have hclass := text_enclosingClass hf t
  rw [hf _ rfl]
  unfold unitText
  simp [body, unit, importLines, hclass, hmethod, Tree.lead, head, Space.text_empty]

end Around

section Calls

variable {u : Tree} {c : Call} (hcall : u.call? = some c)

include hcall

/-- A node that is no call can be passed over in search of calls. -/
theorem mem_nodes_of_not_call {t : Tree} (ht : t.call? = none) :
    u ∈ nodes t ↔ ∃ d ∈ children t, u ∈ nodes d := by
  rw [mem_nodes, or_iff_right]
  rintro rfl
  rw [ht] at hcall
  cases hcall

/-- There is no call in an identifier. -/
theorem not_mem_nodes_identifier (n : Identifier) : u ∉ nodes (.identifier n) := by
  rw [mem_nodes_of_not_call hcall rfl, children_identifier]
  simp

/-- There is no call in a placeholder. -/
theorem not_mem_nodes_empty (n : Empty) : u ∉ nodes (.empty n) := by
  rw [mem_nodes_of_not_call hcall rfl, children_empty]
  simp

/-- The calls below a call are those in its receiver and in its arguments. -/
theorem mem_nodes_children_methodInvocation (n : MethodInvocation Tree) :
    (∃ d ∈ children (.methodInvocation n), u ∈ nodes d) ↔
      (∃ p ∈ n.select, u ∈ nodes p.element) ∨ ∃ t ∈ n.arguments.elements, u ∈ nodes t := by
  rw [children_methodInvocation]
  simp [or_and_right, exists_or, not_mem_nodes_identifier hcall]

/-- The same for a call in the usual formatting. -/
theorem mem_nodes_children_invocation {select : Option Tree} {s : String} {args : List Tree}
    {methodType : Option MethodType} :
    (∃ d ∈ children (invocation select s args methodType), u ∈ nodes d) ↔
      (∃ t ∈ select, u ∈ nodes t) ∨ ∃ t ∈ args, u ∈ nodes t := by
  rw [invocation, mem_nodes_children_methodInvocation hcall]
  simp [mem_arguments, or_and_right, exists_or, not_mem_nodes_empty hcall, RightPadded.build]

/-- The calls in a file are the calls in its statements. -/
theorem mem_nodes_unit {ts : List Tree} :
    u ∈ nodes (.compilationUnit (unit [] ts)) ↔ ∃ t ∈ ts, u ∈ nodes (t.withLead statementLead) := by
  have hmethod : u ∈ nodes (.methodDeclaration (method ts)) ↔
      ∃ t ∈ ts, u ∈ nodes (t.withLead statementLead) := by
    rw [mem_nodes_of_not_call hcall rfl, children_methodDeclaration]
    simp [method, name, mem_arguments, RightPadded.build, not_mem_nodes_identifier hcall,
      not_mem_nodes_empty hcall, mem_nodes_of_not_call hcall (t := .block _) rfl, block,
      statementLead]
  have hclass : u ∈ nodes (.classDeclaration (enclosingClass .empty (method ts))) ↔
      u ∈ nodes (.methodDeclaration (method ts)) := by
    rw [mem_nodes_of_not_call hcall rfl, children_classDeclaration]
    simp [enclosingClass, RightPadded.build, not_mem_nodes_identifier hcall,
      mem_nodes_of_not_call hcall (t := .block _) rfl]
  rw [mem_nodes_of_not_call hcall rfl, children_compilationUnit]
  simp [unit, importLines, hclass, hmethod]

/-- Those in a file with one statement are the calls in this. -/
theorem mem_nodes_unit_singleton {t : Tree} :
    u ∈ nodes (.compilationUnit (unit [] [t])) ↔ u ∈ nodes (t.withLead statementLead) := by
  rw [mem_nodes_unit hcall]
  simp

end Calls

end Build

end Java

end Lossless
