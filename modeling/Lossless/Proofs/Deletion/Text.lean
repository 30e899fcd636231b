import Lossless.Proofs.Deletion.Visit
import Lossless.Proofs.Java.Print

/-!
# The text without the deleted arguments

Where a call loses an argument, the argument goes from the text with the padding behind it and
with one comma. If it was the first, the next argument is moved to where it stood: the text in
front of the one makes way for the text in front of the other. These parts of the text of a tree
are `Lossless.DeleteArgument.deletions`, and the recipe exchanges nothing but them
(`Lossless.DeleteArgument.exchanged_text_apply`).

Calls stand in the receivers and the arguments of other calls. What is deleted within an argument
that is itself deleted cannot be seen any more, so the parts of the text are found on the way down
(they are disjoint then), although the calls are cut on the way up.
-/

namespace Lossless

/-! ### Lists of arguments -/

namespace Java.Tree

/-- Further elements of a list, behind a comma. -/
def continued : List (RightPadded Tree) → List (Piece Tree)
  | [] => []
  | ps => .text "," :: separated ps

/-- The first elements of a list that goes on, with a comma behind them. -/
def opened : List (RightPadded Tree) → List (Piece Tree)
  | [] => []
  | ps => separated ps ++ [.text ","]

section Separated

variable (f : Tree → Tree) (p : RightPadded Tree) (ps qs : List (RightPadded Tree))

theorem separated_cons :
    separated (p :: ps) = .child p.element :: .text p.after.text :: continued ps := by
  cases ps <;> rfl

variable {ps} in
theorem separated_append (h : ps ≠ []) : separated (ps ++ qs) = separated ps ++ continued qs := by
  induction ps with
  | nil => exact absurd rfl h
  | cons p ps ih =>
    rw [List.cons_append, separated_cons, separated_cons]
    cases ps with
    | nil => rfl
    | cons p' ps =>
      have hrest := congrArg (Piece.text "," :: ·) (ih (List.cons_ne_nil p' ps))
      exact congrArg (fun rest => .child p.element :: .text p.after.text :: rest) hrest

/-- A list of arguments comes apart at one of them. -/
theorem separated_opened :
    separated (ps ++ p :: qs) =
      opened ps ++ .child p.element :: .text p.after.text :: continued qs := by
  cases ps with
  | nil => exact separated_cons p qs
  | cons p' ps =>
    rw [separated_append _ (List.cons_ne_nil p' ps), continued, separated_cons p, opened,
      List.append_assoc, List.singleton_append]
    · exact List.cons_ne_nil p' ps
    · exact List.cons_ne_nil p qs

theorem childrenOf_opened : childrenOf (opened ps) = ps.map (·.element) := by
  cases ps <;> simp [opened]

theorem separated_map :
    separated (ps.map (·.map f)) = (separated ps).map (Piece.map f) := by
  induction ps using separated.induct with
  | case1 => rfl
  | case2 p => rfl
  | case3 p q ps ih =>
    rw [List.map_cons, List.map_cons, separated, ← List.map_cons, ih]
    rfl

theorem continued_map :
    continued (ps.map (·.map f)) = (continued ps).map (Piece.map f) := by
  cases ps with
  | nil => rfl
  | cons p ps => exact congrArg (Piece.text "," :: ·) (separated_map f (p :: ps))

end Separated

end Java.Tree

namespace DeleteArgument

open Java Tree

/-! ### Parts of the text -/

/-- The text of an argument and of the padding behind it. -/
def paddedText (p : RightPadded Tree) : List Char := text p.element ++ p.after.text.toList

/-- What is exchanged in a text where the argument with this index is deleted from some arguments.
It starts at `start`. -/
def ownDeletions (arguments : List (RightPadded Tree)) (index start : Nat) : List Exchange :=
  match index, arguments[index]?, arguments[index + 1]? with
  | 0, some p, some next =>
    [{ start, old := paddedText p ++ [','], new := [] },
      { start := start + (paddedText p ++ [',']).length
        old := next.element.lead.text.toList
        new := p.element.lead.text.toList }]
  | 0, some p, none => [{ start, old := paddedText p, new := [] }]
  | _ + 1, some p, _ => [{ start := start - 1, old := ',' :: paddedText p, new := [] }]
  | _, none, _ => []

variable (m : Matcher) (index : Nat)

/-- What is exchanged in the text of a tree where arguments are deleted. -/
def deletions (t : Tree) : List Exchange :=
  (children t).attach.zipIdx.flatMap fun ⟨⟨c, _⟩, i⟩ =>
    if loses m index t ∧ i = t.argumentPlace index then
      ownDeletions t.arguments index (offset (pieces t) i)
    else (deletions c).map (Exchange.shift (offset (pieces t) i))
termination_by t

/-- What is deleted is deleted at the call itself, where the argument is, and elsewhere below the
children. -/
theorem deletions_eq (t : Tree) :
    deletions m index t = (children t).zipIdx.flatMap fun x =>
      if loses m index t ∧ x.2 = t.argumentPlace index then
        ownDeletions t.arguments index (offset (pieces t) x.2)
      else (deletions m index x.1).map (Exchange.shift (offset (pieces t) x.2)) := by
  have hattach : (children t).zipIdx =
      (children t).attach.zipIdx.map (Prod.map Subtype.val fun i => i) := by
    conv_lhs => rw [← List.attach_map_subtype_val (children t), List.zipIdx_map]
    rfl
  rw [deletions, hattach, List.flatMap_map]
  rfl

variable {m index} {t : Tree}

/-- Where no argument is lost the texts of the children are exchanged, each in its place. -/
theorem deletions_of_not_loses (h : loses m index t = false) :
    deletions m index t = exchangesIn (deletions m index) t.lead.text.toList.length t.body := by
  have hpieces : deletions m index t = exchangesIn (deletions m index) 0 (pieces t) := by
    rw [deletions_eq, exchangesIn]
    refine List.flatMap_congr fun x _ => ?_
    rw [if_neg (by simp [h]), Nat.zero_add]
  rw [hpieces, ← Nat.zero_add t.lead.text.toList.length, ← exchangesIn_text]
  rfl

/-- In a node without children nothing is exchanged. -/
theorem deletions_of_children_eq_nil (h : children t = []) : deletions m index t = [] := by
  rw [deletions_eq, h]
  rfl

/-- What a call prints up to its parentheses. -/
def opening (t : Tree) (c : Call) : List (Piece Tree) :=
  t.front ++ [.text c.arguments.before.text, .text "("]

/-- What a call prints in front of one of its arguments. -/
def piecesBefore (t : Tree) (c : Call) (before : List (RightPadded Tree)) : List (Piece Tree) :=
  opening t c ++ opened before

/-- What a call prints behind one of its arguments and the padding of this. -/
def piecesAfter (after : List (RightPadded Tree)) : List (Piece Tree) :=
  continued after ++ [.text ")"]

section Call

variable {c : Call} {before after : List (RightPadded Tree)} {p : RightPadded Tree}

/-- What a call prints, around one of its arguments. -/
theorem body_eq_around (hcall : t.call? = some c)
    (hpadded : c.arguments.padded = before ++ p :: after) :
    t.body = piecesBefore t c before ++ .child p.element :: .text p.after.text ::
      piecesAfter after := by
  rw [body_of_call hcall, parenthesized, hpadded, separated_opened]
  simp [opening, piecesBefore, piecesAfter]

/-- The children of a call, around one of its arguments. -/
theorem children_eq_around (hcall : t.call? = some c)
    (hpadded : c.arguments.padded = before ++ p :: after) :
    children t = childrenOf (piecesBefore t c before) ++
      p.element :: childrenOf (piecesAfter after) := by
  rw [children_eq, body_eq_around hcall hpadded, childrenOf_append]
  rfl

/-- In the text of a call that loses an argument, something is exchanged in front of the argument,
in its place, and behind it. -/
theorem deletions_of_loses (h : loses m index t = true) (hcall : t.call? = some c)
    (hpadded : c.arguments.padded = before ++ p :: after) (hlength : before.length = index) :
    deletions m index t =
      exchangesIn (deletions m index) t.lead.text.toList.length (piecesBefore t c before) ++
        ownDeletions (before ++ p :: after) index
          (t.lead.text.toList.length + (chars (piecesBefore t c before)).length) ++
        exchangesIn (deletions m index)
          (t.lead.text.toList.length + (chars (piecesBefore t c before)).length +
            (paddedText p).length)
          (piecesAfter after) := by
  let ps : List (Piece Tree) := .text t.lead.text :: piecesBefore t c before
  let qs : List (Piece Tree) := .text p.after.text :: piecesAfter after
  have hpieces : pieces t = ps ++ .child p.element :: qs := by
    show .text t.lead.text :: t.body = _
    rw [body_eq_around hcall hpadded]
    rfl
  have hplace : t.argumentPlace index = (childrenOf ps).length := by
    simp [ps, opening, piecesBefore, argumentPlace, childrenOf_opened, hlength]
  have hoffset : offset (ps ++ .child p.element :: qs) (childrenOf ps).length =
      (chars ps).length := by
    rw [← Nat.add_zero (childrenOf ps).length, offset_append_add]
    rfl
  have harguments : t.arguments = before ++ p :: after := by
    rw [arguments, hcall, Option.elim_some, hpadded]
  have hsplit := flatMap_exchanges_split (deletions m index) ps qs p.element
    (ownDeletions (before ++ p :: after) index (chars ps).length)
  rw [deletions_eq, children, hpieces, hplace, harguments]
  refine (List.flatMap_congr fun x _ => ?_).trans (hsplit.trans ?_)
  · by_cases hx : x.2 = (childrenOf ps).length
    · simp [h, hx, hoffset]
    · simp [hx]
  · simp [ps, qs, paddedText, Nat.add_assoc]

end Call

/-! ### What is printed of a cut call -/

/-- Types are not printed. -/
theorem text_attribute (n : Identifier) (type : Option MethodType) :
    text (identifier (n.attribute type)) = text (identifier n) := by
  rw [Identifier.attribute.eq_def]
  split
  · rw [text_eq, text_eq]
    rfl
  · rfl

theorem receiver_map (f : Tree → Tree) (o : Option (RightPadded Tree)) :
    receiver (o.map (·.map f)) = (receiver o).map (Piece.map f) := by
  cases o <;> rfl

/-- What a call that loses an argument is printed as without it. -/
theorem chars_body_cutTree {c : Call} {before after : List (RightPadded Tree)}
    {p : RightPadded Tree} (h : loses m index t = true) (hcall : t.call? = some c)
    (hpadded : c.arguments.padded = before ++ p :: after) (hlength : before.length = index) :
    chars (cutTree m index t).body =
      chars ((opening t c).map (Piece.map (cutTree m index))) ++
        chars (separated (closeGap index (cutTree m index p.element)
          ((before ++ after).map (·.map (cutTree m index)))) ++ [.text ")"]) := by
  cases t with
  | methodInvocation n =>
    obtain rfl := Option.some.inj hcall
    have hname := (keepsForm_cutTree m index).identifier_eq n.name
    rw [cutTree_methodInvocation h hlength hpadded]
    simp [body, opening, front, parenthesized, Container.withPadded, text_attribute, receiver_map,
      hname]
  | newClass n =>
    obtain rfl := Option.some.inj hcall
    rw [cutTree_newClass h hlength hpadded]
    simp [body, opening, front, parenthesized, Container.withPadded]
  | _ => cases hcall

/-! ### The whole tree -/

section Cut

variable (m index)

/-- What is to be shown of a tree: behind the text in front of it, nothing but the deletions is
exchanged. -/
def Deleted (t : Tree) : Prop :=
  Exchanged t.lead.text.toList.length (deletions m index t) (chars t.body)
    (chars (cutTree m index t).body)

variable {m index}

theorem lead_cutTree (t : Tree) : (cutTree m index t).lead = t.lead :=
  congrArg Head.lead (head_cutTree m index t)

variable (m index) in
/-- Cutting the children of a node leaves what is printed around them. -/
theorem printsAround_cutTree : PrintsAround (cutTree m index) := by
  intro t hcall
  have hloses : loses m index t = false := by
    rw [loses, hcall]
    rfl
  rw [text_eq_append, lead_cutTree, cutTree_of_not_loses hloses,
    (keepsForm_cutTree m index).body_mapChildren]

/-- For the leading text of a tree makes no difference, its deletions are those of what it prints.
-/
theorem Deleted.exchanged_text (h : Deleted m index t) :
    Exchanged 0 (deletions m index t) (text t) (text (cutTree m index t)) := by
  rw [text_eq_append, text_eq_append, lead_cutTree]
  refine Exchanged.behind _ ?_
  rw [Nat.zero_add]
  exact h

/-- If the children of some pieces print as they should then so do the pieces. -/
theorem exchanged_pieces {ps : List (Piece Tree)} (h : ∀ c ∈ childrenOf ps, Deleted m index c)
    (n : Nat) :
    Exchanged n (exchangesIn (deletions m index) n ps) (chars ps)
      (chars (ps.map (Piece.map (cutTree m index)))) :=
  exchanged_map (fun c hc => (h c hc).exchanged_text) n

/-- A node that loses nothing prints as it should if its children do. -/
theorem deleted_of_not_loses (hchildren : ∀ c ∈ children t, Deleted m index c)
    (h : loses m index t = false) : Deleted m index t := by
  have hbody : ∀ c ∈ childrenOf t.body, Deleted m index c := hchildren
  rw [Deleted, cutTree_of_not_loses h, (keepsForm_cutTree m index).body_mapChildren,
    deletions_of_not_loses h]
  exact exchanged_pieces hbody _

section Losing

variable {c : Call} {before after : List (RightPadded Tree)} {p next first : RightPadded Tree}
  (hchildren : ∀ c ∈ children t, Deleted m index c) (h : loses m index t = true)
  (hcall : t.call? = some c)

include hchildren h hcall

/-- Of the only argument the parentheses are left. -/
theorem deleted_of_sole (hindex : index = 0) (hpadded : c.arguments.padded = [p]) :
    Deleted m index t := by
  obtain rfl := hindex
  have hpadded : c.arguments.padded = [] ++ p :: [] := hpadded
  rw [children_eq_around hcall hpadded, List.forall_mem_append, List.forall_mem_cons] at hchildren
  rw [Deleted, deletions_of_loses h hcall hpadded rfl, body_eq_around hcall hpadded,
    chars_body_cutTree h hcall hpadded rfl]
  have hexchanged := (exchanged_pieces hchildren.1 t.lead.text.toList.length).append_next
    (e := ⟨_, paddedText p, []⟩) rfl (exchanged_pieces hchildren.2.2 _)
  refine hexchanged.cast ?_ ?_ ?_
  · simp [ownDeletions]
  · simp [paddedText]
  · rw [List.append_nil, List.map_nil, closeGap, chars_append, chars_placeholder]
    simp [piecesBefore, piecesAfter, opened, continued]

/-- When the first argument goes, the next one is moved to where it was. -/
theorem deleted_of_first (hindex : index = 0) (hpadded : c.arguments.padded = p :: next :: after) :
    Deleted m index t := by
  obtain rfl := hindex
  have hpadded : c.arguments.padded = [] ++ p :: next :: after := hpadded
  let tail : List (Piece Tree) := .text next.after.text :: piecesAfter after
  have hafter : piecesAfter (next :: after) = .text "," :: .child next.element :: tail := by
    rw [piecesAfter, continued, separated_cons]
    · rfl
    · exact List.cons_ne_nil _ _
  have hclosed : separated (closeGap 0 (cutTree m 0 p.element)
        (([] ++ next :: after).map (RightPadded.map (cutTree m 0)))) =
      .child ((cutTree m 0 next.element).withLead p.element.lead) :: .text next.after.text ::
        (continued after).map (Piece.map (cutTree m 0)) := by
    rw [← continued_map, ← lead_cutTree (m := m) p.element]
    exact separated_cons _ _
  rw [children_eq_around hcall hpadded, hafter, childrenOf_text, childrenOf_child,
    List.forall_mem_append, List.forall_mem_cons, List.forall_mem_cons] at hchildren
  obtain ⟨hfront, -, hnext, htail⟩ := hchildren
  rw [Deleted, deletions_of_loses h hcall hpadded rfl, body_eq_around hcall hpadded,
    chars_body_cutTree h hcall hpadded rfl, hclosed, hafter]
  let start := t.lead.text.toList.length + (chars (piecesBefore t c [])).length +
    (paddedText p ++ [',']).length
  -- what is exchanged within the next argument is behind the text in front of it, which goes, too
  have hmoved := (Exchanged.done start []).append_next
    (e := ⟨start, next.element.lead.text.toList, p.element.lead.text.toList⟩) rfl
    ((Exchanged.shift start hnext).append (exchanged_pieces htail _))
  have hexchanged := (exchanged_pieces hfront t.lead.text.toList.length).append_next
    (e := ⟨_, paddedText p ++ [','], []⟩) rfl hmoved
  refine hexchanged.cast ?_ ?_ ?_
  · simp [ownDeletions, start, text_eq_append, Nat.add_assoc]
  · simp [paddedText, text_eq_append]
  · simp [text_withLead, piecesBefore, piecesAfter, opened, tail]

/-- Any other argument goes with the comma in front of it. -/
theorem deleted_of_later (hindex : index = before.length + 1)
    (hpadded : c.arguments.padded = first :: before ++ p :: after) : Deleted m index t := by
  obtain rfl := hindex
  have hlength : (first :: before).length = before.length + 1 := rfl
  have hcomma : piecesBefore t c (first :: before) =
      opening t c ++ separated (first :: before) ++ [.text ","] := by
    simp [piecesBefore, opened]
  have hclosed : separated (closeGap (before.length + 1) (cutTree m (before.length + 1) p.element)
        ((first :: before ++ after).map (RightPadded.map (cutTree m (before.length + 1))))) =
      (separated (first :: before) ++ continued after).map
        (Piece.map (cutTree m (before.length + 1))) := by
    have hne : (first :: before).map (RightPadded.map (cutTree m (before.length + 1))) ≠ [] :=
      List.cons_ne_nil _ _
    rw [List.map_append, List.map_append, ← separated_map, ← continued_map,
      ← separated_append _ hne]
    rfl
  rw [children_eq_around hcall hpadded, hcomma, childrenOf_append, List.forall_mem_append,
    List.forall_mem_append, List.forall_mem_cons] at hchildren
  obtain ⟨⟨hfront, -⟩, -, hrest⟩ := hchildren
  rw [Deleted, deletions_of_loses h hcall hpadded hlength, body_eq_around hcall hpadded,
    chars_body_cutTree h hcall hpadded hlength, hclosed, hcomma]
  have hexchanged := (exchanged_pieces hfront t.lead.text.toList.length).append_next
    (e := ⟨_, ',' :: paddedText p, []⟩) rfl (exchanged_pieces hrest _)
  refine hexchanged.cast ?_ ?_ ?_
  -- the exchange starts one character earlier, with the comma
  · simp [ownDeletions, exchangesIn_append, Nat.add_assoc, Nat.add_comm 1]
    omega
  · simp [paddedText]
  · simp [piecesAfter]

end Losing

/-- **The text of a cut tree** is the old one without what is deleted. -/
theorem deleted (t : Tree) : Deleted m index t := by
  induction t using induction_on_children with
  | step t ih =>
    cases h : loses m index t with
    | false => exact deleted_of_not_loses ih h
    | true =>
      obtain ⟨c, before, p, after, hcall, hpadded, hlength⟩ := exists_call_of_loses h
      cases before with
      | nil =>
        cases after with
        | nil => exact deleted_of_sole ih h hcall hlength.symm hpadded
        | cons next after => exact deleted_of_first ih h hcall hlength.symm hpadded
      | cons first before => exact deleted_of_later ih h hcall hlength.symm hpadded

end Cut

section Files

variable (m : Matcher) (index : Nat)

theorem deletions_identifier (n : Identifier) : deletions m index (.identifier n) = [] :=
  deletions_of_children_eq_nil (children_identifier n)

/-- What is exchanged in a block with one statement is exchanged in the statement. -/
theorem deletions_block {t : Tree} (ht : t.needsTerminator = true) :
    deletions m index (.block (Build.block .single [t] Build.statementLead ⟨"\n    "⟩)) =
      (deletions m index (t.withLead Build.statementLead)).map (Exchange.shift 2) := by
  rw [deletions_of_not_loses rfl]
  simp [body, Build.block, statement, RightPadded.build, ht, needsTerminator_withLead, lead, head,
    Space.text_single, Space.text_empty]

/-- So it is in a method with one statement. -/
theorem deletions_method {t : Tree} (ht : t.needsTerminator = true) :
    deletions m index (.methodDeclaration (Build.method [t])) =
      (deletions m index (t.withLead Build.statementLead)).map (Exchange.shift 15) := by
  have hempty (n : Java.Empty) : deletions m index (.empty n) = [] :=
    deletions_of_children_eq_nil (children_empty n)
  have hbody := deletions_block m index ht
  rw [Build.statementLead] at hbody
  rw [deletions_of_not_loses rfl]
  simp [body, Build.method, Build.name, Identifier.build, Build.arguments, parenthesized, separated,
    RightPadded.build, deletions_identifier, hempty, hbody, Build.statementLead, lead, head,
    Space.text_single, Space.text_empty, text_identifier, text_empty, Empty.build]

/-- So it is in a class with one such method. -/
theorem deletions_enclosingClass {t : Tree} (ht : t.needsTerminator = true) :
    deletions m index (.classDeclaration (Build.enclosingClass .empty (Build.method [t]))) =
      (deletions m index (t.withLead Build.statementLead)).map (Exchange.shift 24) := by
  have hterminator : (methodDeclaration (Build.method [t])).needsTerminator = false := rfl
  have hbody : deletions m index
        (.block (Build.enclosingClass .empty (Build.method [t])).body) =
      (deletions m index (t.withLead Build.statementLead)).map (Exchange.shift 17) := by
    rw [deletions_of_not_loses rfl]
    simp [Build.enclosingClass, body, statement, RightPadded.build, hterminator,
      deletions_method m index ht, lead, head, Space.text_single, Space.text_empty]
  simp only [Build.enclosingClass, RightPadded.build] at hbody
  rw [deletions_of_not_loses rfl]
  simp [Build.enclosingClass, body, introduced, ClassKind.keyword, RightPadded.build,
    Identifier.build, deletions_identifier, hbody, lead, head, Space.text_single, Space.text_empty,
    text_identifier]

/-- **What is exchanged in a file is exchanged in its statement.** -/
theorem deletions_unit {t : Tree} (ht : t.needsTerminator = true) :
    deletions m index (.compilationUnit (Build.unit [] [t])) =
      (deletions m index (t.withLead Build.statementLead)).map (Exchange.shift 24) := by
  rw [deletions_of_not_loses rfl]
  simp [body, Build.unit, Build.importLines, deletions_enclosingClass m index ht, lead, head,
    Space.text_empty]

end Files

/-- Where a call of two arguments loses the first, this goes with its comma, and the second is moved
to where it stood. -/
theorem deletions_invocation {m : Matcher} (select : Option Tree) (s : String) (first second : Tree)
    (methodType : Option MethodType) (lead : Space)
    (h : loses m 0 ((Build.invocation select s [first, second] methodType).withLead lead) = true) :
    deletions m 0 ((Build.invocation select s [first, second] methodType).withLead lead) =
      let receiver := lead.text.toList.length
      let start := receiver + (select.elim "" fun t => print t ++ ".").toList.length +
        s.toList.length + 1
      (select.elim [] fun t => (deletions m 0 t).map (Exchange.shift receiver)) ++
        ⟨start, text first ++ [','], []⟩ ::
        ⟨start + (text first ++ [',']).length, second.lead.text.toList, first.lead.text.toList⟩ ::
          (deletions m 0 second).map (Exchange.shift (start + (text first ++ [',']).length)) := by
  have hpadded : (Build.arguments [first, second]).padded =
      [] ++ .build first :: [.build second] := rfl
  refine (deletions_of_loses h rfl hpadded rfl).trans ?_
  cases select <;>
    simp [piecesBefore, piecesAfter, opening, front, Build.invocation, opened, continued, separated,
      Tree.receiver, deletions_identifier, text_identifier, ownDeletions, paddedText,
      Build.arguments, RightPadded.build, Identifier.build, Tree.lead, head, withLead, withHead,
      Space.text_empty, toList_print, Nat.add_assoc, Nat.add_comm, Nat.add_left_comm]

theorem print_sampleReceiver : print sampleReceiver = "b(x,y)" := by
  rw [sampleReceiver, Build.print_invocation]
  simp [Build.print_name]

theorem print_sampleArgument : print sampleArgument = "b(u,v)" := by
  rw [sampleArgument, Build.print_invocation]
  simp [Build.print_name]

/-- The text of the sample. -/
theorem text_sampleUnit : text (compilationUnit sampleUnit) =
    "class A \x7b\n    void m() \x7b\n        b(x,y).b(b(u,v), w);\n    \x7d\n\x7d\n".toList := by
  have hlast : print ((Build.name "w" none).withLead .single) = " w" :=
    String.toList_injective (text_identifier _)
  have hcall : text (sampleCall.withLead Build.statementLead) =
      "\n        b(x,y).b(b(u,v), w)".toList := by
    rw [sampleCall, Build.text_invocation]
    simp [Build.statementLead, print_sampleReceiver, print_sampleArgument, hlast]
  refine (Build.text_unit printsAround_self (t := sampleCall) rfl).trans ?_
  exact (congrArg Build.unitText hcall).trans (by decide)

/-- What is exchanged in it. -/
theorem deletions_sampleUnit :
    deletions ((sampleRecipe 0).matcher samplePattern) 0 (.compilationUnit sampleUnit) =
      [⟨35, ['x', ','], []⟩, ⟨37, [], []⟩,
        ⟨42, ['b', '(', 'u', ',', 'v', ')', ','], []⟩, ⟨49, [' '], []⟩] := by
  have hreceiver : deletions ((sampleRecipe 0).matcher samplePattern) 0 sampleReceiver =
      [⟨2, ['x', ','], []⟩, ⟨4, [], []⟩] := by
    refine (deletions_invocation none "b" (Build.name "x" none) (Build.name "y" none) none .empty
      (by decide)).trans ?_
    simp [Build.name, Identifier.build, deletions_identifier, text_identifier, Tree.lead, head,
      Space.text_empty]
  have hcall : deletions ((sampleRecipe 0).matcher samplePattern) 0
        (sampleCall.withLead Build.statementLead) =
      [⟨11, ['x', ','], []⟩, ⟨13, [], []⟩,
        ⟨18, ['b', '(', 'u', ',', 'v', ')', ','], []⟩, ⟨25, [' '], []⟩] := by
    refine (deletions_invocation (some sampleReceiver) "b" sampleArgument
      ((Build.name "w" none).withLead .single) (some sampleMethod) Build.statementLead
      (by decide)).trans ?_
    have hargument : text sampleArgument = "b(u,v)".toList :=
      congrArg String.toList print_sampleArgument
    have hlead : sampleArgument.lead = .empty := rfl
    have hlast : deletions ((sampleRecipe 0).matcher samplePattern) 0
        ((Build.name "w" none).withLead .single) = [] := deletions_identifier _ _ _
    simp [hreceiver, print_sampleReceiver, hargument, hlead, hlast, lead_withLead,
      Build.statementLead, Exchange.shift, Space.text_empty, Space.text_single]
  rw [sampleUnit, deletions_unit _ _ rfl, hcall]
  rfl

end DeleteArgument

end Lossless
