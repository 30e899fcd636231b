import Mathlib.Data.List.Nodup
import Mathlib.Logic.Relation
import Lossless.Java.Matcher

/-!
# What a class inherits from

The ancestry of a class is listed with a stack of classes that are still to be looked at. Here the
list is compared with two plainer things. One is a recursion along the declarations
(`Lossless.Java.ClassType.listed`): a class, then what its supertype adds, then what each of its
interfaces adds. They give the same list (`Lossless.Java.ClassType.ancestryFrom_eq`), since a
stack is listed from its top on, and what a class puts there is listed before the rest.

The other is the relation between a class and what it inherits from
(`Lossless.Java.ClassType.Inherits`). Everything listed is inherited from. The converse can fail,
because names are compared and not classes: of two classes of one name the second is passed over,
and what it alone inherits from with it. Where names tell the classes apart
(`Lossless.Java.ClassType.NamesTell`), only what is listed already is passed over. So whatever a
listed class declares is listed or still on the stack (`Lossless.Java.ClassType.Pending`), and in
the end, when the stack is empty, nothing is missing.
-/

namespace Lossless.Java.ClassType

open Relation

/-! ### The recursive walk -/

mutual

/-- Lists a class and what it inherits from behind the classes listed already: the class, then its
supertype, then its interfaces in their order. Classes whose name is listed are passed over. -/
def listed (seen : List ClassType) : ClassType → List ClassType
  | ⟨name, kind, flags, supertype, interfaces⟩ =>
    if seen.any (·.fullyQualifiedName = name) then seen
    else
      listedAll (listedOption (seen ++ [⟨name, kind, flags, supertype, interfaces⟩]) supertype)
        interfaces

/-- Lists what an optional class adds. -/
def listedOption (seen : List ClassType) : Option ClassType → List ClassType
  | none => seen
  | some c => listed seen c

/-- Lists what one class after the other adds. -/
def listedAll (seen : List ClassType) : List ClassType → List ClassType
  | [] => seen
  | c :: cs => listedAll (listed seen c) cs

end

/-- Types are listed one after the other. -/
theorem listedAll_append (seen cs ds : List ClassType) :
    listedAll seen (cs ++ ds) = listedAll (listedAll seen cs) ds := by
  induction cs generalizing seen with
  | nil => rfl
  | cons c cs ih => exact ih (listed seen c)

/-- A type that has not been seen is listed in front of what it inherits from. -/
theorem listed_eq (seen : List ClassType) (c : ClassType) :
    listed seen c = if seen.any (·.fullyQualifiedName = c.fullyQualifiedName) then seen
      else listedAll (seen ++ [c]) c.parents := by
  obtain ⟨name, kind, flags, supertype, interfaces⟩ := c
  rw [listed, parents, listedAll_append]
  cases supertype <;> rfl

/-- **A stack is listed from its top on.** -/
theorem ancestryFrom_eq (seen stack : List ClassType) :
    ancestryFrom seen stack = listedAll seen stack := by
  induction seen, stack using ancestryFrom.induct with
  | case1 seen => rw [ancestryFrom, listedAll]
  | case2 seen c stack h ih => rw [ancestryFrom, if_pos h, ih, listedAll, listed_eq, if_pos h]
  | case3 seen c stack h ih =>
    rw [ancestryFrom, if_neg h, ih, listedAll_append, listedAll, listed_eq, if_neg h]

/-! ### Names -/

theorem not_mem_names {seen : List ClassType} {c : ClassType}
    (h : ¬seen.any (·.fullyQualifiedName = c.fullyQualifiedName) = true) :
    c.fullyQualifiedName ∉ seen.map (·.fullyQualifiedName) := by
  simpa using h

/-- What is listed stays at the front. -/
theorem prefix_ancestryFrom (seen stack : List ClassType) : seen <+: ancestryFrom seen stack := by
  induction seen, stack using ancestryFrom.induct with
  | case1 seen => simp only [ancestryFrom, List.prefix_rfl]
  | case2 seen c stack h ih => rwa [ancestryFrom, if_pos h]
  | case3 seen c stack h ih =>
    rw [ancestryFrom, if_neg h]
    exact (List.prefix_append seen [c]).trans ih

/-- The ancestry of a type begins with the type itself. -/
theorem exists_ancestry_eq_cons (c : ClassType) : ∃ rest, c.ancestry = c :: rest := by
  obtain ⟨rest, hrest⟩ := prefix_ancestryFrom [c] (c.parents ++ [])
  refine ⟨rest, ?_⟩
  rw [ancestry, ancestryFrom, if_neg (by simp), List.nil_append, ← hrest, List.singleton_append]

theorem self_mem_ancestry (c : ClassType) : c ∈ c.ancestry := by
  obtain ⟨rest, hrest⟩ := c.exists_ancestry_eq_cons
  rw [hrest]
  exact List.mem_cons_self

/-- No name comes twice if none did before. -/
theorem nodup_names_ancestryFrom {seen : List ClassType} (stack : List ClassType)
    (h : (seen.map (·.fullyQualifiedName)).Nodup) :
    ((ancestryFrom seen stack).map (·.fullyQualifiedName)).Nodup := by
  induction seen, stack using ancestryFrom.induct with
  | case1 seen => rwa [ancestryFrom]
  | case2 seen c stack hseen ih =>
    rw [ancestryFrom, if_pos hseen]
    exact ih h
  | case3 seen c stack hseen ih =>
    rw [ancestryFrom, if_neg hseen]
    refine ih ?_
    rw [List.map_append, List.map_singleton, ← List.concat_eq_append]
    exact h.concat (not_mem_names hseen)

/-! ### Inheritance -/

/-- A class is another one or inherits from it, directly or through classes between them. -/
def Inherits : ClassType → ClassType → Prop := ReflTransGen fun c d => d ∈ c.parents

/-- Classes of one name that a class inherits from are the same class. -/
def NamesTell (c : ClassType) : Prop :=
  ∀ d e, c.Inherits d → c.Inherits e → d.fullyQualifiedName = e.fullyQualifiedName → d = e

/-- What a class inherits from is in every list with it that leaves out no parent. -/
theorem Inherits.mem {c d : ClassType} (h : c.Inherits d) {cs : List ClassType} (hc : c ∈ cs)
    (hclosed : ∀ a ∈ cs, ∀ b ∈ a.parents, b ∈ cs) : d ∈ cs := by
  induction h with
  | refl => exact hc
  | tail _ hparent ih => exact hclosed _ ih _ hparent

/-- Nothing is listed but what was listed and what the stack inherits from. -/
theorem forall_mem_ancestryFrom {P : ClassType → Prop} (hP : ∀ a, P a → ∀ b ∈ a.parents, P b)
    {seen stack : List ClassType} (hseen : ∀ a ∈ seen, P a) (hstack : ∀ a ∈ stack, P a) :
    ∀ a ∈ ancestryFrom seen stack, P a := by
  induction seen, stack using ancestryFrom.induct with
  | case1 seen => rwa [ancestryFrom]
  | case2 seen c stack h ih =>
    rw [ancestryFrom, if_pos h]
    exact ih hseen (List.forall_mem_cons.mp hstack).2
  | case3 seen c stack h ih =>
    rw [ancestryFrom, if_neg h]
    obtain ⟨hc, hstack⟩ := List.forall_mem_cons.mp hstack
    refine ih (List.forall_mem_append.mpr ⟨hseen, List.forall_mem_singleton.mpr hc⟩) ?_
    exact List.forall_mem_append.mpr ⟨hP c hc, hstack⟩

/-- Whatever is in the ancestry of a type is inherited from. -/
theorem inherits_of_mem_ancestry {c d : ClassType} (h : d ∈ c.ancestry) : c.Inherits d :=
  forall_mem_ancestryFrom (P := c.Inherits) (fun _ ha _ hb => ha.tail hb) (by simp)
    (List.forall_mem_singleton.mpr .refl) d h

/-- The parents of what is listed are listed, or they are still on the stack. -/
def Pending (seen stack : List ClassType) : Prop :=
  ∀ a ∈ seen, ∀ b ∈ a.parents, b ∈ seen ∨ b ∈ stack

/-- In the end the parents of what is listed are listed. -/
theorem Pending.closed {P : ClassType → Prop} (hP : ∀ a, P a → ∀ b ∈ a.parents, P b)
    (hnames : ∀ a b, P a → P b → a.fullyQualifiedName = b.fullyQualifiedName → a = b)
    {seen stack : List ClassType} (hseen : ∀ a ∈ seen, P a) (hstack : ∀ a ∈ stack, P a)
    (h : Pending seen stack) :
    ∀ a ∈ ancestryFrom seen stack, ∀ b ∈ a.parents, b ∈ ancestryFrom seen stack := by
  induction seen, stack using ancestryFrom.induct with
  | case1 seen =>
    rw [ancestryFrom]
    exact fun a ha b hb => (h a ha b hb).resolve_right List.not_mem_nil
  | case2 seen c stack hany ih =>
    rw [ancestryFrom, if_pos hany]
    obtain ⟨hc, hstack⟩ := List.forall_mem_cons.mp hstack
    -- what is passed over is the listed class of its name
    have hmem : c ∈ seen := by
      obtain ⟨d, hd, hname⟩ := List.any_eq_true.mp hany
      rwa [← hnames d c (hseen d hd) hc (of_decide_eq_true hname)]
    refine ih hseen hstack fun a ha b hb => ?_
    rcases h a ha b hb with hb | hb
    · exact .inl hb
    · rcases List.mem_cons.mp hb with rfl | hb
      · exact .inl hmem
      · exact .inr hb
  | case3 seen c stack hany ih =>
    rw [ancestryFrom, if_neg hany]
    obtain ⟨hc, hstack⟩ := List.forall_mem_cons.mp hstack
    refine ih (List.forall_mem_append.mpr ⟨hseen, List.forall_mem_singleton.mpr hc⟩)
      (List.forall_mem_append.mpr ⟨hP c hc, hstack⟩) fun a ha b hb => ?_
    rw [List.mem_append, List.mem_singleton] at ha
    rw [List.mem_append, List.mem_append, List.mem_singleton]
    rcases ha with ha | rfl
    · rcases h a ha b hb with hb | hb
      · exact .inl (.inl hb)
      · rcases List.mem_cons.mp hb with rfl | hb
        · exact .inl (.inr rfl)
        · exact .inr (.inr hb)
    · exact .inr (.inl hb)

/-- **Everything that a class inherits from is listed**, if names tell the classes apart. -/
theorem NamesTell.mem_ancestry_iff {c : ClassType} (h : c.NamesTell) {d : ClassType} :
    d ∈ c.ancestry ↔ c.Inherits d := by
  refine ⟨inherits_of_mem_ancestry, fun hd => hd.mem c.self_mem_ancestry ?_⟩
  have hpending : Pending [] [c] := fun a ha => absurd ha List.not_mem_nil
  exact hpending.closed (P := c.Inherits) (fun _ ha _ hb => ha.tail hb) h (by simp)
    (List.forall_mem_singleton.mpr .refl)

/-- **The ancestry of a class.** It is what the recursive walk lists; the class comes first, and
no name is listed twice. If names tell apart the classes that are inherited from, these are the
classes of the list. Then a class can be assigned to just the names that it inherits from, and a
matcher for which overrides count accepts a method just if its name and its parameters match and
its class inherits from one that the pattern of types accepts. -/
theorem ancestry_spec (c : ClassType) :
    c.ancestry = listed [] c ∧ (∃ rest, c.ancestry = c :: rest) ∧
      (c.ancestry.map (·.fullyQualifiedName)).Nodup ∧
      (c.NamesTell →
        (∀ d, d ∈ c.ancestry ↔ c.Inherits d) ∧
        (∀ name, c.isAssignableTo name = true ↔
          ∃ d, c.Inherits d ∧ d.fullyQualifiedName = name) ∧
        ∀ (m : Matcher) (type : MethodType), m.overrides = true → type.declaringType = c →
          (m.acceptsMethod type = true ↔
            m.pattern.name.accepts type.name = true ∧
              ParameterPattern.acceptAll m.pattern.parameters
                (type.parameterTypes.map (·.signature.toList)) = true ∧
              ∃ d, c.Inherits d ∧ m.pattern.type.accepts d.signature.toList = true)) := by
  refine ⟨ancestryFrom_eq [] [c], c.exists_ancestry_eq_cons,
    nodup_names_ancestryFrom [c] List.nodup_nil, fun hnames => ?_⟩
  refine ⟨fun d => hnames.mem_ancestry_iff, fun name => ?_, ?_⟩
  · simp only [isAssignableTo, List.any_eq_true, hnames.mem_ancestry_iff, decide_eq_true_eq]
  · rintro m type hoverrides rfl
    simp only [Matcher.acceptsMethod, MethodPattern.accepts, hoverrides, if_true, Bool.and_eq_true,
      List.any_eq_true, hnames.mem_ancestry_iff, and_assoc]

/-- An interface that others extend. -/
def topInterface : ClassType := { fullyQualifiedName := "a.Top", kind := .interfaceKind }

/-- A class that extends one and implements an interface, and both inherit from the same. -/
def diamond : ClassType where
  fullyQualifiedName := "a.Diamond"
  supertype := some { fullyQualifiedName := "a.Left", interfaces := [topInterface] }
  interfaces :=
    [{ fullyQualifiedName := "a.Right", kind := .interfaceKind, interfaces := [topInterface] }]

/-- The calls of `a.Top b()`. -/
def callsOfTop : Matcher where
  pattern :=
    { text := "a.Top b()"
      parts := ⟨"a.Top".toList, ['b'], []⟩
      type := .named [.segment ['a'], .segment "Top".toList] false 0
      name := .form ['b']
      parameters := [] }

/-- The interface at the top is reached twice and listed once, and a method of the class at the
bottom counts as one of it. -/
theorem ancestry_spec_diamond :
    diamond.NamesTell ∧
      diamond.ancestry.map (·.fullyQualifiedName) = ["a.Diamond", "a.Left", "a.Top", "a.Right"] ∧
      diamond.isAssignableTo "a.Top" = true ∧
      MethodPattern.parse "a.Top b()" = .ok callsOfTop.pattern ∧ callsOfTop.overrides = true ∧
      callsOfTop.acceptsMethod (.named diamond "b") = true := by
  obtain ⟨hlisted, -, -, hspec⟩ := ancestry_spec diamond
  -- the list is closed, so only its four classes have to be compared
  have hnames : diamond.NamesTell := by
    have hmem : ∀ d, diamond.Inherits d → d ∈ listed [] diamond := fun d hd =>
      hd.mem (by decide) (by decide)
    have htell : ∀ d ∈ listed [] diamond, ∀ e ∈ listed [] diamond,
        d.fullyQualifiedName = e.fullyQualifiedName → d = e := by decide
    exact fun d e hd he => htell d (hmem d hd) e (hmem e he)
  obtain ⟨hmem, hassignable, haccepts⟩ := hspec hnames
  have htop : diamond.Inherits topInterface := (hmem topInterface).mp (by rw [hlisted]; decide)
  refine ⟨hnames, by rw [hlisted]; decide, (hassignable "a.Top").mpr ⟨_, htop, rfl⟩, by decide, rfl,
    (haccepts callsOfTop (.named diamond "b") rfl rfl).mpr ?_⟩
  exact ⟨by decide, by decide, topInterface, htop, by decide⟩

/-- Where two classes have one name, what only the second inherits from is not found. -/
example :
    let unrelated : ClassType := { fullyQualifiedName := "a.Left", interfaces := [topInterface] }
    (listed [] { fullyQualifiedName := "a.Bottom"
                 supertype := some (.named "a.Left")
                 interfaces := [unrelated] }).map (·.fullyQualifiedName) =
      ["a.Bottom", "a.Left"] := by
  decide

end Lossless.Java.ClassType

namespace Lossless.Java.MethodPattern

/-- Overrides only add to what is accepted. -/
theorem accepts_of_declaringType {p : MethodPattern} {m : MethodType}
    (hname : p.name.accepts m.name = true)
    (hall : ParameterPattern.acceptAll p.parameters
      (m.parameterTypes.map (·.signature.toList)) = true)
    (hdeclaring : p.type.accepts m.declaringType.signature.toList = true) (overrides : Bool) :
    p.accepts overrides m = true := by
  rw [accepts, hname, hall, Bool.true_and, Bool.true_and]
  refine List.any_eq_true.mpr ⟨m.declaringType, ?_, hdeclaring⟩
  split
  · exact m.declaringType.self_mem_ancestry
  · exact List.mem_singleton_self _

end Lossless.Java.MethodPattern
