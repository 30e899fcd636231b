import Lossless.Space
import Lossless.Marker

/-!
# Elements and the formatting around them

A delimiter belongs to no node, so the text on its two sides is kept with the
element next to it. In `foo(a , b)` the first argument is followed by a blank that
stands before the comma: it is a `Lossless.RightPadded` element. In `a .b` the name
comes with the blank before the dot: it is `Lossless.LeftPadded`. A whole delimited
list is a `Lossless.Container`.
-/

namespace Lossless

/-- An element and the text between it and the delimiter that follows. -/
structure RightPadded (α : Type) where
  /-- What is padded. -/
  element : α
  /-- The text before the next delimiter. -/
  after : Space := .empty
  /-- Facts about the padding. -/
  markers : Markers := .empty
deriving DecidableEq, Repr

namespace RightPadded

/-- An element without padding. -/
def build {α : Type} (element : α) : RightPadded α := { element }

/-- Another element with this padding. -/
def map {α β : Type} (f : α → β) (p : RightPadded α) : RightPadded β :=
  { element := f p.element, after := p.after, markers := p.markers }

/-- This element with another text after it. -/
def withAfter {α : Type} (p : RightPadded α) (after : Space) : RightPadded α :=
  { p with after }

/-- Another element in this padding. -/
def withElement {α : Type} (p : RightPadded α) (element : α) : RightPadded α :=
  { p with element }

end RightPadded

/-- An element and the text between it and the delimiter before. -/
structure LeftPadded (α : Type) where
  /-- The text after the delimiter before. -/
  before : Space := .empty
  /-- What is padded. -/
  element : α
  /-- Facts about the padding. -/
  markers : Markers := .empty
deriving DecidableEq, Repr

namespace LeftPadded

/-- An element without padding. -/
def build {α : Type} (element : α) : LeftPadded α := { element }

/-- Another element with this padding. -/
def map {α β : Type} (f : α → β) (p : LeftPadded α) : LeftPadded β :=
  { before := p.before, element := f p.element, markers := p.markers }

/-- This element with another text before it. -/
def withBefore {α : Type} (p : LeftPadded α) (before : Space) : LeftPadded α :=
  { p with before }

/-- Another element in this padding. -/
def withElement {α : Type} (p : LeftPadded α) (element : α) : LeftPadded α :=
  { p with element }

end LeftPadded

/-- A delimited list such as `( a, b )`. -/
structure Container (α : Type) where
  /-- The text before the opening delimiter. -/
  before : Space := .empty
  /-- The elements, each with the text before its separator or the closing delimiter. -/
  padded : List (RightPadded α) := []
  /-- Facts about the list. -/
  markers : Markers := .empty
deriving DecidableEq, Repr

namespace Container

variable {α β : Type}

/-- The list without elements and without formatting. -/
def empty : Container α := {}

instance : Inhabited (Container α) := ⟨empty⟩

/-- How many elements there are. -/
def size (c : Container α) : Nat := c.padded.length

/-- Is there no element? -/
def isEmpty (c : Container α) : Bool := c.padded.isEmpty

/-- The elements without their padding. -/
def elements (c : Container α) : List α := c.padded.map (·.element)

/-- The list with other elements, each in its own padding. -/
def map (f : α → β) (c : Container α) : Container β :=
  { before := c.before, padded := c.padded.map (·.map f), markers := c.markers }

/-- The list with another text before it. -/
def withBefore (c : Container α) (before : Space) : Container α := { c with before }

/-- The list with other padded elements. -/
def withPadded (c : Container α) (padded : List (RightPadded α)) : Container α :=
  { c with padded }

/-- Puts elements into the paddings at hand, one by one. Where there are more
elements the rest gets none; paddings left over are dropped. -/
def repad : List (RightPadded α) → List α → List (RightPadded α)
  | _, [] => []
  | [], a :: as => .build a :: repad [] as
  | p :: ps, a :: as => p.withElement a :: repad ps as

/-- The list with other elements in the paddings it has. -/
def withElements (c : Container α) (elements : List α) : Container α :=
  c.withPadded (repad c.padded elements)

end Container

/-! ### Padding and element apart -/

section Apart

variable {α β : Type} (b : β)

/-- An element with a text behind it is given by that text and the element. -/
theorem RightPadded.ext_map {p q : RightPadded α} (h : p.map (fun _ => b) = q.map fun _ => b)
    (he : p.element = q.element) : p = q := by
  cases p; cases q; simp_all [RightPadded.map]

/-- An element with a text in front is given by that text and the element. -/
theorem LeftPadded.ext_map {p q : LeftPadded α} (h : p.map (fun _ => b) = q.map fun _ => b)
    (he : p.element = q.element) : p = q := by
  cases p; cases q; simp_all [LeftPadded.map]

theorem RightPadded.list_ext_map {ps qs : List (RightPadded α)}
    (h : ps.map (·.map fun _ => b) = qs.map (·.map fun _ => b))
    (he : ps.map (·.element) = qs.map (·.element)) : ps = qs := by
  induction ps generalizing qs with
  | nil => cases qs <;> simp_all
  | cons p ps ih =>
    cases qs with
    | nil => simp at h
    | cons q qs =>
      simp only [List.map_cons, List.cons.injEq] at h he
      rw [RightPadded.ext_map b h.1 he.1, ih h.2 he.2]

/-- A list in delimiters is given by its paddings and its elements. -/
theorem Container.ext_map {c d : Container α} (h : c.map (fun _ => b) = d.map fun _ => b)
    (he : c.elements = d.elements) : c = d := by
  cases c; cases d
  simp only [Container.map, Container.elements, Container.mk.injEq] at h he ⊢
  exact ⟨h.1, RightPadded.list_ext_map b h.2.1 he, h.2.2⟩

theorem RightPadded.option_ext_map {o o' : Option (RightPadded α)}
    (h : o.map (·.map fun _ => b) = o'.map (·.map fun _ => b))
    (he : o.map (·.element) = o'.map (·.element)) : o = o' := by
  cases o <;> cases o' <;> simp_all
  exact RightPadded.ext_map b h he

theorem LeftPadded.option_ext_map {o o' : Option (LeftPadded α)}
    (h : o.map (·.map fun _ => b) = o'.map (·.map fun _ => b))
    (he : o.map (·.element) = o'.map (·.element)) : o = o' := by
  cases o <;> cases o' <;> simp_all
  exact LeftPadded.ext_map b h he

end Apart

end Lossless
