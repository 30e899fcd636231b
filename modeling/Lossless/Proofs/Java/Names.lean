import Mathlib.Data.List.DropRight
import Lossless.Java.Type
import Lossless.Proofs.Text.Pieces

/-!
# Fully qualified names taken apart

The package of a class ends at the last dot of its outermost class, so one looks forward for a
dollar sign and from there back for a dot. The name of the class is then cut off at the length of
the package, in another text than the one that was searched. That nothing is lost in between, and
that there is something to cut off, is `Lossless.Java.ClassType.taken_apart`: either there is
no package, or the name is the package, a dot, and the name of the class, of which the outermost
part holds no dot.

Two shapes deserve a thought. A name that begins with its only dot has an empty package, and keeps
the dot. And a dot behind a dollar sign does not separate packages, though simple names end there
like everywhere else.
-/

namespace Lossless.Java

/-- A text is the longest end of another one that holds neither a dollar sign nor a dot. -/
structure IsSimpleEnd (t s : List Char) : Prop where
  suffix : t <:+ s
  dollar_not_mem : '$' ∉ t
  dot_not_mem : '.' ∉ t
  longest : ∀ u, u <:+ s → '$' ∉ u → '.' ∉ u → u <:+ t

namespace QualifiedName

/-! ### The last dot -/

/-- There is nothing in front of the last `c` exactly if there is no `c`. -/
theorem beforeLast?_eq_none_iff {c : Char} {s : List Char} : beforeLast? c s = none ↔ c ∉ s := by
  induction s with
  | nil => simp [beforeLast?]
  | cons x s ih =>
    rw [beforeLast?]
    split
    · next p h => simp_all
    · next h =>
      rw [ih] at h
      by_cases hx : x = c
      · simp [hx]
      · simp [h, hx, Ne.symm hx]

/-- A text comes apart at the last `c`. -/
theorem exists_of_beforeLast? {c : Char} {s p : List Char} (h : beforeLast? c s = some p) :
    ∃ t, s = p ++ c :: t ∧ c ∉ t := by
  induction s generalizing p with
  | nil => cases h
  | cons x s ih =>
    rw [beforeLast?] at h
    split at h
    · next q hq =>
      cases h
      obtain ⟨t, rfl, ht⟩ := ih hq
      exact ⟨t, rfl, ht⟩
    · next hnone =>
      split at h
      · next hx =>
        cases h
        exact ⟨s, by rw [hx, List.nil_append], beforeLast?_eq_none_iff.1 hnone⟩
      · cases h

/-! ### The package and the class -/

variable {name : List Char}

/-- The package of a name stands in front of the first dollar sign. -/
theorem package_prefix_takeWhile (name : List Char) :
    package name <+: name.takeWhile (· ≠ '$') := by
  cases hlast : beforeLast? '.' (name.takeWhile (· ≠ '$')) with
  | none =>
    rw [package, hlast]
    exact List.nil_prefix
  | some p =>
    obtain ⟨t, ht, -⟩ := exists_of_beforeLast? hlast
    rw [package, hlast, ht]
    exact List.prefix_append ..

theorem dollar_not_mem_package (name : List Char) : '$' ∉ package name := fun h => by
  simpa using List.mem_takeWhile_imp ((package_prefix_takeWhile name).subset h)

/-- If there is a package, what is behind it is a dot and the name of the class. -/
theorem eq_package_append (h : package name ≠ []) :
    name = package name ++ '.' :: className name ∧
      '.' ∉ (className name).takeWhile (· ≠ '$') := by
  obtain ⟨outermost, houter, hdot⟩ : ∃ outermost,
      name.takeWhile (· ≠ '$') = package name ++ '.' :: outermost ∧ '.' ∉ outermost := by
    cases hlast : beforeLast? '.' (name.takeWhile (· ≠ '$')) with
    | none => exact absurd (by rw [package, hlast]; rfl) h
    | some p =>
      rw [package, hlast]
      exact exists_of_beforeLast? hlast
  have happend := List.takeWhile_append_dropWhile (p := fun c => decide (c ≠ '$')) (l := name)
  have hdollar := dollar_not_mem_package name
  rw [houter, List.append_assoc, List.cons_append] at happend
  rw [className, if_neg h]
  generalize package name = p at happend houter hdollar
  generalize outermost ++ name.dropWhile (· ≠ '$') = rest at happend
  subst happend
  have hdrop : (p ++ '.' :: rest).drop (p.length + 1) = rest := by
    rw [← List.drop_drop, List.drop_left, List.drop_one, List.tail_cons]
  -- up to the first dollar sign, too, the name is the package, a dot, and the rest
  have hrun : ∀ c ∈ p, decide (c ≠ '$') = true := fun c hc =>
    decide_eq_true fun heq => hdollar (heq ▸ hc)
  rw [List.takeWhile_append_of_pos hrun, List.takeWhile_cons_of_pos (by decide)] at houter
  rw [hdrop, List.cons.inj (List.append_cancel_left houter) |>.2]
  exact ⟨rfl, hdot⟩

/-! ### The simple name -/

/-- The simple name of a class is the end of its name behind the last separator. -/
theorem isSimpleEnd_simpleName (name : List Char) :
    IsSimpleEnd (simpleName name) (className name) where
  suffix := List.rtakeWhile_suffix ..
  dollar_not_mem h := by simpa using List.mem_rtakeWhile_imp h
  dot_not_mem h := by simpa using List.mem_rtakeWhile_imp h
  longest u hu hdollar hdot := by
    obtain ⟨before, hbefore⟩ := hu
    have hrun : ∀ c ∈ u.reverse, (c ≠ '$' && c ≠ '.') = true := fun c hc => by
      have hmem := List.mem_reverse.1 hc
      rw [Bool.and_eq_true, decide_eq_true_eq, decide_eq_true_eq]
      exact ⟨fun h => hdollar (h ▸ hmem), fun h => hdot (h ▸ hmem)⟩
    rw [simpleName, ← hbefore, List.reverse_append, List.takeWhile_append_of_pos hrun,
      List.reverse_append, List.reverse_reverse]
    exact List.suffix_append ..

end QualifiedName

/-- Behind a dot nothing changes. -/
theorem IsSimpleEnd.append_dot {t s : List Char} (h : IsSimpleEnd t s) (before : List Char) :
    IsSimpleEnd t (before ++ '.' :: s) where
  suffix := (h.suffix.trans (List.suffix_cons ..)).trans (List.suffix_append ..)
  dollar_not_mem := h.dollar_not_mem
  dot_not_mem := h.dot_not_mem
  longest u hu hdollar hdot := by
    refine h.longest u ?_ hdollar hdot
    rcases List.suffix_or_suffix_of_suffix hu (List.suffix_append before ('.' :: s)) with hu | hu
    · rcases List.suffix_cons_iff.1 hu with rfl | hu
      · exact absurd List.mem_cons_self hdot
      · exact hu
    · exact absurd (hu.subset List.mem_cons_self) hdot

namespace ClassType

variable (c : ClassType)

theorem isSimpleEnd_simpleName : IsSimpleEnd c.simpleName.toList c.className.toList := by
  rw [simpleName, className, String.toList_ofList, String.toList_ofList]
  exact QualifiedName.isSimpleEnd_simpleName _

/-- Without a package the name of a class is all of its name. -/
theorem className_of_packageName (h : c.packageName = "") :
    c.className = c.fullyQualifiedName := by
  rw [className, QualifiedName.className, if_pos (String.ofList_eq_empty_iff.1 h),
    String.ofList_toList]

/-- A name is its package, a dot, and the name of the class, which has no dot in front of its first
dollar sign. -/
theorem eq_packageName_append (h : c.packageName ≠ "") :
    c.fullyQualifiedName = c.packageName ++ "." ++ c.className ∧
      '.' ∉ c.className.toList.takeWhile (· ≠ '$') := by
  obtain ⟨hname, hdot⟩ :=
    QualifiedName.eq_package_append fun hnil => h (String.ofList_eq_empty_iff.2 hnil)
  refine ⟨?_, by rwa [className, String.toList_ofList]⟩
  rw [← String.toList_inj]
  simpa [packageName, className] using hname

/-- Behind a package there is a place in the name, one byte further on. -/
theorem isValid_behind_packageName (h : c.packageName ≠ "") :
    String.Pos.Raw.IsValid c.fullyQualifiedName ⟨c.packageName.utf8ByteSize + 1⟩ := by
  rw [String.Pos.Raw.isValid_iff_exists_append]
  refine ⟨c.packageName ++ ".", c.className, (c.eq_packageName_append h).1, ?_⟩
  rw [String.Pos.Raw.ext_iff, String.byteIdx_rawEndPos, String.utf8ByteSize_append]
  rfl

/-- **A name is taken apart without loss.** If there is a package, the name is the package, a dot
and the name of the class, so that there is a place behind the dot where the name can be cut, and
the outermost part of the name of the class holds no dot. If there is none, the name of the class is
all there is. No package holds a dollar sign, and the simple name is what is behind the last dollar
sign or dot, in the name of the class as in the whole name. -/
theorem taken_apart :
    (c.packageName = "" → c.className = c.fullyQualifiedName) ∧
      (c.packageName ≠ "" →
        c.fullyQualifiedName = c.packageName ++ "." ++ c.className ∧
          String.Pos.Raw.IsValid c.fullyQualifiedName ⟨c.packageName.utf8ByteSize + 1⟩ ∧
          '.' ∉ c.className.toList.takeWhile (· ≠ '$')) ∧
      c.packageName.toList <+: c.fullyQualifiedName.toList ∧
      '$' ∉ c.packageName.toList ∧
      IsSimpleEnd c.simpleName.toList c.className.toList ∧
      IsSimpleEnd c.simpleName.toList c.fullyQualifiedName.toList := by
  have hpackage : c.packageName.toList = QualifiedName.package c.fullyQualifiedName.toList :=
    String.toList_ofList
  refine ⟨c.className_of_packageName, fun h => ?_, ?_, ?_, c.isSimpleEnd_simpleName, ?_⟩
  · obtain ⟨hname, hdot⟩ := c.eq_packageName_append h
    exact ⟨hname, c.isValid_behind_packageName h, hdot⟩
  · rw [hpackage]
    exact (QualifiedName.package_prefix_takeWhile _).trans (List.takeWhile_prefix _)
  · rw [hpackage]
    exact QualifiedName.dollar_not_mem_package _
  · by_cases h : c.packageName = ""
    · rw [← c.className_of_packageName h]
      exact c.isSimpleEnd_simpleName
    · have hname := congrArg String.toList (c.eq_packageName_append h).1
      rw [String.toList_append, String.toList_append, List.append_assoc] at hname
      rw [hname]
      exact c.isSimpleEnd_simpleName.append_dot _

/-- A class nested in one nested in a class of a package, with a dot among their names; and a name
that begins with its only dot. -/
theorem taken_apart_nested :
    ((named "a.b.C$d.E$F").packageName = "a.b" ∧ (named "a.b.C$d.E$F").className = "C$d.E$F" ∧
      "a.b.C$d.E$F" = (named "a.b.C$d.E$F").packageName ++ "." ++
        (named "a.b.C$d.E$F").className) ∧
    ((named "a.b.C$d.E$F").simpleName = "F" ∧
      IsSimpleEnd (named "a.b.C$d.E$F").simpleName.toList "a.b.C$d.E$F".toList) ∧
    (named ".A").packageName = "" ∧ (named ".A").className = ".A" := by
  obtain ⟨-, hqualified, -, -, -, hsimple⟩ := taken_apart (named "a.b.C$d.E$F")
  exact ⟨⟨by decide, by decide, (hqualified (by decide)).1⟩, ⟨by decide, hsimple⟩, by decide,
    (taken_apart (named ".A")).1 (by decide)⟩

end ClassType

end Lossless.Java
