import Lossless.Java.Matcher
import Lossless.Proofs.Pattern.Faults

/-!
# Patterns of methods in their usual spelling

The grammar leaves it open where in a pattern there are blanks. Usually there is one between the
type and the name and one behind each comma (`Lossless.Java.spelled`). Correct parts that are
spelled like this are read as they are (`Lossless.Java.MethodPattern.parse_of_spelled`).

So each pattern can be spelled in the usual way. It then has the parts that it had, and since all
that is compared is read from the parts, nothing is matched that was not matched before
(`Lossless.Java.MethodPattern.exists_parse_spelled`).
-/

namespace Lossless.Java

/-! ### Items -/

/-- A blank behind each comma belongs to the item that follows. -/
theorem intercalate_eq_joinWith (first : List Char) (rest : List (List Char)) :
    [',', ' '].intercalate (first :: rest) = Text.joinWith ',' (first :: rest.map (' ' :: ·)) := by
  induction rest generalizing first with
  | nil => simp [Text.joinWith]
  | cons next rest ih =>
    have hnext : ' ' :: [',', ' '].intercalate (next :: rest) =
        Text.joinWith ',' ((' ' :: next) :: rest.map (' ' :: ·)) := by
      rw [Text.joinWith_cons_head, ih]
    rw [List.intercalate_cons_cons, List.map_cons, Text.joinWith, ← hnext]
    · simp
    · exact List.cons_ne_nil _ _

theorem IsParameter.trim_eq {item : List Char} (h : IsParameter item) : Text.trim item = item := by
  have htrim : Text.trim ([] ++ item ++ []) = item :=
    Text.trim_blanks_append (by simp) h.not_blank (by simp)
  simpa using htrim

theorem IsParameter.trim_blank_cons {item : List Char} (h : IsParameter item) :
    Text.trim (' ' :: item) = item := by
  have hblank : ∀ c ∈ [' '], Text.isBlank c = true := List.forall_mem_singleton.mpr rfl
  have htrim : Text.trim ([' '] ++ item ++ []) = item :=
    Text.trim_blanks_append hblank h.not_blank (by simp)
  simpa using htrim

/-- Items with a comma and a blank between them are a list of these items. -/
theorem hasItems_intercalate {items : List (List Char)}
    (h : ∀ item ∈ items, IsParameter item) :
    HasItems ([',', ' '].intercalate items) items := by
  cases items with
  | nil => exact .blank (by simp)
  | cons first rest =>
    obtain ⟨hfirst, hrest⟩ := List.forall_mem_cons.mp h
    have hmap : (first :: rest.map (' ' :: ·)).map Text.trim = first :: rest := by
      rw [List.map_cons, hfirst.trim_eq, List.map_map]
      have hmap : rest.map (Text.trim ∘ (' ' :: ·)) = rest.map fun item => item :=
        List.map_congr_left fun item hitem => (hrest item hitem).trim_blank_cons
      rw [hmap, List.map_id']
    have hcomma : ∀ piece ∈ first :: rest.map (' ' :: ·), ',' ∉ piece := by
      have hno : ∀ item, IsParameter item → ',' ∉ item := fun item hitem =>
        hitem.madeOf.not_mem (by decide) (by decide)
      rw [List.forall_mem_cons, List.forall_mem_map]
      exact ⟨hno first hfirst, fun item hitem => by simpa using hno item (hrest item hitem)⟩
    -- a blank text would be no items at all
    have hblank :
        ¬∀ c ∈ Text.joinWith ',' (first :: rest.map (' ' :: ·)), Text.isBlank c = true := by
      intro hall
      obtain ⟨c, hc⟩ := List.exists_mem_of_ne_nil first hfirst.ne_nil
      have hyes := hall c (Text.mem_joinWith List.mem_cons_self hc)
      rw [hfirst.not_blank c hc] at hyes
      cases hyes
    have hitems := HasItems.items (List.cons_ne_nil _ _) hcomma hblank
    rwa [hmap, ← intercalate_eq_joinWith] at hitems

/-! ### Parts -/

/-- A type, a name and items between parentheses. -/
def spelled (parts : PatternParts) : List Char :=
  parts.type ++ ' ' :: (parts.name ++ '(' :: ([',', ' '].intercalate parts.parameters ++ [')']))

variable {parts : PatternParts}

/-- What is spelled has the parts that were spelled. -/
theorem PatternParts.IsCorrect.hasParts (h : parts.IsCorrect) : HasParts (spelled parts) parts := by
  have hname : Text.trim ([] ++ parts.name ++ []) = parts.name :=
    Text.trim_blanks_append (by simp) h.name.not_blank (by simp)
  refine ⟨' ', parts.name, _, rfl, h.type.not_blank, by decide, h.name.paren_not_mem, ?_,
    hasItems_intercalate h.parameters⟩
  simpa using hname.symm

/-- It has no blanks around it. -/
theorem PatternParts.IsCorrect.trim_spelled (h : parts.IsCorrect) :
    Text.trim (spelled parts) = spelled parts := by
  have hclosing : Text.isBlank ')' = false := by decide
  obtain ⟨c, type, htype⟩ := List.exists_cons_of_ne_nil h.type.ne_nil
  have hc : Text.isBlank c = false := h.type.not_blank c (htype ▸ List.mem_cons_self)
  rw [Text.trim, spelled, htype, Text.trimStart, List.cons_append,
    List.dropWhile_cons_of_neg (by simp [hc]), Text.trimEnd]
  simp [hclosing]

namespace MethodPattern

/-- **A pattern in its usual spelling is read part by part.** -/
theorem parse_of_spelled {text : String} {type : TypePattern} {name : NamePattern}
    {parameters : List ParameterPattern} (h : parts.IsCorrect) (htext : text.toList = spelled parts)
    (htype : TypePattern.parse? parts.type = some type)
    (hname : NamePattern.parse? parts.name = some name)
    (hparameters : checkParameters parts.parameters = .good parameters) :
    parse text = .ok ⟨text, parts, type, name, parameters⟩ := by
  have hcheck : checkParts (spelled parts) parts = .good ⟨text, parts, type, name, parameters⟩ :=
    checkParts_eq_good_iff.mpr
      ⟨by rw [← htext, String.ofList_toList], rfl, htype, hname, hparameters⟩
  rw [parse, check, htext, h.trim_spelled]
  split
  · next hnil => simp [spelled] at hnil
  · rw [PatternParts.split?_of_hasParts h.hasParts]
    exact congrArg Validated.toExcept hcheck

/-! ### Patterns that are read -/

variable {text : String} {p : MethodPattern}

/-- The parts of a text that was read are correct. -/
theorem isCorrect_of_parse (h : parse text = .ok p) : p.parts.IsCorrect := by
  rw [← faultsOf_eq_nil_iff, ← faults_checkParts (Text.trim text.toList), checkParts_of_parse h]
  rfl

/-- **The usual spelling of a pattern.** The parts of a pattern, put together in the usual way, are
a pattern again. It has the same parts, and matches the same, for methods and for nodes, whether
overrides count or not, and whatever is done without attribution. -/
theorem exists_parse_spelled (hp : parse text = .ok p) :
    ∃ p', parse (String.ofList (spelled p.parts)) = .ok p' ∧ p'.parts = p.parts ∧
      ∀ (overrides : Bool) (fallback : Fallback),
        (∀ m : MethodType, Matcher.acceptsMethod ⟨p', overrides, fallback⟩ m =
          Matcher.acceptsMethod ⟨p, overrides, fallback⟩ m) ∧
        ∀ t : Tree, Matcher.accepts ⟨p', overrides, fallback⟩ t =
          Matcher.accepts ⟨p, overrides, fallback⟩ t := by
  obtain ⟨-, -, htype, hname, hparameters⟩ := checkParts_eq_good_iff.mp (checkParts_of_parse hp)
  refine ⟨_, parse_of_spelled (isCorrect_of_parse hp) String.toList_ofList htype hname hparameters,
    rfl, fun overrides fallback => ⟨fun m => rfl, fun t => ?_⟩⟩
  -- the text that a pattern keeps is not compared with anything
  cases t <;> rfl

/-- A pattern with blanks of several kinds between its parts. -/
theorem exists_parse_spelled_blanks :
    let p : MethodPattern := {
      text := "a..B\t* (\u00a0int,\u2003T[]... )"
      parts := ⟨"a..B".toList, ['*'], ["int".toList, "T[]...".toList]⟩
      type := .named [.segment ['a'], .skip, .segment ['B']] false 0
      name := .form ['*']
      parameters := [.exact (.named [.segment "int".toList] false 0),
        .varargs (.named [.segment ['T']] true 1)] }
    parse "  a..B\t* (\u00a0int,\u2003T[]... )\n" = .ok p ∧
      String.ofList (spelled p.parts) = "a..B *(int, T[]...)" ∧
      ∃ p', parse "a..B *(int, T[]...)" = .ok p' ∧ p'.parts = p.parts ∧
        ∀ t : Tree, Matcher.accepts ⟨p', true, .nameOnly⟩ t =
          Matcher.accepts ⟨p, true, .nameOnly⟩ t := by
  intro p
  have hp : parse "  a..B\t* (\u00a0int,\u2003T[]... )\n" = .ok p := by decide
  have hspelled : String.ofList (spelled p.parts) = "a..B *(int, T[]...)" := by decide
  obtain ⟨p', hp', hparts, hsame⟩ := exists_parse_spelled hp
  exact ⟨hp, hspelled, p', hspelled ▸ hp', hparts, (hsame true .nameOnly).2⟩

end MethodPattern

end Lossless.Java
