import Mathlib.Data.List.Forall2
import Lossless.Proofs.Pattern.MethodGrammar

/-!
# Parameters, position by position

The patterns of parameters are compared with the parameters of a method from the first to the last,
and one that stands for any number of parameters takes all that are left. Here this is said without
an order. Each parameter is compared with one pattern, the one that covers its position
(`Lossless.Java.covering?`), and that it matches is a matter of these two alone
(`Lossless.Java.ParameterPattern.acceptsOne`). So the parameters match just if there is the right
number of them and each matches the pattern that covers it
(`Lossless.Java.ParameterPattern.acceptAll_iff`).

This holds for patterns in which only the last stands for any number. That is so for all that are
read (`Lossless.Java.MethodPattern.IsRead`).
-/

namespace Lossless.Java

/-! ### Positions -/

section Positions

variable {α β : Type}

/-- The entry that covers a position: the one that stands there, or behind the end the last, if
this stands for any number of entries. -/
def covering? (isTrailing : α → Bool) (entries : List α) (i : Nat) : Option α :=
  entries[i]?.or (entries.getLast?.filter isTrailing)

variable {isTrailing : α → Bool}

theorem covering?_cons_succ {a : α} {as : List α} (h : as = [] → isTrailing a = false) (i : Nat) :
    covering? isTrailing (a :: as) (i + 1) = covering? isTrailing as i := by
  cases as with
  | nil => simp [covering?, h rfl]
  | cons b as => rw [covering?, List.getElem?_cons_succ, List.getLast?_cons_cons, covering?]

/-- A single trailing parameter covers all places. -/
theorem covering?_singleton {a : α} (h : isTrailing a = true) (i : Nat) :
    covering? isTrailing [a] i = some a := by
  cases i with
  | zero => rfl
  | succ i => simp [covering?, h]

section Pairs

variable {R : α → β → Prop} {as : List α} {bs : List β} (h : List.Forall₂ R as bs)

include h

theorem exists_getElem?_of_forall₂ {i : Nat} {a : α} (ha : as[i]? = some a) :
    ∃ b, bs[i]? = some b ∧ R a b := by
  induction h generalizing i with
  | nil => cases ha
  | @cons a' b' as bs hab hrest ih =>
    cases i with
    | zero =>
      obtain rfl := Option.some.inj ha
      exact ⟨b', rfl, hab⟩
    | succ i => exact ih ha

theorem exists_getLast?_of_forall₂ {a : α} (ha : as.getLast? = some a) :
    ∃ b, bs.getLast? = some b ∧ R a b := by
  rw [List.getLast?_eq_getElem?] at ha ⊢
  rw [← h.length_eq]
  exact exists_getElem?_of_forall₂ h ha

/-- Entries that go together cover the same positions. -/
theorem exists_covering?_of_forall₂ {isTrailing' : β → Bool}
    (hR : ∀ a b, R a b → isTrailing a = isTrailing' b) {i : Nat} {a : α}
    (ha : covering? isTrailing as i = some a) :
    ∃ b, covering? isTrailing' bs i = some b ∧ R a b := by
  rcases Option.or_eq_some_iff.mp ha with ha | ⟨hnone, ha⟩
  · obtain ⟨b, hb, hab⟩ := exists_getElem?_of_forall₂ h ha
    exact ⟨b, by rw [covering?, hb, Option.some_or], hab⟩
  · obtain ⟨hlast, htrailing⟩ := Option.filter_eq_some_iff.mp ha
    obtain ⟨b, hb, hab⟩ := exists_getLast?_of_forall₂ h hlast
    have hnone : bs[i]? = none := by
      rwa [List.getElem?_eq_none_iff, ← h.length_eq, ← List.getElem?_eq_none_iff]
    rw [hR a b hab] at htrailing
    exact ⟨b, by rw [covering?, hnone, hb, Option.none_or, Option.filter_some_pos htrailing], hab⟩

end Pairs

end Positions

namespace ParameterPattern

/-! ### What patterns of parameters are read from -/

/-- A text, and the pattern that it is read as. -/
inductive Reads : List Char → ParameterPattern → Prop
  /-- One parameter, `*`. -/
  | any : Reads ['*'] .any
  /-- Any parameters, `..`. -/
  | anyTrailing : Reads ['.', '.'] .anyTrailing
  /-- A list of arguments, `T...`. -/
  | varargs {t : List Char} {type : TypePattern} (ht : TypePattern.parse? t = some type) :
      Reads (t ++ ['.', '.', '.']) (.varargs type)
  /-- Any number of these types, `T..`. -/
  | trailing {t : List Char} {type : TypePattern} (ht : TypePattern.parse? t = some type) :
      Reads (t ++ ['.', '.']) (.trailing type)
  /-- One of these types, `T`. -/
  | exact {t : List Char} {type : TypePattern} (ht : TypePattern.parse? t = some type)
      (hstar : t ≠ ['*']) : Reads t (.exact type)

/-- **Patterns of parameters are read as their kinds.** -/
theorem parse?_eq_some_iff {item : List Char} {q : ParameterPattern} :
    parse? item = some q ↔ Reads item q := by
  constructor
  · intro h
    rcases parse?_cases item with rfl | rfl | ⟨t, rfl⟩ | ⟨t, c, rfl, hlast, hc⟩ | ⟨hstar, hdots⟩
    · obtain rfl := Option.some.inj h
      exact .any
    · obtain rfl := Option.some.inj h
      exact .anyTrailing
    · rw [parse?_varargs] at h
      obtain ⟨type, ht, rfl⟩ := Option.map_eq_some_iff.mp h
      exact .varargs ht
    · rw [parse?_trailing hlast hc] at h
      obtain ⟨type, ht, rfl⟩ := Option.map_eq_some_iff.mp h
      exact .trailing ht
    · rw [parse?_exact hstar hdots] at h
      obtain ⟨type, ht, rfl⟩ := Option.map_eq_some_iff.mp h
      exact .exact ht hstar
  · rintro (_ | _ | ⟨ht⟩ | ⟨ht⟩ | ⟨ht, hstar⟩)
    · rfl
    · rfl
    · rw [parse?_varargs, ht]
      rfl
    · obtain ⟨c, hlast, hc⟩ := (TypePattern.isTypePattern_of_parse? ht).getLast?
      rw [parse?_trailing hlast hc, ht]
      rfl
    · rw [parse?_exact hstar fun s hs => ?_, ht]
      · rfl
      · exact (TypePattern.isTypePattern_of_parse? ht).ne_append_dot (s ++ ['.'])
          (by simpa using hs)

/-! ### Which parameters match -/

/-- Does a parameter of this signature match a pattern that covers it? -/
def acceptsOne : ParameterPattern → List Char → Bool
  | .any, _ | .anyTrailing, _ => true
  | .exact type, s | .trailing type, s => type.accepts s
  | .varargs element, s =>
    (TypePattern.dropDimensions? 1 s.reverse).any fun e => element.accepts e.reverse

/-- Can a method with so many parameters match? -/
def countFits (ps : List ParameterPattern) (count : Nat) : Bool :=
  if ps.getLast?.any isTrailing then ps.length ≤ count + 1 else count = ps.length

variable {p : ParameterPattern} {ps : List ParameterPattern} {s : List Char}
  {ss : List (List Char)}

/-- A trailing parameter accepts all types that are left. -/
theorem acceptAll_trailing (hp : p.isTrailing = true) :
    acceptAll (p :: ps) ss = ss.all p.acceptsOne := by
  cases p with
  | anyTrailing => simp [acceptAll, acceptsOne]
  | trailing type => rfl
  | _ => cases hp

theorem acceptAll_cons_nil (hp : p.isTrailing = false) : acceptAll (p :: ps) [] = false := by
  cases p with
  | any | exact type | varargs element => rfl
  | _ => cases hp

/-- Otherwise the first parameter accepts the first type and the others the rest. -/
theorem acceptAll_cons_cons (hp : p.isTrailing = false) :
    acceptAll (p :: ps) (s :: ss) = (p.acceptsOne s && acceptAll ps ss) := by
  cases p with
  | any | exact type | varargs element => rfl
  | _ => cases hp

theorem countFits_cons_zero (h : p.isTrailing = false) : countFits (p :: ps) 0 = false := by
  cases ps with
  | nil => simp [countFits, h]
  | cons q ps => simp [countFits]

/-- The numbers fit if those of the rest do. -/
theorem countFits_cons_succ (h : p.isTrailing = false) (count : Nat) :
    countFits (p :: ps) (count + 1) = countFits ps count := by
  cases ps with
  | nil => simp [countFits, h]
  | cons q ps => simp [countFits, List.getLast?_cons_cons]

theorem countFits_singleton (h : p.isTrailing = true) (count : Nat) :
    countFits [p] count = true := by
  simp [countFits, h]

/-- As many parameters as there are patterns are always enough. -/
theorem countFits_length (ps : List ParameterPattern) : countFits ps ps.length = true := by
  rw [countFits]
  split <;> simp

/-- If the number of parameters is right, each of them is covered. -/
theorem exists_covering? {count i : Nat} (h : countFits ps count = true) (hi : i < count) :
    ∃ q, covering? isTrailing ps i = some q := by
  rw [countFits] at h
  split at h
  · next htrailing =>
    obtain ⟨q, hq, hqtrailing⟩ := (Option.any_eq_true _ _).mp htrailing
    by_cases hlt : i < ps.length
    · exact ⟨ps[i], by simp [covering?, List.getElem?_eq_getElem hlt]⟩
    · exact ⟨q, by simp [covering?, List.getElem?_eq_none (not_lt.mp hlt), hq, hqtrailing]⟩
  · obtain rfl := of_decide_eq_true h
    exact ⟨ps[i], by simp [covering?, List.getElem?_eq_getElem hi]⟩

/-- **Parameters match if their number is right and each matches what covers it.** -/
theorem acceptAll_iff (hps : ∀ q ∈ ps.dropLast, q.isTrailing = false) :
    acceptAll ps ss = true ↔ countFits ps ss.length = true ∧
      ∀ i q s, covering? isTrailing ps i = some q → ss[i]? = some s → q.acceptsOne s = true := by
  induction ps generalizing ss with
  | nil => simp [acceptAll, countFits, covering?]
  | cons p ps ih =>
    by_cases hp : p.isTrailing = true
    · -- nothing follows a pattern for any number
      obtain rfl : ps = [] := by
        cases ps with
        | nil => rfl
        | cons q ps => rw [hps p (by simp)] at hp; cases hp
      rw [acceptAll_trailing hp, List.all_eq_true, countFits_singleton hp]
      simp only [covering?_singleton hp, true_and, Option.some.injEq]
      constructor
      · rintro h i q s rfl hs
        exact h s (List.mem_of_getElem? hs)
      · intro h s hs
        obtain ⟨i, hi⟩ := List.mem_iff_getElem?.mp hs
        exact h i p s rfl hi
    · have hp : p.isTrailing = false := Bool.eq_false_iff.mpr hp
      have hps : ∀ q ∈ ps.dropLast, q.isTrailing = false := fun q hq => by
        cases ps with
        | nil => cases hq
        | cons r ps => exact hps q (List.mem_cons_of_mem _ hq)
      cases ss with
      | nil => simp [acceptAll_cons_nil hp, countFits_cons_zero hp]
      | cons s ss =>
        rw [acceptAll_cons_cons hp, Bool.and_eq_true, ih hps, List.length_cons,
          countFits_cons_succ hp, and_left_comm]
        refine and_congr_right fun _ => ⟨?_, fun h => ⟨h 0 p s rfl rfl, fun i q t hq ht => ?_⟩⟩
        · rintro ⟨hs, hrest⟩ i q t hq ht
          cases i with
          | zero =>
            obtain rfl := Option.some.inj hq
            obtain rfl := Option.some.inj ht
            exact hs
          | succ i =>
            rw [covering?_cons_succ fun _ => hp] at hq
            exact hrest i q t hq ht
        · exact h (i + 1) q t (by rwa [covering?_cons_succ fun _ => hp]) ht

end ParameterPattern

/-! ### What is read -/

/-- The parts of a pattern are what it was read from. -/
structure MethodPattern.IsRead (p : MethodPattern) : Prop where
  type : TypePattern.parse? p.parts.type = some p.type
  name : NamePattern.parse? p.parts.name = some p.name
  parameters : List.Forall₂ (fun item q => ParameterPattern.parse? item = some q)
    p.parts.parameters p.parameters
  /-- Only the last parameter stands for any number. -/
  trailing : ∀ q ∈ p.parameters.dropLast, q.isTrailing = false

namespace MethodPattern

/-- A parameter without a fault is read, and trailing only if it is the last one. -/
theorem checkParameter_eq_good {isLast : Bool} {item : List Char} {q : ParameterPattern}
    (h : checkParameter isLast item = .good q) :
    ParameterPattern.parse? item = some q ∧ (isLast = false → q.isTrailing = false) := by
  rw [checkParameter] at h
  cases hparse : ParameterPattern.parse? item with
  | none => simp [hparse] at h
  | some r =>
    simp only [hparse] at h
    split at h
    · cases h
    · next hplace =>
      cases h
      refine ⟨rfl, ?_⟩
      rintro rfl
      simpa using hplace

/-- Parameters without faults are read one by one, and only the last may be trailing. -/
theorem checkParameters_eq_good {items : List (List Char)} {ps : List ParameterPattern}
    (h : checkParameters items = .good ps) :
    List.Forall₂ (fun item q => ParameterPattern.parse? item = some q) items ps ∧
      ∀ q ∈ ps.dropLast, q.isTrailing = false := by
  induction items generalizing ps with
  | nil =>
    cases h
    exact ⟨.nil, by simp⟩
  | cons item rest ih =>
    obtain ⟨f, ps, hf, hrest, rfl⟩ := Validated.seq_eq_good.mp h
    obtain ⟨q, hitem, rfl⟩ := Validated.map_eq_good.mp hf
    obtain ⟨hparse, hplace⟩ := checkParameter_eq_good hitem
    obtain ⟨hread, htrailing⟩ := ih hrest
    refine ⟨.cons hparse hread, ?_⟩
    cases hread with
    | nil => simp
    | cons _ _ =>
      rw [List.dropLast_cons_cons]
      exact List.forall_mem_cons.mpr ⟨hplace rfl, htrailing⟩

/-- **A pattern that was read was read part by part.** -/
theorem isRead_of_parse {text : String} {p : MethodPattern} (h : parse text = .ok p) :
    p.IsRead := by
  obtain ⟨-, -, htype, hname, hps⟩ := checkParts_eq_good_iff.mp (checkParts_of_parse h)
  obtain ⟨hread, htrailing⟩ := checkParameters_eq_good hps
  exact ⟨htype, hname, hread, htrailing⟩

variable {p : MethodPattern} (h : p.IsRead)

include h

/-- The text of the pattern that covers a position covers it among the texts. -/
theorem IsRead.exists_item {i : Nat} {q : ParameterPattern}
    (hq : covering? ParameterPattern.isTrailing p.parameters i = some q) :
    ∃ item, covering? (decide <| IsTrailing ·) p.parts.parameters i = some item ∧
      ParameterPattern.parse? item = some q := by
  refine exists_covering?_of_forall₂ h.parameters.flip (fun q item hparse => ?_) hq
  exact Bool.eq_iff_iff.mpr
    (((ParameterPattern.parse?_spec item).2 q hparse).trans decide_eq_true_iff.symm)

/-- The item that covers a place is read as the parameter that covers it. -/
theorem IsRead.exists_parse?_item {i : Nat} {item : List Char}
    (hitem : covering? (decide <| IsTrailing ·) p.parts.parameters i = some item) :
    ∃ q, covering? ParameterPattern.isTrailing p.parameters i = some q ∧
      ParameterPattern.parse? item = some q := by
  refine exists_covering?_of_forall₂ h.parameters (fun item q hparse => ?_) hitem
  exact Bool.eq_iff_iff.mpr
    (decide_eq_true_iff.trans ((ParameterPattern.parse?_spec item).2 q hparse).symm)

end MethodPattern

end Lossless.Java
