import Lossless.Proofs.Precondition.Cancellation

/-!
# What keys tell

Answers are remembered by key, so preconditions with one key have to have one value. If this
holds for the tests it need not hold for what is made of them: the key of a combination is put
together from the keys of its parts, and a comma within one of these can be taken for the comma
between them (`Lossless.Precondition.key_misread`). Then one combination is given the answer of
the other.

The memo makes no difference to a family of preconditions just if equal keys stand for equal
values there, and two questions are enough to notice if they do not. Commas do no harm within
parentheses: if the keys of the tests have no others (`Lossless.Precondition.isDelimited`), then
the key of a combination can be read as a combination in one way only. All that can still go
wrong is that a test bears this key, too (`Lossless.Precondition.corresponds_of_key_eq`,
`Lossless.Precondition.keysTell_madeOf`).
-/

namespace Lossless.Precondition

variable {ω : Type}

/-! ### What is made of tests -/

/-- A precondition is made of such tests. -/
def MadeOf (leaf : Test ω → Prop) (p : Precondition ω) : Prop := ∀ t, .test t ∈ p.parts → leaf t

/-- Is a precondition more than a test? -/
def isCombined : Precondition ω → Bool
  | .test _ => false
  | _ => true

/-- The parts of a part are parts. -/
theorem parts_subset {p q : Precondition ω} (h : q ∈ p.parts) : q.parts ⊆ p.parts := by
  induction p with
  | test t =>
    obtain rfl := List.mem_singleton.mp h
    exact List.Subset.refl _
  | either p₁ p₂ ih₁ ih₂ | both p₁ p₂ ih₁ ih₂ =>
    rcases List.mem_cons.mp h with rfl | h
    · exact List.Subset.refl _
    · refine List.subset_cons_of_subset _ ?_
      rcases List.mem_append.mp h with h | h
      · exact List.subset_append_of_subset_left _ (ih₁ h)
      · exact List.subset_append_of_subset_right _ (ih₂ h)
  | not p ih =>
    rcases List.mem_cons.mp h with rfl | h
    · exact List.Subset.refl _
    · exact List.subset_cons_of_subset _ (ih h)

section MadeOf

variable {leaf : Test ω → Prop} {p q : Precondition ω} {t : Test ω}

theorem madeOf_test : MadeOf leaf (.test t) ↔ leaf t :=
  ⟨fun h => h t (self_mem_parts _), fun h u hu => by
    obtain rfl := Precondition.test.inj (List.mem_singleton.mp hu)
    exact h⟩

theorem madeOf_either : MadeOf leaf (.either p q) ↔ MadeOf leaf p ∧ MadeOf leaf q := by
  simp only [MadeOf, parts, List.mem_cons, List.mem_append, reduceCtorEq, false_or, or_imp,
    forall_and]

theorem madeOf_both : MadeOf leaf (.both p q) ↔ MadeOf leaf p ∧ MadeOf leaf q := by
  simp only [MadeOf, parts, List.mem_cons, List.mem_append, reduceCtorEq, false_or, or_imp,
    forall_and]

theorem madeOf_not : MadeOf leaf (.not p) ↔ MadeOf leaf p := by
  simp only [MadeOf, parts, List.mem_cons, reduceCtorEq, false_or]

/-- What a precondition is made of, its parts are made of. -/
theorem MadeOf.of_mem_parts (h : MadeOf leaf p) (hq : q ∈ p.parts) : MadeOf leaf q :=
  fun t ht => h t (parts_subset hq ht)

end MadeOf

/-! ### Questions -/

/-- Asks one question after the other. -/
def askAll (asked : List (Precondition ω × Source)) : StateM (Context ω) (List Bool) :=
  asked.mapM fun question => question.1.applies question.2

section Questions

variable {leaf : Test ω → Prop} {answer : Test ω → Source → Bool} {p q : Precondition ω}
  {s : Source}
  {c : Context ω}

/-- The first question is asked first, and what it leaves behind is there for the others. -/
theorem askAll_cons (p : Precondition ω) (s : Source) (asked : List (Precondition ω × Source))
    (c : Context ω) : (askAll ((p, s) :: asked) c).1 =
      (p.applies s c).1 :: (askAll asked (p.applies s c).2).1 := by
  rw [askAll, List.mapM_cons]
  rfl

section

variable (ht : ∀ t, leaf t → t.Answers (answer t)) (hcalm : ∀ t, leaf t → t.Calm)

include ht hcalm in
/-- As long as keys tell, each question is given its value. -/
theorem askAll_eq_map_value (hkeys : KeysTell answer (MadeOf leaf))
    {asked : List (Precondition ω × Source)} (hasked : ∀ question ∈ asked, MadeOf leaf question.1)
    (hc : c.isCancelled = false) (hmemo : c.shared.memo.Truthful answer (MadeOf leaf)) :
    (askAll asked c).1 = asked.map fun question => question.1.value answer question.2 := by
  have ht' : ∀ t, MadeOf leaf (.test t) → t.Answers (answer t) :=
    fun t h => ht t (madeOf_test.mp h)
  induction asked generalizing c with
  | nil => rfl
  | cons question asked ih =>
    obtain ⟨p, s⟩ := question
    have hp : MadeOf leaf p := hasked (p, s) List.mem_cons_self
    have hparts : ∀ q ∈ p.parts, MadeOf leaf q := fun q => hp.of_mem_parts
    have happlied := applied ht' hkeys hparts s hmemo
    have hc' : (p.applies s c).2.isCancelled = false := by
      rw [applies_isCancelled fun t htest => hcalm t (hp t htest), hc]
    rw [askAll_cons, List.map_cons, happlied.found hc',
      ih (fun question h => hasked question (List.mem_cons_of_mem _ h)) hc'
        (hmemo.of_grown hkeys hparts happlied.grown)]

include hcalm in
/-- After one question a second one with its key is given the same answer. -/
theorem askAll_pair (hp : MadeOf leaf p) (hkey : p.key = q.key) (hc : c.isCancelled = false)
    (hnone : c.answer? p.key s = none) : ∃ a, (askAll [(p, s), (q, s)] c).1 = [a, a] := by
  have hc : (p.applies s c).2.isCancelled = false := by
    rw [applies_isCancelled fun t htest => hcalm t (hp t htest), hc]
  have heval : p.evaluate s c = ((p.evaluate s c).1, (p.evaluate s c).2) := rfl
  cases hc' : (p.evaluate s c).2.isCancelled with
  | true =>
    rw [applies, memoized_of_cancelled hnone heval hc'] at hc
    rw [hc] at hc'
    cases hc'
  | false =>
    have hfirst : p.applies s c = _ := memoized_of_none hnone heval hc'
    have hstored := Memo.answer?_store_self (p.evaluate s c).2.shared.memo p.key s
      (p.evaluate s c).1
    have hsecond : q.applies s (p.applies s c).2 = ((p.evaluate s c).1, (p.applies s c).2) := by
      refine memoized_of_some ?_
      rw [hfirst, ← hkey]
      exact hstored
    refine ⟨(p.evaluate s c).1, ?_⟩
    rw [askAll_cons, askAll_cons, hsecond, hfirst]
    rfl

end

end Questions

/-! ### Reading keys -/

/-- How many parentheses are open behind this character. -/
def depthAfter (d : Nat) (c : Char) : Nat :=
  if c = '(' then d + 1 else if c = ')' then d - 1 else d

/-- Where no parenthesis is open, could a part end before this character? -/
def endsPart (c : Char) (cs : List Char) : Bool := c = ')' || (c = ',' && cs.head? = some ' ')

/-- With `d` parentheses open to the left: is each one closed, and could no part end before the
end? -/
def isDelimited : Nat → List Char → Bool
  | d, [] => d = 0
  | d, c :: cs => !(d = 0 && endsPart c cs) && isDelimited (depthAfter d c) cs

/-- What is closed within can be followed by what closes the rest. -/
theorem isDelimited_append {d e : Nat} {a b : List Char} (ha : isDelimited e a = true)
    (hb : isDelimited (d + 1) b = true) : isDelimited (e + d + 1) (a ++ b) = true := by
  induction a generalizing e with
  | nil =>
    obtain rfl : e = 0 := of_decide_eq_true ha
    rwa [Nat.zero_add]
  | cons c cs ih =>
    rw [isDelimited, Bool.and_eq_true] at ha
    have hdepth : depthAfter (e + d + 1) c = depthAfter e c + d + 1 := by
      -- a closing parenthesis has its opening one among the `e`, so it is not taken from the `d`
      have hclosing : c = ')' → e ≠ 0 := by
        rintro rfl rfl
        simp [endsPart] at ha
      by_cases hopen : c = '('
      · simp only [depthAfter, if_pos hopen]
        omega
      · simp only [depthAfter, if_neg hopen]
        split
        next hclose =>
          have := hclosing hclose
          omega
        next => rfl
    rw [List.cons_append, isDelimited, hdepth, ih ha.2]
    simp

/-- Nothing that is delimited begins with such a comma. -/
theorem eq_nil_of_append_comma {b x y : List Char} (hb : isDelimited 0 b = true)
    (h : ',' :: ' ' :: x = b ++ ',' :: ' ' :: y) : b = [] := by
  match b, h with
  | [], _ => rfl
  | [c], h => exact absurd (List.cons.inj (List.cons.inj h).2).1 (by decide)
  | c :: c' :: cs, h =>
    obtain ⟨rfl, hrest⟩ := List.cons.inj h
    obtain ⟨rfl, -⟩ := List.cons.inj hrest
    cases hb

/-- A list is cut at its first comma outside of parentheses. -/
theorem append_comma_inj {d : Nat} {a b x y : List Char} (ha : isDelimited d a = true)
    (hb : isDelimited d b = true) (h : a ++ ',' :: ' ' :: x = b ++ ',' :: ' ' :: y) :
    a = b ∧ x = y := by
  induction a generalizing d b with
  | nil =>
    obtain rfl : d = 0 := of_decide_eq_true ha
    obtain rfl := eq_nil_of_append_comma hb h
    exact ⟨rfl, (List.cons.inj (List.cons.inj h).2).2⟩
  | cons c cs ih =>
    cases b with
    | nil =>
      obtain rfl : d = 0 := of_decide_eq_true hb
      cases eq_nil_of_append_comma ha h.symm
    | cons c' cs' =>
      rw [isDelimited, Bool.and_eq_true] at ha hb
      obtain ⟨rfl, hrest⟩ := List.cons.inj h
      obtain ⟨rfl, rfl⟩ := ih ha.2 hb.2 hrest
      exact ⟨rfl, rfl⟩

/-- A precondition has a key that can be put into the key of another one. -/
def IsDelimited (p : Precondition ω) : Prop := isDelimited 0 p.key.toList = true

instance : DecidablePred (IsDelimited (ω := ω)) := fun p =>
  inferInstanceAs (Decidable (isDelimited 0 p.key.toList = true))

theorem toList_key_either (p q : Precondition ω) : (either p q).key.toList =
    "or(".toList ++ (p.key.toList ++ ',' :: ' ' :: (q.key.toList ++ [')'])) := by
  simp [key]

theorem toList_key_both (p q : Precondition ω) : (both p q).key.toList =
    "and(".toList ++ (p.key.toList ++ ',' :: ' ' :: (q.key.toList ++ [')'])) := by
  simp [key]

theorem toList_key_not (p : Precondition ω) :
    (not p).key.toList = "not(".toList ++ (p.key.toList ++ [')']) := by
  simp [key]

section Delimited

variable {leaf : Test ω → Prop} {answer : Test ω → Source → Bool} {p p' q q' : Precondition ω}
  {op : List Char}

/-- The key of a combination of two is cut at the comma between their keys. -/
theorem keys_eq_of_combined (hp : p.IsDelimited) (hp' : p'.IsDelimited)
    (h : op ++ (p.key.toList ++ ',' :: ' ' :: (q.key.toList ++ [')'])) =
      op ++ (p'.key.toList ++ ',' :: ' ' :: (q'.key.toList ++ [')']))) :
    p.key = p'.key ∧ q.key = q'.key := by
  obtain ⟨hfirst, hsecond⟩ := append_comma_inj hp hp' (List.append_cancel_left h)
  exact ⟨String.toList_inj.mp hfirst, String.toList_inj.mp (List.append_cancel_right hsecond)⟩

theorem isDelimited_inner {cs : List Char} (h : isDelimited 0 cs = true) :
    isDelimited 1 (cs ++ [')']) = true := isDelimited_append (d := 0) h rfl

/-- The keys of two parts, with the comma between them, are delimited within the parentheses of the
whole. -/
theorem isDelimited_pair {a b : List Char} (ha : isDelimited 0 a = true)
    (hb : isDelimited 0 b = true) : isDelimited 1 (a ++ ',' :: ' ' :: (b ++ [')'])) = true :=
  isDelimited_append (d := 0) ha (b := ',' :: ' ' :: (b ++ [')'])) (isDelimited_inner hb)

/-- What is made of tests with such keys has such a key. -/
theorem MadeOf.isDelimited (hp : MadeOf leaf p) (hleaf : ∀ t, leaf t → (test t).IsDelimited) :
    p.IsDelimited := by
  induction p with
  | test t => exact hleaf t (madeOf_test.mp hp)
  | either p q ihp ihq =>
    have hp := madeOf_either.mp hp
    rw [IsDelimited, toList_key_either]
    exact isDelimited_pair (ihp hp.1) (ihq hp.2)
  | both p q ihp ihq =>
    have hp := madeOf_both.mp hp
    rw [IsDelimited, toList_key_both]
    exact isDelimited_pair (ihp hp.1) (ihq hp.2)
  | not p ih =>
    rw [IsDelimited, toList_key_not]
    exact isDelimited_inner (ih (madeOf_not.mp hp))

/-- Two preconditions are made in the same way of parts that are related. -/
inductive Corresponds (same : Precondition ω → Precondition ω → Prop) :
    Precondition ω → Precondition ω → Prop
  /-- Two parts. -/
  | part {p q : Precondition ω} (h : same p q) : Corresponds same p q
  /-- One of two. -/
  | either {p p' q q' : Precondition ω} (hp : Corresponds same p p') (hq : Corresponds same q q') :
      Corresponds same (.either p q) (.either p' q')
  /-- Both of two. -/
  | both {p p' q q' : Precondition ω} (hp : Corresponds same p p') (hq : Corresponds same q q') :
      Corresponds same (.both p q) (.both p' q')
  /-- A negation. -/
  | not {p p' : Precondition ω} (hp : Corresponds same p p') : Corresponds same (.not p) (.not p')

/-- A correspondence of parts that are related in one way is one of parts that are related in
another. -/
theorem Corresponds.mono {same same' : Precondition ω → Precondition ω → Prop}
    (h : Corresponds same p q) (himp : ∀ p q, same p q → same' p q) : Corresponds same' p q := by
  induction h with
  | part h => exact .part (himp _ _ h)
  | either _ _ ihp ihq => exact .either ihp ihq
  | both _ _ ihp ihq => exact .both ihp ihq
  | not _ ih => exact .not ih

/-- What corresponds has the same value, if the parts have. -/
theorem Corresponds.value_eq {same : Precondition ω → Precondition ω → Prop} {s : Source}
    (h : Corresponds same p q)
    (hsame : ∀ p q, same p q → p.value answer s = q.value answer s) :
    p.value answer s = q.value answer s := by
  induction h with
  | part h => exact hsame _ _ h
  | either _ _ ihp ihq | both _ _ ihp ihq => rw [value, value, ihp, ihq]
  | not _ ih => rw [value, value, ih]

/-- Two preconditions share a key, and one of them is a test. -/
structure SharesKey (leaf : Test ω → Prop) (p q : Precondition ω) : Prop where
  left : MadeOf leaf p
  right : MadeOf leaf q
  isTest : p.isCombined = false ∨ q.isCombined = false
  key_eq : p.key = q.key

/-- **A key is read back**, down to where it is the key of a test. -/
theorem corresponds_of_key_eq (hdelimited : ∀ t, leaf t → (test t).IsDelimited)
    (hp : MadeOf leaf p) (hq : MadeOf leaf q) (hkey : p.key = q.key) :
    Corresponds (SharesKey leaf) p q := by
  have hlist := congrArg String.toList hkey
  induction p generalizing q with
  | test t => exact .part ⟨hp, hq, .inl rfl, hkey⟩
  | either p₁ p₂ ih₁ ih₂ =>
    cases q with
    | test u => exact .part ⟨hp, hq, .inr rfl, hkey⟩
    | either q₁ q₂ =>
      have hp := madeOf_either.mp hp
      have hq := madeOf_either.mp hq
      rw [toList_key_either, toList_key_either] at hlist
      obtain ⟨hkey₁, hkey₂⟩ := keys_eq_of_combined (hp.1.isDelimited hdelimited)
        (hq.1.isDelimited hdelimited) hlist
      exact .either (ih₁ hp.1 hq.1 hkey₁ (congrArg _ hkey₁))
        (ih₂ hp.2 hq.2 hkey₂ (congrArg _ hkey₂))
    -- the operators have different names, even different first letters
    | both q₁ q₂ => simp [toList_key_either, toList_key_both] at hlist
    | not q => simp [toList_key_either, toList_key_not] at hlist
  | both p₁ p₂ ih₁ ih₂ =>
    cases q with
    | test u => exact .part ⟨hp, hq, .inr rfl, hkey⟩
    | either q₁ q₂ => simp [toList_key_either, toList_key_both] at hlist
    | both q₁ q₂ =>
      have hp := madeOf_both.mp hp
      have hq := madeOf_both.mp hq
      rw [toList_key_both, toList_key_both] at hlist
      obtain ⟨hkey₁, hkey₂⟩ := keys_eq_of_combined (hp.1.isDelimited hdelimited)
        (hq.1.isDelimited hdelimited) hlist
      exact .both (ih₁ hp.1 hq.1 hkey₁ (congrArg _ hkey₁))
        (ih₂ hp.2 hq.2 hkey₂ (congrArg _ hkey₂))
    | not q => simp [toList_key_both, toList_key_not] at hlist
  | not p ih =>
    cases q with
    | test u => exact .part ⟨hp, hq, .inr rfl, hkey⟩
    | either q₁ q₂ => simp [toList_key_either, toList_key_not] at hlist
    | both q₁ q₂ => simp [toList_key_both, toList_key_not] at hlist
    | not q =>
      rw [toList_key_not, toList_key_not] at hlist
      have hinner := List.append_cancel_right (List.append_cancel_left hlist)
      exact .not (ih (madeOf_not.mp hp) (madeOf_not.mp hq) (String.toList_inj.mp hinner) hinner)

/-- If the key of a test is that of a combination, then the two have one value. -/
def LeavesTell (answer : Test ω → Source → Bool) (leaf : Test ω → Prop) : Prop :=
  ∀ t, leaf t → ∀ p, MadeOf leaf p → p.isCombined = true → p.key = t.key →
    ∀ s, p.value answer s = answer t s

/-- Whatever bears the key of a test has its value. -/
theorem LeavesTell.value_eq (hcombined : LeavesTell answer leaf)
    (hleaf : ∀ t u, leaf t → leaf u → t.key = u.key → ∀ s, answer t s = answer u s) {t : Test ω}
    (ht : leaf t) (hp : MadeOf leaf p) (hkey : p.key = t.key) (s : Source) :
    p.value answer s = answer t s := by
  cases p with
  | test u => exact hleaf u t (madeOf_test.mp hp) ht hkey s
  | either p q | both p q | not p => exact hcombined t ht _ hp rfl hkey s

/-- Keys of tests that are delimited are found again in the keys of combinations. -/
theorem LeavesTell.keysTell (hcombined : LeavesTell answer leaf)
    (hdelimited : ∀ t, leaf t → (test t).IsDelimited)
    (hleaf : ∀ t u, leaf t → leaf u → t.key = u.key → ∀ s, answer t s = answer u s) :
    KeysTell answer (MadeOf leaf) := by
  intro p q hp hq hkey s
  refine (corresponds_of_key_eq hdelimited hp hq hkey).value_eq fun p q h => ?_
  cases p with
  | test t => exact (hcombined.value_eq hleaf (madeOf_test.mp h.left) h.right h.key_eq.symm s).symm
  | either p₁ p₂ | both p₁ p₂ | not p =>
    cases q with
    | test u => exact hcombined.value_eq hleaf (madeOf_test.mp h.right) h.left h.key_eq s
    | either q₁ q₂ | both q₁ q₂ | not q => exact absurd h.isTest (by simp [isCombined])

end Delimited

/-! ### When keys tell -/

/-- **When keys tell.** The memo makes no difference to the questions of a family just if equal
keys stand for equal values. If the keys of the tests are delimited, this comes down to the tests:
none of them bears the key of a combination with another value. -/
theorem keysTell_madeOf (outside : ω) {leaf : Test ω → Prop} {answer : Test ω → Source → Bool}
    (ht : ∀ t, leaf t → t.Answers (answer t)) (hcalm : ∀ t, leaf t → t.Calm)
    (hleaf : ∀ t u, leaf t → leaf u → t.key = u.key → ∀ s, answer t s = answer u s) :
    (KeysTell answer (MadeOf leaf) ↔
        ∀ asked : List (Precondition ω × Source), (∀ question ∈ asked, MadeOf leaf question.1) →
          (askAll asked { shared := { outside } }).1 =
            asked.map fun question => question.1.value answer question.2) ∧
      ((∀ t, leaf t → (test t).IsDelimited) →
        (KeysTell answer (MadeOf leaf) ↔ LeavesTell answer leaf)) := by
  refine ⟨⟨fun hkeys asked hasked => ?_, fun hplain p q hp hq hkey s => ?_⟩,
    fun hdelimited => ⟨fun hkeys t ht p hp _ hkey s => ?_,
      fun hcombined => hcombined.keysTell hdelimited hleaf⟩⟩
  · exact askAll_eq_map_value ht hcalm hkeys hasked rfl Memo.truthful_empty
  · obtain ⟨a, ha⟩ := askAll_pair (c := { shared := { outside } }) (s := s) hcalm hp hkey rfl rfl
    have hvalues := ha.symm.trans (hplain [(p, s), (q, s)] (by simp [hp, hq]))
    simp only [List.map_cons, List.cons.injEq] at hvalues
    rw [← hvalues.1, ← hvalues.2.1]
  · exact hkeys p (.test t) hp (madeOf_test.mpr ht) hkey s

/-- Tests that always give one answer. -/
def constantTests (answers : List (String × Bool)) : List Test :=
  answers.map fun test => constantTest test.1 test.2 false

theorem answers_and_calm_of_mem_constantTests {answers : List (String × Bool)} {t : Test}
    (h : t ∈ constantTests answers) : t.Answers (answerAnew t) ∧ t.Calm := by
  obtain ⟨⟨name, answer⟩, -, rfl⟩ := List.mem_map.mp h
  exact ⟨answers_constantTest name answer false, calm_constantTest name answer⟩

/-- Two tests with commas in their keys, but only within parentheses. -/
def callTests : List Test := constantTests [("calls(a, b)", true), ("calls(a)", false)]

theorem keysTell_madeOf_callTests :
    (∀ t ∈ callTests, t.Answers (answerAnew t)) ∧ (∀ t ∈ callTests, t.Calm) ∧
      (∀ t ∈ callTests, (test t).IsDelimited) ∧ KeysTell answerAnew (MadeOf (· ∈ callTests)) ∧
      ∀ asked : List (Precondition × Source),
        (∀ question ∈ asked, MadeOf (· ∈ callTests) question.1) →
          (askAll asked {}).1 =
            asked.map fun question => question.1.value answerAnew question.2 := by
  have ht : ∀ t ∈ callTests, t.Answers (answerAnew t) :=
    fun t h => (answers_and_calm_of_mem_constantTests h).1
  have hcalm : ∀ t ∈ callTests, t.Calm := fun t h => (answers_and_calm_of_mem_constantTests h).2
  have hleaf : ∀ t u, t ∈ callTests → u ∈ callTests → t.key = u.key →
      ∀ s, answerAnew t s = answerAnew u s := by
    intro t u ht hu hkey s
    have hnodup : (callTests.map Test.key).Nodup := by decide
    rw [List.inj_on_of_nodup_map hnodup ht hu hkey]
  have hdelimited : ∀ t ∈ callTests, (test t).IsDelimited := by decide
  have hcombined : LeavesTell answerAnew (· ∈ callTests) := by
    -- the names of the operators do not begin with a `c`
    have hhead : ∀ t ∈ callTests, t.key.toList.head? = some 'c' := by decide
    intro t htest p _ hp hkey
    have hhead := hhead t htest
    cases p with
    | test u => cases hp
    | either p q => simp [← hkey, toList_key_either] at hhead
    | both p q => simp [← hkey, toList_key_both] at hhead
    | not p => simp [← hkey, toList_key_not] at hhead
  obtain ⟨hasked, htell⟩ := keysTell_madeOf () ht hcalm hleaf
  have hkeys := (htell hdelimited).mpr hcombined
  exact ⟨ht, hcalm, hdelimited, hkeys, hasked.mp hkeys⟩

/-- Tests with commas in their keys that are not within parentheses. -/
def listTests : List Test :=
  constantTests [("a", false), ("b, c", false), ("a, b", true), ("c", false)]

/-- The first test or the second one. -/
def readFirst : Precondition :=
  .either (.test (constantTest "a" false false)) (.test (constantTest "b, c" false false))

/-- The third test or the last one. -/
def readLater : Precondition :=
  .either (.test (constantTest "a, b" true false)) (.test (constantTest "c" false false))

/-- **Two combinations share a key.** No two of their tests do, but the combination that is asked
about later is given the answer of the other. -/
theorem key_misread :
    (∀ t ∈ listTests, t.Answers (answerAnew t) ∧ t.Calm) ∧ (listTests.map Test.key).Nodup ∧
      MadeOf (· ∈ listTests) readFirst ∧ MadeOf (· ∈ listTests) readLater ∧
      readFirst.key = readLater.key ∧ ¬KeysTell answerAnew (MadeOf (· ∈ listTests)) ∧
      (askAll [(readFirst, .java {}), (readLater, .java {})] {}).1 = [false, false] ∧
      [readFirst, readLater].map (·.value answerAnew (.java {})) = [false, true] := by
  have hfirst : MadeOf (· ∈ listTests) readFirst := by
    simp [readFirst, madeOf_either, madeOf_test, listTests, constantTests]
  have hlater : MadeOf (· ∈ listTests) readLater := by
    simp [readLater, madeOf_either, madeOf_test, listTests, constantTests]
  have hkey : readFirst.key = readLater.key := by decide
  refine ⟨fun t h => answers_and_calm_of_mem_constantTests h, by decide, hfirst, hlater, hkey,
    fun hkeys => ?_, by decide, by decide⟩
  cases hkeys readFirst readLater hfirst hlater hkey (.java {})

end Lossless.Precondition
