import Lossless.Proofs.Pattern.Faults
import Lossless.Proofs.Precondition.Keys

/-!
# Keys of tests for calls

In general a key does not tell how a precondition was made
(`Lossless.Precondition.key_misread`). If all tests look for calls it does. Such a key has
commas in it, those of the parameters of a pattern, but they are within the parentheses of the
pattern, and these again within the parentheses of the test. So the only comma that is outside of
all parentheses is the one that an operator wrote (`Lossless.Precondition.isDelimited_usesMethod`),
and no test begins like an operator does.

That is why a key can be read back: the preconditions that share one have the same shape
(`Lossless.Precondition.Corresponds`), and tests that stand in the same place have the same key,
from which the pattern, the setting for overrides and the way to fall back can be told. The text of
a pattern says what it matches, so nothing is left in which the two could differ.
-/

namespace Lossless

/-! ### The parentheses of a pattern -/

namespace Java

/-- A list of parameters has no parentheses in it. -/
theorem IsParameterList.not_mem {list : List Char} (h : IsParameterList list) {c : Char}
    (hblank : Text.isBlank c = false) (hword : Text.isWordChar c = false) (hmark : c ∉ typeMarks)
    (hcomma : c ≠ ',') : c ∉ list := by
  cases h with
  | blank h => exact Text.not_mem_of_blank hblank h
  | items hne hitems hlast =>
    intro hmem
    rcases Text.mem_of_mem_joinWith hmem with hc | ⟨piece, hpiece, hc⟩
    · exact hcomma hc
    · exact (hitems piece hpiece).not_mem_piece hblank hword hmark hc

/-- A text that is read as a pattern is one of the grammar. -/
theorem MethodPattern.isMethodPattern_text {s : String} {p : MethodPattern}
    (h : parse s = .ok p) : IsMethodPattern p.text.toList := by
  rw [text_of_parse h, String.toList_ofList]
  rcases faults_check s with ⟨hpattern, -⟩ | ⟨-, hfails⟩
  · exact hpattern
  · rw [Validated.toExcept_eq_ok.mp h] at hfails
    exact absurd rfl hfails.ne_nil

end Java

open Java

namespace Precondition

variable {ω : Type}

/-! ### Tests for calls are delimited -/

/-- A text without parentheses changes no depth. Outside of all parentheses it must not have a
comma either. -/
theorem isDelimited_append_left {d : Nat} {s : List Char} (hopen : '(' ∉ s) (hclose : ')' ∉ s)
    (hcomma : d = 0 → ',' ∉ s) (rest : List Char) :
    isDelimited d (s ++ rest) = isDelimited d rest := by
  induction s with
  | nil => rfl
  | cons c s ih =>
    rw [List.mem_cons, not_or] at hopen hclose
    have hdepth : depthAfter d c = d := by
      rw [depthAfter, if_neg (Ne.symm hopen.1), if_neg (Ne.symm hclose.1)]
    have hends : (decide (d = 0) && endsPart c (s ++ rest)) = false := by
      rw [Bool.and_eq_false_iff, decide_eq_false_iff_not]
      refine or_iff_not_imp_left.mpr fun hd => ?_
      have hc : c ≠ ',' := fun hc => hcomma (not_not.mp hd) (hc ▸ List.mem_cons_self)
      simp [endsPart, hc, Ne.symm hclose.1]
    rw [List.cons_append, isDelimited, hends, hdepth, Bool.not_false, Bool.true_and]
    exact ih hopen.2 hclose.2 fun hd hmem => hcomma hd (List.mem_cons_of_mem _ hmem)

/-- In the text of a pattern the parentheses match, and the commas are between them. -/
theorem isDelimited_of_isMethodPattern {text : List Char} (h : IsMethodPattern text) :
    isDelimited 0 text = true := by
  cases h with
  | @parts type blanks name space list htype _ hblanks hname hspace hlist =>
    have hfront : ∀ {c : Char}, Text.isBlank c = false → Text.isWordChar c = false →
        c ∉ typeMarks → c ∉ ['$', '*', '<', '>'] → c ∉ type ++ blanks ++ name ++ space := by
      intro c hblank hword htypes hnames
      simp only [List.mem_append, not_or]
      exact ⟨⟨⟨htype.madeOf.not_mem hword htypes, Text.not_mem_of_blank hblank hblanks⟩,
        hname.madeOf.not_mem hword hnames⟩, Text.not_mem_of_blank hblank hspace⟩
    have hopen : '(' ∉ type ++ blanks ++ name ++ space :=
      hfront (by decide) (by decide) (by decide) (by decide)
    have hclose : ')' ∉ type ++ blanks ++ name ++ space :=
      hfront (by decide) (by decide) (by decide) (by decide)
    have hcomma : ',' ∉ type ++ blanks ++ name ++ space :=
      hfront (by decide) (by decide) (by decide) (by decide)
    have hbetween : '(' ∉ list ∧ ')' ∉ list := by
      constructor <;> exact hlist.not_mem (by decide) (by decide) (by decide) (by decide)
    rw [isDelimited_append_left hopen hclose fun _ => hcomma]
    show isDelimited 1 (list ++ [')']) = true
    rw [isDelimited_append_left hbetween.1 hbetween.2 fun h => absurd h (by decide)]
    rfl

/-- **The key of a test for calls is delimited.** -/
theorem isDelimited_usesMethod {m : Matcher} (hm : m.Compiled) :
    (test (.usesMethod m ω)).IsDelimited := by
  obtain ⟨text, htext⟩ := hm
  have htail : isDelimited 1 (Matcher.keyTail m.overrides m.fallback).toList = true := by
    cases m.overrides <;> cases m.fallback <;> decide
  have hinner := isDelimited_append (d := 0)
    (isDelimited_of_isMethodPattern (MethodPattern.isMethodPattern_text htext)) htail
  rw [IsDelimited, key, Matcher.key_eq, String.toList_append, String.toList_append]
  show isDelimited 0 ("uses-method".toList ++ '(' :: _) = true
  rw [isDelimited_append_left (by decide) (by decide) fun _ => by decide]
  exact hinner

/-- A test that looks for the calls that a matcher accepts, with a pattern that was read. -/
def IsCallTest (t : Test ω) : Prop := ∃ m : Matcher, m.Compiled ∧ t = .usesMethod m ω

/-- No test for calls begins like an operator. -/
theorem IsCallTest.key_ne {t : Test ω} (ht : IsCallTest t) {p : Precondition ω}
    (hp : p.isCombined = true) : p.key ≠ t.key := by
  obtain ⟨m, -, rfl⟩ := ht
  intro hkey
  have hhead : (Test.usesMethod m ω).key.toList.head? = some 'u' := by
    rw [Matcher.key_eq, String.toList_append]
    rfl
  rw [← hkey] at hhead
  cases p with
  | test t => cases hp
  | either p q => simp [toList_key_either] at hhead
  | both p q => simp [toList_key_both] at hhead
  | not p => simp [toList_key_not] at hhead

/-! ### Preconditions that share a key -/

/-- Two tests look for calls with patterns of one text, and in the same way. -/
def SameCalls (p q : Precondition ω) : Prop :=
  ∃ m m' : Matcher, p = .test (.usesMethod m ω) ∧ q = .test (.usesMethod m' ω) ∧
    m.pattern.text = m'.pattern.text ∧ m.overrides = m'.overrides ∧ m.fallback = m'.fallback

variable {p q : Precondition ω}

/-- Tests that look for the same calls have the same key. -/
theorem SameCalls.key_eq (h : SameCalls p q) : p.key = q.key := by
  obtain ⟨m, m', rfl, rfl, htext, hoverrides, hfallback⟩ := h
  rw [key, key, Matcher.key_eq, Matcher.key_eq, htext, hoverrides, hfallback]

/-- Where a key is that of a test, the two are tests and look for the same calls. -/
theorem SharesKey.exists_matcher (h : SharesKey IsCallTest p q) :
    ∃ m : Matcher, p = .test (.usesMethod m ω) ∧ q = .test (.usesMethod m ω) := by
  obtain ⟨hp, hq, htest, hkey⟩ := h
  cases p with
  | test t =>
    cases q with
    | test u =>
      obtain ⟨m, hm, rfl⟩ := madeOf_test.mp hp
      obtain ⟨m', hm', rfl⟩ := madeOf_test.mp hq
      rw [Test.usesMethod_key_injective hm hm' hkey]
      exact ⟨m', rfl, rfl⟩
    | either q₁ q₂ | both q₁ q₂ | not q =>
      exact absurd hkey.symm ((madeOf_test.mp hp).key_ne rfl)
  | either p₁ p₂ | both p₁ p₂ | not p =>
    cases q with
    | test u => exact absurd hkey ((madeOf_test.mp hq).key_ne rfl)
    | either q₁ q₂ | both q₁ q₂ | not q => exact absurd htest (by simp [isCombined])

theorem Corresponds.key_eq {same : Precondition ω → Precondition ω → Prop}
    (h : Corresponds same p q) (hsame : ∀ p q, same p q → p.key = q.key) : p.key = q.key := by
  induction h with
  | part h => exact hsame _ _ h
  | either _ _ ihp ihq | both _ _ ihp ihq => rw [key, key, ihp, ihq]
  | not _ ih => rw [key, key, ih]

theorem Corresponds.eq (h : Corresponds Eq p q) : p = q := by
  induction h with
  | part h => exact h
  | either _ _ ihp ihq | both _ _ ihp ihq => rw [ihp, ihq]
  | not _ ih => rw [ih]

/-- **The keys of tests for calls are read back.** Two preconditions that are made of such tests
share a key just if they have one shape and the tests at the same place have patterns of one text,
the same setting for overrides and the same way to fall back. Then they give the same answers, and
leave the same behind, whether an answer is remembered or not. -/
theorem key_eq_iff_corresponds (hp : MadeOf IsCallTest p) (hq : MadeOf IsCallTest q) :
    (p.key = q.key ↔ Corresponds SameCalls p q) ∧
      (p.key = q.key → ∀ s, p.evaluate s = q.evaluate s ∧ p.applies s = q.applies s) := by
  have hread : p.key = q.key → Corresponds (SharesKey IsCallTest) p q :=
    corresponds_of_key_eq (fun t ⟨_, hm, ht⟩ => ht ▸ isDelimited_usesMethod hm) hp hq
  refine ⟨⟨fun hkey => (hread hkey).mono fun p q h => ?_, fun h => ?_⟩, fun hkey s => ?_⟩
  · obtain ⟨m, rfl, rfl⟩ := h.exists_matcher
    exact ⟨m, m, rfl, rfl, rfl, rfl, rfl⟩
  · exact h.key_eq fun _ _ => SameCalls.key_eq
  · have heq : p = q := by
      refine ((hread hkey).mono fun p q h => ?_).eq
      obtain ⟨m, rfl, rfl⟩ := h.exists_matcher
      rfl
    rw [heq]
    exact ⟨rfl, rfl⟩

/-- The pattern `A b(int, C)`. -/
def pairPattern : MethodPattern where
  text := "A b(int, C)"
  parts := ⟨['A'], ['b'], ["int".toList, ['C']]⟩
  type := .named [.segment ['A']] true 0
  name := .form ['b']
  parameters := [.exact (.named [.segment "int".toList] false 0),
    .exact (.named [.segment ['C']] true 0)]

/-- A call of a method with this pattern, or none that is found by its name. -/
def pairCalls (fallback : Fallback) : Precondition :=
  .either (.test (.usesMethod { pattern := pairPattern }))
    (.not (.test (.usesMethod { pattern := pairPattern, overrides := false, fallback })))

theorem madeOf_pairCalls (fallback : Fallback) : MadeOf IsCallTest (pairCalls fallback) := by
  have hparse : MethodPattern.parse " A b(int, C)" = .ok pairPattern := by decide
  rw [pairCalls, madeOf_either, madeOf_not, madeOf_test, madeOf_test]
  exact ⟨⟨_, ⟨_, hparse⟩, rfl⟩, ⟨_, ⟨_, hparse⟩, rfl⟩⟩

/-- There are commas in the patterns, and only the way to fall back is different. -/
theorem key_eq_iff_corresponds_pairCalls :
    MadeOf IsCallTest (pairCalls .nameOnly) ∧ MadeOf IsCallTest (pairCalls .failClosed) ∧
      (pairCalls .nameOnly).key ≠ (pairCalls .failClosed).key ∧
      ¬Corresponds SameCalls (pairCalls .nameOnly) (pairCalls .failClosed) := by
  have hne : (pairCalls .nameOnly).key ≠ (pairCalls .failClosed).key := by decide
  have hiff := key_eq_iff_corresponds (madeOf_pairCalls .nameOnly) (madeOf_pairCalls .failClosed)
  exact ⟨madeOf_pairCalls _, madeOf_pairCalls _, hne, fun h => hne (hiff.1.mpr h)⟩

end Precondition

end Lossless
