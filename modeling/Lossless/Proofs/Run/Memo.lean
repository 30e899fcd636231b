import Lossless.Precondition
import Lossless.Proofs.Java.Pattern
import Lossless.Proofs.Visitor.Visit

/-!
# What remembered answers are worth

Answers of the test whether a file contains a call are remembered under the text of a key,
together with the file. Two things make a remembered answer as good as a new one. The key
says all about the matcher: no two matchers whose patterns were read from text share one
(`Lossless.Test.usesMethod_key_injective`). And an answer is taken for the very tree only
that it was given for, so it does not matter that an edited file keeps its identity.

A memo may come about in many ways: by tests on any files, in any order, by answers to other
questions, and by forgetting some of them. Whatever happened (`Lossless.Memo.Reachable`),
what it says about a matcher is true (`Lossless.Memo.Reachable.truthful`), and so the test
gives the same answer from any such memo (`Lossless.Shared.Quiet.applies_usesMethod`).
-/

namespace Lossless

namespace Java.Matcher

/-- The pattern of the matcher was read from a text. -/
def Compiled (m : Matcher) : Prop := ∃ text, MethodPattern.parse text = .ok m.pattern

/-- Does a file contain a call that the matcher accepts? -/
def uses (m : Matcher) (s : Source) : Bool := s.java?.any fun unit => usesMethod m unit false

/-- Whether a file contains a call is a matter of its tree. -/
theorem uses_eq_of_isSameTree (m : Matcher) {s s' : Source} (h : s.isSameTree s' = true) :
    m.uses s = m.uses s' := by
  cases s with
  | java unit =>
    cases s' with
    | java unit' =>
      cases of_decide_eq_true h
      rfl
    | xml document => cases h
    | maven description => cases h
  -- no file of another language contains a call
  | xml document => cases s' with
    | java unit => cases h
    | xml document' => rfl
    | maven description => rfl
  | maven description => cases s' with
    | java unit => cases h
    | xml document => rfl
    | maven description' => rfl

/-! ### Keys -/

/-- What stands in a key behind the text of the pattern. -/
def keyTail (overrides : Bool) (fallback : Fallback) : String :=
  ", overrides=" ++ toString overrides ++ ", fallback=" ++ fallback.describe ++ ")"

/-- The end of a key tells the settings. -/
theorem eq_of_keyTail_suffix {o o' : Bool} {f f' : Fallback}
    (h : (keyTail o f).toList <:+ (keyTail o' f').toList) : o = o' ∧ f = f' := by
  revert h
  cases o <;> cases o' <;> cases f <;> cases f' <;> decide

/-- A key is the text of the pattern, between its name and the settings. -/
theorem key_eq {ω : Type} (m : Matcher) :
    (Test.usesMethod m ω).key =
      "uses-method(" ++ (m.pattern.text ++ keyTail m.overrides m.fallback) := by
  show "uses-method(" ++ m.pattern.text ++ ", overrides=" ++ toString m.overrides ++
      ", fallback=" ++ m.fallback.describe ++ ")" =
    "uses-method(" ++ (m.pattern.text ++
      (", overrides=" ++ toString m.overrides ++ ", fallback=" ++ m.fallback.describe ++ ")"))
  simp only [String.append_assoc]

end Java.Matcher

open Java

/-- **A key says all about the matcher.** No key ends where another could go on, so the ends of
the texts are found. -/
theorem Test.usesMethod_key_injective {ω : Type} {m m' : Matcher} (hm : m.Compiled)
    (hm' : m'.Compiled) (h : (Test.usesMethod m ω).key = (Test.usesMethod m' ω).key) : m = m' := by
  rw [Matcher.key_eq, Matcher.key_eq, String.append_right_inj] at h
  have hlist : m.pattern.text.toList ++ (Matcher.keyTail m.overrides m.fallback).toList =
      m'.pattern.text.toList ++ (Matcher.keyTail m'.overrides m'.fallback).toList := by
    rw [← String.toList_append, ← String.toList_append, h]
  have htail : m.overrides = m'.overrides ∧ m.fallback = m'.fallback := by
    -- one of the tails ends the other, whichever of the patterns is longer
    rcases List.append_eq_append_iff.mp hlist with ⟨as, -, h⟩ | ⟨as, -, h⟩
    · obtain ⟨ho, hf⟩ := Matcher.eq_of_keyTail_suffix ⟨as, h.symm⟩
      exact ⟨ho.symm, hf.symm⟩
    · exact Matcher.eq_of_keyTail_suffix ⟨as, h.symm⟩
  obtain ⟨ho, hf⟩ := htail
  rw [ho, hf, List.append_cancel_right_eq, String.toList_inj] at hlist
  obtain ⟨text, htext⟩ := hm
  obtain ⟨text', htext'⟩ := hm'
  obtain ⟨pattern, overrides, fallback⟩ := m
  obtain ⟨pattern', overrides', fallback'⟩ := m'
  obtain rfl : pattern = pattern' := MethodPattern.eq_of_text_eq htext htext' hlist
  obtain rfl : overrides = overrides' := ho
  obtain rfl : fallback = fallback' := hf
  rfl

/-! ### Memos -/

/-- Unless the run was cancelled, the test answers whether there is a call, and leaves the context
alone. -/
theorem Test.usesMethod_evaluate {ω : Type} (m : Matcher) (s : Source) {c : Context ω}
    (hc : c.isCancelled = false) : (Test.usesMethod m ω).evaluate s c = (m.uses s, c) := by
  show (s.java?.any (fun unit => Java.usesMethod m unit c.isCancelled) && !c.isCancelled, c) = _
  rw [hc, Bool.not_false, Bool.and_true]
  rfl

theorem Source.isSameTree_refl (s : Source) : s.isSameTree s = true := by
  cases s <;> exact decide_eq_true rfl

namespace Memo

/-- A memo that may come about while nobody cancels a run. -/
inductive Reachable : Memo → Prop where
  /-- At first there are no answers. -/
  | empty : Reachable .empty
  /-- The test for calls was evaluated on some file, and the answer was stored. -/
  | store {ω : Type} {memo : Memo} {m : Matcher} {s : Source} {c c' : Context ω} {answer : Bool} :
    Reachable memo → m.Compiled → c.isCancelled = false →
    (Test.usesMethod m ω).evaluate s c = (answer, c') →
    Reachable (memo.store (Test.usesMethod m).key s answer)
  /-- The answer to another question was stored. -/
  | other {memo : Memo} {key : String} (s : Source) (answer : Bool) :
    Reachable memo → (∀ m : Matcher, m.Compiled → key ≠ (Test.usesMethod m).key) →
    Reachable (memo.store key s answer)
  /-- Some answers were forgotten. -/
  | forget {memo rest : Memo} :
    Reachable memo → rest.entries.Sublist memo.entries → Reachable rest

/-- Answers are those that were remembered before, or the one that is remembered now. -/
theorem mem_entries_store {memo : Memo} {key : String} {s : Source} {answer : Bool} {e : MemoEntry}
    (h : e ∈ (memo.store key s answer).entries) : e = ⟨key, s, answer⟩ ∨ e ∈ memo.entries :=
  (List.mem_cons.mp h).imp_right fun h => (List.mem_filter.mp h).1

/-- **What a memo says about a matcher is true.** -/
theorem Reachable.truthful {memo : Memo} (h : memo.Reachable) {e : MemoEntry}
    (he : e ∈ memo.entries) {m : Matcher} (hm : m.Compiled)
    (hkey : e.key = (Test.usesMethod m).key) : e.answer = m.uses e.source := by
  induction h with
  | empty => cases he
  | store _ hm' hc heval ih =>
    rcases mem_entries_store he with rfl | he
    · -- the answer was right for its own matcher, and the key belongs to no other
      rw [Test.usesMethod_evaluate _ _ hc] at heval
      obtain ⟨rfl, -⟩ := Prod.mk.inj heval
      rw [Test.usesMethod_key_injective hm' hm hkey]
    · exact ih he
  | other _ _ _ hother ih =>
    rcases mem_entries_store he with rfl | he
    · exact absurd hkey (hother m hm)
    · exact ih he
  | forget _ hsub ih => exact ih (hsub.subset he)

/-- A remembered answer was given under this key for this very tree. -/
theorem answer?_eq_some {memo : Memo} {key : String} {s : Source} {a : Bool}
    (h : memo.answer? key s = some a) :
    ∃ e ∈ memo.entries, e.key = key ∧ e.source.isSameTree s = true ∧ e.answer = a := by
  rw [answer?] at h
  split at h
  next e hfind =>
    split at h
    next hsame =>
      have habout := List.find?_some hfind
      rw [MemoEntry.isAbout, Bool.and_eq_true, decide_eq_true_eq] at habout
      exact ⟨e, List.mem_of_find?_eq_some hfind, habout.1, hsame, Option.some.inj h⟩
    next => cases h
  next => cases h

/-- What was remembered is found again. -/
theorem answer?_store_self (memo : Memo) (key : String) (s : Source) (a : Bool) :
    (memo.store key s a).answer? key s = some a := by
  have hfind : (memo.store key s a).entries.find? (·.isAbout key s.id) = some ⟨key, s, a⟩ :=
    List.find?_cons_of_pos (by simp [MemoEntry.isAbout])
  rw [answer?, hfind]
  exact if_pos s.isSameTree_refl

end Memo

/-- Nobody has cancelled the run, and the memo is one that may have come about. -/
structure Shared.Quiet (shared : Shared) : Prop where
  uncancelled : shared.cancelled = false
  reachable : shared.memo.Reachable

/-- At first all is quiet. -/
theorem Shared.quiet_fresh : ({} : Shared).Quiet := ⟨rfl, .empty⟩

section Memoized

variable {ω : Type} {key : String} {s : Source} {evaluate : StateM (Context ω) Bool}
  {c c' : Context ω} {a : Bool}

/-- A remembered answer is given, and nothing is done. -/
theorem memoized_of_some (h : c.answer? key s = some a) : memoized key s evaluate c = (a, c) := by
  have hget : (get : StateM (Context ω) (Context ω)) c = (c, c) := rfl
  refine (bind_of_eq hget).trans ?_
  rw [h]
  rfl

/-- Where nothing is remembered an answer is found, and after that it matters whether the run was
cancelled meanwhile. -/
theorem memoized_of_answer?_eq_none (h : c.answer? key s = none) (heval : evaluate c = (a, c')) :
    memoized key s evaluate c =
      if c'.isCancelled then (false, c') else (a, c'.remember key s a) := by
  have hget : ∀ c : Context ω, (get : StateM (Context ω) (Context ω)) c = (c, c) := fun _ => rfl
  refine (bind_of_eq (hget c)).trans ?_
  rw [h]
  refine (bind_of_eq heval).trans ((bind_of_eq (hget c')).trans ?_)
  cases c'.isCancelled <;> rfl

/-- A new answer is remembered. -/
theorem memoized_of_none (h : c.answer? key s = none) (heval : evaluate c = (a, c'))
    (hc : c'.isCancelled = false) :
    memoized key s evaluate c = (a, c'.remember key s a) := by
  rw [memoized_of_answer?_eq_none h heval, hc]
  rfl

/-- An answer that was found in a cancelled run is not remembered, and counts as *no*. -/
theorem memoized_of_cancelled (h : c.answer? key s = none) (heval : evaluate c = (a, c'))
    (hc : c'.isCancelled = true) : memoized key s evaluate c = (false, c') := by
  rw [memoized_of_answer?_eq_none h heval, hc]
  rfl

/-- The memo does not cancel a run, and does not take a cancellation back. -/
theorem memoized_isCancelled (h : ∀ c, (evaluate c).2.isCancelled = c.isCancelled) :
    (memoized key s evaluate c).2.isCancelled = c.isCancelled := by
  have heval : evaluate c = ((evaluate c).1, (evaluate c).2) := rfl
  cases ha : c.answer? key s with
  | some a => rw [memoized_of_some ha]
  | none =>
    cases hc : (evaluate c).2.isCancelled with
    | true => rw [memoized_of_cancelled ha heval hc, hc, ← h c, hc]
    | false =>
      rw [memoized_of_none ha heval hc]
      exact h c

end Memoized

/-- **The memo makes no difference to the test for calls.** -/
theorem Shared.Quiet.applies_usesMethod {c : Context} (hc : c.shared.Quiet) {m : Matcher}
    (hm : m.Compiled) (s : Source) :
    ∃ shared : Shared, shared.Quiet ∧
      (Precondition.test (.usesMethod m)).applies s c = (m.uses s, { c with shared }) := by
  cases ha : c.answer? (Test.usesMethod m).key s with
  | some a =>
    obtain ⟨e, he, hkey, hsame, rfl⟩ := Memo.answer?_eq_some ha
    refine ⟨c.shared, hc, (memoized_of_some ha).trans ?_⟩
    rw [hc.reachable.truthful he hm hkey, m.uses_eq_of_isSameTree hsame]
  | none =>
    have heval := Test.usesMethod_evaluate m s hc.uncancelled
    have hstored := Memo.Reachable.store hc.reachable hm hc.uncancelled heval
    exact ⟨(c.remember _ s (m.uses s)).shared, ⟨hc.uncancelled, hstored⟩,
      memoized_of_none ha heval hc.uncancelled⟩

end Lossless
