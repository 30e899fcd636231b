import Mathlib.Data.List.Nodup
import Lossless.Proofs.Run.Memo

/-!
# Preconditions and cancellation

What a precondition should say of a file follows from what its tests should say
(`Lossless.Precondition.value`), and no memo and no cancellation come into this. What it does
say is found with both: a remembered answer may come in the place of an evaluation, a run may
be cancelled within any test, and from then on answers mean nothing.

Two rules see to it that nothing wrong comes of it. An answer that was found in a cancelled run
is not remembered, and it counts as *no*. The second rule alone would not do: *no* becomes
*yes* under a negation, and that is why negations look at the run once more. So an evaluation
may lose an answer, but it never makes one up (`Lossless.Precondition.applies_cancellable`).

The proof follows the evaluation of a precondition (`Lossless.Precondition.Evaluated`).
Evaluating a precondition with a memo in between adds one entry to what is found without it,
and whatever was added is the value of a part (`Lossless.Memo.Grown`). This makes the memo
truthful again for the next part.
-/

namespace Lossless

/-! ### The value of a precondition -/

variable {ω : Type}

/-- On each file a test has an answer of its own. It reads the file's tree, may cancel the run
and may leave notes, but does not touch the memo; if the run was not cancelled, it gives its
answer. -/
structure Test.Answers (t : Test ω) (answer : Source → Bool) : Prop where
  sameTree : ∀ {s s' : Source}, s.isSameTree s' = true → answer s = answer s'
  memo : ∀ s c, (t.evaluate s c).2.shared.memo = c.shared.memo
  cancelled : ∀ s c, c.isCancelled = true → (t.evaluate s c).2.isCancelled = true
  answer : ∀ s c, (t.evaluate s c).2.isCancelled = false → (t.evaluate s c).1 = answer s

/-- The test for calls answers whether there is one. -/
theorem Test.usesMethod_answers (m : Java.Matcher) : (Test.usesMethod m ω).Answers m.uses where
  sameTree := m.uses_eq_of_isSameTree
  memo _ _ := rfl
  cancelled _ _ h := h
  answer s c h := by rw [usesMethod_evaluate (c := c) m s h]

/-- The test neither cancels a run nor takes a cancellation back. -/
def Test.Calm (t : Test ω) : Prop := ∀ s c, (t.evaluate s c).2.isCancelled = c.isCancelled

namespace Precondition

/-- What a precondition should say of a file if its tests should say this. -/
def value (answer : Test ω → Source → Bool) : Precondition ω → Source → Bool
  | .test t, s => answer t s
  | .either p q, s => value answer p s || value answer q s
  | .both p q, s => value answer p s && value answer q s
  | .not p, s => !value answer p s

/-- A precondition and all that it is made of. -/
def parts : Precondition ω → List (Precondition ω)
  | .test t => [.test t]
  | .either p q => .either p q :: (parts p ++ parts q)
  | .both p q => .both p q :: (parts p ++ parts q)
  | .not p => .not p :: parts p

theorem self_mem_parts (p : Precondition ω) : p ∈ p.parts := by
  cases p <;> exact List.mem_cons_self

/-- Equal keys stand for equal values. -/
def KeysTell (answer : Test ω → Source → Bool) (family : Precondition ω → Prop) : Prop :=
  ∀ p q, family p → family q → p.key = q.key → ∀ s, p.value answer s = q.value answer s

end Precondition

/-- What a memo says under the keys of some preconditions is true. -/
def Memo.Truthful (answer : Test ω → Source → Bool) (family : Precondition ω → Prop) (memo : Memo) :
    Prop :=
  ∀ e ∈ memo.entries, ∀ p, family p → p.key = e.key → e.answer = p.value answer e.source

/-- What was added to a memo are values of these preconditions on a file. -/
def Memo.Grown (answer : Test ω → Source → Bool) (ps : List (Precondition ω)) (s : Source)
    (memo memo' : Memo) : Prop :=
  ∀ e ∈ memo'.entries, e ∈ memo.entries ∨ ∃ p ∈ ps, e = ⟨p.key, s, p.value answer s⟩

section Values

variable {answer : Test ω → Source → Bool} {family : Precondition ω → Prop}
  {memo memo' memo'' : Memo}
  {p : Precondition ω} {ps qs : List (Precondition ω)} {s s' : Source}

/-- The value of a precondition is a matter of the tree. -/
theorem Precondition.value_eq_of_isSameTree
    (ht : ∀ t, .test t ∈ p.parts → t.Answers (answer t)) (h : s.isSameTree s' = true) :
    p.value answer s = p.value answer s' := by
  induction p with
  | test t => exact (ht t (self_mem_parts _)).sameTree h
  | either p q ihp ihq | both p q ihp ihq =>
    rw [value, value, ihp fun t h => ht t (by simp [parts, h]),
      ihq fun t h => ht t (by simp [parts, h])]
  | not p ih => rw [value, value, ih fun t h => ht t (by simp [parts, h])]

namespace Memo

theorem truthful_empty : Truthful answer family .empty := fun _ h => absurd h List.not_mem_nil

theorem Grown.refl (ps : List (Precondition ω)) (s : Source) (memo : Memo) :
    Grown answer ps s memo memo := fun _ => Or.inl

theorem Grown.mono (h : Grown answer ps s memo memo') (hps : ps ⊆ qs) :
    Grown answer qs s memo memo' := fun e he =>
  (h e he).imp_right fun ⟨p, hp, heq⟩ => ⟨p, hps hp, heq⟩

theorem Grown.trans (h : Grown answer ps s memo memo') (h' : Grown answer ps s memo' memo'') :
    Grown answer ps s memo memo'' := fun e he =>
  (h' e he).elim (h e) Or.inr

/-- A memo grows by the value of a part. -/
theorem Grown.store (h : Grown answer ps s memo memo') (hp : p ∈ ps) :
    Grown answer ps s memo (memo'.store p.key s (p.value answer s)) := by
  intro e he
  rcases mem_entries_store he with rfl | he
  · exact Or.inr ⟨p, hp, rfl⟩
  · exact h e he

/-- A memo that has grown by values is as truthful as before, since its keys tell. -/
theorem Truthful.of_grown (h : memo.Truthful answer family)
    (hkeys : Precondition.KeysTell answer family) (hps : ∀ p ∈ ps, family p)
    (hgrown : Grown answer ps s memo memo') : memo'.Truthful answer family := by
  intro e he p hp hkey
  rcases hgrown e he with he | ⟨q, hq, rfl⟩
  · exact h e he p hp hkey
  · exact hkeys q p (hps q hq) hp hkey.symm s

end Memo

/-- A remembered answer is the value. -/
theorem Memo.Truthful.answer_eq {a : Bool} (h : memo.Truthful answer family)
    (hp : family p) (ht : ∀ t, .test t ∈ p.parts → t.Answers (answer t))
    (ha : memo.answer? p.key s = some a) : a = p.value answer s := by
  obtain ⟨e, he, hkey, hsame, rfl⟩ := answer?_eq_some ha
  rw [h e he p hp hkey.symm, p.value_eq_of_isSameTree ht hsame]

end Values

/-! ### Evaluation -/

namespace Precondition

/-- The second of two is asked only if the first does not apply. -/
theorem evaluate_either (p q : Precondition ω) (s : Source) (c : Context ω) :
    (either p q).evaluate s c =
      if (p.applies s c).1 then (true, (p.applies s c).2) else q.applies s (p.applies s c).2 := by
  show (if (p.applies s c).1 = true then _ else _ : StateM (Context ω) Bool) (p.applies s c).2 = _
  split <;> rfl

/-- The second of two is asked only if the first applies. -/
theorem evaluate_both (p q : Precondition ω) (s : Source) (c : Context ω) :
    (both p q).evaluate s c =
      if (p.applies s c).1 then q.applies s (p.applies s c).2 else (false, (p.applies s c).2) := by
  show (if (p.applies s c).1 = true then _ else _ : StateM (Context ω) Bool) (p.applies s c).2 = _
  split <;> rfl

/-- In a cancelled run a negation answers *no*. -/
theorem evaluate_not (p : Precondition ω) (s : Source) (c : Context ω) :
    (not p).evaluate s c =
      (!(p.applies s c).1 && !(p.applies s c).2.isCancelled, (p.applies s c).2) := rfl

/-- Nothing but its tests cancels the run. -/
theorem applies_isCancelled {p : Precondition ω} (h : ∀ t, .test t ∈ p.parts → t.Calm)
    {s : Source} {c : Context ω} : (p.applies s c).2.isCancelled = c.isCancelled := by
  induction p generalizing c with
  | test t => exact memoized_isCancelled (h t (self_mem_parts _) s)
  | either p q ihp ihq =>
    refine memoized_isCancelled fun c => ?_
    rw [evaluate_either]
    split
    · exact ihp fun t ht => h t (by simp [parts, ht])
    · rw [ihq fun t ht => h t (by simp [parts, ht]), ihp fun t ht => h t (by simp [parts, ht])]
  | both p q ihp ihq =>
    refine memoized_isCancelled fun c => ?_
    rw [evaluate_both]
    split
    · rw [ihq fun t ht => h t (by simp [parts, ht]), ihp fun t ht => h t (by simp [parts, ht])]
    · exact ihp fun t ht => h t (by simp [parts, ht])
  | not p ih =>
    refine memoized_isCancelled fun c => ?_
    rw [evaluate_not]
    exact ih fun t ht => h t (by simp [parts, ht])

/-- What comes of an evaluation on a file, where `b` is the value: the value, unless the run was
cancelled, and a memo with values of these preconditions. In a run that was cancelled before,
nothing is remembered. -/
structure Evaluated (answer : Test ω → Source → Bool) (ps : List (Precondition ω)) (s : Source)
    (b : Bool) (c : Context ω) (r : Bool × Context ω) : Prop where
  found : r.2.isCancelled = false → r.1 = b
  grown : Memo.Grown answer ps s c.shared.memo r.2.shared.memo
  cancelled : c.isCancelled = true → r.2.isCancelled = true
  memo : c.isCancelled = true → r.2.shared.memo = c.shared.memo

/-- The same behind the memo, where *yes* is the value even if the run was cancelled. -/
structure Applied (answer : Test ω → Source → Bool) (ps : List (Precondition ω)) (s : Source)
    (b : Bool) (c : Context ω) (r : Bool × Context ω) : Prop
    extends Evaluated answer ps s b c r where
  sound : r.1 = true → b = true

section Evaluation

variable {answer : Test ω → Source → Bool} {family : Precondition ω → Prop} {p : Precondition ω}
  {ps qs us : List (Precondition ω)} {s : Source} {a b b' d : Bool} {c : Context ω}
  {r r' : Bool × Context ω}

/-- Another result is put in the place of what was found. -/
theorem Evaluated.result (h : Evaluated answer ps s b c r) (hps : ps ⊆ us)
    (ha : r.2.isCancelled = false → a = d) : Evaluated answer us s d c (a, r.2) where
  found := ha
  grown := h.grown.mono hps
  cancelled := h.cancelled
  memo := h.memo

/-- An evaluation is followed by another one. -/
theorem Evaluated.next (h : Evaluated answer ps s b c r) (h' : Evaluated answer qs s b' r.2 r')
    (hps : ps ⊆ us) (hqs : qs ⊆ us) (hd : r.1 = b → b' = d) : Evaluated answer us s d c r' where
  found hr' := by
    have hr : r.2.isCancelled = false := by
      by_contra hr
      rw [h'.cancelled (by simpa using hr)] at hr'
      cases hr'
    rw [h'.found hr', hd (h.found hr)]
  grown := (h.grown.mono hps).trans (h'.grown.mono hqs)
  cancelled hc := h'.cancelled (h.cancelled hc)
  memo hc := (h'.memo (h.cancelled hc)).trans (h.memo hc)

/-- What the memo in front of an evaluation adds to it. -/
theorem Evaluated.applied (h : Evaluated answer p.parts s (p.value answer s) c (p.evaluate s c))
    (hmemo : ∀ a, c.answer? p.key s = some a → a = p.value answer s) :
    Applied answer p.parts s (p.value answer s) c (p.applies s c) := by
  rw [applies]
  cases ha : c.answer? p.key s with
  | some a =>
    rw [memoized_of_some ha, hmemo a ha]
    exact { found := fun _ => rfl, grown := .refl _ _ _, cancelled := id, memo := fun _ => rfl,
            sound := id }
  | none =>
    have heval : p.evaluate s c = ((p.evaluate s c).1, (p.evaluate s c).2) := rfl
    cases hc : (p.evaluate s c).2.isCancelled with
    | true =>
      rw [memoized_of_cancelled ha heval hc]
      exact { h.result (List.Subset.refl _) fun hc' => absurd (hc.symm.trans hc') nofun with
              sound := nofun }
    | false =>
      rw [memoized_of_none ha heval hc, h.found hc]
      have hnot : ¬c.isCancelled = true := fun h' => by
        rw [h.cancelled h'] at hc
        cases hc
      exact { found := fun _ => rfl, grown := h.grown.store p.self_mem_parts,
              cancelled := fun h' => absurd h' hnot, memo := fun h' => absurd h' hnot, sound := id }

variable (ht : ∀ t, family (.test t) → t.Answers (answer t)) (hkeys : KeysTell answer family)

include ht in
/-- With a truthful memo in front the value is found, if it is found without it. -/
theorem Evaluated.applied_of_truthful
    (h : Evaluated answer p.parts s (p.value answer s) c (p.evaluate s c))
    (hp : ∀ q ∈ p.parts, family q) (hmemo : c.shared.memo.Truthful answer family) :
    Applied answer p.parts s (p.value answer s) c (p.applies s c) :=
  h.applied fun _ ha =>
    hmemo.answer_eq (hp p p.self_mem_parts) (fun t htest => ht t (hp _ htest)) ha

include ht hkeys

/-- **Evaluation finds the value, unless the run is cancelled.** -/
theorem evaluated (hp : ∀ q ∈ p.parts, family q) (s : Source)
    (hmemo : c.shared.memo.Truthful answer family) :
    Evaluated answer p.parts s (p.value answer s) c (p.evaluate s c) := by
  induction p generalizing c with
  | test t =>
    have ht := ht t (hp _ (self_mem_parts _))
    exact { found := ht.answer s c, cancelled := ht.cancelled s c, memo := fun _ => ht.memo s c,
            grown := by
              show Memo.Grown _ _ _ _ (t.evaluate s c).2.shared.memo
              rw [ht.memo]
              exact .refl _ _ _ }
  | either p q ihp ihq =>
    have hps : ∀ u ∈ p.parts, family u := fun u hu => hp u (by simp [parts, hu])
    have hqs : ∀ u ∈ q.parts, family u := fun u hu => hp u (by simp [parts, hu])
    have hfirst := (ihp hps hmemo).applied_of_truthful ht hps hmemo
    -- what the first part has stored is true, so the memo can be used for the second
    have hmemo' := hmemo.of_grown hkeys hps hfirst.grown
    have hsecond := (ihq hqs hmemo').applied_of_truthful ht hqs hmemo'
    rw [evaluate_either, value]
    split
    next hyes =>
      refine hfirst.result (by simp [parts]) fun _ => ?_
      rw [hfirst.sound hyes, Bool.true_or]
    next hno =>
      refine hfirst.next hsecond.toEvaluated (by simp [parts]) (by simp [parts]) fun hvalue => ?_
      rw [← hvalue, Bool.eq_false_iff.mpr hno, Bool.false_or]
  | both p q ihp ihq =>
    have hps : ∀ u ∈ p.parts, family u := fun u hu => hp u (by simp [parts, hu])
    have hqs : ∀ u ∈ q.parts, family u := fun u hu => hp u (by simp [parts, hu])
    have hfirst := (ihp hps hmemo).applied_of_truthful ht hps hmemo
    have hmemo' := hmemo.of_grown hkeys hps hfirst.grown
    have hsecond := (ihq hqs hmemo').applied_of_truthful ht hqs hmemo'
    rw [evaluate_both, value]
    split
    next hyes =>
      refine hfirst.next hsecond.toEvaluated (by simp [parts]) (by simp [parts]) fun _ => ?_
      rw [hfirst.sound hyes, Bool.true_and]
    next hno =>
      refine hfirst.result (by simp [parts]) fun hc => ?_
      rw [← hfirst.found hc, Bool.eq_false_iff.mpr hno, Bool.false_and]
  | not p ih =>
    have hps : ∀ u ∈ p.parts, family u := fun u hu => hp u (by simp [parts, hu])
    have hinner := (ih hps hmemo).applied_of_truthful ht hps hmemo
    rw [evaluate_not, value]
    refine hinner.result (by simp [parts]) fun hc => ?_
    rw [hc, hinner.found hc, Bool.not_false, Bool.and_true]

/-- **What a precondition answer behind a truthful memo.** -/
theorem applied (hp : ∀ q ∈ p.parts, family q) (s : Source)
    (hmemo : c.shared.memo.Truthful answer family) :
    Applied answer p.parts s (p.value answer s) c (p.applies s c) :=
  (evaluated ht hkeys hp s hmemo).applied_of_truthful ht hp hmemo

end Evaluation

/-- **Cancellation never makes an answer up.** Behind a truthful memo, whatever tests cancel the
run: *yes* is the value; without a cancellation any answer is the value, and if no test cancels the
run, nothing does; the memo stays truthful, since what is added are values of parts; and in a run
that was cancelled before, the memo stays as it is and the answer is the remembered one, or else
*no*. -/
theorem applies_cancellable {answer : Test ω → Source → Bool} {family : Precondition ω → Prop}
    (ht : ∀ t, family (.test t) → t.Answers (answer t)) (hkeys : KeysTell answer family)
    {p : Precondition ω} (hp : ∀ q ∈ p.parts, family q) (s : Source) {c : Context ω}
    (hmemo : c.shared.memo.Truthful answer family) :
    ((p.applies s c).1 = true → p.value answer s = true) ∧
      ((p.applies s c).2.isCancelled = false → (p.applies s c).1 = p.value answer s) ∧
      ((∀ t, .test t ∈ p.parts → t.Calm) → (p.applies s c).2.isCancelled = c.isCancelled) ∧
      (p.applies s c).2.shared.memo.Truthful answer family ∧
      (∀ e ∈ (p.applies s c).2.shared.memo.entries,
        e ∈ c.shared.memo.entries ∨ ∃ q ∈ p.parts, e = ⟨q.key, s, q.value answer s⟩) ∧
      (c.isCancelled = true → (p.applies s c).2.shared.memo = c.shared.memo ∧
        (p.applies s c).1 = (c.answer? p.key s).getD false) := by
  have happlied := applied ht hkeys hp s hmemo
  refine ⟨happlied.sound, happlied.found, fun hcalm => applies_isCancelled hcalm,
    hmemo.of_grown hkeys hp happlied.grown, happlied.grown, fun hc => ⟨happlied.memo hc, ?_⟩⟩
  cases ha : c.answer? p.key s with
  | some a => exact congrArg Prod.fst (memoized_of_some ha)
  | none =>
    have heval : p.evaluate s c = ((p.evaluate s c).1, (p.evaluate s c).2) := rfl
    have hcancelled := (evaluated ht hkeys hp s hmemo).cancelled hc
    exact congrArg Prod.fst (memoized_of_cancelled ha heval hcancelled)

/-- The test that always gives one answer, perhaps after it cancelled the run. -/
def constantTest (key : String) (answer cancels : Bool) : Test where
  key := key
  evaluate _ := do
    if cancels then modify Context.cancel
    return answer

theorem answers_constantTest (key : String) (answer cancels : Bool) :
    (constantTest key answer cancels).Answers fun _ => answer where
  sameTree _ := rfl
  memo _ _ := by cases cancels <;> rfl
  cancelled _ _ h := by
    cases cancels with
    | true => rfl
    | false => exact h
  answer _ _ _ := by cases cancels <;> rfl

theorem calm_constantTest (key : String) (answer : Bool) :
    (constantTest key answer false).Calm := fun _ _ => rfl

/-- What a test answers in a new run. -/
def answerAnew (t : Test) (s : Source) : Bool := (t.evaluate s {}).1

/-- Is it wrong that nothing was found, and that a test, which cancels the run, has said *yes*? -/
def struck : Precondition :=
  .not (.both (.not (.test (constantTest "found" false false)))
    (.test (constantTest "stop" false true)))

/-- An answer is lost: the run is cancelled below a negation, and *yes* is not found. -/
theorem applies_cancellable_struck :
    (∀ t, .test t ∈ struck.parts → t.Answers (answerAnew t)) ∧
      KeysTell answerAnew (· ∈ struck.parts) ∧
      struck.value answerAnew (.java {}) = true ∧
      (struck.applies (.java {}) {}).1 = false ∧
      (struck.applies (.java {}) {}).2.isCancelled = true ∧
      (struck.applies (.java {}) {}).2.shared.memo.Truthful answerAnew (· ∈ struck.parts) := by
  have ht : ∀ t, .test t ∈ struck.parts → t.Answers (answerAnew t) := by
    intro t h
    have h : t = constantTest "found" false false ∨ t = constantTest "stop" false true := by
      simpa [struck, parts] using h
    rcases h with rfl | rfl
    · exact answers_constantTest "found" false false
    · exact answers_constantTest "stop" false true
  have hkeys : KeysTell answerAnew (· ∈ struck.parts) := by
    intro p q hp hq hkey s
    have hnodup : (struck.parts.map key).Nodup := by decide
    rw [List.inj_on_of_nodup_map hnodup hp hq hkey]
  exact ⟨ht, hkeys, by decide, by decide, by decide,
    (applies_cancellable ht hkeys (fun _ h => h) (.java {}) Memo.truthful_empty).2.2.2.1⟩

end Precondition

end Lossless
