import Mathlib.Data.List.Basic
import Lossless.Cursor

/-!
# Messages last as long as their frame

A visitor enters a node, does with the cursor what it likes, and leaves the node. What may it have
left behind for those that come later? Whatever it put on the frames that it entered is gone with
them, and nothing can have been taken off a frame below, since messages are taken off the innermost
frame only. One operation reaches deeper: a message can be left on the nearest node of some sort
(`Lossless.Cursor.putMessageOn`). It ends up on an older frame if no newer one is of this sort, and
then it stays.

So the frames below are as before, but for these messages, which are found by following the nodes
that are entered (`Lossless.Cursor.passedOn`), without looking at any messages. This is
`Lossless.Cursor.run_enclosed`, for any sequence of operations that leaves no node that it did not
enter (`Lossless.Cursor.StaysWithin`). The invariant is `Lossless.Cursor.StandsOn`: the frames are
some new ones on top of the old ones. One operation keeps it
(`Lossless.Cursor.StandsOn.perform`), hence a run does.
-/

namespace Lossless

variable {τ μ κ : Type}

/-- The frame after some more messages were left on it; of two under one key the later counts. -/
def Frame.receive (fr : Frame τ μ) (notes : List (String × μ)) : Frame τ μ :=
  { fr with messages := notes.foldl (fun m n => m.insert n.1 n.2) fr.messages }

namespace Cursor

/-! ### Operations on cursors -/

/-- What can be asked of a cursor. Anything else that is asked is asked of the path. -/
inductive Question (τ κ : Type) where
  | depth
  | isRoot
  | value
  | parent
  | root
  | path
  | enclosing (p : τ → Bool)
  | message (key : String) (k : κ)
  | nearestMessage (key : String) (k : κ)

/-- What is answered when a cursor is used. -/
inductive Answer (τ μ : Type) where
  | done
  | truth (b : Bool)
  | count (n : Nat)
  | node (t : Option τ)
  | nodes (ts : List τ)
  | note (m : Option μ)

/-- What can be done with a cursor. -/
inductive Operation (τ μ κ : Type) where
  | push (t : τ)
  | pop
  | putMessage (key : String) (m : μ)
  | pollMessage (key : String) (k : κ)
  | putMessageOn (p : τ → Bool) (key : String) (m : μ)
  | ask (q : Question τ κ)

variable [DecidableEq κ] [Kinded μ κ]

/-- The answer to a question. -/
def Question.answer (c : Cursor τ μ) : Question τ κ → Answer τ μ
  | .depth => .count c.depth
  | .isRoot => .truth c.isRoot
  | .value => .node c.value?
  | .parent => .node c.parent?
  | .root => .node c.root?
  | .path => .nodes c.path
  | .enclosing p => .node (c.enclosing? p)
  | .message key k => .note (c.message? key k)
  | .nearestMessage key k => .note (c.nearestMessage? key k)

/-- Uses a cursor. Leaving a node gives the node. -/
def Operation.perform (c : Cursor τ μ) : Operation τ μ κ → Answer τ μ × Cursor τ μ
  | .push t => (.done, c.push t)
  | .pop => (.node c.value?, c.pop)
  | .putMessage key m => (.done, c.putMessage key m)
  | .pollMessage key k => (.note (c.pollMessage key k).1, (c.pollMessage key k).2)
  | .putMessageOn p key m => (.truth (c.putMessageOn p key m).1, (c.putMessageOn p key m).2)
  | .ask q => (q.answer c, c)

/-- Uses a cursor again and again. -/
def run (c : Cursor τ μ) : List (Operation τ μ κ) → List (Answer τ μ) × Cursor τ μ
  | [] => ([], c)
  | o :: os =>
    let (answers, last) := run (o.perform c).2 os
    ((o.perform c).1 :: answers, last)

/-- A run of operations goes on where the run of the first ones has stopped. -/
theorem run_append (c : Cursor τ μ) (os os' : List (Operation τ μ κ)) :
    c.run (os ++ os') = ((c.run os).1 ++ ((c.run os).2.run os').1, ((c.run os).2.run os').2) := by
  induction os generalizing c with
  | nil => rfl
  | cons o os ih => simp only [List.cons_append, run, ih]

theorem run_concat (c : Cursor τ μ) (os : List (Operation τ μ κ)) (o : Operation τ μ κ) :
    c.run (os ++ [o]) =
      ((c.run os).1 ++ [(o.perform (c.run os).2).1], (o.perform (c.run os).2).2) :=
  run_append c os [o]

/-- A question changes neither what comes after it nor any other answer. -/
theorem run_ask (c : Cursor τ μ) (os os' : List (Operation τ μ κ)) (q : Question τ κ) :
    c.run (os ++ .ask q :: os') =
      ((c.run os).1 ++ q.answer (c.run os).2 :: ((c.run os).2.run os').1,
        (c.run (os ++ os')).2) := by
  rw [run_append, run_append]
  rfl

/-- Asking for a message that is not on the current node, or of another kind, changes nothing. -/
theorem pollMessage_of_message?_eq_none {c : Cursor τ μ} {key : String} {k : κ}
    (h : c.message? key k = none) : c.pollMessage key k = (none, c) := by
  obtain ⟨frames⟩ := c
  cases frames with
  | nil => rfl
  | cons fr rest => simp only [pollMessage, Messages.poll_of_get?_eq_none h]

/-! ### The nodes that are entered -/

/-- The nodes entered so far, innermost first, after an operation. -/
def Operation.entered (newer : List τ) : Operation τ μ κ → List τ
  | .push t => t :: newer
  | .pop => newer.tail
  | _ => newer

/-- The nodes that are entered and not left in the end. -/
def entered (newer : List τ) (os : List (Operation τ μ κ)) : List τ :=
  os.foldl Operation.entered newer

/-- Does an operation leave no other nodes than those entered so far? -/
def Operation.StaysWithin (newer : List τ) : Operation τ μ κ → Prop
  | .pop => newer ≠ []
  | _ => True

/-- Do operations leave no other nodes than they entered? -/
def StaysWithin (newer : List τ) : List (Operation τ μ κ) → Prop
  | [] => True
  | o :: os => o.StaysWithin newer ∧ StaysWithin (o.entered newer) os

/-- A message for the nearest node of some sort. -/
structure Parcel (τ μ : Type) where
  /-- The sort of nodes. -/
  accepts : τ → Bool
  /-- The key. -/
  key : String
  /-- The message. -/
  message : μ

/-- The message that an operation leaves on an older node, since no newer one is of the sort. -/
def Operation.passedOn (newer : List τ) : Operation τ μ κ → List (Parcel τ μ)
  | .putMessageOn p key m => if newer.any p then [] else [⟨p, key, m⟩]
  | _ => []

/-- The messages that operations leave on older nodes. -/
def passedOn (newer : List τ) : List (Operation τ μ κ) → List (Parcel τ μ)
  | [] => []
  | o :: os => o.passedOn newer ++ passedOn (o.entered newer) os

/-- The messages that end up on a node of a path: those for which it is the nearest of the sort. -/
def arriving (path : List τ) (i : Nat) (parcels : List (Parcel τ μ)) : List (String × μ) :=
  (parcels.filter fun a => path.findIdx? a.accepts = some i).map fun a => (a.key, a.message)

/-! ### Messages that are passed on -/

@[simp]
theorem arriving_nil (path : List τ) (i : Nat) : arriving path i ([] : List (Parcel τ μ)) = [] :=
  rfl

theorem arriving_cons (path : List τ) (i : Nat) (a : Parcel τ μ) (as : List (Parcel τ μ)) :
    arriving path i (a :: as) =
      if path.findIdx? a.accepts = some i then (a.key, a.message) :: arriving path i as
      else arriving path i as := by
  by_cases h : path.findIdx? a.accepts = some i
  · simp only [arriving, List.filter_cons, h, decide_true, if_true, List.map_cons]
  · simp only [arriving, List.filter_cons, h, decide_false, if_false, Bool.false_eq_true]

/-- Frames after a message was left on the first node of its sort, if there is one. -/
def deliver (frames : List (Frame τ μ)) (a : Parcel τ μ) : List (Frame τ μ) :=
  (modifyFirst a.accepts (·.insert a.key a.message) frames).getD frames

/-- Putting a message on the nearest frame that fits delivers it there. -/
theorem frames_putMessageOn (c : Cursor τ μ) (p : τ → Bool) (key : String) (m : μ) :
    (c.putMessageOn p key m).2.frames = deliver c.frames ⟨p, key, m⟩ := by
  unfold putMessageOn deliver
  cases modifyFirst p (·.insert key m) c.frames <;> rfl

/-- A message stays with the first frame that fits and is passed on by one that does not. -/
theorem deliver_cons (fr : Frame τ μ) (frames : List (Frame τ μ)) (a : Parcel τ μ) :
    deliver (fr :: frames) a =
      if a.accepts fr.value then fr.receive [(a.key, a.message)] :: frames
      else fr :: deliver frames a := by
  unfold deliver
  rw [modifyFirst]
  split
  · rfl
  · cases modifyFirst a.accepts (·.insert a.key a.message) frames <;> rfl

/-- The node of every frame stays what it was. -/
theorem map_value_deliver (frames : List (Frame τ μ)) (a : Parcel τ μ) :
    (deliver frames a).map (·.value) = frames.map (·.value) := by
  induction frames with
  | nil => rfl
  | cons fr frames ih =>
    rw [deliver_cons]
    split
    · rfl
    · rw [List.map_cons, List.map_cons, ih]

/-- What is meant for newer frames stays on them, and what they do not take is passed on. -/
theorem deliver_append (newer older : List (Frame τ μ)) (a : Parcel τ μ) :
    deliver (newer ++ older) a =
      if (newer.map (·.value)).any a.accepts then deliver newer a ++ older
      else newer ++ deliver older a := by
  induction newer with
  | nil => rfl
  | cons fr newer ih =>
    rw [List.cons_append, deliver_cons, deliver_cons, ih]
    cases h : a.accepts fr.value with
    | true => simp only [List.map_cons, List.any_cons, h, Bool.true_or, if_true, List.cons_append]
    | false =>
      simp only [List.map_cons, List.any_cons, h, Bool.false_or, Bool.false_eq_true, if_false]
      split <;> rfl

/-- A frame is given the message if it is the first of the sort. -/
theorem getElem?_deliver (frames : List (Frame τ μ)) (a : Parcel τ μ) (i : Nat) :
    (deliver frames a)[i]? =
      frames[i]?.map (·.receive (arriving (frames.map (·.value)) i [a])) := by
  rw [arriving_cons]
  induction frames generalizing i with
  | nil => rfl
  | cons fr frames ih =>
    rw [deliver_cons, List.map_cons, List.findIdx?_cons]
    cases h : a.accepts fr.value with
    | true =>
      cases i with
      | zero => rfl
      | succ i => simp [Frame.receive]
    | false =>
      cases i with
      | zero => simp [Frame.receive]
      | succ i => simp [ih]

/-- What becomes of frames when messages arrive one by one. -/
theorem getElem?_foldl_deliver (frames : List (Frame τ μ)) (as : List (Parcel τ μ)) (i : Nat) :
    (as.foldl deliver frames)[i]? =
      frames[i]?.map (·.receive (arriving (frames.map (·.value)) i as)) := by
  induction as generalizing frames with
  | nil => simp [Frame.receive]
  | cons a as ih =>
    rw [List.foldl_cons, ih, getElem?_deliver, map_value_deliver, Option.map_map]
    congr 1
    funext fr
    rw [arriving_cons _ _ a as, arriving_cons]
    split <;> rfl

/-! ### What stays -/

/-- The frames of a cursor are those of newer nodes on top of older ones. -/
def StandsOn (c : Cursor τ μ) (newer : List τ) (older : List (Frame τ μ)) : Prop :=
  ∃ frames, frames.map (·.value) = newer ∧ c.frames = frames ++ older

variable {c : Cursor τ μ} {newer : List τ} {v : τ} {older : List (Frame τ μ)}

omit [DecidableEq κ] [Kinded μ κ] in
/-- An operation that stays among the newer frames enters and leaves them whatever stands below. -/
theorem Operation.entered_concat {o : Operation τ μ κ} (h : o.StaysWithin newer) (v : τ) :
    o.entered (newer ++ [v]) = o.entered newer ++ [v] := by
  cases o with
  | pop => exact List.tail_append_of_ne_nil h
  | _ => rfl

/-- **One operation above a node.** The newer frames are those of the nodes that are entered, and
the older ones get what no newer one takes. -/
theorem StandsOn.perform (h : c.StandsOn (newer ++ [v]) older) {o : Operation τ μ κ}
    (ho : o.StaysWithin newer) :
    (o.perform c).2.StandsOn (o.entered newer ++ [v])
      ((o.passedOn (newer ++ [v])).foldl deliver older) := by
  obtain ⟨frames, hvalues, hframes⟩ := h
  obtain ⟨top, rest, rfl⟩ : ∃ top rest, frames = top :: rest := by
    cases frames with
    | nil => simp at hvalues
    | cons top rest => exact ⟨top, rest, rfl⟩
  rw [← Operation.entered_concat ho]
  cases o with
  | push t =>
    refine ⟨{ value := t } :: top :: rest, congrArg (t :: ·) hvalues, ?_⟩
    exact congrArg (List.cons { value := t }) hframes
  | pop => exact ⟨rest, congrArg List.tail hvalues, congrArg List.tail hframes⟩
  | putMessage key m =>
    refine ⟨{ top with messages := top.messages.insert key m } :: rest, hvalues, ?_⟩
    exact congrArg (modifyHead (·.insert key m)) hframes
  | pollMessage key k =>
    refine ⟨{ top with messages := (top.messages.poll key k).2 } :: rest, hvalues, ?_⟩
    simp only [Operation.perform, pollMessage, hframes]
    rfl
  | putMessageOn p key m =>
    have hdeliver := deliver_append (top :: rest) older ⟨p, key, m⟩
    rw [hvalues] at hdeliver
    simp only [Operation.perform, Operation.passedOn, Operation.entered]
    split
    · next hp =>
      refine ⟨deliver (top :: rest) ⟨p, key, m⟩, (map_value_deliver ..).trans hvalues, ?_⟩
      rw [frames_putMessageOn, hframes, hdeliver, if_pos hp]
      rfl
    · next hp =>
      refine ⟨top :: rest, hvalues, ?_⟩
      rw [frames_putMessageOn, hframes, hdeliver, if_neg hp]
      rfl
  | ask q => exact ⟨top :: rest, hvalues, hframes⟩

/-- **A run above a node** does what its operations do, one by one. -/
theorem StandsOn.run (h : c.StandsOn (newer ++ [v]) older) {os : List (Operation τ μ κ)}
    (hos : StaysWithin newer os) :
    (c.run os).2.StandsOn (entered newer os ++ [v])
      ((passedOn (newer ++ [v]) os).foldl deliver older) := by
  induction os generalizing c newer older with
  | nil => exact h
  | cons o os ih =>
    obtain ⟨ho, hos⟩ := hos
    have hrest := ih (h.perform ho) hos
    rwa [← Operation.entered_concat ho, ← List.foldl_append] at hrest

/-- Popping all the newer frames leaves the older ones. -/
theorem frames_run_pops {frames : List (Frame τ μ)} (h : c.frames = frames ++ older) :
    (c.run (List.replicate frames.length (.pop : Operation τ μ κ))).2.frames = older := by
  induction frames generalizing c with
  | nil => exact h
  | cons fr frames ih => exact ih (congrArg List.tail h)

/-- **Messages last as long as their frame.** A node is entered, anything is done with the cursor
but to leave a node that was there before, and what is still entered is left again, the node at
last. Then every frame that was there before is there as before, with the messages that it had and
with those that were meant for the nearest node of its sort, where no newer node was of that sort.
Questions change nothing, and asking to take a message that is not there, or that is of another
kind, leaves all messages where they are. -/
theorem run_enclosed :
    (∀ (c : Cursor τ μ) (v : τ) (os : List (Operation τ μ κ)), StaysWithin [] os →
      let result := c.run (.push v :: os ++ List.replicate (entered [] os).length .pop ++ [.pop])
      result.1.getLast? = some (.node (some v)) ∧
        ∀ i : Nat, result.2.frames[i]? =
          c.frames[i]?.map (·.receive (arriving c.path i (passedOn [v] os)))) ∧
    (∀ (c : Cursor τ μ) (os os' : List (Operation τ μ κ)) (q : Question τ κ),
      c.run (os ++ .ask q :: os') =
        ((c.run os).1 ++ q.answer (c.run os).2 :: ((c.run os).2.run os').1,
          (c.run (os ++ os')).2)) ∧
    ∀ (c : Cursor τ μ) (key : String) (k : κ), c.message? key k = none →
      (Operation.pollMessage key k).perform c = (.note none, c) := by
  refine ⟨fun c v os hos => ?_, run_ask, fun c key k h => ?_⟩
  · have hpush : (c.push v).StandsOn ([] ++ [v]) c.frames := ⟨[{ value := v }], rfl, rfl⟩
    obtain ⟨frames, hvalues, hframes⟩ := hpush.run hos
    -- what is still entered is on top of the node
    obtain ⟨inner, top, rfl, hinner, htop⟩ := List.map_eq_append_iff.1 hvalues
    obtain ⟨fr, rfl, rfl⟩ := List.map_eq_singleton_iff.1 htop
    have hlength : (entered [] os).length = inner.length := by rw [← hinner, List.length_map]
    have hbefore : (c.run (.push fr.value :: os ++
        List.replicate (entered [] os).length .pop)).2.frames =
          fr :: (passedOn [fr.value] os).foldl deliver c.frames := by
      rw [run_append, hlength]
      exact frames_run_pops (hframes.trans (List.append_assoc ..))
    simp only [run_concat]
    refine ⟨?_, fun i => ?_⟩
    · rw [List.getLast?_concat, Operation.perform, value?, path, hbefore]
      rfl
    · rw [Operation.perform, pop, hbefore]
      exact getElem?_foldl_deliver ..
  · simp only [Operation.perform, pollMessage_of_message?_eq_none h]

/-- A cursor on a node 2 below a node 1, on which there is a number. -/
def twoFrames : Cursor Nat :=
  ⟨[{ value := 2 }, { value := 1, messages := Messages.empty.insert "k" (.int 7) }]⟩

/-- Above the node 3 a node is entered and left, and messages are left for nodes on every level. -/
def amidNodes : List (Operation Nat Message MessageKind) :=
  [.push 4, .putMessage "k" (.flag true), .putMessageOn (· = 1) "k" (.text "a"),
    .putMessageOn (· ≤ 3) "k" (.int 0), .ask (.nearestMessage "k" .int), .pop,
    .pollMessage "k" .int, .putMessageOn (· ≤ 2) "m" (.int 5), .putMessageOn (· = 9) "m" (.int 6)]

/-- A message goes past the node 3 to each of the nodes below, the others are lost with it; and the
number is not taken by one who asks for a text. -/
theorem run_enclosed_twoFrames :
    StaysWithin [] amidNodes ∧
      (twoFrames.run (.push 3 :: amidNodes ++ [.pop])).1.getLast? = some (.node (some 3)) ∧
      (twoFrames.run (.push 3 :: amidNodes ++ [.pop])).2.frames[0]? =
        some ⟨2, Messages.empty.insert "m" (.int 5)⟩ ∧
      (twoFrames.run (.push 3 :: amidNodes ++ [.pop])).2.frames[1]? =
        some ⟨1, (Messages.empty.insert "k" (.int 7)).insert "k" (.text "a")⟩ ∧
      twoFrames.pop.message? "k" .text = none ∧
      (Operation.pollMessage "k" MessageKind.text).perform twoFrames.pop =
        (.note none, twoFrames.pop) := by
  have hwithin : StaysWithin [] amidNodes := by
    simp [StaysWithin, amidNodes, Operation.StaysWithin, Operation.entered]
  have hother : twoFrames.pop.message? "k" .text = none := by decide
  obtain ⟨hrun, -, hpoll⟩ := run_enclosed (τ := Nat) (μ := Message) (κ := MessageKind)
  obtain ⟨hlast, hframes⟩ := hrun twoFrames 3 amidNodes hwithin
  exact ⟨hwithin, hlast, hframes 0, hframes 1, hother, hpoll _ _ _ hother⟩

end Cursor

end Lossless
