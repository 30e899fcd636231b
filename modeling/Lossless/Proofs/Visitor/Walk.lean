import Lossless.Proofs.Visitor.Visit
import Lossless.Proofs.Java.Places
import Lossless.Proofs.Xml.Places

/-!
# What a walk over the children does to a node

A walk asks for an answer to every child and updates the node by the answers
(`Lossless.walkWith`; the walk of a visitor asks for visits). Whoever is asked, and whatever
state is kept between the answers, every place of the node is settled by the answer for its
own child and by nothing else, and what is no place stays (`Lossless.Settled`). So no answer is
lost, and none takes effect at a place it is not for. The node stays the very same one exactly if
each place keeps the very same child; if a single place changes, it is a new one. That is so for
every kind of nodes of both languages (`Lossless.walk_settles`).
-/

namespace Lossless

open Anatomy (kind head hollow places)

variable {τ κ σ : Type}

/-- The walk over the children of a node, if this is what each of them is asked for. -/
def walkWith [Node τ] (ask : τ → StateM σ (Option (Update τ))) (t : τ) : StateM σ (Update τ) :=
  update t <$> (children t).mapM ask

/-- The walk that a visitor is handed asks for visits of the children. -/
theorem Visitor.walk_eq_walkWith [Node τ] (v : Visitor τ σ) (t : τ) :
    v.walk t = walkWith v.visit t := rfl

/-- Asking about each node of a list gives as many answers. -/
theorem length_of_mapM {ask : τ → StateM σ (Option (Update τ))} (ts : List τ) (s : σ) :
    (ts.mapM ask s).1.length = ts.length := by
  induction ts generalizing s with
  | nil => rfl
  | cons t ts ih =>
    rw [List.mapM_cons]
    exact congrArg (· + 1) (ih (ask t s).2)

/-- Every answer is the answer to a question for one of the trees, in some state. -/
theorem answer_of_mapM {ask : τ → StateM σ (Option (Update τ))} {ts : List τ} {s : σ}
    {answer : Option (Update τ)} (h : answer ∈ (ts.mapM ask s).1) :
    ∃ t ∈ ts, ∃ s', (ask t s').1 = answer := by
  induction ts generalizing s with
  | nil => cases h
  | cons t ts ih =>
    rw [List.mapM_cons] at h
    rcases List.mem_cons.mp h with rfl | h
    · exact ⟨t, List.mem_cons_self, s, rfl⟩
    · obtain ⟨u, hu, hanswer⟩ := ih h
      exact ⟨u, List.mem_cons_of_mem t hu, hanswer⟩

section Reading

variable [Node τ] [Anatomy τ κ] [DecidableEq κ] [LawfulNode τ κ]

/-- If updates settle places, a walk settles the places by the answers to one question for each
place, asked in order. -/
theorem walkWith_settles (ask : τ → StateM σ (Option (Update τ))) (t : τ) (s : σ) :
    ∃ answers s', ((places t).flatten.map Place.child).mapM ask s = (answers, s') ∧
      ∃ w, walkWith ask t s = (w, s') ∧ Settled t answers w := by
  rw [Anatomy.map_child_places]
  refine ⟨_, _, rfl, _, rfl, settled_update t _ ?_⟩
  exact length_of_mapM (children t) s

end Reading

/-- **A walk settles every place by the answer for its child**, in Java trees and in XML trees:
the children are asked one after the other, each once, and the node comes out with its places
settled by these answers, and otherwise as it was. It comes out as the very same node, and not
put together again, exactly if every place keeps the very same child. -/
theorem walk_settles {σ : Type} :
    (∀ (ask : Java.Tree → StateM σ (Option (Update Java.Tree))) (t : Java.Tree) (s : σ),
      ∃ answers s', ((places t).flatten.map Place.child).mapM ask s = (answers, s') ∧
        ∃ w, walkWith ask t s = (w, s') ∧ Settled t answers w) ∧
    ∀ (ask : Xml.Tree → StateM σ (Option (Update Xml.Tree))) (t : Xml.Tree) (s : σ),
      ∃ answers s', ((places t).flatten.map Place.child).mapM ask s = (answers, s') ∧
        ∃ w, walkWith ask t s = (w, s') ∧ Settled t answers w :=
  ⟨walkWith_settles, walkWith_settles⟩

end Lossless
