import Lossless.Text.Steps

/-!
# Text with stars

In a glob a star stands for a run of characters, which may be empty, and any other
character for itself. Which characters a star may stand for differs from use to use.
-/

namespace Lossless.Text

/-- The step along a text that a character of a glob stands for. -/
def globStep (p : Char → Bool) (c : Char) : Step Char := if c = '*' then .run p else .one (· = c)

/-- Does a glob match a text, if a star stands for characters that satisfy `p`? -/
def globMatches (p : Char → Bool) (glob s : List Char) : Bool :=
  Step.follows (glob.map (globStep p)) s

theorem globMatches_star_iff {p : Char → Bool} {glob s : List Char} :
    globMatches p ('*' :: glob) s = true ↔
      ∃ run rest, s = run ++ rest ∧ (∀ c ∈ run, p c) ∧ globMatches p glob rest :=
  Step.follows_run_iff

end Lossless.Text
