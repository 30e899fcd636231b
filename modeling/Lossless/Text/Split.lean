/-!
# Cutting a text

A text is cut at every occurrence of a separator. There is one piece more than there are
separators, so a text without any is one piece, and pieces may be empty. Joining the
pieces again restores the text.
-/

namespace Lossless.Text

/-- The pieces of a text between the occurrences of a separator. -/
def splitAt (separator : Char) : List Char → List (List Char)
  | [] => [[]]
  | c :: s =>
    if c = separator then [] :: splitAt separator s
    else
      match splitAt separator s with
      | [] => [[c]]
      | piece :: rest => (c :: piece) :: rest

/-- Pieces with a separator between them. -/
def joinWith (separator : Char) : List (List Char) → List Char
  | [] => []
  | [piece] => piece
  | piece :: rest => piece ++ separator :: joinWith separator rest

theorem splitAt_ne_nil (separator : Char) (s : List Char) : splitAt separator s ≠ [] := by
  cases s with
  | nil => simp [splitAt]
  | cons c s =>
    simp only [splitAt]
    split
    · simp
    · split <;> simp

theorem joinWith_cons_head (separator c : Char) (piece : List Char) (rest : List (List Char)) :
    joinWith separator ((c :: piece) :: rest) = c :: joinWith separator (piece :: rest) := by
  cases rest <;> rfl

theorem joinWith_nil_cons (separator : Char) {rest : List (List Char)} (h : rest ≠ []) :
    joinWith separator ([] :: rest) = separator :: joinWith separator rest := by
  cases rest with
  | nil => exact absurd rfl h
  | cons piece rest => rfl

/-- Joining the pieces of a text gives the text. -/
theorem joinWith_splitAt (separator : Char) (s : List Char) :
    joinWith separator (splitAt separator s) = s := by
  induction s with
  | nil => rfl
  | cons c s ih =>
    simp only [splitAt]
    split
    · next h => rw [joinWith_nil_cons _ (splitAt_ne_nil _ _), ih, h]
    · split
      · next h => exact absurd h (splitAt_ne_nil _ _)
      · next h => rw [joinWith_cons_head, ← h, ih]

end Lossless.Text
