/-!
# Pieces of a text

A text falls into pieces at every occurrence of a separator. `intercalate_pieces` says that putting
the separator back between the pieces gives the text again.
-/

namespace DotMatrix.Text

/-- The stretches of a text between separators, empty ones included. -/
def pieces (separator : Char) : List Char → List (List Char)
  | [] => [[]]
  | c :: rest =>
    if c = separator then [] :: pieces separator rest
    else
      match pieces separator rest with
      | [] => [[c]]
      | piece :: more => (c :: piece) :: more

theorem pieces_ne_nil (separator : Char) (s : List Char) : pieces separator s ≠ [] := by
  cases s with
  | nil => simp [pieces]
  | cons c rest =>
    rw [pieces]
    split
    · simp
    · split <;> simp

theorem intercalate_pieces (separator : Char) (s : List Char) :
    [separator].intercalate (pieces separator s) = s := by
  induction s with
  | nil => rfl
  | cons c rest ih =>
    rw [pieces]
    cases h : pieces separator rest with
    | nil => exact absurd h (pieces_ne_nil separator rest)
    | cons piece more =>
      rw [h] at ih
      by_cases hc : c = separator
      · rw [if_pos hc, ← ih, hc]
        simp [List.intercalate]
      · rw [if_neg hc, ← ih]
        cases more <;> simp [List.intercalate]

end DotMatrix.Text
