import Resampling.Word

namespace Resampling

structure Rect where
  x : Nat
  y : Nat
  width : Nat
  height : Nat
  deriving DecidableEq, Repr

namespace Rect

-- Whether the rectangle lies in an image of the given extent. An end past the word range
-- lies in no image.
def liesIn (rect : Rect) (width height : Nat) : Bool :=
  match Word.add? rect.x rect.width, Word.add? rect.y rect.height with
  | some right, some bottom => right ≤ width && bottom ≤ height
  | _, _ => false

theorem liesIn_eq_true_iff {rect : Rect} {width height : Nat} :
    rect.liesIn width height = true ↔
      (rect.x + rect.width < Word.limit ∧ rect.y + rect.height < Word.limit) ∧
        rect.x + rect.width ≤ width ∧ rect.y + rect.height ≤ height := by
  unfold liesIn Word.add?
  by_cases hx : rect.x + rect.width < Word.limit
  · by_cases hy : rect.y + rect.height < Word.limit
    · simp [hx, hy]
    · simp [hx, hy]
  · simp [hx]

def isEmpty (rect : Rect) : Bool := rect.width == 0 || rect.height == 0

end Rect

end Resampling
