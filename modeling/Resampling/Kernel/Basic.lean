import Resampling.Axis.Map
import Resampling.Pixel.Codec
import Resampling.Pixel.Format

-- The arithmetic of one pixel, for each way pixels are made up. A row kernel combines the taps
-- of an output sample in two passes: across a row into an intermediate pixel, then down the
-- intermediate pixels of a column into an output pixel.

namespace Resampling

-- How strongly to push a pixel away from its blur: percent of the difference, and the least
-- difference in byte steps that counts
structure Sharpening where
  amount : Nat
  threshold : Nat
  deriving DecidableEq, Repr

-- `S` samples, `W` weights, `T` intermediate values
structure RowKernel (n : Nat) (S W T : Type) where
  gather : List (Vector S n × W) → Vector T n
  blend : List (Vector T n × W) → Vector S n
  -- a pixel pushed away from its blur
  sharpen : Sharpening → (unblurred blurred : Vector S n) → Vector S n

namespace Kernel

variable {n : Nat} {A W : Type}

def plane (c : Fin n) (taps : List (Vector A n × W)) : List (A × W) :=
  taps.map fun tap => (tap.1.get c, tap.2)

def weigh (taps : List (Int × Int)) : Int :=
  taps.foldl (fun total tap => total + tap.1 * tap.2) 0

theorem foldl_eq_add_weigh (total : Int) (taps : List (Int × Int)) :
    taps.foldl (fun total tap => total + tap.1 * tap.2) total = total + weigh taps := by
  induction taps generalizing total with
  | nil => exact (Int.add_zero total).symm
  | cons tap taps ih =>
    rw [weigh, List.foldl_cons, List.foldl_cons, ih, ih, Int.zero_add, Int.add_assoc]

theorem weigh_cons (tap : Int × Int) (taps : List (Int × Int)) :
    weigh (tap :: taps) = tap.1 * tap.2 + weigh taps := by
  rw [weigh, List.foldl_cons, foldl_eq_add_weigh, Int.zero_add]

-- Sum of weighted floats, from the first tap to the last
def weighFloat (taps : List (Float32 × Float32)) : Float32 :=
  taps.foldl (fun total tap => total + tap.1 * tap.2) 0.0

-- Only the first `colors` channels are sharpened
def sharpenColors (colors : Nat) (sharpenSample : A → A → A) (unblurred blurred : Vector A n) :
    Vector A n :=
  Vector.ofFn fun c =>
    if c < colors then sharpenSample (unblurred.get c) (blurred.get c) else unblurred.get c

def withAlpha (color : Fin 4 → A) (alpha : A) : Vector A 4 :=
  Vector.ofFn fun c => if c.val < 3 then color c else alpha

def alphaOf (pixel : Vector A 4) : A := pixel[3]

def alphaPlane (taps : List (Vector A 4 × W)) : List (A × W) :=
  taps.map fun tap => (alphaOf tap.1, tap.2)

end Kernel

end Resampling
