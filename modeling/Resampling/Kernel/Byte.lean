import Resampling.Kernel.Basic

-- Byte samples. Intermediate values carry 7 more bits than a sample; with straight alpha an
-- intermediate color is the product of color and alpha.

namespace Resampling.Kernel.Byte

open FixedPoint

def gatherChannel (taps : List (UInt8 × Int)) : Int :=
  roundShift 8 (weigh (taps.map fun tap => ((tap.1.toNat : Int), tap.2)))

def blendChannel (taps : List (Int × Int)) : UInt8 := byteOf22 (weigh taps)

def strength (sharpening : Sharpening) : Int :=
  ofFloat (Float.ofNat sharpening.amount / 100.0)

def sharpenSample (strength threshold : Int) (unblurred blurred : UInt8) : UInt8 :=
  let difference := (unblurred.toNat : Int) - blurred.toNat
  if difference.natAbs ≥ threshold then
    toByte (unblurred.toNat + roundShift 15 (difference * strength))
  else unblurred

def sharpen {n : Nat} (colors : Nat) (sharpening : Sharpening) :
    (unblurred blurred : Vector UInt8 n) → Vector UInt8 n :=
  sharpenColors colors (sharpenSample (strength sharpening) sharpening.threshold)

def plain (n colors : Nat) : RowKernel n UInt8 Int Int where
  gather taps := Vector.ofFn fun c => gatherChannel (plane c taps)
  blend taps := Vector.ofFn fun c => blendChannel (plane c taps)
  sharpen := sharpen colors

-- A color weighted by its alpha
def gatherColor (c : Fin 4) (taps : List (Vector UInt8 4 × Int)) : Int :=
  wide15 (weigh (taps.map fun tap => (((tap.1.get c).toNat * (alphaOf tap.1).toNat : Int), tap.2)))

-- A color freed of its alpha, from the sums of both over the column
def divideColor (color alpha : Int) : UInt8 :=
  toByte ((color * 128 + alpha.tdiv 2).tdiv alpha)

def straight : RowKernel 4 UInt8 Int Int where
  gather taps := withAlpha (gatherColor · taps) (gatherChannel (alphaPlane taps))
  blend taps :=
    let alpha := weigh (alphaPlane taps)
    if byteOf22 alpha = 0 then Vector.replicate 4 0
    else withAlpha (fun c => divideColor (weigh (plane c taps)) alpha) (byteOf22 alpha)
  sharpen := sharpen 3

-- Straight alpha is treated as such in four channels only
def select : (n : Nat) → AlphaMode → RowKernel n UInt8 Int Int
  | 4, .straight => straight
  | n, alpha => plain n (alpha.colors n)

end Resampling.Kernel.Byte
