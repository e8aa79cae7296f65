import Resampling.Kernel.Basic

-- 16-bit samples with 15 fractional bits. Colors may go up to just under two, alpha to one.

namespace Resampling.Kernel.Uq15

open FixedPoint

def gatherChannel (taps : List (UInt16 × Int)) : Int :=
  wide15 (weigh (taps.map fun tap => ((tap.1.toNat : Int), tap.2)))

def blendColor (taps : List (Int × Int)) : UInt16 := toSample (wide15 (weigh taps))

def blendAlpha (taps : List (Int × Int)) : UInt16 := toUnitSample (wide15 (weigh taps))

def strength (sharpening : Sharpening) : Int := (sharpening.amount * one + 50) / 100

-- The threshold in steps of a sample
def threshold (sharpening : Sharpening) : Int := (sharpening.threshold * one + 127) / 255

def sharpenSample (strength threshold : Int) (unblurred blurred : UInt16) : UInt16 :=
  let difference := (unblurred.toNat : Int) - blurred.toNat
  if difference.natAbs ≥ threshold then
    toSample (unblurred.toNat + wide15 (difference * strength))
  else unblurred

def sharpen {n : Nat} (colors : Nat) (sharpening : Sharpening) :
    (unblurred blurred : Vector UInt16 n) → Vector UInt16 n :=
  sharpenColors colors (sharpenSample (strength sharpening) (threshold sharpening))

def plain (n colors : Nat) : RowKernel n UInt16 Int Int where
  gather taps := Vector.ofFn fun c => gatherChannel (plane c taps)
  blend taps := Vector.ofFn fun c =>
    if c < colors then blendColor (plane c taps) else blendAlpha (plane c taps)
  sharpen := sharpen colors

def gatherColor (c : Fin 4) (taps : List (Vector UInt16 4 × Int)) : Int :=
  wrap32 (roundShift 30
    (weigh (taps.map fun tap => (((tap.1.get c).toNat * (alphaOf tap.1).toNat : Int), tap.2))))

def divideColor (color alpha : Int) : UInt16 :=
  toSample ((color * one + alpha.tdiv 2).tdiv alpha)

def straight : RowKernel 4 UInt16 Int Int where
  gather taps := withAlpha (gatherColor · taps) (gatherChannel (alphaPlane taps))
  blend taps :=
    let sum := weigh (alphaPlane taps)
    let alpha := toUnitSample (wide15 sum)
    if alpha = 0 then Vector.replicate 4 0
    else withAlpha (fun c => divideColor (weigh (plane c taps)) sum) alpha
  sharpen := sharpen 3

def select : (n : Nat) → AlphaMode → RowKernel n UInt16 Int Int
  | 4, .straight => straight
  | n, alpha => plain n (alpha.colors n)

end Resampling.Kernel.Uq15
