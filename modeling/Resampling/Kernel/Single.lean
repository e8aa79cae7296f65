import Resampling.Kernel.Basic

-- Float samples. Both passes carry values as they are; only sharpening keeps to the range from
-- zero to one. With straight alpha the intermediate colors are multiplied by alpha.

namespace Resampling.Kernel.Single

def strength (sharpening : Sharpening) : Float32 := Float32.ofNat sharpening.amount / 100.0

def threshold (sharpening : Sharpening) : Float32 := Float32.ofNat sharpening.threshold / 255.0

-- A value that is not a number stays so
def clampUnit (x : Float32) : Float32 :=
  if x < 0.0 then 0.0 else if x > 1.0 then 1.0 else x

def sharpenSample (strength threshold unblurred blurred : Float32) : Float32 :=
  let difference := unblurred - blurred
  if difference.abs ≥ threshold then clampUnit (unblurred + difference * strength) else unblurred

def sharpen {n : Nat} (colors : Nat) (sharpening : Sharpening) :
    (unblurred blurred : Vector Float32 n) → Vector Float32 n :=
  sharpenColors colors (sharpenSample (strength sharpening) (threshold sharpening))

def plain (n colors : Nat) : RowKernel n Float32 Float32 Float32 where
  gather taps := Vector.ofFn fun c => weighFloat (plane c taps)
  blend taps := Vector.ofFn fun c => weighFloat (plane c taps)
  sharpen := sharpen colors

-- A color weighted by the weighted alpha
def gatherColor (c : Fin 4) (taps : List (Vector Float32 4 × Float32)) : Float32 :=
  weighFloat (taps.map fun tap => (tap.1.get c, alphaOf tap.1 * tap.2))

def straight : RowKernel 4 Float32 Float32 Float32 where
  gather taps := withAlpha (gatherColor · taps) (weighFloat (alphaPlane taps))
  blend taps :=
    let alpha := weighFloat (alphaPlane taps)
    if alpha ≤ 0.0 then withAlpha (fun _ => 0.0) alpha
    else withAlpha (fun c => weighFloat (plane c taps) / alpha) alpha
  sharpen := sharpen 3

def select : (n : Nat) → AlphaMode → RowKernel n Float32 Float32 Float32
  | 4, .straight => straight
  | n, alpha => plain n (alpha.colors n)

end Resampling.Kernel.Single
