import Resampling.Error

-- A filter weighs a source sample by its signed distance, in source samples, from the point
-- that is reconstructed. Any function may serve; the standard ones are listed below it.

namespace Resampling

structure Filter where
  -- refuses parameters that give no usable filter
  validate : Except Error Unit
  -- radius beyond which the weight is zero
  support : Float
  weight : Float → Float

inductive Interpolation
  | point
  | box
  -- triangle, bilinear in two dimensions
  | linear
  | cubic (b c : Float)
  | lanczos (lobes : Nat)

namespace Filter

def pi : Float := Float.ofBits 0x400921FB54442D18

-- One on a half-open interval, so that of two samples at the same distance exactly one counts
def boxWeight (x : Float) : Float := if -0.5 ≤ x && x < 0.5 then 1.0 else 0.0

def linearWeight (x : Float) : Float := if x.abs < 1.0 then 1.0 - x.abs else 0.0

-- The two-parameter cubic family, in powers of the distance
def cubicWeight (b c x : Float) : Float :=
  let x := x.abs
  let x2 := x * x
  let x3 := x2 * x
  if x < 1.0 then
    ((12.0 - 9.0 * b - 6.0 * c) * x3 + (-18.0 + 12.0 * b + 6.0 * c) * x2 + (6.0 - 2.0 * b)) / 6.0
  else if x < 2.0 then
    ((-b - 6.0 * c) * x3 + (6.0 * b + 30.0 * c) * x2 + (-12.0 * b - 48.0 * c) * x +
      (8.0 * b + 24.0 * c)) / 6.0
  else 0.0

def sinc (x : Float) : Float :=
  if x.abs < 1e-9 then 1.0
  else
    let angle := pi * x
    angle.sin / angle

def lanczosWeight (lobes x : Float) : Float :=
  if x.abs ≥ lobes then 0.0 else sinc x * sinc (x / lobes)

-- Bell curve of the given deviation, cut off at three deviations
def gaussian (sigma : Float) : Filter where
  validate := if sigma.isFinite && sigma > 0.0 then .ok () else .error (.badFilter .sigma)
  support := sigma * 3.0
  weight x :=
    if x.abs ≥ sigma * 3.0 then 0.0 else (-(x * x) / (2.0 * sigma * sigma)).exp

-- Weights listed at quarter steps, the middle entry belonging to distance zero
def table (support : Float) (weights : Array Float) : Filter where
  validate := .ok ()
  support := support
  weight x :=
    let k := (x * 4.0).floor.toInt64.toInt + weights.size / 2
    if 0 ≤ k then weights.getD k.toNat 0.0 else 0.0

end Filter

namespace Interpolation

def catmullRom : Interpolation := .cubic 0.0 0.5
def mitchell : Interpolation := .cubic (1.0 / 3.0) (1.0 / 3.0)
def spline : Interpolation := .cubic 1.0 0.0
def standard : Interpolation := .lanczos 3

def validate : Interpolation → Except Error Unit
  | cubic b c =>
    if 0.0 ≤ b && b ≤ 1.0 && 0.0 ≤ c && c ≤ 1.0 then .ok ()
    else .error (.badFilter .cubicParameters)
  | lanczos 0 => .error (.badFilter .noLobes)
  | _ => .ok ()

def support : Interpolation → Float
  | point | box => 0.5
  | linear => 1.0
  | cubic _ _ => 2.0
  | lanczos lobes => Float.ofNat lobes

def weight : Interpolation → Float → Float
  | point | box => Filter.boxWeight
  | linear => Filter.linearWeight
  | cubic b c => Filter.cubicWeight b c
  | lanczos lobes => Filter.lanczosWeight (Float.ofNat lobes)

def filter (kind : Interpolation) : Filter where
  validate := kind.validate
  support := kind.support
  weight := kind.weight

end Interpolation

end Resampling
