import Resampling.Axis.Map
import Resampling.Filter
import Resampling.Word

-- Weight tables from filters. When an axis shrinks, the filter is stretched so that it covers
-- every source sample that contributes.

namespace Resampling.AxisMap

-- Bound on the sum of absolute weights of a row that sums to one. It keeps every fixed-point
-- sum in range.
def maxGain : Float := 16.0

def anchorSize : Nat := 4

-- A filter fitted to an axis: `stretch` source distances make one filter distance
structure Fit where
  inPixels : Nat
  scale : Float
  stretch : Float
  support : Float
  samples : Nat

namespace Fit

def make (support : Float) (inPixels outPixels : Nat) : Fit :=
  let scale := Float.ofNat outPixels / Float.ofNat inPixels
  let stretch := if scale < 1.0 then scale else 1.0
  let support := support / stretch
  { inPixels := inPixels
    scale := scale
    stretch := stretch
    support := support
    samples := max 1 (min (support * 2.0).ceil.toUInt64.toNat inPixels) }

-- Where output sample `i` lies in the source
def center (fit : Fit) (i : Nat) : Float := (Float.ofNat i + 0.5) / fit.scale - 0.5

-- First source sample read, kept so far from the ends that all taps are in the source
def anchor (fit : Fit) (i : Nat) : Nat :=
  min (fit.center i - fit.support).ceil.toInt64.toInt.toNat (fit.inPixels - fit.samples)

-- The tap closest to the center, the lower of two at the same distance
def nearest (fit : Fit) (i : Nat) : Nat :=
  min ((fit.center i - 0.5).ceil.toInt64.toInt - fit.anchor i).toNat (fit.samples - 1)

def rawWeights (fit : Fit) (weight : Float → Float) (i : Nat) : List Float :=
  (List.range fit.samples).map fun k =>
    weight ((Float.ofNat (fit.anchor i + k) - fit.center i) * fit.stretch)

end Fit

def sum (weights : List Float) : Float := weights.foldl (· + ·) 0.0

def mass (weights : List Float) : Float := weights.foldl (fun total w => total + w.abs) 0.0

-- The weights divided by their sum. A row that sums to nothing reads the nearest sample alone,
-- and one whose sum is small against its weights is refused.
def normalize (weights : List Float) (nearest : Nat) : Except Error (List Float) :=
  if !(mass weights).isFinite then .error (.badFilter .weights)
  else if (sum weights).abs < 1e-12 then
    .ok ((List.replicate weights.length 0.0).set nearest 1.0)
  else if mass weights / (sum weights).abs > maxGain then .error (.badFilter .gain)
  else .ok (weights.map (· / sum weights))

variable {W : Type} [Weight W]

def Fit.row (fit : Fit) (weight : Float → Float) (i : Nat) : Except Error (Row W) := do
  let real ← normalize (fit.rawWeights weight i) (fit.nearest i)
  return { anchor := fit.anchor i, weights := Weight.represent real (fit.nearest i) }

-- The table that takes `inPixels` source samples to `outPixels`
def build (filter : Filter) (inPixels outPixels : Nat) : Except Error (AxisMap W) := do
  if inPixels == 0 || outPixels == 0 then throw .emptyAxis
  if inPixels ≥ 0x1_0000_0000 || outPixels ≥ 0x1_0000_0000 then throw .outOfMemory
  filter.validate
  if !filter.support.isFinite || filter.support ≤ 0.0 then throw (.badFilter .support)
  let fit := Fit.make filter.support inPixels outPixels
  if outPixels * anchorSize > Word.maxAllocation then throw .outOfMemory
  if outPixels * fit.samples * Weight.size W > Word.maxAllocation then throw .outOfMemory
  let rows ← (List.range outPixels).mapM (fit.row filter.weight)
  return {
    inPixels := inPixels
    outPixels := outPixels
    samples := fit.samples
    rows := rows.toArray }

-- The table of a bell-shaped blur, which keeps the length
def blur (pixels : Nat) (radius : Float) : Except Error (AxisMap W) := do
  if !radius.isFinite || radius ≤ 0.0 then throw (.badFilter .blurRadius)
  build (Filter.gaussian radius) pixels pixels

end Resampling.AxisMap
