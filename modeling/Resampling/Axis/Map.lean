import Resampling.FixedPoint
import Resampling.Span

-- The weight table of one axis: for each output sample the source sample where its taps start
-- and what they weigh. Near the ends the taps are moved inward, so that all rows are equally
-- wide.

namespace Resampling

inductive WeightKind
  | fixed
  | single
  | double
  deriving DecidableEq, Repr

@[reducible]
def WeightKind.Carrier : WeightKind → Type
  | .fixed => Int
  | .single => Float32
  | .double => Float

class Weight (W : Type) where
  -- bytes of one weight
  size : Nat
  -- the weights of a row that sums to one, with the rounding error of the sum added to the
  -- weight at index `nearest`
  represent : (real : List Float) → (nearest : Nat) → List W

-- The sums here stay far inside 32 bits. A weight that does not round to zero is at least half a
-- unit, so that rounding makes it at most twice as large, and in absolute value the weights of a
-- row sum to `maxGain` at most, which is 16: no sum passes 32 times one, and no weight twice that.
instance : Weight Int where
  size := 4
  represent real nearest :=
    let weights := real.map FixedPoint.ofFloat
    weights.modify nearest (· + (FixedPoint.one - weights.foldl (· + ·) 0))

instance : Weight Float32 where
  size := 4
  represent real nearest :=
    let weights := real.map Float.toFloat32
    weights.modify nearest (· + (1.0 - weights.foldl (· + ·) 0.0))

instance : Weight Float where
  size := 8
  represent real nearest := real.modify nearest (· + (1.0 - real.foldl (· + ·) 0.0))

instance WeightKind.weight : (kind : WeightKind) → Weight kind.Carrier
  | .fixed => inferInstanceAs (Weight Int)
  | .single => inferInstanceAs (Weight Float32)
  | .double => inferInstanceAs (Weight Float)

structure AxisMap.Row (W : Type) where
  anchor : Nat
  weights : List W

structure AxisMap (W : Type) where
  inPixels : Nat
  outPixels : Nat
  samples : Nat
  rows : Array (AxisMap.Row W)

namespace AxisMap

variable {W : Type}

-- What output sample `i` reads. The weights of all rows stand in one table.
def row (map : AxisMap W) (i : Nat) : Except Error (Row W) := do
  Span.check 1 (i * map.samples) map.samples (map.outPixels * map.samples)
  match map.rows[i]? with
  | none => throw .fault
  | some row => return row

-- A row for every output sample, and the taps of each row inside the source
structure Shaped (map : AxisMap W) : Prop where
  samples_pos : 0 < map.samples
  size_rows : map.rows.size = map.outPixels
  length_weights : ∀ row ∈ map.rows, row.weights.length = map.samples
  anchor_le : ∀ row ∈ map.rows, row.anchor + map.samples ≤ map.inPixels

end AxisMap

end Resampling
