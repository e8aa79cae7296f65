import Resampling.Proofs.Kernel.Taps

-- What rounding after each pass costs. The second pass weighs what the first rounded off, so that
-- it counts as often as the weights of the second are large.

namespace Resampling

instance (map : AxisMap Int) : Decidable map.Tame :=
  inferInstanceAs (Decidable (∀ r ∈ map.rows, Kernel.mass r.weights ≤ Kernel.maxMass))

namespace Kernel

open FixedPoint AxisMap

theorem weigh_taps_eq_sum (r : Row Int) (value : Nat → Int) :
    weigh (r.taps value) = ∑ k : Fin r.weights.length, value k * r.weights[k] := by
  -- the taps are counted from any number on
  have hfrom : ∀ (weights : List Int) (first : Nat),
      weigh ((weights.zipIdx first).map fun entry => (value entry.2, entry.1)) =
        ∑ k : Fin weights.length, value (first + k) * weights[k] := by
    intro weights
    induction weights with
    | nil => intro first; simp [weigh]
    | cons weight weights ih =>
      intro first
      rw [List.zipIdx_cons, List.map_cons, weigh_cons, ih]
      simp [Fin.sum_univ_succ, Nat.add_assoc, Nat.add_comm 1]
  have hsum := hfrom r.weights 0
  simp only [Nat.zero_add] at hsum
  exact hsum

theorem mass_eq_sum (weights : List Int) :
    (mass weights : ℚ) = ∑ k : Fin weights.length, |(weights[k] : ℚ)| := by
  have hsum := Fin.sum_univ_fun_getElem weights Int.natAbs
  rw [mass, ← hsum]
  push_cast
  simp

theorem mass_of_nonneg {weights : List Int} (h : ∀ w ∈ weights, 0 ≤ w) :
    (mass weights : Int) = weights.sum := by
  induction weights with
  | nil => rfl
  | cons w weights ih =>
    have hfirst := h w (by simp)
    have hrest := ih fun w hw => h w (by simp [hw])
    unfold mass at hrest ⊢
    simp only [List.map_cons, List.sum_cons, ← hrest]
    omega

-- Errors of at most `e` each
theorem abs_weigh_taps_le {r : Row Int} {value : Nat → Int} {e : ℚ}
    (h : ∀ k, |(value k : ℚ)| ≤ e) : |(weigh (r.taps value) : ℚ)| ≤ e * mass r.weights := by
  rw [weigh_taps_eq_sum, mass_eq_sum, Finset.mul_sum]
  push_cast
  refine (Finset.abs_sum_le_sum_abs _ _).trans (Finset.sum_le_sum fun k _ => ?_)
  rw [abs_mul]
  exact mul_le_mul_of_nonneg_right (h k) (abs_nonneg _)

theorem abs_roundShift_sub_le {k : Nat} (hk : 0 < k) (x : Int) :
    |(roundShift k x : ℚ) - x / 2 ^ k| ≤ 1 / 2 := by
  have hpos : (0 : ℚ) < 2 ^ k := by positivity
  have hhalf : (2 : Int) ^ k = 2 * 2 ^ (k - 1) := by
    rw [← pow_succ', Nat.sub_add_cancel hk]
  have hsplit := Int.mul_ediv_add_emod (x + 2 ^ (k - 1)) (2 ^ k)
  have hlow := Int.emod_nonneg (x + 2 ^ (k - 1)) (show (2 : Int) ^ k ≠ 0 by positivity)
  have hhigh := Int.emod_lt_of_pos (x + 2 ^ (k - 1)) (show (0 : Int) < 2 ^ k by positivity)
  rw [← roundShift_eq] at hsplit
  have hle : |2 ^ k * roundShift k x - x| ≤ 2 ^ (k - 1) := by
    rw [abs_le]
    constructor <;> linarith
  have hle : |(2 : ℚ) ^ k * roundShift k x - x| ≤ 2 ^ (k - 1) := by exact_mod_cast hle
  have hhalf : (2 : ℚ) ^ k = 2 * 2 ^ (k - 1) := by exact_mod_cast hhalf
  have hscale : (roundShift k x : ℚ) - x / 2 ^ k = (2 ^ k * roundShift k x - x) / 2 ^ k := by
    field_simp
  rw [hscale, abs_div, abs_of_pos hpos, div_le_iff₀ hpos]
  linarith

-- A column of sums that were rounded, against the column of the sums
theorem abs_weigh_roundShift_sub_le {p : Nat} (hp : 0 < p) (r : Row Int) (sum : Nat → Int) :
    |(weigh (r.taps fun k => roundShift p (sum k)) : ℚ) - weigh (r.taps sum) / 2 ^ p| ≤
      (mass r.weights : ℚ) / 2 := by
  have hpos : (0 : ℚ) < 2 ^ p := by positivity
  have herror : ∀ k, |((2 ^ p * roundShift p (sum k) - 1 * sum k : Int) : ℚ)| ≤ 2 ^ p / 2 := by
    intro k
    have hround := abs_roundShift_sub_le hp (sum k)
    have hscale : (2 : ℚ) ^ p * roundShift p (sum k) - 1 * sum k =
        2 ^ p * (roundShift p (sum k) - sum k / 2 ^ p) := by field_simp
    push_cast
    rw [hscale, abs_mul, abs_of_pos hpos]
    linarith [mul_le_mul_of_nonneg_left hround hpos.le]
  have hweighed := abs_weigh_taps_le (r := r) herror
  rw [weigh_taps_sub, one_mul] at hweighed
  push_cast at hweighed
  generalize weigh (r.taps fun k => roundShift p (sum k)) = rounded at hweighed ⊢
  have hscale : (rounded : ℚ) - weigh (r.taps sum) / 2 ^ p =
      (2 ^ p * rounded - weigh (r.taps sum)) / 2 ^ p := by field_simp
  rw [hscale, abs_div, abs_of_pos hpos, div_le_iff₀ hpos]
  linarith

-- What a row across the source weighs, in row `k` of a window
def rowSum (value : Nat → Nat → Int) (rx ry : Row Int) (k : Nat) : Int :=
  weigh (rx.taps fun j => value (rx.anchor + j) (ry.anchor + k))

-- The separable convolution at one output sample. Both weights have 15 fractional bits.
def convolution (value : Nat → Nat → Int) (rx ry : Row Int) : ℚ :=
  ∑ k : Fin ry.weights.length, ∑ j : Fin rx.weights.length,
    value (rx.anchor + j) (ry.anchor + k) * rx.weights[j] * ry.weights[k] / 2 ^ 30

theorem convolution_eq (value : Nat → Nat → Int) (rx ry : Row Int) :
    convolution value rx ry = (weigh (ry.taps (rowSum value rx ry)) : ℚ) / 2 ^ 30 := by
  simp only [rowSum, weigh_taps_eq_sum, convolution]
  push_cast
  simp only [Finset.sum_mul, Finset.sum_div]

-- Both passes with a rounding after each
def rounded (p q : Nat) (value : Nat → Nat → Int) (rx ry : Row Int) : Int :=
  roundShift q (weigh (ry.taps fun k => roundShift p (rowSum value rx ry k)))

theorem abs_rounded_sub_convolution_le {p q : Nat} (hp : 0 < p) (hq : 0 < q) (hpq : p + q = 30)
    (value : Nat → Nat → Int) (rx ry : Row Int) :
    |(rounded p q value rx ry : ℚ) - convolution value rx ry| ≤
      1 / 2 + (mass ry.weights : ℚ) / 2 ^ (q + 1) := by
  have hfirst := abs_weigh_roundShift_sub_le hp ry (rowSum value rx ry)
  have hsecond := abs_roundShift_sub_le hq
    (weigh (ry.taps fun k => roundShift p (rowSum value rx ry k)))
  rw [convolution_eq, rounded]
  generalize weigh (ry.taps fun k => roundShift p (rowSum value rx ry k)) = sum at hfirst hsecond ⊢
  generalize weigh (ry.taps (rowSum value rx ry)) = whole at hfirst ⊢
  have hpos : (0 : ℚ) < 2 ^ q := by positivity
  have hscaled : |(sum : ℚ) / 2 ^ q - whole / 2 ^ 30| ≤ (mass ry.weights : ℚ) / 2 ^ (q + 1) := by
    have hsplit : (sum : ℚ) / 2 ^ q - whole / 2 ^ 30 = (sum - whole / 2 ^ p) / 2 ^ q := by
      rw [← hpq, pow_add]
      field_simp
    rw [hsplit, abs_div, abs_of_pos hpos, pow_succ', ← div_div]
    exact div_le_div_of_nonneg_right hfirst hpos.le
  calc |(roundShift q sum : ℚ) - whole / 2 ^ 30|
      ≤ |(roundShift q sum : ℚ) - sum / 2 ^ q| + |(sum : ℚ) / 2 ^ q - whole / 2 ^ 30| :=
        abs_sub_le ..
    _ ≤ 1 / 2 + (mass ry.weights : ℚ) / 2 ^ (q + 1) := add_le_add hsecond hscaled

-- Clamping brings values no further apart
theorem abs_clamp_sub_le (low high x : Int) (y : ℚ) :
    |(clamp low high x : ℚ) - max (low : ℚ) (min y high)| ≤ |(x : ℚ) - y| := by
  have hmin := abs_min_sub_min_le_max (x : ℚ) high y high
  rw [sub_self, abs_zero, max_eq_left (abs_nonneg _)] at hmin
  unfold clamp
  push_cast
  rw [max_comm (low : ℚ), max_comm (low : ℚ)]
  exact (abs_max_sub_max_le_abs _ _ _).trans hmin

theorem Byte.gatherChannel_taps (r : Row Int) (sample : Nat → UInt8) :
    gatherChannel (r.taps sample) =
      roundShift 8 (weigh (r.taps fun k => ((sample k).toNat : Int))) := by
  rw [gatherChannel, r.map_taps sample fun sample => (sample.toNat : Int)]

namespace Uq15

-- Tame weights leave nothing to wrap around
theorem gatherChannel_taps {r : Row Int} (hmass : mass r.weights ≤ maxMass)
    (sample : Nat → UInt16) : gatherChannel (r.taps sample) =
      roundShift 15 (weigh (r.taps fun k => ((sample k).toNat : Int))) := by
  have hsum : (weigh (r.taps fun k => ((sample k).toNat : Int))).natAbs ≤
      2 ^ 23 * mass r.weights := by
    apply natAbs_weigh_taps_le
    intro k _
    have hlt := (sample k).toNat_lt
    omega
  rw [gatherChannel, r.map_taps sample fun sample => (sample.toNat : Int)]
  exact (narrowIn_column (hsum.trans (Nat.mul_le_mul_left _ hmass))).2

theorem wide15_column {rx ry : Row Int} (hx : mass rx.weights ≤ maxMass)
    (hy : mass ry.weights ≤ maxMass) (value : Nat → Nat → UInt16) :
    wide15 (weigh (ry.taps fun k =>
        roundShift 15 (rowSum (fun x y => (value x y).toNat) rx ry k))) =
      rounded 15 15 (fun x y => (value x y).toNat) rx ry := by
  have hsum : (weigh (ry.taps fun k =>
      roundShift 15 (rowSum (fun x y => (value x y).toNat) rx ry k))).natAbs ≤
      2 ^ 23 * mass ry.weights := by
    apply natAbs_weigh_taps_le
    intro k _
    rw [rowSum, ← gatherChannel_taps hx]
    exact (gatherChannelIn_spec (by rwa [rx.map_snd_taps])).2
  exact (narrowIn_column (hsum.trans (Nat.mul_le_mul_left _ hy))).2

theorem wide15_throughBoth {rx ry : Row Int} (hx : mass rx.weights ≤ maxMass)
    (hy : mass ry.weights ≤ maxMass) (value : Nat → Nat → UInt16) :
    wide15 (throughBoth gatherChannel weigh value rx ry) =
      rounded 15 15 (fun x y => (value x y).toNat) rx ry := by
  rw [← wide15_column hx hy]
  simp only [throughBoth, gatherChannel_taps hx, rowSum]

end Uq15

end Kernel

end Resampling
