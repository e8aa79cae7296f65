import Resampling.Proofs.Axis
import Resampling.Proofs.Kernel.Balanced

-- What weight tables are made of, whatever the filter: rows for all output samples, with their
-- taps in the source, and in fixed point with weights that make up one exactly.

namespace Resampling.AxisMap

open FixedPoint

-- A table from `inPixels` samples to `outPixels`: there are as many rows and weights as that takes,
-- and every row reads samples that the source has, from one whose number is a 32-bit word
structure WellFormed {W : Type} (map : AxisMap W) (inPixels outPixels : Nat) : Prop where
  inPixels_eq : map.inPixels = inPixels
  outPixels_eq : map.outPixels = outPixels
  samples_pos : 1 ≤ map.samples
  samples_le : map.samples ≤ inPixels
  size_rows : map.rows.size = outPixels
  length_weights : (map.rows.toList.flatMap Row.weights).length = outPixels * map.samples
  row : ∀ i < outPixels, ∃ r, map.row i = .ok r ∧ r.weights.length = map.samples ∧
    r.anchor + map.samples ≤ inPixels ∧ (UInt32.ofNat r.anchor).toNat = r.anchor

-- The weight that a filter gives source sample `p` in output sample `i`. It is asked for the
-- distance from the center of `i` in source samples, or in output samples where these lie wider.
def tapWeight (filter : Filter) (inPixels outPixels i p : Nat) : Float :=
  let scale := Float.ofNat outPixels / Float.ofNat inPixels
  let center := (Float.ofNat i + 0.5) / scale - 0.5
  filter.weight ((Float.ofNat p - center) * (if scale < 1.0 then scale else 1.0))

-- The part that tap `k` has in the sum of `samples` taps. If they sum to nothing, the nearest has
-- all of it.
def share (tap : Nat → Float) (samples nearest k : Nat) : Float :=
  let total := (List.range samples).foldl (fun total k => total + tap k) 0.0
  if total.abs < 1e-12 then if k = nearest then 1.0 else 0.0 else tap k / total

-- Shares in fixed point: each is rounded by itself, but for the tap at `nearest`, which takes up
-- what the others lose
structure Row.Rounds (r : Row Int) (share : Nat → Float) (nearest : Nat) : Prop where
  balanced : r.Balanced
  nearest_lt : nearest < r.weights.length
  weight_eq : ∀ k < r.weights.length, k ≠ nearest → r.weights[k]? = some (ofFloat (share k))

-- Row `i` has the weights of its filter, each at the source sample that it is multiplied with
def Row.Weighs (r : Row Int) (filter : Filter) (inPixels outPixels i : Nat) : Prop :=
  ∃ nearest, r.Rounds (share (fun k => tapWeight filter inPixels outPixels i (r.anchor + k))
    r.weights.length nearest) nearest

theorem sum_modify_add {weights : List Int} {nearest : Nat} (h : nearest < weights.length)
    (residual : Int) :
    (weights.modify nearest (· + residual)).sum = weights.sum + residual := by
  induction weights generalizing nearest with
  | nil => simp at h
  | cons w weights ih =>
    cases nearest with
    | zero =>
      rw [List.modify_zero_cons, List.sum_cons, List.sum_cons]
      omega
    | succ nearest =>
      rw [List.modify_succ_cons, List.sum_cons, List.sum_cons, ih (by simpa using h)]
      omega

theorem rounds_represent {real : List Float} {share : Nat → Float} {anchor nearest : Nat}
    (h : nearest < real.length) (hreal : ∀ k < real.length, real[k]? = some (share k)) :
    Row.Rounds ⟨anchor, Weight.represent real nearest⟩ share nearest where
  balanced := by
    show ((real.map ofFloat).modify nearest
      (· + (one - (real.map ofFloat).foldl (· + ·) 0))).sum = one
    rw [sum_modify_add (by simpa using h), ← List.sum_eq_foldl]
    omega
  nearest_lt := by rwa [LawfulWeight.length_represent]
  weight_eq k hk hne := by
    rw [LawfulWeight.length_represent] at hk
    show ((real.map ofFloat).modify nearest
      (· + (one - (real.map ofFloat).foldl (· + ·) 0)))[k]? = _
    rw [List.getElem?_modify, List.getElem?_map, hreal k hk]
    simp [hne.symm]

-- What normalizing makes of a list is the share of every tap in it
theorem getElem?_of_normalize_eq_ok {tap : Nat → Float} {samples nearest : Nat}
    {real : List Float} (h : normalize ((List.range samples).map tap) nearest = .ok real) {k : Nat}
    (hk : k < samples) : real[k]? = some (share tap samples nearest k) := by
  have htotal : sum ((List.range samples).map tap) =
      (List.range samples).foldl (fun total k => total + tap k) 0.0 := List.foldl_map
  unfold normalize at h
  unfold share
  rw [← htotal]
  split at h
  · cases h
  split at h
  · rename_i hsmall
    cases h
    rw [if_pos hsmall, List.getElem?_set, List.length_map, List.length_range, List.length_replicate,
      List.getElem?_replicate_of_lt hk]
    by_cases hnearest : k = nearest
    · rw [if_pos hnearest.symm, if_pos (hnearest ▸ hk), if_pos hnearest]
    · rw [if_neg (Ne.symm hnearest), if_neg hnearest]
  rename_i hsmall
  split at h
  · cases h
  · cases h
    simp [hsmall, hk]

theorem Fit.nearest_lt (fit : Fit) (i : Nat) (h : 0 < fit.samples) :
    fit.nearest i < fit.samples := by
  unfold nearest
  omega

-- A row that a fit makes has the weights of its filter
theorem Fit.weighs_of_row_eq_ok {filter : Filter} {inPixels outPixels i : Nat} {r : Row Int}
    (h : (make filter.support inPixels outPixels).row filter.weight i = .ok r) :
    r.Weighs filter inPixels outPixels i := by
  set fit := make filter.support inPixels outPixels
  obtain ⟨real, hreal, h⟩ := bind_eq_ok_iff.mp h
  cases h
  have hlength : real.length = fit.samples := by
    rw [length_of_normalize_eq_ok hreal, rawWeights, List.length_map, List.length_range]
  have hnearest : fit.nearest i < real.length := by
    rw [hlength]
    exact fit.nearest_lt i (samples_pos ..)
  refine ⟨fit.nearest i, rounds_represent hnearest fun k hk => ?_⟩
  rw [LawfulWeight.length_represent, hlength]
  exact getElem?_of_normalize_eq_ok hreal (hlength ▸ hk)

theorem wellFormed_of_sized {W : Type} {map : AxisMap W} (h : map.Sized) :
    map.WellFormed map.inPixels map.outPixels where
  inPixels_eq := rfl
  outPixels_eq := rfl
  samples_pos := h.samples_pos
  samples_le := by
    obtain ⟨r, -, hr, -⟩ := h.row_eq h.outPixels_pos
    exact Nat.le_trans (Nat.le_add_left ..) (h.anchor_le r hr)
  size_rows := h.size_rows
  length_weights := by
    have hrow : ∀ n ∈ map.rows.toList.map fun r => r.weights.length, n = map.samples := by
      intro n hn
      obtain ⟨r, hr, rfl⟩ := List.mem_map.mp hn
      exact h.length_weights r (by simpa using hr)
    rw [List.length_flatMap, List.sum_eq_card_nsmul _ _ hrow, List.length_map, Array.length_toList,
      h.size_rows, smul_eq_mul]
  row i hi := by
    obtain ⟨r, -, hr, hrow⟩ := h.row_eq hi
    have hanchor := h.anchor_le r hr
    have hin := h.inPixels_lt
    refine ⟨r, hrow, h.length_weights r hr, hanchor, ?_⟩
    rw [UInt32.toNat_ofNat', Nat.mod_eq_of_lt (by omega)]

-- Row `i` of a table is made for output sample `i`
theorem exists_row_of_build_eq_ok {W : Type} [Weight W] [LawfulWeight W] {filter : Filter}
    {inPixels outPixels : Nat} {map : AxisMap W} (h : build filter inPixels outPixels = .ok map)
    {i : Nat} (hi : i < outPixels) :
    ∃ r, map.row i = .ok r ∧
      (Fit.make filter.support inPixels outPixels).row filter.weight i = .ok r := by
  obtain ⟨hsized, -, hout⟩ := sized_of_build_eq_ok h
  obtain ⟨r, hget, -, hrow⟩ := hsized.row_eq (hout ▸ hi)
  refine ⟨r, hrow, ?_⟩
  unfold build at h
  obtain ⟨-, h⟩ := guard_eq_ok_iff.mp h
  obtain ⟨-, h⟩ := guard_eq_ok_iff.mp h
  obtain ⟨-, -, h⟩ := bind_eq_ok_iff.mp h
  obtain ⟨-, h⟩ := guard_eq_ok_iff.mp h
  obtain ⟨-, h⟩ := guard_eq_ok_iff.mp h
  obtain ⟨-, h⟩ := guard_eq_ok_iff.mp h
  obtain ⟨rows, hrows, h⟩ := bind_eq_ok_iff.mp h
  cases h
  obtain ⟨made, hmade, hfit⟩ := getElem?_of_mapM_eq_ok hrows (i := i) (by simpa using hi)
  have hget : rows.toArray[i]? = some r := hget
  rw [List.getElem?_toArray, hmade, Option.some_inj] at hget
  rw [← hget, ← hfit, List.getElem_range]

-- Every table that gets built is well formed, whatever its weights are. In fixed point they are
-- those of the filter, divided by their sum and rounded one by one, with what is missing from one
-- added to one of them.
theorem wellFormed_of_build (filter : Filter) (inPixels outPixels : Nat) :
    (∀ (W : Type) [Weight W] [LawfulWeight W] (map : AxisMap W),
      build filter inPixels outPixels = .ok map → map.WellFormed inPixels outPixels) ∧
    ∀ map : AxisMap Int, build filter inPixels outPixels = .ok map →
      ∀ i < outPixels, ∃ r, map.row i = .ok r ∧ r.Weighs filter inPixels outPixels i := by
  constructor
  · intro W _ _ map h
    obtain ⟨hsized, hin, hout⟩ := sized_of_build_eq_ok h
    have hformed := wellFormed_of_sized hsized
    rwa [hin, hout] at hformed
  · intro map h i hi
    obtain ⟨r, hrow, hmade⟩ := exists_row_of_build_eq_ok h hi
    exact ⟨r, hrow, Fit.weighs_of_row_eq_ok hmade⟩

-- A table gets built if its rows do and there is room for it
theorem build_eq_ok_of_rows {W : Type} [Weight W] {filter : Filter} {inPixels outPixels : Nat}
    {rows : Nat → Row W} (hzero : ¬(inPixels == 0 || outPixels == 0) = true)
    (hlarge : ¬(inPixels ≥ 0x1_0000_0000 || outPixels ≥ 0x1_0000_0000) = true)
    (hvalid : filter.validate = .ok ())
    (hsupport : ¬(!filter.support.isFinite || filter.support ≤ 0.0) = true)
    (hanchors : outPixels * anchorSize ≤ Word.maxAllocation)
    (hweights : outPixels * (Fit.make filter.support inPixels outPixels).samples * Weight.size W ≤
      Word.maxAllocation)
    (hrows : ∀ i < outPixels,
      (Fit.make filter.support inPixels outPixels).row filter.weight i = .ok (rows i)) :
    build filter inPixels outPixels =
      .ok ⟨inPixels, outPixels, (Fit.make filter.support inPixels outPixels).samples,
        ((List.range outPixels).map rows).toArray⟩ := by
  unfold build
  refine guard_eq_ok_iff.mpr ⟨hzero, ?_⟩
  refine guard_eq_ok_iff.mpr ⟨hlarge, ?_⟩
  refine bind_eq_ok_iff.mpr ⟨(), hvalid, ?_⟩
  refine guard_eq_ok_iff.mpr ⟨hsupport, ?_⟩
  refine guard_eq_ok_iff.mpr ⟨Nat.not_lt.mpr hanchors, ?_⟩
  refine guard_eq_ok_iff.mpr ⟨Nat.not_lt.mpr hweights, ?_⟩
  exact bind_eq_ok_iff.mpr ⟨_, mapM_eq_ok fun i hi => hrows i (List.mem_range.mp hi), rfl⟩

theorem normalize_eq_ok {weights : List Float} (hfinite : (mass weights).isFinite = true)
    (hsum : ¬(sum weights).abs < 1e-12) (hgain : ¬mass weights / (sum weights).abs > maxGain)
    (nearest : Nat) : normalize weights nearest = .ok (weights.map (· / sum weights)) := by
  unfold normalize
  rw [hfinite, if_neg (by decide), if_neg hsum, if_neg hgain]

-- A filter that weighs what is to the right three times what is to the left, and most what it is
-- centered on
namespace Slope

def filter : Filter := ⟨.ok (), 1.5, fun x => if x < 0.0 then 1.0 else if x > 0.0 then 3.0 else 4.0⟩

def fit : Fit := Fit.make filter.support 3 1

-- Some of the weights of the three samples
def weights (anchor samples : Nat) : List Float := ([1.0, 4.0, 3.0].drop anchor).take samples

def shares (anchor samples : Nat) : List Float :=
  (weights anchor samples).map (· / sum (weights anchor samples))

theorem normalize_weights {anchor samples : Nat} (hpos : 0 < samples) (hle : anchor + samples ≤ 3)
    (nearest : Nat) : normalize (weights anchor samples) nearest = .ok (shares anchor samples) := by
  have hchecks : ∀ anchor < 3, ∀ samples < 4, 0 < samples ∧ anchor + samples ≤ 3 →
      (mass (weights anchor samples)).isFinite = true ∧
        ¬(sum (weights anchor samples)).abs < 1e-12 ∧
        ¬mass (weights anchor samples) / (sum (weights anchor samples)).abs > maxGain := by
    decide +kernel
  obtain ⟨hfinite, hsum, hgain⟩ := hchecks anchor (by omega) samples (by omega) ⟨hpos, hle⟩
  exact normalize_eq_ok hfinite hsum hgain nearest

theorem samples_pos : 0 < fit.samples := Fit.samples_pos ..

theorem anchor_add_samples_le : fit.anchor 0 + fit.samples ≤ 3 :=
  fit.anchor_add_samples_le 0 (Fit.samples_le _ _ (by decide))

theorem rawWeights_fit : fit.rawWeights filter.weight 0 = weights (fit.anchor 0) fit.samples := by
  have htaps : ∀ anchor < 3, ∀ samples < 4, 0 < samples ∧ anchor + samples ≤ 3 →
      ((List.range samples).map fun k => tapWeight filter 3 1 0 (anchor + k)) =
        weights anchor samples := by
    decide +kernel
  have hle := anchor_add_samples_le
  have hpos := samples_pos
  exact htaps (fit.anchor 0) (by omega) fit.samples (by omega) ⟨hpos, hle⟩

def row (W : Type) [Weight W] : Row W :=
  ⟨fit.anchor 0, Weight.represent (shares (fit.anchor 0) fit.samples) (fit.nearest 0)⟩

def map (W : Type) [Weight W] : AxisMap W := ⟨3, 1, fit.samples, #[row W]⟩

-- The number of taps is left open, and where they start: the row is made in the same way
theorem build_eq_ok {W : Type} [Weight W] (hsize : Weight.size W ≤ 8) :
    build filter 3 1 = .ok (map W) := by
  have hle := anchor_add_samples_le
  have hrows : ∀ i < 1, fit.row filter.weight i = .ok (row W) := by
    intro i hi
    rw [Nat.lt_one_iff.mp hi]
    exact bind_eq_ok_iff.mpr ⟨_, rawWeights_fit ▸ normalize_weights samples_pos hle _, rfl⟩
  have hweights : 1 * fit.samples * Weight.size W ≤ Word.maxAllocation := by
    have hcount : 1 * fit.samples * Weight.size W ≤ 1 * 3 * 8 :=
      Nat.mul_le_mul (Nat.mul_le_mul_left 1 (by omega)) hsize
    have hroom : 1 * 3 * 8 ≤ Word.maxAllocation := by decide
    omega
  exact build_eq_ok_of_rows (by decide) (by decide) rfl (by decide +kernel) (by decide) hweights
    hrows

end Slope

-- Three samples brought down to one under such a filter, in floats and in fixed point. If all
-- three are read, they have one, four and three parts of eight.
theorem wellFormed_of_build_slope :
    build Slope.filter 3 1 = .ok (Slope.map Float32) ∧ (Slope.map Float32).WellFormed 3 1 ∧
    build Slope.filter 3 1 = .ok (Slope.map Int) ∧ (Slope.map Int).WellFormed 3 1 ∧
    ∃ r, (Slope.map Int).row 0 = .ok r ∧ r.Weighs Slope.filter 3 1 0 ∧
      ((Slope.map Int).samples = 3 →
        ∃ nearest, r.Rounds (fun k => [0.125, 0.5, 0.375].getD k 0.0) nearest) := by
  obtain ⟨hformed, hweighs⟩ := wellFormed_of_build Slope.filter 3 1
  have hsingle : build Slope.filter 3 1 = .ok (Slope.map Float32) :=
    Slope.build_eq_ok (by decide)
  have hfixed : build Slope.filter 3 1 = .ok (Slope.map Int) := Slope.build_eq_ok (by decide)
  have hmap := hformed Int _ hfixed
  obtain ⟨r, hr, hrow⟩ := hweighs _ hfixed 0 Nat.one_pos
  obtain ⟨_, hr', hlength, hanchor, -⟩ := hmap.row 0 Nat.one_pos
  obtain rfl := Except.ok.inj (hr.symm.trans hr')
  refine ⟨hsingle, hformed Float32 _ hsingle, hfixed, hmap, r, hr, hrow, fun hsamples => ?_⟩
  obtain ⟨nearest, hrounds⟩ := hrow
  rw [hsamples] at hlength hanchor
  have hnearest := hrounds.nearest_lt
  have hshares : ∀ nearest < 3, ∀ k < 3,
      share (fun k => tapWeight Slope.filter 3 1 0 (0 + k)) 3 nearest k =
        [0.125, 0.5, 0.375].getD k 0.0 := by decide +kernel
  rw [hlength, show r.anchor = 0 by omega] at hrounds
  rw [hlength] at hnearest
  refine ⟨nearest, hrounds.balanced, hrounds.nearest_lt, fun k hk hne => ?_⟩
  rw [← hshares nearest hnearest k (hlength ▸ hk)]
  exact hrounds.weight_eq k hk hne

end Resampling.AxisMap
