import Resampling.Axis.Build
import Resampling.Proofs.Outcome

-- Every weight table that gets built is well shaped, whatever the filter

namespace Resampling

-- A representation that keeps the number of weights
class LawfulWeight (W : Type) [Weight W] : Prop where
  length_represent (real : List Float) (nearest : Nat) :
    (Weight.represent real nearest : List W).length = real.length

instance : LawfulWeight Int where
  length_represent real nearest := by simp [Weight.represent]

instance : LawfulWeight Float32 where
  length_represent real nearest := by simp [Weight.represent]

instance : LawfulWeight Float where
  length_represent real nearest := by simp [Weight.represent]

instance WeightKind.lawfulWeight : (kind : WeightKind) → LawfulWeight kind.Carrier
  | .fixed => inferInstanceAs (LawfulWeight Int)
  | .single => inferInstanceAs (LawfulWeight Float32)
  | .double => inferInstanceAs (LawfulWeight Float)

namespace AxisMap

-- A shaped table between axes of real lengths
structure Sized {W : Type} (map : AxisMap W) : Prop extends map.Shaped where
  outPixels_pos : 0 < map.outPixels
  inPixels_lt : map.inPixels < 0x1_0000_0000
  outPixels_lt : map.outPixels < 0x1_0000_0000

instance {W : Type} (map : AxisMap W) : Decidable map.Sized :=
  decidable_of_iff
    ((0 < map.samples ∧ map.rows.size = map.outPixels ∧
      (∀ r ∈ map.rows, r.weights.length = map.samples) ∧
      ∀ r ∈ map.rows, r.anchor + map.samples ≤ map.inPixels) ∧
      0 < map.outPixels ∧ map.inPixels < 0x1_0000_0000 ∧ map.outPixels < 0x1_0000_0000)
    ⟨fun ⟨⟨hsamples, hsize, hlength, hanchor⟩, hpos, hin, hout⟩ =>
        ⟨⟨hsamples, hsize, hlength, hanchor⟩, hpos, hin, hout⟩,
      fun h => ⟨⟨h.samples_pos, h.size_rows, h.length_weights, h.anchor_le⟩, h.outPixels_pos,
        h.inPixels_lt, h.outPixels_lt⟩⟩

-- Every row of the table is found, and lies in the table of weights
theorem Sized.row_eq {W : Type} {map : AxisMap W} (h : map.Sized) {i : Nat}
    (hi : i < map.outPixels) :
    ∃ r, map.rows[i]? = some r ∧ r ∈ map.rows ∧ map.row i = .ok r := by
  have hrow : i < map.rows.size := by rwa [h.size_rows]
  refine ⟨map.rows[i], Array.getElem?_eq_getElem hrow, Array.getElem_mem hrow, ?_⟩
  have hend : i * map.samples + map.samples ≤ map.outPixels * map.samples := by
    have hle := Nat.mul_le_mul_right map.samples hi
    rwa [Nat.succ_mul] at hle
  have hwords : map.outPixels * map.samples ≤ 0x1_0000_0000 * (0x1_0000_0000 - 1) := by
    have hsamples : map.samples ≤ 0x1_0000_0000 - 1 := by
      have hanchor := h.anchor_le _ (Array.getElem_mem hrow)
      have hin := h.inPixels_lt
      omega
    exact Nat.mul_le_mul (Nat.le_of_lt h.outPixels_lt) hsamples
  have hcheck : Span.check 1 (i * map.samples) map.samples (map.outPixels * map.samples) =
      .ok () := by
    rw [Span.check_eq_ok_iff]
    unfold Word.limit
    omega
  refine bind_eq_ok_iff.mpr ⟨_, hcheck, ?_⟩
  rw [Array.getElem?_eq_getElem hrow]
  rfl

theorem Sized.inPixels_pos {W : Type} {map : AxisMap W} (h : map.Sized) : 0 < map.inPixels := by
  obtain ⟨r, -, hr, -⟩ := h.row_eq h.outPixels_pos
  have hsamples := h.samples_pos
  have hanchor := h.anchor_le r hr
  omega

theorem length_of_normalize_eq_ok {weights real : List Float} {nearest : Nat}
    (h : normalize weights nearest = .ok real) : real.length = weights.length := by
  unfold normalize at h
  split at h
  · cases h
  split at h
  · cases h
    simp
  split at h
  · cases h
  · cases h
    simp

theorem Fit.samples_le (support : Float) {inPixels : Nat} (outPixels : Nat) (hin : 0 < inPixels) :
    (make support inPixels outPixels).samples ≤ inPixels := by
  unfold make
  simp only
  omega

theorem Fit.samples_pos (support : Float) (inPixels outPixels : Nat) :
    0 < (make support inPixels outPixels).samples := by
  unfold make
  simp only
  omega

-- The taps of a row are moved inward until they lie in the source
theorem Fit.anchor_add_samples_le (fit : Fit) (i : Nat) (h : fit.samples ≤ fit.inPixels) :
    fit.anchor i + fit.samples ≤ fit.inPixels := by
  unfold anchor
  omega

variable {W : Type} [Weight W]

theorem build_of_blur_eq_ok {pixels : Nat} {radius : Float} {map : AxisMap W}
    (h : blur pixels radius = .ok map) :
    build (Filter.gaussian radius) pixels pixels = .ok map := by
  unfold blur at h
  exact (guard_eq_ok_iff.mp h).2

variable [LawfulWeight W]

theorem Fit.of_row_eq_ok {fit : Fit} {weight : Float → Float} {i : Nat} {row : Row W}
    (h : fit.row weight i = .ok row) :
    row.anchor = fit.anchor i ∧ row.weights.length = fit.samples := by
  obtain ⟨real, hreal, h⟩ := bind_eq_ok_iff.mp h
  cases h
  refine ⟨rfl, ?_⟩
  rw [LawfulWeight.length_represent, length_of_normalize_eq_ok hreal]
  simp [rawWeights]

theorem sized_of_build_eq_ok {filter : Filter} {inPixels outPixels : Nat} {map : AxisMap W}
    (h : build filter inPixels outPixels = .ok map) :
    map.Sized ∧ map.inPixels = inPixels ∧ map.outPixels = outPixels := by
  unfold build at h
  obtain ⟨hzero, h⟩ := guard_eq_ok_iff.mp h
  obtain ⟨hlarge, h⟩ := guard_eq_ok_iff.mp h
  obtain ⟨-, -, h⟩ := bind_eq_ok_iff.mp h
  obtain ⟨-, h⟩ := guard_eq_ok_iff.mp h
  obtain ⟨-, h⟩ := guard_eq_ok_iff.mp h
  obtain ⟨-, h⟩ := guard_eq_ok_iff.mp h
  obtain ⟨rows, hrows, h⟩ := bind_eq_ok_iff.mp h
  cases h
  simp only [Bool.or_eq_true, beq_iff_eq, decide_eq_true_eq, not_or] at hzero hlarge
  obtain ⟨hlength, hmem⟩ := of_mapM_eq_ok hrows
  have hsamples := Fit.samples_le filter.support outPixels (Nat.pos_of_ne_zero hzero.1)
  refine ⟨{
    samples_pos := Fit.samples_pos ..
    size_rows := by simpa using hlength
    length_weights := fun row hrow => ?_
    anchor_le := fun row hrow => ?_
    outPixels_pos := Nat.pos_of_ne_zero hzero.2
    inPixels_lt := Nat.lt_of_not_ge hlarge.1
    outPixels_lt := Nat.lt_of_not_ge hlarge.2 }, rfl, rfl⟩
  · obtain ⟨i, -, hi⟩ := hmem row (by simpa using hrow)
    exact (Fit.of_row_eq_ok hi).2
  · obtain ⟨i, -, hi⟩ := hmem row (by simpa using hrow)
    rw [(Fit.of_row_eq_ok hi).1]
    exact Fit.anchor_add_samples_le _ i hsamples

end AxisMap

end Resampling
