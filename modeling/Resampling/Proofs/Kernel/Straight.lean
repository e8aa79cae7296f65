import Resampling.Proofs.Kernel.Taps

-- Straight alpha in integers. Color enters by its product with alpha only, and where no alpha comes
-- out no color does.

namespace Resampling.Kernel

open FixedPoint AxisMap

section

variable {A : Type}

theorem get_withAlpha (color : Fin 4 → A) (alpha : A) {c : Fin 4} (hc : c.val < 3) :
    (withAlpha color alpha).get c = color c := by
  rw [withAlpha, Vector.get_ofFn, if_pos hc]

theorem get_withAlpha_last (color : Fin 4 → A) (alpha : A) :
    (withAlpha color alpha).get 3 = alpha := by
  rw [withAlpha, Vector.get_ofFn]
  rfl

variable [OfNat A 0] [DecidableEq A] {color : Fin 4 → A} {alpha : A}

-- Color where there is alpha
def unlessClear (color : Fin 4 → A) (alpha : A) : Vector A 4 :=
  if alpha = 0 then Vector.replicate 4 0 else withAlpha color alpha

theorem alphaOf_unlessClear (color : Fin 4 → A) (alpha : A) :
    alphaOf (unlessClear color alpha) = alpha := by
  unfold unlessClear
  split
  · rename_i hclear
    exact hclear.symm
  · exact get_withAlpha_last color alpha

theorem get_unlessClear {c : Fin 4} (hc : c.val < 3) (halpha : alpha ≠ 0) :
    (unlessClear color alpha).get c = color c := by
  rw [unlessClear, if_neg halpha, get_withAlpha color alpha hc]

theorem unlessClear_of_alphaOf_eq_zero (h : alphaOf (unlessClear color alpha) = 0) :
    unlessClear color alpha = Vector.replicate 4 0 := by
  rw [alphaOf_unlessClear] at h
  rw [unlessClear, if_pos h]

end

namespace Byte

theorem alphaOf_gather (taps : List (Vector UInt8 4 × Int)) :
    alphaOf (straight.gather taps) = gatherChannel (alphaPlane taps) :=
  get_withAlpha_last (gatherColor · taps) (gatherChannel (alphaPlane taps))

theorem get_gather {c : Fin 4} (hc : c.val < 3) (taps : List (Vector UInt8 4 × Int)) :
    (straight.gather taps).get c = gatherColor c taps :=
  get_withAlpha (gatherColor · taps) (gatherChannel (alphaPlane taps)) hc

theorem blend_straight (taps : List (Vector Int 4 × Int)) :
    straight.blend taps = unlessClear
      (fun c => divideColor (weigh (plane c taps)) (weigh (alphaPlane taps)))
      (byteOf22 (weigh (alphaPlane taps))) := by
  simp only [straight, unlessClear]

theorem gatherColor_taps (c : Fin 4) (r : Row Int) (pixel : Nat → Vector UInt8 4) :
    gatherColor c (r.taps pixel) = wide15 (weigh (r.taps fun k =>
      (((pixel k).get c).toNat * (alphaOf (pixel k)).toNat : Int))) := by
  unfold gatherColor
  rw [r.map_taps pixel fun pixel => ((pixel.get c).toNat * (alphaOf pixel).toNat : Int)]

-- Tame weights leave nothing to wrap around
theorem gatherColor_of_tame (c : Fin 4) {r : Row Int} (hmass : mass r.weights ≤ maxMass)
    (pixel : Nat → Vector UInt8 4) : gatherColor c (r.taps pixel) = roundShift 15 (weigh
      (r.taps fun k => (((pixel k).get c).toNat * (alphaOf (pixel k)).toNat : Int))) := by
  have hsum : (weigh (r.taps fun k =>
      (((pixel k).get c).toNat * (alphaOf (pixel k)).toNat : Int))).natAbs ≤
      2 ^ 23 * mass r.weights := by
    apply natAbs_weigh_taps_le
    intro k _
    have hcolor := ((pixel k).get c).toNat_lt
    have halpha := (alphaOf (pixel k)).toNat_lt
    rw [Int.natAbs_mul]
    exact (Nat.mul_le_mul (by omega) (by omega)).trans (show 256 * 256 ≤ 2 ^ 23 by decide)
  rw [gatherColor_taps]
  exact (Uq15.narrowIn_column (hsum.trans (Nat.mul_le_mul_left _ hmass))).2

end Byte

namespace Uq15

theorem alphaOf_gather (taps : List (Vector UInt16 4 × Int)) :
    alphaOf (straight.gather taps) = gatherChannel (alphaPlane taps) :=
  get_withAlpha_last (gatherColor · taps) (gatherChannel (alphaPlane taps))

theorem get_gather {c : Fin 4} (hc : c.val < 3) (taps : List (Vector UInt16 4 × Int)) :
    (straight.gather taps).get c = gatherColor c taps :=
  get_withAlpha (gatherColor · taps) (gatherChannel (alphaPlane taps)) hc

theorem blend_straight (taps : List (Vector Int 4 × Int)) :
    straight.blend taps = unlessClear
      (fun c => divideColor (weigh (plane c taps)) (weigh (alphaPlane taps)))
      (toUnitSample (wide15 (weigh (alphaPlane taps)))) := by
  simp only [straight, unlessClear]

theorem gatherColor_taps (c : Fin 4) (r : Row Int) (pixel : Nat → Vector UInt16 4) :
    gatherColor c (r.taps pixel) = wrap32 (roundShift 30 (weigh (r.taps fun k =>
      (((pixel k).get c).toNat * (alphaOf (pixel k)).toNat : Int)))) := by
  unfold gatherColor
  rw [r.map_taps pixel fun pixel => ((pixel.get c).toNat * (alphaOf pixel).toNat : Int)]

theorem gatherColor_of_tame (c : Fin 4) {r : Row Int} (hmass : mass r.weights ≤ maxMass)
    (pixel : Nat → Vector UInt16 4) : gatherColor c (r.taps pixel) = roundShift 30 (weigh
      (r.taps fun k => (((pixel k).get c).toNat * (alphaOf (pixel k)).toNat : Int))) := by
  have hsum : (weigh (r.taps fun k =>
      (((pixel k).get c).toNat * (alphaOf (pixel k)).toNat : Int))).natAbs ≤
      2 ^ 32 * mass r.weights := by
    apply natAbs_weigh_taps_le
    intro k _
    have hcolor := ((pixel k).get c).toNat_lt
    have halpha := (alphaOf (pixel k)).toNat_lt
    rw [Int.natAbs_mul]
    exact (Nat.mul_le_mul (by omega) (by omega)).trans (show 65536 * 65536 ≤ 2 ^ 32 by decide)
  have hle := hsum.trans (Nat.mul_le_mul_left _ hmass)
  unfold maxMass at hle
  rw [gatherColor_taps]
  apply wrap32_of_mem
  · rw [roundShift_eq]
    omega
  · rw [roundShift_eq]
    omega

end Uq15

end Resampling.Kernel
