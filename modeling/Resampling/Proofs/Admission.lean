import Mathlib
import Resampling.Proofs.Stored

-- Admission of requests, told in natural numbers. Where a sum or product leaves the words, the
-- check answers as if it had them all.

namespace Resampling

theorem Rect.liesIn_iff {rect : Rect} {width height : Nat} (hwidth : width < Word.limit)
    (hheight : height < Word.limit) :
    rect.liesIn width height = true ↔
      rect.x + rect.width ≤ width ∧ rect.y + rect.height ≤ height := by
  rw [liesIn_eq_true_iff]
  omega

theorem MemoryImage.eq_of_make_eq_ok {format : PixelFormat} {width height stride : Nat}
    {data : Array UInt8} {image : MemoryImage}
    (h : make format width height stride data = .ok image) :
    image = ⟨format, width, height, stride, data⟩ := by
  unfold make at h
  obtain ⟨-, h⟩ := guard_eq_ok_iff.mp h
  obtain ⟨_, -, h⟩ := bind_eq_ok_iff.mp h
  cases h
  rfl

-- What an accepted rectangle has of a row lies in the data
theorem MemoryImage.part_end_le {format : PixelFormat} {width height stride : Nat}
    {data : Array UInt8} {image : MemoryImage}
    (hmake : make format width height stride data = .ok image) {x count y : Nat}
    (hx : x + count ≤ width) (hy : y < height) :
    y * stride + x * format.pixelSize + count * format.pixelSize ≤ data.size := by
  cases eq_of_make_eq_ok hmake
  have hend := ((placed_of_make_eq_ok hmake).row_end_le hy).1
  have hright := Nat.mul_le_mul_right format.pixelSize hx
  rw [Nat.add_mul] at hright
  simp only at hend
  omega

namespace Request

-- Bytes from the first of the first row to the last of the last row
def needed (request : Request) (pixelSize : Nat) : Nat :=
  (request.rect.height - 1) * request.stride + request.rect.width * pixelSize

-- The bytes of the memory that row `i` of the rectangle goes to
def target (request : Request) (pixelSize i : Nat) : Set Nat :=
  Set.Ico (i * request.stride) (i * request.stride + request.rect.width * pixelSize)

variable {request : Request} {width height pixelSize : Nat}

-- What is said to a rectangle of some pixels that lies in the image
theorem admit_of_liesIn (hin : request.rect.liesIn width height = true)
    (hempty : request.rect.isEmpty = false) :
    Request.admit request width height pixelSize =
      if request.stride < request.rect.width * pixelSize ∨
          Word.limit ≤ request.needed pixelSize then .error .narrowStride
      else if request.length < request.needed pixelSize then
        .error (.shortBuffer (request.needed pixelSize) request.length)
      else .ok () := by
  -- a product that is no word is part of a sum that is none
  have hrow : request.rect.width * pixelSize ≤ request.needed pixelSize := Nat.le_add_left ..
  have hskip : (request.rect.height - 1) * request.stride ≤ request.needed pixelSize :=
    Nat.le_add_right ..
  unfold Request.admit Word.mul? Word.add?
  rw [hin, hempty]
  by_cases hwords : request.needed pixelSize < Word.limit
  · rw [if_pos (Nat.lt_of_le_of_lt hrow hwords), if_pos (Nat.lt_of_le_of_lt hskip hwords)]
    unfold needed at hwords ⊢
    simp [hwords, Nat.not_le_of_lt hwords]
  · rw [if_pos (Or.inr (Nat.le_of_not_lt hwords))]
    unfold needed at hwords
    grind

theorem admit_eq (hwidth : width < Word.limit) (hheight : height < Word.limit) :
    Request.admit request width height pixelSize =
      if width < request.rect.x + request.rect.width ∨
          height < request.rect.y + request.rect.height then .error .outsideImage
      else if request.rect.width = 0 ∨ request.rect.height = 0 then .ok ()
      else if request.stride < request.rect.width * pixelSize ∨
          Word.limit ≤ request.needed pixelSize then .error .narrowStride
      else if request.length < request.needed pixelSize then
        .error (.shortBuffer (request.needed pixelSize) request.length)
      else .ok () := by
  have hlies := request.rect.liesIn_iff hwidth hheight
  have hempty : request.rect.isEmpty = true ↔
      request.rect.width = 0 ∨ request.rect.height = 0 := by simp [Rect.isEmpty]
  by_cases hin : request.rect.liesIn width height = true
  · have hbounds := hlies.mp hin
    rw [if_neg (by omega)]
    by_cases hnone : request.rect.isEmpty = true
    · rw [if_pos (hempty.mp hnone), Request.admit, hin, hnone]
      rfl
    · rw [if_neg (mt hempty.mpr hnone), admit_of_liesIn hin (by simpa using hnone)]
  · have hbounds := mt hlies.mpr hin
    rw [if_pos (by omega), Request.admit, if_pos (by simpa using hin)]

-- Rows that are no longer than the stride end before the next one begins
theorem target_end_le (h : request.rect.width * pixelSize ≤ request.stride) {i j : Nat}
    (hij : i < j) :
    i * request.stride + request.rect.width * pixelSize ≤ j * request.stride := by
  have hle := Nat.mul_le_mul_right request.stride hij
  rw [Nat.succ_mul] at hle
  omega

theorem pairwiseDisjoint_target (h : request.rect.width * pixelSize ≤ request.stride) :
    (Set.Iio request.rect.height).PairwiseDisjoint (request.target pixelSize) := by
  intro i _ j _ hne
  show Disjoint (request.target pixelSize i) (request.target pixelSize j)
  rw [target, target, Set.disjoint_left]
  intro p hi hj
  rw [Set.mem_Ico] at hi hj
  rcases Nat.lt_or_gt_of_ne hne with hlt | hgt
  · have hend := target_end_le h hlt
    omega
  · have hend := target_end_le h hgt
    omega

-- The check is exact, though it is made in words. A rectangle of some pixels that is admitted has
-- places of its own in the memory for all its rows, and an image in memory has all of them.
theorem admit_exact (request : Request) (hwidth : width < Word.limit)
    (hheight : height < Word.limit) (pixelSize : Nat) :
    Request.admit request width height pixelSize =
        (if width < request.rect.x + request.rect.width ∨
            height < request.rect.y + request.rect.height then .error .outsideImage
        else if request.rect.width = 0 ∨ request.rect.height = 0 then .ok ()
        else if request.stride < request.rect.width * pixelSize ∨
            Word.limit ≤ request.needed pixelSize then .error .narrowStride
        else if request.length < request.needed pixelSize then
          .error (.shortBuffer (request.needed pixelSize) request.length)
        else .ok ()) ∧
      (request.rect.isEmpty = false → Request.admit request width height pixelSize = .ok () →
        (Set.Iio request.rect.height).PairwiseDisjoint (request.target pixelSize) ∧
        (∀ i < request.rect.height, request.target pixelSize i ⊆ Set.Iio request.length) ∧
        ∀ format stride data image, MemoryImage.make format width height stride data = .ok image →
          format.pixelSize = pixelSize → ∀ i < request.rect.height,
            (request.rect.y + i) * stride + request.rect.x * pixelSize +
              request.rect.width * pixelSize ≤ data.size) := by
  refine ⟨admit_eq hwidth hheight, fun hempty haccept => ?_⟩
  have hplaced := (admit_eq_ok_iff hempty).mp haccept
  refine ⟨pairwiseDisjoint_target hplaced.row_le, fun i hi => ?_, ?_⟩
  · exact fun p hp => Nat.lt_of_lt_of_le hp.2 (hplaced.row_end_le hi).1
  · rintro format stride data image hmake rfl i hi
    exact MemoryImage.part_end_le hmake hplaced.right_le
      (Nat.lt_of_lt_of_le (Nat.add_lt_add_left hi _) hplaced.bottom_le)

-- Two pixels of three bytes, one below the other, in rows that are five bytes apart; the image has
-- rows of eight bytes, the last without its padding
theorem admit_exact_padded :
    let request : Request := ⟨⟨1, 1, 1, 2⟩, 5, 8⟩
    let image : MemoryImage := ⟨.bgr24, 2, 3, 8, Array.replicate 22 7⟩
    2 < Word.limit ∧ 3 < Word.limit ∧ Request.admit request 2 3 3 = .ok () ∧
      MemoryImage.make .bgr24 2 3 8 (Array.replicate 22 7) = .ok image ∧
      (Set.Iio 2).PairwiseDisjoint (request.target 3) ∧
      (∀ i < 2, request.target 3 i ⊆ Set.Iio 8) ∧
      ∀ i < 2, (1 + i) * 8 + 1 * 3 + 1 * 3 ≤ (Array.replicate 22 (7 : UInt8)).size := by
  intro request image
  have hmake : MemoryImage.make .bgr24 2 3 8 (Array.replicate 22 7) = .ok image := rfl
  obtain ⟨-, hplaces⟩ := admit_exact request (show 2 < Word.limit by decide)
    (show 3 < Word.limit by decide) 3
  obtain ⟨hdisjoint, hinside, hstored⟩ := hplaces rfl rfl
  exact ⟨by decide, by decide, rfl, hmake, hdisjoint, hinside, hstored _ _ _ _ hmake rfl⟩

end Request

end Resampling
