import Resampling.Source.Request

-- What it takes for a request to be met

namespace Resampling

namespace Request

-- One full row of an image, tightly packed
def fullRow (width pixelSize y : Nat) : Request :=
  ⟨⟨0, y, width, 1⟩, width * pixelSize, width * pixelSize⟩

-- A request that lies in an image and whose rows have their places in the memory
structure Placed (request : Request) (width height pixelSize : Nat) : Prop where
  right_le : request.rect.x + request.rect.width ≤ width
  right_lt : request.rect.x + request.rect.width < Word.limit
  bottom_le : request.rect.y + request.rect.height ≤ height
  bottom_lt : request.rect.y + request.rect.height < Word.limit
  row_le : request.rect.width * pixelSize ≤ request.stride
  end_le : (request.rect.height - 1) * request.stride + request.rect.width * pixelSize ≤
    request.length
  end_lt : (request.rect.height - 1) * request.stride + request.rect.width * pixelSize < Word.limit

variable {request : Request} {width height pixelSize : Nat}

theorem Placed.row_end_le (h : request.Placed width height pixelSize) {i : Nat}
    (hi : i < request.rect.height) :
    i * request.stride + request.rect.width * pixelSize ≤ request.length ∧
      i * request.stride + request.rect.width * pixelSize < Word.limit := by
  have hrow : i * request.stride ≤ (request.rect.height - 1) * request.stride :=
    Nat.mul_le_mul_right _ (by omega)
  have hlength := h.end_le
  have hlimit := h.end_lt
  omega

theorem admit_eq_ok_iff (hempty : request.rect.isEmpty = false) :
    Request.admit request width height pixelSize = .ok () ↔
      request.Placed width height pixelSize := by
  unfold Request.admit Word.mul? Word.add?
  rw [hempty]
  constructor
  · intro h
    by_cases hin : request.rect.liesIn width height
    · obtain ⟨⟨hrightLt, hbottomLt⟩, hright, hbottom⟩ := Rect.liesIn_eq_true_iff.mp hin
      simp only [hin, Bool.not_true, Bool.false_eq_true, if_false] at h
      split at h
      · cases h
      rename_i rowBytes hrowBytes
      split at hrowBytes
      · cases hrowBytes
        split at h
        · cases h
        rename_i hstride
        split at h
        · cases h
        rename_i needed hneeded
        split at h
        · cases h
        rename_i hlength
        split at hneeded
        · rw [Option.bind_some] at hneeded
          split at hneeded
          · cases hneeded
            exact ⟨hright, hrightLt, hbottom, hbottomLt, by omega, by omega, by omega⟩
          · cases hneeded
        · cases hneeded
      · cases hrowBytes
    · simp [hin] at h
  · intro ⟨hright, hrightLt, hbottom, hbottomLt, hrow, hlength, hlimit⟩
    have hin : request.rect.liesIn width height = true :=
      Rect.liesIn_eq_true_iff.mpr ⟨⟨hrightLt, hbottomLt⟩, hright, hbottom⟩
    simp only [hin, Bool.not_true, Bool.false_eq_true, if_false]
    rw [if_pos (by omega)]
    simp only
    rw [if_neg (by omega), if_pos (by omega)]
    simp only [Option.bind_some]
    rw [if_pos hlimit]
    simp only
    rw [if_neg (by omega)]

-- A rectangle lies in the image, whether it has pixels or none
theorem le_of_admit_eq_ok (h : Request.admit request width height pixelSize = .ok ()) :
    request.rect.x + request.rect.width ≤ width ∧
      request.rect.y + request.rect.height ≤ height := by
  unfold Request.admit at h
  by_cases hin : request.rect.liesIn width height
  · exact (Rect.liesIn_eq_true_iff.mp hin).2
  · simp [hin] at h

-- Every pixel that is asked for lies in the image
theorem lt_of_admit_eq_ok (h : Request.admit request width height pixelSize = .ok ()) {i j : Nat}
    (hj : j < request.rect.width) (hi : i < request.rect.height) :
    request.rect.x + j < width ∧ request.rect.y + i < height := by
  obtain ⟨hright, hbottom⟩ := le_of_admit_eq_ok h
  exact ⟨Nat.lt_of_lt_of_le (Nat.add_lt_add_left hj _) hright,
    Nat.lt_of_lt_of_le (Nat.add_lt_add_left hi _) hbottom⟩

theorem isEmpty_fullRow (hwidth : 0 < width) (y : Nat) :
    (fullRow width pixelSize y).rect.isEmpty = false := by
  simp only [fullRow, Rect.isEmpty, Bool.or_eq_false_iff, beq_eq_false_iff_ne]
  omega

-- Requests are refused for what is wrong with them
theorem admit_ne_fault : Request.admit request width height pixelSize ≠ .error .fault := by
  unfold Request.admit
  repeat' split
  all_goals simp

end Request

end Resampling
