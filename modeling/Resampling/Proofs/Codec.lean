import Resampling.Kernel.Select

-- Parts of packed rows. A value is read from its own bytes alone, so that a part of the bytes is
-- the bytes of a part.

namespace Resampling

-- A type whose values are read from no bytes but their own
class LocalElement (α : Type) [Element α] : Prop where
  ofBytes_congr : ∀ bytes bytes' : Nat → UInt8,
    (∀ k < Element.size α, bytes k = bytes' k) →
      (Element.ofBytes bytes : α) = Element.ofBytes bytes'

namespace Element

instance : LocalElement UInt8 where
  ofBytes_congr _ _ h := h 0 Nat.one_pos

instance : LocalElement UInt16 where
  ofBytes_congr bytes bytes' h := by
    have hvalue : littleEndian 2 bytes = littleEndian 2 bytes' := littleEndian_congr h
    simp only [ofBytes, hvalue]

instance : LocalElement Float32 where
  ofBytes_congr bytes bytes' h := by
    have hvalue : littleEndian 4 bytes = littleEndian 4 bytes' := littleEndian_congr h
    simp only [ofBytes, hvalue]

variable {α : Type} [Element α] {n : Nat}

instance [LocalElement α] : LocalElement (Vector α n) where
  ofBytes_congr bytes bytes' h := by
    apply Vector.ext
    intro i hi
    show (Vector.ofFn fun i : Fin n => ofBytes fun k => bytes (i * size α + k))[i] =
      (Vector.ofFn fun i : Fin n => ofBytes fun k => bytes' (i * size α + k))[i]
    rw [Vector.getElem_ofFn, Vector.getElem_ofFn]
    apply LocalElement.ofBytes_congr
    intro k hk
    exact h _ (entry_lt hi hk)

instance sampleLocalElement : (kind : SampleKind) → LocalElement kind.Sample
  | .byte => inferInstanceAs (LocalElement UInt8)
  | .uq15 => inferInstanceAs (LocalElement UInt16)
  | .float => inferInstanceAs (LocalElement Float32)

-- Part of a packed row reads as the part of the row
theorem decodeRow_extract [LocalElement α] (bytes : Array UInt8) {x width count : Nat}
    (h : x + width ≤ count) :
    decodeRow α width (bytes.extract (x * size α) ((x + width) * size α)) 0 =
      (decodeRow α count bytes 0).extract x (x + width) := by
  apply Array.ext
  · rw [size_decodeRow, Array.size_extract, size_decodeRow]
    omega
  · intro i hi _
    rw [size_decodeRow] at hi
    simp only [decodeRow, Array.getElem_ofFn, Array.getElem_extract]
    apply LocalElement.ofBytes_congr
    intro k hk
    have hentry : i * size α + k < width * size α := entry_lt hi hk
    have hwhere : 0 + (x + i) * size α + k = x * size α + (0 + i * size α + k) := by
      rw [Nat.add_mul]
      omega
    have hsize : (x + width) * size α = x * size α + width * size α := Nat.add_mul ..
    rw [Array.getD_eq_getD_getElem?, Array.getD_eq_getD_getElem?, Array.getElem?_extract, hwhere]
    by_cases hin : x * size α + (0 + i * size α + k) < bytes.size
    · rw [if_pos (by omega)]
    · rw [if_neg (by omega), Array.getElem?_eq_none (by omega)]

-- Part of a row packs as the part of the packed row
theorem encodeRow_extract (row : Array α) (x width : Nat) :
    encodeRow (row.extract x (x + width)) =
      (encodeRow row).extract (x * size α) ((x + width) * size α) := by
  rcases Nat.eq_zero_or_pos (size α) with hzero | hpos
  · apply Array.ext
    · simp [hzero]
    · intro p hp
      simp [hzero] at hp
  apply Array.ext_getElem?
  intro p
  -- `p` is byte `k` of value `i`
  obtain ⟨i, k, hk, rfl⟩ : ∃ i k, k < size α ∧ p = i * size α + k :=
    ⟨p / size α, p % size α, Nat.mod_lt p hpos, (Nat.div_add_mod' p (size α)).symm⟩
  have hstart : (x + i) * size α + k = x * size α + (i * size α + k) := by
    rw [Nat.add_mul, Nat.add_assoc]
  have hend : min ((x + width) * size α) (row.size * size α) - x * size α =
      (min (x + width) row.size - x) * size α := by
    rw [Nat.mul_min_mul_right, Nat.sub_mul]
  rw [Array.getElem?_extract, size_encodeRow, hend]
  by_cases hin : i < min (x + width) row.size - x
  · have hpart : i < (row.extract x (x + width)).size := by rwa [Array.size_extract]
    have hrow := getElem?_encodeRow row (x + i) k (by omega) hk
    rw [hstart] at hrow
    rw [getElem?_encodeRow _ i k hpart hk, if_pos (entry_lt hin hk), hrow, Array.getElem_extract]
  · have hle := Nat.mul_le_mul_right (size α) (Nat.le_of_not_lt hin)
    rw [if_neg (by omega), Array.getElem?_eq_none]
    rw [size_encodeRow, Array.size_extract]
    omega

end Element

end Resampling
