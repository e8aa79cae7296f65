import Resampling.Proofs.Kernel.Checked

-- Bounds that are carried through both passes. Samples times weights of bounded mass give bounded
-- intermediate values, and these times weights of bounded mass still fit.

namespace Resampling.Kernel

open FixedPoint

variable {n : Nat}

theorem weighIn_spec (bits bound : Nat) {taps : List (Int × Int)}
    (hvalue : ∀ tap ∈ taps, tap.1.natAbs ≤ bound) (hmass : mass (taps.map Prod.snd) ≤ maxMass)
    (hfits : bound * maxMass < 2 ^ (bits - 1)) :
    weighIn bits taps = .ok (weigh taps) ∧ (weigh taps).natAbs ≤ bound * maxMass := by
  have hle := Nat.mul_le_mul_left bound hmass
  exact ⟨weighIn_eq_ok bound hvalue (Nat.lt_of_le_of_lt hle hfits),
    Nat.le_trans (natAbs_weigh_le bound hvalue) hle⟩

theorem mass_samples {A B : Type} (value : A → B) (taps : List (A × Int)) :
    mass ((taps.map fun tap => (value tap.1, tap.2)).map Prod.snd) = mass (taps.map Prod.snd) := by
  rw [List.map_map]
  rfl

theorem weighIn_samples {A : Type} (bits bound : Nat) (value : A → Int)
    (hvalue : ∀ a, (value a).natAbs ≤ bound) {taps : List (A × Int)}
    (hmass : mass (taps.map Prod.snd) ≤ maxMass) (hfits : bound * maxMass < 2 ^ (bits - 1)) :
    weighIn bits (taps.map fun tap => (value tap.1, tap.2)) =
      .ok (weigh (taps.map fun tap => (value tap.1, tap.2))) ∧
    (weigh (taps.map fun tap => (value tap.1, tap.2))).natAbs ≤ bound * maxMass := by
  apply weighIn_spec bits bound _ _ hfits
  · intro tap htap
    obtain ⟨pair, -, rfl⟩ := List.mem_map.mp htap
    exact hvalue pair.1
  · rwa [mass_samples]

theorem weighProductsIn_samples {A : Type} (bits bound : Nat) (value : A → Int × Int)
    (hvalue : ∀ a, ((value a).1 * (value a).2).natAbs ≤ bound) {taps : List (A × Int)}
    (hmass : mass (taps.map Prod.snd) ≤ maxMass) (hproduct : bound < 2 ^ (bits - 1))
    (hfits : bound * maxMass < 2 ^ (64 - 1)) :
    weighProductsIn bits (taps.map fun tap => (value tap.1, tap.2)) =
      .ok (weigh (taps.map fun tap => ((value tap.1).1 * (value tap.1).2, tap.2))) ∧
    (weigh (taps.map fun tap => ((value tap.1).1 * (value tap.1).2, tap.2))).natAbs ≤
      bound * maxMass := by
  have hsum := weighIn_samples 64 bound (fun a => (value a).1 * (value a).2) hvalue hmass hfits
  refine ⟨?_, hsum.2⟩
  have hproducts : (taps.map fun tap => (value tap.1, tap.2)).mapM (fun tap => do
      return (← fit bits (tap.1.1 * tap.1.2), tap.2)) =
      (.ok ((taps.map fun tap => (value tap.1, tap.2)).map fun tap =>
        (tap.1.1 * tap.1.2, tap.2)) : Except Error _) := by
    apply mapM_eq_ok
    intro tap htap
    obtain ⟨pair, -, rfl⟩ := List.mem_map.mp htap
    rw [fit_eq_ok (Nat.lt_of_le_of_lt (hvalue pair.1) hproduct)]
    rfl
  rw [List.map_map] at hproducts
  exact bind_eq_ok_iff.mpr ⟨_, hproducts, hsum.1⟩

theorem mass_plane {A : Type} (c : Fin n) (taps : List (Vector A n × Int)) :
    mass ((plane c taps).map Prod.snd) = mass (taps.map Prod.snd) :=
  mass_samples (fun pixel => pixel.get c) taps

theorem mass_alphaPlane {A : Type} (taps : List (Vector A 4 × Int)) :
    mass ((alphaPlane taps).map Prod.snd) = mass (taps.map Prod.snd) :=
  mass_samples alphaOf taps

theorem weighIn_column (c : Fin n) (bound : Nat) {column : List (Vector Int n)}
    {weights : List Int} (hvalue : ∀ pixel ∈ column, (pixel.get c).natAbs ≤ bound)
    (hmass : mass weights ≤ maxMass) (hfits : bound * maxMass < 2 ^ (64 - 1)) :
    weighIn 64 (plane c (column.zip weights)) = .ok (weigh (plane c (column.zip weights))) ∧
      (weigh (plane c (column.zip weights))).natAbs ≤ bound * maxMass := by
  apply weighIn_spec 64 bound _ _ hfits
  · intro tap htap
    obtain ⟨pair, hpair, rfl⟩ := List.mem_map.mp htap
    exact hvalue pair.1 (List.of_mem_zip hpair).1
  · rw [mass_plane]
    exact Nat.le_trans (mass_zip_le column weights) hmass

-- All sums of a column at once, and alpha's among them
theorem channelsIn_sums {taps : List (Vector Int 4 × Int)}
    (h : ∀ c, weighIn 64 (plane c taps) = .ok (weigh (plane c taps))) :
    ∃ sums : Vector Int 4, channelsIn 4 (fun c => weighIn 64 (plane c taps)) = .ok sums ∧
      (∀ c, sums.get c = weigh (plane c taps)) ∧ alphaOf sums = weigh (alphaPlane taps) := by
  refine ⟨_, channelsIn_eq_ok h, fun c => by simp, ?_⟩
  rw [alphaOf, Vector.getElem_ofFn]
  rfl

-- What holds of every color and of alpha holds of every channel
theorem forall_withAlpha {A : Type} {P : A → Prop} {color : Fin 4 → A} {alpha : A}
    (hcolor : ∀ c, P (color c)) (halpha : P alpha) (c : Fin 4) :
    P ((withAlpha color alpha).get c) := by
  rw [withAlpha, Vector.get_ofFn]
  split
  · exact hcolor c
  · exact halpha

-- A checked kernel computes what the kernel does, on any samples with weights of bounded mass,
-- and then on columns of what that gives
structure Checked.Covers {S : Type} (checked : Checked n S) (kernel : RowKernel n S Int Int) :
    Prop where
  gather : ∀ taps, mass (taps.map Prod.snd) ≤ maxMass →
    checked.gather taps = .ok (kernel.gather taps)
  blend : ∀ (column : List (Vector Int n)) (weights : List Int),
    (∀ pixel ∈ column, ∃ taps, mass (taps.map Prod.snd) ≤ maxMass ∧ pixel = kernel.gather taps) →
    mass weights ≤ maxMass →
    checked.blend (column.zip weights) = .ok (kernel.blend (column.zip weights))

namespace Byte

theorem gatherChannelIn_spec {taps : List (UInt8 × Int)}
    (hmass : mass (taps.map Prod.snd) ≤ maxMass) :
    gatherChannelIn taps = .ok (gatherChannel taps) ∧ (gatherChannel taps).natAbs ≤ 2 ^ 23 := by
  have hvalue : ∀ sample : UInt8, ((sample.toNat : Int)).natAbs ≤ 255 := by
    intro sample
    have hlt := sample.toNat_lt
    omega
  obtain ⟨hsum, hle⟩ := weighIn_samples 32 255 _ hvalue hmass (by decide)
  unfold gatherChannelIn gatherChannel
  generalize weigh (taps.map fun tap => ((tap.1.toNat : Int), tap.2)) = sum at hsum hle ⊢
  unfold maxMass at hle
  have hbound : (roundShift 8 sum).natAbs ≤ 2 ^ 23 := by
    rw [roundShift_eq]
    omega
  have hshift : roundShiftIn 32 8 sum = .ok (roundShift 8 sum) := roundShiftIn_eq_ok (by omega)
  have hfit : fit 32 (roundShift 8 sum) = .ok (roundShift 8 sum) := fit_eq_ok (by omega)
  exact ⟨bind_eq_ok_iff.mpr ⟨sum, hsum, bind_eq_ok_iff.mpr ⟨_, hshift, hfit⟩⟩, hbound⟩

theorem gatherColorIn_spec (c : Fin 4) {taps : List (Vector UInt8 4 × Int)}
    (hmass : mass (taps.map Prod.snd) ≤ maxMass) :
    gatherColorIn c taps = .ok (gatherColor c taps) ∧ (gatherColor c taps).natAbs ≤ 2 ^ 23 := by
  have hvalue : ∀ pixel : Vector UInt8 4,
      (((pixel.get c).toNat : Int) * ((alphaOf pixel).toNat : Int)).natAbs ≤ 255 * 255 := by
    intro pixel
    have hcolor := (pixel.get c).toNat_lt
    have halpha := (alphaOf pixel).toNat_lt
    rw [Int.natAbs_mul]
    exact Nat.mul_le_mul (by omega) (by omega)
  obtain ⟨hsum, hle⟩ := weighProductsIn_samples 32 (255 * 255)
    (fun pixel => (((pixel.get c).toNat : Int), ((alphaOf pixel).toNat : Int)))
    hvalue hmass (by decide) (by decide)
  unfold gatherColorIn gatherColor wide15
  simp only at hsum hle ⊢
  generalize weigh (taps.map fun tap =>
    (((tap.1.get c).toNat * (alphaOf tap.1).toNat : Int), tap.2)) = sum at hsum hle ⊢
  unfold maxMass at hle
  have hwide : (sum + 2 ^ (15 - 1)).natAbs < 2 ^ (64 - 1) := by omega
  have hbound : (roundShift 15 sum).natAbs ≤ 2 ^ 23 := by
    rw [roundShift_eq]
    omega
  obtain ⟨hnarrow, hnarrowed⟩ := narrowIn_spec (2 ^ 23) hwide hbound (by decide)
  exact ⟨bind_eq_ok_iff.mpr ⟨sum, hsum, hnarrow⟩, hnarrowed⟩

-- Alpha that is not rounded to zero is positive
theorem pos_of_byteOf22_ne_zero {x : Int} (h : byteOf22 x ≠ 0) : 0 < x := by
  by_cases hpos : 0 < x
  · exact hpos
  · have hshift : roundShift 22 x ≤ 0 := by
      rw [roundShift_eq]
      omega
    have hclamp : clamp 0 255 (roundShift 22 x) = 0 := by
      unfold clamp
      omega
    rw [byteOf22, toByte, hclamp] at h
    exact absurd rfl h

theorem roundShiftIn_column {x : Int} (h : x.natAbs ≤ 2 ^ 23 * maxMass) :
    roundShiftIn 64 22 x = .ok (roundShift 22 x) := by
  unfold maxMass at h
  exact roundShiftIn_eq_ok (by omega)

theorem covers_plain (n colors : Nat) : (plainIn n).Covers (plain n colors) where
  gather taps hmass := channelsIn_eq_ok fun c =>
    (gatherChannelIn_spec (by rwa [mass_plane])).1
  blend column weights hcolumn hmass := by
    apply channelsIn_eq_ok
    intro c
    have hvalue : ∀ pixel ∈ column, (pixel.get c).natAbs ≤ 2 ^ 23 := by
      intro pixel hpixel
      obtain ⟨taps, hmass, rfl⟩ := hcolumn pixel hpixel
      have hplane : mass ((plane c taps).map Prod.snd) ≤ maxMass := by rwa [mass_plane]
      have hchannel := (gatherChannelIn_spec hplane).2
      simpa [plain] using hchannel
    obtain ⟨hsum, hle⟩ := weighIn_column c (2 ^ 23) hvalue hmass (by decide)
    exact bind_eq_ok_iff.mpr ⟨_, hsum, bind_eq_ok_iff.mpr ⟨_, roundShiftIn_column hle, rfl⟩⟩

theorem natAbs_gather_straight_le {taps : List (Vector UInt8 4 × Int)}
    (hmass : mass (taps.map Prod.snd) ≤ maxMass) (c : Fin 4) :
    ((straight.gather taps).get c).natAbs ≤ 2 ^ 23 := by
  have halpha : mass ((alphaPlane taps).map Prod.snd) ≤ maxMass := by rwa [mass_alphaPlane]
  let P : Int → Prop := fun x => x.natAbs ≤ 2 ^ 23
  exact forall_withAlpha (P := P) (fun c => (gatherColorIn_spec c hmass).2)
    (gatherChannelIn_spec halpha).2 c

theorem divideColor_eq_ok {color alpha : Int} (hcolor : color.natAbs ≤ 2 ^ 23 * maxMass)
    (halpha : alpha.natAbs ≤ 2 ^ 23 * maxMass) (hpos : 0 < alpha) :
    divideIn 128 color alpha = .ok ((color * 128 + alpha.tdiv 2).tdiv alpha) := by
  unfold maxMass at hcolor halpha
  exact divideIn_eq_ok hpos (by omega) (by omega)

theorem covers_straight : straightIn.Covers straight where
  gather taps hmass := by
    have halpha : mass ((alphaPlane taps).map Prod.snd) ≤ maxMass := by rwa [mass_alphaPlane]
    exact withAlphaIn_eq_ok (fun c => (gatherColorIn_spec c hmass).1)
      (gatherChannelIn_spec halpha).1
  blend column weights hcolumn hmass := by
    have hvalue : ∀ c : Fin 4, ∀ pixel ∈ column, (pixel.get c).natAbs ≤ 2 ^ 23 := by
      intro c pixel hpixel
      obtain ⟨taps, hmass, rfl⟩ := hcolumn pixel hpixel
      exact natAbs_gather_straight_le hmass c
    have hsum : ∀ c : Fin 4, _ := fun c =>
      weighIn_column c (2 ^ 23) (hvalue c) hmass (by decide)
    obtain ⟨sums, hsums, hcolor, halpha⟩ := channelsIn_sums fun c => (hsum c).1
    have hbound : (alphaOf sums).natAbs ≤ 2 ^ 23 * maxMass := by
      rw [halpha]
      exact (hsum 3).2
    refine bind_eq_ok_iff.mpr ⟨sums, hsums, ?_⟩
    refine bind_eq_ok_iff.mpr ⟨_, roundShiftIn_column hbound, ?_⟩
    simp only [straight, ← halpha, ← hcolor]
    by_cases hzero : byteOf22 (alphaOf sums) = 0
    · exact (if_pos hzero).trans (congrArg Except.ok (if_pos hzero).symm)
    · have hpos := pos_of_byteOf22_ne_zero hzero
      rw [if_neg hzero]
      refine (if_neg hzero).trans (withAlphaIn_eq_ok (fun c => ?_) rfl)
      have hcolorBound : (sums.get c).natAbs ≤ 2 ^ 23 * maxMass := by
        rw [hcolor]
        exact (hsum c).2
      exact bind_eq_ok_iff.mpr ⟨_, divideColor_eq_ok hcolorBound hbound hpos, rfl⟩

theorem covers_select (n : Nat) (alpha : AlphaMode) :
    (selectIn n alpha).Covers (select n alpha) := by
  by_cases hstraight : n = 4 ∧ alpha = .straight
  · obtain ⟨rfl, rfl⟩ := hstraight
    exact covers_straight
  · have hother : n = 4 → alpha = .straight → False := fun hn halpha => hstraight ⟨hn, halpha⟩
    rw [selectIn, select]
    · exact covers_plain _ _
    · exact hother
    · exact hother

end Byte

namespace Uq15

theorem gatherChannelIn_spec {taps : List (UInt16 × Int)}
    (hmass : mass (taps.map Prod.snd) ≤ maxMass) :
    gatherChannelIn taps = .ok (gatherChannel taps) ∧ (gatherChannel taps).natAbs ≤ 2 ^ 23 := by
  have hvalue : ∀ sample : UInt16, ((sample.toNat : Int)).natAbs ≤ 65535 := by
    intro sample
    have hlt := sample.toNat_lt
    omega
  obtain ⟨hsum, hle⟩ := weighIn_samples 64 65535 _ hvalue hmass (by decide)
  unfold gatherChannelIn gatherChannel wide15
  generalize weigh (taps.map fun tap => ((tap.1.toNat : Int), tap.2)) = sum at hsum hle ⊢
  unfold maxMass at hle
  have hwide : (sum + 2 ^ (15 - 1)).natAbs < 2 ^ (64 - 1) := by omega
  have hbound : (roundShift 15 sum).natAbs ≤ 2 ^ 23 := by
    rw [roundShift_eq]
    omega
  obtain ⟨hnarrow, hnarrowed⟩ := narrowIn_spec (2 ^ 23) hwide hbound (by decide)
  exact ⟨bind_eq_ok_iff.mpr ⟨sum, hsum, hnarrow⟩, hnarrowed⟩

theorem gatherColorIn_spec (c : Fin 4) {taps : List (Vector UInt16 4 × Int)}
    (hmass : mass (taps.map Prod.snd) ≤ maxMass) :
    gatherColorIn c taps = .ok (gatherColor c taps) ∧ (gatherColor c taps).natAbs ≤ 2 ^ 24 := by
  have hvalue : ∀ pixel : Vector UInt16 4,
      (((pixel.get c).toNat : Int) * ((alphaOf pixel).toNat : Int)).natAbs ≤ 65535 * 65535 := by
    intro pixel
    have hcolor := (pixel.get c).toNat_lt
    have halpha := (alphaOf pixel).toNat_lt
    rw [Int.natAbs_mul]
    exact Nat.mul_le_mul (by omega) (by omega)
  obtain ⟨hsum, hle⟩ := weighProductsIn_samples 64 (65535 * 65535)
    (fun pixel => (((pixel.get c).toNat : Int), ((alphaOf pixel).toNat : Int)))
    hvalue hmass (by decide) (by decide)
  unfold gatherColorIn gatherColor
  simp only at hsum hle ⊢
  generalize weigh (taps.map fun tap =>
    (((tap.1.get c).toNat * (alphaOf tap.1).toNat : Int), tap.2)) = sum at hsum hle ⊢
  unfold maxMass at hle
  have hwide : (sum + 2 ^ (30 - 1)).natAbs < 2 ^ (64 - 1) := by omega
  have hbound : (roundShift 30 sum).natAbs ≤ 2 ^ 24 := by
    rw [roundShift_eq]
    omega
  obtain ⟨hnarrow, hnarrowed⟩ := narrowIn_spec (2 ^ 24) hwide hbound (by decide)
  exact ⟨bind_eq_ok_iff.mpr ⟨sum, hsum, hnarrow⟩, hnarrowed⟩

-- What is left of a column's sum still fits 32 bits
theorem narrowIn_column {x : Int} (h : x.natAbs ≤ 2 ^ 23 * maxMass) :
    narrowIn 15 x = .ok (wide15 x) ∧ wide15 x = roundShift 15 x := by
  unfold maxMass at h
  have hwide : (x + 2 ^ (15 - 1)).natAbs < 2 ^ (64 - 1) := by omega
  have hbound : (roundShift 15 x).natAbs ≤ 2 ^ 30 := by
    rw [roundShift_eq]
    omega
  exact ⟨(narrowIn_spec (2 ^ 30) hwide hbound (by decide)).1, wrap32_of_mem (by omega) (by omega)⟩

-- Alpha that is not rounded to zero is positive
theorem pos_of_toUnitSample_ne_zero {x : Int} (hx : wide15 x = roundShift 15 x)
    (h : toUnitSample (wide15 x) ≠ 0) : 0 < x := by
  by_cases hpos : 0 < x
  · exact hpos
  · have hshift : roundShift 15 x ≤ 0 := by
      rw [roundShift_eq]
      omega
    have hclamp : clamp 0 one (roundShift 15 x) = 0 := by
      unfold clamp one
      omega
    rw [hx, toUnitSample, hclamp] at h
    exact absurd rfl h

theorem covers_plain (n colors : Nat) : (plainIn n colors).Covers (plain n colors) where
  gather taps hmass := channelsIn_eq_ok fun c =>
    (gatherChannelIn_spec (by rwa [mass_plane])).1
  blend column weights hcolumn hmass := by
    apply channelsIn_eq_ok
    intro c
    have hvalue : ∀ pixel ∈ column, (pixel.get c).natAbs ≤ 2 ^ 23 := by
      intro pixel hpixel
      obtain ⟨taps, hmass, rfl⟩ := hcolumn pixel hpixel
      have hplane : mass ((plane c taps).map Prod.snd) ≤ maxMass := by rwa [mass_plane]
      have hchannel := (gatherChannelIn_spec hplane).2
      simpa [plain] using hchannel
    obtain ⟨hsum, hle⟩ := weighIn_column c (2 ^ 23) hvalue hmass (by decide)
    by_cases hcolor : c < colors
    · rw [if_pos hcolor, if_pos hcolor]
      exact bind_eq_ok_iff.mpr ⟨_, hsum, bind_eq_ok_iff.mpr ⟨_, (narrowIn_column hle).1, rfl⟩⟩
    · rw [if_neg hcolor, if_neg hcolor]
      exact bind_eq_ok_iff.mpr ⟨_, hsum, bind_eq_ok_iff.mpr ⟨_, (narrowIn_column hle).1, rfl⟩⟩

theorem natAbs_gather_straight_le {taps : List (Vector UInt16 4 × Int)}
    (hmass : mass (taps.map Prod.snd) ≤ maxMass) :
    (∀ c : Fin 4, ((straight.gather taps).get c).natAbs ≤ 2 ^ 24) ∧
      (alphaOf (straight.gather taps)).natAbs ≤ 2 ^ 23 := by
  have halpha : mass ((alphaPlane taps).map Prod.snd) ≤ maxMass := by rwa [mass_alphaPlane]
  have hchannel := (gatherChannelIn_spec halpha).2
  let P : Int → Prop := fun x => x.natAbs ≤ 2 ^ 24
  exact ⟨forall_withAlpha (P := P) (fun c => (gatherColorIn_spec c hmass).2)
    (Nat.le_trans hchannel (by decide)), hchannel⟩

theorem divideColor_eq_ok {color alpha : Int} (hcolor : color.natAbs ≤ 2 ^ 24 * maxMass)
    (halpha : alpha.natAbs ≤ 2 ^ 23 * maxMass) (hpos : 0 < alpha) :
    divideIn one color alpha = .ok ((color * one + alpha.tdiv 2).tdiv alpha) := by
  unfold maxMass at hcolor halpha
  have hone : (color * one).natAbs < 2 ^ 62 := by
    unfold one
    omega
  exact divideIn_eq_ok hpos hone (by omega)

theorem covers_straight : straightIn.Covers straight where
  gather taps hmass := by
    have halpha : mass ((alphaPlane taps).map Prod.snd) ≤ maxMass := by rwa [mass_alphaPlane]
    exact withAlphaIn_eq_ok (fun c => (gatherColorIn_spec c hmass).1)
      (gatherChannelIn_spec halpha).1
  blend column weights hcolumn hmass := by
    have hvalue : ∀ c : Fin 4, ∀ pixel ∈ column, (pixel.get c).natAbs ≤ 2 ^ 24 := by
      intro c pixel hpixel
      obtain ⟨taps, hmass, rfl⟩ := hcolumn pixel hpixel
      exact (natAbs_gather_straight_le hmass).1 c
    have hopacity : ∀ pixel ∈ column, (pixel.get 3).natAbs ≤ 2 ^ 23 := by
      intro pixel hpixel
      obtain ⟨taps, hmass, rfl⟩ := hcolumn pixel hpixel
      exact (natAbs_gather_straight_le hmass).2
    have hsum : ∀ c : Fin 4, _ := fun c =>
      weighIn_column c (2 ^ 24) (hvalue c) hmass (by decide)
    obtain ⟨sums, hsums, hcolor, halpha⟩ := channelsIn_sums fun c => (hsum c).1
    have hbound : (alphaOf sums).natAbs ≤ 2 ^ 23 * maxMass := by
      rw [halpha]
      exact (weighIn_column 3 (2 ^ 23) hopacity hmass (by decide)).2
    obtain ⟨hnarrow, hwide⟩ := narrowIn_column hbound
    refine bind_eq_ok_iff.mpr ⟨sums, hsums, ?_⟩
    refine bind_eq_ok_iff.mpr ⟨_, hnarrow, ?_⟩
    simp only [straight, ← halpha, ← hcolor]
    by_cases hzero : toUnitSample (wide15 (alphaOf sums)) = 0
    · exact (if_pos hzero).trans (congrArg Except.ok (if_pos hzero).symm)
    · have hpos := pos_of_toUnitSample_ne_zero hwide hzero
      rw [if_neg hzero, if_neg hzero]
      refine withAlphaIn_eq_ok (fun c => ?_) rfl
      have hcolorBound : (sums.get c).natAbs ≤ 2 ^ 24 * maxMass := by
        rw [hcolor]
        exact (hsum c).2
      exact bind_eq_ok_iff.mpr ⟨_, divideColor_eq_ok hcolorBound hbound hpos, rfl⟩

theorem covers_select (n : Nat) (alpha : AlphaMode) :
    (selectIn n alpha).Covers (select n alpha) := by
  by_cases hstraight : n = 4 ∧ alpha = .straight
  · obtain ⟨rfl, rfl⟩ := hstraight
    exact covers_straight
  · have hother : n = 4 → alpha = .straight → False := fun hn halpha => hstraight ⟨hn, halpha⟩
    rw [selectIn, select]
    · exact covers_plain _ _
    · exact hother
    · exact hother

end Uq15

end Resampling.Kernel

namespace Resampling

variable {n : Nat} {S : Type} [Element S]

-- Source rows, one for each tap, through both passes of a checked kernel
def Plan.blendedIn (plan : Plan n S Int Int) (checked : Kernel.Checked n S)
    (lines : Nat → Array UInt8) (weights : List Int) : Except Error (Array (Vector S n)) :=
  plan.xmap.rows.mapM fun r => do
    let column ← (List.range plan.taps).mapM fun k =>
      let pixels := (plan.pixels (lines k)).extract r.anchor (r.anchor + plan.xmap.samples)
      checked.gather (pixels.toList.zip r.weights)
    checked.blend (column.zip weights)

-- A kernel that is covered never faults in between, for any source rows
theorem Plan.blendedIn_eq_ok {plan : Plan n S Int Int} {checked : Kernel.Checked n S}
    (hcovers : checked.Covers plan.kernel)
    (hx : ∀ r ∈ plan.xmap.rows, Kernel.mass r.weights ≤ Kernel.maxMass)
    (lines : Nat → Array UInt8) {weights : List Int}
    (hy : Kernel.mass weights ≤ Kernel.maxMass) :
    plan.blendedIn checked lines weights = .ok (plan.blended lines weights) := by
  apply array_mapM_eq_ok
  intro r hr
  have hmass : ∀ pixels : List (Vector S n),
      Kernel.mass ((pixels.zip r.weights).map Prod.snd) ≤ Kernel.maxMass := fun pixels =>
    Nat.le_trans (Kernel.mass_zip_le pixels r.weights) (hx r hr)
  have hcolumn : (List.range plan.taps).mapM (fun k =>
      let pixels := (plan.pixels (lines k)).extract r.anchor (r.anchor + plan.xmap.samples)
      checked.gather (pixels.toList.zip r.weights)) =
      .ok ((List.range plan.taps).map fun k => plan.tap (plan.pixels (lines k)) r) :=
    mapM_eq_ok fun k _ => hcovers.gather _ (hmass _)
  refine bind_eq_ok_iff.mpr ⟨_, hcolumn, hcovers.blend _ _ ?_ hy⟩
  intro pixel hpixel
  obtain ⟨k, -, rfl⟩ := List.mem_map.mp hpixel
  exact ⟨_, hmass _, rfl⟩

-- No row of the table enlarges what it weighs too much
def AxisMap.Tame (map : AxisMap Int) : Prop :=
  ∀ r ∈ map.rows, Kernel.mass r.weights ≤ Kernel.maxMass

-- Between tame tables the integer kernels of all formats stay in the range of their words: for
-- any source rows, with any number of taps, what machine words compute is what the kernels say
theorem Plan.passes_in_range (n : Nat) (alpha : AlphaMode) :
    (∀ plan : Plan n UInt8 Int Int, plan.kernel = RowKernel.ofFormat ⟨n, .byte, alpha⟩ →
      plan.xmap.Tame → plan.ymap.Tame → ∀ lines, ∀ r ∈ plan.ymap.rows,
        plan.blendedIn (Kernel.Byte.selectIn n alpha) lines r.weights =
          .ok (plan.blended lines r.weights)) ∧
    ∀ plan : Plan n UInt16 Int Int, plan.kernel = RowKernel.ofFormat ⟨n, .uq15, alpha⟩ →
      plan.xmap.Tame → plan.ymap.Tame → ∀ lines, ∀ r ∈ plan.ymap.rows,
        plan.blendedIn (Kernel.Uq15.selectIn n alpha) lines r.weights =
          .ok (plan.blended lines r.weights) := by
  constructor
  · intro plan hkernel hx hy lines r hr
    have hcovers : (Kernel.Byte.selectIn n alpha).Covers plan.kernel := by
      rw [hkernel]
      exact Kernel.Byte.covers_select n alpha
    exact plan.blendedIn_eq_ok hcovers hx lines (hy r hr)
  · intro plan hkernel hx hy lines r hr
    have hcovers : (Kernel.Uq15.selectIn n alpha).Covers plan.kernel := by
      rw [hkernel]
      exact Kernel.Uq15.covers_select n alpha
    exact plan.blendedIn_eq_ok hcovers hx lines (hy r hr)

namespace Steep

-- A row that sums to one with the largest mass that is tame
def map : AxisMap Int := ⟨2, 1, 2, #[⟨0, [2113536, -2080768]⟩]⟩

theorem tame_map : map.Tame := by
  intro r hr
  have hr : r = ⟨0, [2113536, -2080768]⟩ := by simpa [map] using hr
  rw [hr]
  decide

def plan : Plan 4 UInt16 Int Int where
  kernel := RowKernel.ofFormat .bgra64
  xmap := map
  ymap := map
  sharpening := none

end Steep

-- The largest samples between the steepest tables
theorem Plan.passes_in_range_steep :
    (Kernel.mass [2113536, -2080768] = Kernel.maxMass ∧ Steep.map.Tame) ∧
      Steep.plan.blendedIn (Kernel.Uq15.selectIn 4 .straight) (fun _ => Array.replicate 16 255)
        [2113536, -2080768] =
      .ok (Steep.plan.blended (fun _ => Array.replicate 16 255) [2113536, -2080768]) :=
  ⟨⟨by decide, Steep.tame_map⟩,
    (Plan.passes_in_range 4 .straight).2 Steep.plan rfl Steep.tame_map Steep.tame_map _
      ⟨0, [2113536, -2080768]⟩ (by simp [Steep.plan, Steep.map])⟩

end Resampling
