import Resampling.Proofs.Agreement
import Resampling.Proofs.Kernel.Channels
import Resampling.Proofs.Kernel.Rounding

-- Fixed-point output against the exact convolution. Where color does not depend on alpha, a sample
-- is at most half a step off for the last rounding, and what the first pass rounded off comes on
-- top as the second pass weighs it.

namespace Resampling

open FixedPoint Kernel

-- A sample that was clamped to its range, and what it would be if nothing were rounded
theorem abs_sample_sub_le {sample : Nat} {high x : Int} (hsample : (sample : Int) = clamp 0 high x)
    {y e : ℚ} (h : |(x : ℚ) - y| ≤ e) : |(sample : ℚ) - max 0 (min y high)| ≤ e := by
  have hclamp := (abs_clamp_sub_le 0 high x y).trans h
  rw [← hsample] at hclamp
  exact_mod_cast hclamp

namespace Kernel

variable {rx ry : AxisMap.Row Int}

theorem Byte.toNat_throughBoth (value : Nat → Nat → UInt8) :
    ((throughBoth gatherChannel blendChannel value rx ry).toNat : Int) =
      clamp 0 255 (rounded 8 22 (fun x y => (value x y).toNat) rx ry) := by
  simp only [throughBoth, gatherChannel_taps, blendChannel, byteOf22, toNat_toByte, rounded, rowSum]

theorem Byte.abs_throughBoth_sub_le (value : Nat → Nat → UInt8) :
    |((throughBoth gatherChannel blendChannel value rx ry).toNat : ℚ) -
        max 0 (min (convolution (fun x y => (value x y).toNat) rx ry) 255)| ≤
      1 / 2 + mass ry.weights / 2 ^ 23 := by
  have herror := abs_rounded_sub_convolution_le (show 0 < 8 by decide) (show 0 < 22 by decide) rfl
    (fun x y => (value x y).toNat) rx ry
  have hsample := abs_sample_sub_le (Byte.toNat_throughBoth value) herror
  exact_mod_cast hsample

theorem Uq15.toNat_throughBoth (hx : mass rx.weights ≤ maxMass) (hy : mass ry.weights ≤ maxMass)
    (value : Nat → Nat → UInt16) :
    ((throughBoth gatherChannel blendColor value rx ry).toNat : Int) =
      clamp 0 sampleMax (rounded 15 15 (fun x y => (value x y).toNat) rx ry) := by
  rw [← wide15_throughBoth hx hy, ← toNat_toSample]
  rfl

theorem Uq15.abs_throughBoth_sub_le (hx : mass rx.weights ≤ maxMass)
    (hy : mass ry.weights ≤ maxMass) (value : Nat → Nat → UInt16) (isColor : Prop)
    [Decidable isColor] :
    |((throughBoth gatherChannel (fun taps =>
          if isColor then blendColor taps else SampleKind.uq15.cap (blendColor taps))
          value rx ry).toNat : ℚ) -
        max 0 (min (convolution (fun x y => (value x y).toNat) rx ry)
          (if isColor then 65535 else 32768))| ≤
      1 / 2 + mass ry.weights / 2 ^ 16 := by
  have herror := abs_rounded_sub_convolution_le (show 0 < 15 by decide) (show 0 < 15 by decide) rfl
    (fun x y => (value x y).toNat) rx ry
  by_cases hcolor : isColor
  · have hle := abs_sample_sub_le (toNat_throughBoth hx hy value) herror
    simp only [hcolor, if_true]
    exact_mod_cast hle
  · have hsample : ((throughBoth gatherChannel blendAlpha value rx ry).toNat : Int) =
        clamp 0 one (rounded 15 15 (fun x y => (value x y).toNat) rx ry) := by
      rw [← wide15_throughBoth hx hy, ← toNat_toUnitSample]
      rfl
    have hle := abs_sample_sub_le hsample herror
    simp only [hcolor, if_false, SampleKind.cap, ← blendAlpha_eq]
    exact_mod_cast hle

end Kernel

namespace Resampler

variable {σ : Type} [ImageSource σ] {I : σ → Prop} {image : Picture} {source : σ}

-- Every sample of a resized image, without straight alpha, is the exact convolution clamped to the
-- range of the sample, up to the two roundings
theorem near_convolution (hshows : Shows I image) (hsource : I source) {n : Nat}
    {alpha : AlphaMode} (halpha : alpha ≠ .straight) {maps : AxisMaps Int} (hx : maps.x.Tame)
    (hy : maps.y.Tame) (stage : Resampler σ) :
    (SetUp source ⟨n, .byte, alpha⟩ maps none stage →
      stage.Yields I image ∧
      ∀ x y rx ry, maps.x.rows[x]? = some rx → maps.y.rows[y]? = some ry → ∀ c : Fin n,
        |(((stage.picture image).pixel UInt8 n x y).get c).toNat -
            max 0 (min (convolution (fun x y => ((image.pixel UInt8 n x y).get c).toNat) rx ry)
              255)| ≤ 1 / 2 + (mass ry.weights : ℚ) / 2 ^ 23) ∧
    (SetUp source ⟨n, .uq15, alpha⟩ maps none stage →
      stage.Yields I image ∧
      ∀ x y rx ry, maps.x.rows[x]? = some rx → maps.y.rows[y]? = some ry → ∀ c : Fin n,
        |(((stage.picture image).pixel UInt16 n x y).get c).toNat -
            max 0 (min (convolution (fun x y => ((image.pixel UInt16 n x y).get c).toNat) rx ry)
              (if c < alpha.colors n then 65535 else 32768))| ≤
          1 / 2 + (mass ry.weights : ℚ) / 2 ^ 16) := by
  constructor
  · intro hsetUp
    refine ⟨hsetUp.yields hshows hsource, fun x y rx ry hrx hry c => ?_⟩
    have hchannel := RowKernel.separates_ofFormat hsetUp.supported (c := c)
      fun hstraight => absurd hstraight halpha
    rw [hsetUp.pixel_picture hshows hsource hrx hry]
    simp only [RowKernel.finish]
    rw [hchannel.get_outputPixel]
    simp only [SampleKind.cap, ite_self]
    exact Byte.abs_throughBoth_sub_le _
  · intro hsetUp
    refine ⟨hsetUp.yields hshows hsource, fun x y rx ry hrx hry c => ?_⟩
    have hchannel := RowKernel.separates_ofFormat hsetUp.supported (c := c)
      fun hstraight => absurd hstraight halpha
    rw [hsetUp.pixel_picture hshows hsource hrx hry]
    simp only [RowKernel.finish]
    rw [hchannel.get_outputPixel]
    exact Uq15.abs_throughBoth_sub_le (hx rx (Array.mem_of_getElem? hrx))
      (hy ry (Array.mem_of_getElem? hry)) _ (c.val < alpha.colors n)

end Resampler

-- Edges that ring: three pixels each way under weights of both signs
namespace Ringing

def row : AxisMap.Row Int := ⟨0, [-8192, 49152, -8192]⟩

def map : AxisMap Int := ⟨3, 1, 3, #[row]⟩

def bytes : MemoryImage := ⟨.gray8, 3, 3, 3, #[0, 90, 0, 90, 180, 90, 0, 90, 0]⟩

def words : MemoryImage :=
  ⟨.gray16, 3, 3, 6, #[0, 0, 1, 64, 0, 0, 1, 64, 3, 96, 1, 64, 0, 0, 1, 64, 0, 0]⟩

def pixel : Call := ⟨⟨0, 0, 1, 1⟩, 2, 2, Vector.replicate 2 0⟩

theorem tame_map : map.Tame := by decide

theorem make_bytes : MemoryImage.make .gray8 3 3 3 bytes.data = .ok bytes := rfl

theorem make_words : MemoryImage.make .gray16 3 3 6 words.data = .ok words := rfl

end Ringing

theorem Resampler.near_convolution_ringing :
    (∃ stage, SetUp Ringing.bytes .gray8 ⟨Ringing.map, Ringing.map⟩ none stage ∧
      (ImageSource.answer stage Ringing.pixel).result = .ok () ∧
      |((((stage.picture Ringing.bytes.picture).pixel UInt8 1 0 0).get 0).toNat : ℚ) -
          max 0 (min (convolution (fun x y =>
            ((Ringing.bytes.picture.pixel UInt8 1 x y).get 0).toNat) Ringing.row Ringing.row)
            255)| ≤
        1 / 2 + 65536 / 2 ^ 23) ∧
    ∃ stage, SetUp Ringing.words .gray16 ⟨Ringing.map, Ringing.map⟩ none stage ∧
      (ImageSource.answer stage Ringing.pixel).result = .ok () ∧
      |((((stage.picture Ringing.words.picture).pixel UInt16 1 0 0).get 0).toNat : ℚ) -
          max 0 (min (convolution (fun x y =>
            ((Ringing.words.picture.pixel UInt16 1 x y).get 0).toNat) Ringing.row Ringing.row)
            65535)| ≤
        1 / 2 + 65536 / 2 ^ 16 := by
  constructor
  · have hmade : ∃ stage, SetUp Ringing.bytes .gray8 ⟨Ringing.map, Ringing.map⟩ none stage :=
      exists_setUp rfl (by decide) ⟨by decide, by decide, rfl, rfl⟩ (by simp) Depot.shared .fresh
        (by decide +kernel)
    obtain ⟨stage, hsetUp⟩ := hmade
    obtain ⟨hyields, hnear⟩ := (near_convolution (MemoryImage.shows Ringing.make_bytes) rfl
      (by decide) Ringing.tame_map Ringing.tame_map stage).1 hsetUp
    have hok := hyields.result_eq_ok (MemoryImage.reliable Ringing.make_bytes) [] Ringing.pixel
    obtain ⟨hformat, hwidth, hheight⟩ := hsetUp.extent_picture Ringing.bytes.picture
    rw [Picture.pixelSize, hformat, hwidth, hheight] at hok
    exact ⟨stage, hsetUp, hok rfl, hnear 0 0 _ _ rfl rfl 0⟩
  · have hmade : ∃ stage, SetUp Ringing.words .gray16 ⟨Ringing.map, Ringing.map⟩ none stage :=
      exists_setUp rfl (by decide) ⟨by decide, by decide, rfl, rfl⟩ (by simp) Depot.shared .fresh
        (by decide +kernel)
    obtain ⟨stage, hsetUp⟩ := hmade
    obtain ⟨hyields, hnear⟩ := (near_convolution (MemoryImage.shows Ringing.make_words) rfl
      (by decide) Ringing.tame_map Ringing.tame_map stage).2 hsetUp
    have hok := hyields.result_eq_ok (MemoryImage.reliable Ringing.make_words) [] Ringing.pixel
    obtain ⟨hformat, hwidth, hheight⟩ := hsetUp.extent_picture Ringing.words.picture
    rw [Picture.pixelSize, hformat, hwidth, hheight] at hok
    exact ⟨stage, hsetUp, hok rfl, hnear 0 0 _ _ rfl rfl 0⟩

end Resampling
