import Resampling.Proofs.Kernel.Straight

-- The kernels channel by channel. Where color does not depend on alpha every channel is taken
-- through both passes on its own, and alpha is in all formats.

namespace Resampling

open Kernel

-- A channel that is made of the same channel under the taps and of nothing else
structure RowKernel.Separates {n : Nat} {S W T : Type} (kernel : RowKernel n S W T) (c : Fin n)
    (gather : List (S × W) → T) (blend : List (T × W) → S) : Prop where
  gather : ∀ taps, (kernel.gather taps).get c = gather (plane c taps)
  blend : ∀ taps, (kernel.blend taps).get c = blend (plane c taps)

theorem RowKernel.Separates.get_outputPixel {n : Nat} {S W T : Type} {kernel : RowKernel n S W T}
    {c : Fin n} {gather : List (S × W) → T} {blend : List (T × W) → S}
    (h : kernel.Separates c gather blend) (pixel : Nat → Nat → Vector S n)
    (rx ry : AxisMap.Row W) : (kernel.outputPixel pixel rx ry).get c =
      throughBoth gather blend (fun x y => (pixel x y).get c) rx ry := by
  simp only [outputPixel, throughBoth, h.blend, plane_taps, h.gather]

namespace SampleKind

-- What the kernels do to a channel in the first pass
def gatherChannel : (kind : SampleKind) → List (kind.Sample × kind.Weights) → kind.Inner
  | byte => Byte.gatherChannel
  | uq15 => Uq15.gatherChannel
  | float => weighFloat

-- What they do to a color in the second pass
def blendColor : (kind : SampleKind) → List (kind.Inner × kind.Weights) → kind.Sample
  | byte => Byte.blendChannel
  | uq15 => Uq15.blendColor
  | float => weighFloat

def sharpenChannel : (kind : SampleKind) → Sharpening → (unblurred blurred : kind.Sample) →
    kind.Sample
  | byte, sharpening => Byte.sharpenSample (Byte.strength sharpening) sharpening.threshold
  | uq15, sharpening => Uq15.sharpenSample (Uq15.strength sharpening) (Uq15.threshold sharpening)
  | float, sharpening =>
    Single.sharpenSample (Single.strength sharpening) (Single.threshold sharpening)

-- Alpha is a color that does not exceed one. Only 16-bit samples can.
def cap : (kind : SampleKind) → kind.Sample → kind.Sample
  | byte, sample => sample
  | uq15, sample => min sample 32768
  | float, sample => sample

end SampleKind

theorem FixedPoint.toUnitSample_eq (x : Int) : toUnitSample x = min (toSample x) 32768 := by
  apply UInt16.toNat_inj.mp
  have hunit := toNat_toUnitSample x
  have hsample := toNat_toSample x
  have hmin : (min (toSample x) 32768).toNat = min (toSample x).toNat 32768 := by
    rw [Std.min_eq_if, Nat.min_def]
    split <;> rename_i hle <;> simp_all [UInt16.le_iff_toNat_le]
  rw [hmin]
  unfold clamp at hunit hsample
  unfold one at hunit
  unfold sampleMax at hsample
  omega

-- Only four channels go with alpha
theorem PixelFormat.channels_eq_four {format : PixelFormat} (h : format.supported)
    (halpha : format.alpha ≠ .none) : format.channels = 4 := by
  unfold supported at h
  split at h <;> simp_all

namespace Kernel

variable {n : Nat}

theorem Byte.separates_plain (colors : Nat) (c : Fin n) :
    (plain n colors).Separates c gatherChannel blendChannel where
  gather taps := by rw [plain, Vector.get_ofFn]
  blend taps := by rw [plain, Vector.get_ofFn]

theorem Byte.separates_straight : straight.Separates 3 gatherChannel blendChannel where
  gather := Byte.alphaOf_gather
  blend taps := by
    rw [blend_straight]
    exact alphaOf_unlessClear ..

theorem Uq15.blendAlpha_eq (taps : List (Int × Int)) :
    blendAlpha taps = min (blendColor taps) 32768 := FixedPoint.toUnitSample_eq _

theorem Uq15.separates_plain (colors : Nat) (c : Fin n) :
    (plain n colors).Separates c gatherChannel fun taps =>
      if c < colors then blendColor taps else min (blendColor taps) 32768 where
  gather taps := by rw [plain, Vector.get_ofFn]
  blend taps := by rw [plain, Vector.get_ofFn, blendAlpha_eq]

theorem Uq15.separates_straight :
    straight.Separates 3 gatherChannel fun taps => min (blendColor taps) 32768 where
  gather := Uq15.alphaOf_gather
  blend taps := by
    rw [← blendAlpha_eq, blend_straight]
    exact alphaOf_unlessClear ..

theorem Single.separates_plain (colors : Nat) (c : Fin n) :
    (plain n colors).Separates c weighFloat weighFloat where
  gather taps := by rw [plain, Vector.get_ofFn]
  blend taps := by rw [plain, Vector.get_ofFn]

theorem Single.separates_straight : straight.Separates 3 weighFloat weighFloat where
  gather taps := get_withAlpha_last ..
  blend taps := by
    simp only [straight]
    split
    · exact get_withAlpha_last ..
    · exact get_withAlpha_last ..

theorem Byte.select_of_ne {alpha : AlphaMode} (h : alpha ≠ .straight) :
    select n alpha = plain n (alpha.colors n) := by
  rw [select]
  exact fun _ halpha => h halpha

theorem Byte.sharpen_select (alpha : AlphaMode) :
    (select n alpha).sharpen = sharpen (alpha.colors n) := by
  unfold select
  split
  · rfl
  · rfl

theorem Uq15.select_of_ne {alpha : AlphaMode} (h : alpha ≠ .straight) :
    select n alpha = plain n (alpha.colors n) := by
  rw [select]
  exact fun _ halpha => h halpha

theorem Uq15.sharpen_select (alpha : AlphaMode) :
    (select n alpha).sharpen = sharpen (alpha.colors n) := by
  unfold select
  split
  · rfl
  · rfl

theorem Single.select_of_ne {alpha : AlphaMode} (h : alpha ≠ .straight) :
    select n alpha = plain n (alpha.colors n) := by
  rw [select]
  exact fun _ halpha => h halpha

theorem Single.sharpen_select (alpha : AlphaMode) :
    (select n alpha).sharpen = sharpen (alpha.colors n) := by
  unfold select
  split
  · rfl
  · rfl

theorem get_sharpenColors {A : Type} (colors : Nat) (sharpenSample : A → A → A)
    (unblurred blurred : Vector A n) (c : Fin n) :
    (sharpenColors colors sharpenSample unblurred blurred).get c =
      if c < colors then sharpenSample (unblurred.get c) (blurred.get c) else unblurred.get c := by
  rw [sharpenColors, Vector.get_ofFn]

end Kernel

-- In all formats the channels are taken through both passes alike, as far as they are separate:
-- colors unless alpha is straight, and alpha always
theorem RowKernel.separates_ofFormat {n : Nat} {kind : SampleKind} {alpha : AlphaMode}
    (hsupported : PixelFormat.supported ⟨n, kind, alpha⟩) {c : Fin n}
    (hc : alpha = .straight → ¬c.val < alpha.colors n) :
    (ofFormat ⟨n, kind, alpha⟩).Separates c kind.gatherChannel fun taps =>
      if c < alpha.colors n then kind.blendColor taps else kind.cap (kind.blendColor taps) := by
  by_cases hstraight : alpha = .straight
  · subst hstraight
    obtain rfl : n = 4 := PixelFormat.channels_eq_four hsupported (by simp)
    have hcolor : ¬c.val < AlphaMode.straight.colors 4 := hc rfl
    obtain rfl : c = 3 := by
      simp only [AlphaMode.colors] at hcolor
      omega
    simp only [hcolor, if_false]
    cases kind with
    | byte => exact Byte.separates_straight
    | uq15 => exact Uq15.separates_straight
    | float => exact Single.separates_straight
  · cases kind with
    | byte =>
      have hplain : ofFormat ⟨n, .byte, alpha⟩ = Byte.plain n (alpha.colors n) :=
        Byte.select_of_ne hstraight
      have hchannel := Byte.separates_plain (alpha.colors n) c
      rw [hplain]
      exact ⟨hchannel.gather, fun taps => (hchannel.blend taps).trans (ite_self _).symm⟩
    | uq15 =>
      have hplain : ofFormat ⟨n, .uq15, alpha⟩ = Uq15.plain n (alpha.colors n) :=
        Uq15.select_of_ne hstraight
      rw [hplain]
      exact Uq15.separates_plain (alpha.colors n) c
    | float =>
      have hplain : ofFormat ⟨n, .float, alpha⟩ = Single.plain n (alpha.colors n) :=
        Single.select_of_ne hstraight
      have hchannel := Single.separates_plain (alpha.colors n) c
      rw [hplain]
      exact ⟨hchannel.gather, fun taps => (hchannel.blend taps).trans (ite_self _).symm⟩

-- In all formats colors are sharpened one by one and alpha is not
theorem RowKernel.get_sharpen {n : Nat} {kind : SampleKind} {alpha : AlphaMode}
    (sharpening : Sharpening) (unblurred blurred : Vector kind.Sample n) (c : Fin n) :
    ((ofFormat ⟨n, kind, alpha⟩).sharpen sharpening unblurred blurred).get c =
      if c < alpha.colors n then kind.sharpenChannel sharpening (unblurred.get c) (blurred.get c)
      else unblurred.get c := by
  cases kind with
  | byte =>
    show ((Byte.select n alpha).sharpen sharpening unblurred blurred).get c = _
    rw [Byte.sharpen_select]
    exact get_sharpenColors ..
  | uq15 =>
    show ((Uq15.select n alpha).sharpen sharpening unblurred blurred).get c = _
    rw [Uq15.sharpen_select]
    exact get_sharpenColors ..
  | float =>
    show ((Single.select n alpha).sharpen sharpening unblurred blurred).get c = _
    rw [Single.sharpen_select]
    exact get_sharpenColors ..

end Resampling
