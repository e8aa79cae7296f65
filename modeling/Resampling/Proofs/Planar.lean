import Resampling.Proofs.Agreement
import Resampling.Proofs.Kernel.Channels

-- Channels as images of their own. What a stage makes of a channel is what it makes of the plane
-- of that channel, wherever the channel does not depend on another.

namespace Resampling

open Kernel

-- Samples are read from their own bytes only
theorem Element.ofBytes_congr {kind : SampleKind} {bytes bytes' : Nat → UInt8}
    (h : ∀ k < kind.size, bytes k = bytes' k) :
    (ofBytes bytes : kind.Sample) = ofBytes bytes' := by
  cases kind with
  | byte => exact h 0 Nat.one_pos
  | uq15 => exact congrArg UInt16.ofNat (littleEndian_congr h)
  | float => exact congrArg (fun bits => Float32.ofBits (UInt32.ofNat bits)) (littleEndian_congr h)

namespace Picture

-- The image of one channel, sample by sample
structure IsPlane (plane image : Picture) (c : Nat) : Prop where
  format_eq : plane.format = ⟨1, image.format.sample, .none⟩
  width_eq : plane.width = image.width
  height_eq : plane.height = image.height
  byte_eq : ∀ x < image.width, ∀ y < image.height, ∀ k < image.format.sample.size,
    (plane.row y)[x * image.format.sample.size + k]? =
      (image.row y)[x * image.pixelSize + (c * image.format.sample.size + k)]?

theorem IsPlane.get_pixel {plane image : Picture} {n : Nat} {kind : SampleKind} {alpha : AlphaMode}
    {c : Fin n} (h : plane.IsPlane image c) (hformat : image.format = ⟨n, kind, alpha⟩) {x y : Nat}
    (hx : x < image.width) (hy : y < image.height) :
    (plane.pixel kind.Sample 1 x y).get 0 = (image.pixel kind.Sample n x y).get c := by
  have hsize : Element.size kind.Sample = kind.size := by
    cases kind with
    | byte => rfl
    | uq15 => rfl
    | float => rfl
  have hbyte := h.byte_eq x hx y hy
  rw [pixelSize, hformat] at hbyte
  show (Vector.ofFn _).get 0 = (Vector.ofFn _).get c
  rw [Vector.get_ofFn, Vector.get_ofFn]
  apply Element.ofBytes_congr
  intro k hk
  have hsample : (plane.row y)[x * kind.size + k]? =
      (image.row y)[x * (n * kind.size) + (c * kind.size + k)]? := hbyte k hk
  simp only [Array.getD_eq_getD_getElem?, Element.size_vector, hsize, Nat.one_mul, Fin.val_zero,
    Nat.zero_mul, Nat.zero_add, hsample]

end Picture

-- The gray kernel takes its channel as every kernel takes a color
theorem RowKernel.separates_gray (kind : SampleKind) :
    (ofFormat ⟨1, kind, .none⟩).Separates 0 kind.gatherChannel kind.blendColor :=
  separates_ofFormat (show PixelFormat.supported ⟨1, kind, .none⟩ by cases kind <;> rfl) nofun

namespace Resampler.SetUp

variable {σ τ : Type} [ImageSource σ] [ImageSource τ] {I : σ → Prop} {J : τ → Prop}
  {image plane : Picture} {source : σ} {gray : τ} {n : Nat} {kind : SampleKind}
  {alpha : AlphaMode} {c : Fin n} {maps : AxisMaps kind.Weights} {stage : Resampler σ}
  {sharpening : Option Sharpening} {mono : Resampler τ}

-- Both passes over a channel and over its plane
theorem get_outputPixel (h : SetUp source ⟨n, kind, alpha⟩ maps sharpening stage)
    (hshows : Shows I image) (hsource : I source) (hplane : plane.IsPlane image c)
    (hc : alpha = .straight → ¬c.val < alpha.colors n) {rx ry : AxisMap.Row kind.Weights}
    (hrx : rx ∈ maps.x.rows) (hry : ry ∈ maps.y.rows) :
    ((RowKernel.ofFormat ⟨n, kind, alpha⟩).outputPixel (image.pixel kind.Sample n) rx ry).get c =
      let sample := ((RowKernel.ofFormat ⟨1, kind, .none⟩).outputPixel (plane.pixel kind.Sample 1)
        rx ry).get 0
      if c < alpha.colors n then sample else kind.cap sample := by
  have hformat := (hshows.format_eq source hsource).symm.trans h.format_eq
  have hsame : ∀ blend : List (kind.Inner × kind.Weights) → kind.Sample,
      throughBoth kind.gatherChannel blend (fun x y => (image.pixel kind.Sample n x y).get c)
          rx ry =
        throughBoth kind.gatherChannel blend (fun x y => (plane.pixel kind.Sample 1 x y).get 0)
          rx ry :=
    fun blend => throughBoth_congr fun j hj k hk =>
      (hplane.get_pixel hformat (h.column_lt hshows hsource hrx hj)
        (h.row_lt hshows hsource hry hk)).symm
  have hgray := (RowKernel.separates_gray kind).get_outputPixel (plane.pixel kind.Sample 1) rx ry
  have hchannel := (RowKernel.separates_ofFormat h.supported hc).get_outputPixel
    (image.pixel kind.Sample n) rx ry
  rw [hchannel, hsame, hgray]
  simp only [throughBoth]

theorem get_resized (h : SetUp source ⟨n, kind, alpha⟩ maps none stage) (hshows : Shows I image)
    (hsource : I source) (hplane : plane.IsPlane image c)
    (h' : SetUp gray ⟨1, kind, .none⟩ maps none mono) (hshows' : Shows J plane) (hgray : J gray)
    (hc : alpha = .straight → ¬c.val < alpha.colors n) {x y : Nat} (hx : x < maps.x.outPixels)
    (hy : y < maps.y.outPixels) :
    ((stage.picture image).pixel kind.Sample n x y).get c =
      let sample := ((mono.picture plane).pixel kind.Sample 1 x y).get 0
      if c < alpha.colors n then sample else kind.cap sample := by
  obtain ⟨rx, hrx, hrxMem, -⟩ := h.suit.x.row_eq hx
  obtain ⟨ry, hry, hryMem, -⟩ := h.suit.y.row_eq hy
  rw [h.pixel_picture hshows hsource hrx hry, h'.pixel_picture hshows' hgray hrx hry]
  exact h.get_outputPixel hshows hsource hplane hc hrxMem hryMem

theorem get_sharpened_color {settings : Sharpening}
    (h : SetUp source ⟨n, kind, alpha⟩ maps (some settings) stage) (hshows : Shows I image)
    (hsource : I source) (hplane : plane.IsPlane image c)
    (h' : SetUp gray ⟨1, kind, .none⟩ maps (some settings) mono) (hshows' : Shows J plane)
    (hgray : J gray) (halpha : alpha ≠ .straight) (hc : c.val < alpha.colors n) {x y : Nat}
    (hx : x < maps.x.outPixels) (hy : y < maps.y.outPixels) :
    ((stage.picture image).pixel kind.Sample n x y).get c =
      ((mono.picture plane).pixel kind.Sample 1 x y).get 0 := by
  obtain ⟨rx, hrx, hrxMem, -⟩ := h.suit.x.row_eq hx
  obtain ⟨ry, hry, hryMem, -⟩ := h.suit.y.row_eq hy
  have hformat := (hshows.format_eq source hsource).symm.trans h.format_eq
  have hwidth := h.width_eq rfl
  rw [hshows.width_eq source hsource] at hwidth
  have hnearest : min (y - ry.anchor) (maps.y.samples - 1) < ry.weights.length := by
    have hlength := h.suit.y.length_weights ry hryMem
    have hpos := h.suit.y.samples_pos
    omega
  have hunblurred := hplane.get_pixel hformat (hwidth ▸ hx)
    (h.row_lt hshows hsource hryMem hnearest)
  have hblurred := h.get_outputPixel hshows hsource hplane
    (fun hstraight => absurd hstraight halpha) hrxMem hryMem
  rw [h.pixel_picture hshows hsource hrx hry, h'.pixel_picture hshows' hgray hrx hry]
  simp only [RowKernel.finish]
  rw [RowKernel.get_sharpen, RowKernel.get_sharpen, if_pos hc, hblurred, ← hunblurred]
  simp only [hc, if_true]
  rfl

theorem get_sharpened_alpha {settings : Sharpening}
    (h : SetUp source ⟨n, kind, alpha⟩ maps (some settings) stage) (hshows : Shows I image)
    (hsource : I source) (hcentered : maps.y.Centered) (hc : ¬c.val < alpha.colors n) {x y : Nat}
    (hx : x < maps.x.outPixels) (hy : y < maps.y.outPixels) :
    ((stage.picture image).pixel kind.Sample n x y).get c =
      (image.pixel kind.Sample n x y).get c := by
  obtain ⟨rx, hrx, -⟩ := h.suit.x.row_eq hx
  obtain ⟨ry, hry, -⟩ := h.suit.y.row_eq hy
  rw [h.pixel_sharpened hshows hsource hcentered hrx hry]
  exact (RowKernel.get_sharpen settings _ _ c).trans (if_neg hc)

end Resampler.SetUp

-- Channel `c` of the resized image is the resized plane of that channel, alpha capped at one; and
-- so it is of the sharpened image for colors, while alpha stays what it was
theorem Resampler.planar {σ τ : Type} [ImageSource σ] [ImageSource τ] {I : σ → Prop}
    {J : τ → Prop} {image plane : Picture} {source : σ} {gray : τ} (hshows : Shows I image)
    (hsource : I source) (hshows' : Shows J plane) (hgray : J gray) {n : Nat} (c : Fin n)
    (hplane : plane.IsPlane image c) (kind : SampleKind) (alpha : AlphaMode)
    (maps : AxisMaps kind.Weights) (stage : Resampler σ) (mono : Resampler τ) :
    (∀ sharpening, SetUp source ⟨n, kind, alpha⟩ maps sharpening stage →
      SetUp gray ⟨1, kind, .none⟩ maps sharpening mono →
        stage.Yields I image ∧ mono.Yields J plane) ∧
    (SetUp source ⟨n, kind, alpha⟩ maps none stage → SetUp gray ⟨1, kind, .none⟩ maps none mono →
      (alpha = .straight → ¬c.val < alpha.colors n) →
        ∀ x < maps.x.outPixels, ∀ y < maps.y.outPixels,
          ((stage.picture image).pixel kind.Sample n x y).get c =
            let sample := ((mono.picture plane).pixel kind.Sample 1 x y).get 0
            if c < alpha.colors n then sample else kind.cap sample) ∧
    ∀ settings, SetUp source ⟨n, kind, alpha⟩ maps (some settings) stage →
      (SetUp gray ⟨1, kind, .none⟩ maps (some settings) mono → alpha ≠ .straight →
        c < alpha.colors n → ∀ x < maps.x.outPixels, ∀ y < maps.y.outPixels,
          ((stage.picture image).pixel kind.Sample n x y).get c =
            ((mono.picture plane).pixel kind.Sample 1 x y).get 0) ∧
      (maps.y.Centered → ¬c.val < alpha.colors n →
        ∀ x < maps.x.outPixels, ∀ y < maps.y.outPixels,
          ((stage.picture image).pixel kind.Sample n x y).get c =
            (image.pixel kind.Sample n x y).get c) := by
  refine ⟨?_, ?_, ?_⟩
  · intro sharpening h h'
    exact ⟨h.yields hshows hsource, h'.yields hshows' hgray⟩
  · intro h h' hc x hx y hy
    exact h.get_resized hshows hsource hplane h' hshows' hgray hc hx hy
  · intro settings h
    constructor
    · intro h' halpha hc x hx y hy
      exact h.get_sharpened_color hshows hsource hplane h' hshows' hgray halpha hc hx hy
    · intro hcentered hc x hx y hy
      exact h.get_sharpened_alpha hshows hsource hcentered hc hx hy

-- Full alpha beside none, under weights that exceed one
namespace Edge

def map : AxisMap Int := ⟨2, 2, 2, #[⟨0, [40960, -8192]⟩, ⟨0, [-8192, 40960]⟩]⟩

def image : MemoryImage :=
  ⟨.pbgra64, 2, 2, 16, #[232, 3, 208, 7, 184, 11, 0, 128, 0, 0, 0, 0, 0, 0, 0, 0,
    244, 1, 208, 7, 184, 11, 0, 128, 0, 0, 0, 0, 0, 0, 0, 0]⟩

def blue : MemoryImage := ⟨.gray16, 2, 2, 4, #[232, 3, 0, 0, 244, 1, 0, 0]⟩

def alpha : MemoryImage := ⟨.gray16, 2, 2, 4, #[0, 128, 0, 0, 0, 128, 0, 0]⟩

theorem shows_image : Shows (· = image) image.picture :=
  MemoryImage.shows (show MemoryImage.make .pbgra64 2 2 16 image.data = .ok image from rfl)

theorem shows_blue : Shows (· = blue) blue.picture :=
  MemoryImage.shows (show MemoryImage.make .gray16 2 2 4 blue.data = .ok blue from rfl)

theorem shows_alpha : Shows (· = alpha) alpha.picture :=
  MemoryImage.shows (show MemoryImage.make .gray16 2 2 4 alpha.data = .ok alpha from rfl)

theorem isPlane_blue : blue.picture.IsPlane image.picture 0 := ⟨rfl, rfl, rfl, by decide +kernel⟩

theorem isPlane_alpha : alpha.picture.IsPlane image.picture 3 := ⟨rfl, rfl, rfl, by decide +kernel⟩

end Edge

theorem Resampler.planar_edge :
    (∃ stage mono, SetUp Edge.image .pbgra64 ⟨Edge.map, Edge.map⟩ none stage ∧
      SetUp Edge.alpha .gray16 ⟨Edge.map, Edge.map⟩ none mono ∧
      ((stage.picture Edge.image.picture).pixel UInt16 4 0 0).get 3 =
        min (((mono.picture Edge.alpha.picture).pixel UInt16 1 0 0).get 0) 32768) ∧
    ∃ stage mono, SetUp Edge.image .pbgra64 ⟨Edge.map, Edge.map⟩ (some ⟨80, 2⟩) stage ∧
      SetUp Edge.blue .gray16 ⟨Edge.map, Edge.map⟩ (some ⟨80, 2⟩) mono ∧
      ((stage.picture Edge.image.picture).pixel UInt16 4 0 0).get 0 =
        ((mono.picture Edge.blue.picture).pixel UInt16 1 0 0).get 0 ∧
      ((stage.picture Edge.image.picture).pixel UInt16 4 0 0).get 3 =
        (Edge.image.picture.pixel UInt16 4 0 0).get 3 := by
  have hsuit : (⟨Edge.map, Edge.map⟩ : AxisMaps Int).Suit 2 2 := ⟨by decide, by decide, rfl, rfl⟩
  constructor
  · have hmade : ∃ stage, SetUp Edge.image .pbgra64 ⟨Edge.map, Edge.map⟩ none stage :=
      exists_setUp rfl (by decide) hsuit (by simp) Depot.shared .fresh (by decide +kernel)
    have hmade' : ∃ mono, SetUp Edge.alpha .gray16 ⟨Edge.map, Edge.map⟩ none mono :=
      exists_setUp rfl (by decide) hsuit (by simp) Depot.shared .fresh (by decide +kernel)
    obtain ⟨stage, h⟩ := hmade
    obtain ⟨mono, h'⟩ := hmade'
    have hplanar := planar Edge.shows_image rfl Edge.shows_alpha rfl (3 : Fin 4) Edge.isPlane_alpha
      .uq15 .premultiplied ⟨Edge.map, Edge.map⟩ stage mono
    exact ⟨stage, mono, h, h', hplanar.2.1 h h' nofun 0 (by decide) 0 (by decide)⟩
  · have hmade : ∃ stage, SetUp Edge.image .pbgra64 ⟨Edge.map, Edge.map⟩ (some ⟨80, 2⟩) stage :=
      exists_setUp rfl (by decide) hsuit (fun _ => rfl) Depot.shared .fresh (by decide +kernel)
    have hmade' : ∃ mono, SetUp Edge.blue .gray16 ⟨Edge.map, Edge.map⟩ (some ⟨80, 2⟩) mono :=
      exists_setUp rfl (by decide) hsuit (fun _ => rfl) Depot.shared .fresh (by decide +kernel)
    obtain ⟨stage, h⟩ := hmade
    obtain ⟨mono, h'⟩ := hmade'
    have hblue := planar Edge.shows_image rfl Edge.shows_blue rfl (0 : Fin 4) Edge.isPlane_blue
      .uq15 .premultiplied ⟨Edge.map, Edge.map⟩ stage mono
    have halpha := planar Edge.shows_image rfl Edge.shows_alpha rfl (3 : Fin 4) Edge.isPlane_alpha
      .uq15 .premultiplied ⟨Edge.map, Edge.map⟩ stage mono
    exact ⟨stage, mono, h, h',
      (hblue.2.2 _ h).1 h' nofun (by decide) 0 (by decide) 0 (by decide),
      (halpha.2.2 _ h).2 (by decide) (by decide) 0 (by decide) 0 (by decide)⟩

end Resampling
