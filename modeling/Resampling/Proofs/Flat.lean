import Resampling.Proofs.Kernel.Settled
import Resampling.Proofs.Unchanged

-- Flat images. Under weights that sum to one they stay flat; and there is nothing to sharpen in
-- them, as far as blurring leaves their color what it was.

namespace Resampling

open FixedPoint Kernel

namespace Picture

variable {S : Type} [Element S] {n : Nat} {image : Picture} {p : Vector S n}

-- One pixel all over
def Flat (image : Picture) (S : Type) [Element S] (n : Nat) (p : Vector S n) : Prop :=
  ∀ x < image.width, ∀ y < image.height, image.pixel S n x y = p

theorem Flat.settled (h : image.Flat S n p) {rx ry : AxisMap.Row Int} (hx : rx.Balanced)
    (hy : ry.Balanced) (hcolumn : ∀ j < rx.weights.length, rx.anchor + j < image.width)
    (hrow : ∀ k < ry.weights.length, ry.anchor + k < image.height) :
    Settled (image.pixel S n) rx ry p :=
  settled_of_forall_eq hx hy fun j hj k hk => h _ (hcolumn j hj) _ (hrow k hk)

end Picture

-- A sample that is its own blur
theorem SampleKind.sharpenChannel_self {kind : SampleKind} (hkind : kind ≠ .float)
    (settings : Sharpening) (sample : kind.Sample) :
    kind.sharpenChannel settings sample sample = sample := by
  cases kind with
  | byte =>
    simp only [sharpenChannel, Byte.sharpenSample, sub_self, zero_mul]
    split
    · exact toByte_toNat sample
    · rfl
  | uq15 =>
    simp only [sharpenChannel, Uq15.sharpenSample, sub_self, zero_mul]
    split
    · exact toSample_toNat sample
    · rfl
  | float => exact absurd rfl hkind

theorem RowKernel.sharpen_eq_self {n : Nat} {kind : SampleKind} {alpha : AlphaMode}
    (hkind : kind ≠ .float) (settings : Sharpening) {p blurred : Vector kind.Sample n}
    (h : ∀ c : Fin n, c.val < alpha.colors n → blurred.get c = p.get c) :
    (ofFormat ⟨n, kind, alpha⟩).sharpen settings p blurred = p := by
  apply eq_of_get_eq
  intro c
  refine (get_sharpen settings p blurred c).trans ?_
  split
  · rw [h c ‹_›, SampleKind.sharpenChannel_self hkind]
  · rfl

namespace Resampler

variable {σ : Type} [ImageSource σ] {I : σ → Prop} {image : Picture} {source : σ} {n : Nat}
  {alpha : AlphaMode}

namespace SetUp

variable {kind : SampleKind} {stage : Resampler σ} {p : Vector kind.Sample n}

theorem flat_picture {maps : AxisMaps kind.Weights} {sharpening : Option Sharpening}
    (h : SetUp source ⟨n, kind, alpha⟩ maps sharpening stage) (hshows : Shows I image)
    (hsource : I source) (hflat : image.Flat kind.Sample n p) {blurred : Vector kind.Sample n}
    (hblurred : ∀ rx ∈ maps.x.rows, ∀ ry ∈ maps.y.rows,
      (RowKernel.ofFormat ⟨n, kind, alpha⟩).outputPixel (image.pixel kind.Sample n) rx ry =
        blurred) :
    (stage.picture image).Flat kind.Sample n
      ((RowKernel.ofFormat ⟨n, kind, alpha⟩).finish sharpening p blurred) := by
  obtain ⟨-, hwidth, hheight⟩ := h.extent_picture image
  intro x hx y hy
  obtain ⟨rx, hrx, hrxMem, -⟩ := h.suit.x.row_eq (hwidth ▸ hx)
  obtain ⟨ry, hry, hryMem, -⟩ := h.suit.y.row_eq (hheight ▸ hy)
  have hpixel : (stage.picture image).pixel kind.Sample n x y = _ :=
    h.pixel_picture hshows hsource hrx hry
  rw [hpixel, hblurred rx hrxMem ry hryMem]
  cases sharpening with
  | none => rfl
  | some settings =>
    have hxIn : x < image.width := by
      have hin := h.width_eq rfl
      rw [hshows.width_eq _ hsource] at hin
      omega
    have hnearest : min (y - ry.anchor) (maps.y.samples - 1) < ry.weights.length := by
      have hlength := h.suit.y.length_weights ry hryMem
      have hpos := h.suit.y.samples_pos
      omega
    rw [hflat x hxIn _ (h.row_lt hshows hsource hryMem hnearest)]

-- A sharpened flat image is the image below if its pixel is
theorem delivers_flat {maps : AxisMaps kind.Weights} {settings : Sharpening}
    (h : SetUp source ⟨n, kind, alpha⟩ maps (some settings) stage) (hkind : kind ≠ .float)
    (hshows : Shows I image) (hsource : I source) (hsame : maps.y.outPixels = maps.y.inPixels)
    (hflat : image.Flat kind.Sample n p) {q : Vector kind.Sample n}
    (hsharpened : (stage.picture image).Flat kind.Sample n q) :
    (q = p → ImageSource.Delivers stage image) ∧
      (Reliable I image.format image.width image.height → ImageSource.Delivers stage image →
        q = p) := by
  obtain ⟨-, hwidthOut, hheightOut⟩ := h.extent_picture image
  obtain ⟨hwidth, hheight⟩ := h.extent_sharpened hshows hsource hsame
  rw [hwidth] at hwidthOut
  rw [hheight] at hheightOut
  constructor
  · rintro rfl
    apply h.delivers_source hkind hshows hsource hwidth hheight
    intro x hx y hy
    rw [hflat x hx y hy, hsharpened x (hwidthOut ▸ hx) y (hheightOut ▸ hy)]
  · intro hreliable hdelivers
    have hx : 0 < image.width := hwidth ▸ h.suit.x.outPixels_pos
    have hy : 0 < image.height := hheight ▸ h.suit.y.outPixels_pos
    rw [← hflat 0 hx 0 hy, ← hsharpened 0 (hwidthOut ▸ hx) 0 (hheightOut ▸ hy)]
    exact h.pixel_eq_of_delivers hshows hreliable hsource hwidth hheight hdelivers 0 hy

variable {maps : AxisMaps Int} {sharpening : Option Sharpening}

theorem flat_bytes {p : Vector UInt8 n} (h : SetUp source ⟨n, .byte, alpha⟩ maps sharpening stage)
    (hshows : Shows I image) (hsource : I source) (hx : maps.x.Balanced) (hy : maps.y.Balanced)
    (hflat : image.Flat UInt8 n p) :
    (stage.picture image).Flat UInt8 n
      ((Byte.select n alpha).finish sharpening p (Byte.settle n alpha p)) := by
  apply h.flat_picture hshows hsource hflat
  intro rx hrx ry hry
  exact Byte.outputPixel_of_settled (hflat.settled (hx rx hrx) (hy ry hry)
    (fun _ => h.column_lt hshows hsource hrx) fun _ => h.row_lt hshows hsource hry)

theorem flat_words {p : Vector UInt16 n} (h : SetUp source ⟨n, .uq15, alpha⟩ maps sharpening stage)
    (hshows : Shows I image) (hsource : I source) (hx : maps.x.Balanced) (hy : maps.y.Balanced)
    (hflat : image.Flat UInt16 n p) :
    (stage.picture image).Flat UInt16 n
      ((Uq15.select n alpha).finish sharpening p (Uq15.settle n alpha p)) := by
  apply h.flat_picture hshows hsource hflat
  intro rx hrx ry hry
  exact Uq15.outputPixel_of_settled (hflat.settled (hx rx hrx) (hy ry hry)
    (fun _ => h.column_lt hshows hsource hrx) fun _ => h.row_lt hshows hsource hry)

end SetUp

-- A flat image stays flat at every size. Clear pixels lose their color, alpha is capped at one, and
-- 16-bit colors under less alpha than that are as near as their products tell.
theorem stays_flat (hshows : Shows I image) (hsource : I source) {maps : AxisMaps Int}
    (hx : maps.x.Balanced) (hy : maps.y.Balanced) (stage : Resampler σ) :
    (∀ p, SetUp source ⟨n, .byte, alpha⟩ maps none stage → image.Flat UInt8 n p →
      stage.Yields I image ∧ (stage.picture image).Flat UInt8 n (Byte.settle n alpha p)) ∧
    ∀ p, SetUp source ⟨n, .uq15, alpha⟩ maps none stage → image.Flat UInt16 n p →
      stage.Yields I image ∧ (stage.picture image).Flat UInt16 n (Uq15.settle n alpha p) ∧
      ((alpha = .straight → ∀ a : Fin n, ¬a < alpha.colors n → 32768 ≤ p.get a) →
        (stage.picture image).Flat UInt16 n (Uq15.capped alpha p)) := by
  constructor
  · intro p h hflat
    exact ⟨h.yields hshows hsource, h.flat_bytes hshows hsource hx hy hflat⟩
  · intro p h hflat
    have hresized : (stage.picture image).Flat UInt16 n (Uq15.settle n alpha p) :=
      h.flat_words hshows hsource hx hy hflat
    refine ⟨h.yields hshows hsource, hresized, fun halpha => ?_⟩
    rwa [Uq15.settle_of_le halpha] at hresized

end Resampler

-- Flat images of four pixels under weights of both signs
namespace Level

def image (format : PixelFormat) (pixel : Array UInt8) : MemoryImage :=
  ⟨format, 2, 2, 2 * format.pixelSize, pixel ++ pixel ++ pixel ++ pixel⟩

def wider : AxisMap Int :=
  ⟨2, 3, 2, #[⟨0, [40960, -8192]⟩, ⟨0, [16384, 16384]⟩, ⟨0, [-8192, 40960]⟩]⟩

def bytes : MemoryImage := image .bgra32 #[10, 128, 250, 90]

def words : MemoryImage := image .bgra64 #[232, 3, 64, 156, 32, 78, 64, 156]

theorem shows_bytes : Shows (· = bytes) bytes.picture :=
  MemoryImage.shows (show MemoryImage.make .bgra32 2 2 8 bytes.data = .ok bytes from rfl)

theorem shows_words : Shows (· = words) words.picture :=
  MemoryImage.shows (show MemoryImage.make .bgra64 2 2 16 words.data = .ok words from rfl)

theorem flat_bytes : bytes.picture.Flat UInt8 4 #v[10, 128, 250, 90] := by
  unfold Picture.Flat
  decide +kernel

theorem flat_words : words.picture.Flat UInt16 4 #v[1000, 40000, 20000, 40000] := by
  unfold Picture.Flat
  decide +kernel

end Level

theorem Resampler.stays_flat_level :
    (∃ stage, SetUp Level.bytes .bgra32 ⟨Level.wider, Level.wider⟩ none stage ∧
      (stage.picture Level.bytes.picture).Flat UInt8 4 #v[10, 128, 250, 90]) ∧
    ∃ stage, SetUp Level.words .bgra64 ⟨Level.wider, Level.wider⟩ none stage ∧
      (stage.picture Level.words.picture).Flat UInt16 4 #v[1000, 40000, 20000, 32768] := by
  have hbalanced : Level.wider.Balanced := by decide
  constructor
  · have hmade : ∃ stage, SetUp Level.bytes .bgra32 ⟨Level.wider, Level.wider⟩ none stage :=
      exists_setUp rfl (by decide) ⟨by decide, by decide, rfl, rfl⟩ (by simp) Depot.shared .fresh
        (by decide +kernel)
    obtain ⟨stage, h⟩ := hmade
    have hflat := (stays_flat Level.shows_bytes rfl hbalanced hbalanced stage).1 _ h
      Level.flat_bytes
    exact ⟨stage, h, hflat.2⟩
  · have hmade : ∃ stage, SetUp Level.words .bgra64 ⟨Level.wider, Level.wider⟩ none stage :=
      exists_setUp rfl (by decide) ⟨by decide, by decide, rfl, rfl⟩ (by simp) Depot.shared .fresh
        (by decide +kernel)
    obtain ⟨stage, h⟩ := hmade
    have hflat := (stays_flat Level.shows_words rfl hbalanced hbalanced stage).2 _ h
      Level.flat_words
    exact ⟨stage, h, hflat.2.2 (by decide)⟩

namespace Resampler

variable {σ : Type} [ImageSource σ] {I : σ → Prop} {image : Picture} {source : σ} {n : Nat}
  {alpha : AlphaMode}

-- Sharpening a flat image is sharpening its pixel against what blurring leaves of that. Nothing
-- comes of it unless alpha is straight, nor then under enough alpha.
theorem sharpens_flat (hshows : Shows I image) (hsource : I source) {maps : AxisMaps Int}
    (hx : maps.x.Balanced) (hy : maps.y.Balanced) (hsame : maps.y.outPixels = maps.y.inPixels)
    (settings : Sharpening) (stage : Resampler σ) :
    (∀ p, SetUp source ⟨n, .byte, alpha⟩ maps (some settings) stage → image.Flat UInt8 n p →
      let q := Byte.sharpen (alpha.colors n) settings p (Byte.settle n alpha p)
      stage.Yields I image ∧ (stage.picture image).Flat UInt8 n q ∧
      (q = p → ImageSource.Delivers stage image) ∧
      (Reliable I image.format image.width image.height → ImageSource.Delivers stage image →
        q = p) ∧
      ((alpha = .straight → ∀ a : Fin n, ¬a < alpha.colors n → p.get a ≠ 0) → q = p)) ∧
    ∀ p, SetUp source ⟨n, .uq15, alpha⟩ maps (some settings) stage → image.Flat UInt16 n p →
      let q := Uq15.sharpen (alpha.colors n) settings p (Uq15.settle n alpha p)
      stage.Yields I image ∧ (stage.picture image).Flat UInt16 n q ∧
      (q = p → ImageSource.Delivers stage image) ∧
      (Reliable I image.format image.width image.height → ImageSource.Delivers stage image →
        q = p) ∧
      ((alpha = .straight → ∀ a : Fin n, ¬a < alpha.colors n → 32768 ≤ p.get a) → q = p) := by
  constructor
  · intro p h hflat
    have hsharpened := h.flat_bytes hshows hsource hx hy hflat
    obtain ⟨hdelivers, honly⟩ :=
      h.delivers_flat (by decide) hshows hsource hsame hflat hsharpened
    rw [← Byte.sharpen_select]
    refine ⟨h.yields hshows hsource, hsharpened, hdelivers, honly, fun halpha => ?_⟩
    rw [Byte.settle_of_ne halpha]
    exact RowKernel.sharpen_eq_self (show SampleKind.byte ≠ .float by decide) settings
      fun _ _ => rfl
  · intro p h hflat
    have hsharpened := h.flat_words hshows hsource hx hy hflat
    obtain ⟨hdelivers, honly⟩ :=
      h.delivers_flat (by decide) hshows hsource hsame hflat hsharpened
    rw [← Uq15.sharpen_select]
    refine ⟨h.yields hshows hsource, hsharpened, hdelivers, honly, fun halpha => ?_⟩
    rw [Uq15.settle_of_le halpha]
    refine RowKernel.sharpen_eq_self (show SampleKind.uq15 ≠ .float by decide) settings ?_
    intro c hc
    rw [Uq15.capped, Vector.get_ofFn, if_pos hc]

end Resampler

namespace Level

def blur : AxisMap Int := ⟨2, 2, 2, #[⟨0, [40960, -8192]⟩, ⟨0, [-8192, 40960]⟩]⟩

def whole : Call := ⟨⟨0, 0, 2, 2⟩, 16, 32, Vector.replicate 32 0⟩

end Level

theorem Resampler.sharpens_flat_level :
    (∃ stage, SetUp Level.bytes .bgra32 ⟨Level.blur, Level.blur⟩ (some ⟨300, 0⟩) stage ∧
      ImageSource.Delivers stage Level.bytes.picture) ∧
    ∃ stage, SetUp Level.words .bgra64 ⟨Level.blur, Level.blur⟩ (some ⟨300, 0⟩) stage ∧
      ImageSource.Delivers stage Level.words.picture := by
  have hbalanced : Level.blur.Balanced := by decide
  constructor
  · have hmade : ∃ stage, SetUp Level.bytes .bgra32 ⟨Level.blur, Level.blur⟩ (some ⟨300, 0⟩)
        stage :=
      exists_setUp rfl (by decide) ⟨by decide, by decide, rfl, rfl⟩ (fun _ => rfl) Depot.shared
        .fresh (by decide +kernel)
    obtain ⟨stage, h⟩ := hmade
    obtain ⟨-, -, hdelivers, -, hshown⟩ := (sharpens_flat Level.shows_bytes rfl hbalanced hbalanced
      rfl ⟨300, 0⟩ stage).1 _ h Level.flat_bytes
    exact ⟨stage, h, hdelivers (hshown (by decide))⟩
  · have hmade : ∃ stage, SetUp Level.words .bgra64 ⟨Level.blur, Level.blur⟩ (some ⟨300, 0⟩)
        stage :=
      exists_setUp rfl (by decide) ⟨by decide, by decide, rfl, rfl⟩ (fun _ => rfl) Depot.shared
        .fresh (by decide +kernel)
    obtain ⟨stage, h⟩ := hmade
    obtain ⟨-, -, hdelivers, -, hshown⟩ := (sharpens_flat Level.shows_words rfl hbalanced hbalanced
      rfl ⟨300, 0⟩ stage).2 _ h Level.flat_words
    exact ⟨stage, h, hdelivers (hshown (by decide))⟩

namespace Level

-- Pixels of 16-bit samples, all over an image that is sharpened threefold
def sharpened (pixel : Array UInt8) : Construction (Resampler MemoryImage) :=
  Resampler.assemble (σ := MemoryImage) (image .bgra64 pixel) ⟨blur, blur⟩ (some ⟨300, 0⟩)
    Depot.shared .fresh

theorem exists_setUp_sharpened {pixel sharp : Array UInt8}
    (h : (sharpened pixel).result.toOption.any fun stage =>
      (ImageSource.answer stage whole).result = .ok () ∧
        (ImageSource.answer stage whole).state.toArray = (image .bgra64 sharp).data)
    (hother : ((image .bgra64 pixel).picture.row 0)[0]? ≠ (image .bgra64 sharp).data[0]?) :
    ∃ stage, Resampler.SetUp (image .bgra64 pixel) .bgra64 ⟨blur, blur⟩ (some ⟨300, 0⟩) stage ∧
      (ImageSource.answer stage whole).result = .ok () ∧
      (ImageSource.answer stage whole).state.toArray = (image .bgra64 sharp).data ∧
      ¬ImageSource.Delivers stage (image .bgra64 pixel).picture := by
  cases hmade : (sharpened pixel).result with
  | error e =>
    rw [hmade] at h
    cases h
  | ok stage =>
    rw [hmade] at h
    obtain ⟨hok, hbytes⟩ := of_decide_eq_true h
    have hsuit : (⟨blur, blur⟩ : AxisMaps Int).Suit 2 2 := ⟨by decide, by decide, rfl, rfl⟩
    refine ⟨stage, ⟨rfl, by decide, hsuit, fun _ => rfl, _, _, hmade⟩, hok, hbytes, ?_⟩
    intro hdelivers
    obtain ⟨byte, hrow, hafter⟩ :=
      (hdelivers [] whole hok).inside 0 (by decide) 0 (show 0 < 2 * 8 by decide)
    rw [← hbytes, Vector.getElem?_toArray] at hother
    exact hother (hrow.trans hafter.symm)

end Level

-- Color under no alpha is sharpened against black, and color under little alpha against what
-- rounding left of it
theorem Resampler.sharpens_flat_unshown :
    Level.blur.Balanced ∧ Level.blur.Tame ∧
    ((Level.image .bgra64 #[232, 3, 208, 7, 184, 11, 0, 0]).picture.Flat UInt16 4
        #v[1000, 2000, 3000, 0] ∧
      ∃ stage, SetUp (Level.image .bgra64 #[232, 3, 208, 7, 184, 11, 0, 0]) .bgra64
          ⟨Level.blur, Level.blur⟩ (some ⟨300, 0⟩) stage ∧
        (ImageSource.answer stage Level.whole).result = .ok () ∧
        (ImageSource.answer stage Level.whole).state.toArray =
          (Level.image .bgra64 #[160, 15, 64, 31, 224, 46, 0, 0]).data ∧
        ¬ImageSource.Delivers stage
          (Level.image .bgra64 #[232, 3, 208, 7, 184, 11, 0, 0]).picture) ∧
    (Level.image .bgra64 #[232, 3, 208, 7, 184, 11, 100, 0]).picture.Flat UInt16 4
        #v[1000, 2000, 3000, 100] ∧
      ∃ stage, SetUp (Level.image .bgra64 #[232, 3, 208, 7, 184, 11, 100, 0]) .bgra64
          ⟨Level.blur, Level.blur⟩ (some ⟨300, 0⟩) stage ∧
        (ImageSource.answer stage Level.whole).result = .ok () ∧
        (ImageSource.answer stage Level.whole).state.toArray =
          (Level.image .bgra64 #[27, 4, 54, 8, 81, 12, 100, 0]).data ∧
        ¬ImageSource.Delivers stage
          (Level.image .bgra64 #[232, 3, 208, 7, 184, 11, 100, 0]).picture := by
  refine ⟨by decide, by decide, ⟨?_, Level.exists_setUp_sharpened (by decide +kernel)
    (by decide +kernel)⟩, ?_, Level.exists_setUp_sharpened (by decide +kernel) (by decide +kernel)⟩
  · unfold Picture.Flat
    decide +kernel
  · unfold Picture.Flat
    decide +kernel

end Resampling
