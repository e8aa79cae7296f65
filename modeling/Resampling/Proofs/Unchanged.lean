import Resampling.Proofs.Agreement

-- Stages that give back the image below. Integer samples have all the bytes they are read from, so
-- that an image of them is known by its pixels.

namespace Resampling

-- A type whose values can be stored as any bytes
class TightElement (α : Type) [Element α] : Prop where
  byteAt_ofBytes : ∀ (bytes : Nat → UInt8), ∀ k < Element.size α,
    Element.byteAt (Element.ofBytes bytes : α) k = bytes k

namespace Element

instance : TightElement UInt8 where
  byteAt_ofBytes bytes k hk := by
    obtain rfl : k = 0 := Nat.lt_one_iff.mp hk
    rfl

instance : TightElement UInt16 where
  byteAt_ofBytes bytes k hk := by
    have hlow := (bytes 0).toNat_lt
    have hhigh := (bytes 1).toNat_lt
    have hvalue : (UInt16.ofNat (littleEndian 2 bytes)).toNat =
        (bytes 0).toNat + 256 * (bytes 1).toNat := by
      simp only [littleEndian, UInt16.toNat_ofNat', Nat.zero_add]
      omega
    have hk : k < 2 := hk
    apply UInt8.toNat_inj.mp
    show (byteOfNat (UInt16.ofNat (littleEndian 2 bytes)).toNat k).toNat = _
    rw [toNat_byteOfNat, hvalue, Nat.shiftRight_eq_div_pow]
    obtain rfl | rfl : k = 0 ∨ k = 1 := by omega
    · omega
    · omega

instance {α : Type} [Element α] [TightElement α] {n : Nat} : TightElement (Vector α n) where
  byteAt_ofBytes bytes k hk := by
    obtain ⟨i, hi, j, hj, rfl⟩ := exists_entry hk
    rw [byteAt_vector _ i j hi hj]
    show byteAt (Vector.ofFn fun i : Fin n => ofBytes fun k => bytes (i * size α + k))[i] j = _
    rw [Vector.getElem_ofFn]
    exact TightElement.byteAt_ofBytes _ j hj

theorem tight_sample {kind : SampleKind} (hkind : kind ≠ .float) : TightElement kind.Sample := by
  cases kind with
  | byte => exact inferInstanceAs (TightElement UInt8)
  | uq15 => exact inferInstanceAs (TightElement UInt16)
  | float => exact absurd rfl hkind

end Element

namespace Picture

variable {S : Type} [Element S] {n : Nat} {image other : Picture}

theorem encoded_of_packed [TightElement S] (hpacked : image.Packed)
    (hsize : image.pixelSize = Element.size (Vector S n)) : image.Encoded S n := by
  intro x hx y hy k hk
  have hin : x * Element.size (Vector S n) + k < (image.row y).size := by
    rw [hpacked y hy, hsize]
    exact Element.entry_lt hx hk
  rw [pixel, TightElement.byteAt_ofBytes _ k hk, Array.getD_eq_getD_getElem?,
    Array.getElem?_eq_getElem hin, Option.getD_some]

theorem row_eq_of_pixel_eq {y : Nat} (himage : image.Encoded S n) (hother : other.Encoded S n)
    (hpacked : image.Packed) (hpacked' : other.Packed)
    (hsize : image.pixelSize = Element.size (Vector S n)) (hformat : other.format = image.format)
    (hwidth : other.width = image.width) (hheight : other.height = image.height)
    (hy : y < image.height)
    (h : ∀ x < image.width, image.pixel S n x y = other.pixel S n x y) :
    image.row y = other.row y := by
  have hlength : (image.row y).size = image.width * Element.size (Vector S n) := by
    rw [hpacked y hy, hsize]
  have hlength' : (other.row y).size = image.width * Element.size (Vector S n) := by
    rw [hpacked' y (hheight ▸ hy), hwidth, pixelSize, hformat, ← hsize, pixelSize]
  apply Array.ext_getElem?
  intro k
  by_cases hk : k < image.width * Element.size (Vector S n)
  · obtain ⟨x, hx, j, hj, rfl⟩ := exists_entry hk
    rw [himage x hx y hy j hj, h x hx, hother x (hwidth ▸ hx) y (hheight ▸ hy) j hj]
  · rw [Array.getElem?_eq_none (by omega), Array.getElem?_eq_none (by omega)]

-- What was delivered of an image was delivered of any that has the same rows, those apart that have
-- nothing in them
theorem Delivered.of_row_eq {rect : Rect} {stride length : Nat}
    {before after : Vector UInt8 length} (h : image.Delivered rect stride before after)
    (hsize : other.pixelSize = image.pixelSize)
    (hrow : ∀ y, image.row y = #[] ∨ image.row y = other.row y) :
    other.Delivered rect stride before after where
  inside i hi k hk := by
    rw [hsize] at hk ⊢
    obtain ⟨byte, hbyte, hafter⟩ := h.inside i hi k hk
    rcases hrow (rect.y + i) with hempty | hsame
    · rw [hempty] at hbyte
      cases hbyte
    · exact ⟨byte, hsame ▸ hbyte, hafter⟩
  outside p hp := h.outside p (by rwa [← hsize])

-- The same full row of both
theorem Delivered.row_eq {y stride length : Nat} {before after : Vector UInt8 length}
    (h : image.Delivered ⟨0, y, image.width, 1⟩ stride before after)
    (h' : other.Delivered ⟨0, y, image.width, 1⟩ stride before after) (hpacked : image.Packed)
    (hpacked' : other.Packed) (hsize : other.pixelSize = image.pixelSize)
    (hwidth : other.width = image.width) (hlength : length = image.width * image.pixelSize)
    (hy : y < image.height) (hy' : y < other.height) : image.row y = other.row y := by
  rw [← hwidth] at h'
  have hafter := h.toArray_eq hpacked hy hlength
  have hafter' := h'.toArray_eq hpacked' hy' (by rw [hlength, hwidth, hsize])
  exact hafter.symm.trans hafter'

end Picture

theorem Engine.row_picture_of_le {format : PixelFormat} {engine : Engine format} {below : Picture}
    (hready : engine.Ready below.width below.height) {y : Nat} (hy : engine.ymap.outPixels ≤ y) :
    (engine.picture below).row y = #[] := by
  have hnone : engine.plan.ymap.rows[y]? = none :=
    Array.getElem?_eq_none (hready.sound.ymap.size_rows.trans_le hy)
  have hempty : engine.plan.referenceRow below.row y = #[] := by rw [Plan.referenceRow, hnone]
  apply Array.eq_empty_of_size_eq_zero
  show (Element.encodeRow (engine.plan.referenceRow below.row y)).size = 0
  rw [hempty, Element.size_encodeRow, Array.size_empty, Nat.zero_mul]

namespace Resampler.SetUp

variable {σ : Type} [ImageSource σ] {I : σ → Prop} {image : Picture} {source : σ} {n : Nat}
  {kind : SampleKind} {alpha : AlphaMode} {maps : AxisMaps kind.Weights}
  {sharpening : Option Sharpening} {stage : Resampler σ}

-- The sharpened image is as large as the image below it, if the rows are as many
theorem extent_sharpened {format : PixelFormat} {maps : AxisMaps format.sample.Weights}
    {settings : Sharpening} (h : SetUp source format maps (some settings) stage)
    (hshows : Shows I image) (hsource : I source) (hsame : maps.y.outPixels = maps.y.inPixels) :
    maps.x.outPixels = image.width ∧ maps.y.outPixels = image.height :=
  ⟨(h.width_eq rfl).trans (hshows.width_eq _ hsource),
    hsame.trans (h.suit.height_eq.trans (hshows.height_eq _ hsource))⟩

-- A stage whose pixels are those of the image below delivers that image
theorem delivers_source (h : SetUp source ⟨n, kind, alpha⟩ maps sharpening stage)
    (hkind : kind ≠ .float) (hshows : Shows I image) (hsource : I source)
    (hwidth : maps.x.outPixels = image.width) (hheight : maps.y.outPixels = image.height)
    (hpixel : ∀ x < image.width, ∀ y < image.height,
      (stage.picture image).pixel kind.Sample n x y = image.pixel kind.Sample n x y) :
    ImageSource.Delivers stage image := by
  have hdelivers := h.delivers hshows hsource
  have hencoded : (stage.picture image).Encoded kind.Sample n := h.encoded_picture hshows hsource
  obtain ⟨buffers, rfl, hready, -, hformat⟩ := h.exists_engine_of_shows hshows hsource
  set engine := Engine.make ⟨n, kind, alpha⟩ maps sharpening buffers
  have hsize : image.pixelSize = Element.size (Vector kind.Sample n) := by
    rw [Picture.pixelSize, hformat]
    exact (Engine.size_pixel ⟨n, kind, alpha⟩).symm
  have htight := Element.tight_sample hkind
  have hrow : ∀ y, (engine.picture image).row y = #[] ∨
      (engine.picture image).row y = image.row y := by
    intro y
    by_cases hy : y < image.height
    · right
      refine (Picture.row_eq_of_pixel_eq (Picture.encoded_of_packed hshows.packed hsize) hencoded
        hshows.packed (Engine.packed_picture hready) hsize hformat.symm hwidth hheight hy ?_).symm
      exact fun x hx => (hpixel x hx y hy).symm
    · left
      exact Engine.row_picture_of_le hready (hheight.trans_le (Nat.le_of_not_lt hy))
  intro calls call hok
  exact (hdelivers calls call hok).of_row_eq (congrArg PixelFormat.pixelSize hformat) hrow

-- Over a source that does not fail, a stage that delivers the image below has the pixels of it
theorem pixel_eq_of_delivers (h : SetUp source ⟨n, kind, alpha⟩ maps sharpening stage)
    (hshows : Shows I image) (hreliable : Reliable I image.format image.width image.height)
    (hsource : I source) (hwidth : maps.x.outPixels = image.width)
    (hheight : maps.y.outPixels = image.height) (hdelivers : ImageSource.Delivers stage image)
    (x : Nat) {y : Nat} (hy : y < image.height) :
    (stage.picture image).pixel kind.Sample n x y = image.pixel kind.Sample n x y := by
  have hanswer := h.answer_eq_admit hshows hreliable hsource []
  have hpicture := h.delivers hshows hsource []
  obtain ⟨buffers, rfl, hready, -, hformat⟩ := h.exists_engine_of_shows hshows hsource
  set engine := Engine.make ⟨n, kind, alpha⟩ maps sharpening buffers
  set row : Call := ⟨⟨0, y, image.width, 1⟩, image.width * PixelFormat.pixelSize ⟨n, kind, alpha⟩,
    image.width * PixelFormat.pixelSize ⟨n, kind, alpha⟩, Vector.replicate _ 0⟩
  have haccept : Request.admit row.request maps.x.outPixels maps.y.outPixels
      (PixelFormat.pixelSize ⟨n, kind, alpha⟩) = .ok () := by
    rw [hwidth, hheight]
    exact Engine.admit_fullRow hready hy
  have hok := (hanswer row).1.trans haccept
  have hsize : image.pixelSize = PixelFormat.pixelSize ⟨n, kind, alpha⟩ :=
    congrArg PixelFormat.pixelSize hformat
  have hrow : image.row y = (engine.picture image).row y :=
    (hdelivers [] row hok).row_eq (hpicture row hok) hshows.packed (Engine.packed_picture hready)
      hsize.symm hwidth (by rw [hsize]) hy (hy.trans_eq hheight.symm)
  show (engine.picture image).pixel kind.Sample n x y = image.pixel kind.Sample n x y
  rw [Picture.pixel, Picture.pixel, hrow]

end Resampler.SetUp

end Resampling
