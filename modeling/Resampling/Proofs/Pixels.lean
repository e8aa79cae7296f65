import Resampling.Proofs.Kernel.Taps
import Resampling.Proofs.Reference

-- Images pixel by pixel. A pixel of what a stage shows depends on the pixels under the taps of
-- its column and of its row, and if it is sharpened on one pixel more.

namespace Resampling

namespace Element

instance : LawfulElement Float32 where
  ofBytes_of_forall_eq value bytes h := by
    have hvalue : littleEndian 4 bytes = value.toBits.toNat % 1 <<< 32 :=
      (littleEndian_congr h).trans (littleEndian_byteOfNat 4 value.toBits.toNat)
    simp only [ofBytes, hvalue]
    rw [Nat.mod_eq_of_lt (show value.toBits.toNat < 1 <<< 32 from value.toBits.toNat_lt),
      UInt32.ofNat_toNat, Float32.ofBits_toBits]

instance sampleLawfulElement : (kind : SampleKind) → LawfulElement kind.Sample
  | .byte => inferInstanceAs (LawfulElement UInt8)
  | .uq15 => inferInstanceAs (LawfulElement UInt16)
  | .float => inferInstanceAs (LawfulElement Float32)

end Element

variable {n : Nat} {S W T : Type} [Element S]

namespace Picture

-- The pixel in column `x` of row `y`, as `n` samples of type `S`
def pixel (image : Picture) (S : Type) [Element S] (n x y : Nat) : Vector S n :=
  Element.ofBytes fun k => (image.row y).getD (x * Element.size (Vector S n) + k) 0

theorem pixel_of_row_eq [LawfulElement S] {image : Picture} {y : Nat}
    {pixels : Array (Vector S n)} (hrow : image.row y = Element.encodeRow pixels) {x : Nat}
    {value : Vector S n} (hx : pixels[x]? = some value) : image.pixel S n x y = value := by
  obtain ⟨hlt, rfl⟩ := Array.getElem?_eq_some_iff.mp hx
  apply LawfulElement.ofBytes_of_forall_eq
  intro k hk
  rw [hrow, Array.getD_eq_getD_getElem?, Element.getElem?_encodeRow pixels x k hlt hk,
    Option.getD_some]

-- Rows that are the bytes of their pixels
def Encoded (image : Picture) (S : Type) [Element S] (n : Nat) : Prop :=
  ∀ x < image.width, ∀ y < image.height, ∀ k < Element.size (Vector S n),
    (image.row y)[x * Element.size (Vector S n) + k]? =
      some (Element.byteAt (image.pixel S n x y) k)

end Picture

-- What becomes of a pixel and its blur
def RowKernel.finish (kernel : RowKernel n S W T) (sharpening : Option Sharpening)
    (unblurred blurred : Vector S n) : Vector S n :=
  match sharpening with
  | none => blurred
  | some sharpening => kernel.sharpen sharpening unblurred blurred

namespace Plan

variable {plan : Plan n S W T} {image : Picture}

theorem getElem?_pixels (plan : Plan n S W T) (image : Picture) {x : Nat} (y : Nat)
    (hx : x < plan.xmap.inPixels) :
    (plan.pixels (image.row y))[x]? = some (image.pixel S n x y) := by
  rw [Array.getElem?_eq_getElem (by simpa using hx)]
  simp only [pixels, Element.decodeRow, Array.getElem_ofFn, Nat.zero_add]
  rfl

theorem tap_eq (hsound : plan.Sound) (y : Nat) {r : AxisMap.Row W} (hr : r ∈ plan.xmap.rows) :
    plan.tap (plan.pixels (image.row y)) r =
      plan.kernel.gather (r.taps fun j => image.pixel S n (r.anchor + j) y) := by
  have hlength := hsound.xmap.length_weights r hr
  have hanchor := hsound.xmap.anchor_le r hr
  rw [tap, AxisMap.Row.zip_eq_taps]
  intro j hj
  rw [Array.getElem?_toList, Array.getElem?_extract, size_pixels, if_pos (by omega)]
  exact getElem?_pixels plan image y (by omega)

theorem getElem?_blended (hsound : plan.Sound) {x : Nat} {rx ry : AxisMap.Row W}
    (hx : plan.xmap.rows[x]? = some rx) (hy : ry ∈ plan.ymap.rows) :
    (plan.blended (fun k => image.row (ry.anchor + k)) ry.weights)[x]? =
      some (plan.kernel.outputPixel (image.pixel S n) rx ry) := by
  have hlength : ry.weights.length = plan.taps := hsound.ymap.length_weights ry hy
  rw [blended, Array.getElem?_map, hx, Option.map_some, RowKernel.outputPixel, Kernel.throughBoth,
    AxisMap.Row.zip_eq_taps]
  intro k hk
  rw [List.getElem?_map, List.getElem?_range (by omega), Option.map_some,
    tap_eq hsound _ (Array.mem_of_getElem? hx)]

-- Without sharpening the blended pixel is the output, else it is the blur
theorem getElem?_referenceRow (hsound : plan.Sound) {x y : Nat} {rx ry : AxisMap.Row W}
    (hx : plan.xmap.rows[x]? = some rx) (hy : plan.ymap.rows[y]? = some ry) :
    (plan.referenceRow image.row y)[x]? = some (plan.kernel.finish plan.sharpening
      (image.pixel S n x (ry.anchor + plan.nearestTap y ry.anchor))
      (plan.kernel.outputPixel (image.pixel S n) rx ry)) := by
  have hblended : (plan.blended (fun k => image.row (ry.anchor + k)) ry.weights)[x]? = _ :=
    getElem?_blended hsound hx (Array.mem_of_getElem? hy)
  rw [referenceRow, hy]
  simp only [combine, RowKernel.finish]
  cases hsharpening : plan.sharpening with
  | none => exact hblended
  | some sharpening =>
    have hxLt : x < plan.xmap.inPixels := by
      rw [hsound.width_eq (by rw [hsharpening]; rfl), ← hsound.xmap.size_rows]
      exact (Array.getElem?_eq_some_iff.mp hx).1
    rw [Array.getElem?_zipWith, getElem?_pixels plan image _ hxLt, hblended]

end Plan

namespace Engine

variable {format : PixelFormat} {engine : Engine format} {below : Picture}

theorem encoded_picture (hready : engine.Ready below.width below.height) :
    (engine.picture below).Encoded format.sample.Sample format.channels := by
  intro x hx y hy k hk
  obtain ⟨rx, hrx, -⟩ := hready.sound.xmap.row_eq hx
  obtain ⟨ry, hry, -⟩ := hready.sound.ymap.row_eq hy
  have hpixel : (engine.plan.referenceRow below.row y)[x]? = some _ :=
    Plan.getElem?_referenceRow hready.sound hrx hry
  rw [Picture.pixel_of_row_eq rfl hpixel]
  obtain ⟨hlt, hvalue⟩ := Array.getElem?_eq_some_iff.mp hpixel
  rw [← hvalue]
  exact Element.getElem?_encodeRow _ x k hlt hk

theorem pixel_picture (hready : engine.Ready below.width below.height) {x y : Nat}
    {rx ry : AxisMap.Row format.sample.Weights} (hx : engine.xmap.rows[x]? = some rx)
    (hy : engine.ymap.rows[y]? = some ry) :
    (engine.picture below).pixel format.sample.Sample format.channels x y =
      (RowKernel.ofFormat format).finish engine.sharpening
        (below.pixel _ _ x (ry.anchor + min (y - ry.anchor) (engine.ymap.samples - 1)))
        ((RowKernel.ofFormat format).outputPixel (below.pixel _ _) rx ry) :=
  Picture.pixel_of_row_eq rfl (Plan.getElem?_referenceRow hready.sound hx hy)

end Engine

-- Every row of the table has the sample of its own index among its taps, as in tables of blurs
def AxisMap.Centered (map : AxisMap W) : Prop :=
  ∀ i r, map.rows[i]? = some r → r.anchor ≤ i ∧ i < r.anchor + map.samples

instance (map : AxisMap W) : Decidable map.Centered :=
  decidable_of_iff
    (∀ i (hi : i < map.rows.size),
      map.rows[i].anchor ≤ i ∧ i < map.rows[i].anchor + map.samples)
    ⟨fun h i r hr => by
        obtain ⟨hi, rfl⟩ := Array.getElem?_eq_some_iff.mp hr
        exact h i hi,
      fun h i hi => h i _ (Array.getElem?_eq_getElem hi)⟩

-- Whatever it has been asked before, a source meets requests with parts of the image only
def ImageSource.Delivers {σ : Type} [ImageSource σ] (source : σ) (image : Picture) : Prop :=
  ∀ calls call, (answer (after source calls) call).result = .ok () →
    image.Delivered call.rect call.stride call.buffer (answer (after source calls) call).state

namespace Resampler.SetUp

variable {σ : Type} [ImageSource σ] {I : σ → Prop} {image : Picture} {source : σ}
  {format : PixelFormat} {maps : AxisMaps format.sample.Weights} {sharpening : Option Sharpening}
  {stage : Resampler σ}

-- A stage over a source that shows an image, as an engine that is ready for it
theorem exists_engine_of_shows (h : SetUp source format maps sharpening stage)
    (hshows : Shows I image) (hsource : I source) :
    ∃ buffers, let engine := Engine.make format maps sharpening buffers
      stage = engine.stage source engine.window ∧ engine.Ready image.width image.height ∧
        engine.window.Fits engine.plan ∧ image.format = format := by
  obtain ⟨buffers, hstage, hready, hfits⟩ := h.exists_engine
  rw [hshows.width_eq _ hsource, hshows.height_eq _ hsource] at hready
  exact ⟨buffers, hstage, hready, hfits, (hshows.format_eq _ hsource).symm.trans h.format_eq⟩

theorem delivers (h : SetUp source format maps sharpening stage) (hshows : Shows I image)
    (hsource : I source) : ImageSource.Delivers stage (stage.picture image) := by
  obtain ⟨buffers, rfl, hready, hfits, hformat⟩ := h.exists_engine_of_shows hshows hsource
  have hstage := Engine.shows_stage hready hformat hshows
  have hnew : Engine.Runs _ (Engine.RowOf image) I none _ := Engine.runs_new hsource hfits rfl
  intro calls call hok
  exact ((hstage.answer _ (hstage.preserved ⟨none, hnew⟩ calls) call).of_ok hok).2

theorem extent_picture (h : SetUp source format maps sharpening stage) (below : Picture) :
    (stage.picture below).format = format ∧ (stage.picture below).width = maps.x.outPixels ∧
      (stage.picture below).height = maps.y.outPixels := by
  obtain ⟨buffers, rfl, -⟩ := h.exists_engine
  exact ⟨rfl, rfl, rfl⟩

theorem encoded_picture (h : SetUp source format maps sharpening stage) (hshows : Shows I image)
    (hsource : I source) :
    (stage.picture image).Encoded format.sample.Sample format.channels := by
  obtain ⟨buffers, rfl, hready, -⟩ := h.exists_engine_of_shows hshows hsource
  exact Engine.encoded_picture hready

theorem column_lt (h : SetUp source format maps sharpening stage) (hshows : Shows I image)
    (hsource : I source) {rx : AxisMap.Row format.sample.Weights} (hrx : rx ∈ maps.x.rows) {j : Nat}
    (hj : j < rx.weights.length) : rx.anchor + j < image.width := by
  have hlength := h.suit.x.length_weights rx hrx
  have hanchor := h.suit.x.anchor_le rx hrx
  rw [h.suit.width_eq, hshows.width_eq _ hsource] at hanchor
  omega

theorem row_lt (h : SetUp source format maps sharpening stage) (hshows : Shows I image)
    (hsource : I source) {ry : AxisMap.Row format.sample.Weights} (hry : ry ∈ maps.y.rows) {k : Nat}
    (hk : k < ry.weights.length) : ry.anchor + k < image.height := by
  have hlength := h.suit.y.length_weights ry hry
  have hanchor := h.suit.y.anchor_le ry hry
  rw [h.suit.height_eq, hshows.height_eq _ hsource] at hanchor
  omega

theorem pixel_picture (h : SetUp source format maps sharpening stage) (hshows : Shows I image)
    (hsource : I source) {x y : Nat} {rx ry : AxisMap.Row format.sample.Weights}
    (hx : maps.x.rows[x]? = some rx) (hy : maps.y.rows[y]? = some ry) :
    (stage.picture image).pixel format.sample.Sample format.channels x y =
      (RowKernel.ofFormat format).finish sharpening
        (image.pixel _ _ x (ry.anchor + min (y - ry.anchor) (maps.y.samples - 1)))
        ((RowKernel.ofFormat format).outputPixel (image.pixel _ _) rx ry) := by
  obtain ⟨buffers, rfl, hready, -⟩ := h.exists_engine_of_shows hshows hsource
  exact Engine.pixel_picture hready hx hy

theorem pixel_sharpened {settings : Sharpening}
    (h : SetUp source format maps (some settings) stage) (hshows : Shows I image)
    (hsource : I source) (hcentered : maps.y.Centered) {x y : Nat}
    {rx ry : AxisMap.Row format.sample.Weights} (hx : maps.x.rows[x]? = some rx)
    (hy : maps.y.rows[y]? = some ry) :
    (stage.picture image).pixel format.sample.Sample format.channels x y =
      (RowKernel.ofFormat format).sharpen settings (image.pixel _ _ x y)
        ((RowKernel.ofFormat format).outputPixel (image.pixel _ _) rx ry) := by
  obtain ⟨hlow, hhigh⟩ := hcentered y ry hy
  have hnearest : ry.anchor + min (y - ry.anchor) (maps.y.samples - 1) = y := by omega
  rw [h.pixel_picture hshows hsource hx hy, hnearest, RowKernel.finish]

-- The sharpened image is as large as the image below it
theorem lt_of_sharpened {settings : Sharpening}
    (h : SetUp source format maps (some settings) stage) (hshows : Shows I image)
    (hsource : I source) (hcentered : maps.y.Centered) {x y : Nat} (hx : x < maps.x.outPixels)
    (hy : y < maps.y.outPixels) : x < image.width ∧ y < image.height := by
  obtain ⟨ry, hry, hmem, -⟩ := h.suit.y.row_eq hy
  have hcenter := hcentered y ry hry
  have hanchor := h.suit.y.anchor_le ry hmem
  have hwidth := h.width_eq rfl
  rw [h.suit.height_eq, hshows.height_eq _ hsource] at hanchor
  rw [hshows.width_eq _ hsource] at hwidth
  omega

end Resampler.SetUp

end Resampling
