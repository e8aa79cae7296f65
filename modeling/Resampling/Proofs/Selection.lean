import Resampling.Proofs.Kernel.Settled
import Resampling.Proofs.Unchanged

-- Tables that select. Where each row has all its weight at one tap, pixels are copied, and if every
-- pixel is copied to its own place nothing is lost.

namespace Resampling

open FixedPoint Kernel

-- Row `i` has all its weight at the tap for sample `place i`
def AxisMap.Selects (map : AxisMap Int) (place : Nat → Nat) : Prop :=
  ∀ i r, map.rows[i]? = some r → ∃ k, r.Picks k ∧ r.anchor + k = place i

theorem AxisMap.selects_of_picks {map : AxisMap Int} {tap place : Nat → Nat}
    (h : ∀ i (hi : i < map.rows.size), map.rows[i].Picks (tap i) ∧
      map.rows[i].anchor + tap i = place i) : map.Selects place := by
  intro i r hr
  obtain ⟨hi, rfl⟩ := Array.getElem?_eq_some_iff.mp hr
  exact ⟨tap i, h i hi⟩

theorem AxisMap.Selects.settled {S : Type} {xmap ymap : AxisMap Int} {column row : Nat → Nat}
    (hx : xmap.Selects column) (hy : ymap.Selects row) (value : Nat → Nat → S) {x y : Nat}
    {rx ry : AxisMap.Row Int} (hrx : xmap.rows[x]? = some rx) (hry : ymap.rows[y]? = some ry) :
    Settled value rx ry (value (column x) (row y)) := by
  obtain ⟨j, hj, hcolumn⟩ := hx x rx hrx
  obtain ⟨k, hk, hrow⟩ := hy y ry hry
  rw [← hcolumn, ← hrow]
  exact settled_of_picks value hj hk

namespace Resampler

variable {σ : Type} [ImageSource σ] {I : σ → Prop} {image : Picture} {source : σ} {n : Nat}
  {alpha : AlphaMode} {maps : AxisMaps Int} {stage : Resampler σ} {column row : Nat → Nat}

theorem SetUp.byte_of_selects (h : SetUp source ⟨n, .byte, alpha⟩ maps none stage)
    (hshows : Shows I image) (hsource : I source) (hx : maps.x.Selects column)
    (hy : maps.y.Selects row) {x y : Nat} (hxOut : x < maps.x.outPixels)
    (hyOut : y < maps.y.outPixels) :
    (stage.picture image).pixel UInt8 n x y =
      Byte.settle n alpha (image.pixel UInt8 n (column x) (row y)) := by
  obtain ⟨rx, hrx, -⟩ := h.suit.x.row_eq hxOut
  obtain ⟨ry, hry, -⟩ := h.suit.y.row_eq hyOut
  have hpixel : (stage.picture image).pixel UInt8 n x y =
      (Byte.select n alpha).outputPixel (image.pixel UInt8 n) rx ry :=
    h.pixel_picture hshows hsource hrx hry
  rw [hpixel]
  exact Byte.outputPixel_of_settled (hx.settled hy _ hrx hry)

theorem SetUp.uq15_of_selects (h : SetUp source ⟨n, .uq15, alpha⟩ maps none stage)
    (hshows : Shows I image) (hsource : I source) (hx : maps.x.Selects column)
    (hy : maps.y.Selects row) {x y : Nat} (hxOut : x < maps.x.outPixels)
    (hyOut : y < maps.y.outPixels) :
    (stage.picture image).pixel UInt16 n x y =
      Uq15.settle n alpha (image.pixel UInt16 n (column x) (row y)) := by
  obtain ⟨rx, hrx, -⟩ := h.suit.x.row_eq hxOut
  obtain ⟨ry, hry, -⟩ := h.suit.y.row_eq hyOut
  have hpixel : (stage.picture image).pixel UInt16 n x y =
      (Uq15.select n alpha).outputPixel (image.pixel UInt16 n) rx ry :=
    h.pixel_picture hshows hsource hrx hry
  rw [hpixel]
  exact Uq15.outputPixel_of_settled (hx.settled hy _ hrx hry)

-- Every pixel at its own place, and none changed by what is made of those that are selected
theorem SetUp.delivers_of_selects {kind : SampleKind} {maps : AxisMaps kind.Weights}
    (h : SetUp source ⟨n, kind, alpha⟩ maps none stage) (hkind : kind ≠ .float)
    (hshows : Shows I image) (hsource : I source) (hwidth : maps.x.outPixels = maps.x.inPixels)
    (hheight : maps.y.outPixels = maps.y.inPixels) (hcolumn : ∀ x < maps.x.outPixels, column x = x)
    (hrow : ∀ y < maps.y.outPixels, row y = y)
    {settle : Vector kind.Sample n → Vector kind.Sample n}
    (hpixel : ∀ x < maps.x.outPixels, ∀ y < maps.y.outPixels,
      (stage.picture image).pixel kind.Sample n x y =
        settle (image.pixel kind.Sample n (column x) (row y)))
    (hsettle : ∀ x < image.width, ∀ y < image.height,
      settle (image.pixel kind.Sample n x y) = image.pixel kind.Sample n x y) :
    ImageSource.Delivers stage image := by
  replace hwidth : maps.x.outPixels = image.width :=
    hwidth.trans (h.suit.width_eq.trans (hshows.width_eq _ hsource))
  replace hheight : maps.y.outPixels = image.height :=
    hheight.trans (h.suit.height_eq.trans (hshows.height_eq _ hsource))
  apply h.delivers_source hkind hshows hsource hwidth hheight
  intro x hx y hy
  have hxOut : x < maps.x.outPixels := hwidth ▸ hx
  have hyOut : y < maps.y.outPixels := hheight ▸ hy
  rw [hpixel x hxOut y hyOut, hcolumn x hxOut, hrow y hyOut, hsettle x hx y hy]

-- Pixels are copied from where the tables select them. Clear pixels lose their color, alpha is
-- capped at one, and 16-bit colors under less alpha than that are as near as their products tell.
-- If every pixel is copied to its own place and none loses anything, the image is the image below.
theorem copies_selected (hshows : Shows I image) (hsource : I source)
    (hx : maps.x.Selects column) (hy : maps.y.Selects row) (stage : Resampler σ) :
    (SetUp source ⟨n, .byte, alpha⟩ maps none stage →
      stage.Yields I image ∧
      (∀ x < maps.x.outPixels, ∀ y < maps.y.outPixels,
        (stage.picture image).pixel UInt8 n x y =
          Byte.settle n alpha (image.pixel UInt8 n (column x) (row y))) ∧
      (maps.x.outPixels = maps.x.inPixels → maps.y.outPixels = maps.y.inPixels →
        (∀ x < maps.x.outPixels, column x = x) → (∀ y < maps.y.outPixels, row y = y) →
        (alpha = .straight → ∀ x < image.width, ∀ y < image.height, ∀ a : Fin n,
          ¬a < alpha.colors n → (image.pixel UInt8 n x y).get a ≠ 0) →
        ImageSource.Delivers stage image)) ∧
    (SetUp source ⟨n, .uq15, alpha⟩ maps none stage →
      stage.Yields I image ∧
      (∀ x < maps.x.outPixels, ∀ y < maps.y.outPixels,
        let p := image.pixel UInt16 n (column x) (row y)
        (stage.picture image).pixel UInt16 n x y = Uq15.settle n alpha p ∧
        ((alpha = .straight → ∀ a : Fin n, ¬a < alpha.colors n → 32768 ≤ p.get a) →
          (stage.picture image).pixel UInt16 n x y = Uq15.capped alpha p)) ∧
      (maps.x.outPixels = maps.x.inPixels → maps.y.outPixels = maps.y.inPixels →
        (∀ x < maps.x.outPixels, column x = x) → (∀ y < maps.y.outPixels, row y = y) →
        (∀ x < image.width, ∀ y < image.height, ∀ a : Fin n, ¬a < alpha.colors n →
          (image.pixel UInt16 n x y).get a ≤ 32768 ∧
          (alpha = .straight → (image.pixel UInt16 n x y).get a = 32768)) →
        ImageSource.Delivers stage image)) := by
  constructor
  · intro h
    have hpixel : ∀ x < maps.x.outPixels, ∀ y < maps.y.outPixels,
        (stage.picture image).pixel UInt8 n x y =
          Byte.settle n alpha (image.pixel UInt8 n (column x) (row y)) :=
      fun x hxOut y hyOut => h.byte_of_selects hshows hsource hx hy hxOut hyOut
    refine ⟨h.yields hshows hsource, hpixel, fun hwidth hheight hcolumn hrow hshown => ?_⟩
    apply h.delivers_of_selects (by decide) hshows hsource hwidth hheight hcolumn hrow hpixel
    intro x hx y hy
    exact Byte.settle_of_ne fun hstraight => hshown hstraight x hx y hy
  · intro h
    have hpixel : ∀ x < maps.x.outPixels, ∀ y < maps.y.outPixels,
        (stage.picture image).pixel UInt16 n x y =
          Uq15.settle n alpha (image.pixel UInt16 n (column x) (row y)) :=
      fun x hxOut y hyOut => h.uq15_of_selects hshows hsource hx hy hxOut hyOut
    refine ⟨h.yields hshows hsource, ?_, fun hwidth hheight hcolumn hrow hfull => ?_⟩
    · intro x hxOut y hyOut
      refine ⟨hpixel x hxOut y hyOut, fun halpha => ?_⟩
      rw [hpixel x hxOut y hyOut, Uq15.settle_of_le halpha]
    · apply h.delivers_of_selects (by decide) hshows hsource hwidth hheight hcolumn hrow hpixel
      intro x hx y hy
      have hone : alpha = .straight → ∀ a : Fin n, ¬a.val < alpha.colors n →
          32768 ≤ (image.pixel UInt16 n x y).get a :=
        fun hstraight a ha => (hfull x hx y hy a ha).2 hstraight ▸ UInt16.le_refl _
      rw [Uq15.settle_of_le hone, Uq15.capped_of_le fun a ha => (hfull x hx y hy a ha).1]

end Resampler

-- Two pixels each way, turned round and kept. The first four lie in rows of a larger array.
namespace Turned

def around : AxisMap Int := ⟨2, 2, 2, #[⟨0, [0, 32768]⟩, ⟨0, [32768, 0]⟩]⟩

def keep : AxisMap Int := ⟨2, 2, 2, #[⟨0, [32768, 0]⟩, ⟨0, [0, 32768]⟩]⟩

def bytes : PixelView :=
  ⟨.bgra32, 2, 2, 3, #[9, 8, 7, 0, 50, 60, 70, 80, 5, 5, 5, 5, 90, 80, 70, 60, 1, 2, 3, 4]⟩

def words : MemoryImage :=
  ⟨.bgra64, 2, 2, 16, #[1, 2, 3, 4, 255, 255, 0, 128, 5, 6, 7, 8, 9, 10, 0, 128,
    0, 0, 1, 0, 2, 0, 0, 128, 255, 255, 255, 255, 255, 255, 0, 128]⟩

theorem shows_bytes : Shows (· = bytes) bytes.picture :=
  PixelView.shows (show ∀ y < 2, (bytes.row y).size = 2 * 4 by decide)

theorem shows_words : Shows (· = words) words.picture :=
  MemoryImage.shows (show MemoryImage.make .bgra64 2 2 16 words.data = .ok words from rfl)

theorem selects_around : around.Selects (1 - ·) :=
  AxisMap.selects_of_picks (show ∀ i (hi : i < around.rows.size), around.rows[i].Picks (1 - i) ∧
    around.rows[i].anchor + (1 - i) = 1 - i by decide)

theorem selects_keep : keep.Selects id :=
  AxisMap.selects_of_picks (show ∀ i (hi : i < keep.rows.size), keep.rows[i].Picks i ∧
    keep.rows[i].anchor + i = i by decide)

end Turned

theorem Resampler.copies_selected_turned :
    (∃ stage, SetUp Turned.bytes .bgra32 ⟨Turned.around, Turned.around⟩ none stage ∧
      (stage.picture Turned.bytes.picture).pixel UInt8 4 0 0 = #v[1, 2, 3, 4] ∧
      (stage.picture Turned.bytes.picture).pixel UInt8 4 1 1 = #v[0, 0, 0, 0]) ∧
    ∃ stage, SetUp Turned.words .bgra64 ⟨Turned.keep, Turned.keep⟩ none stage ∧
      ImageSource.Delivers stage Turned.words.picture := by
  constructor
  · have hmade : ∃ stage, SetUp Turned.bytes .bgra32 ⟨Turned.around, Turned.around⟩ none stage :=
      exists_setUp rfl (by decide) ⟨by decide, by decide, rfl, rfl⟩ (by simp) Depot.shared .fresh
        (by decide +kernel)
    obtain ⟨stage, h⟩ := hmade
    obtain ⟨-, hpixel, -⟩ := (copies_selected Turned.shows_bytes rfl Turned.selects_around
      Turned.selects_around stage).1 h
    refine ⟨stage, h, (hpixel 0 (by decide) 0 (by decide)).trans ?_,
      (hpixel 1 (by decide) 1 (by decide)).trans ?_⟩
    · decide +kernel
    · decide +kernel
  · have hmade : ∃ stage, SetUp Turned.words .bgra64 ⟨Turned.keep, Turned.keep⟩ none stage :=
      exists_setUp rfl (by decide) ⟨by decide, by decide, rfl, rfl⟩ (by simp) Depot.shared .fresh
        (by decide +kernel)
    obtain ⟨stage, h⟩ := hmade
    obtain ⟨-, -, hkept⟩ := (copies_selected Turned.shows_words rfl Turned.selects_keep
      Turned.selects_keep stage).2 h
    exact ⟨stage, h, hkept rfl rfl (fun _ _ => rfl) (fun _ _ => rfl) (by decide +kernel)⟩

end Resampling
