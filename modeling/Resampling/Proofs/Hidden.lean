import Resampling.Proofs.Agreement
import Resampling.Proofs.Kernel.Channels

-- Hidden color. In integer formats with straight alpha the color of clear pixels has no part in
-- what comes out, except where it is put back as it was.

namespace Resampling

open Kernel

def SampleKind.zero : (kind : SampleKind) → kind.Sample
  | byte => (0 : UInt8)
  | uq15 => (0 : UInt16)
  | float => (0.0 : Float32)

namespace Kernel

variable {A : Type} {clear : A} {p q : Vector A 4}

-- The same alpha, and the same color unless the alpha is that of a clear pixel
structure ShownAlike (clear : A) (p q : Vector A 4) : Prop where
  alpha_eq : alphaOf p = alphaOf q
  eq_of_ne : alphaOf p ≠ clear → p = q

theorem ShownAlike.product_eq (h : ShownAlike clear p q) (toInt : A → Int)
    (hclear : toInt clear = 0) (c : Fin 4) :
    toInt (p.get c) * toInt (alphaOf p) = toInt (q.get c) * toInt (alphaOf q) := by
  by_cases halpha : alphaOf p = clear
  · rw [← h.alpha_eq, halpha, hclear, mul_zero, mul_zero]
  · rw [h.eq_of_ne halpha]

theorem alphaPlane_taps_eq {W : Type} {r : AxisMap.Row W} {f g : Nat → Vector A 4}
    (h : ∀ k < r.weights.length, ShownAlike clear (f k) (g k)) :
    alphaPlane (r.taps f) = alphaPlane (r.taps g) := by
  rw [alphaPlane_taps, alphaPlane_taps]
  exact AxisMap.Row.taps_congr fun k hk => (h k hk).alpha_eq

theorem Byte.gather_straight_eq {r : AxisMap.Row Int} {f g : Nat → Vector UInt8 4}
    (h : ∀ k < r.weights.length, ShownAlike 0 (f k) (g k)) :
    straight.gather (r.taps f) = straight.gather (r.taps g) := by
  have hcolor : ∀ c, gatherColor c (r.taps f) = gatherColor c (r.taps g) := by
    intro c
    rw [gatherColor_taps, gatherColor_taps, AxisMap.Row.taps_congr fun k hk =>
      (h k hk).product_eq (fun sample => (sample.toNat : Int)) rfl c]
  simp only [straight, alphaPlane_taps_eq h, hcolor]

theorem Uq15.gather_straight_eq {r : AxisMap.Row Int} {f g : Nat → Vector UInt16 4}
    (h : ∀ k < r.weights.length, ShownAlike 0 (f k) (g k)) :
    straight.gather (r.taps f) = straight.gather (r.taps g) := by
  have hcolor : ∀ c, gatherColor c (r.taps f) = gatherColor c (r.taps g) := by
    intro c
    rw [gatherColor_taps, gatherColor_taps, AxisMap.Row.taps_congr fun k hk =>
      (h k hk).product_eq (fun sample => (sample.toNat : Int)) rfl c]
  simp only [straight, alphaPlane_taps_eq h, hcolor]

end Kernel

namespace RowKernel

variable {kind : SampleKind} {rx ry : AxisMap.Row kind.Weights}
  {pixel pixel' : Nat → Nat → Vector kind.Sample 4}

theorem outputPixel_straight_eq (hkind : kind ≠ .float)
    (h : ∀ j < rx.weights.length, ∀ k < ry.weights.length,
      ShownAlike kind.zero (pixel (rx.anchor + j) (ry.anchor + k))
        (pixel' (rx.anchor + j) (ry.anchor + k))) :
    (ofFormat ⟨4, kind, .straight⟩).outputPixel pixel rx ry =
      (ofFormat ⟨4, kind, .straight⟩).outputPixel pixel' rx ry := by
  have hgather : ∀ k < ry.weights.length,
      (ofFormat ⟨4, kind, .straight⟩).gather
          (rx.taps fun j => pixel (rx.anchor + j) (ry.anchor + k)) =
        (ofFormat ⟨4, kind, .straight⟩).gather
          (rx.taps fun j => pixel' (rx.anchor + j) (ry.anchor + k)) := by
    intro k hk
    cases kind with
    | byte => exact Byte.gather_straight_eq fun j hj => h j hj k hk
    | uq15 => exact Uq15.gather_straight_eq fun j hj => h j hj k hk
    | float => exact absurd rfl hkind
  rw [outputPixel, outputPixel, throughBoth, throughBoth, AxisMap.Row.taps_congr hgather]

-- Where no alpha comes out no color does
theorem outputPixel_straight_of_clear (hkind : kind ≠ .float)
    (h : alphaOf ((ofFormat ⟨4, kind, .straight⟩).outputPixel pixel rx ry) = kind.zero) :
    (ofFormat ⟨4, kind, .straight⟩).outputPixel pixel rx ry = Vector.replicate 4 kind.zero := by
  cases kind with
  | byte =>
    have hblend := Byte.blend_straight (ry.taps fun k =>
      Byte.straight.gather (rx.taps fun j => pixel (rx.anchor + j) (ry.anchor + k)))
    exact hblend.trans (unlessClear_of_alphaOf_eq_zero ((congrArg alphaOf hblend).symm.trans h))
  | uq15 =>
    have hblend := Uq15.blend_straight (ry.taps fun k =>
      Uq15.straight.gather (rx.taps fun j => pixel (rx.anchor + j) (ry.anchor + k)))
    exact hblend.trans (unlessClear_of_alphaOf_eq_zero ((congrArg alphaOf hblend).symm.trans h))
  | float => exact absurd rfl hkind

end RowKernel

-- A pixel without alpha
def Picture.Clear (image : Picture) (kind : SampleKind) (x y : Nat) : Prop :=
  alphaOf (image.pixel kind.Sample 4 x y) = kind.zero

theorem Picture.SameUpTo.shownAlike {kind : SampleKind} {image other : Picture}
    (h : image.SameUpTo (image.Clear kind) kind.Sample other) {x y : Nat} (hx : x < image.width)
    (hy : y < image.height) :
    ShownAlike kind.zero (image.pixel kind.Sample 4 x y) (other.pixel kind.Sample 4 x y) :=
  ⟨h.alpha_eq x hx y hy, h.pixel_eq x hx y hy⟩

namespace Resampler

variable {σ τ : Type} [ImageSource σ] [ImageSource τ] {I : σ → Prop} {J : τ → Prop}
  {image other : Picture} {source : σ} {twin : τ} {kind : SampleKind}
  {maps : AxisMaps kind.Weights} {sharpening : Option Sharpening} {stage : Resampler σ}
  {stage' : Resampler τ}

theorem SetUp.outputPixel_eq (hkind : kind ≠ .float)
    (h : SetUp source ⟨4, kind, .straight⟩ maps sharpening stage) (hshows : Shows I image)
    (hsource : I source) (hsame : image.SameUpTo (image.Clear kind) kind.Sample other)
    {rx ry : AxisMap.Row kind.Weights} (hrx : rx ∈ maps.x.rows) (hry : ry ∈ maps.y.rows) :
    (RowKernel.ofFormat ⟨4, kind, .straight⟩).outputPixel (image.pixel kind.Sample 4) rx ry =
      (RowKernel.ofFormat ⟨4, kind, .straight⟩).outputPixel (other.pixel kind.Sample 4) rx ry :=
  RowKernel.outputPixel_straight_eq hkind fun _ hj _ hk =>
    hsame.shownAlike (h.column_lt hshows hsource hrx hj) (h.row_lt hshows hsource hry hk)

theorem SetUp.sameUpTo_resized (hkind : kind ≠ .float)
    (h : SetUp source ⟨4, kind, .straight⟩ maps none stage) (hshows : Shows I image)
    (hsource : I source) (h' : SetUp twin ⟨4, kind, .straight⟩ maps none stage')
    (hshows' : Shows J other) (htwin : J twin)
    (hsame : image.SameUpTo (image.Clear kind) kind.Sample other) :
    (stage.picture image).SameUpTo (fun _ _ => False) kind.Sample (stage'.picture other) := by
  obtain ⟨hformat, hwidth, hheight⟩ := h.extent_picture image
  obtain ⟨hformat', hwidth', hheight'⟩ := h'.extent_picture other
  have hpixel : ∀ x < (stage.picture image).width, ∀ y < (stage.picture image).height,
      (stage.picture image).pixel kind.Sample 4 x y =
        (stage'.picture other).pixel kind.Sample 4 x y := by
    intro x hx y hy
    rw [hwidth] at hx
    rw [hheight] at hy
    obtain ⟨rx, hrx, hrxMem, -⟩ := h.suit.x.row_eq hx
    obtain ⟨ry, hry, hryMem, -⟩ := h.suit.y.row_eq hy
    exact ((h.pixel_picture hshows hsource hrx hry).trans
      (h.outputPixel_eq hkind hshows hsource hsame hrxMem hryMem)).trans
      (h'.pixel_picture hshows' htwin hrx hry).symm
  exact {
    format_eq := hformat'.trans hformat.symm
    width_eq := hwidth'.trans hwidth.symm
    height_eq := hheight'.trans hheight.symm
    alpha_eq := fun x hx y hy => congrArg alphaOf (hpixel x hx y hy)
    pixel_eq := fun x hx y hy _ => hpixel x hx y hy }

theorem SetUp.sameUpTo_sharpened (hkind : kind ≠ .float) {settings : Sharpening}
    (h : SetUp source ⟨4, kind, .straight⟩ maps (some settings) stage) (hshows : Shows I image)
    (hsource : I source) (h' : SetUp twin ⟨4, kind, .straight⟩ maps (some settings) stage')
    (hshows' : Shows J other) (htwin : J twin)
    (hsame : image.SameUpTo (image.Clear kind) kind.Sample other) (hcentered : maps.y.Centered) :
    (stage.picture image).SameUpTo (image.Clear kind) kind.Sample (stage'.picture other) := by
  obtain ⟨hformat, hwidth, hheight⟩ := h.extent_picture image
  obtain ⟨hformat', hwidth', hheight'⟩ := h'.extent_picture other
  have hpixels : ∀ x < (stage.picture image).width, ∀ y < (stage.picture image).height,
      x < image.width ∧ y < image.height ∧ ∃ blurred,
      (stage.picture image).pixel kind.Sample 4 x y =
        (RowKernel.ofFormat ⟨4, kind, .straight⟩).sharpen settings
          (image.pixel kind.Sample 4 x y) blurred ∧
      (stage'.picture other).pixel kind.Sample 4 x y =
        (RowKernel.ofFormat ⟨4, kind, .straight⟩).sharpen settings
          (other.pixel kind.Sample 4 x y) blurred := by
    intro x hx y hy
    rw [hwidth] at hx
    rw [hheight] at hy
    obtain ⟨hxIn, hyIn⟩ := h.lt_of_sharpened hshows hsource hcentered hx hy
    obtain ⟨rx, hrx, hrxMem, -⟩ := h.suit.x.row_eq hx
    obtain ⟨ry, hry, hryMem, -⟩ := h.suit.y.row_eq hy
    refine ⟨hxIn, hyIn, _, h.pixel_sharpened hshows hsource hcentered hrx hry, ?_⟩
    rw [h.outputPixel_eq hkind hshows hsource hsame hrxMem hryMem]
    exact h'.pixel_sharpened hshows' htwin hcentered hrx hry
  refine ⟨hformat'.trans hformat.symm, hwidth'.trans hwidth.symm, hheight'.trans hheight.symm,
    fun x hx y hy => ?_, fun x hx y hy hshown => ?_⟩
  · obtain ⟨hxIn, hyIn, blurred, hpixel, hpixel'⟩ := hpixels x hx y hy
    have hlast : ∀ p : Vector kind.Sample 4, alphaOf
        ((RowKernel.ofFormat ⟨4, kind, .straight⟩).sharpen settings p blurred) = alphaOf p :=
      fun p => RowKernel.get_sharpen settings p blurred 3
    rw [hpixel, hpixel', hlast, hlast, hsame.alpha_eq x hxIn y hyIn]
  · obtain ⟨hxIn, hyIn, blurred, hpixel, hpixel'⟩ := hpixels x hx y hy
    rw [hpixel, hpixel', hsame.pixel_eq x hxIn y hyIn hshown]

-- Images that differ in the color of clear pixels only. Stages that resize them alike cannot be
-- told apart, and stages that sharpen them alike give that color back and nothing else of it.
theorem hides_color (hkind : kind ≠ .float) (hshows : Shows I image)
    (hreliable : Reliable I image.format image.width image.height) (hsource : I source)
    (hshows' : Shows J other) (hreliable' : Reliable J other.format other.width other.height)
    (htwin : J twin) (hsame : image.SameUpTo (image.Clear kind) kind.Sample other)
    (maps : AxisMaps kind.Weights) (stage : Resampler σ) (stage' : Resampler τ) :
    (SetUp source ⟨4, kind, .straight⟩ maps none stage →
      SetUp twin ⟨4, kind, .straight⟩ maps none stage' →
        (∀ calls calls' call,
          (ImageSource.answer (ImageSource.after stage calls) call).result =
            (ImageSource.answer (ImageSource.after stage' calls') call).result ∧
          (ImageSource.answer (ImageSource.after stage calls) call).state =
            (ImageSource.answer (ImageSource.after stage' calls') call).state) ∧
        stage.Yields I image ∧
        ∀ x < maps.x.outPixels, ∀ y < maps.y.outPixels, (stage.picture image).Clear kind x y →
          (stage.picture image).pixel kind.Sample 4 x y = Vector.replicate 4 kind.zero) ∧
    ∀ settings, maps.y.Centered →
      SetUp source ⟨4, kind, .straight⟩ maps (some settings) stage →
      SetUp twin ⟨4, kind, .straight⟩ maps (some settings) stage' →
        stage.Yields I image ∧ ∀ calls calls' call,
          (ImageSource.answer (ImageSource.after stage calls) call).result =
            (ImageSource.answer (ImageSource.after stage' calls') call).result ∧
          ∀ p : Nat, (ImageSource.answer (ImageSource.after stage calls) call).state[p]? =
              (ImageSource.answer (ImageSource.after stage' calls') call).state[p]? ∨
            call.HoldsColor (Element.size kind.Sample) (image.Clear kind) p := by
  constructor
  · intro h h'
    refine ⟨fun calls calls' call => ?_, h.yields hshows hsource, fun x hx y hy hclear => ?_⟩
    · have hpicture := h.sameUpTo_resized hkind hshows hsource h' hshows' htwin hsame
      obtain ⟨hresult, hbytes⟩ := h.answers_agree hshows hreliable hsource h' hshows' hreliable'
        htwin hpicture calls calls' call
      refine ⟨hresult, Vector.toArray_inj.mp (Array.ext_getElem? fun p => ?_)⟩
      rw [Vector.getElem?_toArray, Vector.getElem?_toArray]
      rcases hbytes p with heq | ⟨_, _, _, _, _, _, _, hfalse⟩
      · exact heq
      · exact hfalse.elim
    · obtain ⟨rx, hrx, -⟩ := h.suit.x.row_eq hx
      obtain ⟨ry, hry, -⟩ := h.suit.y.row_eq hy
      have hpixel : (stage.picture image).pixel kind.Sample 4 x y =
          (RowKernel.ofFormat ⟨4, kind, .straight⟩).outputPixel (image.pixel kind.Sample 4) rx ry :=
        h.pixel_picture hshows hsource hrx hry
      rw [Picture.Clear, hpixel] at hclear
      rw [hpixel]
      exact RowKernel.outputPixel_straight_of_clear hkind hclear
  · intro settings hcentered h h'
    have hpicture := h.sameUpTo_sharpened hkind hshows hsource h' hshows' htwin hsame hcentered
    exact ⟨h.yields hshows hsource,
      h.answers_agree hshows hreliable hsource h' hshows' hreliable' htwin hpicture⟩

end Resampler

-- Two pixels each way, the first of them clear and of any color
namespace Veiled

def image (color : UInt8) : MemoryImage :=
  ⟨.bgra32, 2, 2, 8, #[color, color, color, 0, 50, 60, 70, 80, 90, 80, 70, 60, 9, 8, 7, 255]⟩

def map : AxisMap Int := ⟨2, 2, 2, #[⟨0, [24576, 8192]⟩, ⟨0, [8192, 24576]⟩]⟩

def whole : Call := ⟨⟨0, 0, 2, 2⟩, 8, 16, Vector.replicate 16 0⟩

theorem make_eq_ok (color : UInt8) :
    MemoryImage.make .bgra32 2 2 8 (image color).data = .ok (image color) := rfl

theorem sameUpTo : (image 0).picture.SameUpTo ((image 0).picture.Clear .byte) UInt8
    (image 255).picture where
  format_eq := rfl
  width_eq := rfl
  height_eq := rfl
  alpha_eq := by decide +kernel
  pixel_eq := by
    unfold Picture.Clear
    decide +kernel

theorem sized_map : map.Sized := by decide

theorem exists_setUp (color : UInt8) (sharpening : Option Sharpening) :
    ∃ stage, Resampler.SetUp (image color) .bgra32 ⟨map, map⟩ sharpening stage := by
  apply Resampler.exists_setUp (show ImageSource.format (image color) = .bgra32 from rfl)
    (by decide) ⟨sized_map, sized_map, rfl, rfl⟩ (fun _ => rfl) Depot.shared .fresh
  generalize sharpening.isSome = sharpens
  revert sharpens
  decide +kernel

end Veiled

theorem Resampler.hides_color_veiled :
    (∃ stage stage', SetUp (Veiled.image 0) .bgra32 ⟨Veiled.map, Veiled.map⟩ none stage ∧
      SetUp (Veiled.image 255) .bgra32 ⟨Veiled.map, Veiled.map⟩ none stage' ∧
      (ImageSource.answer stage Veiled.whole).result = .ok () ∧
      (ImageSource.answer stage' Veiled.whole).result = .ok () ∧
      (ImageSource.answer stage Veiled.whole).state =
        (ImageSource.answer stage' Veiled.whole).state) ∧
    ∃ stage stage', SetUp (Veiled.image 0) .bgra32 ⟨Veiled.map, Veiled.map⟩ (some ⟨150, 3⟩) stage ∧
      SetUp (Veiled.image 255) .bgra32 ⟨Veiled.map, Veiled.map⟩ (some ⟨150, 3⟩) stage' ∧
      (ImageSource.answer stage Veiled.whole).result =
        (ImageSource.answer stage' Veiled.whole).result ∧
      ∀ p : Nat, (ImageSource.answer stage Veiled.whole).state[p]? =
          (ImageSource.answer stage' Veiled.whole).state[p]? ∨
        Veiled.whole.HoldsColor 1 ((Veiled.image 0).picture.Clear .byte) p := by
  have hhides := hides_color (show SampleKind.byte ≠ .float by decide)
    (MemoryImage.shows (Veiled.make_eq_ok 0)) (MemoryImage.reliable (Veiled.make_eq_ok 0)) rfl
    (MemoryImage.shows (Veiled.make_eq_ok 255)) (MemoryImage.reliable (Veiled.make_eq_ok 255)) rfl
    Veiled.sameUpTo ⟨Veiled.map, Veiled.map⟩
  constructor
  · obtain ⟨stage, h⟩ := Veiled.exists_setUp 0 none
    obtain ⟨stage', h'⟩ := Veiled.exists_setUp 255 none
    have hsame := ((hhides stage stage').1 h h').1 [] [] Veiled.whole
    have hok : (ImageSource.answer stage Veiled.whole).result = .ok () :=
      (h.answer_eq_admit (MemoryImage.shows (Veiled.make_eq_ok 0))
        (MemoryImage.reliable (Veiled.make_eq_ok 0)) rfl [] Veiled.whole).1
    exact ⟨stage, stage', h, h', hok, hsame.1.symm.trans hok, hsame.2⟩
  · obtain ⟨stage, h⟩ := Veiled.exists_setUp 0 (some ⟨150, 3⟩)
    obtain ⟨stage', h'⟩ := Veiled.exists_setUp 255 (some ⟨150, 3⟩)
    exact ⟨stage, stage', h, h', ((hhides stage stage').2 ⟨150, 3⟩ (by decide) h h').2 [] []
      Veiled.whole⟩

end Resampling
