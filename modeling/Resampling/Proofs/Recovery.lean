import Resampling.Proofs.Agreement
import Resampling.Proofs.Kernel.Rounding
import Resampling.Proofs.Kernel.Straight

-- Colors that come back. Where one color shows throughout a window, the sums of color and of alpha
-- are the same sum up to a factor, rounded in different places, and their quotient is that color
-- as nearly as the alpha that comes out is large.

namespace Resampling

open FixedPoint Kernel

namespace Kernel

open AxisMap

theorem abs_tdiv_sub_le {color alpha : Int} (halpha : 0 < alpha)
    (hsign : 0 ≤ color + alpha.tdiv 2) :
    |(((color + alpha.tdiv 2).tdiv alpha : Int) : ℚ) - color / alpha| ≤ 1 / 2 := by
  have hpos : (0 : ℚ) < alpha := by exact_mod_cast halpha
  have hhalf : alpha.tdiv 2 = alpha / 2 := Int.tdiv_eq_ediv_of_nonneg halpha.le
  have hsplit := Int.mul_ediv_add_emod (color + alpha.tdiv 2) alpha
  have hlow := Int.emod_nonneg (color + alpha.tdiv 2) halpha.ne'
  have hhigh := Int.emod_lt_of_pos (color + alpha.tdiv 2) halpha
  rw [Int.tdiv_eq_ediv_of_nonneg hsign]
  generalize (color + alpha.tdiv 2) / alpha = quotient at hsplit ⊢
  have hle : |2 * (alpha * quotient - color)| ≤ alpha := by
    rw [abs_le]
    omega
  have hle : |2 * (alpha * quotient - color : ℚ)| ≤ alpha := by exact_mod_cast hle
  have hscale : (quotient : ℚ) - color / alpha = 2 * (alpha * quotient - color) / (2 * alpha) := by
    field_simp
  have htwice : (0 : ℚ) < 2 * alpha := by linarith
  rw [hscale, abs_div, abs_of_pos htwice, div_le_iff₀ htwice]
  linarith

-- What leaves the range is brought back to where the color is
theorem abs_divide_sub_le {color alpha v high : Int} (halpha : 0 < alpha) (hv : 0 ≤ v)
    (hhigh : v ≤ high) : |(clamp 0 high ((color + alpha.tdiv 2).tdiv alpha) : ℚ) - v| ≤
      1 / 2 + |(color : ℚ) - v * alpha| / alpha := by
  have hpos : (0 : ℚ) < alpha := by exact_mod_cast halpha
  have hvQ : (0 : ℚ) ≤ v := by exact_mod_cast hv
  have hhighQ : (v : ℚ) ≤ high := by exact_mod_cast hhigh
  have hscale : (color : ℚ) / alpha - v = (color - v * alpha) / alpha := by field_simp
  by_cases hsign : 0 ≤ color + alpha.tdiv 2
  · have hclamp := abs_clamp_sub_le 0 high ((color + alpha.tdiv 2).tdiv alpha) v
    rw [min_eq_left hhighQ, Int.cast_zero, max_eq_right hvQ] at hclamp
    calc _ ≤ |(((color + alpha.tdiv 2).tdiv alpha : Int) : ℚ) - v| := hclamp
      _ ≤ |(((color + alpha.tdiv 2).tdiv alpha : Int) : ℚ) - color / alpha| +
          |(color : ℚ) / alpha - v| := abs_sub_le ..
      _ ≤ 1 / 2 + |(color : ℚ) - v * alpha| / alpha := by
        rw [hscale, abs_div, abs_of_pos hpos]
        exact add_le_add (abs_tdiv_sub_le halpha hsign) le_rfl
  · have hquotient : (color + alpha.tdiv 2).tdiv alpha ≤ 0 := by
      have hneg := Int.tdiv_nonneg (show 0 ≤ -(color + alpha.tdiv 2) by omega) halpha.le
      rw [Int.neg_tdiv] at hneg
      omega
    have hclamp : clamp 0 high ((color + alpha.tdiv 2).tdiv alpha) = 0 := by
      unfold clamp
      omega
    have hcolor : (color : ℚ) ≤ 0 := by
      have hhalf := Int.tdiv_nonneg halpha.le (show 0 ≤ (2 : Int) by decide)
      exact_mod_cast show color ≤ 0 by omega
    have hle : (v : ℚ) ≤ |(color : ℚ) - v * alpha| / alpha := by
      rw [le_div_iff₀ hpos, abs_sub_comm]
      exact le_trans (by linarith) (le_abs_self _)
    rw [hclamp, Int.cast_zero, zero_sub, abs_neg, abs_of_nonneg hvQ]
    linarith

-- One sum in two roundings, one of them with a factor
theorem abs_weigh_color_sub_le {p q : Nat} (hp : 0 < p) (hq : 0 < q) {scale : Int}
    (hscale : 2 ^ p = scale * 2 ^ q) (r : Row Int) (sum : Nat → Int) {v : Int} (hv : 0 ≤ v) :
    |((weigh (r.taps fun k => roundShift p (v * sum k)) * scale : Int) : ℚ) -
        v * weigh (r.taps fun k => roundShift q (sum k))| ≤ (scale + v) * mass r.weights / 2 := by
  have hcolor := abs_weigh_roundShift_sub_le hp r fun k => v * sum k
  have halpha := abs_weigh_roundShift_sub_le hq r sum
  rw [weigh_taps_mul] at hcolor
  generalize weigh (r.taps fun k => roundShift p (v * sum k)) = color at hcolor ⊢
  generalize weigh (r.taps fun k => roundShift q (sum k)) = alpha at halpha ⊢
  generalize weigh (r.taps sum) = whole at hcolor halpha
  have hvQ : (0 : ℚ) ≤ v := by exact_mod_cast hv
  have hpow : (2 : ℚ) ^ p = scale * 2 ^ q := by exact_mod_cast hscale
  have hpos : (0 : ℚ) < scale := by
    have hprod : (0 : ℚ) < scale * 2 ^ q := hpow ▸ by positivity
    exact pos_of_mul_pos_left hprod (by positivity)
  have hsplit : ((color * scale : Int) : ℚ) - v * alpha =
      scale * (color - ((v * whole : Int) : ℚ) / 2 ^ p) - v * (alpha - whole / 2 ^ q) := by
    push_cast
    rw [hpow]
    field_simp
    ring
  rw [hsplit]
  calc _ ≤ |scale * (color - ((v * whole : Int) : ℚ) / 2 ^ p)| +
          |v * (alpha - (whole : ℚ) / 2 ^ q)| := abs_sub _ _
    _ ≤ scale * (mass r.weights / 2) + v * (mass r.weights / 2) := by
        rw [abs_mul, abs_mul, abs_of_pos hpos, abs_of_nonneg hvQ]
        exact add_le_add (mul_le_mul_of_nonneg_left hcolor hpos.le)
          (mul_le_mul_of_nonneg_left halpha hvQ)
    _ = (scale + v) * mass r.weights / 2 := by ring

-- A color from both sums, where that of alpha is at least `2 * a - 1` halves of its unit
theorem abs_recovered_sub_le {p q e : Nat} (hp : 0 < p) (hq : 0 < q) {scale : Int}
    (hscale : 2 ^ p = scale * 2 ^ q) (r : Row Int) (sum : Nat → Int) {v high a : Int}
    (hv : 0 ≤ v) (hhigh : v ≤ high) (ha : 1 ≤ a)
    (halpha : (2 * a - 1) * 2 ^ e ≤ weigh (r.taps fun k => roundShift q (sum k))) :
    |(clamp 0 high ((weigh (r.taps fun k => roundShift p (v * sum k)) * scale +
        (weigh (r.taps fun k => roundShift q (sum k))).tdiv 2).tdiv
          (weigh (r.taps fun k => roundShift q (sum k)))) : ℚ) - v| ≤
      1 / 2 + (scale + v) * mass r.weights / (2 ^ (e + 1) * (2 * a - 1)) := by
  have hsums := abs_weigh_color_sub_le hp hq hscale r sum hv
  generalize weigh (r.taps fun k => roundShift p (v * sum k)) * scale = color at hsums ⊢
  generalize weigh (r.taps fun k => roundShift q (sum k)) = alpha at halpha hsums ⊢
  have hleast : (0 : Int) < (2 * a - 1) * 2 ^ e := mul_pos (by omega) (by positivity)
  have hleastQ : (0 : ℚ) < (2 * a - 1) * 2 ^ e := by exact_mod_cast hleast
  have halphaQ : ((2 * a - 1) * 2 ^ e : ℚ) ≤ alpha := by exact_mod_cast halpha
  refine (abs_divide_sub_le (hleast.trans_le halpha) hv hhigh).trans (add_le_add le_rfl ?_)
  calc |(color : ℚ) - v * alpha| / alpha
      ≤ |(color : ℚ) - v * alpha| / ((2 * a - 1) * 2 ^ e) :=
        div_le_div_of_nonneg_left (abs_nonneg _) hleastQ halphaQ
    _ ≤ ((scale + v) * mass r.weights / 2) / ((2 * a - 1) * 2 ^ e) :=
        div_le_div_of_nonneg_right hsums hleastQ.le
    _ = (scale + v) * mass r.weights / (2 ^ (e + 1) * (2 * a - 1)) := by
        rw [div_div, pow_succ]
        congr 1
        ring

-- The pixels under both rows of taps that have alpha show one value in a channel
def Uniform {A W : Type} [OfNat A 0] (pixel : Nat → Nat → Vector A 4) (rx ry : Row W) (c : Fin 4)
    (v : A) : Prop :=
  ∀ j < rx.weights.length, ∀ k < ry.weights.length,
    alphaOf (pixel (rx.anchor + j) (ry.anchor + k)) ≠ 0 →
      (pixel (rx.anchor + j) (ry.anchor + k)).get c = v

variable {rx ry : Row Int} {c : Fin 4}

-- Products of color and alpha have the color as a factor, alpha or none
theorem Uniform.weigh_eq {A : Type} [OfNat A 0] {pixel : Nat → Nat → Vector A 4} {v : A}
    (h : Uniform pixel rx ry c v) (toInt : A → Int) (hzero : toInt 0 = 0) {k : Nat}
    (hk : k < ry.weights.length) :
    weigh (rx.taps fun j => toInt ((pixel (rx.anchor + j) (ry.anchor + k)).get c) *
        toInt (alphaOf (pixel (rx.anchor + j) (ry.anchor + k)))) =
      toInt v * rowSum (fun x y => toInt (alphaOf (pixel x y))) rx ry k := by
  rw [rowSum, ← weigh_taps_mul]
  congr 1
  apply AxisMap.Row.taps_congr
  intro j hj
  by_cases halpha : alphaOf (pixel (rx.anchor + j) (ry.anchor + k)) = 0
  · rw [halpha, hzero, mul_zero, mul_zero]
  · rw [h j hj k hk halpha]

-- Both sums of a column, from what stands in it
theorem sums_of_column {p q : Nat} {r : Row Int} {column : Nat → Vector Int 4} {sum : Nat → Int}
    {v : Int} (hcolor : ∀ k < r.weights.length, (column k).get c = roundShift p (v * sum k))
    (halpha : ∀ k < r.weights.length, alphaOf (column k) = roundShift q (sum k)) :
    weigh (plane c (r.taps column)) = weigh (r.taps fun k => roundShift p (v * sum k)) ∧
      weigh (alphaPlane (r.taps column)) = weigh (r.taps fun k => roundShift q (sum k)) := by
  rw [plane_taps, alphaPlane_taps, AxisMap.Row.taps_congr hcolor, AxisMap.Row.taps_congr halpha]
  exact ⟨rfl, rfl⟩

-- Alpha that comes out as `a` was at least half a step below
theorem Byte.le_of_byteOf22 {x : Int} (h : 1 ≤ (byteOf22 x).toNat) :
    (2 * ((byteOf22 x).toNat : Int) - 1) * 2 ^ 21 ≤ x := by
  have hround := toNat_toByte (roundShift 22 x)
  unfold byteOf22 at h ⊢
  unfold clamp at hround
  rw [roundShift_eq] at *
  omega

theorem Byte.sums_of_uniform {pixel : Nat → Nat → Vector UInt8 4} {v : UInt8}
    (hx : mass rx.weights ≤ maxMass) (hc : c.val < 3) (huniform : Uniform pixel rx ry c v) :
    let column := ry.taps fun k =>
      straight.gather (rx.taps fun j => pixel (rx.anchor + j) (ry.anchor + k))
    let sum := rowSum (fun x y => (alphaOf (pixel x y)).toNat) rx ry
    weigh (plane c column) = weigh (ry.taps fun k => roundShift 15 (v.toNat * sum k)) ∧
      weigh (alphaPlane column) = weigh (ry.taps fun k => roundShift 8 (sum k)) := by
  apply sums_of_column
  · intro k hk
    rw [get_gather hc, gatherColor_of_tame c hx,
      huniform.weigh_eq (fun sample => (sample.toNat : Int)) rfl hk]
  · intro k _
    rw [alphaOf_gather, alphaPlane_taps, gatherChannel_taps, rowSum]

theorem Byte.recovers {pixel : Nat → Nat → Vector UInt8 4} {v : UInt8}
    (hx : mass rx.weights ≤ maxMass) (hc : c.val < 3) (huniform : Uniform pixel rx ry c v)
    (halpha : 1 ≤ (alphaOf (straight.outputPixel pixel rx ry)).toNat) :
    |(((straight.outputPixel pixel rx ry).get c).toNat : ℚ) - v.toNat| ≤
      1 / 2 + (128 + v.toNat) * mass ry.weights /
        (2 ^ 22 * (2 * (alphaOf (straight.outputPixel pixel rx ry)).toNat - 1)) := by
  obtain ⟨hcolors, halphas⟩ := sums_of_uniform hx hc huniform
  generalize rowSum (fun x y => ((alphaOf (pixel x y)).toNat : Int)) rx ry = sum at *
  rw [RowKernel.outputPixel, throughBoth, blend_straight, alphaOf_unlessClear, halphas] at halpha ⊢
  have hshown : byteOf22 (weigh (ry.taps fun k => roundShift 8 (sum k))) ≠ 0 := by
    intro hclear
    rw [hclear] at halpha
    cases halpha
  rw [get_unlessClear hc hshown, hcolors, divideColor]
  have hv := v.toNat_lt
  have hle := abs_recovered_sub_le (show 0 < 15 by decide) (show 0 < 8 by decide)
    (show (2 : Int) ^ 15 = 128 * 2 ^ 8 by decide) ry sum (Int.natCast_nonneg v.toNat)
    (show (v.toNat : Int) ≤ 255 by omega) (Int.ofNat_le.mpr halpha) (le_of_byteOf22 halpha)
  rw [← toNat_toByte] at hle
  exact_mod_cast hle

theorem Uq15.le_of_toUnitSample {x : Int} (h : 1 ≤ (toUnitSample (roundShift 15 x)).toNat) :
    (2 * ((toUnitSample (roundShift 15 x)).toNat : Int) - 1) * 2 ^ 14 ≤ x := by
  have hround := toNat_toUnitSample (roundShift 15 x)
  unfold clamp at hround
  rw [roundShift_eq] at *
  omega

theorem Uq15.sums_of_uniform {pixel : Nat → Nat → Vector UInt16 4} {v : UInt16}
    (hx : mass rx.weights ≤ maxMass) (hc : c.val < 3) (huniform : Uniform pixel rx ry c v) :
    let column := ry.taps fun k =>
      straight.gather (rx.taps fun j => pixel (rx.anchor + j) (ry.anchor + k))
    let sum := rowSum (fun x y => (alphaOf (pixel x y)).toNat) rx ry
    weigh (plane c column) = weigh (ry.taps fun k => roundShift 30 (v.toNat * sum k)) ∧
      weigh (alphaPlane column) = weigh (ry.taps fun k => roundShift 15 (sum k)) := by
  apply sums_of_column
  · intro k hk
    rw [get_gather hc, gatherColor_of_tame c hx,
      huniform.weigh_eq (fun sample => (sample.toNat : Int)) rfl hk]
  · intro k _
    rw [alphaOf_gather, alphaPlane_taps, gatherChannel_taps hx, rowSum]

theorem Uq15.recovers {pixel : Nat → Nat → Vector UInt16 4} {v : UInt16}
    (hx : mass rx.weights ≤ maxMass) (hy : mass ry.weights ≤ maxMass) (hc : c.val < 3)
    (huniform : Uniform pixel rx ry c v)
    (halpha : 1 ≤ (alphaOf (straight.outputPixel pixel rx ry)).toNat) :
    |(((straight.outputPixel pixel rx ry).get c).toNat : ℚ) - v.toNat| ≤
      1 / 2 + (32768 + v.toNat) * mass ry.weights /
        (2 ^ 15 * (2 * (alphaOf (straight.outputPixel pixel rx ry)).toNat - 1)) := by
  obtain ⟨hcolors, halphas⟩ := sums_of_uniform hx hc huniform
  have hwide := wide15_column hx hy fun x y => alphaOf (pixel x y)
  rw [rounded] at hwide
  generalize rowSum (fun x y => ((alphaOf (pixel x y)).toNat : Int)) rx ry = sum at *
  rw [RowKernel.outputPixel, throughBoth, blend_straight, alphaOf_unlessClear, halphas, hwide]
    at halpha ⊢
  have hshown :
      toUnitSample (roundShift 15 (weigh (ry.taps fun k => roundShift 15 (sum k)))) ≠ 0 := by
    intro hclear
    rw [hclear] at halpha
    cases halpha
  rw [get_unlessClear hc hshown, hcolors, divideColor]
  have hv := v.toNat_lt
  have hle := abs_recovered_sub_le (show 0 < 30 by decide) (show 0 < 15 by decide)
    (show (2 : Int) ^ 30 = one * 2 ^ 15 by decide) ry sum (Int.natCast_nonneg v.toNat)
    (show (v.toNat : Int) ≤ sampleMax by unfold sampleMax; omega) (Int.ofNat_le.mpr halpha)
    (le_of_toUnitSample halpha)
  rw [← toNat_toSample] at hle
  exact_mod_cast hle

-- Under weights that are not negative four steps of alpha are enough
theorem Byte.eq_of_uniform {pixel : Nat → Nat → Vector UInt8 4} {v : UInt8}
    (hx : mass rx.weights ≤ maxMass) (hc : c.val < 3) (huniform : Uniform pixel rx ry c v)
    (hnonneg : ∀ w ∈ ry.weights, 0 ≤ w) (hone : ry.weights.sum = one)
    (halpha : 4 ≤ (alphaOf (straight.outputPixel pixel rx ry)).toNat) :
    (straight.outputPixel pixel rx ry).get c = v := by
  have hmass := mass_of_nonneg hnonneg
  rw [hone] at hmass
  have hmass : mass ry.weights = 32768 := Int.ofNat_inj.mp hmass
  have hle := recovers hx hc huniform (le_trans (by decide) halpha)
  have halphaQ : (4 : ℚ) ≤ (alphaOf (straight.outputPixel pixel rx ry)).toNat := by
    exact_mod_cast halpha
  have hv : (v.toNat : ℚ) ≤ 255 := by
    have hlt := v.toNat_lt
    exact_mod_cast show v.toNat ≤ 255 by omega
  rw [hmass] at hle
  generalize alphaOf (straight.outputPixel pixel rx ry) = alpha at hle halphaQ
  have hpos : (0 : ℚ) < 2 ^ 22 * (2 * alpha.toNat - 1) := by linarith
  have hsmall :
      (128 + v.toNat) * ((32768 : Nat) : ℚ) / (2 ^ 22 * (2 * alpha.toNat - 1)) < 1 / 2 := by
    rw [div_lt_iff₀ hpos]
    push_cast
    linarith
  have hlt : |(((straight.outputPixel pixel rx ry).get c).toNat : ℚ) - v.toNat| < 1 := by linarith
  have hlt : |(((straight.outputPixel pixel rx ry).get c).toNat : Int) - v.toNat| < 1 := by
    exact_mod_cast hlt
  apply UInt8.toNat_inj.mp
  have heq := Int.abs_lt_one_iff.mp hlt
  omega

end Kernel

namespace Resampler

variable {σ : Type} [ImageSource σ] {I : σ → Prop} {image : Picture} {source : σ}

-- A window that shows one color gives that color, as nearly as the resized pixel has alpha. Clear
-- pixels of the window may have any.
theorem recovers_color (hshows : Shows I image) (hsource : I source) {maps : AxisMaps Int}
    (hx : maps.x.Tame) (hy : maps.y.Tame) (stage : Resampler σ) :
    (SetUp source ⟨4, .byte, .straight⟩ maps none stage →
      stage.Yields I image ∧
      ∀ x y rx ry, maps.x.rows[x]? = some rx → maps.y.rows[y]? = some ry →
        ∀ c v, c.val < 3 → Uniform (image.pixel UInt8 4) rx ry c v →
          let out := (stage.picture image).pixel UInt8 4 x y
          let a := (alphaOf out).toNat
          (1 ≤ a → |((out.get c).toNat : ℚ) - v.toNat| ≤
            1 / 2 + (128 + v.toNat) * mass ry.weights / (2 ^ 22 * (2 * a - 1))) ∧
          ((∀ w ∈ ry.weights, 0 ≤ w) → ry.weights.sum = one → 4 ≤ a → out.get c = v)) ∧
    (SetUp source ⟨4, .uq15, .straight⟩ maps none stage →
      stage.Yields I image ∧
      ∀ x y rx ry, maps.x.rows[x]? = some rx → maps.y.rows[y]? = some ry →
        ∀ c v, c.val < 3 → Uniform (image.pixel UInt16 4) rx ry c v →
          let out := (stage.picture image).pixel UInt16 4 x y
          let a := (alphaOf out).toNat
          1 ≤ a → |((out.get c).toNat : ℚ) - v.toNat| ≤
            1 / 2 + (32768 + v.toNat) * mass ry.weights / (2 ^ 15 * (2 * a - 1))) := by
  constructor
  · intro hsetUp
    refine ⟨hsetUp.yields hshows hsource, fun x y rx ry hrx hry c v hc huniform => ?_⟩
    have hmass := hx rx (Array.mem_of_getElem? hrx)
    have hpixel : (stage.picture image).pixel UInt8 4 x y =
        Byte.straight.outputPixel (image.pixel UInt8 4) rx ry :=
      hsetUp.pixel_picture hshows hsource hrx hry
    rw [hpixel]
    exact ⟨Byte.recovers hmass hc huniform, Byte.eq_of_uniform hmass hc huniform⟩
  · intro hsetUp
    refine ⟨hsetUp.yields hshows hsource, fun x y rx ry hrx hry c v hc huniform => ?_⟩
    have hmass := hx rx (Array.mem_of_getElem? hrx)
    have hpixel : (stage.picture image).pixel UInt16 4 x y =
        Uq15.straight.outputPixel (image.pixel UInt16 4) rx ry :=
      hsetUp.pixel_picture hshows hsource hrx hry
    rw [hpixel]
    exact Uq15.recovers hmass (hy ry (Array.mem_of_getElem? hry)) hc huniform

end Resampler

-- Two pixels each way, two of them clear and of other colors, averaged to one
namespace Fading

def row : AxisMap.Row Int := ⟨0, [16384, 16384]⟩

def map : AxisMap Int := ⟨2, 1, 2, #[row]⟩

def bytes : MemoryImage :=
  ⟨.bgra32, 2, 2, 8, #[200, 1, 2, 40, 7, 7, 7, 0, 9, 9, 9, 0, 200, 3, 4, 20]⟩

def words : MemoryImage :=
  ⟨.bgra64, 2, 2, 16, #[0, 64, 1, 0, 2, 0, 0, 128, 7, 0, 7, 0, 7, 0, 0, 0,
    9, 0, 9, 0, 9, 0, 0, 0, 0, 64, 3, 0, 4, 0, 0, 64]⟩

theorem tame_map : map.Tame := by decide

theorem shows_bytes : Shows (· = bytes) bytes.picture :=
  MemoryImage.shows (show MemoryImage.make .bgra32 2 2 8 bytes.data = .ok bytes from rfl)

theorem shows_words : Shows (· = words) words.picture :=
  MemoryImage.shows (show MemoryImage.make .bgra64 2 2 16 words.data = .ok words from rfl)

end Fading

theorem Resampler.recovers_color_fading :
    (∃ stage, SetUp Fading.bytes .bgra32 ⟨Fading.map, Fading.map⟩ none stage ∧
      let out := (stage.picture Fading.bytes.picture).pixel UInt8 4 0 0
      alphaOf out = 15 ∧ out.get 0 = 200) ∧
    ∃ stage, SetUp Fading.words .bgra64 ⟨Fading.map, Fading.map⟩ none stage ∧
      let out := (stage.picture Fading.words.picture).pixel UInt16 4 0 0
      alphaOf out = 12288 ∧ |((out.get 0).toNat : ℚ) - 16384| ≤
        1 / 2 + (32768 + 16384) * 32768 / (2 ^ 15 * (2 * 12288 - 1)) := by
  constructor
  · have hmade : ∃ stage, SetUp Fading.bytes .bgra32 ⟨Fading.map, Fading.map⟩ none stage :=
      exists_setUp rfl (by decide) ⟨by decide, by decide, rfl, rfl⟩ (by simp) Depot.shared .fresh
        (by decide +kernel)
    obtain ⟨stage, hsetUp⟩ := hmade
    have huniform : Uniform (Fading.bytes.picture.pixel UInt8 4) Fading.row Fading.row 0 200 := by
      unfold Uniform
      decide +kernel
    have halpha : alphaOf ((stage.picture Fading.bytes.picture).pixel UInt8 4 0 0) = 15 := by
      have hpixel : (stage.picture Fading.bytes.picture).pixel UInt8 4 0 0 =
          Byte.straight.outputPixel (Fading.bytes.picture.pixel UInt8 4) Fading.row Fading.row :=
        hsetUp.pixel_picture Fading.shows_bytes rfl rfl rfl
      rw [hpixel]
      decide +kernel
    have hout := ((recovers_color Fading.shows_bytes rfl Fading.tame_map Fading.tame_map stage).1
      hsetUp).2 0 0 _ _ rfl rfl 0 200 (by decide) huniform
    exact ⟨stage, hsetUp, halpha, hout.2 (by decide) (by decide) (by rw [halpha]; decide)⟩
  · have hmade : ∃ stage, SetUp Fading.words .bgra64 ⟨Fading.map, Fading.map⟩ none stage :=
      exists_setUp rfl (by decide) ⟨by decide, by decide, rfl, rfl⟩ (by simp) Depot.shared .fresh
        (by decide +kernel)
    obtain ⟨stage, hsetUp⟩ := hmade
    have huniform : Uniform (Fading.words.picture.pixel UInt16 4) Fading.row Fading.row 0
        16384 := by
      unfold Uniform
      decide +kernel
    have halpha : alphaOf ((stage.picture Fading.words.picture).pixel UInt16 4 0 0) = 12288 := by
      have hpixel : (stage.picture Fading.words.picture).pixel UInt16 4 0 0 =
          Uq15.straight.outputPixel (Fading.words.picture.pixel UInt16 4) Fading.row Fading.row :=
        hsetUp.pixel_picture Fading.shows_words rfl rfl rfl
      rw [hpixel]
      decide +kernel
    have hout := ((recovers_color Fading.shows_words rfl Fading.tame_map Fading.tame_map stage).2
      hsetUp).2 0 0 _ _ rfl rfl 0 16384 (by decide) huniform
    have hle := hout (by rw [halpha]; decide)
    simp only [halpha] at hle
    exact ⟨stage, hsetUp, halpha, hle⟩

end Resampling
