import Resampling.Proofs.Kernel.Balanced
import Resampling.Proofs.Kernel.Channels

-- What both passes make of a window that settles. A sample comes back exactly, since what the two
-- roundings drop is zero; only straight alpha, which color is multiplied by and divided by, can
-- cost something.

namespace Resampling.Kernel

open FixedPoint AxisMap

-- A pass that takes settled rows to the value they settle on, made into something else, and another
-- that takes these on
theorem Settled.throughBoth_eq {A B T : Type} {gather : List (A × Int) → T}
    {blend : List (T × Int) → B} {inner : A → T} {out : A → B}
    (hgather : ∀ (r : Row Int) value v, r.Settles value v → gather (r.taps value) = inner v)
    (hblend : ∀ (r : Row Int) value v, r.Settles value v →
      blend (r.taps fun k => inner (value k)) = out v)
    {value : Nat → Nat → A} {rx ry : Row Int} {v : A} (h : Settled value rx ry v) :
    throughBoth gather blend value rx ry = out v := by
  obtain ⟨column, hrow, hcolumn⟩ := h
  rw [throughBoth, Row.taps_congr fun k hk => hgather rx _ _ (hrow k hk)]
  exact hblend ry column v hcolumn

theorem wide15_one_mul {x : Int} (hlow : -0x8000_0000 ≤ x) (hhigh : x < 0x8000_0000) :
    wide15 (one * x) = x := by
  have hround : roundShift 15 (one * x) = x := by
    rw [roundShift_eq]
    unfold one
    omega
  rw [wide15, hround, wrap32_of_mem hlow hhigh]

theorem toByte_toNat (v : UInt8) : toByte v.toNat = v := by
  have hround := toNat_toByte v.toNat
  rw [clamp_of_mem (by omega) (by have hlt := v.toNat_lt; omega)] at hround
  exact UInt8.toNat_inj.mp (by omega)

theorem toSample_toNat (v : UInt16) : toSample v.toNat = v := by
  have hround := toNat_toSample v.toNat
  rw [clamp_of_mem (by omega) (by have hlt := v.toNat_lt; unfold sampleMax; omega)] at hround
  exact UInt16.toNat_inj.mp (by omega)

-- A multiple of the divisor, half of which is added to round
theorem tdiv_of_multiple {v d : Int} (hd : 0 < d) (hv : 0 ≤ v) :
    (v * d + d.tdiv 2).tdiv d = v := by
  rw [Int.tdiv_eq_ediv_of_nonneg hd.le, Int.tdiv_eq_ediv_of_nonneg (by positivity), add_comm,
    Int.add_mul_ediv_right _ _ hd.ne', Int.ediv_eq_zero_of_lt (by omega) (by omega), zero_add]

section

variable {n : Nat} {A : Type} {color color' : Fin 4 → A} {alpha : A}

theorem eq_of_get_eq {p q : Vector A n} (h : ∀ c, p.get c = q.get c) : p = q :=
  Vector.ext fun i hi => h ⟨i, hi⟩

theorem alphaOf_withAlpha (color : Fin 4 → A) (alpha : A) :
    alphaOf (withAlpha color alpha) = alpha := get_withAlpha_last color alpha

theorem withAlpha_get (p : Vector A 4) : withAlpha p.get (alphaOf p) = p := by
  apply Vector.ext
  intro i hi
  rw [withAlpha, Vector.getElem_ofFn]
  by_cases hcolor : i < 3
  · exact if_pos hcolor
  · obtain rfl : i = 3 := by omega
    rfl

theorem withAlpha_congr (h : ∀ c : Fin 4, c.val < 3 → color c = color' c) :
    withAlpha color alpha = withAlpha color' alpha := by
  apply Vector.ext
  intro i hi
  rw [withAlpha, withAlpha, Vector.getElem_ofFn, Vector.getElem_ofFn]
  split
  · exact h _ ‹_›
  · rfl

theorem unlessClear_congr [OfNat A 0] [DecidableEq A]
    (h : alpha ≠ 0 → ∀ c : Fin 4, c.val < 3 → color c = color' c) :
    unlessClear color alpha = unlessClear color' alpha := by
  unfold unlessClear
  split
  · rfl
  · exact withAlpha_congr (h ‹_›)

end

namespace Byte

-- What is left of a pixel that both passes find alone. A clear pixel loses its color.
def settle : (n : Nat) → AlphaMode → Vector UInt8 n → Vector UInt8 n
  | 4, .straight => fun p => if alphaOf p = 0 then Vector.replicate 4 0 else p
  | _, _ => id

theorem gatherChannel_of_settles (r : Row Int) (value : Nat → UInt8) (v : UInt8)
    (h : r.Settles value v) : gatherChannel (r.taps value) = v.toNat * 128 := by
  rw [gatherChannel_taps, h fun v => (v.toNat : Int), roundShift_eq]
  unfold one
  omega

theorem blendChannel_of_settles (r : Row Int) (value : Nat → UInt8) (v : UInt8)
    (h : r.Settles value v) :
    blendChannel (r.taps fun k => ((value k).toNat * 128 : Int)) = v := by
  have hround : roundShift 22 (one * (v.toNat * 128 : Int)) = v.toNat := by
    rw [roundShift_eq]
    unfold one
    omega
  rw [blendChannel, h fun v => (v.toNat * 128 : Int), byteOf22, hround, toByte_toNat]

theorem throughBoth_of_settled {value : Nat → Nat → UInt8} {rx ry : Row Int} {v : UInt8}
    (h : Settled value rx ry v) : throughBoth gatherChannel blendChannel value rx ry = v :=
  h.throughBoth_eq gatherChannel_of_settles blendChannel_of_settles

-- A straight pixel between the passes, its color times its alpha
def product (p : Vector UInt8 4) : Vector Int 4 :=
  withAlpha (fun c => ((p.get c).toNat * (alphaOf p).toNat : Int)) ((alphaOf p).toNat * 128)

theorem gather_of_settles (r : Row Int) (pixel : Nat → Vector UInt8 4) (p : Vector UInt8 4)
    (h : r.Settles pixel p) : straight.gather (r.taps pixel) = product p := by
  have hcolor : ∀ c, gatherColor c (r.taps pixel) = (p.get c).toNat * (alphaOf p).toNat := by
    intro c
    have hc := (p.get c).toNat_lt
    have ha := (alphaOf p).toNat_lt
    have hproduct : (p.get c).toNat * (alphaOf p).toNat ≤ 256 * 256 :=
      Nat.mul_le_mul (by omega) (by omega)
    have hproduct : ((p.get c).toNat * (alphaOf p).toNat : Int) ≤ 256 * 256 := by
      exact_mod_cast hproduct
    have hpos : 0 ≤ ((p.get c).toNat * (alphaOf p).toNat : Int) := by positivity
    rw [gatherColor_taps, h fun p => ((p.get c).toNat * (alphaOf p).toNat : Int)]
    exact wide15_one_mul (by omega) (by omega)
  simp only [straight, product, alphaPlane_taps, hcolor,
    gatherChannel_of_settles r _ _ (h.map alphaOf)]

theorem divideColor_of_multiple (v a : UInt8) (ha : a ≠ 0) :
    divideColor (one * (v.toNat * a.toNat)) (one * (a.toNat * 128)) = v := by
  have hpos : 0 < (one * (a.toNat * 128) : Int) := by
    have ha : a.toNat ≠ 0 := fun h => ha (UInt8.toNat_inj.mp h)
    unfold one
    omega
  have hscale : (one * (v.toNat * a.toNat) * 128 : Int) = v.toNat * (one * (a.toNat * 128)) := by
    ring
  rw [divideColor, hscale, tdiv_of_multiple hpos (by omega), toByte_toNat]

theorem blend_of_settles (r : Row Int) (pixel : Nat → Vector UInt8 4) (p : Vector UInt8 4)
    (h : r.Settles pixel p) :
    straight.blend (r.taps fun k => product (pixel k)) = settle 4 .straight p := by
  have hcolor : ∀ c : Fin 4, c.val < 3 →
      weigh (plane c (r.taps fun k => product (pixel k))) =
        one * ((p.get c).toNat * (alphaOf p).toNat) := by
    intro c hc
    rw [plane_taps, h fun p => (product p).get c, product, get_withAlpha _ _ hc]
  have halpha : weigh (alphaPlane (r.taps fun k => product (pixel k))) =
      one * ((alphaOf p).toNat * 128) := by
    rw [alphaPlane_taps, h fun p => alphaOf (product p), product, alphaOf_withAlpha]
  have hshown : byteOf22 (one * ((alphaOf p).toNat * 128)) = alphaOf p := by
    rw [← h fun p => ((alphaOf p).toNat * 128 : Int)]
    exact blendChannel_of_settles r _ _ (h.map alphaOf)
  rw [blend_straight, halpha, hshown]
  calc unlessClear _ (alphaOf p)
      = unlessClear p.get (alphaOf p) := unlessClear_congr fun ha c hc => by
        rw [hcolor c hc, divideColor_of_multiple _ _ ha]
    _ = settle 4 .straight p := by rw [unlessClear, withAlpha_get, settle]

-- Only straight alpha can be clear
theorem settle_of_ne {n : Nat} {alpha : AlphaMode} {p : Vector UInt8 n}
    (h : alpha = .straight → ∀ a : Fin n, ¬a.val < alpha.colors n → p.get a ≠ 0) :
    settle n alpha p = p := by
  unfold settle
  split
  · exact if_neg (h rfl 3 (by decide))
  · rfl

theorem outputPixel_of_settled {n : Nat} {alpha : AlphaMode} {pixel : Nat → Nat → Vector UInt8 n}
    {rx ry : Row Int} {p : Vector UInt8 n} (h : Settled pixel rx ry p) :
    (select n alpha).outputPixel pixel rx ry = settle n alpha p := by
  unfold select
  split
  · exact h.throughBoth_eq gather_of_settles blend_of_settles
  · rename_i hplain
    rw [settle]
    · apply eq_of_get_eq
      intro c
      rw [(separates_plain _ c).get_outputPixel]
      exact throughBoth_of_settled (h.map fun p => p.get c)
    · exact hplain

end Byte

namespace Uq15

-- A color times its alpha, rounded, and freed of that alpha again
def returned (color alpha : UInt16) : UInt16 :=
  divideColor (roundShift 15 (color.toNat * alpha.toNat)) alpha.toNat

-- Alpha capped at one
def capped {n : Nat} (alpha : AlphaMode) (p : Vector UInt16 n) : Vector UInt16 n :=
  Vector.ofFn fun c => if c < alpha.colors n then p.get c else min (p.get c) 32768

-- What is left of a pixel that both passes find alone. A straight color comes back as nearly as its
-- product with alpha tells it.
def settle : (n : Nat) → AlphaMode → Vector UInt16 n → Vector UInt16 n
  | 4, .straight => fun p =>
    if alphaOf p = 0 then Vector.replicate 4 0
    else withAlpha (fun c => returned (p.get c) (alphaOf p)) (min (alphaOf p) 32768)
  | _, alpha => capped alpha

theorem gatherChannel_of_settles (r : Row Int) (value : Nat → UInt16) (v : UInt16)
    (h : r.Settles value v) : gatherChannel (r.taps value) = v.toNat := by
  have hlt := v.toNat_lt
  rw [gatherChannel, r.map_taps value fun v => (v.toNat : Int), h fun v => (v.toNat : Int)]
  exact wide15_one_mul (by omega) (by omega)

theorem blendColor_of_settles (r : Row Int) (value : Nat → UInt16) (v : UInt16)
    (h : r.Settles value v) : blendColor (r.taps fun k => ((value k).toNat : Int)) = v := by
  have hlt := v.toNat_lt
  rw [blendColor, h fun v => (v.toNat : Int), wide15_one_mul (by omega) (by omega), toSample_toNat]

theorem throughBoth_of_settled {value : Nat → Nat → UInt16} {rx ry : Row Int} {v : UInt16}
    (h : Settled value rx ry v) : throughBoth gatherChannel blendColor value rx ry = v :=
  h.throughBoth_eq gatherChannel_of_settles blendColor_of_settles

-- A straight pixel between the passes, its color times its alpha
def product (p : Vector UInt16 4) : Vector Int 4 :=
  withAlpha (fun c => roundShift 15 ((p.get c).toNat * (alphaOf p).toNat)) (alphaOf p).toNat

theorem gather_of_settles (r : Row Int) (pixel : Nat → Vector UInt16 4) (p : Vector UInt16 4)
    (h : r.Settles pixel p) : straight.gather (r.taps pixel) = product p := by
  have hcolor : ∀ c, gatherColor c (r.taps pixel) =
      roundShift 15 ((p.get c).toNat * (alphaOf p).toNat) := by
    intro c
    have hc := (p.get c).toNat_lt
    have ha := (alphaOf p).toNat_lt
    have hproduct : (p.get c).toNat * (alphaOf p).toNat ≤ 65536 * 65536 :=
      Nat.mul_le_mul (by omega) (by omega)
    have hproduct : ((p.get c).toNat * (alphaOf p).toNat : Int) ≤ 65536 * 65536 := by
      exact_mod_cast hproduct
    have hpos : 0 ≤ ((p.get c).toNat * (alphaOf p).toNat : Int) := by positivity
    rw [gatherColor_taps, h fun p => ((p.get c).toNat * (alphaOf p).toNat : Int)]
    generalize ((p.get c).toNat * (alphaOf p).toNat : Int) = product at hproduct hpos ⊢
    have hround : roundShift 30 (one * product) = roundShift 15 product := by
      rw [roundShift_eq, roundShift_eq]
      unfold one
      omega
    rw [hround, roundShift_eq]
    exact wrap32_of_mem (by omega) (by omega)
  simp only [straight, product, alphaPlane_taps, hcolor,
    gatherChannel_of_settles r _ _ (h.map alphaOf)]

-- The sums of a column are one times what stands in it
theorem divideColor_one_mul {color alpha : Int} (hcolor : 0 ≤ color) (ha : 0 < alpha) :
    divideColor (one * color) (one * alpha) = divideColor color alpha := by
  unfold divideColor one
  have hhalf : (32768 * alpha).tdiv 2 = 16384 * alpha := by
    rw [Int.tdiv_eq_ediv_of_nonneg (by omega)]
    omega
  have hhalf' : alpha.tdiv 2 = alpha / 2 := Int.tdiv_eq_ediv_of_nonneg ha.le
  rw [hhalf, hhalf', Int.tdiv_eq_ediv_of_nonneg (by omega), Int.tdiv_eq_ediv_of_nonneg (by omega),
    ← Int.ediv_ediv_of_nonneg (by omega)]
  congr 2
  omega

theorem cap_eq_zero_iff (a : UInt16) : min a 32768 = 0 ↔ a = 0 := by
  rw [Std.min_eq_if]
  split
  · rfl
  · rename_i hle
    constructor
    · intro h
      cases h
    · rintro rfl
      exact absurd (by decide) hle

theorem blend_of_settles (r : Row Int) (pixel : Nat → Vector UInt16 4) (p : Vector UInt16 4)
    (h : r.Settles pixel p) :
    straight.blend (r.taps fun k => product (pixel k)) = settle 4 .straight p := by
  have hcolor : ∀ c : Fin 4, c.val < 3 →
      weigh (plane c (r.taps fun k => product (pixel k))) =
        one * roundShift 15 ((p.get c).toNat * (alphaOf p).toNat) := by
    intro c hc
    rw [plane_taps, h fun p => (product p).get c, product, get_withAlpha _ _ hc]
  have halpha : weigh (alphaPlane (r.taps fun k => product (pixel k))) =
      one * (alphaOf p).toNat := by
    rw [alphaPlane_taps, h fun p => alphaOf (product p), product, alphaOf_withAlpha]
  have hshown : toUnitSample (wide15 (one * (alphaOf p).toNat)) = min (alphaOf p) 32768 := by
    have hlt := (alphaOf p).toNat_lt
    rw [wide15_one_mul (by omega) (by omega), toUnitSample_eq, toSample_toNat]
  rw [blend_straight, halpha, hshown]
  calc unlessClear _ (min (alphaOf p) 32768)
      = unlessClear (fun c => returned (p.get c) (alphaOf p)) (min (alphaOf p) 32768) :=
        unlessClear_congr fun ha c hc => by
          rw [hcolor c hc, returned, divideColor_one_mul]
          · rw [roundShift_eq]
            positivity
          · have ha : (alphaOf p).toNat ≠ 0 :=
              fun h => ha ((cap_eq_zero_iff _).mpr (UInt16.toNat_inj.mp h))
            omega
    _ = settle 4 .straight p := by
        rw [unlessClear, settle]
        simp only [cap_eq_zero_iff]

theorem outputPixel_of_settled {n : Nat} {alpha : AlphaMode} {pixel : Nat → Nat → Vector UInt16 n}
    {rx ry : Row Int} {p : Vector UInt16 n} (h : Settled pixel rx ry p) :
    (select n alpha).outputPixel pixel rx ry = settle n alpha p := by
  unfold select
  split
  · exact h.throughBoth_eq gather_of_settles blend_of_settles
  · rename_i hplain
    rw [settle]
    · apply eq_of_get_eq
      intro c
      have hchannel := throughBoth_of_settled (h.map fun p => p.get c)
      rw [(separates_plain _ c).get_outputPixel, capped, Vector.get_ofFn]
      simp only [throughBoth] at hchannel ⊢
      rw [hchannel]
    · exact hplain

-- A color comes back where alpha is no less than one: rounding their product costs half a step of
-- one at most, which is no more than half of alpha
theorem returned_of_le {color alpha : UInt16} (h : 32768 ≤ alpha) :
    returned color alpha = color := by
  have halpha : (32768 : Int) ≤ alpha.toNat := by exact_mod_cast UInt16.le_iff_toNat_le.mp h
  have hhalf : (alpha.toNat : Int).tdiv 2 = alpha.toNat / 2 :=
    Int.tdiv_eq_ediv_of_nonneg (by omega)
  have hproduct : 0 ≤ (color.toNat * alpha.toNat : Int) := by positivity
  have hnext : ((color.toNat + 1) * alpha.toNat : Int) =
      color.toNat * alpha.toNat + alpha.toNat := by ring
  have hexact : alpha.toNat = (32768 : Int) →
      (color.toNat * alpha.toNat : Int) = color.toNat * 32768 := fun hone => by rw [hone]
  have hquotient : (roundShift 15 (color.toNat * alpha.toNat) * one + alpha.toNat / 2).tdiv
      alpha.toNat = color.toNat := by
    unfold one
    rw [roundShift_eq, Int.tdiv_eq_ediv_of_nonneg (by omega)]
    apply le_antisymm
    · apply Int.lt_add_one_iff.mp
      apply Int.ediv_lt_of_lt_mul (by omega)
      omega
    · apply Int.le_ediv_of_mul_le (by omega)
      omega
  rw [returned, divideColor, hhalf, hquotient, toSample_toNat]

theorem settle_of_le {n : Nat} {alpha : AlphaMode} {p : Vector UInt16 n}
    (h : alpha = .straight → ∀ a : Fin n, ¬a.val < alpha.colors n → 32768 ≤ p.get a) :
    settle n alpha p = capped alpha p := by
  unfold settle
  split
  · have halpha : 32768 ≤ alphaOf p := h rfl 3 (by decide)
    have hshown : alphaOf p ≠ 0 := fun hclear => absurd (hclear ▸ halpha) (by decide)
    exact (if_neg hshown).trans (withAlpha_congr fun c _ => returned_of_le halpha)
  · rfl

theorem capped_of_le {n : Nat} {alpha : AlphaMode} {p : Vector UInt16 n}
    (h : ∀ a : Fin n, ¬a.val < alpha.colors n → p.get a ≤ 32768) : capped alpha p = p := by
  apply eq_of_get_eq
  intro c
  rw [capped, Vector.get_ofFn]
  split
  · rfl
  · exact Std.min_eq_if.trans (if_pos (h c ‹_›))

end Uq15

end Resampling.Kernel
