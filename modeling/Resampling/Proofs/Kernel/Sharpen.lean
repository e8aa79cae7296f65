import Resampling.Proofs.Kernel.Channels
import Resampling.Proofs.Kernel.Balanced

-- Sharpening on rows, for any strength. A color goes away from its blur, the farther the more the
-- two differ and the stronger the push is, and nothing on the way leaves its machine word.

namespace Resampling.Kernel

open FixedPoint

-- A thousand percent
def maxStrength : Int := 327680

section Rows

variable {n : Nat} {A : Type}

def sharpenRow (colors : Nat) (sharpenSample : A → A → A) (unblurred blurred : Array (Vector A n)) :
    Array (Vector A n) :=
  Array.zipWith (sharpenColors colors sharpenSample) unblurred blurred

def sharpenColorsIn (colors : Nat) (sharpenSample : A → A → Except Error A)
    (unblurred blurred : Vector A n) : Except Error (Vector A n) :=
  channelsIn n fun c =>
    if c < colors then sharpenSample (unblurred.get c) (blurred.get c) else .ok (unblurred.get c)

def sharpenRowIn (colors : Nat) (sharpenSample : A → A → Except Error A)
    (unblurred blurred : Array (Vector A n)) : Except Error (Array (Vector A n)) :=
  (unblurred.zip blurred).mapM fun pair => sharpenColorsIn colors sharpenSample pair.1 pair.2

theorem sharpenRowIn_eq_ok {sharpenSample : A → A → A} {sharpenSampleIn : A → A → Except Error A}
    (h : ∀ o b, sharpenSampleIn o b = .ok (sharpenSample o b)) (colors : Nat)
    (unblurred blurred : Array (Vector A n)) :
    sharpenRowIn colors sharpenSampleIn unblurred blurred =
      .ok (sharpenRow colors sharpenSample unblurred blurred) := by
  have hcolors : ∀ o b : Vector A n,
      sharpenColorsIn colors sharpenSampleIn o b =
        .ok (sharpenColors colors sharpenSample o b) := by
    intro o b
    apply channelsIn_eq_ok
    intro c
    split
    · exact h _ _
    · rfl
  unfold sharpenRowIn sharpenRow
  rw [array_mapM_eq_ok fun pair _ => hcolors pair.1 pair.2, Array.zip, Array.map_zipWith]

theorem getElem?_sharpenRow {colors : Nat} {sharpenSample : A → A → A}
    {unblurred blurred : Array (Vector A n)} {i : Nat} {o b : Vector A n}
    (ho : unblurred[i]? = some o) (hb : blurred[i]? = some b) :
    (sharpenRow colors sharpenSample unblurred blurred)[i]? =
      some (sharpenColors colors sharpenSample o b) := by
  rw [sharpenRow, Array.getElem?_zipWith, ho, hb]

end Rows

-- What becomes of a color sample, in whole numbers
def pushed (high strength threshold o b : Int) : Int :=
  if threshold ≤ |o - b| then clamp 0 high (o + roundShift 15 ((o - b) * strength)) else o

section Pushed

variable {high strength threshold o b : Int}

theorem pushed_of_lt (h : |o - b| < threshold) : pushed high strength threshold o b = o :=
  if_neg (Int.not_le.mpr h)

theorem pushed_of_le (h : threshold ≤ |o - b|) : pushed high strength threshold o b =
    clamp 0 high (o + roundShift 15 ((o - b) * strength)) :=
  if_pos h

theorem roundShift_zero : roundShift 15 0 = 0 := by decide

theorem le_pushed (hlow : 0 ≤ o) (hhigh : o ≤ high) (hstrength : 0 ≤ strength) (h : b ≤ o) :
    o ≤ pushed high strength threshold o b := by
  by_cases hreached : threshold ≤ |o - b|
  · have hpush : roundShift 15 0 ≤ roundShift 15 ((o - b) * strength) :=
      roundShift_mono 15 (mul_nonneg (by omega) hstrength)
    rw [roundShift_zero] at hpush
    rw [pushed_of_le hreached]
    calc o = clamp 0 high o := (clamp_of_mem hlow hhigh).symm
      _ ≤ clamp 0 high (o + roundShift 15 ((o - b) * strength)) := clamp_mono (by omega)
  · rw [pushed_of_lt (Int.not_le.mp hreached)]

theorem pushed_le (hlow : 0 ≤ o) (hhigh : o ≤ high) (hstrength : 0 ≤ strength) (h : o ≤ b) :
    pushed high strength threshold o b ≤ o := by
  by_cases hreached : threshold ≤ |o - b|
  · have hpush : roundShift 15 ((o - b) * strength) ≤ roundShift 15 0 :=
      roundShift_mono 15 (mul_nonpos_of_nonpos_of_nonneg (by omega) hstrength)
    rw [roundShift_zero] at hpush
    rw [pushed_of_le hreached]
    calc clamp 0 high (o + roundShift 15 ((o - b) * strength)) ≤ clamp 0 high o :=
          clamp_mono (by omega)
      _ = o := clamp_of_mem hlow hhigh
  · rw [pushed_of_lt (Int.not_le.mp hreached)]

theorem pushed_zero (hlow : 0 ≤ o) (hhigh : o ≤ high) : pushed high 0 threshold o b = o := by
  unfold pushed
  rw [mul_zero, roundShift_zero, add_zero, clamp_of_mem hlow hhigh, ite_self]

-- Where only one of two blurs is near enough to leave the sample alone, the other is on the side
-- that pushes the right way
theorem pushed_antitone {b' : Int} (hlow : 0 ≤ o) (hhigh : o ≤ high) (hstrength : 0 ≤ strength)
    (h : b ≤ b') : pushed high strength threshold o b' ≤ pushed high strength threshold o b := by
  by_cases hreached : threshold ≤ |o - b|
  · by_cases hreached' : threshold ≤ |o - b'|
    · have hpush : roundShift 15 ((o - b') * strength) ≤ roundShift 15 ((o - b) * strength) :=
        roundShift_mono 15 (mul_le_mul_of_nonneg_right (by omega) hstrength)
      rw [pushed_of_le hreached, pushed_of_le hreached']
      exact clamp_mono (by omega)
    · have hside : b ≤ o := by
        by_contra hside
        rw [abs_of_neg (by omega)] at hreached
        rw [abs_of_neg (by omega)] at hreached'
        omega
      rw [pushed_of_lt (Int.not_le.mp hreached')]
      exact le_pushed hlow hhigh hstrength hside
  · rw [pushed_of_lt (Int.not_le.mp hreached)]
    by_cases hreached' : threshold ≤ |o - b'|
    · have hside : o ≤ b' := by
        by_contra hside
        rw [abs_of_pos (by omega)] at hreached hreached'
        omega
      exact pushed_le hlow hhigh hstrength hside
    · rw [pushed_of_lt (Int.not_le.mp hreached')]

theorem abs_pushed_sub_mono {strength' : Int} (hlow : 0 ≤ o) (hhigh : o ≤ high)
    (hstrength : 0 ≤ strength) (h : strength ≤ strength') :
    |pushed high strength threshold o b - o| ≤ |pushed high strength' threshold o b - o| := by
  by_cases hreached : threshold ≤ |o - b|
  · rcases le_total b o with hside | hside
    · have hfrom : o ≤ pushed high strength threshold o b := le_pushed hlow hhigh hstrength hside
      have hpush : roundShift 15 ((o - b) * strength) ≤ roundShift 15 ((o - b) * strength') :=
        roundShift_mono 15 (mul_le_mul_of_nonneg_left h (by omega))
      have hle : pushed high strength threshold o b ≤ pushed high strength' threshold o b := by
        rw [pushed_of_le hreached, pushed_of_le hreached]
        exact clamp_mono (by omega)
      rw [abs_of_nonneg (by omega), abs_of_nonneg (by omega)]
      omega
    · have hfrom : pushed high strength threshold o b ≤ o := pushed_le hlow hhigh hstrength hside
      have hpush : roundShift 15 ((o - b) * strength') ≤ roundShift 15 ((o - b) * strength) :=
        roundShift_mono 15 (mul_le_mul_of_nonpos_left h (by omega))
      have hle : pushed high strength' threshold o b ≤ pushed high strength threshold o b := by
        rw [pushed_of_le hreached, pushed_of_le hreached]
        exact clamp_mono (by omega)
      rw [abs_of_nonpos (by omega), abs_of_nonpos (by omega)]
      omega
  · rw [pushed_of_lt (Int.not_le.mp hreached), pushed_of_lt (Int.not_le.mp hreached)]

theorem add_roundShift_eq_floor (strength o b : Int) :
    o + roundShift 15 ((o - b) * strength) =
      ⌊(o : ℚ) + (o - b) * strength / 32768 + 1 / 2⌋ := by
  have hsum : (o : ℚ) + (o - b) * strength / 32768 + 1 / 2 =
      o + (((o - b) * strength + 2 ^ (15 - 1) : Int) : ℚ) / ((2 ^ 15 : Nat) : ℚ) := by
    push_cast
    ring
  rw [hsum, Int.floor_intCast_add, Rat.floor_intCast_div_natCast, roundShift_eq]
  rfl

end Pushed

-- What is promised of the sample `d` that is made of a color and its blur
structure Pushed (high strength threshold o b d : Int) : Prop where
  kept : |o - b| < threshold → d = o
  above : b < o → o ≤ d
  below : o < b → d ≤ o
  level : o = b → d = o
  rounded : threshold ≤ |o - b| →
    d = clamp 0 high ⌊(o : ℚ) + (o - b) * strength / 32768 + 1 / 2⌋

theorem pushed_spec {high strength o : Int} (threshold b : Int) (hlow : 0 ≤ o) (hhigh : o ≤ high)
    (hstrength : 0 ≤ strength) :
    Pushed high strength threshold o b (pushed high strength threshold o b) where
  kept := pushed_of_lt
  above h := le_pushed hlow hhigh hstrength (Int.le_of_lt h)
  below h := pushed_le hlow hhigh hstrength (Int.le_of_lt h)
  level h := Int.le_antisymm (pushed_le hlow hhigh hstrength (Int.le_of_eq h))
    (le_pushed hlow hhigh hstrength (Int.le_of_eq h.symm))
  rounded h := by rw [pushed_of_le h, add_roundShift_eq_floor]

-- What is promised of rows of any length, from their samples as numbers up to `high`: of each
-- sample, of a sample with two blurs, and of a sample with two strengths
structure PushesAway {n : Nat} {A : Type} (value : A → Int) (high : Int) (colors : Nat)
    (row : Int → (unblurred blurred : Array (Vector A n)) → Array (Vector A n))
    (strength threshold : Int) : Prop where
  size : ∀ unblurred blurred,
    (row strength unblurred blurred).size = min unblurred.size blurred.size
  sample : ∀ unblurred blurred (i : Nat) (o b : Vector A n), unblurred[i]? = some o →
    blurred[i]? = some b →
    ∃ d : Vector A n, (row strength unblurred blurred)[i]? = some d ∧ ∀ c : Fin n,
      if c < colors then
        Pushed high strength threshold (value (o.get c)) (value (b.get c)) (value (d.get c))
      else d.get c = o.get c
  blurs : ∀ unblurred blurred blurred' (i : Nat) (o b b' : Vector A n), unblurred[i]? = some o →
    blurred[i]? = some b → blurred'[i]? = some b' →
    ∃ d d' : Vector A n, (row strength unblurred blurred)[i]? = some d ∧
      (row strength unblurred blurred')[i]? = some d' ∧
      ∀ c, value (b.get c) ≤ value (b'.get c) → value (d'.get c) ≤ value (d.get c)
  strengths : ∀ strength', strength ≤ strength' → strength' ≤ maxStrength →
    ∀ unblurred blurred (i : Nat) (o b : Vector A n), unblurred[i]? = some o →
      blurred[i]? = some b →
      ∃ d d' : Vector A n, (row strength unblurred blurred)[i]? = some d ∧
        (row strength' unblurred blurred)[i]? = some d' ∧
        ∀ c, |value (d.get c) - value (o.get c)| ≤ |value (d'.get c) - value (o.get c)|

-- The promises hold as soon as samples are pushed as whole numbers are
theorem pushesAway_sharpenRow (n colors : Nat) {A : Type} {value : A → Int} {high : Int}
    {sharpenSample : Int → A → A → A} {strength threshold : Int}
    (hlow : ∀ o, 0 ≤ value o) (hhigh : ∀ o, value o ≤ high)
    (hvalue : ∀ strength, 0 ≤ strength → strength ≤ maxStrength → ∀ o b,
      value (sharpenSample strength o b) = pushed high strength threshold (value o) (value b))
    (hstrength : 0 ≤ strength) (hmax : strength ≤ maxStrength) :
    PushesAway (n := n) value high colors
      (fun strength => sharpenRow colors (sharpenSample strength)) strength threshold where
  size unblurred blurred := Array.size_zipWith
  sample unblurred blurred i o b ho hb := by
    refine ⟨_, getElem?_sharpenRow ho hb, fun c => ?_⟩
    rw [get_sharpenColors]
    split
    · rw [hvalue strength hstrength hmax]
      exact pushed_spec _ _ (hlow _) (hhigh _) hstrength
    · rfl
  blurs unblurred blurred blurred' i o b b' ho hb hb' := by
    refine ⟨_, _, getElem?_sharpenRow ho hb, getElem?_sharpenRow ho hb', fun c h => ?_⟩
    rw [get_sharpenColors, get_sharpenColors]
    split
    · rw [hvalue strength hstrength hmax, hvalue strength hstrength hmax]
      exact pushed_antitone (hlow _) (hhigh _) hstrength h
    · exact Int.le_refl _
  strengths strength' h hmax' unblurred blurred i o b ho hb := by
    refine ⟨_, _, getElem?_sharpenRow ho hb, getElem?_sharpenRow ho hb, fun c => ?_⟩
    rw [get_sharpenColors, get_sharpenColors]
    split
    · rw [hvalue strength hstrength hmax, hvalue strength' (hstrength.trans h) hmax']
      exact abs_pushed_sub_mono (hlow _) (hhigh _) hstrength h
    · exact Int.le_refl _

-- A push is at most ten times the range of the samples
theorem natAbs_push_le {high : Nat} {difference strength : Int}
    (hdifference : difference.natAbs ≤ high) (hlow : 0 ≤ strength) (hmax : strength ≤ maxStrength) :
    (difference * strength).natAbs ≤ high * 327680 ∧
      (roundShift 15 (difference * strength)).natAbs ≤ high * 10 := by
  have hproduct : (difference * strength).natAbs ≤ high * 327680 := by
    unfold maxStrength at hmax
    rw [Int.natAbs_mul]
    exact Nat.mul_le_mul hdifference (by omega)
  refine ⟨hproduct, ?_⟩
  rw [roundShift_eq]
  omega

namespace Byte

theorem sharpenSample_of_reached {strength threshold : Int} {o b : UInt8}
    (h : (((o.toNat : Int) - b.toNat).natAbs : Int) ≥ threshold) :
    sharpenSample strength threshold o b =
      toByte (o.toNat + roundShift 15 ((o.toNat - b.toNat) * strength)) :=
  if_pos h

theorem sharpenSample_of_near {strength threshold : Int} {o b : UInt8}
    (h : ¬(((o.toNat : Int) - b.toNat).natAbs : Int) ≥ threshold) :
    sharpenSample strength threshold o b = o :=
  if_neg h

-- All in 32 bits
def sharpenSampleIn (strength threshold : Int) (unblurred blurred : UInt8) :
    Except Error UInt8 := do
  let difference ← fit 32 (unblurred.toNat - blurred.toNat)
  let distance ← fit 32 difference.natAbs
  if distance ≥ threshold then
    let push ← roundShiftIn 32 15 (← fit 32 (difference * strength))
    return toByte (← fit 32 (unblurred.toNat + push))
  else return unblurred

theorem sharpenSampleIn_eq_ok {strength : Int} (hlow : 0 ≤ strength) (hmax : strength ≤ maxStrength)
    (threshold : Int) (o b : UInt8) :
    sharpenSampleIn strength threshold o b = .ok (sharpenSample strength threshold o b) := by
  have ho := o.toNat_lt
  have hb := b.toNat_lt
  have hdifference : ((o.toNat : Int) - b.toNat).natAbs ≤ 255 := by omega
  obtain ⟨hproduct, hpush⟩ := natAbs_push_le hdifference hlow hmax
  unfold sharpenSampleIn
  refine bind_eq_ok_iff.mpr ⟨_, fit_eq_ok (by omega), ?_⟩
  refine bind_eq_ok_iff.mpr ⟨_, fit_eq_ok (by omega), ?_⟩
  by_cases hreached : (((o.toNat : Int) - b.toNat).natAbs : Int) ≥ threshold
  · rw [sharpenSample_of_reached hreached, if_pos hreached]
    refine bind_eq_ok_iff.mpr ⟨_, fit_eq_ok (by omega), ?_⟩
    refine bind_eq_ok_iff.mpr ⟨_, roundShiftIn_eq_ok (by omega), ?_⟩
    exact bind_eq_ok_iff.mpr ⟨_, fit_eq_ok (by omega), rfl⟩
  · rw [sharpenSample_of_near hreached, if_neg hreached]
    rfl

theorem toNat_sharpenSample (strength threshold : Int) (o b : UInt8) :
    ((sharpenSample strength threshold o b).toNat : Int) =
      pushed 255 strength threshold o.toNat b.toNat := by
  by_cases hreached : (((o.toNat : Int) - b.toNat).natAbs : Int) ≥ threshold
  · rw [sharpenSample_of_reached hreached, toNat_toByte]
    rw [ge_iff_le, Int.natCast_natAbs] at hreached
    rw [pushed_of_le hreached]
  · rw [sharpenSample_of_near hreached]
    rw [ge_iff_le, Int.natCast_natAbs, Int.not_le] at hreached
    rw [pushed_of_lt hreached]

theorem sharpenSample_zero (threshold : Int) (o b : UInt8) :
    sharpenSample 0 threshold o b = o := by
  have ho := o.toNat_lt
  have hvalue := toNat_sharpenSample 0 threshold o b
  rw [pushed_zero (by omega) (by omega)] at hvalue
  exact UInt8.toNat_inj.mp (Int.ofNat.inj hvalue)

end Byte

namespace Uq15

theorem sharpenSample_of_reached {strength threshold : Int} {o b : UInt16}
    (h : (((o.toNat : Int) - b.toNat).natAbs : Int) ≥ threshold) :
    sharpenSample strength threshold o b =
      toSample (o.toNat + wide15 ((o.toNat - b.toNat) * strength)) :=
  if_pos h

theorem sharpenSample_of_near {strength threshold : Int} {o b : UInt16}
    (h : ¬(((o.toNat : Int) - b.toNat).natAbs : Int) ≥ threshold) :
    sharpenSample strength threshold o b = o :=
  if_neg h

-- The product is formed in 64 bits
def sharpenSampleIn (strength threshold : Int) (unblurred blurred : UInt16) :
    Except Error UInt16 := do
  let difference ← fit 32 (unblurred.toNat - blurred.toNat)
  let distance ← fit 32 difference.natAbs
  if distance ≥ threshold then
    let push ← narrowIn 15 (← fit 64 (difference * strength))
    return toSample (← fit 32 (unblurred.toNat + push))
  else return unblurred

theorem wide15_push {strength : Int} (hlow : 0 ≤ strength) (hmax : strength ≤ maxStrength)
    (o b : UInt16) : wide15 ((o.toNat - b.toNat) * strength) =
      roundShift 15 ((o.toNat - b.toNat) * strength) := by
  have ho := o.toNat_lt
  have hb := b.toNat_lt
  have hdifference : ((o.toNat : Int) - b.toNat).natAbs ≤ 65535 := by omega
  obtain ⟨-, hpush⟩ := natAbs_push_le hdifference hlow hmax
  exact wrap32_of_mem (by omega) (by omega)

theorem sharpenSampleIn_eq_ok {strength : Int} (hlow : 0 ≤ strength) (hmax : strength ≤ maxStrength)
    (threshold : Int) (o b : UInt16) :
    sharpenSampleIn strength threshold o b = .ok (sharpenSample strength threshold o b) := by
  have ho := o.toNat_lt
  have hb := b.toNat_lt
  have hdifference : ((o.toNat : Int) - b.toNat).natAbs ≤ 65535 := by omega
  obtain ⟨hproduct, hpush⟩ := natAbs_push_le hdifference hlow hmax
  obtain ⟨hnarrow, hwide⟩ := narrowIn_spec (65535 * 10) (by omega) hpush (by decide)
  unfold sharpenSampleIn
  refine bind_eq_ok_iff.mpr ⟨_, fit_eq_ok (by omega), ?_⟩
  refine bind_eq_ok_iff.mpr ⟨_, fit_eq_ok (by omega), ?_⟩
  by_cases hreached : (((o.toNat : Int) - b.toNat).natAbs : Int) ≥ threshold
  · rw [sharpenSample_of_reached hreached, if_pos hreached]
    refine bind_eq_ok_iff.mpr ⟨_, fit_eq_ok (by omega), bind_eq_ok_iff.mpr ⟨_, hnarrow, ?_⟩⟩
    exact bind_eq_ok_iff.mpr ⟨_, fit_eq_ok (by omega), rfl⟩
  · rw [sharpenSample_of_near hreached, if_neg hreached]
    rfl

theorem toNat_sharpenSample {strength : Int} (hlow : 0 ≤ strength) (hmax : strength ≤ maxStrength)
    (threshold : Int) (o b : UInt16) :
    ((sharpenSample strength threshold o b).toNat : Int) =
      pushed 65535 strength threshold o.toNat b.toNat := by
  by_cases hreached : (((o.toNat : Int) - b.toNat).natAbs : Int) ≥ threshold
  · rw [sharpenSample_of_reached hreached, toNat_toSample, wide15_push hlow hmax]
    rw [ge_iff_le, Int.natCast_natAbs] at hreached
    rw [pushed_of_le hreached]
    rfl
  · rw [sharpenSample_of_near hreached]
    rw [ge_iff_le, Int.natCast_natAbs, Int.not_le] at hreached
    rw [pushed_of_lt hreached]

theorem sharpenSample_zero (threshold : Int) (o b : UInt16) :
    sharpenSample 0 threshold o b = o := by
  have ho := o.toNat_lt
  have hvalue := toNat_sharpenSample (Int.le_refl 0) (by decide) threshold o b
  rw [pushed_zero (by omega) (by omega)] at hvalue
  exact UInt16.toNat_inj.mp (Int.ofNat.inj hvalue)

-- Every amount that is accepted makes a strength of that range
theorem strength_mem {sharpening : Sharpening} (h : sharpening.amount ≤ 1000) :
    0 ≤ strength sharpening ∧ strength sharpening ≤ maxStrength := by
  unfold strength maxStrength one
  omega

end Uq15

-- In all formats of either family
theorem sharpens_away (n : Nat) (alpha : AlphaMode) {strength : Int} (hlow : 0 ≤ strength)
    (hmax : strength ≤ maxStrength) (threshold : Int) :
    ((∀ sharpening, Array.zipWith ((RowKernel.ofFormat ⟨n, .byte, alpha⟩).sharpen sharpening) =
        sharpenRow (alpha.colors n)
          (Byte.sharpenSample (Byte.strength sharpening) sharpening.threshold)) ∧
      PushesAway (n := n) (fun sample : UInt8 => sample.toNat) 255 (alpha.colors n)
        (fun strength => sharpenRow (alpha.colors n) (Byte.sharpenSample strength threshold))
        strength threshold ∧
      ∀ unblurred blurred : Array (Vector UInt8 n),
        sharpenRowIn (alpha.colors n) (Byte.sharpenSampleIn strength threshold) unblurred blurred =
          .ok (sharpenRow (alpha.colors n) (Byte.sharpenSample strength threshold) unblurred
            blurred)) ∧
    (∀ sharpening, Array.zipWith ((RowKernel.ofFormat ⟨n, .uq15, alpha⟩).sharpen sharpening) =
        sharpenRow (alpha.colors n)
          (Uq15.sharpenSample (Uq15.strength sharpening) (Uq15.threshold sharpening))) ∧
      PushesAway (n := n) (fun sample : UInt16 => sample.toNat) 65535 (alpha.colors n)
        (fun strength => sharpenRow (alpha.colors n) (Uq15.sharpenSample strength threshold))
        strength threshold ∧
      ∀ unblurred blurred : Array (Vector UInt16 n),
        sharpenRowIn (alpha.colors n) (Uq15.sharpenSampleIn strength threshold) unblurred blurred =
          .ok (sharpenRow (alpha.colors n) (Uq15.sharpenSample strength threshold) unblurred
            blurred) := by
  refine ⟨⟨fun sharpening => ?_, ?_, ?_⟩, fun sharpening => ?_, ?_, ?_⟩
  · exact congrArg Array.zipWith (congrFun (Byte.sharpen_select alpha) sharpening)
  · refine pushesAway_sharpenRow _ _ (fun o => Int.natCast_nonneg _) ?_ ?_ hlow hmax
    · intro o
      have ho := o.toNat_lt
      omega
    · exact fun strength _ _ o b => Byte.toNat_sharpenSample strength threshold o b
  · exact sharpenRowIn_eq_ok (Byte.sharpenSampleIn_eq_ok hlow hmax threshold) _
  · exact congrArg Array.zipWith (congrFun (Uq15.sharpen_select alpha) sharpening)
  · refine pushesAway_sharpenRow _ _ (fun o => Int.natCast_nonneg _) ?_ ?_ hlow hmax
    · intro o
      have ho := o.toNat_lt
      omega
    · exact fun strength hlow hmax o b => Uq15.toNat_sharpenSample hlow hmax threshold o b
  · exact sharpenRowIn_eq_ok (Uq15.sharpenSampleIn_eq_ok hlow hmax threshold) _

-- A pixel of straight bytes at a full push, and a 16-bit one at half of it
theorem sharpens_away_edge :
    (∃ d : Vector UInt8 4, (sharpenRow 3 (Byte.sharpenSample 32768 5) #[#v[100, 250, 100, 200]]
        #[#v[90, 200, 97, 100]])[0]? = some d ∧ d = #v[110, 255, 100, 200] ∧
      Pushed 255 32768 5 100 90 (d.get 0).toNat ∧ Pushed 255 32768 5 250 200 (d.get 1).toNat ∧
      Pushed 255 32768 5 100 97 (d.get 2).toNat ∧ d.get 3 = 200) ∧
    ∃ d : Vector UInt16 1, (sharpenRow 1 (Uq15.sharpenSample 16384 1285) #[#v[16384]]
        #[#v[12000]])[0]? = some d ∧ d = #v[18576] ∧
      Pushed 65535 16384 1285 16384 12000 (d.get 0).toNat := by
  constructor
  · obtain ⟨⟨-, haway, -⟩, -⟩ :=
      sharpens_away 4 .straight (show (0 : Int) ≤ 32768 by decide) (by decide) 5
    obtain ⟨d, hd, hsample⟩ := haway.sample #[#v[100, 250, 100, 200]] #[#v[90, 200, 97, 100]] 0 _ _
      rfl rfl
    exact ⟨d, hd, Option.some.inj (hd.symm.trans (by decide +kernel)), hsample 0, hsample 1,
      hsample 2, hsample 3⟩
  · obtain ⟨hlow, hmax⟩ : 0 ≤ (16384 : Int) ∧ (16384 : Int) ≤ maxStrength :=
      Uq15.strength_mem (show (⟨50, 5⟩ : Sharpening).amount ≤ 1000 by decide)
    obtain ⟨-, -, haway, -⟩ := sharpens_away 1 .none hlow hmax 1285
    obtain ⟨d, hd, hsample⟩ := haway.sample #[#v[16384]] #[#v[12000]] 0 _ _ rfl rfl
    exact ⟨d, hd, Option.some.inj (hd.symm.trans (by decide +kernel)), hsample 0⟩

end Resampling.Kernel
