import Mathlib
import Resampling.Proofs.Outcome
import Resampling.Proofs.Window.Output

-- The integer kernels once more, as machine words compute them. Every product, every sum on the
-- way, every bias that is added and every result that is kept has to fit its width, and what does
-- not fit is a fault.

namespace Resampling.Kernel

open FixedPoint

def fit (bits : Nat) (x : Int) : Except Error Int :=
  if x.natAbs < 2 ^ (bits - 1) ∨ x = -2 ^ (bits - 1) then .ok x else .error .fault

def weighIn (bits : Nat) (taps : List (Int × Int)) : Except Error Int :=
  taps.foldlM (fun total tap => do fit bits (total + (← fit bits (tap.1 * tap.2)))) 0

-- The weighted sum of products, these in `bits` bits and the sum in 64
def weighProductsIn (bits : Nat) (taps : List ((Int × Int) × Int)) : Except Error Int := do
  weighIn 64 (← taps.mapM fun tap => do return (← fit bits (tap.1.1 * tap.1.2), tap.2))

-- Rounding, where the bias may not leave the width either
def roundShiftIn (bits k : Nat) (x : Int) : Except Error Int := do
  return (← fit bits (x + 2 ^ (k - 1))) / 2 ^ k

def narrowIn (k : Nat) (x : Int) : Except Error Int := do fit 32 (← roundShiftIn 64 k x)

-- A color freed of its alpha. Only a positive sum of alpha is divided by.
def divideIn (scale color alpha : Int) : Except Error Int := do
  if alpha ≤ 0 then throw .fault
  let scaled ← fit 64 (color * scale)
  let biased ← fit 64 (scaled + alpha.tdiv 2)
  return biased.tdiv alpha

structure Checked (n : Nat) (S : Type) where
  gather : List (Vector S n × Int) → Except Error (Vector Int n)
  blend : List (Vector Int n × Int) → Except Error (Vector S n)

def channelsIn (n : Nat) {A : Type} (channel : Fin n → Except Error A) :
    Except Error (Vector A n) :=
  (Vector.ofFn id).mapM channel

def withAlphaIn {A : Type} (color : Fin 4 → Except Error A) (alpha : Except Error A) :
    Except Error (Vector A 4) :=
  channelsIn 4 fun c => if c.val < 3 then color c else alpha

namespace Byte

-- The sum over a row is taken in 32 bits
def gatherChannelIn (taps : List (UInt8 × Int)) : Except Error Int := do
  let sum ← weighIn 32 (taps.map fun tap => ((tap.1.toNat : Int), tap.2))
  fit 32 (← roundShiftIn 32 8 sum)

def blendChannelIn (taps : List (Int × Int)) : Except Error UInt8 := do
  return toByte (← roundShiftIn 64 22 (← weighIn 64 taps))

def plainIn (n : Nat) : Checked n UInt8 where
  gather taps := channelsIn n fun c => gatherChannelIn (plane c taps)
  blend taps := channelsIn n fun c => blendChannelIn (plane c taps)

-- Color times alpha is formed in 32 bits
def gatherColorIn (c : Fin 4) (taps : List (Vector UInt8 4 × Int)) : Except Error Int := do
  narrowIn 15 (← weighProductsIn 32
    (taps.map fun tap => ((((tap.1.get c).toNat : Int), ((alphaOf tap.1).toNat : Int)), tap.2)))

def straightIn : Checked 4 UInt8 where
  gather taps := withAlphaIn (gatherColorIn · taps) (gatherChannelIn (alphaPlane taps))
  blend taps := do
    let sums ← channelsIn 4 fun c => weighIn 64 (plane c taps)
    let sum := alphaOf sums
    let alpha := toByte (← roundShiftIn 64 22 sum)
    if alpha = 0 then return Vector.replicate 4 0
    withAlphaIn (fun c => do return toByte (← divideIn 128 (sums.get c) sum)) (.ok alpha)

def selectIn : (n : Nat) → AlphaMode → Checked n UInt8
  | 4, .straight => straightIn
  | n, _ => plainIn n

end Byte

namespace Uq15

def gatherChannelIn (taps : List (UInt16 × Int)) : Except Error Int := do
  narrowIn 15 (← weighIn 64 (taps.map fun tap => ((tap.1.toNat : Int), tap.2)))

def blendColorIn (taps : List (Int × Int)) : Except Error UInt16 := do
  return toSample (← narrowIn 15 (← weighIn 64 taps))

def blendAlphaIn (taps : List (Int × Int)) : Except Error UInt16 := do
  return toUnitSample (← narrowIn 15 (← weighIn 64 taps))

def plainIn (n colors : Nat) : Checked n UInt16 where
  gather taps := channelsIn n fun c => gatherChannelIn (plane c taps)
  blend taps := channelsIn n fun c =>
    if c < colors then blendColorIn (plane c taps) else blendAlphaIn (plane c taps)

-- Color times alpha is formed in 64 bits
def gatherColorIn (c : Fin 4) (taps : List (Vector UInt16 4 × Int)) : Except Error Int := do
  narrowIn 30 (← weighProductsIn 64
    (taps.map fun tap => ((((tap.1.get c).toNat : Int), ((alphaOf tap.1).toNat : Int)), tap.2)))

def straightIn : Checked 4 UInt16 where
  gather taps := withAlphaIn (gatherColorIn · taps) (gatherChannelIn (alphaPlane taps))
  blend taps := do
    let sums ← channelsIn 4 fun c => weighIn 64 (plane c taps)
    let sum := alphaOf sums
    let alpha := toUnitSample (← narrowIn 15 sum)
    if alpha = 0 then return Vector.replicate 4 0
    withAlphaIn (fun c => do return toSample (← divideIn one (sums.get c) sum)) (.ok alpha)

def selectIn : (n : Nat) → AlphaMode → Checked n UInt16
  | 4, .straight => straightIn
  | n, alpha => plainIn n (alpha.colors n)

end Uq15

-- How much a row of weights can enlarge what it weighs
def mass (weights : List Int) : Nat := (weights.map Int.natAbs).sum

def maxMass : Nat := 2 ^ 22

theorem fit_eq_ok {bits : Nat} {x : Int} (h : x.natAbs < 2 ^ (bits - 1)) : fit bits x = .ok x := by
  unfold fit
  rw [if_pos (Or.inl h)]

theorem roundShift_eq (k : Nat) (x : Int) : roundShift k x = (x + 2 ^ (k - 1)) / 2 ^ k := by
  rw [roundShift, Int.shiftRight_eq_div_pow, Nat.one_shiftLeft]
  push_cast
  rfl

theorem roundShiftIn_eq_ok {bits k : Nat} {x : Int}
    (h : (x + 2 ^ (k - 1)).natAbs < 2 ^ (bits - 1)) :
    roundShiftIn bits k x = .ok (roundShift k x) := by
  unfold roundShiftIn
  rw [fit_eq_ok h, roundShift_eq]
  rfl

theorem narrowIn_spec {k : Nat} (bound : Nat) {x : Int}
    (hwide : (x + 2 ^ (k - 1)).natAbs < 2 ^ (64 - 1)) (hbound : (roundShift k x).natAbs ≤ bound)
    (hnarrow : bound < 2 ^ (32 - 1)) :
    narrowIn k x = .ok (wrap32 (roundShift k x)) ∧ (wrap32 (roundShift k x)).natAbs ≤ bound := by
  have hwrap : wrap32 (roundShift k x) = roundShift k x := wrap32_of_mem (by omega) (by omega)
  have hfit : fit 32 (roundShift k x) = .ok (roundShift k x) := fit_eq_ok (by omega)
  rw [hwrap]
  exact ⟨bind_eq_ok_iff.mpr ⟨_, roundShiftIn_eq_ok hwide, hfit⟩, hbound⟩

theorem divideIn_eq_ok {scale color alpha : Int} (halpha : 0 < alpha)
    (hscaled : (color * scale).natAbs < 2 ^ 62) (hlimit : alpha.natAbs < 2 ^ 62) :
    divideIn scale color alpha = .ok ((color * scale + alpha.tdiv 2).tdiv alpha) := by
  have hhalf : alpha.tdiv 2 = alpha / 2 := Int.tdiv_eq_ediv_of_nonneg (Int.le_of_lt halpha)
  have hwide : (color * scale).natAbs < 2 ^ (64 - 1) := by omega
  have hbiased : (color * scale + alpha.tdiv 2).natAbs < 2 ^ (64 - 1) := by omega
  unfold divideIn
  refine guard_eq_ok_iff.mpr ⟨Int.not_le.mpr halpha, ?_⟩
  exact bind_eq_ok_iff.mpr ⟨_, fit_eq_ok hwide, bind_eq_ok_iff.mpr ⟨_, fit_eq_ok hbiased, rfl⟩⟩

theorem channelsIn_eq_ok {n : Nat} {A : Type} {channel : Fin n → Except Error A} {value : Fin n → A}
    (h : ∀ c, channel c = .ok (value c)) : channelsIn n channel = .ok (Vector.ofFn value) := by
  have hchannel : channel = fun c => pure (value c) := funext h
  unfold channelsIn
  rw [hchannel, Vector.mapM_pure]
  exact congrArg Except.ok (by simp)

theorem withAlphaIn_eq_ok {A : Type} {color : Fin 4 → Except Error A} {alpha : Except Error A}
    {value : Fin 4 → A} {opacity : A} (hcolor : ∀ c, color c = .ok (value c))
    (halpha : alpha = .ok opacity) : withAlphaIn color alpha = .ok (withAlpha value opacity) := by
  apply channelsIn_eq_ok
  intro c
  split
  · exact hcolor c
  · exact halpha

theorem mass_zip_le {A : Type} (values : List A) (weights : List Int) :
    mass ((values.zip weights).map Prod.snd) ≤ mass weights := by
  induction values generalizing weights with
  | nil => simp [mass]
  | cons value values ih =>
    cases weights with
    | nil => simp [mass]
    | cons weight weights =>
      have hrest := ih weights
      simp only [mass] at hrest
      simp only [mass, List.zip_cons_cons, List.map_cons, List.sum_cons]
      omega

-- A weighted sum is bounded by the largest value times the mass of the weights
theorem natAbs_weigh_le (bound : Nat) {taps : List (Int × Int)}
    (h : ∀ tap ∈ taps, tap.1.natAbs ≤ bound) :
    (weigh taps).natAbs ≤ bound * mass (taps.map Prod.snd) := by
  induction taps with
  | nil => simp [weigh]
  | cons tap taps ih =>
    have hrest := ih fun tap h' => h tap (by simp [h'])
    have hproduct : (tap.1 * tap.2).natAbs ≤ bound * tap.2.natAbs := by
      rw [Int.natAbs_mul]
      exact Nat.mul_le_mul_right _ (h tap (by simp))
    have hadd := Int.natAbs_add_le (tap.1 * tap.2) (weigh taps)
    simp only [weigh_cons, mass, List.map_cons, List.sum_cons, Nat.mul_add] at hrest hadd ⊢
    omega

-- If the bound on the sum fits the width, then so does everything on the way to it
theorem weighIn_eq_ok {bits : Nat} (bound : Nat) {taps : List (Int × Int)}
    (h : ∀ tap ∈ taps, tap.1.natAbs ≤ bound)
    (hfits : bound * mass (taps.map Prod.snd) < 2 ^ (bits - 1)) :
    weighIn bits taps = .ok (weigh taps) := by
  -- from any sum on that leaves room for the rest
  have hfrom : ∀ total : Int, total.natAbs + bound * mass (taps.map Prod.snd) < 2 ^ (bits - 1) →
      taps.foldlM (fun total tap => do fit bits (total + (← fit bits (tap.1 * tap.2)))) total =
        .ok (total + weigh taps) := by
    clear hfits
    induction taps with
    | nil =>
      intro total _
      simp [weigh, pure, Except.pure]
    | cons tap taps ih =>
      intro total hroom
      have hproduct : (tap.1 * tap.2).natAbs ≤ bound * tap.2.natAbs := by
        rw [Int.natAbs_mul]
        exact Nat.mul_le_mul_right _ (h tap (by simp))
      have hadd := Int.natAbs_add_le total (tap.1 * tap.2)
      have hrest := ih (fun tap h' => h tap (by simp [h'])) (total + tap.1 * tap.2)
      simp only [mass, List.map_cons, List.sum_cons, Nat.mul_add] at hroom hrest
      rw [List.foldlM_cons]
      refine bind_eq_ok_iff.mpr ⟨total + tap.1 * tap.2, ?_, ?_⟩
      · exact bind_eq_ok_iff.mpr ⟨_, fit_eq_ok (by omega), fit_eq_ok (by omega)⟩
      · rw [hrest (by omega)]
        rw [weigh_cons, Int.add_assoc]
  have hsum := hfrom 0 (by simpa using hfits)
  rwa [Int.zero_add] at hsum

end Resampling.Kernel
