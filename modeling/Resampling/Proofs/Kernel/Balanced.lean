import Resampling.Proofs.Kernel.Rounding

-- Rows of weights that sum to one. They leave alone what does not vary under their taps, and if no
-- weight is negative they order what they weigh as the samples are ordered.

namespace Resampling

namespace AxisMap

open FixedPoint Kernel

-- The weights make up one exactly
def Row.Balanced (r : Row Int) : Prop := r.weights.sum = one

-- An average: no weight is negative
structure Row.Averaging (r : Row Int) : Prop where
  balanced : r.Balanced
  nonneg : ∀ w ∈ r.weights, 0 ≤ w

-- Tap `k` has all the weight
structure Row.Picks (r : Row Int) (k : Nat) : Prop where
  lt : k < r.weights.length
  weight_eq : ∀ i (hi : i < r.weights.length), r.weights[i] = if i = k then one else 0

instance (r : Row Int) (k : Nat) : Decidable (r.Picks k) :=
  decidable_of_iff
    (k < r.weights.length ∧
      ∀ i (hi : i < r.weights.length), r.weights[i] = if i = k then one else 0)
    ⟨fun h => ⟨h.1, h.2⟩, fun h => ⟨h.lt, h.weight_eq⟩⟩

def Balanced (map : AxisMap Int) : Prop := ∀ r ∈ map.rows, r.Balanced

def Averaging (map : AxisMap Int) : Prop := ∀ r ∈ map.rows, r.Averaging

instance (map : AxisMap Int) : Decidable map.Balanced :=
  inferInstanceAs (Decidable (∀ r ∈ map.rows, r.weights.sum = one))

instance (map : AxisMap Int) : Decidable map.Averaging :=
  decidable_of_iff (∀ r ∈ map.rows, r.weights.sum = one ∧ ∀ w ∈ r.weights, 0 ≤ w)
    ⟨fun h r hr => ⟨(h r hr).1, (h r hr).2⟩, fun h r hr => ⟨(h r hr).balanced, (h r hr).nonneg⟩⟩

namespace Row

variable {r : Row Int} {A B : Type}

-- Whatever is made of the values under the taps, weighing them gives what is made of `v`
def Settles (r : Row Int) (value : Nat → A) (v : A) : Prop :=
  ∀ f : A → Int, weigh (r.taps fun k => f (value k)) = one * f v

theorem Settles.map {value : Nat → A} {v : A} (h : r.Settles value v) (f : A → B) :
    r.Settles (fun k => f (value k)) (f v) :=
  fun g => h fun a => g (f a)

theorem Balanced.settles {value : Nat → A} {v : A} (h : r.Balanced)
    (hvalue : ∀ k < r.weights.length, value k = v) : r.Settles value v := by
  intro f
  have hsum : ∑ k : Fin r.weights.length, r.weights[k] = one := by
    have hweights := Fin.sum_univ_fun_getElem r.weights id
    simp only [id_eq, List.map_id] at hweights
    exact hweights.trans h
  rw [taps_congr fun k hk => congrArg f (hvalue k hk), weigh_taps_eq_sum, ← Finset.mul_sum, hsum,
    mul_comm]

theorem Picks.settles {k : Nat} (h : r.Picks k) (value : Nat → A) :
    r.Settles value (value k) := by
  intro f
  rw [weigh_taps_eq_sum, Finset.sum_eq_single (⟨k, h.lt⟩ : Fin r.weights.length)]
  · rw [Fin.getElem_fin, h.weight_eq k h.lt, if_pos rfl, mul_comm]
  · intro i _ hi
    rw [Fin.getElem_fin, h.weight_eq i i.isLt, if_neg fun heq => hi (Fin.ext heq), mul_zero]
  · exact fun hk => absurd (Finset.mem_univ _) hk

theorem Averaging.weigh_taps_le {f g : Nat → Int} (h : r.Averaging)
    (hle : ∀ k < r.weights.length, f k ≤ g k) : weigh (r.taps f) ≤ weigh (r.taps g) := by
  rw [weigh_taps_eq_sum, weigh_taps_eq_sum]
  apply Finset.sum_le_sum
  intro k _
  exact mul_le_mul_of_nonneg_right (hle k k.isLt) (h.nonneg _ (List.getElem_mem k.isLt))

theorem Averaging.mass_le (h : r.Averaging) : Kernel.mass r.weights ≤ Kernel.maxMass := by
  have hmass := mass_of_nonneg h.nonneg
  rw [h.balanced] at hmass
  unfold one at hmass
  unfold Kernel.maxMass
  omega

end Row

end AxisMap

namespace Kernel

open FixedPoint AxisMap

variable {A B : Type} {rx ry : Row Int}

-- Both rows leave of a window what they leave of `v` alone: each row of it comes down to one value,
-- and these to `v`
def Settled (value : Nat → Nat → A) (rx ry : Row Int) (v : A) : Prop :=
  ∃ column : Nat → A,
    (∀ k < ry.weights.length,
      rx.Settles (fun j => value (rx.anchor + j) (ry.anchor + k)) (column k)) ∧
    ry.Settles column v

theorem Settled.map {value : Nat → Nat → A} {v : A} (h : Settled value rx ry v) (f : A → B) :
    Settled (fun x y => f (value x y)) rx ry (f v) := by
  obtain ⟨column, hrow, hcolumn⟩ := h
  exact ⟨fun k => f (column k), fun k hk => (hrow k hk).map f, hcolumn.map f⟩

theorem settled_of_forall_eq {value : Nat → Nat → A} {v : A} (hx : rx.Balanced) (hy : ry.Balanced)
    (h : ∀ j < rx.weights.length, ∀ k < ry.weights.length,
      value (rx.anchor + j) (ry.anchor + k) = v) : Settled value rx ry v :=
  ⟨fun _ => v, fun k hk => hx.settles fun j hj => h j hj k hk, hy.settles fun _ _ => rfl⟩

theorem settled_of_picks (value : Nat → Nat → A) {j k : Nat} (hx : rx.Picks j) (hy : ry.Picks k) :
    Settled value rx ry (value (rx.anchor + j) (ry.anchor + k)) :=
  ⟨fun k => value (rx.anchor + j) (ry.anchor + k),
    fun k _ => hx.settles fun j => value (rx.anchor + j) (ry.anchor + k), hy.settles _⟩

theorem roundShift_mono (k : Nat) {x y : Int} (h : x ≤ y) : roundShift k x ≤ roundShift k y := by
  rw [roundShift_eq, roundShift_eq]
  exact Int.ediv_le_ediv (by positivity) (by omega)

-- Averages of averages, rounded twice, are ordered as the samples are
theorem rounded_mono (p q : Nat) (hx : rx.Averaging) (hy : ry.Averaging)
    {value value' : Nat → Nat → Int}
    (h : ∀ j < rx.weights.length, ∀ k < ry.weights.length,
      value (rx.anchor + j) (ry.anchor + k) ≤ value' (rx.anchor + j) (ry.anchor + k)) :
    rounded p q value rx ry ≤ rounded p q value' rx ry := by
  have hrow : ∀ k < ry.weights.length, rowSum value rx ry k ≤ rowSum value' rx ry k :=
    fun k hk => hx.weigh_taps_le fun j hj => h j hj k hk
  exact roundShift_mono q (hy.weigh_taps_le fun k hk => roundShift_mono p (hrow k hk))

end Kernel

end Resampling
