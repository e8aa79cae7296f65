import Resampling.Proofs.Kernel.Range

-- Output samples as functions of what lies under their taps. A row of a table weighs values of
-- any kind, and both passes are such sums one after the other.

namespace Resampling

namespace AxisMap.Row

variable {W A B : Type}

-- The values under the taps of a row, with their weights
def taps (r : Row W) (value : Nat → A) : List (A × W) :=
  r.weights.zipIdx.map fun entry => (value entry.2, entry.1)

theorem zip_eq_taps {r : Row W} {values : List A} {value : Nat → A}
    (h : ∀ k < r.weights.length, values[k]? = some (value k)) :
    values.zip r.weights = r.taps value := by
  apply List.ext_getElem?
  intro k
  rw [taps, List.getElem?_map, List.getElem?_zipIdx, Nat.zero_add, List.zip_eq_zipWith,
    List.getElem?_zipWith]
  by_cases hk : k < r.weights.length
  · rw [h k hk, List.getElem?_eq_getElem hk]
    rfl
  · rw [List.getElem?_eq_none (Nat.le_of_not_lt hk)]
    cases values[k]? <;> rfl

@[simp]
theorem map_taps (r : Row W) (value : Nat → A) (f : A → B) :
    (r.taps value).map (fun tap => (f tap.1, tap.2)) = r.taps fun k => f (value k) := by
  rw [taps, List.map_map]
  rfl

theorem map_snd_taps (r : Row W) (value : Nat → A) : (r.taps value).map Prod.snd = r.weights := by
  rw [taps, List.map_map]
  exact List.zipIdx_map_fst 0 r.weights

theorem taps_congr {r : Row W} {value value' : Nat → A}
    (h : ∀ k < r.weights.length, value k = value' k) : r.taps value = r.taps value' := by
  apply List.map_congr_left
  intro entry hentry
  rw [h entry.2 (List.snd_lt_of_mem_zipIdx hentry)]

end AxisMap.Row

namespace Kernel

open AxisMap

variable {n : Nat} {A B T W : Type}

theorem plane_taps (c : Fin n) (r : Row W) (pixel : Nat → Vector A n) :
    plane c (r.taps pixel) = r.taps fun k => (pixel k).get c :=
  r.map_taps pixel fun pixel => pixel.get c

theorem alphaPlane_taps (r : Row W) (pixel : Nat → Vector A 4) :
    alphaPlane (r.taps pixel) = r.taps fun k => alphaOf (pixel k) :=
  r.map_taps pixel alphaOf

-- A pass across each source row and then one down the column
def throughBoth (gather : List (A × W) → T) (blend : List (T × W) → B) (value : Nat → Nat → A)
    (rx ry : Row W) : B :=
  blend (ry.taps fun k => gather (rx.taps fun j => value (rx.anchor + j) (ry.anchor + k)))

theorem throughBoth_congr {gather : List (A × W) → T} {blend : List (T × W) → B}
    {value value' : Nat → Nat → A} {rx ry : Row W}
    (h : ∀ j < rx.weights.length, ∀ k < ry.weights.length,
      value (rx.anchor + j) (ry.anchor + k) = value' (rx.anchor + j) (ry.anchor + k)) :
    throughBoth gather blend value rx ry = throughBoth gather blend value' rx ry := by
  have hgather : ∀ k < ry.weights.length,
      gather (rx.taps fun j => value (rx.anchor + j) (ry.anchor + k)) =
        gather (rx.taps fun j => value' (rx.anchor + j) (ry.anchor + k)) :=
    fun k hk => congrArg gather (AxisMap.Row.taps_congr fun j hj => h j hj k hk)
  rw [throughBoth, throughBoth, AxisMap.Row.taps_congr hgather]

end Kernel

-- The pixel that two rows of tables make of an image, sharpening apart
def RowKernel.outputPixel {n : Nat} {S W T : Type} (kernel : RowKernel n S W T)
    (pixel : Nat → Nat → Vector S n) (rx ry : AxisMap.Row W) : Vector S n :=
  Kernel.throughBoth kernel.gather kernel.blend pixel rx ry

namespace Kernel

open AxisMap

-- Weighted sums are linear in what is weighed
theorem weigh_taps_sub (r : Row Int) (a b : Int) (f g : Nat → Int) :
    weigh (r.taps fun k => a * f k - b * g k) =
      a * weigh (r.taps f) - b * weigh (r.taps g) := by
  unfold Row.taps
  induction r.weights.zipIdx with
  | nil => simp [weigh]
  | cons entry entries ih =>
    simp only [List.map_cons, weigh_cons, ih]
    ring

theorem weigh_taps_mul (r : Row Int) (a : Int) (f : Nat → Int) :
    weigh (r.taps fun k => a * f k) = a * weigh (r.taps f) := by
  simpa using weigh_taps_sub r a 0 f f

theorem natAbs_weigh_taps_le {r : Row Int} {value : Nat → Int} (bound : Nat)
    (h : ∀ k < r.weights.length, (value k).natAbs ≤ bound) :
    (weigh (r.taps value)).natAbs ≤ bound * mass r.weights := by
  have hvalue : ∀ tap ∈ r.taps value, tap.1.natAbs ≤ bound := by
    intro tap htap
    obtain ⟨entry, hentry, rfl⟩ := List.mem_map.mp htap
    exact h entry.2 (List.snd_lt_of_mem_zipIdx hentry)
  have hle := natAbs_weigh_le bound hvalue
  rwa [r.map_snd_taps] at hle

end Kernel

end Resampling
