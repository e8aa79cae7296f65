import Resampling.Proofs.Window.Rows

-- Reading downward. Where the anchors of an axis never go back, rows that are asked for from the
-- top down pull source rows from the top down, each once.

namespace Resampling

def AxisMap.Ordered {W : Type} (map : AxisMap W) : Prop :=
  map.rows.toList.Pairwise fun r later => r.anchor ≤ later.anchor

instance {W : Type} (map : AxisMap W) : Decidable map.Ordered :=
  inferInstanceAs (Decidable (List.Pairwise _ _))

namespace Window

-- A window that moves on lacks rows past its end only
theorem mem_missing_some {start anchor taps y : Nat} (hstart : start ≤ anchor)
    (hy : y ∈ missing (some start) taps anchor) : start + taps ≤ y ∧ y < anchor + taps := by
  have hkept := kept_le (some start) taps anchor
  unfold missing at hy
  rw [List.mem_range'_1] at hy
  simp only [kept, if_neg (Nat.not_lt_of_le hstart)] at hy hkept
  omega

theorem mem_missing_lt {start : Option Nat} {anchor taps y : Nat}
    (hy : y ∈ missing start taps anchor) : y < anchor + taps := by
  have hkept := kept_le start taps anchor
  unfold missing at hy
  rw [List.mem_range'_1] at hy
  omega

theorem pairwise_missing (start : Option Nat) (taps anchor : Nat) :
    (missing start taps anchor).Pairwise (· < ·) := List.pairwise_lt_range'

end Window

namespace Plan

variable {n : Nat} {S W T : Type} {plan : Plan n S W T}

theorem anchor_mono (hordered : plan.ymap.Ordered) {y later : Nat} (hle : y ≤ later)
    (hlater : later < plan.ymap.rows.size) : plan.anchor y ≤ plan.anchor later := by
  rcases Nat.eq_or_lt_of_le hle with rfl | hlt
  · exact Nat.le_refl _
  · have hy : y < plan.ymap.rows.size := Nat.lt_trans hlt hlater
    have hanchors := List.pairwise_iff_getElem.mp hordered y later (by simpa using hy)
      (by simpa using hlater) hlt
    simpa [anchor, hy, hlater] using hanchors

theorem anchors_of_pairwise (hordered : plan.ymap.Ordered) {y : Nat} {ys : List Nat}
    (hys : (y :: ys).Pairwise (· ≤ ·)) (hrows : ∀ later ∈ y :: ys, later < plan.ymap.rows.size) :
    ∀ later ∈ ys, plan.anchor y ≤ plan.anchor later := by
  intro later hlater
  have hmem := List.mem_cons_of_mem y hlater
  exact anchor_mono hordered (List.rel_of_pairwise_cons hys hlater) (hrows later hmem)

-- A window at `start` is asked for nothing above its end, as long as it does not go back
theorem le_of_mem_pulls (hordered : plan.ymap.Ordered) {ys : List Nat}
    (hys : ys.Pairwise (· ≤ ·)) (hrows : ∀ y ∈ ys, y < plan.ymap.rows.size) {start : Nat}
    (hstart : ∀ y ∈ ys, start ≤ plan.anchor y) {z : Nat}
    (hz : z ∈ plan.pulls (some start) ys) : start + plan.taps ≤ z := by
  induction ys generalizing start with
  | nil => exact absurd hz List.not_mem_nil
  | cons y ys ih =>
    have hfirst := hstart y List.mem_cons_self
    rcases List.mem_append.mp hz with hz | hz
    · exact (Window.mem_missing_some hfirst hz).1
    · have hpast := ih hys.of_cons (fun later h => hrows later (List.mem_cons_of_mem y h))
        (anchors_of_pairwise hordered hys hrows) hz
      exact Nat.le_trans (Nat.add_le_add_right hfirst _) hpast

-- Rows in order pull rows in strict order, wherever the window was before
theorem pairwise_pulls (hordered : plan.ymap.Ordered) {ys : List Nat} (hys : ys.Pairwise (· ≤ ·))
    (hrows : ∀ y ∈ ys, y < plan.ymap.rows.size) (start : Option Nat) :
    (plan.pulls start ys).Pairwise (· < ·) := by
  induction ys generalizing start with
  | nil => exact List.Pairwise.nil
  | cons y ys ih =>
    have hrest : ∀ later ∈ ys, later < plan.ymap.rows.size :=
      fun later h => hrows later (List.mem_cons_of_mem y h)
    refine List.pairwise_append.mpr
      ⟨Window.pairwise_missing _ _ _, ih hys.of_cons hrest _, fun z hz later hlater => ?_⟩
    have hpast := le_of_mem_pulls hordered hys.of_cons hrest
      (anchors_of_pairwise hordered hys hrows) hlater
    exact Nat.lt_of_lt_of_le (Window.mem_missing_lt hz) hpast

end Plan

end Resampling
