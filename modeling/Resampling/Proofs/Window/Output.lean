import Resampling.Proofs.Codec
import Resampling.Proofs.Window.Contents

-- Output rows. A row depends on the source rows under its taps and on nothing else of the
-- window, and part of a row is that part of the whole row.

namespace Resampling

variable {n : Nat} {S W T : Type} [Element S]

namespace Plan

-- Source rows, one for each tap, filtered across and blended down the columns
def blended (plan : Plan n S W T) (lines : Nat → Array UInt8) (weights : List W) :
    Array (Vector S n) :=
  plan.xmap.rows.map fun r =>
    plan.kernel.blend
      (((List.range plan.taps).map fun k => plan.tap (plan.pixels (lines k)) r).zip weights)

-- The output row that they make. For sharpening `slot` tells which of them is sharpened.
def combine (plan : Plan n S W T) (lines : Nat → Array UInt8) (weights : List W) (slot : Nat) :
    Array (Vector S n) :=
  match plan.sharpening with
  | none => plan.blended lines weights
  | some sharpening =>
    Array.zipWith (plan.kernel.sharpen sharpening) (plan.pixels (lines slot))
      (plan.blended lines weights)

-- The tap that is nearest to output row `y` if the axis keeps its length
def nearestTap (plan : Plan n S W T) (y anchor : Nat) : Nat := min (y - anchor) (plan.taps - 1)

-- Output row `y` as a function of the source rows: no window, no history
def referenceRow (plan : Plan n S W T) (row : Nat → Array UInt8) (y : Nat) :
    Array (Vector S n) :=
  match plan.ymap.rows[y]? with
  | none => #[]
  | some r => plan.combine (fun k => row (r.anchor + k)) r.weights (plan.nearestTap y r.anchor)

variable {plan : Plan n S W T}

@[simp]
theorem size_blended (plan : Plan n S W T) (lines : Nat → Array UInt8) (weights : List W) :
    (plan.blended lines weights).size = plan.xmap.rows.size := by
  simp [blended]

theorem combine_congr {lines lines' : Nat → Array UInt8} (h : ∀ k < plan.taps, lines k = lines' k)
    (weights : List W) {slot : Nat} (hslot : slot < plan.taps) :
    plan.combine lines weights slot = plan.combine lines' weights slot := by
  have hblended : plan.blended lines weights = plan.blended lines' weights := by
    have htaps : ∀ r, (List.range plan.taps).map (fun k => plan.tap (plan.pixels (lines k)) r) =
        (List.range plan.taps).map fun k => plan.tap (plan.pixels (lines' k)) r := by
      intro r
      apply List.map_congr_left
      intro k hk
      rw [h k (List.mem_range.mp hk)]
    unfold blended
    simp only [htaps]
  unfold combine
  rw [hblended, h slot hslot]

theorem nearestTap_lt (hsound : plan.Sound) (y anchor : Nat) :
    plan.nearestTap y anchor < plan.taps := by
  have htaps := hsound.taps_pos
  unfold nearestTap
  omega

theorem size_combine (hsound : plan.Sound) (lines : Nat → Array UInt8) (weights : List W)
    (slot : Nat) : (plan.combine lines weights slot).size = plan.xmap.outPixels := by
  unfold combine
  cases hsharpening : plan.sharpening with
  | none => rw [size_blended, hsound.xmap.size_rows]
  | some sharpening =>
    have hwidth := hsound.width_eq (by rw [hsharpening]; rfl)
    simp only [Array.size_zipWith, size_pixels, size_blended, hsound.xmap.size_rows, hwidth,
      Nat.min_self]

variable {window : Window n T} {lines : Nat → Array UInt8}

theorem extract_column (hfits : window.Fits plan) (hsound : plan.Sound)
    (hkeeps : ∀ k < plan.taps, window.Keeps plan k (lines k)) {x : Nat}
    (hx : x < plan.xmap.rows.size) :
    (window.slots.extract (x * plan.taps) (x * plan.taps + plan.taps)).toList =
      (List.range plan.taps).map fun k => plan.tap (plan.pixels (lines k)) plan.xmap.rows[x] := by
  have hend := plan.column_le (hsound.xmap.size_rows ▸ hx)
  apply List.ext_getElem?
  intro k
  rw [Array.getElem?_toList, Array.getElem?_extract, List.getElem?_map]
  by_cases hk : k < plan.taps
  · have hcolumn := (hkeeps k hk).column x hx
    rw [if_pos (by rw [hfits.size_slots]; omega), hcolumn, List.getElem?_range hk]
    rfl
  · have hlength : (List.range plan.taps).length ≤ k := by
      rw [List.length_range]
      omega
    rw [if_neg (by omega), List.getElem?_eq_none hlength]
    rfl

theorem blendRow_eq (hfits : window.Fits plan) (hsound : plan.Sound)
    (hkeeps : ∀ k < plan.taps, window.Keeps plan k (lines k)) (weights : List W) {x width : Nat}
    (hx : x + width ≤ plan.xmap.outPixels) :
    plan.blendRow window.slots weights x width =
      .ok ((plan.blended lines weights).extract x (x + width)) := by
  have hsize := hsound.xmap.size_rows
  have hcolumns : (Array.range width).mapM (fun i => do
      let column ← Span.read n window.slots ((x + i) * plan.taps) plan.taps
      return plan.kernel.blend (column.toList.zip weights)) =
      .ok ((Array.range width).map fun i => plan.kernel.blend
        ((window.slots.extract ((x + i) * plan.taps) ((x + i) * plan.taps + plan.taps)).toList.zip
          weights)) := by
    apply array_mapM_eq_ok
    intro i hi
    have hi : i < width := by simpa using hi
    have hend := plan.column_le (show x + i < plan.xmap.outPixels by omega)
    have hwords := Nat.lt_of_le_of_lt (Nat.mul_le_mul_right n hend) hsound.slots_lt
    rw [← hfits.size_slots] at hend
    have hread : Span.read n window.slots ((x + i) * plan.taps) plan.taps =
        .ok (window.slots.extract ((x + i) * plan.taps) ((x + i) * plan.taps + plan.taps)) :=
      Span.read_eq_ok_iff.mpr ⟨⟨hend, hwords⟩, rfl⟩
    rw [hread]
    rfl
  refine bind_eq_ok_iff.mpr ⟨plan.kernel, hsound.dispatch_eq, ?_⟩
  rw [hcolumns]
  refine congrArg Except.ok (Array.ext ?_ fun i hi _ => ?_)
  · rw [Array.size_map, Array.size_range, Array.size_extract, size_blended]
    omega
  · rw [Array.size_map, Array.size_range] at hi
    rw [Array.getElem_map, Array.getElem_range, Array.getElem_extract,
      extract_column hfits hsound hkeeps (show x + i < plan.xmap.rows.size by omega)]
    simp only [blended, Array.getElem_map]

theorem slotOf_eq (hsound : plan.Sound) {anchor : Nat} (hstart : window.start = some anchor)
    (hanchor : anchor < 0x1_0000_0000) {y : Nat} (hy : y < 0x1_0000_0000) :
    plan.slotOf window y = .ok (plan.nearestTap y anchor) := by
  have htaps := hsound.taps_pos
  have hroom : 0x1_0000_0000 < Word.signedLimit := by decide
  unfold slotOf Window.signedStart
  rw [hstart, Span.signed_eq_ok (by omega) (by omega)]
  simp only [bind, Except.bind, pure, Except.pure]
  rw [Span.signed_eq_ok (by omega) (by omega)]
  simp only [Except.ok.injEq]
  unfold FixedPoint.clamp nearestTap
  omega

theorem keptRow_eq [LocalElement S] (hfits : window.Fits plan) (hsound : plan.Sound)
    (hsharpen : plan.sharpening.isSome) {slot : Nat} (hslot : slot < plan.taps)
    {line : Array UInt8} (hkeeps : window.Keeps plan slot line) {x width : Nat}
    (hx : x + width ≤ plan.xmap.inPixels) :
    plan.keptRow window slot x width = .ok ((plan.pixels line).extract x (x + width)) := by
  have hlines := hsound.lines_lt
  have hposition := plan.linePosition_add_le hslot
  rw [linePosition, if_pos hsharpen] at hposition
  have hpart := Nat.mul_le_mul_right (Element.size (Vector S n)) hx
  have hin : (x + width) * Element.size (Vector S n) ≤ plan.rowBytes := hpart
  have hsplit : (x + width) * Element.size (Vector S n) =
      x * Element.size (Vector S n) + width * Element.size (Vector S n) := Nat.add_mul ..
  have hbytes : Span.read 1 window.lines
      (slot * plan.rowBytes + x * Element.size (Vector S n))
      (width * Element.size (Vector S n)) =
      .ok (line.extract (x * Element.size (Vector S n))
        ((x + width) * Element.size (Vector S n))) := by
    rw [Span.read_eq_ok_iff, hfits.size_lines]
    refine ⟨⟨by omega, by omega⟩, ?_⟩
    rw [← hkeeps.line hsharpen, Array.extract_extract, Nat.min_eq_left (by omega), hsplit,
      Nat.add_assoc]
  have hdecode := Element.decodeRow_extract (α := Vector S n) line hx
  refine bind_eq_ok_iff.mpr ⟨_, hbytes, ?_⟩
  rw [hdecode]
  rfl

-- A loaded window gives any part of the rows over it
theorem outputRow_eq [LocalElement S] (hfits : window.Fits plan) (hsound : plan.Sound)
    {anchor : Nat} (hstart : window.start = some anchor)
    (hkeeps : ∀ k < plan.taps, window.Keeps plan k (lines k)) (weights : List W) {y x width : Nat}
    (hx : x + width ≤ plan.xmap.outPixels) (hy : y < plan.ymap.outPixels) :
    plan.outputRow window weights y x width =
      .ok ((plan.combine lines weights (plan.nearestTap y anchor)).extract x (x + width)) := by
  have hout := hsound.xmap.outPixels_lt
  have hrows := hsound.ymap.outPixels_lt
  have hsource := hsound.ymap.inPixels_lt
  have hanchor := hfits.start_le anchor hstart
  have hword : Span.word (x + width) = .ok (x + width) :=
    Span.word_eq_ok (by unfold Word.limit; omega)
  have hcheck : Span.check n 0 width plan.xmap.outPixels = .ok () := by
    have hle : plan.xmap.outPixels ≤ plan.xmap.outPixels * plan.taps :=
      Nat.le_mul_of_pos_right _ hsound.taps_pos
    have hwidth := Nat.mul_le_mul_right n (show width ≤ plan.xmap.outPixels * plan.taps by omega)
    rw [Span.check_eq_ok_iff, Nat.zero_add]
    exact ⟨by omega, Nat.lt_of_le_of_lt hwidth hsound.slots_lt⟩
  have hblended := blendRow_eq hfits hsound hkeeps weights hx
  refine bind_eq_ok_iff.mpr ⟨_, hword, bind_eq_ok_iff.mpr ⟨_, hcheck,
    bind_eq_ok_iff.mpr ⟨_, hblended, ?_⟩⟩⟩
  unfold combine
  cases hsharpening : plan.sharpening with
  | none => rfl
  | some sharpening =>
    have hsharpen : plan.sharpening.isSome := by
      rw [hsharpening]
      rfl
    have hslot := slotOf_eq hsound hstart (by omega) (show y < 0x1_0000_0000 by omega)
    have hnearest := nearestTap_lt hsound y anchor
    have hin : x + width ≤ plan.xmap.inPixels := by rwa [hsound.width_eq hsharpen]
    have hkept := keptRow_eq hfits hsound hsharpen hnearest (hkeeps _ hnearest) hin
    refine bind_eq_ok_iff.mpr ⟨_, hsound.dispatch_eq, bind_eq_ok_iff.mpr ⟨_, hslot,
      bind_eq_ok_iff.mpr ⟨_, hkept, ?_⟩⟩⟩
    simp only [Array.extract_zipWith]
    rfl

end Plan

end Resampling
