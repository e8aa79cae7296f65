import Resampling.Proofs.Axis
import Resampling.Proofs.Span
import Resampling.Window

-- What the window holds. A slot keeps a source row if every column has in it what that row gives
-- to the column; moving and filling slots is described by the rows that are kept.

namespace Resampling

variable {n : Nat} {S W T : Type} [Element S]

namespace Plan

def lineRows (plan : Plan n S W T) : Nat := if plan.sharpening.isSome then plan.taps else 1

-- What holds of a plan since it was set up. Its buffers have been lent, so their lengths are
-- words.
structure Sound (plan : Plan n S W T) : Prop where
  channels : 1 ≤ n ∧ n ≤ 4
  xmap : plan.xmap.Sized
  ymap : plan.ymap.Sized
  row_lt : plan.xmap.inPixels * n < Word.limit
  slots_lt : plan.xmap.outPixels * plan.taps * n < Word.limit
  lines_lt : plan.lineRows * plan.rowBytes < Word.limit
  -- sharpening compares columns of the source and of the result
  width_eq : plan.sharpening.isSome → plan.xmap.inPixels = plan.xmap.outPixels

def pixels (plan : Plan n S W T) (line : Array UInt8) : Array (Vector S n) :=
  Element.decodeRow (Vector S n) plan.xmap.inPixels line 0

-- What a source row gives to an output column
def tap (plan : Plan n S W T) (row : Array (Vector S n)) (r : AxisMap.Row W) : Vector T n :=
  plan.kernel.gather ((row.extract r.anchor (r.anchor + plan.xmap.samples)).toList.zip r.weights)

-- All of a source row filtered across
def filtered (plan : Plan n S W T) (line : Array UInt8) : Array (Vector T n) :=
  plan.xmap.rows.map (plan.tap (plan.pixels line))

-- The window with a source row in one of its slots
def store (plan : Plan n S W T) (window : Window n T) (slot : Nat) (line : Array UInt8) :
    Window n T :=
  { window with
    lines := Span.overwrite window.lines (plan.linePosition slot) line
    slots := Span.scatter window.slots slot plan.taps (plan.filtered line).toList }

@[simp]
theorem size_pixels (plan : Plan n S W T) (line : Array UInt8) :
    (plan.pixels line).size = plan.xmap.inPixels := by
  simp [pixels]

@[simp]
theorem size_filtered (plan : Plan n S W T) (line : Array UInt8) :
    (plan.filtered line).size = plan.xmap.rows.size := by
  simp [filtered]

theorem linePosition_add_le (plan : Plan n S W T) {slot : Nat} (hslot : slot < plan.taps) :
    plan.linePosition slot + plan.rowBytes ≤ plan.lineRows * plan.rowBytes := by
  unfold linePosition lineRows
  split
  · calc slot * plan.rowBytes + plan.rowBytes = (slot + 1) * plan.rowBytes := by
          rw [Nat.succ_mul]
      _ ≤ plan.taps * plan.rowBytes := Nat.mul_le_mul_right _ hslot
  · omega

omit [Element S] in
theorem column_le (plan : Plan n S W T) {x : Nat} (hx : x < plan.xmap.outPixels) :
    x * plan.taps + plan.taps ≤ plan.xmap.outPixels * plan.taps :=
  calc x * plan.taps + plan.taps = (x + 1) * plan.taps := by rw [Nat.succ_mul]
    _ ≤ plan.xmap.outPixels * plan.taps := Nat.mul_le_mul_right _ hx

variable {plan : Plan n S W T}

namespace Sound

theorem taps_pos (h : plan.Sound) : 0 < plan.taps := h.ymap.samples_pos

theorem dispatch_eq (h : plan.Sound) : plan.dispatch = .ok plan.kernel := by
  unfold dispatch
  rw [if_pos h.channels]

theorem lineRows_pos (h : plan.Sound) : 0 < plan.lineRows := by
  have htaps := h.taps_pos
  unfold lineRows
  split <;> omega

theorem filterRow_eq (h : plan.Sound) (line : Array UInt8) :
    plan.filterRow (plan.pixels line) = .ok (plan.filtered line) := by
  have hrows : plan.xmap.rows.mapM (fun r => do
      let pixels ← Span.read n (plan.pixels line) r.anchor plan.xmap.samples
      return plan.kernel.gather (pixels.toList.zip r.weights)) = .ok (plan.filtered line) := by
    apply array_mapM_eq_ok
    intro r hr
    have hanchor := h.xmap.anchor_le r hr
    have hread : Span.read n (plan.pixels line) r.anchor plan.xmap.samples =
        .ok ((plan.pixels line).extract r.anchor (r.anchor + plan.xmap.samples)) := by
      rw [Span.read_eq_ok_iff, size_pixels]
      exact ⟨⟨hanchor, Nat.lt_of_le_of_lt (Nat.mul_le_mul_right _ hanchor) h.row_lt⟩, rfl⟩
    rw [hread]
    rfl
  exact bind_eq_ok_iff.mpr ⟨plan.kernel, h.dispatch_eq,
    guard_eq_ok_iff.mpr ⟨Nat.ne_of_gt h.xmap.samples_pos, hrows⟩⟩

end Sound

end Plan

namespace Window

-- The buffers are as long as they were lent, and a loaded window lies in the source
structure Fits (window : Window n T) (plan : Plan n S W T) : Prop where
  size_slots : window.slots.size = plan.xmap.outPixels * plan.taps
  size_lines : window.lines.size = plan.lineRows * plan.rowBytes
  start_le : ∀ start, window.start = some start → start + plan.taps ≤ plan.ymap.inPixels

-- A slot keeps a source row
structure Keeps (window : Window n T) (plan : Plan n S W T) (slot : Nat) (line : Array UInt8) :
    Prop where
  column : ∀ x (hx : x < plan.xmap.rows.size),
    window.slots[x * plan.taps + slot]? = some (plan.tap (plan.pixels line) plan.xmap.rows[x])
  line : plan.sharpening.isSome →
    window.lines.extract (slot * plan.rowBytes) (slot * plan.rowBytes + plan.rowBytes) = line

-- The first slots keep rows of the source from `start` on, as far as `Row` tells what these are
def Filled (window : Window n T) (plan : Plan n S W T) (Row : Nat → Array UInt8 → Prop)
    (start count : Nat) : Prop :=
  ∀ slot < count, ∃ line, Row (start + slot) line ∧ window.Keeps plan slot line

-- A window that is loaded is loaded in all slots
def Holds (window : Window n T) (plan : Plan n S W T) (Row : Nat → Array UInt8 → Prop) : Prop :=
  ∀ start, window.start = some start → window.Filled plan Row start plan.taps

variable {plan : Plan n S W T} {window : Window n T}

theorem holds_of_start_eq_none {Row : Nat → Array UInt8 → Prop} (h : window.start = none) :
    window.Holds plan Row := by
  intro start hstart
  rw [h] at hstart
  cases hstart

theorem Filled.holds {Row : Nat → Array UInt8 → Prop} {start : Nat}
    (h : window.Filled plan Row start plan.taps) (hstart : window.start = some start) :
    window.Holds plan Row := by
  intro other hother
  rw [hstart] at hother
  cases hother
  exact h

theorem Filled.exists_lines {Row : Nat → Array UInt8 → Prop} {start count : Nat}
    (h : window.Filled plan Row start count) :
    ∃ lines : Nat → Array UInt8,
      ∀ slot < count, Row (start + slot) (lines slot) ∧ window.Keeps plan slot (lines slot) := by
  have hslots : ∀ slot, ∃ line, slot < count →
      Row (start + slot) line ∧ window.Keeps plan slot line := by
    intro slot
    by_cases hslot : slot < count
    · obtain ⟨line, hline⟩ := h slot hslot
      exact ⟨line, fun _ => hline⟩
    · exact ⟨#[], fun h => absurd h hslot⟩
  exact Classical.skolem.mp hslots

theorem Keeps.of_start {slot : Nat} {line : Array UInt8} (h : window.Keeps plan slot line)
    (start : Option Nat) : Keeps { window with start := start } plan slot line :=
  ⟨h.column, h.line⟩

theorem Filled.of_start {Row : Nat → Array UInt8 → Prop} {first count : Nat}
    (h : window.Filled plan Row first count) (start : Option Nat) :
    Filled { window with start := start } plan Row first count := by
  intro slot hslot
  obtain ⟨line, hrow, hkeeps⟩ := h slot hslot
  exact ⟨line, hrow, hkeeps.of_start start⟩

theorem Fits.store (hfits : window.Fits plan) (slot : Nat) (line : Array UInt8) :
    (plan.store window slot line).Fits plan where
  size_slots := by rw [Plan.store, Span.size_scatter, hfits.size_slots]
  size_lines := by rw [Plan.store, Span.size_overwrite, hfits.size_lines]
  start_le := hfits.start_le

theorem keeps_store (hsound : plan.Sound) (hfits : window.Fits plan) {slot : Nat}
    (hslot : slot < plan.taps) {line : Array UInt8} (hline : line.size = plan.rowBytes) :
    (plan.store window slot line).Keeps plan slot line where
  column x hx := by
    have hcolumn := plan.column_le (hsound.xmap.size_rows ▸ hx)
    have hscatter := Span.getElem?_scatter window.slots slot plan.taps
      (plan.filtered line).toList hsound.taps_pos x (by simpa using hx)
      (by rw [hfits.size_slots]; omega)
    rw [Plan.store, Nat.add_comm, hscatter]
    simp [Plan.filtered]
  line hsharpen := by
    have hposition := plan.linePosition_add_le hslot
    have hwhere : plan.linePosition slot = slot * plan.rowBytes := by
      rw [Plan.linePosition, if_pos hsharpen]
    rw [Plan.store, hwhere, ← hline]
    apply Span.extract_overwrite
    rw [hfits.size_lines, hline]
    omega

theorem Keeps.store {slot other : Nat} {kept line : Array UInt8}
    (h : window.Keeps plan other kept) (hslot : slot < plan.taps) (hother : other < plan.taps)
    (hne : other ≠ slot) (hline : line.size = plan.rowBytes) :
    (plan.store window slot line).Keeps plan other kept where
  column x hx := by
    rw [Plan.store, Span.getElem?_scatter_of_forall_ne, h.column x hx]
    -- positions of different slots differ modulo the number of slots
    intro k _ heq
    have hmod := congrArg (· % plan.taps) heq
    simp only [Nat.add_mul_mod_self_right, Nat.mul_add_mod_self_right, Nat.mod_eq_of_lt hslot,
      Nat.mod_eq_of_lt hother] at hmod
    exact hne hmod.symm
  line hsharpen := by
    rw [Plan.store, Span.extract_overwrite_of_disjoint, h.line hsharpen]
    rw [Plan.linePosition, if_pos hsharpen, hline]
    rcases Nat.lt_or_gt_of_ne hne with hlt | hgt
    · have hle := Nat.mul_le_mul_right plan.rowBytes hlt
      rw [Nat.succ_mul] at hle
      omega
    · have hle := Nat.mul_le_mul_right plan.rowBytes hgt
      rw [Nat.succ_mul] at hle
      omega

end Window

end Resampling
