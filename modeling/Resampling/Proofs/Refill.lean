import Resampling.Proofs.Reference
import Resampling.Proofs.Reliable

-- A window that moves on holds what a window that is loaded from nothing holds. The block that
-- moves takes values of the next column along into the slots that were given up; all of these are
-- filled again.

namespace Resampling

variable {n : Nat} {S W T : Type} [Element S] {plan : Plan n S W T}

namespace Window

variable {window other : Window n T}

-- Windows that keep the same rows in all slots are the same
theorem slots_eq_of_keeps (hsound : plan.Sound) (hfits : window.Fits plan)
    (hfits' : other.Fits plan) {lines : Nat → Array UInt8}
    (h : ∀ slot < plan.taps, window.Keeps plan slot (lines slot))
    (h' : ∀ slot < plan.taps, other.Keeps plan slot (lines slot)) : window.slots = other.slots := by
  apply Span.eq_of_blocks hfits.size_slots hfits'.size_slots
  intro x hx slot hslot
  have hrow : x < plan.xmap.rows.size := hsound.xmap.size_rows ▸ hx
  rw [(h slot hslot).column x hrow, (h' slot hslot).column x hrow]

theorem lines_eq_of_keeps (hsharpen : plan.sharpening.isSome) (hfits : window.Fits plan)
    (hfits' : other.Fits plan) {lines : Nat → Array UInt8}
    (h : ∀ slot < plan.taps, window.Keeps plan slot (lines slot))
    (h' : ∀ slot < plan.taps, other.Keeps plan slot (lines slot)) : window.lines = other.lines := by
  have hrows : plan.lineRows = plan.taps := if_pos hsharpen
  have hsize := hfits.size_lines
  have hsize' := hfits'.size_lines
  rw [hrows] at hsize hsize'
  apply Span.eq_of_blocks hsize hsize'
  intro slot hslot k hk
  have hend : slot * plan.rowBytes + plan.rowBytes ≤ plan.taps * plan.rowBytes := by
    rw [← Nat.succ_mul]
    exact Nat.mul_le_mul_right _ hslot
  have hline := ((h slot hslot).line hsharpen).trans ((h' slot hslot).line hsharpen).symm
  have hbyte := congrArg (·[k]?) hline
  simp only [Array.getElem?_extract] at hbyte
  rwa [if_pos (by omega), if_pos (by omega)] at hbyte

end Window

-- What the block that moves leaves in the slots that were given up, and why they cannot be kept:
-- the first slots of the next column
theorem Plan.getElem?_slid_of_le {window : Window n T} (hfits : window.Fits plan)
    {shift slot x : Nat} (hshift : shift ≤ plan.taps) (hgiven : plan.taps ≤ slot + shift)
    (hslot : slot < plan.taps) (hx : x + 1 < plan.xmap.outPixels) :
    (plan.slid window shift).slots[x * plan.taps + slot]? =
      window.slots[(x + 1) * plan.taps + (slot + shift - plan.taps)]? := by
  have hend := plan.column_le hx
  rw [Nat.succ_mul] at hend
  rw [slid, Span.getElem?_moveDown _ _ _ (by rw [hfits.size_slots]; omega), Nat.succ_mul]
  congr 1
  omega

-- A load where it does not matter which rows were pulled
theorem Plan.load_of_serves {σ : Type} [ImageSource σ] {I : σ → Prop}
    {Row : Nat → Array UInt8 → Prop} {E : Error → σ → Prop} {window : Window n T}
    (hsound : plan.Sound) (hserves : plan.Serves (fun _ source => I source) Row E)
    (hfits : window.Fits plan) (hholds : window.Holds plan Row) {anchor : Nat}
    (hanchor : anchor + plan.taps ≤ plan.ymap.inPixels) {source : σ} (hsource : I source) :
    (plan.load anchor source window).Satisfies
      (fun _ moved => moved.Fits plan ∧ moved.start = some anchor ∧
        moved.Filled plan Row anchor plan.taps)
      fun e source _ => E e source := by
  have hload := @load_satisfies _ _ _ _ _ _ _ _ _ _ _ _ hsound hserves hfits hholds _ hanchor
    source [] hsource
  exact hload.mono (fun _ _ h => h.2) fun _ _ _ h => h.1

namespace Engine

variable {format : PixelFormat} {engine : Engine format} {image : Picture}
  {σ τ : Type} [ImageSource σ] [ImageSource τ] {I : σ → Prop} {J : τ → Prop}

theorem keeps_of_filled {window : Window format.channels format.sample.Inner} {start : Nat}
    (h : window.Filled engine.plan (RowOf image) start engine.plan.taps) :
    ∀ slot < engine.plan.taps, window.Keeps engine.plan slot (image.row (start + slot)) := by
  intro slot hslot
  obtain ⟨line, rfl, hkeeps⟩ := h slot hslot
  exact hkeeps

theorem load_of_shows (hready : engine.Ready image.width image.height)
    (hformat : image.format = format) (hshows : Shows I image)
    {window : Window format.channels format.sample.Inner} (hfits : window.Fits engine.plan)
    (hholds : window.Holds engine.plan (RowOf image)) {anchor : Nat}
    (hanchor : anchor + engine.plan.taps ≤ image.height) {source : σ} (hsource : I source)
    (hok : (engine.plan.load anchor source window).result = .ok ()) :
    let loaded := (engine.plan.load anchor source window).state
    loaded.Fits engine.plan ∧ loaded.start = some anchor ∧
      ∀ slot < engine.plan.taps, loaded.Keeps engine.plan slot (image.row (anchor + slot)) := by
  have hload := Plan.load_of_serves hready.sound (serves_of_shows hready hformat hshows) hfits
    hholds (Nat.le_trans hanchor (Nat.le_of_eq hready.height_eq.symm)) hsource
  obtain ⟨hafter, hstart, hfilled⟩ := hload.of_ok hok
  exact ⟨hafter, hstart, keeps_of_filled hfilled⟩

theorem load_eq_ok (hready : engine.Ready image.width image.height)
    (hreliable : Reliable J format image.width image.height)
    {window : Window format.channels format.sample.Inner} (hfits : window.Fits engine.plan)
    (hnone : window.start = none) {anchor : Nat}
    (hanchor : anchor + engine.plan.taps ≤ image.height) {source : τ} (hsource : J source) :
    (engine.plan.load anchor source window).result = .ok () := by
  have hserves := serves_of_reliable (P := fun _ source => J source) hready hreliable
    (fun _ _ h => h) fun _ source _ hsource _ call _ => hreliable.step hsource call
  have hload := Plan.load_of_serves hready.sound hserves hfits
    (Window.holds_of_start_eq_none hnone)
    (Nat.le_trans hanchor (Nat.le_of_eq hready.height_eq.symm)) hsource
  cases hresult : (engine.plan.load anchor source window).result with
  | error e => exact (hload.of_error hresult).elim
  | ok => rfl

-- A window that holds the rows of the image from `start` on goes to an anchor, below or above.
-- Afterwards it holds the rows from there on, and all its slots, and with sharpening all its lines,
-- are those of an empty window that is loaded there.
theorem refill_eq_reload (hready : engine.Ready image.width image.height)
    (hformat : image.format = format) (hshows : Shows I image) (hshows' : Shows J image)
    {window empty : Window format.channels format.sample.Inner} (hfits : window.Fits engine.plan)
    (hempty : empty.Fits engine.plan) (hnone : empty.start = none) {start anchor : Nat}
    (hstart : window.start = some start)
    (hkeeps : ∀ slot < engine.plan.taps,
      window.Keeps engine.plan slot (image.row (start + slot)))
    (hanchor : anchor + engine.plan.taps ≤ image.height) {source : σ}
    (hsource : I source) (hok : (engine.plan.load anchor source window).result = .ok ()) :
    let refilled := (engine.plan.load anchor source window).state
    refilled.start = some anchor ∧
      (∀ slot < engine.plan.taps,
        refilled.Keeps engine.plan slot (image.row (anchor + slot))) ∧
      ∀ twin, J twin →
        let reload := engine.plan.load anchor twin empty
        (reload.result = .ok () → refilled.slots = reload.state.slots ∧
          (engine.sharpening.isSome → refilled.lines = reload.state.lines)) ∧
        (Reliable J format image.width image.height → reload.result = .ok ()) := by
  have hholds : window.Holds engine.plan (RowOf image) := by
    refine Window.Filled.holds (fun slot hslot => ?_) hstart
    exact ⟨_, rfl, hkeeps slot hslot⟩
  obtain ⟨hafter, hmoved, hrefilled⟩ :=
    load_of_shows hready hformat hshows hfits hholds hanchor hsource hok
  refine ⟨hmoved, hrefilled, fun twin htwin => ⟨fun hok' => ?_, fun hreliable => ?_⟩⟩
  · obtain ⟨hafter', -, hreloaded⟩ := load_of_shows hready hformat hshows' hempty
      (Window.holds_of_start_eq_none hnone) hanchor htwin hok'
    exact ⟨Window.slots_eq_of_keeps hready.sound hafter hafter' hrefilled hreloaded,
      fun hsharpen => Window.lines_eq_of_keeps hsharpen hafter hafter' hrefilled hreloaded⟩
  · exact load_eq_ok hready hreliable hempty hnone hanchor htwin

end Engine

-- Two columns of three rows, sharpened two rows at a time, and the window over the first two
namespace Dragged

def across : AxisMap Int := ⟨2, 2, 1, #[⟨0, [32768]⟩, ⟨1, [32768]⟩]⟩

def down : AxisMap Int := ⟨3, 2, 2, #[⟨0, [16384, 16384]⟩, ⟨1, [16384, 16384]⟩]⟩

def lease : Lease := ⟨Depot.shared, ⟨⟨0, #[]⟩, 1, 0⟩⟩

def unloaded : Window 1 Int := ⟨none, Array.replicate 4 #v[0], Array.replicate 4 0⟩

def window : Window 1 Int :=
  ⟨some 0, #[#v[1280], #v[3840], #v[2560], #v[5120]], #[10, 20, 30, 40]⟩

def engine : Engine .gray8 :=
  ⟨across, down, some ⟨50, 0⟩, unloaded, ⟨lease, lease, lease, some lease⟩⟩

theorem ready : engine.Ready 2 3 where
  supported := by decide
  sound := ⟨by decide, (by decide : across.Sized), (by decide : down.Sized), by decide, by decide,
    by decide, fun _ => rfl⟩
  width_eq := rfl
  height_eq := rfl

theorem fits : window.Fits engine.plan :=
  ⟨rfl, rfl, fun start hstart => by
    cases hstart
    decide⟩

theorem fits_unloaded : unloaded.Fits engine.plan :=
  ⟨rfl, rfl, fun start hstart => by cases hstart⟩

theorem keeps : ∀ slot < engine.plan.taps,
    window.Keeps engine.plan slot (Tiny.image.picture.row (0 + slot)) := by
  intro slot hslot
  have hslot : slot < 2 := hslot
  obtain rfl | rfl : slot = 0 ∨ slot = 1 := by omega
  all_goals
    refine ⟨fun x hx => ?_, fun _ => rfl⟩
    have hx : x < 2 := hx
    show @Eq (Option (Vector Int 1)) _ _
    obtain rfl | rfl : x = 0 ∨ x = 1 := by omega
    · decide +kernel +revert
    · decide +kernel +revert

theorem make_image : MemoryImage.make .gray8 2 3 2 Tiny.image.data = .ok Tiny.image := rfl

end Dragged

-- The block that moves by one slot takes 20, the first sample of the second column, to the end of
-- the first, where 50 belongs
theorem Engine.refill_eq_reload_dragged :
    let refill := Dragged.engine.plan.load 1 Tiny.image Dragged.window
    let reload := Dragged.engine.plan.load 1 Tiny.image Dragged.unloaded
    ((Dragged.engine.plan.slid Dragged.window 1).slots[1]? : Option (Vector Int 1)) =
        some #v[20 * 128] ∧
      refill.result = .ok () ∧ reload.result = .ok () ∧
      refill.state.slots = reload.state.slots ∧ refill.state.lines = reload.state.lines ∧
      (refill.state.slots[1]? : Option (Vector Int 1)) = some #v[50 * 128] := by
  have hok : (Dragged.engine.plan.load 1 Tiny.image Dragged.window).result = .ok () := by
    decide +kernel
  obtain ⟨-, -, htwin⟩ := Engine.refill_eq_reload Dragged.ready rfl
    (MemoryImage.shows Dragged.make_image) (MemoryImage.shows Dragged.make_image) Dragged.fits
    Dragged.fits_unloaded rfl rfl Dragged.keeps (by decide) rfl hok
  obtain ⟨hsame, hreliable⟩ := htwin Tiny.image rfl
  have hok' := hreliable (MemoryImage.reliable Dragged.make_image)
  obtain ⟨hslots, hlines⟩ := hsame hok'
  exact ⟨by decide +kernel, hok, hok', hslots, hlines rfl, by decide +kernel⟩

end Resampling
