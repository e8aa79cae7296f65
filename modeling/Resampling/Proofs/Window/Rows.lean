import Resampling.Proofs.Request
import Resampling.Proofs.Window.Load
import Resampling.Proofs.Window.Output

-- Rectangles row by row. A stage pulls the rows that its window lacks for each output row in
-- turn, and paints parts of whole output rows into the buffer.

namespace Resampling

variable {n : Nat} {S W T : Type} [Element S]

namespace Plan

def anchor (plan : Plan n S W T) (y : Nat) : Nat :=
  match plan.ymap.rows[y]? with
  | none => 0
  | some r => r.anchor

-- Where the window is after the listed output rows
def settled (plan : Plan n S W T) (start : Option Nat) (ys : List Nat) : Option Nat :=
  ys.foldl (fun _ y => some (plan.anchor y)) start

-- The source rows that the listed output rows ask for, in order
def pulls (plan : Plan n S W T) (start : Option Nat) : List Nat → List Nat
  | [] => []
  | y :: ys =>
    Window.missing start plan.taps (plan.anchor y) ++ plan.pulls (some (plan.anchor y)) ys

-- What output row `y` may be, as far as `Row` tells what the source rows are
def Renders (plan : Plan n S W T) (Row : Nat → Array UInt8 → Prop) (y : Nat)
    (pixels : Array (Vector S n)) : Prop :=
  ∃ r lines, plan.ymap.rows[y]? = some r ∧ (∀ k < plan.taps, Row (r.anchor + k) (lines k)) ∧
    pixels = plan.combine lines r.weights (plan.nearestTap y r.anchor)

-- The bytes that a rectangle gets of output row `y`
def Paints (plan : Plan n S W T) (Row : Nat → Array UInt8 → Prop) (rect : Rect) (y : Nat)
    (bytes : Array UInt8) : Prop :=
  ∃ pixels, plan.Renders Row y pixels ∧
    bytes = Element.encodeRow (pixels.extract rect.x (rect.x + rect.width))

omit [Element S] in
theorem pulls_append (plan : Plan n S W T) (start : Option Nat) (ys zs : List Nat) :
    plan.pulls start (ys ++ zs) = plan.pulls start ys ++ plan.pulls (plan.settled start ys) zs := by
  induction ys generalizing start with
  | nil => rfl
  | cons y ys ih =>
    rw [List.cons_append, pulls, pulls, ih, List.append_assoc]
    rfl

omit [Element S] in
theorem settled_append (plan : Plan n S W T) (start : Option Nat) (ys zs : List Nat) :
    plan.settled start (ys ++ zs) = plan.settled (plan.settled start ys) zs := List.foldl_append

variable {plan : Plan n S W T} {Row : Nat → Array UInt8 → Prop}

theorem Paints.size_eq (hsound : plan.Sound) {rect : Rect} {y : Nat} {bytes : Array UInt8}
    (h : plan.Paints Row rect y bytes) (hx : rect.x + rect.width ≤ plan.xmap.outPixels) :
    bytes.size = rect.width * Element.size (Vector S n) := by
  obtain ⟨pixels, ⟨r, lines, -, -, rfl⟩, rfl⟩ := h
  rw [Element.size_encodeRow, Array.size_extract, size_combine hsound, Nat.min_eq_left hx,
    Nat.add_sub_cancel_left]

variable {σ : Type} [ImageSource σ] {P : List Nat → σ → Prop} {E : Error → σ → Prop}
  [LocalElement S] {rect : Rect} {stride length : Nat}

-- A window that is loaded for a row has what its part of the rectangle is painted from
theorem exists_painted (hsound : plan.Sound)
    (hplaced : Request.Placed ⟨rect, stride, length⟩ plan.xmap.outPixels plan.ymap.outPixels
      (Element.size (Vector S n)))
    {window : Window n T} {i : Nat} (hi : i < rect.height) {r : AxisMap.Row W}
    (hr : plan.ymap.rows[rect.y + i]? = some r) (hfits : window.Fits plan)
    (hstart : window.start = some r.anchor) (hfilled : window.Filled plan Row r.anchor plan.taps)
    (buffer : Vector UInt8 length) :
    ∃ bytes, plan.Paints Row rect (rect.y + i) bytes ∧ ∃ after : Vector UInt8 length,
      after.toArray = Span.overwrite buffer.toArray (i * stride) bytes ∧
      (do
        let pixels ← plan.outputRow window r.weights (rect.y + i) rect.x rect.width
        Span.write buffer (i * stride) (Element.encodeRow pixels)) = .ok after := by
  have hy : rect.y + i < plan.ymap.outPixels :=
    Nat.lt_of_lt_of_le (Nat.add_lt_add_left hi _) hplaced.bottom_le
  obtain ⟨lines, hlines⟩ := hfilled.exists_lines
  have hpixels := outputRow_eq hfits hsound hstart (fun k hk => (hlines k hk).2) r.weights
    hplaced.right_le hy
  obtain ⟨bytes, hbytes⟩ : ∃ bytes, bytes = Element.encodeRow ((plan.combine lines r.weights
      (plan.nearestTap (rect.y + i) r.anchor)).extract rect.x (rect.x + rect.width)) := ⟨_, rfl⟩
  have hpaints : plan.Paints Row rect (rect.y + i) bytes :=
    ⟨_, ⟨r, lines, hr, fun k hk => (hlines k hk).1, rfl⟩, hbytes⟩
  have hend := hplaced.row_end_le hi
  rw [← hpaints.size_eq hsound hplaced.right_le] at hend
  refine ⟨bytes, hpaints, ⟨Span.overwrite buffer.toArray (i * stride) bytes, by simp⟩, rfl, ?_⟩
  simp only [bind, Except.bind, hpixels, ← hbytes, Span.write_eq_ok hend]

-- One row of a rectangle: the window moves to it, and unless that fails its part is put in its
-- place
theorem copyRow_eq (hsound : plan.Sound) (hserves : plan.Serves P Row E)
    (hplaced : Request.Placed ⟨rect, stride, length⟩ plan.xmap.outPixels plan.ymap.outPixels
      (Element.size (Vector S n)))
    {window : Window n T} (hfits : window.Fits plan) (hholds : window.Holds plan Row)
    (buffer : Vector UInt8 length) {i : Nat} (hi : i < rect.height) {source : σ} {ys : List Nat}
    (h : P ys source) :
    let loaded := plan.load (plan.anchor (rect.y + i)) source window
    let copied := plan.copyRow rect stride i source (window, buffer)
    plan.anchor (rect.y + i) + plan.taps ≤ plan.ymap.inPixels ∧
      copied.source = loaded.source ∧ copied.result = loaded.result ∧
      copied.state.1 = loaded.state ∧
      (loaded.result = .ok () → ∃ bytes, plan.Paints Row rect (rect.y + i) bytes ∧
        copied.state.2.toArray = Span.overwrite buffer.toArray (i * stride) bytes) ∧
      (loaded.result ≠ .ok () → copied.state.2 = buffer) := by
  have hy : rect.y + i < plan.ymap.outPixels :=
    Nat.lt_of_lt_of_le (Nat.add_lt_add_left hi _) hplaced.bottom_le
  obtain ⟨r, hr, hmem, hrow⟩ := hsound.ymap.row_eq hy
  have hanchor : plan.anchor (rect.y + i) = r.anchor := by
    unfold anchor
    rw [hr]
  have hload := load_satisfies hsound hserves hfits hholds (hsound.ymap.anchor_le r hmem) h
  rw [hanchor]
  unfold copyRow
  simp only [hrow]
  generalize plan.load r.anchor source window = outcome at hload ⊢
  refine ⟨hsound.ymap.anchor_le r hmem, ?_⟩
  cases hresult : outcome.result with
  | error e => exact ⟨rfl, rfl, rfl, (fun h => by cases h), fun _ => rfl⟩
  | ok =>
    obtain ⟨-, hfits, hstart, hfilled⟩ := hload.of_ok hresult
    obtain ⟨bytes, hpaints, after, hafter, hwritten⟩ :=
      exists_painted hsound hplaced hi hr hfits hstart hfilled buffer
    obtain ⟨pixels, hpixels, hwrite⟩ := bind_eq_ok_iff.mp hwritten
    simp only [bind, Except.bind, pure, Except.pure, hpixels, hwrite]
    exact ⟨rfl, rfl, rfl, fun _ => ⟨bytes, hpaints, hafter⟩, fun h => absurd rfl h⟩

theorem copyRow_satisfies (hsound : plan.Sound) (hserves : plan.Serves P Row E)
    (hplaced : Request.Placed ⟨rect, stride, length⟩ plan.xmap.outPixels plan.ymap.outPixels
      (Element.size (Vector S n)))
    {window : Window n T} (hfits : window.Fits plan) (hholds : window.Holds plan Row)
    (buffer : Vector UInt8 length) {i : Nat} (hi : i < rect.height) {source : σ} {ys : List Nat}
    (h : P ys source) :
    (plan.copyRow rect stride i source (window, buffer)).Satisfies
      (fun source after =>
        P (ys ++ Window.missing window.start plan.taps (plan.anchor (rect.y + i))) source ∧
        after.1.Fits plan ∧ after.1.start = some (plan.anchor (rect.y + i)) ∧
        after.1.Holds plan Row ∧
        ∃ bytes, plan.Paints Row rect (rect.y + i) bytes ∧
          after.2.toArray = Span.overwrite buffer.toArray (i * stride) bytes)
      fun e source after => E e source ∧ after.1.Fits plan ∧ after.1.start = none := by
  obtain ⟨hanchor, hsource, hresult, hwindow, hpainted, -⟩ :=
    copyRow_eq hsound hserves hplaced hfits hholds buffer hi h
  have hload := load_satisfies hsound hserves hfits hholds hanchor h
  generalize plan.load (plan.anchor (rect.y + i)) source window = loaded at *
  cases hloaded : loaded.result with
  | error e =>
    refine Outcome.satisfies_of_error (hresult.trans hloaded) ?_
    rw [hsource, hwindow]
    exact hload.of_error hloaded
  | ok =>
    obtain ⟨hp, hfits, hstart, hfilled⟩ := hload.of_ok hloaded
    refine Outcome.satisfies_of_ok (hresult.trans hloaded) ?_
    rw [hsource, hwindow]
    exact ⟨hp, hfits, hstart, hfilled.holds hstart, hpainted hloaded⟩

-- The window and the buffer after the first `count` rows of a rectangle
def Copied (plan : Plan n S W T) (Row : Nat → Array UInt8 → Prop) (rect : Rect)
    (stride : Nat) {length : Nat} (window : Window n T) (buffer : Vector UInt8 length) (count : Nat)
    (after : Window n T × Vector UInt8 length) : Prop :=
  after.1.Fits plan ∧ after.1.start = plan.settled window.start (List.range' rect.y count) ∧
    after.1.Holds plan Row ∧
    ∃ rows : List (Array UInt8), rows.length = count ∧
      (∀ i (hi : i < rows.length), plan.Paints Row rect (rect.y + i) rows[i]) ∧
      after.2.toArray = Span.paint stride rows buffer.toArray

omit [LocalElement S] in
theorem Copied.concat {window : Window n T} {buffer : Vector UInt8 length} {count : Nat}
    {before after : Window n T × Vector UInt8 length}
    (h : plan.Copied Row rect stride window buffer count before) (hfits : after.1.Fits plan)
    (hstart : after.1.start = some (plan.anchor (rect.y + count))) (hholds : after.1.Holds plan Row)
    {bytes : Array UInt8} (hbytes : plan.Paints Row rect (rect.y + count) bytes)
    (hwritten : after.2.toArray = Span.overwrite before.2.toArray (count * stride) bytes) :
    plan.Copied Row rect stride window buffer (count + 1) after := by
  obtain ⟨-, -, -, rows, hlength, hrows, hpainted⟩ := h
  unfold Copied
  rw [List.range'_concat, Nat.one_mul, settled_append]
  refine ⟨hfits, hstart, hholds, rows ++ [bytes], by simp [hlength], fun i hi => ?_, ?_⟩
  · by_cases hlast : i < rows.length
    · rw [List.getElem_append_left hlast]
      exact hrows i hlast
    · have heq : i = rows.length := by
        rw [List.length_append, List.length_singleton] at hi
        omega
      subst heq
      rw [List.getElem_concat_length rfl, hlength]
      exact hbytes
  · rw [Span.paint_append, hwritten, hpainted, hlength]

-- A rectangle: what is asked for, where the window ends up, and what is painted
theorem copyRows_satisfies (hsound : plan.Sound) (hserves : plan.Serves P Row E)
    (hplaced : Request.Placed ⟨rect, stride, length⟩ plan.xmap.outPixels plan.ymap.outPixels
      (Element.size (Vector S n)))
    {window : Window n T} (hfits : window.Fits plan) (hholds : window.Holds plan Row)
    (buffer : Vector UInt8 length) {source : σ} {ys : List Nat} (h : P ys source) :
    (plan.copyRows rect stride source window buffer).Satisfies
      (fun source after =>
        P (ys ++ plan.pulls window.start (List.range' rect.y rect.height)) source ∧
        plan.Copied Row rect stride window buffer rect.height after)
      fun e source after => E e source ∧ after.1.Fits plan ∧ after.1.start = none := by
  have hloop := Outcome.satisfies_forEach
    (P := fun k source (after : Window n T × Vector UInt8 length) =>
      P (ys ++ plan.pulls window.start (List.range' rect.y k)) source ∧
        plan.Copied Row rect stride window buffer k after)
    (E := fun e source (after : Window n T × Vector UInt8 length) =>
      E e source ∧ after.1.Fits plan ∧ after.1.start = none)
    (plan.copyRow rect stride) (List.range rect.height) source (window, buffer)
    (fun k hk source state ⟨hp, hcopied⟩ => by
      obtain ⟨hfits, hstart, hholds, -⟩ := id hcopied
      rw [List.length_range] at hk
      rw [List.getElem_range]
      have hrow := copyRow_satisfies hsound hserves hplaced hfits hholds state.2 hk hp
      refine hrow.mono (fun source after hafter => ?_) fun e source after he => he
      obtain ⟨hp, hfits, hstart', hholds, bytes, hbytes, hwritten⟩ := hafter
      refine ⟨?_, hcopied.concat hfits hstart' hholds hbytes hwritten⟩
      rw [List.range'_concat, Nat.one_mul, pulls_append]
      rw [hstart, List.append_assoc] at hp
      simpa only [pulls, List.append_nil] using hp)
    ⟨by simpa [pulls] using h, hfits, rfl, hholds, [], rfl,
      fun i hi => absurd hi (Nat.not_lt_zero i), rfl⟩
  rwa [List.length_range] at hloop

end Plan

end Resampling
