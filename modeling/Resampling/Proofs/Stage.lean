import Resampling.Proofs.Construct
import Resampling.Proofs.Window.Rows

-- Requests to a stage: which source rows it pulls, what it paints, and how it is left behind

namespace Resampling

namespace Rect

-- The rows of an image that a rectangle has pixels of
def rows (rect : Rect) : List Nat :=
  if rect.isEmpty then [] else List.range' rect.y rect.height

end Rect

variable {σ : Type} {format : PixelFormat}

-- The buffer after a request: below each other the parts of output rows that the rectangle has
def Plan.Painted {n : Nat} {S W T : Type} [Element S] (plan : Plan n S W T)
    (Row : Nat → Array UInt8 → Prop) (rect : Rect) (stride : Nat) {length : Nat}
    (before after : Vector UInt8 length) : Prop :=
  ∃ rows : List (Array UInt8), rows.length = rect.rows.length ∧
    (∀ i (hi : i < rows.length), plan.Paints Row rect (rect.y + i) rows[i]) ∧
    after.toArray = Span.paint stride rows before.toArray

namespace Engine

-- A stage with this engine in some state it can come to: `I` holds of its source, and its
-- window is in order and starts at `start`
def Runs (engine : Engine format) (Row : Nat → Array UInt8 → Prop) (I : σ → Prop)
    (start : Option Nat) (stage : Resampler σ) : Prop :=
  ∃ source window, stage = engine.stage source window ∧ I source ∧ window.Fits engine.plan ∧
    window.Holds engine.plan Row ∧ window.start = start

variable {engine : Engine format} {Row : Nat → Array UInt8 → Prop} {width height : Nat}

theorem rowBytes_eq (hready : engine.Ready width height) :
    engine.plan.rowBytes = width * format.pixelSize := by
  rw [Plan.rowBytes, size_pixel]
  exact congrArg (· * format.pixelSize) hready.width_eq

theorem admit_fullRow (hready : engine.Ready width height) {y : Nat} (hy : y < height) :
    Request.admit (Request.fullRow width format.pixelSize y) width height format.pixelSize =
      .ok () := by
  have hwidth : engine.plan.xmap.inPixels = width := hready.width_eq
  have hheight : engine.plan.ymap.inPixels = height := hready.height_eq
  have hwidthPos := hready.sound.xmap.inPixels_pos
  have hwidthLt := hready.sound.xmap.inPixels_lt
  have hheightLt := hready.sound.ymap.inPixels_lt
  have hlines := hready.sound.lines_lt
  have hrow := Nat.mul_le_mul_right engine.plan.rowBytes hready.sound.lineRows_pos
  rw [rowBytes_eq hready] at hlines hrow
  have hwords : 0x1_0000_0000 < Word.limit := by decide
  rw [Request.admit_eq_ok_iff (Request.isEmpty_fullRow (hwidth ▸ hwidthPos) y)]
  constructor <;> simp only [Request.fullRow] <;> omega

theorem runs_new {source : σ} {I : σ → Prop} (h : I source) (hfits : engine.window.Fits engine.plan)
    (hstart : engine.window.start = none) :
    engine.Runs Row I none (engine.stage source engine.window) :=
  ⟨source, engine.window, rfl, h, hfits, Window.holds_of_start_eq_none hstart, hstart⟩

variable [ImageSource σ] {P : List Nat → σ → Prop} {E : Error → σ → Prop}

theorem steady_stage {I : σ → Prop} :
    Steady (fun stage => ∃ start, engine.Runs Row I start stage) format engine.xmap.outPixels
      engine.ymap.outPixels where
  format_eq stage h := by
    obtain ⟨_, _, _, rfl, _⟩ := h
    rfl
  width_eq stage h := by
    obtain ⟨_, _, _, rfl, _⟩ := h
    rfl
  height_eq stage h := by
    obtain ⟨_, _, _, rfl, _⟩ := h
    rfl

-- What a source answers to requests for full rows is what it answers to pulls
theorem serves_of_answer (hready : engine.Ready width height)
    (h : ∀ ys source y, P ys source → y < height → ∀ call : Call,
      call.request = Request.fullRow width format.pixelSize y →
        (ImageSource.answer source call).Satisfies
          (fun after bytes => P (ys ++ [y]) after ∧ Row y bytes.toArray)
          fun e after _ => E e after) :
    engine.plan.Serves P Row E := by
  intro ys source y hsource hy length buffer hlength
  have hwidth : engine.plan.xmap.inPixels = width := hready.width_eq
  have hheight : engine.plan.ymap.inPixels = height := hready.height_eq
  subst hlength
  rw [hheight] at hy
  rw [hwidth]
  apply h ys source y hsource hy ⟨⟨0, y, width, 1⟩, engine.plan.rowBytes, _, buffer⟩
  show (⟨⟨0, y, width, 1⟩, engine.plan.rowBytes, engine.plan.rowBytes⟩ : Request) = _
  rw [rowBytes_eq hready]
  rfl

theorem copyRect_stage (engine : Engine format) (source : σ)
    (window : Window format.channels format.sample.Inner) (rect : Rect) (stride : Nat)
    {length : Nat} (buffer : Vector UInt8 length) :
    (engine.stage source window).copyRect rect stride buffer =
      match Request.admit ⟨rect, stride, length⟩ engine.xmap.outPixels engine.ymap.outPixels
        format.pixelSize with
      | .error e => .fail (engine.stage source window) buffer e
      | .ok () =>
        if rect.isEmpty then .done (engine.stage source window) buffer
        else
          let outcome := engine.plan.copyRows rect stride source window buffer
          { source := engine.stage outcome.source outcome.state.1
            state := outcome.state.2
            result := outcome.result
            events := outcome.events } := rfl

-- A request is refused with nothing changed, or is met row by row
theorem copyRect_satisfies (hready : engine.Ready width height)
    (hserves : engine.plan.Serves P Row E) {start : Option Nat} {stage : Resampler σ}
    (ys : List Nat) (hruns : engine.Runs Row (P ys) start stage) (rect : Rect) (stride : Nat)
    {length : Nat} (buffer : Vector UInt8 length) :
    (stage.copyRect rect stride buffer).Satisfies
      (fun after bytes =>
        engine.Runs Row (P (ys ++ engine.plan.pulls start rect.rows))
          (engine.plan.settled start rect.rows) after ∧
        engine.plan.Painted Row rect stride buffer bytes ∧
        (rect.isEmpty = false → Request.Placed ⟨rect, stride, length⟩ engine.xmap.outPixels
          engine.ymap.outPixels format.pixelSize))
      fun e after _ =>
        Request.admit ⟨rect, stride, length⟩ engine.xmap.outPixels engine.ymap.outPixels
          format.pixelSize = .error e ∧ after = stage ∨
        engine.Runs Row (E e) none after := by
  obtain ⟨source, window, rfl, hsource, hfits, hholds, rfl⟩ := hruns
  rw [copyRect_stage]
  cases haccept : Request.admit ⟨rect, stride, length⟩ engine.xmap.outPixels engine.ymap.outPixels
      format.pixelSize with
  | error e => exact Outcome.satisfies_of_error (e := e) rfl (Or.inl ⟨rfl, rfl⟩)
  | ok =>
    by_cases hempty : rect.isEmpty
    · have hrows : rect.rows = [] := by rw [Rect.rows, if_pos hempty]
      rw [if_pos hempty, hrows]
      refine Outcome.satisfies_of_ok rfl ⟨?_, ⟨[], ?_, ?_, rfl⟩, ?_⟩
      · rw [Plan.pulls, List.append_nil]
        exact ⟨source, window, rfl, hsource, hfits, hholds, rfl⟩
      · rw [hrows]
        rfl
      · exact fun i hi => absurd hi (Nat.not_lt_zero i)
      · intro h
        rw [hempty] at h
        cases h
    · have hrows : rect.rows = List.range' rect.y rect.height := by rw [Rect.rows, if_neg hempty]
      have hplaced := (Request.admit_eq_ok_iff (by simpa using hempty)).mp haccept
      rw [← size_pixel] at hplaced
      have hcopy := Plan.copyRows_satisfies hready.sound hserves hplaced hfits hholds buffer hsource
      rw [if_neg hempty, hrows]
      generalize engine.plan.copyRows rect stride source window buffer = outcome at hcopy ⊢
      cases hresult : outcome.result with
      | error e =>
        obtain ⟨he, hfits, hstart⟩ := hcopy.of_error hresult
        exact Outcome.satisfies_of_error hresult (Or.inr ⟨outcome.source, outcome.state.1, rfl,
          he, hfits, Window.holds_of_start_eq_none hstart, hstart⟩)
      | ok =>
        obtain ⟨hp, hfits, hstart, hholds, rows, hlength, hpainted⟩ := hcopy.of_ok hresult
        refine Outcome.satisfies_of_ok hresult
          ⟨⟨outcome.source, outcome.state.1, rfl, hp, hfits, hholds, hstart⟩,
            ⟨rows, ?_, hpainted⟩, fun _ => ?_⟩
        · rw [hrows, List.length_range', hlength]
        · rwa [size_pixel] at hplaced

-- A request leaves a stage that runs, met or not
theorem exists_runs_answer {I : σ → Prop} (hready : engine.Ready width height)
    (hserves : engine.plan.Serves (fun _ => I) Row fun _ => I) {start : Option Nat}
    {stage : Resampler σ} (hruns : engine.Runs Row I start stage) (call : Call) :
    ∃ start, engine.Runs Row I start (ImageSource.answer stage call).source := by
  have hcopy : (ImageSource.answer stage call).Satisfies _ _ :=
    copyRect_satisfies hready hserves [] hruns call.rect call.stride call.buffer
  cases hanswer : (ImageSource.answer stage call).result with
  | ok => exact ⟨_, (hcopy.of_ok hanswer).1⟩
  | error e =>
    rcases hcopy.of_error hanswer with ⟨-, hsame⟩ | hfailed
    · rw [hsame]
      exact ⟨start, hruns⟩
    · exact ⟨none, hfailed⟩

theorem exists_runs_after {I : σ → Prop} (hready : engine.Ready width height)
    (hserves : engine.plan.Serves (fun _ => I) Row fun _ => I) {start : Option Nat}
    {stage : Resampler σ} (hruns : engine.Runs Row I start stage) (calls : List Call) :
    ∃ start, engine.Runs Row I start (ImageSource.after stage calls) := by
  induction calls generalizing start stage with
  | nil => exact ⟨start, hruns⟩
  | cons call calls ih =>
    obtain ⟨_, hanswered⟩ := exists_runs_answer hready hserves hruns call
    exact ih hanswered

end Engine

end Resampling
