import Resampling.Proofs.Containment
import Resampling.Proofs.Kernel.Settled
import Resampling.Proofs.Kernel.Sharpen
import Resampling.Proofs.Unchanged

-- A sharpening stage without strength. It blurs, keeps the rows it is to sharpen and blends, and
-- what comes out is the image it got; so a stack may do without it.

namespace Resampling

open Kernel

variable {σ τ : Type}

-- The same part of an image, delivered to the same memory
theorem Picture.Delivered.unique {image : Picture} {rect : Rect} {stride length : Nat}
    {before after after' : Vector UInt8 length} (h : image.Delivered rect stride before after)
    (h' : image.Delivered rect stride before after') : after = after' := by
  apply Vector.toArray_inj.mp
  apply Array.ext_getElem?
  intro p
  rw [Vector.getElem?_toArray, Vector.getElem?_toArray]
  rcases in_row_or_outside rect.height stride (rect.width * image.pixelSize) p with
    ⟨i, hi, k, hk, rfl⟩ | hout
  · obtain ⟨byte, hrow, hafter⟩ := h.inside i hi k hk
    obtain ⟨byte', hrow', hafter'⟩ := h'.inside i hi k hk
    rw [hafter, hafter', ← hrow, hrow']
  · rw [h.outside p hout, h'.outside p hout]

-- Sharpening without strength. That the strength of a byte mask comes out as zero is a matter of
-- floats.
theorem SampleKind.sharpenChannel_of_amount_zero {kind : SampleKind} (hkind : kind ≠ .float)
    (hbyte : kind = .byte → FixedPoint.ofFloat (Float.ofNat 0 / 100.0) = 0)
    {settings : Sharpening} (hamount : settings.amount = 0) (unblurred blurred : kind.Sample) :
    kind.sharpenChannel settings unblurred blurred = unblurred := by
  cases kind with
  | byte =>
    have hstrength : Byte.strength settings = 0 := by
      rw [Byte.strength, hamount]
      exact hbyte rfl
    rw [sharpenChannel, hstrength]
    exact Byte.sharpenSample_zero ..
  | uq15 =>
    have hstrength : Uq15.strength settings = 0 := by
      rw [Uq15.strength, hamount]
      rfl
    rw [sharpenChannel, hstrength]
    exact Uq15.sharpenSample_zero ..
  | float => exact absurd rfl hkind

theorem RowKernel.sharpen_of_amount_zero {n : Nat} {kind : SampleKind} {alpha : AlphaMode}
    (hkind : kind ≠ .float)
    (hbyte : kind = .byte → FixedPoint.ofFloat (Float.ofNat 0 / 100.0) = 0)
    {settings : Sharpening} (hamount : settings.amount = 0)
    (unblurred blurred : Vector kind.Sample n) :
    (ofFormat ⟨n, kind, alpha⟩).sharpen settings unblurred blurred = unblurred := by
  apply eq_of_get_eq
  intro c
  refine (get_sharpen settings unblurred blurred c).trans ?_
  rw [SampleKind.sharpenChannel_of_amount_zero hkind hbyte hamount, ite_self]

-- The image that an engine makes is a matter of its tables, and not of its buffers
theorem Engine.picture_make {format : PixelFormat} (maps : AxisMaps format.sample.Weights)
    (sharpening : Option Sharpening) (buffers : WorkBuffers) (below : Picture) :
    (make format maps sharpening buffers).picture below =
      ⟨format, maps.x.outPixels, maps.y.outPixels, fun y => Element.encodeRow
        (Plan.referenceRow ⟨RowKernel.ofFormat format, maps.x, maps.y, sharpening⟩ below.row y)⟩ :=
  rfl

namespace Resampler

variable [ImageSource σ] [ImageSource τ]

-- No pull fails for the request
def PullsMet (stage : Resampler σ) (call : Call) : Prop :=
  ∀ entry ∈ stage.journal call, entry.2 = .ok ()

-- Whatever each of two stages has been asked before, they meet a request alike as long as no pull
-- fails for it
def Interchangeable (stage : Resampler σ) (other : Resampler τ) : Prop :=
  ∀ calls calls' call, (ImageSource.after stage calls).PullsMet call →
    (ImageSource.after other calls').PullsMet call →
      let answer := ImageSource.answer (ImageSource.after stage calls) call
      let answer' := ImageSource.answer (ImageSource.after other calls') call
      answer.result = answer'.result ∧ answer.state = answer'.state

namespace SetUp

variable {I : σ → Prop} {J : τ → Prop} {image : Picture} {source : σ} {twin : τ}
  {format : PixelFormat} {maps maps' : AxisMaps format.sample.Weights}
  {sharpening sharpening' : Option Sharpening} {stage : Resampler σ} {other : Resampler τ}

-- Where no pull fails the request alone decides whether it is met
theorem answer_of_pullsMet (h : SetUp source format maps sharpening stage) (calls : List Call)
    {call : Call} (hmet : (ImageSource.after stage calls).PullsMet call) :
    let answer := ImageSource.answer (ImageSource.after stage calls) call
    answer.result = Request.admit call.request maps.x.outPixels maps.y.outPixels format.pixelSize ∧
      ∀ e, answer.result = .error e → answer.state = call.buffer := by
  obtain ⟨buffers, rfl, hready, hfits⟩ := h.exists_engine
  set engine := Engine.make format maps sharpening buffers
  have hnew : engine.Runs (fun _ _ => True) (fun _ => True) none
      (engine.stage source engine.window) := Engine.runs_new trivial hfits rfl
  obtain ⟨start, hruns⟩ :=
    Engine.exists_runs_after hready engine.plan.serves_true hnew calls
  set asked := ImageSource.after (engine.stage source engine.window) calls
  have hverdict : asked.verdict call = Request.admit call.request maps.x.outPixels
    maps.y.outPixels format.pixelSize := hruns.verdict_eq call
  intro answer
  by_cases hidles : asked.Idles call
  · have hanswer : answer = _ := answer_of_idles hruns.engine_ne_none hidles
    rw [hanswer]
    exact ⟨hverdict, fun _ _ => rfl⟩
  · rw [Idles, not_or, not_not, Bool.not_eq_true] at hidles
    obtain ⟨haccept, hempty⟩ := hidles
    rw [← hverdict, haccept]
    cases hresult : answer.result with
    | ok => exact ⟨rfl, fun e h => by cases h⟩
    | error e =>
      obtain ⟨i, -, -, -, k, -, hjournal⟩ :=
        Engine.exists_journal_of_error hready hruns (hverdict ▸ haccept) hempty hresult
      rw [PullsMet, hjournal] at hmet
      have hlast := hmet _ (List.mem_append_right _ (List.mem_singleton_self _))
      cases hlast

-- Stages that deliver the same image are interchangeable
theorem interchangeable (h : SetUp source format maps sharpening stage)
    (h' : SetUp twin format maps' sharpening' other)
    (hwidth : maps'.x.outPixels = maps.x.outPixels) (hheight : maps'.y.outPixels = maps.y.outPixels)
    (hdelivers : ImageSource.Delivers stage image)
    (hdelivers' : ImageSource.Delivers other image) : Interchangeable stage other := by
  intro calls calls' call hmet hmet'
  obtain ⟨hresult, hrefused⟩ := h.answer_of_pullsMet calls hmet
  obtain ⟨hresult', hrefused'⟩ := h'.answer_of_pullsMet calls' hmet'
  rw [hwidth, hheight] at hresult'
  refine ⟨hresult.trans hresult'.symm, ?_⟩
  cases hadmit : Request.admit call.request maps.x.outPixels maps.y.outPixels
      format.pixelSize with
  | error e =>
    exact (hrefused e (hresult.trans hadmit)).trans (hrefused' e (hresult'.trans hadmit)).symm
  | ok =>
    exact (hdelivers calls call (hresult.trans hadmit)).unique
      (hdelivers' calls' call (hresult'.trans hadmit))

theorem extent_stage (h : SetUp source format maps sharpening stage) :
    ImageSource.format stage = format ∧ ImageSource.width stage = maps.x.outPixels ∧
      ImageSource.height stage = maps.y.outPixels := by
  obtain ⟨buffers, rfl, -⟩ := h.exists_engine
  exact ⟨rfl, rfl, rfl⟩

theorem picture_eq (h : SetUp source format maps sharpening stage)
    (h' : SetUp twin format maps sharpening other) (below : Picture) :
    stage.picture below = other.picture below := by
  obtain ⟨buffers, rfl, -⟩ := h.exists_engine
  obtain ⟨buffers', rfl, -⟩ := h'.exists_engine
  exact (Engine.picture_make ..).trans (Engine.picture_make ..).symm

theorem exists_shows (h : SetUp source format maps sharpening stage) (hshows : Shows I image)
    (hsource : I source) :
    ∃ K : Resampler σ → Prop, K stage ∧ Shows K (stage.picture image) := by
  obtain ⟨buffers, rfl, hready, hfits, hformat⟩ := h.exists_engine_of_shows hshows hsource
  exact ⟨_, ⟨none, Engine.runs_new hsource hfits rfl⟩, Engine.shows_stage hready hformat hshows⟩

-- A stage that sharpens without strength delivers the image below: what it makes of a pixel is that
-- pixel, whatever the blur is, and its window has the row of the pixel
theorem delivers_of_amount_zero {settings : Sharpening}
    (h : SetUp source format maps (some settings) stage) (hkind : format.sample ≠ .float)
    (hbyte : format.sample = .byte → FixedPoint.ofFloat (Float.ofNat 0 / 100.0) = 0)
    (hamount : settings.amount = 0) (hshows : Shows I image) (hsource : I source)
    (hcentered : maps.y.Centered) (hsame : maps.y.outPixels = maps.y.inPixels) :
    ImageSource.Delivers stage image := by
  obtain ⟨hwidth, hheight⟩ := h.extent_sharpened hshows hsource hsame
  obtain ⟨n, kind, alpha⟩ := format
  apply h.delivers_source hkind hshows hsource hwidth hheight
  intro x hx y hy
  obtain ⟨rx, hrx, -⟩ := h.suit.x.row_eq (hwidth ▸ hx)
  obtain ⟨ry, hry, -⟩ := h.suit.y.row_eq (hheight ▸ hy)
  exact (h.pixel_sharpened hshows hsource hcentered hrx hry).trans
    (RowKernel.sharpen_of_amount_zero hkind hbyte hamount _ _)

-- Over a source that does not fail no pull does
theorem pullsMet (h : SetUp source format maps sharpening stage)
    (hreliable : Reliable I format (ImageSource.width source) (ImageSource.height source))
    (hsource : I source) (calls : List Call) (call : Call) :
    (ImageSource.after stage calls).PullsMet call := by
  obtain ⟨buffers, rfl, hready, hfits⟩ := h.exists_engine
  set engine := Engine.make format maps sharpening buffers
  have hnew : engine.Runs (fun _ _ => True) I none (engine.stage source engine.window) :=
    Engine.runs_new hsource hfits rfl
  obtain ⟨start, hruns⟩ :=
    (Engine.reliable_stage hready hreliable).preserved ⟨none, hnew⟩ calls
  set asked := ImageSource.after (engine.stage source engine.window) calls
  by_cases hidles : asked.Idles call
  · intro entry hentry
    rw [(inert_of_idles hruns.engine_ne_none hidles).journal_eq] at hentry
    exact absurd hentry List.not_mem_nil
  · rw [Idles, not_or, not_not, hruns.verdict_eq] at hidles
    have hok := Engine.result_eq_ok_of_reliable hready hreliable hruns hidles.1
    obtain ⟨below, window, hasked, -, hwindow⟩ := hruns
    have hused : engine.Runs (fun _ _ => True) (fun _ => True) start asked :=
      ⟨below, window, hasked, trivial, hwindow⟩
    intro entry hentry
    rw [Engine.journal_of_ok hready hused hok] at hentry
    obtain ⟨y, -, rfl⟩ := List.mem_map.mp hentry
    rfl

theorem exists_reliable (h : SetUp source format maps sharpening stage)
    (hreliable : Reliable I format (ImageSource.width source) (ImageSource.height source))
    (hsource : I source) :
    ∃ K : Resampler σ → Prop, K stage ∧
      Reliable K format (ImageSource.width stage) (ImageSource.height stage) := by
  obtain ⟨buffers, rfl, hready, hfits⟩ := h.exists_engine
  exact ⟨_, ⟨none, Engine.runs_new hsource hfits rfl⟩, Engine.reliable_stage hready hreliable⟩

-- A stage may be exchanged for the same stage with a second one above, which sharpens without
-- strength
theorem interchangeable_of_amount_zero (h : SetUp source format maps none stage)
    (hbelow : SetUp twin format maps none other) {blur : AxisMaps format.sample.Weights}
    {settings : Sharpening} {last : Resampler (Resampler τ)}
    (hlast : SetUp other format blur (some settings) last) (hkind : format.sample ≠ .float)
    (hbyte : format.sample = .byte → FixedPoint.ofFloat (Float.ofNat 0 / 100.0) = 0)
    (hamount : settings.amount = 0) (hshows : Shows I image) (hsource : I source)
    (hshows' : Shows J image) (htwin : J twin) (hcentered : blur.y.Centered)
    (hsame : blur.y.outPixels = blur.y.inPixels) : Interchangeable stage last := by
  obtain ⟨K, hother, hpicture⟩ := hbelow.exists_shows hshows' htwin
  obtain ⟨-, hwidth, hheight⟩ := hbelow.extent_picture image
  obtain ⟨hblurWidth, hblurHeight⟩ := hlast.extent_sharpened hpicture hother hsame
  have hdelivers := h.delivers hshows hsource
  rw [h.picture_eq hbelow] at hdelivers
  exact h.interchangeable hlast (hblurWidth.trans hwidth) (hblurHeight.trans hheight) hdelivers
    (hlast.delivers_of_amount_zero hkind hbyte hamount hpicture hother hcentered hsame)

end SetUp

end Resampler

end Resampling
