import Resampling.Proofs.Alike
import Resampling.Proofs.Stage

-- Sources that fail only where a request is not legal. A stage asks for nothing that is not, so
-- that a stage over such a source is such a source.

namespace Resampling

-- In the states that `I` tells, the source meets every request for pixels that is admitted
structure Reliable {σ : Type} [ImageSource σ] (I : σ → Prop) (format : PixelFormat)
    (width height : Nat) : Prop extends Steady I format width height where
  answer : ∀ source, I source → ∀ call, (ImageSource.answer source call).Satisfies
    (fun after _ => I after) fun _ after _ => I after ∧
      (call.rect.isEmpty = false →
        Request.admit call.request width height format.pixelSize ≠ .ok ())

namespace Reliable

variable {σ : Type} [ImageSource σ] {I : σ → Prop} {format : PixelFormat} {width height : Nat}

theorem step (h : Reliable I format width height) {source : σ} (hsource : I source) (call : Call) :
    I (ImageSource.answer source call).source := by
  have hanswer := h.answer source hsource call
  cases hresult : (ImageSource.answer source call).result with
  | error e => exact (hanswer.of_error hresult).1
  | ok => exact hanswer.of_ok hresult

theorem preserved (h : Reliable I format width height) {source : σ} (hsource : I source)
    (calls : List Call) : I (ImageSource.after source calls) := by
  apply ImageSource.after_preserves _ hsource
  intro source hsource call
  exact h.step hsource call

theorem result_eq_ok (h : Reliable I format width height) {source : σ} (hsource : I source)
    {call : Call} (hempty : call.rect.isEmpty = false)
    (haccept : Request.admit call.request width height format.pixelSize = .ok ()) :
    (ImageSource.answer source call).result = .ok () := by
  have hanswer := h.answer source hsource call
  cases hresult : (ImageSource.answer source call).result with
  | error e => exact absurd haccept ((hanswer.of_error hresult).2 hempty)
  | ok => rfl

-- Sources that answer as reliable ones do are reliable
theorem of_alike {τ : Type} [ImageSource τ] {R : τ → σ → Prop} (halike : ImageSource.Alike R)
    (h : Reliable I format width height) :
    Reliable (fun other => ∃ source, R other source ∧ I source) format width height where
  format_eq other hother := by
    obtain ⟨source, hsame, hsource⟩ := hother
    rw [halike.format_eq other source hsame, h.format_eq source hsource]
  width_eq other hother := by
    obtain ⟨source, hsame, hsource⟩ := hother
    rw [halike.width_eq other source hsame, h.width_eq source hsource]
  height_eq other hother := by
    obtain ⟨source, hsame, hsource⟩ := hother
    rw [halike.height_eq other source hsame, h.height_eq source hsource]
  answer other hother call := by
    obtain ⟨source, hsame, hsource⟩ := hother
    have hanswer := halike.answer other source hsame call
    have hmet := h.answer source hsource call
    cases hresult : (ImageSource.answer source call).result with
    | error e =>
      obtain ⟨hafter, hrefused⟩ := hmet.of_error hresult
      exact Outcome.satisfies_of_error (hanswer.result_eq.trans hresult)
        ⟨⟨_, hanswer.source, hafter⟩, hrefused⟩
    | ok =>
      exact Outcome.satisfies_of_ok (hanswer.result_eq.trans hresult)
        ⟨_, hanswer.source, hmet.of_ok hresult⟩

end Reliable

namespace Engine

variable {format : PixelFormat} {engine : Engine format} {width height : Nat}

variable {σ : Type} [ImageSource σ] {I : σ → Prop}

theorem serves_of_reliable (hready : engine.Ready width height)
    (hreliable : Reliable I format width height) {P : List Nat → σ → Prop}
    (hinv : ∀ ys source, P ys source → I source)
    (hstep : ∀ ys source y, P ys source → y < height → ∀ call : Call,
      call.request = Request.fullRow width format.pixelSize y →
        P (ys ++ [y]) (ImageSource.answer source call).source) :
    engine.plan.Serves P (fun _ _ => True) fun _ _ => False := by
  apply serves_of_answer hready
  intro ys source y hsource hy call hcall
  have hempty : call.request.rect.isEmpty = false := by
    rw [hcall]
    exact Request.isEmpty_fullRow (hready.width_eq ▸ hready.sound.xmap.inPixels_pos) y
  have hok := hreliable.result_eq_ok (hinv ys source hsource) hempty
    (by rw [hcall]; exact admit_fullRow hready hy)
  exact Outcome.satisfies_of_ok hok ⟨hstep ys source y hsource hy call hcall, trivial⟩

-- A stage over a reliable source fails only where it refuses
theorem answer_of_reliable (hready : engine.Ready width height)
    (hreliable : Reliable I format width height) {start : Option Nat} {stage : Resampler σ}
    (hruns : engine.Runs (fun _ _ => True) I start stage) (call : Call) :
    (ImageSource.answer stage call).Satisfies
      (fun after _ => ∃ start, engine.Runs (fun _ _ => True) I start after)
      fun _ after _ => (∃ start, engine.Runs (fun _ _ => True) I start after) ∧
        Request.admit call.request engine.xmap.outPixels engine.ymap.outPixels
          format.pixelSize ≠ .ok () := by
  have hserves := serves_of_reliable (P := fun _ source => I source) hready hreliable
    (fun _ _ h => h) fun _ source _ hsource _ call _ => hreliable.step hsource call
  have hcopy := copyRect_satisfies hready hserves [] hruns call.rect call.stride call.buffer
  refine hcopy.mono (fun after _ hafter => ⟨_, hafter.1⟩) fun e after _ hafter => ?_
  rcases hafter with ⟨hrefused, rfl⟩ | ⟨_, _, _, hfalse, _⟩
  · refine ⟨⟨start, hruns⟩, fun haccept => ?_⟩
    rw [Call.request, hrefused] at haccept
    cases haccept
  · exact hfalse.elim

-- It is reliable itself
theorem reliable_stage (hready : engine.Ready width height)
    (hreliable : Reliable I format width height) :
    Reliable (fun stage : Resampler σ => ∃ start, engine.Runs (fun _ _ => True) I start stage)
      format engine.xmap.outPixels engine.ymap.outPixels where
  toSteady := steady_stage
  answer stage h call := by
    obtain ⟨start, hruns⟩ := h
    exact (answer_of_reliable hready hreliable hruns call).mono (fun _ _ hafter => hafter)
      fun _ _ _ hafter => ⟨hafter.1, fun _ => hafter.2⟩

-- And it meets a request for no pixels as well
theorem result_eq_ok_of_reliable (hready : engine.Ready width height)
    (hreliable : Reliable I format width height) {start : Option Nat} {stage : Resampler σ}
    (hruns : engine.Runs (fun _ _ => True) I start stage) {call : Call}
    (haccept : Request.admit call.request engine.xmap.outPixels engine.ymap.outPixels
      format.pixelSize = .ok ()) :
    (ImageSource.answer stage call).result = .ok () := by
  have hanswer := answer_of_reliable hready hreliable hruns call
  cases hresult : (ImageSource.answer stage call).result with
  | error e => exact absurd haccept (hanswer.of_error hresult).2
  | ok => rfl

end Engine

end Resampling
