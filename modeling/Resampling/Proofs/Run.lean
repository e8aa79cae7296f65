import Resampling.Proofs.Outcome
import Resampling.Source.Probe

-- Runs of requests. Whatever an answered request keeps, successful or not, a run keeps.

namespace Resampling

-- A request with the memory it comes with
structure Call where
  rect : Rect
  stride : Nat
  length : Nat
  buffer : Vector UInt8 length

def Call.request (call : Call) : Request := ⟨call.rect, call.stride, call.length⟩

namespace ImageSource

variable {σ : Type} [ImageSource σ]

def answer (source : σ) (call : Call) : Outcome σ (Vector UInt8 call.length) :=
  copyRect source call.rect call.stride call.buffer

-- The source once the calls have been answered, from the first to the last
def after (source : σ) (calls : List Call) : σ :=
  calls.foldl (fun source call => (answer source call).source) source

theorem after_append (source : σ) (calls later : List Call) :
    after source (calls ++ later) = after (after source calls) later := List.foldl_append

theorem after_concat (source : σ) (calls : List Call) (call : Call) :
    after source (calls ++ [call]) = (answer (after source calls) call).source := by
  rw [after_append]
  rfl

theorem after_preserves {I : σ → Prop}
    (hstep : ∀ source, I source → ∀ call, I (answer source call).source) {source : σ}
    (h : I source) (calls : List Call) : I (after source calls) := by
  induction calls generalizing source with
  | nil => exact h
  | cons call calls ih => exact ih (hstep source h call)

end ImageSource

-- A source that looks the same in all states that `I` tells
structure Steady {σ : Type} [ImageSource σ] (I : σ → Prop) (format : PixelFormat)
    (width height : Nat) : Prop where
  format_eq : ∀ source, I source → ImageSource.format source = format
  width_eq : ∀ source, I source → ImageSource.width source = width
  height_eq : ∀ source, I source → ImageSource.height source = height

namespace Steady

variable {σ : Type} [ImageSource σ] {I : σ → Prop} {format : PixelFormat} {width height : Nat}

theorem of_eq (source : σ) : Steady (· = source) (ImageSource.format source)
    (ImageSource.width source) (ImageSource.height source) where
  format_eq other h := by rw [h]
  width_eq other h := by rw [h]
  height_eq other h := by rw [h]

theorem probe (h : Steady I format width height) :
    Steady (fun probe : Probe σ => I probe.inner) format width height where
  format_eq probe hprobe := h.format_eq probe.inner hprobe
  width_eq probe hprobe := h.width_eq probe.inner hprobe
  height_eq probe hprobe := h.height_eq probe.inner hprobe

end Steady

namespace Probe

variable {σ : Type} [ImageSource σ] {probe : Probe σ} {call : Call}

-- A scheduled request fails and uses up its entry
theorem answer_of_mem (h : call.rect.y ∈ probe.schedule) :
    ImageSource.answer probe call = .fail
      { probe with schedule := probe.schedule.erase call.rect.y } call.buffer
      (.sourceFailed reason) := if_pos h

-- Any other request is passed on and recorded
theorem answer_of_not_mem (h : call.rect.y ∉ probe.schedule) :
    ImageSource.answer probe call = (ImageSource.answer probe.inner call).mapSource fun inner =>
      { probe with inner := inner, requests := probe.requests ++ [call.request] } := if_neg h

end Probe

end Resampling
