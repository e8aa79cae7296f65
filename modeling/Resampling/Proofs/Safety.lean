import Resampling.Proofs.Stage
import Resampling.Proofs.Watched

-- Safety. Whatever a stage is asked for and whatever its source does, the stage keeps to its
-- buffers, and asks the source for rows that the source has.

namespace Resampling

-- A source of one extent that does not break at requests that it has to admit. It may fail at
-- them, and it may leave its buffer as it was.
structure Harmless {σ : Type} [ImageSource σ] (I : σ → Prop) (format : PixelFormat)
    (width height : Nat) : Prop extends Steady I format width height where
  answer : ∀ source, I source → ∀ call : Call,
    Request.admit call.request width height format.pixelSize = .ok () →
      I (ImageSource.answer source call).source ∧
        (ImageSource.answer source call).result ≠ .error .fault

-- A probe may fail when its source does not, and that is all
theorem Harmless.probe {σ : Type} [ImageSource σ] {I : σ → Prop} {format : PixelFormat}
    {width height : Nat} (h : Harmless I format width height) :
    Harmless (fun probe : Probe σ => I probe.inner) format width height where
  toSteady := h.toSteady.probe
  answer probe hprobe call haccept := by
    by_cases hfails : call.rect.y ∈ probe.schedule
    · rw [Probe.answer_of_mem hfails]
      exact ⟨hprobe, by simp [Outcome.fail]⟩
    · rw [Probe.answer_of_not_mem hfails]
      exact h.answer probe.inner hprobe call haccept

-- A request for a full row that an image has, as the image wants to be asked
def Request.IsPull (width height pixelSize : Nat) (request : Request) : Prop :=
  (∃ y < height, request = Request.fullRow width pixelSize y) ∧
    Request.admit request width height pixelSize = .ok ()

namespace Resampler

section Reach

variable {σ : Type} [ImageSource σ]

-- The states that a stage over a source comes to
inductive Reachable (source : σ) : Resampler σ → Prop
  | made {stage : Resampler σ} (h : MadeOver source stage) : Reachable source stage
  | asked {stage : Resampler σ} (h : Reachable source stage) (call : Call) :
    Reachable source (ImageSource.answer stage call).source
  | disposed {stage : Resampler σ} (h : Reachable source stage) (depot : Depot) :
    Reachable source (stage.dispose depot).1

end Reach

variable {σ : Type} {I : σ → Prop} {format : PixelFormat} {width height : Nat}

-- A stage over a source for which `I` holds, disposed of or running
def Intact (I : σ → Prop) (format : PixelFormat) (width height : Nat) (stage : Resampler σ) :
    Prop :=
  stage.engine = none ∧ I stage.source ∨ ∃ (engine : Engine format) (start : Option Nat),
    engine.Ready width height ∧ engine.Runs (fun _ _ => True) I start stage

def Asked (I : σ → Prop) (format : PixelFormat) (width height : Nat) (probe : Probe σ) : Prop :=
  probe.schedule = [] ∧ I probe.inner ∧
    ∀ request ∈ probe.requests, request.IsPull width height format.pixelSize

theorem Intact.source {stage : Resampler σ} (h : Intact I format width height stage) :
    I stage.source := by
  rcases h with ⟨-, hsource⟩ | ⟨engine, start, -, source, window, rfl, hsource, -⟩
  · exact hsource
  · exact hsource

theorem Intact.watched {stage : Resampler σ} (h : Intact I format width height stage) :
    Intact (Asked I format width height) format width height stage.watched := by
  have hasked : ∀ source, I source → Asked I format width height (Probe.around source []) :=
    fun source hsource => ⟨rfl, hsource, fun request h => absurd h List.not_mem_nil⟩
  rcases h with ⟨hdisposed, hsource⟩ | ⟨engine, start, hready, hruns⟩
  · exact Or.inl ⟨hdisposed, hasked _ hsource⟩
  · obtain ⟨source, window, rfl, hsource, hwindow⟩ := hruns
    exact Or.inr ⟨engine, start, hready, _, window, rfl, hasked source hsource, hwindow⟩

variable [ImageSource σ]

theorem answer_of_disposed {stage : Resampler σ} (h : stage.engine = none) (call : Call) :
    ImageSource.answer stage call = .fail stage call.buffer .disposed := by
  show stage.copyRect call.rect call.stride call.buffer = _
  unfold copyRect
  rw [h]

-- One request. As long as pulls do not break the source, the request does not break the stage.
theorem Intact.answer {stage : Resampler σ} (h : Intact I format width height stage)
    (hpulls : ∀ source, I source → ∀ call : Call,
      call.request.IsPull width height format.pixelSize →
        I (ImageSource.answer source call).source ∧
          (ImageSource.answer source call).result ≠ .error .fault) (call : Call) :
    Intact I format width height (ImageSource.answer stage call).source ∧
      (ImageSource.answer stage call).result ≠ .error .fault := by
  rcases h with ⟨hdisposed, hsource⟩ | ⟨engine, start, hready, hruns⟩
  · rw [answer_of_disposed hdisposed]
    exact ⟨Or.inl ⟨hdisposed, hsource⟩, by simp [Outcome.fail]⟩
  have hserves : engine.plan.Serves (fun _ => I) (fun _ _ => True)
      fun e source => e ≠ .fault ∧ I source := by
    apply Engine.serves_of_answer hready
    intro _ source y hsource hy call hcall
    obtain ⟨hafter, hresult⟩ := hpulls source hsource call
      ⟨⟨y, hy, hcall⟩, by rw [hcall]; exact Engine.admit_fullRow hready hy⟩
    cases hanswer : (ImageSource.answer source call).result with
    | error e =>
      refine Outcome.satisfies_of_error hanswer ⟨fun he => ?_, hafter⟩
      rw [hanswer, he] at hresult
      exact hresult rfl
    | ok => exact Outcome.satisfies_of_ok hanswer ⟨hafter, trivial⟩
  have hcopy : (ImageSource.answer stage call).Satisfies _ _ :=
    Engine.copyRect_satisfies hready hserves [] hruns call.rect call.stride call.buffer
  cases hanswer : (ImageSource.answer stage call).result with
  | ok => exact ⟨Or.inr ⟨engine, _, hready, (hcopy.of_ok hanswer).1⟩, by simp⟩
  | error e =>
    rcases hcopy.of_error hanswer with ⟨hrefused, hsame⟩ | hfailed
    · rw [hsame]
      refine ⟨Or.inr ⟨engine, start, hready, hruns⟩, fun hfault => ?_⟩
      cases hfault
      exact Request.admit_ne_fault hrefused
    · obtain ⟨source, window, hstage, ⟨he, hsource⟩, hwindow⟩ := hfailed
      refine ⟨Or.inr ⟨engine, none, hready, source, window, hstage, hsource, hwindow⟩, ?_⟩
      intro hfault
      cases hfault
      exact he rfl

theorem Asked.answer (hharmless : Harmless I format width height) {probe : Probe σ}
    (h : Asked I format width height probe) {call : Call}
    (hpull : call.request.IsPull width height format.pixelSize) :
    Asked I format width height (ImageSource.answer probe call).source ∧
      (ImageSource.answer probe call).result ≠ .error .fault := by
  obtain ⟨hschedule, hinner, hrequests⟩ := h
  obtain ⟨hinner, hresult⟩ := hharmless.answer probe.inner hinner call hpull.2
  rw [Probe.answer_eq hschedule]
  refine ⟨⟨hschedule, hinner, fun request hrequest => ?_⟩, hresult⟩
  rcases List.mem_append.mp hrequest with hrequest | hrequest
  · exact hrequests request hrequest
  · rw [List.mem_singleton.mp hrequest]
    exact hpull

end Resampler

-- Neighbouring rows averaged, over a source that fails once and never writes
namespace Blind

def blank : Blank := ⟨.gray8, 2, 3⟩

def made : Construction (Resampler (Probe Blank)) :=
  Resampler.byMaps (Probe.around blank [1]) (.neighbours 2 2) Depot.shared .fresh

def whole : Call := ⟨⟨0, 0, 2, 2⟩, 2, 4, #v[7, 7, 7, 7]⟩

end Blind

end Resampling
