import Resampling.Proofs.Run
import Resampling.Resampler.Basic

-- Sources that answer alike. A stage knows its source by the answers only, so that stages over
-- sources that answer alike answer alike, and a probe may be put under any stage to see what it
-- asks for.

namespace Resampling

variable {σ τ β ι : Type} {R : σ → τ → Prop}

-- The same outcome, left behind by sources that `R` relates
structure Outcome.Alike (R : σ → τ → Prop) (outcome : Outcome σ β) (other : Outcome τ β) :
    Prop where
  source : R outcome.source other.source
  state_eq : outcome.state = other.state
  result_eq : outcome.result = other.result
  events_eq : outcome.events = other.events

-- Sources that `R` relates look the same and answer alike
structure ImageSource.Alike [ImageSource σ] [ImageSource τ] (R : σ → τ → Prop) : Prop where
  width_eq : ∀ source other, R source other → width source = width other
  height_eq : ∀ source other, R source other → height source = height other
  format_eq : ∀ source other, R source other → format source = format other
  answer : ∀ source other, R source other → ∀ call, (answer source call).Alike R (answer other call)

namespace Outcome

theorem alike_settle {source : σ} {other : τ} (h : R source other) (state : β)
    (events : List Event) (next : Except Error β) :
    (settle source state events next).Alike R (settle other state events next) := by
  cases next with
  | error e => exact ⟨h, rfl, rfl, rfl⟩
  | ok after => exact ⟨h, rfl, rfl, rfl⟩

theorem alike_andThen {outcome : Outcome σ β} {other : Outcome τ β} (h : outcome.Alike R other)
    {next : σ → β → Outcome σ β} {next' : τ → β → Outcome τ β}
    (hnext : ∀ source other state, R source other →
      (next source state).Alike R (next' other state)) :
    (outcome.andThen next).Alike R (other.andThen next') := by
  unfold andThen
  rw [← h.result_eq, ← h.state_eq, ← h.events_eq]
  cases outcome.result with
  | error e => exact h
  | ok =>
    have hafter := hnext _ _ outcome.state h.source
    exact ⟨hafter.source, hafter.state_eq, hafter.result_eq,
      congrArg (outcome.events ++ ·) hafter.events_eq⟩

theorem alike_forEach {step : ι → σ → β → Outcome σ β} {step' : ι → τ → β → Outcome τ β}
    (hstep : ∀ i source other state, R source other →
      (step i source state).Alike R (step' i other state)) (is : List ι) {source : σ} {other : τ}
    (h : R source other) (state : β) :
    (forEach step is source state).Alike R (forEach step' is other state) := by
  induction is generalizing source other state with
  | nil => exact ⟨h, rfl, rfl, rfl⟩
  | cons i is ih =>
    exact alike_andThen (hstep i source other state h) fun source other state h => ih h state

end Outcome

variable [ImageSource σ] [ImageSource τ]

namespace ImageSource

theorem alike_eq : Alike (Eq : σ → σ → Prop) where
  width_eq source other h := by rw [h]
  height_eq source other h := by rw [h]
  format_eq source other h := by rw [h]
  answer source other h call := by
    rw [h]
    exact ⟨rfl, rfl, rfl, rfl⟩

theorem alike_after (halike : Alike R) {source : σ} {other : τ} (h : R source other)
    (calls : List Call) : R (after source calls) (after other calls) := by
  induction calls generalizing source other with
  | nil => exact h
  | cons call calls ih => exact ih (halike.answer source other h call).source

end ImageSource

namespace Plan

variable {n : Nat} {S W T : Type} [Element S]

theorem alike_pull (halike : ImageSource.Alike R) (plan : Plan n S W T) (anchor slot : Nat)
    {source : σ} {other : τ} (h : R source other) (window : Window n T) :
    (plan.pull anchor slot source window).Alike R (plan.pull anchor slot other window) := by
  unfold pull
  simp only
  split
  · exact ⟨h, rfl, rfl, rfl⟩
  · rename_i y line _
    have hanswer := halike.answer source other h
      ⟨⟨0, y, plan.xmap.inPixels, 1⟩, plan.rowBytes, line.size, line.toVector⟩
    unfold ImageSource.answer at hanswer
    simp only [← hanswer.state_eq, ← hanswer.result_eq, ← hanswer.events_eq]
    exact Outcome.alike_settle hanswer.source ..

theorem alike_load (halike : ImageSource.Alike R) (plan : Plan n S W T) (anchor : Nat)
    {source : σ} {other : τ} (h : R source other) (window : Window n T) :
    (plan.load anchor source window).Alike R (plan.load anchor other window) := by
  unfold load
  simp only
  split
  · exact ⟨h, rfl, rfl, rfl⟩
  · rename_i shift moved _
    have hloop := Outcome.alike_forEach
      (fun slot source other window h => alike_pull halike plan anchor slot h window)
      (List.range' (plan.taps - shift) shift) h { moved with start := some anchor }
    simp only [← hloop.state_eq, ← hloop.result_eq, ← hloop.events_eq]
    exact ⟨hloop.source, rfl, rfl, rfl⟩

theorem alike_copyRow (halike : ImageSource.Alike R) (plan : Plan n S W T) (rect : Rect)
    (stride i : Nat) {length : Nat} {source : σ} {other : τ} (h : R source other)
    (state : Window n T × Vector UInt8 length) :
    (plan.copyRow rect stride i source state).Alike R
      (plan.copyRow rect stride i other state) := by
  unfold copyRow
  simp only
  split
  · exact ⟨h, rfl, rfl, rfl⟩
  · rename_i row _
    have hload := alike_load halike plan row.anchor h state.1
    simp only [← hload.state_eq, ← hload.result_eq, ← hload.events_eq]
    exact Outcome.alike_settle hload.source ..

end Plan

namespace Resampler

def withSource (stage : Resampler σ) (source : τ) : Resampler τ :=
  ⟨source, stage.format, stage.width, stage.height, stage.engine⟩

-- Stages that differ in their sources only, and these are related
def Alike (R : σ → τ → Prop) (stage : Resampler σ) (other : Resampler τ) : Prop :=
  R stage.source other.source ∧ stage = other.withSource stage.source

theorem alike_copyRect (halike : ImageSource.Alike R) {stage : Resampler σ} {other : Resampler τ}
    (h : Alike R stage other) (rect : Rect) (stride : Nat) {length : Nat}
    (buffer : Vector UInt8 length) :
    (stage.copyRect rect stride buffer).Alike (Alike R) (other.copyRect rect stride buffer) := by
  obtain ⟨hsource, hstage⟩ := h
  generalize stage.source = source at hsource hstage
  subst hstage
  obtain ⟨below, format', width', height', engine⟩ := other
  have hsame : ∀ {source : σ} {below : τ} (engine : Option (Engine format')), R source below →
      Alike R (⟨source, format', width', height', engine⟩ : Resampler σ)
        ⟨below, format', width', height', engine⟩ := fun _ h => ⟨h, rfl⟩
  unfold copyRect withSource
  cases engine with
  | none => exact ⟨hsame none hsource, rfl, rfl, rfl⟩
  | some engine =>
    simp only
    split
    · exact ⟨hsame _ hsource, rfl, rfl, rfl⟩
    · split
      · exact ⟨hsame _ hsource, rfl, rfl, rfl⟩
      · have hrows := Outcome.alike_forEach
          (fun i source other state h =>
            Plan.alike_copyRow halike engine.plan rect stride i h state)
          (List.range rect.height) hsource (engine.window, buffer)
        unfold Plan.copyRows
        simp only [← hrows.state_eq, ← hrows.result_eq, ← hrows.events_eq]
        exact ⟨hsame _ hrows.source, rfl, rfl, rfl⟩

theorem alike (halike : ImageSource.Alike R) : ImageSource.Alike (Alike R) where
  width_eq stage other h := by
    rw [h.2]
    rfl
  height_eq stage other h := by
    rw [h.2]
    rfl
  format_eq stage other h := by
    rw [h.2]
    rfl
  answer _ _ h call := alike_copyRect halike h call.rect call.stride call.buffer

end Resampler

namespace Probe

-- A probe that fails at no row, around a source that is related
def Alike (R : σ → τ → Prop) (probe : Probe σ) (source : τ) : Prop :=
  probe.schedule = [] ∧ R probe.inner source

theorem answer_eq {probe : Probe σ} (hschedule : probe.schedule = []) (call : Call) :
    ImageSource.answer probe call = (ImageSource.answer probe.inner call).mapSource fun inner =>
      { probe with inner := inner, requests := probe.requests ++ [call.request] } :=
  answer_of_not_mem (by rw [hschedule]; exact List.not_mem_nil)

theorem alike (halike : ImageSource.Alike R) : ImageSource.Alike (Alike R) where
  width_eq probe source h := halike.width_eq probe.inner source h.2
  height_eq probe source h := halike.height_eq probe.inner source h.2
  format_eq probe source h := halike.format_eq probe.inner source h.2
  answer probe source h call := by
    have hanswer := halike.answer probe.inner source h.2 call
    rw [answer_eq h.1]
    exact ⟨⟨h.1, hanswer.source⟩, hanswer.state_eq, hanswer.result_eq, hanswer.events_eq⟩

end Probe

end Resampling
