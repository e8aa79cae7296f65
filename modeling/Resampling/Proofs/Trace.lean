import Resampling.Proofs.Containment
import Resampling.Proofs.Reliable

-- The trace of a request: exactly which source rows are asked for, in which order, and where the
-- window is left, for every history of the stage before

namespace Resampling

namespace Window

-- The rows that are asked for when a window of `taps` rows moves from `start` to `anchor`: all of
-- the new window if the old one was empty or lies below, and else those past its end
def wanted (start : Option Nat) (taps anchor : Nat) : List Nat :=
  match start with
  | none => List.range' anchor taps
  | some start =>
    if anchor < start then List.range' anchor taps
    else
      let first := max anchor (start + taps)
      List.range' first (anchor + taps - first)

theorem missing_eq_wanted (start : Option Nat) (taps anchor : Nat) :
    missing start taps anchor = wanted start taps anchor := by
  unfold missing wanted kept
  cases start with
  | none => rfl
  | some start =>
    by_cases hback : anchor < start
    · simp only [if_pos hback]
      rfl
    · simp only [if_neg hback]
      congr 1 <;> omega

theorem wanted_self (taps anchor : Nat) : wanted (some anchor) taps anchor = [] := by
  unfold wanted
  simp

end Window

namespace Plan

variable {n : Nat} {S W T : Type} (plan : Plan n S W T)

-- Where the window is once the first `count` rows from `y` on have been loaded
def startAfter (start : Option Nat) (y : Nat) : Nat → Option Nat
  | 0 => start
  | i + 1 => some (plan.anchor (y + i))

-- The rows that `count` output rows from `y` on ask for, one output row after the other
def trace (start : Option Nat) (y count : Nat) : List Nat :=
  (List.range count).flatMap fun i =>
    Window.wanted (plan.startAfter start y i) plan.taps (plan.anchor (y + i))

theorem settled_range' (start : Option Nat) (y count : Nat) :
    plan.settled start (List.range' y count) = plan.startAfter start y count := by
  cases count with
  | zero => rfl
  | succ count =>
    rw [List.range'_concat, Nat.one_mul, settled_append]
    rfl

-- Row by row, with the window where the row above has left it
theorem pulls_range' (start : Option Nat) (y count : Nat) :
    plan.pulls start (List.range' y count) = plan.trace start y count := by
  induction count with
  | zero => rfl
  | succ count ih =>
    have hlast : plan.pulls (plan.startAfter start y count) [y + count] =
        Window.wanted (plan.startAfter start y count) plan.taps (plan.anchor (y + count)) := by
      rw [pulls, pulls, List.append_nil, Window.missing_eq_wanted]
    rw [List.range'_concat, Nat.one_mul, pulls_append, settled_range', ih, hlast, trace, trace,
      List.range_succ, List.flatMap_append, List.flatMap_singleton]

-- A window that already is where every row wants it asks for nothing
theorem trace_eq_nil {start : Option Nat} {y count : Nat}
    (h : ∀ i < count, start = some (plan.anchor (y + i))) : plan.trace start y count = [] := by
  refine List.flatMap_eq_nil_iff.mpr fun i hi => ?_
  have hi := List.mem_range.mp hi
  have hplace : plan.startAfter start y i = some (plan.anchor (y + i)) := by
    cases i with
    | zero => exact h 0 hi
    | succ i => exact (h i (by omega)).symm.trans (h (i + 1) hi)
  rw [hplace, Window.wanted_self]

end Plan

namespace Resampler

variable {σ : Type}

-- Where the window of a stage starts, if it is not empty
def windowStart (stage : Resampler σ) : Option Nat := stage.engine.bind (·.window.start)

end Resampler

namespace Engine

variable {σ : Type} {format : PixelFormat} {engine : Engine format} {width height : Nat}
  {start : Option Nat} {stage : Resampler σ} {call : Call}

theorem Runs.windowStart_eq {Row : Nat → Array UInt8 → Prop} {I : σ → Prop}
    (h : engine.Runs Row I start stage) : stage.windowStart = start := by
  obtain ⟨source, window, rfl, -, -, -, rfl⟩ := h
  rfl

theorem Runs.source {Row : Nat → Array UInt8 → Prop} {I : σ → Prop}
    (h : engine.Runs Row I start stage) : I stage.source := by
  obtain ⟨source, window, rfl, hsource, -⟩ := h
  exact hsource

variable [ImageSource σ]

-- A request that fails once it has been accepted leaves the window empty
theorem windowStart_of_error (hready : engine.Ready width height)
    (hruns : engine.Runs (fun _ _ => True) (fun _ => True) start stage)
    (haccept : stage.verdict call = .ok ()) {e : Error}
    (herror : (ImageSource.answer stage call).result = .error e) :
    (ImageSource.answer stage call).source.windowStart = none := by
  have hcopy : (ImageSource.answer stage call).Satisfies _ _ :=
    copyRect_satisfies hready engine.plan.serves_true [] hruns call.rect call.stride call.buffer
  rcases hcopy.of_error herror with ⟨hrefused, -⟩ | hafter
  · cases (hruns.verdict_eq call ▸ haccept).symm.trans hrefused
  · exact hafter.windowStart_eq

-- One that is met has loaded its rows one after the other
theorem trace_of_ok (hready : engine.Ready width height)
    (hruns : engine.Runs (fun _ _ => True) (fun _ => True) start stage)
    (hempty : call.rect.isEmpty = false)
    (hok : (ImageSource.answer stage call).result = .ok ()) :
    stage.journal call =
        (engine.plan.trace start call.rect.y call.rect.height).map engine.met ∧
      (ImageSource.answer stage call).source.windowStart =
        engine.plan.startAfter start call.rect.y call.rect.height := by
  have hrows : call.rect.rows = List.range' call.rect.y call.rect.height := by
    rw [Rect.rows, hempty, if_neg Bool.false_ne_true]
  have hcopy : (ImageSource.answer stage call).Satisfies _ _ :=
    copyRect_satisfies hready engine.plan.serves_true [] hruns call.rect call.stride call.buffer
  rw [journal_of_ok hready hruns hok, (hcopy.of_ok hok).1.windowStart_eq, hrows,
    Plan.pulls_range', Plan.settled_range']
  exact ⟨rfl, rfl⟩

end Engine

namespace Resampler

variable {σ : Type} [ImageSource σ] {source : σ} {stage : Resampler σ}

-- A request that fails once it has been accepted leaves the window empty, if there is one at all
theorem windowStart_of_ne_ok (h : Reachable source stage) {call : Call}
    (haccept : stage.verdict call = .ok ())
    (hfails : (ImageSource.answer stage call).result ≠ .ok ()) :
    (ImageSource.answer stage call).source.windowStart = none := by
  cases hengine : stage.engine with
  | none =>
    rw [answer_of_disposed hengine]
    simp only [Outcome.fail, windowStart, hengine, Option.bind_none]
  | some engine =>
    obtain ⟨-, hready, start, hruns⟩ := running_of_reachable
      (fun engine _ => engine.plan.serves_true) trivial h hengine
    cases hresult : (ImageSource.answer stage call).result with
    | ok => exact absurd hresult hfails
    | error e => exact Engine.windowStart_of_error hready hruns haccept hresult

-- A source that fails no more answers every request that is accepted
theorem result_of_reliable {I : σ → Prop} (hreliable : Reliable I (ImageSource.format source)
      (ImageSource.width source) (ImageSource.height source))
    (h : Reachable source stage) (hnow : I stage.source) (hengine : stage.engine ≠ none)
    {call : Call} (haccept : stage.verdict call = .ok ()) :
    (ImageSource.answer stage call).result = .ok () := by
  rcases runs_of_reachable (fun engine _ => engine.plan.serves_true) trivial h with
    hnone | ⟨engine, start, hready, hruns⟩
  · exact absurd hnone hengine
  · rw [hruns.verdict_eq] at haccept
    obtain ⟨below, window, rfl, -, hwindow⟩ := hruns
    exact Engine.result_eq_ok_of_reliable hready hreliable
      ⟨below, window, rfl, hnow, hwindow⟩ haccept

-- In every state that a stage comes to, over a source that fails no more, a request for pixels
-- pulls exactly the rows that its window lacks: for each of its rows all of the window if that is
-- empty or has to go back, and else what lies past its end. That depends on nothing but the rows of
-- the request and on where the window was. A request for no pixels pulls nothing and leaves the
-- window where it is. The window is empty when the stage is new and when a request has failed.
theorem pulls_wanted {I : σ → Prop} (hreliable : Reliable I (ImageSource.format source)
      (ImageSource.width source) (ImageSource.height source))
    (hstage : Reachable source stage) (hnow : I stage.source) {engine : Engine stage.format}
    (hengine : stage.engine = some engine) :
    (MadeOver source stage → stage.windowStart = none) ∧
      (∀ before : Resampler σ, Reachable source before → ∀ failed : Call,
        before.verdict failed = .ok () → (ImageSource.answer before failed).result ≠ .ok () →
          (ImageSource.answer before failed).source.windowStart = none) ∧
      ∀ call : Call, stage.verdict call = .ok () →
        let after := (ImageSource.answer stage call).source
        (ImageSource.answer stage call).result = .ok () ∧
          (call.rect.isEmpty = true →
            stage.journal call = [] ∧ after.windowStart = stage.windowStart) ∧
          (call.rect.isEmpty = false →
            stage.journal call = (engine.plan.trace stage.windowStart call.rect.y
              call.rect.height).map engine.met ∧
            after.windowStart =
              engine.plan.startAfter stage.windowStart call.rect.y call.rect.height) ∧
          ((∀ i < call.rect.height,
              stage.windowStart = some (engine.plan.anchor (call.rect.y + i))) →
            stage.journal call = [] ∧ after.windowStart = stage.windowStart) := by
  obtain ⟨-, hready, start, hruns⟩ := running_of_reachable
    (fun engine _ => engine.plan.serves_true) trivial hstage hengine
  have huse : stage.engine ≠ none := by simp [hengine]
  refine ⟨fun hmade => ?_, fun before hbefore failed haccept hfails =>
    windowStart_of_ne_ok hbefore haccept hfails, fun call haccept => ?_⟩
  · obtain ⟨made, rfl, -, -, hstart⟩ := hmade.isNew
    exact hstart
  have hok := result_of_reliable hreliable hstage hnow huse haccept
  have hidle : call.rect.isEmpty = true → stage.journal call = [] ∧
      (ImageSource.answer stage call).source.windowStart = stage.windowStart := fun hempty => by
    have hinert : stage.Inert call _ := inert_of_idles huse (Or.inr hempty)
    rw [hinert.answer_eq]
    exact ⟨hinert.journal_eq, rfl⟩
  have hmet : call.rect.isEmpty = false → _ := fun hempty =>
    hruns.windowStart_eq ▸ Engine.trace_of_ok hready hruns hempty hok
  refine ⟨hok, hidle, hmet, fun hplace => ?_⟩
  cases hempty : call.rect.isEmpty with
  | true => exact hidle hempty
  | false =>
    obtain ⟨hjournal, hafter⟩ := hmet hempty
    have hheight : 0 < call.rect.height := by
      simp only [Rect.isEmpty, Bool.or_eq_false_iff, beq_eq_false_iff_ne] at hempty
      omega
    obtain ⟨count, hcount⟩ := Nat.exists_eq_succ_of_ne_zero (Nat.ne_of_gt hheight)
    rw [hjournal, hafter, Plan.trace_eq_nil _ hplace, hcount]
    exact ⟨rfl, (hplace count (by omega)).symm⟩

end Resampler

-- A request for one row of no columns
def Tiny.thin : Call := ⟨⟨0, 0, 0, 1⟩, 2, 0, #v[]⟩

def Tiny.direct : Construction (Resampler MemoryImage) :=
  Resampler.byMaps image (.neighbours 2 2) Depot.shared .fresh

-- The rows of a request alone do not tell what it pulls: a new stage pulls nothing for a row of
-- which no columns are wanted
theorem Resampler.pulls_without_columns :
    ∃ (stage : Resampler MemoryImage) (engine : Engine stage.format),
      MadeOver Tiny.image stage ∧ stage.engine = some engine ∧
      stage.verdict Tiny.thin = .ok () ∧ stage.journal Tiny.thin = [] ∧
      ¬ ∀ call : Call, stage.verdict call = .ok () →
        stage.journal call = (engine.plan.trace stage.windowStart call.rect.y
          call.rect.height).map engine.met := by
  have hrun : (match Tiny.direct.result with
      | .error _ => false
      | .ok stage =>
        stage.verdict Tiny.thin = .ok () ∧ stage.isDisposed = false : Bool) = true := by
    decide +kernel
  cases hresult : Tiny.direct.result with
  | error e =>
    rw [hresult] at hrun
    cases hrun
  | ok stage =>
    rw [hresult] at hrun
    obtain ⟨haccept, huse⟩ := of_decide_eq_true hrun
    have hmade : MadeOver Tiny.image stage :=
      .byMaps (.neighbours 2 2) (by decide) (by decide) Depot.shared .fresh hresult
    obtain ⟨engine, rfl, hready, -, hstart⟩ := hmade.isNew
    have hjournal : (engine.stage Tiny.image engine.window).journal Tiny.thin = [] :=
      (inert_of_idles (Option.some_ne_none _) (Or.inr rfl)).journal_eq
    refine ⟨_, engine, hmade, rfl, haccept, hjournal, fun hclaim => ?_⟩
    -- a new window would have to be filled
    have htrace : (engine.stage Tiny.image engine.window).journal Tiny.thin =
        (engine.plan.trace engine.window.start 0 1).map engine.met := hclaim Tiny.thin haccept
    have hfull : engine.plan.trace none 0 1 = List.range' (engine.plan.anchor 0) engine.plan.taps :=
      List.append_nil _
    rw [hjournal, hstart, hfull] at htrace
    have hcount := congrArg List.length htrace
    rw [List.length_map, List.length_range'] at hcount
    exact Nat.ne_of_lt hready.sound.taps_pos hcount

-- The stage fails at its last row, and pulls all rows when it is asked again
theorem Resampler.pulls_wanted_after_failure :
    ∃ (stage : Resampler (Probe MemoryImage)) (engine : Engine stage.format),
      Reachable (Probe.around Tiny.image [2]) stage ∧ stage.engine = some engine ∧
      stage.windowStart = none ∧ (ImageSource.answer stage Tiny.whole).result = .ok () ∧
      stage.journal Tiny.whole = (engine.plan.trace none 0 2).map engine.met ∧
      (stage.journal Tiny.whole).map (·.1.rect.y) = [0, 1, 2] := by
  have hrun : (match Tiny.cutOff.result with
      | .error _ => false
      | .ok stage =>
        let again := (ImageSource.answer stage Tiny.whole).source
        stage.verdict Tiny.whole = .ok () ∧ again.verdict Tiny.whole = .ok () ∧
        again.isDisposed = false ∧ again.source.schedule = [] ∧
        (ImageSource.answer stage Tiny.whole).result = .error (.sourceFailed Probe.reason) ∧
        (again.journal Tiny.whole).map (·.1.rect.y) = [0, 1, 2] : Bool) = true := by
    decide +kernel
  cases hmade : Tiny.cutOff.result with
  | error e =>
    rw [hmade] at hrun
    cases hrun
  | ok first =>
    rw [hmade] at hrun
    obtain ⟨hfirst, haccept, huse, hschedule, hfails, hrows⟩ := of_decide_eq_true hrun
    have hreachable : Reachable (Probe.around Tiny.image [2]) first :=
      .made (.byMaps (.neighbours 2 2) (by decide) (by decide) Depot.shared .fresh hmade)
    generalize hagain : (ImageSource.answer first Tiny.whole).source = again at *
    have hstage : Reachable (Probe.around Tiny.image [2]) again := hagain ▸ hreachable.asked _
    cases hengine : again.engine with
    | none =>
      rw [isDisposed, hengine] at huse
      cases huse
    | some engine =>
      have hmemory := MemoryImage.reliable
        (show MemoryImage.make .gray8 2 3 2 Tiny.image.data = .ok Tiny.image from rfl)
      obtain ⟨-, -, _, hruns⟩ := running_of_reachable
        (fun engine hready => Engine.serves_of_shows hready rfl Tiny.shows_source) rfl hstage
        hengine
      have hnow : ∃ source, Probe.Alike Eq again.source source ∧ source = Tiny.image :=
        ⟨Tiny.image, ⟨hschedule, hruns.source⟩, rfl⟩
      obtain ⟨-, hempty, hpulls⟩ := pulls_wanted
        (.of_alike (Probe.alike ImageSource.alike_eq) hmemory) hstage hnow hengine
      have hstart : again.windowStart = none :=
        hagain ▸ hempty first hreachable Tiny.whole hfirst (by simp [hfails])
      obtain ⟨hok, -, hmet, -⟩ := hpulls Tiny.whole haccept
      obtain ⟨hjournal, -⟩ := hmet rfl
      rw [hstart] at hjournal
      exact ⟨again, engine, hstage, hengine, hstart, hok, hjournal, hrows⟩

end Resampling
