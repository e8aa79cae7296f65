import Resampling.Proofs.Failure
import Resampling.Proofs.Reference
import Resampling.Proofs.Safety

-- How far the effects of a failed request go. One that is refused has none. One that fails because
-- a pull fails has painted the rows above, and leaves a window that will be filled anew.

namespace Resampling

namespace Resampler

variable {σ : Type}

-- What a stage that is in use says to a request
def verdict (stage : Resampler σ) (call : Call) : Except Error Unit :=
  Request.admit call.request stage.width stage.height stage.format.pixelSize

-- The request is refused, or it asks for no pixels
def Idles (stage : Resampler σ) (call : Call) : Prop :=
  stage.verdict call ≠ .ok () ∨ call.rect.isEmpty = true

variable [ImageSource σ]

-- A request without effect: the stage and the buffer stay, and the source is asked for nothing
structure Inert (stage : Resampler σ) (call : Call) (result : Except Error Unit) : Prop where
  answer_eq : ImageSource.answer stage call = ⟨stage, call.buffer, result, []⟩
  journal_eq : stage.journal call = []

-- The first pulls are of all rows of a window, from the top down, as far as they come
def PullsAfresh (stage : Resampler σ) {format : PixelFormat} (engine : Engine format)
    (call : Call) : Prop :=
  let first := engine.plan.anchor call.rect.y
  (stage.journal call).take engine.plan.taps = (List.range' first engine.plan.taps).map engine.met ∨
    ∃ k < engine.plan.taps, ∃ e, (ImageSource.answer stage call).result = .error e ∧
      stage.journal call =
        (List.range' first k).map engine.met ++ [(engine.pullOf (first + k), .error e)]

-- A request that fails while row `i` of its rectangle is loaded
structure Interrupted (stage : Resampler σ) {format : PixelFormat} (engine : Engine format)
    (call : Call) (e : Error) (i : Nat) : Prop where
  lt : i < call.rect.height
  -- the last pull is of a row in the window of row `i`, and it is the only one that fails
  journal : ∃ (ys : List Nat) (y : Nat), engine.plan.anchor (call.rect.y + i) ≤ y ∧
    y < engine.plan.anchor (call.rect.y + i) + engine.plan.taps ∧
    stage.journal call = ys.map engine.met ++ [(engine.pullOf y, .error e)]
  -- the rows above are painted as a request for them alone paints them
  above_ok : (ImageSource.answer stage (call.top i)).result = .ok ()
  above_eq : (ImageSource.answer stage call).state = (ImageSource.answer stage (call.top i)).state
  outside : ∀ p, (∀ j < i, p < j * call.stride ∨
      j * call.stride + call.rect.width * format.pixelSize ≤ p) →
    (ImageSource.answer stage call).state[p]? = call.buffer[p]?
  -- nothing is left in the window for the next request that asks for pixels
  afresh : ∀ calls, (∀ other ∈ calls, stage.Idles other) → ∀ next, stage.verdict next = .ok () →
    next.rect.isEmpty = false →
      (ImageSource.after (ImageSource.answer stage call).source calls).PullsAfresh engine next

-- A stage that is in use runs in every state it comes to, whatever its source answers
theorem runs_of_reachable {I : σ → Prop} {Row : Nat → Array UInt8 → Prop} {source : σ}
    {stage : Resampler σ}
    (hserves : ∀ engine : Engine (ImageSource.format source),
      engine.Ready (ImageSource.width source) (ImageSource.height source) →
        engine.plan.Serves (fun _ => I) Row fun _ => I)
    (hsource : I source) (h : Reachable source stage) :
    stage.engine = none ∨ ∃ (engine : Engine (ImageSource.format source)) (start : Option Nat),
      engine.Ready (ImageSource.width source) (ImageSource.height source) ∧
        engine.Runs Row I start stage := by
  induction h with
  | made h =>
    obtain ⟨engine, rfl, hready, hfits, hstart⟩ := h.isNew
    exact Or.inr ⟨engine, none, hready, Engine.runs_new hsource hfits hstart⟩
  | @asked stage h call ih =>
    rcases ih with hdisposed | ⟨engine, start, hready, hruns⟩
    · rw [answer_of_disposed hdisposed]
      exact Or.inl hdisposed
    · obtain ⟨after, hafter⟩ :=
        Engine.exists_runs_answer hready (hserves engine hready) hruns call
      exact Or.inr ⟨engine, after, hready, hafter⟩
  | @disposed stage h depot ih =>
    unfold dispose
    cases hengine : stage.engine with
    | none => exact ih
    | some engine => exact Or.inl rfl

theorem inert_of_disposed {stage : Resampler σ} (h : stage.engine = none) (call : Call) :
    stage.Inert call (.error .disposed) where
  answer_eq := answer_of_disposed h call
  journal_eq := by
    have hjournaled : stage.journaled.engine = none := h
    rw [journal, answer_of_disposed hjournaled]
    rfl

theorem answer_of_idles {stage : Resampler σ} (h : stage.engine ≠ none) {call : Call}
    (hidles : stage.Idles call) :
    ImageSource.answer stage call = ⟨stage, call.buffer, stage.verdict call, []⟩ := by
  obtain ⟨source, format, width, height, engine⟩ := stage
  cases engine with
  | none => exact absurd rfl h
  | some engine =>
    show copyRect (⟨source, format, width, height, some engine⟩ : Resampler σ) _ _ _ = _
    unfold copyRect
    simp only
    cases hverdict : verdict (⟨source, format, width, height, some engine⟩ : Resampler σ) call with
    | error e =>
      rw [show Request.admit ⟨call.rect, call.stride, call.length⟩ _ _ _ = .error e from hverdict]
      rfl
    | ok =>
      rw [show Request.admit ⟨call.rect, call.stride, call.length⟩ _ _ _ = .ok () from hverdict]
      rcases hidles with hrefused | hempty
      · exact absurd hverdict hrefused
      · simp only [hempty]
        rfl

theorem inert_of_idles {stage : Resampler σ} (h : stage.engine ≠ none) {call : Call}
    (hidles : stage.Idles call) : stage.Inert call (stage.verdict call) where
  answer_eq := answer_of_idles h hidles
  journal_eq := by
    have hjournaled : stage.journaled.engine ≠ none := h
    rw [journal, answer_of_idles hjournaled hidles]
    rfl

theorem after_of_idles {stage : Resampler σ} (h : stage.engine ≠ none) {calls : List Call}
    (hidles : ∀ call ∈ calls, stage.Idles call) : ImageSource.after stage calls = stage := by
  induction calls with
  | nil => rfl
  | cons call calls ih =>
    rw [List.forall_mem_cons] at hidles
    show ImageSource.after (ImageSource.answer stage call).source calls = stage
    rw [answer_of_idles h hidles.1]
    exact ih hidles.2

end Resampler

namespace Engine

variable {σ : Type} {format : PixelFormat} {engine : Engine format} {width height : Nat}
  {start : Option Nat} {stage : Resampler σ} {call : Call}

theorem Runs.verdict_eq {Row : Nat → Array UInt8 → Prop} {I : σ → Prop}
    (h : engine.Runs Row I start stage) (call : Call) :
    stage.verdict call = Request.admit call.request engine.xmap.outPixels engine.ymap.outPixels
      format.pixelSize := by
  obtain ⟨source, window, rfl, -⟩ := h
  rfl

theorem Runs.engine_ne_none {Row : Nat → Array UInt8 → Prop} {I : σ → Prop}
    (h : engine.Runs Row I start stage) : stage.engine ≠ none := by
  obtain ⟨source, window, rfl, -⟩ := h
  exact Option.some_ne_none _

variable [ImageSource σ]

theorem pullsAfresh_of_runs (hready : engine.Ready width height)
    (hruns : engine.Runs (fun _ _ => True) (fun _ => True) none stage)
    (haccept : stage.verdict call = .ok ()) (hempty : call.rect.isEmpty = false) :
    stage.PullsAfresh engine call := by
  -- an empty window lacks all its rows
  have hfirst : ∀ y ys, engine.plan.pulls none (y :: ys) =
      List.range' (engine.plan.anchor y) engine.plan.taps ++
        engine.plan.pulls (some (engine.plan.anchor y)) ys := fun _ _ => rfl
  have htake : ∀ rest, (((List.range' (engine.plan.anchor call.rect.y) engine.plan.taps) ++
      rest).map engine.met).take engine.plan.taps =
        (List.range' (engine.plan.anchor call.rect.y) engine.plan.taps).map engine.met := by
    intro rest
    rw [List.map_append, List.take_left' (by simp)]
  cases hresult : (ImageSource.answer stage call).result with
  | ok =>
    left
    have hheight : call.rect.height ≠ 0 := by
      simp only [Rect.isEmpty, Bool.or_eq_false_iff, beq_eq_false_iff_ne] at hempty
      exact hempty.2
    obtain ⟨count, hcount⟩ := Nat.exists_eq_succ_of_ne_zero hheight
    rw [journal_of_ok hready hruns hresult, Rect.rows, hempty, if_neg (by simp), hcount,
      List.range'_succ, hfirst]
    exact htake _
  | error e =>
    obtain ⟨i, hi, -, -, k, hk, hjournal⟩ :=
      exists_journal_of_error hready hruns (hruns.verdict_eq call ▸ haccept) hempty hresult
    cases i with
    | zero =>
      right
      exact ⟨k, by simpa [Plan.settled, Window.kept] using hk, e, hresult, hjournal⟩
    | succ i =>
      left
      rw [hjournal, List.range'_succ, hfirst, List.append_assoc, List.map_append,
        List.append_assoc, List.take_left' (by simp)]

theorem interrupted_of_error (hready : engine.Ready width height)
    (hruns : engine.Runs (fun _ _ => True) (fun _ => True) start stage)
    (haccept : stage.verdict call = .ok ()) (hempty : call.rect.isEmpty = false) {e : Error}
    (herror : (ImageSource.answer stage call).result = .error e) :
    ∃ i, stage.Interrupted engine call e i := by
  rw [hruns.verdict_eq] at haccept
  obtain ⟨i, hi, habove, hstate, k, hk, hjournal⟩ :=
    exists_journal_of_error hready hruns haccept hempty herror
  have hafter : engine.Runs (fun _ _ => True) (fun _ => True) none
      (ImageSource.answer stage call).source := by
    have hcopy : (ImageSource.answer stage call).Satisfies _ _ :=
      copyRect_satisfies hready engine.plan.serves_true [] hruns call.rect call.stride
        call.buffer
    rcases hcopy.of_error herror with ⟨hrefused, -⟩ | hafter
    · have haccept : Request.admit ⟨call.rect, call.stride, call.length⟩ _ _ _ = .ok () := haccept
      rw [haccept] at hrefused
      cases hrefused
    · exact hafter
  refine ⟨i, hi, ⟨_, _, ?_, hk, hjournal⟩, habove, hstate, fun p hp => ?_, ?_⟩
  · omega
  · rw [hstate]
    have hcopy : (ImageSource.answer stage (call.top i)).Satisfies _ _ :=
      copyRect_satisfies hready engine.plan.serves_true [] hruns (call.top i).rect
        (call.top i).stride (call.top i).buffer
    have hright : (call.top i).rect.x + (call.top i).rect.width ≤ engine.xmap.outPixels :=
      ((Request.admit_eq_ok_iff hempty).mp haccept).right_le
    exact getElem?_of_painted hready hright (hcopy.of_ok habove).2.1 hp
  · intro calls hcalls next hnext hnextEmpty
    have hsame : ∀ other,
        (ImageSource.answer stage call).source.verdict other = stage.verdict other :=
      fun other => (hafter.verdict_eq other).trans (hruns.verdict_eq other).symm
    rw [Resampler.after_of_idles hafter.engine_ne_none fun other hother => by
      rw [Resampler.Idles, hsame]
      exact hcalls other hother]
    exact pullsAfresh_of_runs hready hafter ((hsame next).trans hnext) hnextEmpty

end Engine

namespace Resampler

variable {σ : Type} [ImageSource σ] {source : σ} {stage : Resampler σ}

-- The same of the engine that the stage has
theorem running_of_reachable {I : σ → Prop} {Row : Nat → Array UInt8 → Prop}
    (hserves : ∀ engine : Engine (ImageSource.format source),
      engine.Ready (ImageSource.width source) (ImageSource.height source) →
        engine.plan.Serves (fun _ => I) Row fun _ => I)
    (hsource : I source) (h : Reachable source stage) {engine : Engine stage.format}
    (hengine : stage.engine = some engine) :
    stage.format = ImageSource.format source ∧
      engine.Ready (ImageSource.width source) (ImageSource.height source) ∧
      ∃ start, engine.Runs Row I start stage := by
  rcases runs_of_reachable hserves hsource h with hdisposed | ⟨made, start, hready, hruns⟩
  · rw [hdisposed] at hengine
    cases hengine
  · obtain ⟨below, window, rfl, hbelow, hfits, hholds, hstart⟩ := hruns
    cases hengine
    exact ⟨rfl, ⟨hready.supported, hready.sound, hready.width_eq, hready.height_eq⟩, start, below,
      window, rfl, hbelow, hfits, hholds, hstart⟩

-- What the rows above are, over a source that shows an image
theorem delivered_of_reachable {I : σ → Prop} {image : Picture} (hshows : Shows I image)
    (hsource : I source) (h : Reachable source stage) {engine : Engine stage.format}
    (hengine : stage.engine = some engine) {call : Call}
    (hok : (ImageSource.answer stage call).result = .ok ()) :
    (stage.picture image).Delivered call.rect call.stride call.buffer
      (ImageSource.answer stage call).state := by
  have hwidth := hshows.width_eq source hsource
  have hheight := hshows.height_eq source hsource
  have hformat := hshows.format_eq source hsource
  obtain ⟨hsame, hready, start, hruns⟩ := running_of_reachable
    (fun engine hready => Engine.serves_of_shows (hwidth ▸ hheight ▸ hready) hformat.symm hshows)
    hsource h hengine
  rw [hwidth, hheight] at hready
  have hstage := Engine.shows_stage hready (hformat.symm.trans hsame.symm) hshows
  have hpicture : stage.picture image = engine.picture image := by
    unfold picture
    rw [hengine]
  rw [hpicture]
  exact ((hstage.answer stage ⟨start, hruns⟩ call).of_ok hok).2

-- Errors in any state that a stage comes to. One that has been disposed of refuses everything. A
-- request that is refused or asks for no pixels is without effect. Any other either meets all its
-- pulls or is interrupted by the first that fails, with the rows above delivered.
theorem errors_contained (hstage : Reachable source stage) (call : Call) :
    (ImageSource.answer stage.journaled call).Alike (Alike (Journal.Alike Eq))
        (ImageSource.answer stage call) ∧
      (stage.engine = none → stage.Inert call (.error .disposed)) ∧
      ∀ engine, stage.engine = some engine →
        (∀ e, stage.verdict call = .error e → stage.Inert call (.error e)) ∧
        (stage.verdict call = .ok () → call.rect.isEmpty = true → stage.Inert call (.ok ())) ∧
        (stage.verdict call = .ok () → call.rect.isEmpty = false →
          ((ImageSource.answer stage call).result = .ok () ∧
            ∀ entry ∈ stage.journal call, entry.2 = .ok ()) ∨
          ∃ e i, (ImageSource.answer stage call).result = .error e ∧
            stage.Interrupted engine call e i ∧
            ∀ (I : σ → Prop) image, Shows I image → I source →
              (stage.picture image).Delivered (call.rect.top i) call.stride call.buffer
                (ImageSource.answer stage call).state) := by
  refine ⟨stage.alike_journaled call, fun h => inert_of_disposed h call,
    fun engine hengine => ?_⟩
  have huse : stage.engine ≠ none := by simp [hengine]
  refine ⟨fun e hrefused => ?_, fun haccept hempty => ?_, fun haccept hempty => ?_⟩
  · rw [← hrefused]
    exact inert_of_idles huse (Or.inl (by simp [hrefused]))
  · rw [← haccept]
    exact inert_of_idles huse (Or.inr hempty)
  · obtain ⟨-, hready, start, hruns⟩ := running_of_reachable
      (fun engine _ => engine.plan.serves_true) trivial hstage hengine
    cases hresult : (ImageSource.answer stage call).result with
    | ok =>
      refine Or.inl ⟨rfl, fun entry hentry => ?_⟩
      rw [Engine.journal_of_ok hready hruns hresult] at hentry
      obtain ⟨y, -, rfl⟩ := List.mem_map.mp hentry
      rfl
    | error e =>
      obtain ⟨i, hinterrupted⟩ :=
        Engine.interrupted_of_error hready hruns haccept hempty hresult
      refine Or.inr ⟨e, i, rfl, hinterrupted, fun I image hshows hsource => ?_⟩
      rw [hinterrupted.above_eq]
      exact delivered_of_reachable hshows hsource hstage hengine hinterrupted.above_ok

end Resampler

-- Three rows averaged down to two, over an image whose last row fails to come once
def Tiny.cutOff : Construction (Resampler (Probe MemoryImage)) :=
  Resampler.byMaps (Probe.around image [2]) (.neighbours 2 2) Depot.shared .fresh

-- The first of the two rows is delivered
theorem Resampler.errors_contained_halfway :
    ∃ (stage : Resampler (Probe MemoryImage)) (engine : Engine stage.format),
      Tiny.cutOff.result = .ok stage ∧ stage.engine = some engine ∧
      stage.verdict Tiny.whole = .ok () ∧ Tiny.whole.rect.isEmpty = false ∧
      stage.Interrupted engine Tiny.whole (.sourceFailed Probe.reason) 1 ∧
      (stage.picture Tiny.image.picture).Delivered (Tiny.whole.rect.top 1) Tiny.whole.stride
        Tiny.whole.buffer (ImageSource.answer stage Tiny.whole).state := by
  have hrun : (match Tiny.cutOff.result with
      | .error _ => false
      | .ok stage => stage.verdict Tiny.whole = .ok () ∧ stage.isDisposed = false ∧
        (ImageSource.answer stage Tiny.whole).result = .error (.sourceFailed Probe.reason) ∧
        (ImageSource.answer stage Tiny.whole).state.toList ≠
          (ImageSource.answer stage (Tiny.whole.top 0)).state.toList : Bool) = true := by
    decide +kernel
  cases hmade : Tiny.cutOff.result with
  | error e =>
    rw [hmade] at hrun
    cases hrun
  | ok stage =>
    rw [hmade] at hrun
    obtain ⟨haccept, huse, hfails, hpainted⟩ := of_decide_eq_true hrun
    have hreachable : Reachable (Probe.around Tiny.image [2]) stage :=
      .made (.byMaps (.neighbours 2 2) (by decide) (by decide) Depot.shared .fresh hmade)
    obtain ⟨-, -, hcontained⟩ := errors_contained hreachable Tiny.whole
    cases hengine : stage.engine with
    | none =>
      rw [isDisposed, hengine] at huse
      cases huse
    | some engine =>
      rcases (hcontained engine hengine).2.2 haccept rfl with ⟨hok, -⟩ | ⟨e, i, herror, h⟩
      · rw [hfails] at hok
        cases hok
      · rw [hfails] at herror
        cases herror
        obtain ⟨hinterrupted, hdelivered⟩ := h
        have hone : i = 1 := by
          have hlt : i < 2 := hinterrupted.lt
          have hzero : i ≠ 0 := by
            rintro rfl
            exact hpainted (congrArg Vector.toList hinterrupted.above_eq)
          omega
        subst hone
        exact ⟨stage, engine, rfl, hengine, haccept, rfl, hinterrupted,
          hdelivered _ _ Tiny.shows_source rfl⟩

end Resampling
