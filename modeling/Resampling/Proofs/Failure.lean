import Resampling.Proofs.Journal
import Resampling.Proofs.Stage

-- Requests that fail. A request that is accepted fails with the first pull that does, and by then
-- it has painted the rows above.

namespace Resampling

def Rect.top (rect : Rect) (count : Nat) : Rect := { rect with height := count }

-- A request for the top rows of a rectangle alone
def Call.top (call : Call) (count : Nat) : Call := { call with rect := call.rect.top count }

theorem Request.Placed.top {rect : Rect} {stride length width height pixelSize count : Nat}
    (h : Request.Placed ⟨rect, stride, length⟩ width height pixelSize)
    (hcount : count ≤ rect.height) :
    Request.Placed ⟨rect.top count, stride, length⟩ width height pixelSize where
  right_le := h.right_le
  right_lt := h.right_lt
  bottom_le := Nat.le_trans (Nat.add_le_add_left hcount _) h.bottom_le
  bottom_lt := Nat.lt_of_le_of_lt (Nat.add_le_add_left hcount _) h.bottom_lt
  row_le := h.row_le
  end_le := by
    have hrows := Nat.mul_le_mul_right stride (Nat.sub_le_sub_right hcount 1)
    exact Nat.le_trans (Nat.add_le_add_right hrows _) h.end_le
  end_lt := by
    have hrows := Nat.mul_le_mul_right stride (Nat.sub_le_sub_right hcount 1)
    exact Nat.lt_of_le_of_lt (Nat.add_le_add_right hrows _) h.end_lt

namespace Plan

variable {n : Nat} {S W T σ : Type} [Element S] [LocalElement S] [ImageSource σ]
  {plan : Plan n S W T} {P : List Nat → σ → Prop} {Row : Nat → Array UInt8 → Prop}
  {E : Error → σ → Prop} {rect : Rect} {stride length : Nat} {window : Window n T}

-- A rectangle that fails was painted down to some row, for which a pull failed
theorem exists_pull_of_copyRows_eq_error (hsound : plan.Sound) (hserves : plan.Serves P Row E)
    (hplaced : Request.Placed ⟨rect, stride, length⟩ plan.xmap.outPixels plan.ymap.outPixels
      (Element.size (Vector S n)))
    (hfits : window.Fits plan) (hholds : window.Holds plan Row) (buffer : Vector UInt8 length)
    {source : σ} {ys : List Nat} (h : P ys source) {e : Error}
    (herror : (plan.copyRows rect stride source window buffer).result = .error e) :
    ∃ i < rect.height,
      let above := plan.copyRows (rect.top i) stride source window buffer
      let start := plan.settled window.start (List.range' rect.y i)
      let first := plan.anchor (rect.y + i) +
        Window.kept start plan.taps (plan.anchor (rect.y + i))
      above.result = .ok () ∧
        (plan.copyRows rect stride source window buffer).state.2 = above.state.2 ∧
        ∃ k, first + k < plan.anchor (rect.y + i) + plan.taps ∧
          first + k < plan.ymap.inPixels ∧
          ∃ (before : σ) (size : Nat) (line : Vector UInt8 size), size = plan.rowBytes ∧
            P (ys ++ plan.pulls window.start (List.range' rect.y i) ++ List.range' first k)
              before ∧
            let outcome := ImageSource.copyRect before ⟨0, first + k, plan.xmap.inPixels, 1⟩
              plan.rowBytes line
            outcome.result = .error e ∧
              (plan.copyRows rect stride source window buffer).source = outcome.source := by
  obtain ⟨i, hi, hbefore, hlast, hsource, hstate⟩ := Outcome.exists_of_forEach_eq_error herror
  rw [List.length_range] at hi
  rw [List.take_range, Nat.min_eq_left (Nat.le_of_lt hi)] at hbefore hlast hsource hstate
  rw [List.getElem_range] at hlast hsource hstate
  refine ⟨i, hi, hbefore, ?_⟩
  have habove : Outcome.forEach (plan.copyRow rect stride) (List.range i) source (window, buffer) =
      plan.copyRows (rect.top i) stride source window buffer := rfl
  rw [habove] at hlast hsource hstate
  have hcopied := (copyRows_satisfies hsound hserves (hplaced.top (Nat.le_of_lt hi)) hfits hholds
    buffer h).of_ok hbefore
  generalize plan.copyRows (rect.top i) stride source window buffer = above at *
  obtain ⟨hp, hfits, hstart, hholds, -⟩ := hcopied
  have hstart : above.state.1.start = plan.settled window.start (List.range' rect.y i) := hstart
  obtain ⟨hanchor, hloaded, hresult, -, -, hbuffer⟩ :=
    copyRow_eq hsound hserves hplaced hfits hholds above.state.2 hi hp
  have hfailed := hresult.symm.trans hlast
  obtain ⟨k, hk, before, size, line, hsize, hpulled, houtcome, hafter⟩ :=
    exists_pull_of_load_eq_error hsound hserves hfits hholds hanchor hp hfailed
  rw [hstart] at hk hpulled houtcome hafter
  refine ⟨hstate ▸ hbuffer (by rw [hfailed]; simp), k, by omega, by omega, before, size, line,
    hsize, hpulled, ?_⟩
  rw [Nat.add_assoc]
  exact ⟨houtcome, hsource.trans (hloaded.trans hafter)⟩

-- Nothing is promised of the pulls
omit [LocalElement S] in
theorem serves_true (plan : Plan n S W T) :
    plan.Serves (fun _ (_ : σ) => True) (fun _ _ => True) fun _ _ => True := by
  intro ys source y _ _ length buffer _
  cases hresult : (ImageSource.copyRect source ⟨0, y, plan.xmap.inPixels, 1⟩ plan.rowBytes
      buffer).result with
  | ok => exact Outcome.satisfies_of_ok hresult ⟨trivial, trivial⟩
  | error e => exact Outcome.satisfies_of_error hresult trivial

end Plan

theorem Request.admit_of_placed {request : Request} {width height pixelSize : Nat}
    (h : request.Placed width height pixelSize) :
    Request.admit request width height pixelSize = .ok () := by
  by_cases hempty : request.rect.isEmpty
  · have hin : request.rect.liesIn width height = true :=
      Rect.liesIn_eq_true_iff.mpr ⟨⟨h.right_lt, h.bottom_lt⟩, h.right_le, h.bottom_le⟩
    unfold Request.admit
    rw [hin, hempty]
    rfl
  · exact (admit_eq_ok_iff (by simpa using hempty)).mpr h

namespace Engine

variable {σ : Type} [ImageSource σ] {format : PixelFormat} {engine : Engine format}
  {width height : Nat}

theorem answer_stage (engine : Engine format) (source : σ)
    (window : Window format.channels format.sample.Inner) {call : Call}
    (haccept : Request.admit call.request engine.xmap.outPixels engine.ymap.outPixels
      format.pixelSize = .ok ()) :
    let outcome := engine.plan.copyRows call.rect call.stride source window call.buffer
    let answer := ImageSource.answer (engine.stage source window) call
    (call.rect.isEmpty = false → answer.source = engine.stage outcome.source outcome.state.1) ∧
      (call.rect.isEmpty = false ∨ call.rect.height = 0 →
        answer.result = outcome.result ∧ answer.state = outcome.state.2) := by
  have hanswer : ImageSource.answer (engine.stage source window) call = _ :=
    copyRect_stage engine source window call.rect call.stride call.buffer
  rw [show Request.admit ⟨call.rect, call.stride, call.length⟩ _ _ _ = .ok () from haccept]
    at hanswer
  by_cases hempty : call.rect.isEmpty
  · rw [if_pos hempty] at hanswer
    rw [hanswer, hempty]
    refine ⟨(fun h => by cases h), fun h => ?_⟩
    have hrows : call.rect.height = 0 := by simpa using h
    rw [Plan.copyRows, hrows]
    exact ⟨rfl, rfl⟩
  · rw [if_neg hempty] at hanswer
    rw [hanswer]
    exact ⟨fun _ => rfl, fun _ => ⟨rfl, rfl⟩⟩

-- The same of a request to a stage
theorem exists_pull_of_answer_eq_error {P : List Nat → σ → Prop} {Row : Nat → Array UInt8 → Prop}
    {E : Error → σ → Prop} (hready : engine.Ready width height)
    (hserves : engine.plan.Serves P Row E) {ys : List Nat} {start : Option Nat}
    {stage : Resampler σ} (hruns : engine.Runs Row (P ys) start stage) {call : Call}
    (haccept : Request.admit call.request engine.xmap.outPixels engine.ymap.outPixels
      format.pixelSize = .ok ()) (hempty : call.rect.isEmpty = false) {e : Error}
    (herror : (ImageSource.answer stage call).result = .error e) :
    ∃ i < call.rect.height,
      let anchor := engine.plan.anchor (call.rect.y + i)
      let first := anchor + Window.kept
        (engine.plan.settled start (List.range' call.rect.y i)) engine.plan.taps anchor
      (ImageSource.answer stage (call.top i)).result = .ok () ∧
        (ImageSource.answer stage call).state = (ImageSource.answer stage (call.top i)).state ∧
        ∃ k, first + k < anchor + engine.plan.taps ∧ ∃ (before : σ) (pull : Call),
          pull.request = Request.fullRow width format.pixelSize (first + k) ∧
          P (ys ++ engine.plan.pulls start (List.range' call.rect.y i) ++ List.range' first k)
            before ∧
          (ImageSource.answer before pull).result = .error e ∧
          (ImageSource.answer stage call).source.source =
            (ImageSource.answer before pull).source := by
  obtain ⟨source, window, rfl, hsource, hfits, hholds, rfl⟩ := hruns
  have hplaced := (Request.admit_eq_ok_iff hempty).mp haccept
  obtain ⟨hafter, hanswer⟩ := answer_stage engine source window haccept
  obtain ⟨hresult, hstate⟩ := hanswer (.inl hempty)
  rw [← size_pixel] at hplaced
  obtain ⟨i, hi, habove, hpainted, k, hk, -, before, size, line, hsize, hpulled, hfailed, hend⟩ :=
    Plan.exists_pull_of_copyRows_eq_error hready.sound hserves hplaced hfits hholds call.buffer
      hsource (hresult.symm.trans herror)
  have htop := hplaced.top (Nat.le_of_lt hi)
  rw [size_pixel] at htop
  have htopAccept : Request.admit (call.top i).request engine.xmap.outPixels
      engine.ymap.outPixels format.pixelSize = .ok () := Request.admit_of_placed htop
  obtain ⟨-, htopAnswer⟩ := answer_stage engine source window htopAccept
  obtain ⟨htopResult, htopState⟩ := htopAnswer <| by
    by_cases hzero : i = 0
    · exact .inr hzero
    · left
      simp only [Rect.isEmpty, Bool.or_eq_false_iff, beq_eq_false_iff_ne] at hempty ⊢
      exact ⟨hempty.1, hzero⟩
  refine ⟨i, hi, htopResult.trans habove, ?_, k, hk, before,
    ⟨⟨0, _, engine.plan.xmap.inPixels, 1⟩, engine.plan.rowBytes, size, line⟩, ?_, hpulled, hfailed,
    ?_⟩
  · rw [hstate, hpainted]
    exact htopState.symm
  · have hwidth : engine.plan.xmap.inPixels = width := hready.width_eq
    subst hsize
    show (⟨⟨0, _, engine.plan.xmap.inPixels, 1⟩, engine.plan.rowBytes, engine.plan.rowBytes⟩ :
      Request) = _
    rw [rowBytes_eq hready, hwidth]
    rfl
  · rw [hafter hempty]
    exact hend

-- The request that pulls a row, and the entry of a journal when the row comes
def pullOf (engine : Engine format) (y : Nat) : Request :=
  Request.fullRow engine.xmap.inPixels format.pixelSize y

def met (engine : Engine format) (y : Nat) : Request × Except Error Unit :=
  (engine.pullOf y, .ok ())

theorem serves_journal (hready : engine.Ready width height) :
    engine.plan.Serves
      (fun (ys : List Nat) (journal : Journal σ) => journal.entries = ys.map engine.met)
      (fun _ _ => True) fun _ _ => True := by
  apply serves_of_answer hready
  intro ys journal y hentries hy call hcall
  rw [Journal.answer_eq]
  cases hresult : (ImageSource.answer journal.inner call).result with
  | error e => exact Outcome.satisfies_of_error hresult trivial
  | ok =>
    refine Outcome.satisfies_of_ok hresult ⟨?_, trivial⟩
    rw [Outcome.mapSource, hentries, hcall, List.map_append]
    simp only [List.map_cons, List.map_nil, met, pullOf]
    rw [hready.width_eq]

section Journal

variable {start : Option Nat} {stage : Resampler σ} {call : Call}

omit [ImageSource σ] in
theorem runs_journaled (hruns : engine.Runs (fun _ _ => True) (fun _ => True) start stage) :
    engine.Runs (fun _ _ => True)
      (fun journal : Journal σ => journal.entries = ([] : List Nat).map engine.met) start
      stage.journaled := by
  obtain ⟨source, window, rfl, -, hwindow⟩ := hruns
  exact ⟨Journal.around source, window, rfl, rfl, hwindow⟩

-- A request that is met has met all its pulls
theorem journal_of_ok (hready : engine.Ready width height)
    (hruns : engine.Runs (fun _ _ => True) (fun _ => True) start stage)
    (hok : (ImageSource.answer stage call).result = .ok ()) :
    stage.journal call = (engine.plan.pulls start call.rect.rows).map engine.met := by
  have hsame := (stage.alike_journaled call).result_eq
  have hcopy := copyRect_satisfies hready (serves_journal hready) [] (runs_journaled hruns)
    call.rect call.stride call.buffer
  obtain ⟨⟨source, window, hafter, hentries, -⟩, -⟩ := hcopy.of_ok (hsame.trans hok)
  unfold Resampler.journal
  rw [show (ImageSource.answer stage.journaled call).source = _ from hafter]
  exact hentries

-- One that fails has failed at its last pull, which is a row of the window that it was loading
theorem exists_journal_of_error (hready : engine.Ready width height)
    (hruns : engine.Runs (fun _ _ => True) (fun _ => True) start stage)
    (haccept : Request.admit call.request engine.xmap.outPixels engine.ymap.outPixels
      format.pixelSize = .ok ()) (hempty : call.rect.isEmpty = false) {e : Error}
    (herror : (ImageSource.answer stage call).result = .error e) :
    ∃ i < call.rect.height,
      let anchor := engine.plan.anchor (call.rect.y + i)
      let first := anchor + Window.kept
        (engine.plan.settled start (List.range' call.rect.y i)) engine.plan.taps anchor
      (ImageSource.answer stage (call.top i)).result = .ok () ∧
        (ImageSource.answer stage call).state = (ImageSource.answer stage (call.top i)).state ∧
        ∃ k, first + k < anchor + engine.plan.taps ∧
          stage.journal call =
            (engine.plan.pulls start (List.range' call.rect.y i) ++ List.range' first k).map
              engine.met ++ [(engine.pullOf (first + k), .error e)] := by
  have hsame := stage.alike_journaled call
  obtain ⟨i, hi, htop, hstate, k, hk, before, pull, hpull, hentries, hfailed, hafter⟩ :=
    exists_pull_of_answer_eq_error hready (serves_journal hready) (runs_journaled hruns) haccept
      hempty (hsame.result_eq.trans herror)
  have hsameTop := stage.alike_journaled (call.top i)
  refine ⟨i, hi, hsameTop.result_eq.symm.trans htop, ?_, k, hk, ?_⟩
  · exact hsame.state_eq.symm.trans (hstate.trans hsameTop.state_eq)
  · rw [Journal.answer_eq] at hfailed hafter
    unfold Resampler.journal
    rw [hafter]
    simp only [Outcome.mapSource] at hfailed ⊢
    rw [hentries, hfailed, hpull, pullOf, hready.width_eq, List.nil_append]

end Journal

-- Bytes that no painted row reaches stay
theorem getElem?_of_painted {Row : Nat → Array UInt8 → Prop} (hready : engine.Ready width height)
    {rect : Rect} {stride length : Nat} {before after : Vector UInt8 length}
    (hright : rect.x + rect.width ≤ engine.xmap.outPixels)
    (h : engine.plan.Painted Row rect stride before after) {p : Nat}
    (hp : ∀ i < rect.height,
      p < i * stride ∨ i * stride + rect.width * format.pixelSize ≤ p) :
    after[p]? = before[p]? := by
  obtain ⟨rows, hlength, hrows, hafter⟩ := h
  rw [← Vector.getElem?_toArray, ← Vector.getElem?_toArray, hafter]
  apply Span.getElem?_paint_of_outside
  intro i hi
  have hheight : rect.rows.length ≤ rect.height := by
    unfold Rect.rows
    split
    · exact Nat.zero_le _
    · exact Nat.le_of_eq List.length_range'
  rw [(hrows i hi).size_eq hready.sound hright, size_pixel]
  exact hp i (by omega)

end Engine

end Resampling
