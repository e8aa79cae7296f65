import Resampling.Proofs.Stored
import Resampling.Proofs.Watched
import Resampling.Proofs.Window.Order

-- Streaming. Where a stack is read from the top down and no anchors go back, each of its stages
-- reads the one below from the top down, row by row and no row twice.

namespace Resampling

-- The rows that calls ask for, from the first call to the last
def Call.rows (calls : List Call) : List Nat := calls.flatMap fun call => call.rect.rows

theorem Request.rows_fullRow {width : Nat} (hwidth : 0 < width) (pixelSize y : Nat) :
    (Request.fullRow width pixelSize y).rect.rows = [y] := by
  rw [Rect.rows, isEmpty_fullRow hwidth]
  rfl

theorem Call.rows_of_fullRows {width pixelSize : Nat} (hwidth : 0 < width) {calls : List Call}
    {ys : List Nat}
    (h : calls.map Call.request = ys.map (Request.fullRow width pixelSize)) :
    Call.rows calls = ys := by
  have hrows : Call.rows calls = (calls.map Call.request).flatMap fun request =>
      request.rect.rows := by
    rw [List.flatMap_map]
    rfl
  rw [hrows, h, List.flatMap_map]
  simp only [Request.rows_fullRow hwidth, List.flatMap_singleton']

variable {β σ : Type}

namespace Engine

variable {format : PixelFormat} {engine : Engine format} [ImageSource σ]
  {Row : Nat → Array UInt8 → Prop} {P : List Nat → σ → Prop} {width height : Nat}

-- A run of requests. The rows of those that are refused are left out, and the others are pulled
-- for from the first to the last.
theorem runs_after (hready : engine.Ready width height)
    (hserves : engine.plan.Serves P Row fun _ _ => False) (calls : List Call) {ys : List Nat}
    {start : Option Nat} {stage : Resampler σ} (hruns : engine.Runs Row (P ys) start stage) :
    ∃ rows, rows.Sublist (Call.rows calls) ∧ (∀ y ∈ rows, y < engine.ymap.outPixels) ∧
      engine.Runs Row (P (ys ++ engine.plan.pulls start rows)) (engine.plan.settled start rows)
        (ImageSource.after stage calls) := by
  induction calls generalizing ys start stage with
  | nil =>
    refine ⟨[], List.Sublist.refl _, fun y hy => absurd hy List.not_mem_nil, ?_⟩
    rw [Plan.pulls, List.append_nil]
    exact hruns
  | cons call calls ih =>
    have hcopy := copyRect_satisfies hready hserves ys hruns call.rect call.stride call.buffer
    cases hresult : (stage.copyRect call.rect call.stride call.buffer).result with
    | error e =>
      rcases hcopy.of_error hresult with ⟨-, hsame⟩ | ⟨_, _, _, hfalse, _⟩
      · obtain ⟨rows, hsub, hrows, hafter⟩ := ih hruns
        refine ⟨rows, hsub.trans (List.sublist_append_right _ _), hrows, ?_⟩
        rw [ImageSource.after, List.foldl_cons]
        rw [← hsame] at hafter
        exact hafter
      · exact hfalse.elim
    | ok =>
      obtain ⟨hnext, -, hplaced⟩ := hcopy.of_ok hresult
      obtain ⟨rows, hsub, hrows, hafter⟩ := ih hnext
      refine ⟨call.rect.rows ++ rows, List.Sublist.append (List.Sublist.refl _) hsub, ?_, ?_⟩
      · intro y hy
        rcases List.mem_append.mp hy with hy | hy
        · by_cases hempty : call.rect.isEmpty
          · rw [Rect.rows, if_pos hempty] at hy
            exact absurd hy List.not_mem_nil
          · have hbottom := (hplaced (by simpa using hempty)).bottom_le
            rw [Rect.rows, if_neg hempty, List.mem_range'_1] at hy
            exact Nat.lt_of_lt_of_le hy.2 hbottom
        · exact hrows y hy
      · rw [Plan.pulls_append, Plan.settled_append, ← List.append_assoc]
        exact hafter

end Engine

namespace Layered

-- No stage has anchors that go back down its output
def Ordered : {depth : Nat} → Layered β depth → Prop
  | 0, _ => True
  | _ + 1, stage =>
    (∀ engine ∈ Resampler.engine stage, engine.ymap.Ordered) ∧
      Ordered (Resampler.source stage)

instance decidableOrdered : {depth : Nat} → (stack : Layered β depth) → Decidable stack.Ordered
  | 0, _ => inferInstanceAs (Decidable True)
  | _ + 1, stage =>
    letI := decidableOrdered (Resampler.source stage)
    inferInstanceAs (Decidable
      ((∀ engine ∈ Resampler.engine stage, engine.ymap.Ordered) ∧
        Ordered (Resampler.source stage)))

end Layered

namespace Watched

variable [ImageSource β]

-- Each stage has asked the one below for full rows only, and for each row after the ones above it
def Streamed : {depth : Nat} → Watched β depth → Prop
  | 0, _ => True
  | _ + 1, stage =>
    (∃ ys : List Nat, ys.Pairwise (· < ·) ∧
      (Resampler.source stage).requests = ys.map (Request.fullRow
        (ImageSource.width (Resampler.source stage))
        (ImageSource.format (Resampler.source stage)).pixelSize)) ∧
      Streamed (Resampler.source stage).inner

-- What is under a stage that has asked a stack for the listed rows, one by one
def Pulled {depth : Nat} (below : Layered β depth) (width pixelSize : Nat) (ys : List Nat)
    (probe : Probe (Watched β depth)) : Prop :=
  probe.schedule = [] ∧ probe.requests = ys.map (Request.fullRow width pixelSize) ∧
    ∃ calls, probe.inner = ImageSource.after below.watched calls ∧
      calls.map Call.request = ys.map (Request.fullRow width pixelSize)

theorem Pulled.answer {depth : Nat} {below : Layered β depth} {width pixelSize y : Nat}
    {ys : List Nat} {probe : Probe (Watched β depth)} (h : Pulled below width pixelSize ys probe)
    {call : Call} (hcall : call.request = Request.fullRow width pixelSize y) :
    Pulled below width pixelSize (ys ++ [y]) (ImageSource.answer probe call).source := by
  obtain ⟨hschedule, hrequests, calls, hinner, hcalls⟩ := h
  rw [Probe.answer_eq hschedule]
  refine ⟨hschedule, ?_, calls ++ [call], ?_, ?_⟩
  · show probe.requests ++ [call.request] = _
    rw [hrequests, hcall, List.map_append]
    rfl
  · rw [ImageSource.after_concat, ← hinner]
    rfl
  · rw [List.map_append, List.map_append, hcalls]
    exact congrArg (_ ++ [·]) hcall

theorem Pulled.exists_alike {depth : Nat} {below : Layered β depth} {width pixelSize : Nat}
    {ys : List Nat} {probe : Probe (Watched β depth)} (h : Pulled below width pixelSize ys probe) :
    ∃ calls, Probe.Alike Alike probe (ImageSource.after below calls) := by
  obtain ⟨hschedule, -, calls, hinner, -⟩ := h
  refine ⟨calls, hschedule, ?_⟩
  rw [hinner]
  exact ImageSource.alike_after (alike depth) (alike_watched below) calls

end Watched

namespace Engine

variable {format : PixelFormat} {engine : Engine format} {width height depth : Nat}

-- A stage over a stack that streams from where it is streams from where it is
theorem streamed_stage [ImageSource β] {J : Layered β depth → Prop}
    (hready : engine.Ready width height) (hreliable : Reliable J format width height)
    (hordered : engine.ymap.Ordered) {below : Layered β depth} (hsource : J below)
    (hbelow : ∀ calls, (Call.rows calls).Pairwise (· ≤ ·) →
      (ImageSource.after below.watched calls).Streamed)
    {window : Window format.channels format.sample.Inner} (hfits : window.Fits engine.plan)
    (hholds : window.Holds engine.plan fun _ _ => True) {calls : List Call}
    (hcalls : (Call.rows calls).Pairwise (· ≤ ·)) :
    (ImageSource.after
      (Layered.watched (show Layered β (depth + 1) from engine.stage below window))
      calls).Streamed := by
  have halike := Probe.alike (Watched.alike (β := β) depth)
  have hinv : ∀ ys probe, Watched.Pulled below width format.pixelSize ys probe →
      ∃ source, Probe.Alike Watched.Alike probe source ∧ J source := by
    intro ys probe hpulled
    obtain ⟨lower, hsame⟩ := hpulled.exists_alike
    exact ⟨_, hsame, hreliable.preserved hsource lower⟩
  have hprobe := hreliable.of_alike halike
  have hserves := serves_of_reliable hready hprobe hinv
    fun ys probe y hpulled _ call hcall => hpulled.answer hcall
  have hruns : engine.Runs (fun _ _ => True) (Watched.Pulled below width format.pixelSize [])
      window.start (engine.stage (Probe.around below.watched []) window) :=
    ⟨_, window, rfl, ⟨rfl, rfl, [], rfl, rfl⟩, hfits, hholds, rfl⟩
  obtain ⟨rows, hsub, hrows, probe, after, hstage, hpulled, -⟩ :=
    runs_after hready hserves calls hruns
  have hstrict : (engine.plan.pulls window.start rows).Pairwise (· < ·) :=
    Plan.pairwise_pulls hordered (hcalls.sublist hsub)
      (by rw [hready.sound.ymap.size_rows]; exact hrows) window.start
  have hwidth := hprobe.width_eq probe (hinv _ _ hpulled)
  have hformat := hprobe.format_eq probe (hinv _ _ hpulled)
  obtain ⟨-, hrequests, lower, hinner, hlower⟩ := hpulled
  rw [List.nil_append] at hrequests hlower
  have hafter : ImageSource.after
      (Layered.watched (show Layered β (depth + 1) from engine.stage below window)) calls =
      (show Watched β (depth + 1) from engine.stage probe after) := hstage
  rw [hafter]
  refine ⟨⟨_, hstrict, ?_⟩, ?_⟩
  · show probe.requests = _
    rw [hrequests]
    show _ = (engine.plan.pulls window.start rows).map (Request.fullRow (ImageSource.width probe)
      (ImageSource.format probe).pixelSize)
    rw [hwidth, hformat]
  · show probe.inner.Streamed
    rw [hinner]
    apply hbelow
    rw [Call.rows_of_fullRows _ hlower]
    · exact hstrict.imp Nat.le_of_lt
    · rw [← hready.width_eq]
      exact hready.sound.xmap.inPixels_pos

end Engine

namespace Layered

variable [ImageSource β] {I : β → Prop} {format : PixelFormat} {width height : Nat}

-- Stage by stage, a stack is reliable, and streams in every state that it comes to
theorem exists_reliable (hbase : Reliable I format width height) {depth : Nat}
    {stack : Layered β depth} (hstack : stack.Raised I) :
    ∃ (J : Layered β depth → Prop) (format : PixelFormat) (width height : Nat), J stack ∧
      Reliable J format width height ∧ ∀ other, J other → other.Ordered →
        ∀ calls, (Call.rows calls).Pairwise (· ≤ ·) →
          (ImageSource.after other.watched calls).Streamed := by
  induction depth with
  | zero => exact ⟨I, format, width, height, hstack, hbase, fun _ _ _ _ _ => trivial⟩
  | succ depth ih =>
    obtain ⟨below, hbelow, earlier, hmade⟩ := hstack
    obtain ⟨J, format, width, height, hJ, hreliable, hstreams⟩ := ih hbelow
    have hsource : J (ImageSource.after below earlier) := hreliable.preserved hJ earlier
    obtain ⟨engine, rfl, hready, hfits, hstart⟩ := hmade.isNew
    rw [hreliable.width_eq _ hsource, hreliable.height_eq _ hsource] at hready
    have hformat := hreliable.format_eq _ hsource
    refine ⟨fun stage => ∃ start, engine.Runs (fun _ _ => True) J start stage, _, _, _,
      ⟨none, Engine.runs_new hsource hfits hstart⟩,
      Engine.reliable_stage hready (hformat.symm ▸ hreliable), ?_⟩
    intro other hother hordered calls hcalls
    obtain ⟨start, source, window, rfl, hsource, hfits, hholds, -⟩ := hother
    obtain ⟨hordered, hlower⟩ := hordered
    have hanchors := hordered { engine with window := window } rfl
    exact Engine.streamed_stage hready (hformat.symm ▸ hreliable) hanchors hsource
      (hstreams source hsource hlower) hfits hholds hcalls

-- A stack that has answered any calls and is then read from the top down: every stage asks the
-- one below for full rows from the top down, none of them twice. That probes tell so changes
-- nothing about the stack.
theorem streamed_of_pairwise (hbase : Reliable I format width height) {depth : Nat}
    {stack : Layered β depth} (hstack : stack.Raised I) (earlier calls : List Call)
    (hordered : (ImageSource.after stack earlier).Ordered)
    (hcalls : (Call.rows calls).Pairwise (· ≤ ·)) :
    (ImageSource.after (ImageSource.after stack earlier).watched calls).Streamed ∧
      Watched.Alike (ImageSource.after (ImageSource.after stack earlier).watched calls)
        (ImageSource.after stack (earlier ++ calls)) := by
  obtain ⟨J, _, _, _, hJ, hreliable, hstreams⟩ := exists_reliable hbase hstack
  constructor
  · exact hstreams _ (hreliable.preserved hJ earlier) hordered calls hcalls
  · rw [ImageSource.after_append]
    exact ImageSource.alike_after (Watched.alike depth) (Watched.alike_watched _) calls

end Layered

-- Neighbouring rows averaged twice, over a column of four pixels
namespace Cascade

def image : MemoryImage := ⟨.gray8, 1, 4, 1, #[10, 20, 30, 40]⟩

def lower : Construction (Resampler MemoryImage) :=
  Resampler.byMaps image (.neighbours 1 3) Depot.shared .fresh

def upper (stage : Resampler MemoryImage) : Construction (Resampler (Resampler MemoryImage)) :=
  Resampler.byMaps stage (.neighbours 1 2) Depot.shared lower.depot

def row (y : Nat) : Call := ⟨⟨0, y, 1, 1⟩, 1, 1, #v[0]⟩

def calls : List Call := [row 0, row 0, row 1]

theorem reliable_image : Reliable (· = image) .gray8 1 4 :=
  MemoryImage.reliable (show MemoryImage.make .gray8 1 4 1 image.data = .ok image from rfl)

end Cascade

-- Four rows are pulled for three requests
theorem Layered.streamed_cascade :
    ∃ stack : Layered MemoryImage 2, stack.Ordered ∧ (Call.rows Cascade.calls).Pairwise (· ≤ ·) ∧
      ((ImageSource.after stack.watched Cascade.calls).source.inner.source.requests.map
        (·.rect.y)) = [0, 1, 2, 3] ∧
      (ImageSource.after stack.watched Cascade.calls).Streamed := by
  have hrun : (match Cascade.lower.result with
      | .error _ => false
      | .ok stage =>
        match (Cascade.upper stage).result with
        | .error _ => false
        | .ok stack =>
          let stack : Layered MemoryImage 2 := stack
          decide (stack.Ordered ∧
            ((ImageSource.after stack.watched Cascade.calls).source.inner.source.requests.map
              (·.rect.y)) = [0, 1, 2, 3])) = true := by decide +kernel
  cases hlower : Cascade.lower.result with
  | error e =>
    rw [hlower] at hrun
    cases hrun
  | ok stage =>
    cases hupper : (Cascade.upper stage).result with
    | error e =>
      simp only [hlower, hupper] at hrun
      cases hrun
    | ok stack =>
      simp only [hlower, hupper, decide_eq_true_eq] at hrun
      obtain ⟨hordered, hpulls⟩ := hrun
      have hcalls : (Call.rows Cascade.calls).Pairwise (· ≤ ·) := by decide
      have hbelow : Raised (· = Cascade.image) (show Layered MemoryImage 1 from stage) :=
        ⟨Cascade.image, rfl, [],
          .byMaps (.neighbours 1 3) (by decide) (by decide) Depot.shared .fresh hlower⟩
      have hraised : Raised (· = Cascade.image) (show Layered MemoryImage 2 from stack) :=
        ⟨stage, hbelow, [],
          .byMaps (.neighbours 1 2) (by decide) (by decide) Depot.shared _ hupper⟩
      exact ⟨stack, hordered, hcalls, hpulls,
        (streamed_of_pairwise Cascade.reliable_image hraised [] Cascade.calls hordered hcalls).1⟩

end Resampling
