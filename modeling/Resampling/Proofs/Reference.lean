import Resampling.Proofs.Stage
import Resampling.Proofs.Stored

-- Stages without state. Each stage has a picture that depends on the picture below it and on
-- its tables alone; whatever a stack was asked before, what it delivers is part of that picture.

namespace Resampling

namespace Engine

variable {format : PixelFormat} {engine : Engine format} {below : Picture}

def picture (engine : Engine format) (below : Picture) : Picture where
  format := format
  width := engine.xmap.outPixels
  height := engine.ymap.outPixels
  row y := Element.encodeRow (engine.plan.referenceRow below.row y)

def RowOf (below : Picture) (y : Nat) (line : Array UInt8) : Prop := line = below.row y

theorem size_referenceRow (hready : engine.Ready below.width below.height) {y : Nat}
    (hy : y < engine.ymap.outPixels) :
    (engine.plan.referenceRow below.row y).size = engine.xmap.outPixels := by
  obtain ⟨r, hr, -⟩ := hready.sound.ymap.row_eq hy
  have hr : engine.plan.ymap.rows[y]? = some r := hr
  rw [Plan.referenceRow, hr]
  exact Plan.size_combine hready.sound ..

theorem packed_picture (hready : engine.Ready below.width below.height) :
    (engine.picture below).Packed := by
  intro y hy
  have hrow := size_referenceRow hready hy
  show (Element.encodeRow (engine.plan.referenceRow below.row y)).size = _
  rw [Element.size_encodeRow, hrow, size_pixel]
  rfl

-- What is painted from the rows of the image below is part of the image of the stage
theorem eq_rowPart_of_paints (hready : engine.Ready below.width below.height) {rect : Rect}
    {y : Nat} {bytes : Array UInt8} (h : engine.plan.Paints (RowOf below) rect y bytes) :
    bytes = (engine.picture below).rowPart rect y := by
  obtain ⟨pixels, ⟨r, lines, hr, hlines, rfl⟩, rfl⟩ := h
  have hreference : engine.plan.referenceRow below.row y =
      engine.plan.combine lines r.weights (engine.plan.nearestTap y r.anchor) := by
    rw [Plan.referenceRow, hr]
    exact Plan.combine_congr (fun k hk => (hlines k hk).symm) _
      (Plan.nearestTap_lt hready.sound y r.anchor)
  rw [Element.encodeRow_extract, size_pixel, ← hreference]
  rfl

variable {σ : Type} [ImageSource σ] {I : σ → Prop}

-- A pull from a source that shows the image below gives a row of it
theorem serves_of_shows (hready : engine.Ready below.width below.height)
    (hformat : below.format = format) (hshows : Shows I below) :
    engine.plan.Serves (fun _ source => I source) (RowOf below) fun _ source => I source := by
  apply serves_of_answer hready
  intro ys source y hsource hy call hcall
  obtain ⟨rect, stride, length, buffer⟩ := call
  simp only [Call.request, Request.fullRow, Request.mk.injEq] at hcall
  obtain ⟨rfl, -, hlength⟩ := hcall
  have hanswer := hshows.answer source hsource ⟨⟨0, y, below.width, 1⟩, stride, length, buffer⟩
  refine hanswer.mono (fun after line hafter => ⟨hafter.1, ?_⟩) fun _ _ _ h => h
  rw [← hformat] at hlength
  exact hafter.2.toArray_eq hshows.packed hy hlength

theorem shows_stage (hready : engine.Ready below.width below.height)
    (hformat : below.format = format) (hshows : Shows I below) :
    Shows (fun stage : Resampler σ => ∃ start, engine.Runs (RowOf below) I start stage)
      (engine.picture below) where
  toSteady := steady_stage
  packed := packed_picture hready
  answer stage h call := by
    obtain ⟨start, hruns⟩ := h
    have hcopy := copyRect_satisfies hready (serves_of_shows hready hformat hshows) [] hruns
      call.rect call.stride call.buffer
    refine hcopy.mono (fun after bytes hafter => ?_) fun e after _ hafter => ?_
    · obtain ⟨hruns, ⟨rows, hlength, hrows, hpainted⟩, hplaced⟩ := hafter
      refine ⟨⟨_, hruns⟩, ?_⟩
      by_cases hempty : call.rect.isEmpty
      · rw [Rect.rows, if_pos hempty, List.length_nil, List.length_eq_zero_iff] at hlength
        rw [hlength, Span.paint_nil] at hpainted
        exact Picture.delivered_of_isEmpty hempty (Vector.toArray_inj.mp hpainted)
      · rw [Rect.rows, if_neg hempty, List.length_range'] at hlength
        have hplaced := hplaced (by simpa using hempty)
        exact Picture.delivered_of_paint (packed_picture hready) hplaced.right_le
          hplaced.bottom_le (fun _ => hplaced) hlength
          (fun i hi => eq_rowPart_of_paints hready (hrows i hi)) hpainted
    · rcases hafter with ⟨-, rfl⟩ | hruns
      · exact ⟨start, hruns⟩
      · exact ⟨none, hruns⟩

end Engine

-- The image of a stage, from its tables and the image below it
def Resampler.picture {σ : Type} (stage : Resampler σ) (below : Picture) : Picture :=
  match stage.engine with
  | none => ⟨stage.format, stage.width, stage.height, fun _ => #[]⟩
  | some engine => engine.picture below

namespace Layered

variable {β : Type}

-- The image of a stack, from its tables and the image at the bottom
def picture (image : Picture) : {depth : Nat} → Layered β depth → Picture
  | 0, _ => image
  | _ + 1, stage => Resampler.picture stage (picture image (Resampler.source stage))

variable [ImageSource β]

variable {I : β → Prop} {image : Picture}

-- Stage by stage, a stack shows its image
theorem exists_shows (hbase : Shows I image) {depth : Nat} {stack : Layered β depth}
    (hstack : stack.Raised I) :
    ∃ J : Layered β depth → Prop, J stack ∧ Shows J (stack.picture image) ∧
      ∀ other, J other → other.picture image = stack.picture image := by
  induction depth with
  | zero => exact ⟨I, hstack, hbase, fun _ _ => rfl⟩
  | succ depth ih =>
    obtain ⟨below, hbelow, calls, hmade⟩ := hstack
    obtain ⟨J, hJ, hshows, hpicture⟩ := ih hbelow
    have hsource : J (ImageSource.after below calls) := hshows.preserved hJ calls
    obtain ⟨engine, rfl, hready, hfits, hstart⟩ := hmade.isNew
    rw [hshows.width_eq _ hsource, hshows.height_eq _ hsource] at hready
    have hstage := Engine.shows_stage hready (hshows.format_eq _ hsource).symm hshows
    -- the tables, and with them the image, stay what they are
    have hsame : ∀ source window, J source →
        picture image (show Layered β (depth + 1) from engine.stage source window) =
          engine.picture (below.picture image) :=
      fun source window h => congrArg engine.picture (hpicture source h)
    have hnew := hsame _ engine.window hsource
    refine ⟨fun stage => ∃ start, engine.Runs (Engine.RowOf (below.picture image)) J start stage,
      ⟨none, Engine.runs_new hsource hfits hstart⟩, ?_, ?_⟩
    · rw [hnew]
      exact hstage
    · intro other hother
      obtain ⟨start, source, window, rfl, hsource, -⟩ := hother
      exact (hsame source window hsource).trans hnew.symm

-- Whatever a stack has been asked before, a request that succeeds delivers its rectangle of the
-- image of the stack and changes nothing else
theorem delivered_of_ok (hbase : Shows I image) {depth : Nat} {stack : Layered β depth}
    (hstack : stack.Raised I) (calls : List Call) (call : Call)
    (hok : (ImageSource.answer (ImageSource.after stack calls) call).result = .ok ()) :
    (stack.picture image).Delivered call.rect call.stride call.buffer
      (ImageSource.answer (ImageSource.after stack calls) call).state := by
  obtain ⟨J, hJ, hshows, -⟩ := exists_shows hbase hstack
  have hanswer := hshows.answer _ (hshows.preserved hJ calls) call
  exact (hanswer.of_ok hok).2

end Layered

-- Three rows averaged down to two, over an image whose second row fails to come once
namespace Tiny

def image : MemoryImage := ⟨.gray8, 2, 3, 2, #[10, 20, 30, 40, 50, 60]⟩

def made : Construction (Resampler (Probe MemoryImage)) :=
  Resampler.byMaps (Probe.around image [1]) (.neighbours 2 2) Depot.shared .fresh

def whole : Call := ⟨⟨0, 0, 2, 2⟩, 2, 4, #v[0, 0, 0, 0]⟩

theorem shows_source : Shows (fun probe : Probe MemoryImage => probe.inner = image) image.picture :=
  (MemoryImage.shows (show MemoryImage.make .gray8 2 3 2 image.data = .ok image from rfl)).probe

end Tiny

-- A request that fails halfway does not spoil the same request made again
theorem Layered.delivered_after_failure :
    ∃ stage : Layered (Probe MemoryImage) 1, Tiny.made.result = .ok stage ∧
      (ImageSource.answer stage Tiny.whole).result = .error (.sourceFailed Probe.reason) ∧
      (ImageSource.answer (ImageSource.after stage [Tiny.whole]) Tiny.whole).result = .ok () ∧
      (stage.picture Tiny.image.picture).Delivered Tiny.whole.rect Tiny.whole.stride
        Tiny.whole.buffer
        (ImageSource.answer (ImageSource.after stage [Tiny.whole]) Tiny.whole).state := by
  have hrun : (match Tiny.made.result with
      | .error _ => false
      | .ok stage =>
        (ImageSource.answer stage Tiny.whole).result = .error (.sourceFailed Probe.reason) ∧
        (ImageSource.answer (ImageSource.after stage [Tiny.whole]) Tiny.whole).result = .ok () :
        Bool) = true := by decide +kernel
  cases hmade : Tiny.made.result with
  | error e =>
    rw [hmade] at hrun
    cases hrun
  | ok stage =>
    rw [hmade] at hrun
    obtain ⟨hfails, hok⟩ := of_decide_eq_true hrun
    have hraised : Raised (fun probe => probe.inner = Tiny.image)
        (show Layered (Probe MemoryImage) 1 from stage) :=
      ⟨Probe.around Tiny.image [1], rfl, [],
        .byMaps (.neighbours 2 2) (by decide) (by decide) Depot.shared .fresh hmade⟩
    exact ⟨stage, rfl, hfails, hok,
      delivered_of_ok Tiny.shows_source hraised [Tiny.whole] Tiny.whole hok⟩

end Resampling
