import Resampling.Proofs.Lending
import Resampling.Proofs.Run
import Resampling.Proofs.Window.Contents
import Resampling.Stack

-- However a stage is set up, its tables fit its source and its buffers fit its tables

namespace Resampling

theorem PixelFormat.channels_of_supported {format : PixelFormat} (h : format.supported) :
    1 ≤ format.channels ∧ format.channels ≤ 4 := by
  unfold supported at h
  split at h <;> simp_all

-- Both tables are sized for a source of the given extent
structure AxisMaps.Suit {W : Type} (maps : AxisMaps W) (width height : Nat) : Prop where
  x : maps.x.Sized
  y : maps.y.Sized
  width_eq : maps.x.inPixels = width
  height_eq : maps.y.inPixels = height

namespace AxisMaps

-- Columns that stay, and neighbouring rows averaged
def neighbours (width rows : Nat) : AxisMaps WeightKind.fixed.Carrier where
  x := ⟨width, width, 1, ((List.range width).map fun x => ⟨x, [32768]⟩).toArray⟩
  y := ⟨rows + 1, rows, 2, ((List.range rows).map fun y => ⟨y, [16384, 16384]⟩).toArray⟩

variable {W : Type} [Weight W] [LawfulWeight W] {maps : AxisMaps W}

theorem suit_of_ofFilter_eq_ok {filter : Filter} {inWidth inHeight outWidth outHeight : Nat}
    (h : ofFilter filter inWidth inHeight outWidth outHeight = .ok maps) :
    maps.Suit inWidth inHeight := by
  obtain ⟨x, hx, h⟩ := bind_eq_ok_iff.mp h
  obtain ⟨hxSized, hxIn, -⟩ := AxisMap.sized_of_build_eq_ok hx
  by_cases hshared : inWidth = inHeight ∧ outWidth = outHeight
  · rw [if_pos hshared] at h
    cases h
    exact ⟨hxSized, hxSized, hxIn, hxIn.trans hshared.1⟩
  · rw [if_neg hshared] at h
    obtain ⟨y, hy, h⟩ := bind_eq_ok_iff.mp h
    cases h
    obtain ⟨hySized, hyIn, -⟩ := AxisMap.sized_of_build_eq_ok hy
    exact ⟨hxSized, hySized, hxIn, hyIn⟩

theorem suit_of_ofBlur_eq_ok {radius : Float} {width height : Nat}
    (h : ofBlur radius width height = .ok maps) :
    maps.Suit width height ∧ maps.x.outPixels = width := by
  obtain ⟨x, hx, h⟩ := bind_eq_ok_iff.mp h
  obtain ⟨hxSized, hxIn, hxOut⟩ :=
    AxisMap.sized_of_build_eq_ok (AxisMap.build_of_blur_eq_ok hx)
  by_cases hshared : width = height
  · rw [if_pos hshared] at h
    cases h
    exact ⟨⟨hxSized, hxSized, hxIn, hxIn.trans hshared⟩, hxOut⟩
  · rw [if_neg hshared] at h
    obtain ⟨y, hy, h⟩ := bind_eq_ok_iff.mp h
    cases h
    obtain ⟨hySized, hyIn, -⟩ :=
      AxisMap.sized_of_build_eq_ok (AxisMap.build_of_blur_eq_ok hy)
    exact ⟨⟨hxSized, hySized, hxIn, hyIn⟩, hxOut⟩

end AxisMaps

namespace Engine

variable {format : PixelFormat} {σ : Type}

-- A stage with this engine, over any source and with any window
def stage (engine : Engine format) (source : σ)
    (window : Window format.channels format.sample.Inner) : Resampler σ where
  source := source
  format := format
  width := engine.xmap.outPixels
  height := engine.ymap.outPixels
  engine := some { engine with window := window }

-- An engine for sources of the given extent
structure Ready (engine : Engine format) (width height : Nat) : Prop where
  supported : format.supported
  sound : engine.plan.Sound
  width_eq : engine.xmap.inPixels = width
  height_eq : engine.ymap.inPixels = height

theorem size_pixel (format : PixelFormat) :
    Element.size (Vector format.sample.Sample format.channels) = format.pixelSize := by
  obtain ⟨channels, sample, alpha⟩ := format
  cases sample <;> rfl

-- Lent buffers make the plan sound, and the window fits it with nothing loaded
theorem make_ready {maps : AxisMaps format.sample.Weights} {sharpening : Option Sharpening}
    {home : Nat} {depot after : Depot} {buffers : WorkBuffers} {width height : Nat}
    (hsupported : format.supported) (hmaps : maps.Suit width height)
    (hblur : sharpening.isSome → maps.x.outPixels = width)
    (hlend : WorkBuffers.lend home depot (Element.size format.sample.Sample)
      (Element.size format.sample.Inner) format.channels maps.x.inPixels maps.x.outPixels
      maps.y.samples sharpening.isSome = (.ok buffers, after)) :
    (make format maps sharpening buffers).Ready width height ∧
      (make format maps sharpening buffers).window.Fits
        (make format maps sharpening buffers).plan := by
  obtain ⟨hrow, hslots, hlines⟩ := WorkBuffers.lend_eq_ok hlend
  have hrows : maps.x.inPixels * format.channels *
      (if sharpening.isSome then maps.y.samples else 1) *
      Element.size format.sample.Sample =
      (make format maps sharpening buffers).plan.lineRows *
        (make format maps sharpening buffers).plan.rowBytes := by
    show _ = (if sharpening.isSome then maps.y.samples else 1) *
      (maps.x.inPixels * (format.channels * Element.size format.sample.Sample))
    rw [← Nat.mul_assoc maps.x.inPixels, Nat.mul_right_comm, Nat.mul_comm]
  have hsize := hlines.size_bytes
  have hlimit := hlines.size_lt
  rw [hrows] at hsize hlimit
  refine ⟨⟨hsupported, ?_, hmaps.width_eq, hmaps.height_eq⟩, ?_⟩
  · exact {
      channels := PixelFormat.channels_of_supported hsupported
      xmap := hmaps.x
      ymap := hmaps.y
      row_lt := hrow
      slots_lt := by
        rw [Nat.mul_right_comm] at hslots
        exact hslots
      lines_lt := hlimit
      width_eq := fun h => hmaps.width_eq.trans (hblur h).symm }
  · exact {
      size_slots := Element.size_decodeRow ..
      size_lines := hsize
      start_le := fun start h => by cases h }

end Engine

namespace Resampler

variable {σ : Type} [ImageSource σ]

-- A new stage over a source, set up in one of the three ways. Tables that were built before are
-- sized, as all built tables are.
inductive MadeOver (source : σ) (stage : Resampler σ) : Prop
  | resize (filter : Filter) (width height home : Nat) (depot : Depot)
      (h : (Resampler.resize source filter width height home depot).result = .ok stage)
  | unsharp (mask : UnsharpMask) (home : Nat) (depot : Depot)
      (h : (Resampler.unsharp source mask home depot).result = .ok stage)
  | byMaps {kind : WeightKind} (maps : AxisMaps kind.Carrier) (hx : maps.x.Sized)
      (hy : maps.y.Sized) (home : Nat) (depot : Depot)
      (h : (Resampler.byMaps source maps home depot).result = .ok stage)

variable {source : σ} {stage : Resampler σ}

-- A new stage over a source of the given format, with the given tables, wherever these come from
structure SetUp (source : σ) (format : PixelFormat) (maps : AxisMaps format.sample.Weights)
    (sharpening : Option Sharpening) (stage : Resampler σ) : Prop where
  format_eq : ImageSource.format source = format
  supported : format.supported
  suit : maps.Suit (ImageSource.width source) (ImageSource.height source)
  width_eq : sharpening.isSome → maps.x.outPixels = ImageSource.width source
  assembled : ∃ home depot,
    (assemble source (format_eq ▸ maps) sharpening home depot).result = .ok stage

theorem exists_assemble {maps : AxisMaps (ImageSource.format source).sample.Weights}
    {sharpening : Option Sharpening} {home : Nat} {depot : Depot}
    (hlend : (WorkBuffers.lend home depot (Element.size (ImageSource.format source).sample.Sample)
      (Element.size (ImageSource.format source).sample.Inner) (ImageSource.format source).channels
      maps.x.inPixels maps.x.outPixels maps.y.samples sharpening.isSome).1.isOk) :
    ∃ stage, (assemble source maps sharpening home depot).result = .ok stage := by
  unfold assemble
  dsimp only
  generalize WorkBuffers.lend home depot _ _ _ _ _ _ _ = lent at hlend ⊢
  obtain ⟨_ | buffers, after⟩ := lent
  · cases hlend
  · exact ⟨_, rfl⟩

theorem exists_setUp {format : PixelFormat} {maps : AxisMaps format.sample.Weights}
    {sharpening : Option Sharpening} (hformat : ImageSource.format source = format)
    (hsupported : format.supported)
    (hmaps : maps.Suit (ImageSource.width source) (ImageSource.height source))
    (hwidth : sharpening.isSome → maps.x.outPixels = ImageSource.width source) (home : Nat)
    (depot : Depot) (hlend : (WorkBuffers.lend home depot (Element.size format.sample.Sample)
      (Element.size format.sample.Inner) format.channels maps.x.inPixels maps.x.outPixels
      maps.y.samples sharpening.isSome).1.isOk) :
    ∃ stage, SetUp source format maps sharpening stage := by
  subst hformat
  obtain ⟨stage, hstage⟩ := exists_assemble hlend
  exact ⟨stage, rfl, hsupported, hmaps, hwidth, home, depot, hstage⟩

-- Its engine is ready, on some buffers, and has nothing loaded
theorem SetUp.exists_engine {format : PixelFormat} {maps : AxisMaps format.sample.Weights}
    {sharpening : Option Sharpening} (h : SetUp source format maps sharpening stage) :
    ∃ buffers, let engine := Engine.make format maps sharpening buffers
      stage = engine.stage source engine.window ∧
        engine.Ready (ImageSource.width source) (ImageSource.height source) ∧
        engine.window.Fits engine.plan := by
  obtain ⟨rfl, hsupported, hsuit, hwidth, home, depot, hassembled⟩ := h
  unfold assemble at hassembled
  simp only at hassembled
  split at hassembled
  · cases hassembled
  · rename_i buffers after hlend
    cases hassembled
    exact ⟨buffers, rfl, Engine.make_ready hsupported hsuit hwidth hlend⟩

theorem of_checkFormat_eq_ok {format : PixelFormat} {u : Unit} (h : checkFormat format = .ok u) :
    format.supported := by
  unfold checkFormat at h
  split at h
  · assumption
  · cases h

theorem of_checkExtent_eq_ok {W : Type} {map : AxisMap W} {actual : Nat} {u : Unit}
    (h : checkExtent map actual = .ok u) : map.inPixels = actual := by
  unfold checkExtent at h
  split at h
  · assumption
  · cases h

theorem suit_of_ofKind_eq_ok {kind wanted : WeightKind} {maps : AxisMaps kind.Carrier}
    {taken : AxisMaps wanted.Carrier} {width height : Nat} (hmaps : maps.Suit width height)
    (h : maps.ofKind wanted = .ok taken) : taken.Suit width height := by
  unfold AxisMaps.ofKind at h
  split at h
  · rename_i heq
    subst heq
    cases h
    exact hmaps
  · cases h

theorem setUp_of_resize_eq_ok {filter : Filter} {width height home : Nat} {depot : Depot}
    (h : (resize source filter width height home depot).result = .ok stage) :
    ∃ maps, AxisMaps.ofFilter filter (ImageSource.width source) (ImageSource.height source) width
        height = .ok maps ∧
      SetUp source (ImageSource.format source) maps none stage := by
  unfold resize at h
  simp only at h
  split at h
  · cases h
  · rename_i maps hmaps
    obtain ⟨_, hformat, hmaps⟩ := bind_eq_ok_iff.mp hmaps
    exact ⟨maps, hmaps, rfl, of_checkFormat_eq_ok hformat, AxisMaps.suit_of_ofFilter_eq_ok hmaps,
      (fun h => by cases h), home, depot, h⟩

theorem setUp_of_unsharp_eq_ok {mask : UnsharpMask} {home : Nat} {depot : Depot}
    (h : (unsharp source mask home depot).result = .ok stage) :
    ∃ maps, AxisMaps.ofBlur mask.radius (ImageSource.width source) (ImageSource.height source) =
        .ok maps ∧
      SetUp source (ImageSource.format source) maps (some mask.sharpening) stage := by
  unfold unsharp at h
  simp only at h
  split at h
  · cases h
  · rename_i maps hmaps
    obtain ⟨-, -, hmaps⟩ := bind_eq_ok_iff.mp hmaps
    obtain ⟨_, hformat, hmaps⟩ := bind_eq_ok_iff.mp hmaps
    obtain ⟨hsuit, hwidth⟩ := AxisMaps.suit_of_ofBlur_eq_ok hmaps
    exact ⟨maps, hmaps, rfl, of_checkFormat_eq_ok hformat, hsuit, fun _ => hwidth, home, depot, h⟩

theorem setUp_of_byMaps_eq_ok {kind : WeightKind} {maps : AxisMaps kind.Carrier} {home : Nat}
    {depot : Depot} (hx : maps.x.Sized) (hy : maps.y.Sized)
    (h : (byMaps source maps home depot).result = .ok stage) :
    ∃ taken, maps.ofKind (ImageSource.format source).sample.weightKind = .ok taken ∧
      SetUp source (ImageSource.format source) taken none stage := by
  unfold byMaps at h
  simp only at h
  split at h
  · cases h
  · rename_i taken htaken
    obtain ⟨_, hwidth, htaken⟩ := bind_eq_ok_iff.mp htaken
    obtain ⟨_, hheight, htaken⟩ := bind_eq_ok_iff.mp htaken
    obtain ⟨_, hformat, htaken⟩ := bind_eq_ok_iff.mp htaken
    have hsuit : maps.Suit (ImageSource.width source) (ImageSource.height source) :=
      ⟨hx, hy, of_checkExtent_eq_ok hwidth, of_checkExtent_eq_ok hheight⟩
    exact ⟨taken, htaken, rfl, of_checkFormat_eq_ok hformat, suit_of_ofKind_eq_ok hsuit htaken,
      (fun h => by cases h), home, depot, h⟩

-- All three ways lead to such a stage
theorem MadeOver.exists_setUp (h : MadeOver source stage) :
    ∃ maps sharpening, SetUp source (ImageSource.format source) maps sharpening stage := by
  cases h with
  | resize filter width height home depot h =>
    obtain ⟨maps, -, hsetUp⟩ := setUp_of_resize_eq_ok h
    exact ⟨maps, none, hsetUp⟩
  | unsharp mask home depot h =>
    obtain ⟨maps, -, hsetUp⟩ := setUp_of_unsharp_eq_ok h
    exact ⟨maps, some mask.sharpening, hsetUp⟩
  | byMaps maps hx hy home depot h =>
    obtain ⟨taken, -, hsetUp⟩ := setUp_of_byMaps_eq_ok hx hy h
    exact ⟨taken, none, hsetUp⟩

-- What setting up a stage gives: a ready engine with nothing loaded
def IsNew (source : σ) (stage : Resampler σ) : Prop :=
  ∃ engine : Engine (ImageSource.format source), stage = engine.stage source engine.window ∧
    engine.Ready (ImageSource.width source) (ImageSource.height source) ∧
    engine.window.Fits engine.plan ∧ engine.window.start = none

theorem MadeOver.isNew (h : MadeOver source stage) : IsNew source stage := by
  obtain ⟨maps, sharpening, hsetUp⟩ := h.exists_setUp
  obtain ⟨buffers, hstage, hready, hfits⟩ := hsetUp.exists_engine
  exact ⟨_, hstage, hready, hfits, rfl⟩

end Resampler

namespace Layered

variable {β : Type} [ImageSource β]

-- A stack that was set up stage by stage over a source for which `I` holds. Before the next
-- stage was set up, the one below it may have answered any calls.
def Raised (I : β → Prop) : {depth : Nat} → Layered β depth → Prop
  | 0, source => I source
  | depth + 1, stage => ∃ below : Layered β depth, Raised I below ∧
      ∃ calls, Resampler.MadeOver (ImageSource.after below calls) stage

end Layered

end Resampling
