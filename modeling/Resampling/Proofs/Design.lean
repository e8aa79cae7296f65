import Resampling.Proofs.Construct
import Resampling.Proofs.Loans

-- The ways to set up a stage as one. They differ in where the tables come from; then buffers are
-- borrowed for an engine, and the source is taken over or dropped.

namespace Resampling

-- Tables that were built before are sized, as all built tables are
inductive Design
  | resize (filter : Filter) (width height : Nat)
  | unsharp (mask : UnsharpMask)
  | byMaps {kind : WeightKind} (maps : AxisMaps kind.Carrier) (hx : maps.x.Sized)
      (hy : maps.y.Sized)

namespace Engine

variable {format : PixelFormat}

-- An engine on buffers from the pool `home`
def borrow (format : PixelFormat) (maps : AxisMaps format.sample.Weights)
    (sharpening : Option Sharpening) (home : Nat) (depot : Depot) :
    Except Error (Engine format) × Depot :=
  match WorkBuffers.lend home depot (Element.size format.sample.Sample)
      (Element.size format.sample.Inner) format.channels maps.x.inPixels maps.x.outPixels
      maps.y.samples sharpening.isSome with
  | (.error e, depot) => (.error e, depot)
  | (.ok buffers, depot) => (.ok (make format maps sharpening buffers), depot)

-- The engine on no buffers in particular
def unbacked (engine : Engine format) : Engine format :=
  { engine with buffers := .blank }

-- A new engine as far as it depends on the contents of its buffers
def ofContents (format : PixelFormat) (maps : AxisMaps format.sample.Weights)
    (sharpening : Option Sharpening) (contents : Array UInt8 × Array UInt8) : Engine format where
  xmap := maps.x
  ymap := maps.y
  sharpening := sharpening
  window :=
    { start := none
      slots := Element.decodeRow (Vector format.sample.Inner format.channels)
        (maps.x.outPixels * maps.y.samples) contents.2 0
      lines := contents.1 }
  buffers := .blank

-- How many buffers a stage has, and from which pool
def share (engine : Engine format) : Nat := WorkBuffers.share engine.sharpening.isSome

def home (engine : Engine format) : Nat := engine.buffers.lines.home

def Backed (engine : Engine format) : Prop :=
  engine.buffers.Backed engine.home engine.sharpening.isSome

variable {maps : AxisMaps format.sample.Weights} {sharpening : Option Sharpening} {home : Nat}
  {depot : Depot}

theorem borrows_borrow (htidy : depot.Tidy) (maps : AxisMaps format.sample.Weights)
    (sharpening : Option Sharpening) (home : Nat) :
    depot.Borrows home (WorkBuffers.share sharpening.isSome)
      (borrow format maps sharpening home depot) := by
  unfold borrow
  obtain ⟨hafter, hout⟩ := WorkBuffers.borrows_lend htidy home (Element.size format.sample.Sample)
    (Element.size format.sample.Inner) format.channels maps.x.inPixels maps.x.outPixels
    maps.y.samples sharpening.isSome
  split
  · rename_i e after hlent
    rw [hlent] at hafter hout
    exact ⟨hafter, hout⟩
  · rename_i buffers after hlent
    rw [hlent] at hafter hout
    exact ⟨hafter, hout⟩

theorem map_unbacked_borrow {other : Depot} (hsound : depot.Sound) (hother : other.Sound)
    (maps : AxisMaps format.sample.Weights) (sharpening : Option Sharpening) (home away : Nat) :
    (borrow format maps sharpening home depot).1.map unbacked =
      (borrow format maps sharpening away other).1.map unbacked := by
  have hcontents : ∀ home depot, (borrow format maps sharpening home depot).1.map unbacked =
      ((WorkBuffers.lend home depot (Element.size format.sample.Sample)
        (Element.size format.sample.Inner) format.channels maps.x.inPixels maps.x.outPixels
        maps.y.samples sharpening.isSome).1.map WorkBuffers.contents).map
          (ofContents format maps sharpening) := by
    intro home depot
    unfold borrow
    split
    · rename_i e after hlent
      rw [hlent]
      rfl
    · rename_i buffers after hlent
      rw [hlent]
      rfl
  rw [hcontents, hcontents, WorkBuffers.map_contents_lend hsound hother]

theorem backed_of_borrow_eq_ok (htidy : depot.Tidy) (hsupported : format.supported)
    (hx : maps.x.Sized) (hy : maps.y.Sized) {engine : Engine format} {after : Depot}
    (h : borrow format maps sharpening home depot = (.ok engine, after)) :
    engine.Backed ∧ engine.home = home ∧ engine.sharpening = sharpening := by
  unfold borrow at h
  split at h
  · cases h
  · rename_i buffers after hlent
    cases h
    have hsample : Element.size format.sample.Sample ∣ Storage.wordSize := by
      cases format.sample <;> decide
    have hinner : Element.size format.sample.Inner ∣ Storage.wordSize := by
      cases format.sample <;> decide
    have hbacked := WorkBuffers.backed_of_lend_eq_ok htidy hsample hinner
      (PixelFormat.channels_of_supported hsupported).1 hx.inPixels_pos hx.outPixels_pos
      hy.samples_pos hlent
    have hhome : buffers.lines.home = home :=
      (hbacked.leases buffers.lines (by simp [WorkBuffers.toList])).home_eq
    refine ⟨?_, hhome, rfl⟩
    rw [Backed, show (make format maps sharpening buffers).home = home from hhome]
    exact hbacked

end Engine

namespace Resampler

variable {σ : Type} [ImageSource σ] {source : σ}

-- The source with its engine, or the source dropped
def install (source : σ) {format : PixelFormat} :
    Except Error (Engine format) × Depot → Construction (Resampler σ)
  | (.error e, depot) => refuse source depot e
  | (.ok engine, depot) =>
    { result := .ok (engine.stage source engine.window)
      depot := depot
      events := [engine.builtEvent] }

-- A stage for tables that could be had
def onMaps (source : σ) (maps : Except Error (AxisMaps (ImageSource.format source).sample.Weights))
    (sharpening : Option Sharpening) (home : Nat) (depot : Depot) : Construction (Resampler σ) :=
  match maps with
  | .error e => refuse source depot e
  | .ok maps => assemble source maps sharpening home depot

theorem assemble_eq (source : σ) (maps : AxisMaps (ImageSource.format source).sample.Weights)
    (sharpening : Option Sharpening) (home : Nat) (depot : Depot) :
    assemble source maps sharpening home depot =
      install source (Engine.borrow (ImageSource.format source) maps sharpening home depot) := by
  unfold assemble Engine.borrow
  dsimp only
  generalize WorkBuffers.lend home depot _ _ _ _ _ _ _ = lent
  obtain ⟨_ | buffers, after⟩ := lent
  · rfl
  · rfl

end Resampler

namespace Design

def sharpening : Design → Option Sharpening
  | unsharp mask => some mask.sharpening
  | _ => none

-- The tables for a source of the given format and extent
def maps (design : Design) (format : PixelFormat) (width height : Nat) :
    Except Error (AxisMaps format.sample.Weights) :=
  match design with
  | resize filter outWidth outHeight => do
    Resampler.checkFormat format
    AxisMaps.ofFilter filter width height outWidth outHeight
  | unsharp mask => do
    mask.validate
    Resampler.checkFormat format
    AxisMaps.ofBlur mask.radius width height
  | byMaps maps _ _ => do
    Resampler.checkExtent maps.x width
    Resampler.checkExtent maps.y height
    Resampler.checkFormat format
    maps.ofKind format.sample.weightKind

-- Neighbouring rows averaged, by tables that are at hand
def averaging : Design := .byMaps (.neighbours 2 2) (by decide) (by decide)

def equip (design : Design) (format : PixelFormat) (width height home : Nat) (depot : Depot) :
    Except Error (Engine format) × Depot :=
  match design.maps format width height with
  | .error e => (.error e, depot)
  | .ok maps => Engine.borrow format maps design.sharpening home depot

variable {σ : Type} [ImageSource σ] {source : σ} {stage : Resampler σ} {design : Design}
  {format : PixelFormat} {width height home : Nat} {depot : Depot}

def setUp (design : Design) (source : σ) (home : Nat) (depot : Depot) :
    Construction (Resampler σ) :=
  match design with
  | resize filter width height => Resampler.resize source filter width height home depot
  | unsharp mask => Resampler.unsharp source mask home depot
  | byMaps maps _ _ => Resampler.byMaps source maps home depot

-- The source is looked at, and nothing more: it is not asked for pixels
theorem setUp_eq (design : Design) (source : σ) (home : Nat) (depot : Depot) :
    design.setUp source home depot = Resampler.install source (design.equip
      (ImageSource.format source) (ImageSource.width source) (ImageSource.height source) home
      depot) := by
  have hmaps : design.setUp source home depot = Resampler.onMaps source
      (design.maps (ImageSource.format source) (ImageSource.width source)
        (ImageSource.height source)) design.sharpening home depot := by
    cases design with
    | resize filter width height => rfl
    | unsharp mask => rfl
    | byMaps maps hx hy => rfl
  rw [hmaps, equip]
  cases design.maps (ImageSource.format source) (ImageSource.width source)
      (ImageSource.height source) with
  | error e => rfl
  | ok maps => exact Resampler.assemble_eq source maps design.sharpening home depot

theorem suit_of_maps_eq_ok {taken : AxisMaps format.sample.Weights}
    (h : design.maps format width height = .ok taken) :
    format.supported ∧ taken.Suit width height := by
  cases design with
  | resize filter outWidth outHeight =>
    obtain ⟨_, hformat, hmaps⟩ := bind_eq_ok_iff.mp h
    exact ⟨Resampler.of_checkFormat_eq_ok hformat, AxisMaps.suit_of_ofFilter_eq_ok hmaps⟩
  | unsharp mask =>
    obtain ⟨-, -, h⟩ := bind_eq_ok_iff.mp h
    obtain ⟨_, hformat, hmaps⟩ := bind_eq_ok_iff.mp h
    exact ⟨Resampler.of_checkFormat_eq_ok hformat, (AxisMaps.suit_of_ofBlur_eq_ok hmaps).1⟩
  | byMaps maps hx hy =>
    obtain ⟨_, hwidth, h⟩ := bind_eq_ok_iff.mp h
    obtain ⟨_, hheight, h⟩ := bind_eq_ok_iff.mp h
    obtain ⟨_, hformat, h⟩ := bind_eq_ok_iff.mp h
    have hsuit : maps.Suit width height :=
      ⟨hx, hy, Resampler.of_checkExtent_eq_ok hwidth, Resampler.of_checkExtent_eq_ok hheight⟩
    exact ⟨Resampler.of_checkFormat_eq_ok hformat, Resampler.suit_of_ofKind_eq_ok hsuit h⟩

theorem borrows_equip (htidy : depot.Tidy) (design : Design) (format : PixelFormat)
    (width height home : Nat) :
    depot.Borrows home (WorkBuffers.share design.sharpening.isSome)
      (design.equip format width height home depot) := by
  unfold equip
  cases design.maps format width height with
  | error e => exact Depot.borrows_error (.refl htidy) (fun _ => rfl) ..
  | ok maps => exact Engine.borrows_borrow htidy ..

theorem map_unbacked_equip {other : Depot} (hsound : depot.Sound) (hother : other.Sound)
    (design : Design) (format : PixelFormat) (width height home away : Nat) :
    (design.equip format width height home depot).1.map Engine.unbacked =
      (design.equip format width height away other).1.map Engine.unbacked := by
  unfold equip
  cases design.maps format width height with
  | error e => rfl
  | ok maps => exact Engine.map_unbacked_borrow hsound hother ..

theorem backed_of_equip_eq_ok (htidy : depot.Tidy) {engine : Engine format} {after : Depot}
    (h : design.equip format width height home depot = (.ok engine, after)) :
    engine.Backed ∧ engine.home = home ∧ engine.sharpening = design.sharpening := by
  unfold equip at h
  cases hmaps : design.maps format width height with
  | error e =>
    rw [hmaps] at h
    cases h
  | ok maps =>
    rw [hmaps] at h
    obtain ⟨hsupported, hsuit⟩ := suit_of_maps_eq_ok hmaps
    exact Engine.backed_of_borrow_eq_ok htidy hsupported hsuit.x hsuit.y h

end Design

end Resampling
