import Resampling.Kernel.Select
import Resampling.Window

-- A stage that resamples or sharpens the source it wraps and is a source itself

namespace Resampling

-- The borrowed buffers of a stage. The window takes its storage from the first two; a row on its
-- way out passes through the others, and nothing of it stays.
structure WorkBuffers where
  lines : Lease
  slots : Lease
  outLine : Lease
  blurLine : Option Lease

def WorkBuffers.toList (buffers : WorkBuffers) : List Lease :=
  [buffers.lines, buffers.slots, buffers.outLine] ++ buffers.blurLine.toList

structure Engine (format : PixelFormat) where
  xmap : AxisMap format.sample.Weights
  ymap : AxisMap format.sample.Weights
  sharpening : Option Sharpening
  window : Window format.channels format.sample.Inner
  buffers : WorkBuffers

namespace Engine

variable {format : PixelFormat}

def plan (engine : Engine format) :
    Plan format.channels format.sample.Sample format.sample.Weights format.sample.Inner where
  kernel := RowKernel.ofFormat format
  xmap := engine.xmap
  ymap := engine.ymap
  sharpening := engine.sharpening

-- The buffers with what the window left in them
def release (engine : Engine format) : List Lease :=
  let { lines, slots, outLine, blurLine } := engine.buffers
  WorkBuffers.toList
    { lines := { lines with buffer := lines.buffer.store engine.window.lines }
      slots :=
        { slots with buffer := slots.buffer.store (Element.encodeRow engine.window.slots) }
      outLine := outLine
      blurLine := blurLine }

end Engine

-- A stage over a source. Without an engine it has been disposed of.
structure Resampler (σ : Type) where
  source : σ
  format : PixelFormat
  width : Nat
  height : Nat
  engine : Option (Engine format)

namespace Resampler

variable {σ : Type}

def isDisposed (stage : Resampler σ) : Bool := stage.engine.isNone

def ownLeases (stage : Resampler σ) : List Lease :=
  match stage.engine with
  | none => []
  | some engine => engine.release

-- Gives back the buffers. The stage answers no request afterwards.
def dispose (stage : Resampler σ) (depot : Depot) : Resampler σ × Depot × List Event :=
  match stage.engine with
  | none => (stage, depot, [])
  | some engine =>
    ({ stage with engine := none }, depot.takeBackAll engine.release,
      [.disposed stage.width stage.height])

-- The wrapped source, once the stage is disposed of
def unwrap (stage : Resampler σ) (depot : Depot) : σ × Depot × List Event :=
  let (stage, depot, events) := stage.dispose depot
  (stage.source, depot, events)

def copyRect [ImageSource σ] (stage : Resampler σ) (rect : Rect) (stride : Nat) {length : Nat}
    (buffer : Vector UInt8 length) : Outcome (Resampler σ) (Vector UInt8 length) :=
  match stage.engine with
  | none => .fail stage buffer .disposed
  | some engine =>
    match Request.admit ⟨rect, stride, length⟩ stage.width stage.height stage.format.pixelSize with
    | .error e => .fail stage buffer e
    | .ok () =>
      if rect.isEmpty then .done stage buffer
      else
        let outcome := engine.plan.copyRows rect stride stage.source engine.window buffer
        { source :=
            { stage with
              source := outcome.source
              engine := some { engine with window := outcome.state.1 } }
          state := outcome.state.2
          result := outcome.result
          events := outcome.events }

-- Dropping a stage drops the source it wraps and then gives back its own buffers
instance [ImageSource σ] : ImageSource (Resampler σ) where
  width := width
  height := height
  format := format
  copyRect stage rect stride _ buffer := stage.copyRect rect stride buffer
  leases stage := ImageSource.leases stage.source ++ stage.ownLeases

end Resampler

end Resampling
