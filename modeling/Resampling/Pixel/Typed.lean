import Resampling.Resize
import Resampling.Source.Memory
import Resampling.Source.View

-- Pixels of a known type. The order of color channels does not matter to any computation, so
-- types that differ in it alone share a format.

namespace Resampling

inductive ChannelOrder
  | gray
  | rgb
  | bgr
  | rgba
  | bgra
  deriving DecidableEq, Repr

inductive PixelDepth
  | byte
  | float
  deriving DecidableEq, Repr

structure PixelType where
  order : ChannelOrder
  depth : PixelDepth
  deriving DecidableEq, Repr

namespace PixelType

def format : PixelType → PixelFormat
  | ⟨.gray, .byte⟩ => .gray8
  | ⟨.rgb, .byte⟩ | ⟨.bgr, .byte⟩ => .bgr24
  | ⟨.rgba, .byte⟩ | ⟨.bgra, .byte⟩ => .bgra32
  | ⟨.gray, .float⟩ => .grayFloat
  | ⟨.rgb, .float⟩ | ⟨.bgr, .float⟩ => .bgrFloat
  | ⟨.rgba, .float⟩ | ⟨.bgra, .float⟩ => .bgraFloat

-- A pixel, as its bytes
abbrev Pixel (type : PixelType) : Type := Vector UInt8 type.format.pixelSize

end PixelType

-- Tightly packed pixels as an image in memory
def MemoryImage.ofPixels (type : PixelType) (pixels : Array type.Pixel) (width height : Nat) :
    Except Error MemoryImage :=
  MemoryImage.ofPacked type.format width height (Element.encodeRow pixels)

namespace ImageSource

variable {σ : Type} [ImageSource σ]

-- The number of pixels of a source that has pixels of the given type
def pixelCount (type : PixelType) (source : σ) : Except Error Nat := do
  if format source ≠ type.format then throw (.unsupportedFormat (format source))
  let some count := Word.mul? (width source) (height source) | throw .outOfMemory
  if count * type.format.pixelSize > Word.maxAllocation then throw .outOfMemory
  return count

def collectPixels (type : PixelType) (source : σ) : Reading σ (Array type.Pixel) :=
  match pixelCount type source with
  | .error e => { source := source, result := .error e, events := [] }
  | .ok count =>
    let outcome := copyRect source (whole source) (width source * type.format.pixelSize)
      (Vector.replicate (count * type.format.pixelSize) 0)
    { source := outcome.source
      result := outcome.result.map fun _ =>
        Element.decodeRow type.Pixel count outcome.state.toArray 0
      events := outcome.events }

end ImageSource

namespace PixelView

-- Pixels of one type, rows `stride` pixels apart
def ofPixels (type : PixelType) (pixels : Array type.Pixel) (width height stride : Nat) :
    PixelView where
  format := type.format
  width := width
  height := height
  stride := stride
  data := Element.encodeRow pixels

def resize (type : PixelType) (view : PixelView) (filter : Filter) (width height : Nat)
    (depot : Depot) : Except Error (Array type.Pixel) × Depot :=
  let made := Resampler.resize view filter width height Depot.shared depot
  match made.result with
  | .error e => (.error e, made.depot)
  | .ok stage =>
    let reading := ImageSource.collectPixels type stage
    (reading.result, made.depot.takeBackAll (ImageSource.leases reading.source))

def run (type : PixelType) (view : PixelView) (order : Resize)
    (depot : Depot) : Except Error (Array type.Pixel) × Depot :=
  let made := order.applyTo view depot
  match made.result with
  | .error e => (.error e, made.depot)
  | .ok stage =>
    let reading := ImageSource.collectPixels type stage
    (reading.result, made.depot.takeBackAll (ImageSource.leases reading.source))

end PixelView

end Resampling
