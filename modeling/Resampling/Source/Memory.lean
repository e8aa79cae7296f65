import Resampling.Source.Basic

namespace Resampling

-- A decoded image in memory, its rows `stride` bytes apart. The last row may lack its padding.
structure MemoryImage where
  format : PixelFormat
  width : Nat
  height : Nat
  stride : Nat
  data : Array UInt8

namespace MemoryImage

def make (format : PixelFormat) (width height stride : Nat) (data : Array UInt8) :
    Except Error MemoryImage := do
  if width == 0 || height == 0 then throw .emptyAxis
  Request.admit ⟨⟨0, 0, width, height⟩, stride, data.size⟩ width height format.pixelSize
  return { format := format, width := width, height := height, stride := stride, data := data }

def ofPacked (format : PixelFormat) (width height : Nat) (data : Array UInt8) :
    Except Error MemoryImage := do
  let some stride := Word.mul? width format.pixelSize | throw .narrowStride
  make format width height stride data

-- Part of row `y`: `width` pixels from column `x` on
def rowPart (image : MemoryImage) (x width y : Nat) : Except Error (Array UInt8) :=
  Span.read 1 image.data (y * image.stride + x * image.format.pixelSize)
    (width * image.format.pixelSize)

def copyRect (image : MemoryImage) (rect : Rect) (stride : Nat) {length : Nat}
    (buffer : Vector UInt8 length) : Except Error (Vector UInt8 length) := do
  Request.admit ⟨rect, stride, length⟩ image.width image.height image.format.pixelSize
  ImageSource.putRows
    ((List.range rect.height).map fun i => image.rowPart rect.x rect.width (rect.y + i))
    stride buffer

instance : ImageSource MemoryImage where
  width := width
  height := height
  format := format
  copyRect image rect stride _ buffer :=
    .settle image buffer [] (image.copyRect rect stride buffer)

end MemoryImage

end Resampling
