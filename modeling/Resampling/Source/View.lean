import Resampling.Source.Basic

namespace Resampling

-- Pixels of a larger array, seen as an image: rows are `stride` pixels apart
structure PixelView where
  format : PixelFormat
  width : Nat
  height : Nat
  stride : Nat
  data : Array UInt8

namespace PixelView

def row (view : PixelView) (y : Nat) : Array UInt8 :=
  let start := y * view.stride * view.format.pixelSize
  view.data.extract start (start + view.width * view.format.pixelSize)

def copyRect (view : PixelView) (rect : Rect) (stride : Nat) {length : Nat}
    (buffer : Vector UInt8 length) : Except Error (Vector UInt8 length) := do
  let pixelSize := view.format.pixelSize
  Request.admit ⟨rect, stride, length⟩ view.width view.height pixelSize
  ImageSource.putRows
    ((((List.range view.height).drop rect.y).take rect.height).map fun y =>
      Span.read 1 (view.row y) (rect.x * pixelSize) (rect.width * pixelSize))
    stride buffer

instance : ImageSource PixelView where
  width := width
  height := height
  format := format
  copyRect view rect stride _ buffer :=
    .settle view buffer [] (view.copyRect rect stride buffer)

end PixelView

end Resampling
