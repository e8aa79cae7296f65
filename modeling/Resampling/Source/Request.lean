import Resampling.Error
import Resampling.Pixel.Rect

namespace Resampling

-- What a caller asks of an image: a rectangle of it, in `length` bytes of memory with its rows
-- `stride` bytes apart
structure Request where
  rect : Rect
  stride : Nat
  length : Nat
  deriving DecidableEq, Repr

-- Whether a request can be met by an image of the given extent. An empty rectangle in the image
-- needs no memory.
def Request.admit (request : Request) (width height pixelSize : Nat) : Except Error Unit :=
  if !request.rect.liesIn width height then .error .outsideImage
  else if request.rect.isEmpty then .ok ()
  else
    match Word.mul? request.rect.width pixelSize with
    | none => .error .narrowStride
    | some rowBytes =>
      if rowBytes > request.stride then .error .narrowStride
      else
        match (Word.mul? (request.rect.height - 1) request.stride).bind (Word.add? · rowBytes) with
        | none => .error .narrowStride
        | some needed =>
          if request.length < needed then .error (.shortBuffer needed request.length)
          else .ok ()

end Resampling
