import Resampling.Pixel.Format

-- What a stage reports while it works

namespace Resampling

inductive Event
  -- a stage was set up: extents before and after, taps of either axis
  | built (format : PixelFormat) (inWidth inHeight outWidth outHeight xTaps yTaps : Nat)
      (unsharp : Bool)
  | disposed (width height : Nat)
  -- the window ahead of the wanted row was dropped
  | seekBack (row start : Nat)
  | pull (row slot : Nat)
  deriving DecidableEq, Repr

namespace Event

private def kernelName : SampleKind → String
  | .byte => "ByteConvolver"
  | .uq15 => "Uq15Convolver"
  | .float => "FloatConvolver"

private def extent (width height : Nat) : String := toString width ++ "x" ++ toString height

def level : Event → String
  | built .. | disposed .. => "DEBUG"
  | seekBack .. | pull .. => "TRACE"

def text : Event → String
  | built format inWidth inHeight outWidth outHeight xTaps yTaps unsharp =>
    "convolution " ++ kernelName format.sample ++ " \x7b channels: " ++ toString format.channels ++
      ", alpha: " ++ format.alpha.name ++ " \x7d: " ++ extent inWidth inHeight ++ " -> " ++
      extent outWidth outHeight ++ ", " ++ extent xTaps yTaps ++ " taps, " ++ toString yTaps ++
      " window rows" ++ (if unsharp then ", unsharp" else "")
  | disposed width height => "convolution " ++ extent width height ++ " disposed"
  | seekBack row start =>
    "seek back to source row " ++ toString row ++ "; discarding window at " ++ toString start
  | pull row slot => "pulling source row " ++ toString row ++ " into slot " ++ toString slot

def line (event : Event) : String := event.level ++ " " ++ event.text

end Event

end Resampling
