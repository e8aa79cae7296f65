-- How a pixel is made up: number of channels, kind of sample, role of the last channel.

namespace Resampling

inductive SampleKind
  -- one byte, 0 to 255
  | byte
  -- 16 bits with 15 fractional ones, 32768 being one
  | uq15
  -- a 32-bit float, nominally 0 to 1
  | float
  deriving DecidableEq, Repr

inductive AlphaMode
  | none
  -- color does not depend on alpha
  | straight
  -- color has been multiplied by alpha
  | premultiplied
  deriving DecidableEq, Repr

structure PixelFormat where
  channels : Nat
  sample : SampleKind
  alpha : AlphaMode
  deriving DecidableEq, Repr

namespace SampleKind

def size : SampleKind → Nat
  | byte => 1
  | uq15 => 2
  | float => 4

def name : SampleKind → String
  | byte => "U8"
  | uq15 => "Uq15"
  | float => "F32"

end SampleKind

namespace AlphaMode

def name : AlphaMode → String
  | none => "None"
  | straight => "Straight"
  | premultiplied => "Premultiplied"

-- How many of the leading channels hold color
def colors : AlphaMode → (channels : Nat) → Nat
  | none, channels => channels
  | straight, channels | premultiplied, channels => channels - 1

end AlphaMode

namespace PixelFormat

def gray8 : PixelFormat := ⟨1, .byte, .none⟩
-- Two independent byte channels, as interleaved chroma
def cbcr16 : PixelFormat := ⟨2, .byte, .none⟩
def bgr24 : PixelFormat := ⟨3, .byte, .none⟩
def bgrx32 : PixelFormat := ⟨4, .byte, .none⟩
def bgra32 : PixelFormat := ⟨4, .byte, .straight⟩
def pbgra32 : PixelFormat := ⟨4, .byte, .premultiplied⟩
def gray16 : PixelFormat := ⟨1, .uq15, .none⟩
def bgr48 : PixelFormat := ⟨3, .uq15, .none⟩
def bgra64 : PixelFormat := ⟨4, .uq15, .straight⟩
def pbgra64 : PixelFormat := ⟨4, .uq15, .premultiplied⟩
def grayFloat : PixelFormat := ⟨1, .float, .none⟩
def cbcrFloat : PixelFormat := ⟨2, .float, .none⟩
def bgrFloat : PixelFormat := ⟨3, .float, .none⟩
def bgraFloat : PixelFormat := ⟨4, .float, .straight⟩
def pbgraFloat : PixelFormat := ⟨4, .float, .premultiplied⟩

-- Bytes of one pixel
def pixelSize (format : PixelFormat) : Nat := format.channels * format.sample.size

def hasAlpha (format : PixelFormat) : Bool := format.alpha != .none

-- The formats that can be resampled: one to three channels without alpha (two only as bytes or
-- floats), and any four channels
def supported : PixelFormat → Bool
  | ⟨4, _, _⟩ => true
  | ⟨1, _, .none⟩ | ⟨3, _, .none⟩ => true
  | ⟨2, .byte, .none⟩ | ⟨2, .float, .none⟩ => true
  | _ => false

def describe (format : PixelFormat) : String :=
  let alpha := match format.alpha with
    | .none => ""
    | .straight => " straight alpha"
    | .premultiplied => " premultiplied alpha"
  toString format.channels ++ "x" ++ format.sample.name ++ alpha

end PixelFormat

end Resampling
