import Resampling.Kernel.Byte
import Resampling.Kernel.Single
import Resampling.Kernel.Uq15

-- The types and the row kernel that belong to a pixel format

namespace Resampling

namespace SampleKind

@[reducible]
def Sample : SampleKind → Type
  | byte => UInt8
  | uq15 => UInt16
  | float => Float32

@[reducible]
def weightKind : SampleKind → WeightKind
  | byte => .fixed
  | uq15 => .fixed
  | float => .single

@[reducible]
def Weights (kind : SampleKind) : Type := kind.weightKind.Carrier

-- What is kept between the two passes
@[reducible]
def Inner : SampleKind → Type
  | byte => Int
  | uq15 => Int
  | float => Float32

instance elementSample : (kind : SampleKind) → Element kind.Sample
  | byte => inferInstanceAs (Element UInt8)
  | uq15 => inferInstanceAs (Element UInt16)
  | float => inferInstanceAs (Element Float32)

instance elementInner : (kind : SampleKind) → Element kind.Inner
  | byte => inferInstanceAs (Element Int)
  | uq15 => inferInstanceAs (Element Int)
  | float => inferInstanceAs (Element Float32)

end SampleKind

-- The row kernel for a format. It is used for supported formats only.
def RowKernel.ofFormat : (format : PixelFormat) →
    RowKernel format.channels format.sample.Sample format.sample.Weights format.sample.Inner
  | ⟨n, .byte, alpha⟩ => Kernel.Byte.select n alpha
  | ⟨n, .uq15, alpha⟩ => Kernel.Uq15.select n alpha
  | ⟨n, .float, alpha⟩ => Kernel.Single.select n alpha

end Resampling
