import Resampling.Pixel.Format

namespace Resampling

-- Why a filter gives no weight table
inductive FilterFault
  | cubicParameters
  | noLobes
  | sigma
  | support
  | weights
  | gain
  | weightKind
  | blurRadius
  deriving DecidableEq, Repr

-- Why unsharp mask settings are refused
inductive MaskFault
  | amount
  | radius
  deriving DecidableEq, Repr

inductive Error
  | unsupportedFormat (format : PixelFormat)
  | emptyAxis
  | badFilter (cause : FilterFault)
  | badMask (cause : MaskFault)
  | lengthMismatch (expected actual : Nat)
  | outsideImage
  | shortBuffer (needed actual : Nat)
  | narrowStride
  | outOfMemory
  | disposed
  -- the wrapped source failed for a reason of its own
  | sourceFailed (reason : String)
  -- an access outside a working buffer, which no state that can be reached makes
  | fault
  deriving DecidableEq, Repr

namespace FilterFault

def message : FilterFault → String
  | cubicParameters => "cubic parameters must lie in [0, 1]"
  | noLobes => "lanczos needs at least one lobe"
  | sigma => "gaussian sigma must be positive"
  | support => "support must be positive and finite"
  | weights => "filter weights must be finite"
  | gain => "filter gain is too high"
  | weightKind => "kernel map weight type does not match the pixel format"
  | blurRadius => "blur radius must be positive"

end FilterFault

namespace MaskFault

def message : MaskFault → String
  | amount => "amount must be at most 1000 percent"
  | radius => "radius must be positive and finite"

end MaskFault

namespace Error

def message : Error → String
  | unsupportedFormat format => "unsupported pixel format: " ++ format.describe
  | emptyAxis => "image axis has zero extent"
  | badFilter cause => "invalid interpolation filter: " ++ cause.message
  | badMask cause => "invalid unsharp mask settings: " ++ cause.message
  | lengthMismatch expected actual =>
    "kernel map expects " ++ toString expected ++ " source pixels but the source has " ++
      toString actual
  | outsideImage => "requested rectangle does not fall within the image bounds"
  | shortBuffer needed actual =>
    "destination buffer too small: need " ++ toString needed ++ " bytes, got " ++ toString actual
  | narrowStride => "stride smaller than row width"
  | outOfMemory => "working buffer allocation failed"
  | disposed => "pipeline used after dispose"
  | sourceFailed _ => "upstream pixel source failed"
  | fault => "access outside a working buffer"

end Error

end Resampling
