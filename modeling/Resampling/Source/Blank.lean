import Resampling.Source.Basic

namespace Resampling

-- A source that claims an extent, checks nothing and never writes
structure Blank where
  format : PixelFormat
  width : Nat
  height : Nat

instance : ImageSource Blank where
  width := Blank.width
  height := Blank.height
  format := Blank.format
  copyRect blank _ _ _ buffer := .done blank buffer

end Resampling
