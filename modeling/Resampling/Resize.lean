import Resampling.Resampler.Construct

namespace Resampling

-- An order to resize, and to sharpen afterwards if a mask is given
structure Resize where
  width : Nat
  height : Nat
  filter : Interpolation
  mask : Option UnsharpMask

inductive Prepared (σ : Type)
  | resized (stage : Resampler σ)
  | sharpened (stage : Resampler (Resampler σ))

namespace Prepared

variable {σ : Type} [ImageSource σ]

instance : ImageSource (Prepared σ) where
  width
    | resized stage => ImageSource.width stage
    | sharpened stage => ImageSource.width stage
  height
    | resized stage => ImageSource.height stage
    | sharpened stage => ImageSource.height stage
  format
    | resized stage => ImageSource.format stage
    | sharpened stage => ImageSource.format stage
  copyRect prepared rect stride _ buffer :=
    match prepared with
    | resized stage => (ImageSource.copyRect stage rect stride buffer).mapSource resized
    | sharpened stage => (ImageSource.copyRect stage rect stride buffer).mapSource sharpened
  leases
    | resized stage => ImageSource.leases stage
    | sharpened stage => ImageSource.leases stage

end Prepared

namespace Resize

-- The filter is checked first, then the mask, both before the source is looked at
def validate (order : Resize) : Except Error Unit := do
  order.filter.validate
  match order.mask with
  | none => return ()
  | some mask => mask.validate

-- The mask that has an effect: one of strength zero is left out
def activeMask (order : Resize) : Option UnsharpMask :=
  order.mask.filter fun mask => 0 < mask.amount

variable {σ : Type} [ImageSource σ]

-- The stages over a source, with buffers from the shared pool
def applyTo (order : Resize) (source : σ) (depot : Depot) :
    Construction (Prepared σ) :=
  match order.validate with
  | .error e =>
    { result := .error e, depot := depot.takeBackAll (ImageSource.leases source), events := [] }
  | .ok () =>
    let resized := Resampler.resize source order.filter.filter order.width order.height
      Depot.shared depot
    match resized.result with
    | .error e => { result := .error e, depot := resized.depot, events := resized.events }
    | .ok stage =>
      match order.activeMask with
      | none =>
        { result := .ok (.resized stage), depot := resized.depot, events := resized.events }
      | some mask =>
        let sharpened := Resampler.unsharp stage mask Depot.shared resized.depot
        { result := sharpened.result.map .sharpened
          depot := sharpened.depot
          events := resized.events ++ sharpened.events }

end Resize

end Resampling
