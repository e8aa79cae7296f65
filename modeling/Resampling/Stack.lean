import Resampling.Resize
import Resampling.Source.Blank
import Resampling.Source.Memory
import Resampling.Source.Probe
import Resampling.Source.View

-- Stages over stages, to any height

namespace Resampling

-- A source of type `β` under `depth` stages
def Layered (β : Type) : Nat → Type
  | 0 => β
  | depth + 1 => Resampler (Layered β depth)

namespace Layered

variable {β : Type}

instance pixelSource [ImageSource β] : (depth : Nat) → ImageSource (Layered β depth)
  | 0 => inferInstanceAs (ImageSource β)
  | depth + 1 =>
    letI := pixelSource depth
    inferInstanceAs (ImageSource (Resampler (Layered β depth)))

def bottom : {depth : Nat} → Layered β depth → β
  | 0, source => source
  | _ + 1, stage => bottom (Resampler.source stage)

def mapBottom (f : β → β) : {depth : Nat} → Layered β depth → Layered β depth
  | 0, source => f source
  | depth + 1, stage =>
    let stage : Resampler (Layered β depth) := stage
    ({ stage with source := mapBottom f stage.source } : Resampler (Layered β depth))

end Layered

-- Where a stack gets its pixels
inductive Origin
  | stored (image : MemoryImage)
  | viewed (view : PixelView)
  | claimed (blank : Blank)

namespace Origin

instance : ImageSource Origin where
  width
    | stored image => ImageSource.width image
    | viewed view => ImageSource.width view
    | claimed blank => ImageSource.width blank
  height
    | stored image => ImageSource.height image
    | viewed view => ImageSource.height view
    | claimed blank => ImageSource.height blank
  format
    | stored image => ImageSource.format image
    | viewed view => ImageSource.format view
    | claimed blank => ImageSource.format blank
  copyRect origin rect stride _ buffer :=
    match origin with
    | stored image => (ImageSource.copyRect image rect stride buffer).mapSource stored
    | viewed view => (ImageSource.copyRect view rect stride buffer).mapSource viewed
    | claimed blank => (ImageSource.copyRect blank rect stride buffer).mapSource claimed

end Origin

-- A stack whose height is known only when it runs
structure Stack (β : Type) where
  depth : Nat
  top : Layered β depth

namespace Stack

variable {β : Type} [ImageSource β]

def base (source : β) : Stack β := { depth := 0, top := source }

instance : ImageSource (Stack β) where
  width stack := ImageSource.width stack.top
  height stack := ImageSource.height stack.top
  format stack := ImageSource.format stack.top
  copyRect stack rect stride _ buffer :=
    (ImageSource.copyRect stack.top rect stride buffer).mapSource fun top =>
      { depth := stack.depth, top := top }
  leases stack := ImageSource.leases stack.top

def layer {depth : Nat} (made : Construction (Resampler (Layered β depth))) :
    Construction (Stack β) where
  result := made.result.map fun stage => { depth := depth + 1, top := stage }
  depot := made.depot
  events := made.events

def resize (stack : Stack β) (filter : Filter) (width height home : Nat) (depot : Depot) :
    Construction (Stack β) :=
  layer (Resampler.resize stack.top filter width height home depot)

def unsharp (stack : Stack β) (mask : UnsharpMask) (home : Nat) (depot : Depot) :
    Construction (Stack β) :=
  layer (Resampler.unsharp stack.top mask home depot)

def byMaps (stack : Stack β) {kind : WeightKind} (maps : AxisMaps kind.Carrier) (home : Nat)
    (depot : Depot) : Construction (Stack β) :=
  layer (Resampler.byMaps stack.top maps home depot)

-- One stage more, or two
def prepare (stack : Stack β) (order : Resize) (depot : Depot) :
    Construction (Stack β) :=
  let made := order.applyTo stack.top depot
  { result := made.result.map fun
      | .resized stage => { depth := stack.depth + 1, top := stage }
      | .sharpened stage => { depth := stack.depth + 2, top := stage }
    depot := made.depot
    events := made.events }

def drop (stack : Stack β) (depot : Depot) : Depot :=
  depot.takeBackAll (ImageSource.leases stack.top)

end Stack

end Resampling
