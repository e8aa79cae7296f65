import Resampling.Axis.Build
import Resampling.Resampler.Basic

-- Setting up stages. A construction takes over its source: if it fails, the source is dropped.

namespace Resampling

structure Construction (σ : Type) where
  result : Except Error σ
  depot : Depot
  events : List Event

-- Settings of an unsharp mask: strength in percent, deviation of the blur in pixels, least
-- difference in byte steps that is sharpened
structure UnsharpMask where
  amount : Nat
  radius : Float
  threshold : Nat

namespace UnsharpMask

def maxAmount : Nat := 1000

def validate (mask : UnsharpMask) : Except Error Unit := do
  if mask.amount > maxAmount then throw (.badMask .amount)
  if !mask.radius.isFinite || mask.radius ≤ 0.0 then throw (.badMask .radius)

def sharpening (mask : UnsharpMask) : Sharpening where
  amount := mask.amount
  threshold := mask.threshold

end UnsharpMask

structure AxisMaps (W : Type) where
  x : AxisMap W
  y : AxisMap W

namespace AxisMaps

variable {W : Type} [Weight W]

-- One table serves both axes where their lengths agree
def ofFilter (filter : Filter) (inWidth inHeight outWidth outHeight : Nat) :
    Except Error (AxisMaps W) := do
  let x ← AxisMap.build filter inWidth outWidth
  if inWidth = inHeight ∧ outWidth = outHeight then return { x := x, y := x }
  let y ← AxisMap.build filter inHeight outHeight
  return { x := x, y := y }

def ofBlur (radius : Float) (width height : Nat) : Except Error (AxisMaps W) := do
  let x ← AxisMap.blur width radius
  if width = height then return { x := x, y := x }
  let y ← AxisMap.blur height radius
  return { x := x, y := y }

-- The same tables, if their weights are of the wanted kind
def ofKind {kind : WeightKind} (maps : AxisMaps kind.Carrier) (wanted : WeightKind) :
    Except Error (AxisMaps wanted.Carrier) :=
  if h : kind = wanted then .ok (h ▸ maps) else .error (.badFilter .weightKind)

end AxisMaps

namespace WorkBuffers

-- Borrows the buffers of a stage over pixels of `channels` samples, of `sampleSize` bytes each
-- in a row and of `innerSize` bytes each between the passes
def lend (home : Nat) (depot : Depot) (sampleSize innerSize channels : Nat)
    (inWidth outWidth taps : Nat) (sharpens : Bool) : Except Error WorkBuffers × Depot :=
  match Word.mul? inWidth channels, Word.mul? outWidth channels with
  | some rowLength, some outLength =>
    depot.lending home sampleSize (Word.mul? rowLength (if sharpens then taps else 1))
      fun lines depot =>
    depot.lending home innerSize (Word.mul? outLength taps) fun slots depot =>
    depot.lending home sampleSize (some outLength) fun outLine depot =>
    if sharpens then
      depot.lending home sampleSize (some outLength) fun blurLine depot =>
        (.ok ⟨lines, slots, outLine, some blurLine⟩, depot)
    else (.ok ⟨lines, slots, outLine, none⟩, depot)
  | _, _ => (.error .outOfMemory, depot)

end WorkBuffers

namespace Engine

-- An engine on newly borrowed buffers, with nothing loaded
def make (format : PixelFormat) (maps : AxisMaps format.sample.Weights)
    (sharpening : Option Sharpening) (buffers : WorkBuffers) : Engine format where
  xmap := maps.x
  ymap := maps.y
  sharpening := sharpening
  window :=
    { start := none
      slots := Element.decodeRow (Vector format.sample.Inner format.channels)
        (maps.x.outPixels * maps.y.samples) buffers.slots.buffer.bytes 0
      lines := buffers.lines.buffer.bytes }
  buffers := buffers

def builtEvent (engine : Engine format) : Event :=
  .built format engine.xmap.inPixels engine.ymap.inPixels engine.xmap.outPixels
    engine.ymap.outPixels engine.xmap.samples engine.ymap.samples engine.sharpening.isSome

end Engine

namespace Resampler

variable {σ : Type} [ImageSource σ]

def refuse (source : σ) (depot : Depot) (e : Error) : Construction (Resampler σ) where
  result := .error e
  depot := depot.takeBackAll (ImageSource.leases source)
  events := []

-- A stage for tables that fit the source, with buffers from the pool `home`
def assemble (source : σ)
    (maps : AxisMaps (ImageSource.format source).sample.Weights)
    (sharpening : Option Sharpening) (home : Nat) (depot : Depot) : Construction (Resampler σ) :=
  let format := ImageSource.format source
  match WorkBuffers.lend home depot (Element.size format.sample.Sample)
      (Element.size format.sample.Inner) format.channels maps.x.inPixels maps.x.outPixels
      maps.y.samples sharpening.isSome with
  | (.error e, depot) => refuse source depot e
  | (.ok buffers, depot) =>
    let engine := Engine.make format maps sharpening buffers
    { result := .ok
        { source := source
          format := format
          width := maps.x.outPixels
          height := maps.y.outPixels
          engine := some engine }
      depot := depot
      events := [engine.builtEvent] }

def checkFormat (format : PixelFormat) : Except Error Unit :=
  if format.supported then .ok () else .error (.unsupportedFormat format)

def resize (source : σ) (filter : Filter) (width height : Nat) (home : Nat) (depot : Depot) :
    Construction (Resampler σ) :=
  let maps := do
    checkFormat (ImageSource.format source)
    AxisMaps.ofFilter filter (ImageSource.width source) (ImageSource.height source) width height
  match maps with
  | .error e => refuse source depot e
  | .ok maps => assemble source maps none home depot

def unsharp (source : σ) (mask : UnsharpMask) (home : Nat) (depot : Depot) :
    Construction (Resampler σ) :=
  let maps := do
    mask.validate
    checkFormat (ImageSource.format source)
    AxisMaps.ofBlur mask.radius (ImageSource.width source) (ImageSource.height source)
  match maps with
  | .error e => refuse source depot e
  | .ok maps => assemble source maps (some mask.sharpening) home depot

def checkExtent {W : Type} (map : AxisMap W) (actual : Nat) : Except Error Unit :=
  if map.inPixels = actual then .ok () else .error (.lengthMismatch map.inPixels actual)

def byMaps (source : σ) {kind : WeightKind} (maps : AxisMaps kind.Carrier) (home : Nat)
    (depot : Depot) : Construction (Resampler σ) :=
  let maps := do
    checkExtent maps.x (ImageSource.width source)
    checkExtent maps.y (ImageSource.height source)
    checkFormat (ImageSource.format source)
    maps.ofKind (ImageSource.format source).sample.weightKind
  match maps with
  | .error e => refuse source depot e
  | .ok maps => assemble source maps none home depot

end Resampler

end Resampling
