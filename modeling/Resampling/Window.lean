import Resampling.Kernel.Basic
import Resampling.Source.Basic

-- The sliding window. An output row needs as many source rows as its axis has taps. Each source
-- row is filtered across once, when it enters the window; rows that are needed again are moved
-- to their new place instead of being asked for again.

namespace Resampling

-- What a stage does to each row, fixed when it is set up
structure Plan (n : Nat) (S W T : Type) where
  kernel : RowKernel n S W T
  xmap : AxisMap W
  ymap : AxisMap W
  sharpening : Option Sharpening

-- The filtered rows at hand. Column `x` owns the slots from `x * taps` on, one for each source
-- row from `start` on; without a start the slots mean nothing. `lines` holds the source rows as
-- they came, all of them when sharpening and else the last one.
structure Window (n : Nat) (T : Type) where
  start : Option Nat
  slots : Array (Vector T n)
  lines : Array UInt8

namespace Window

variable {n : Nat} {T : Type}

-- The source row of the first slot as a signed number. While nothing is loaded it is one window
-- below zero, so that all slots are filled from there.
def signedStart (window : Window n T) (taps : Nat) : Int :=
  match window.start with
  | none => -taps
  | some start => start

-- By how many slots the window moves to start at `anchor`, all of them at most. A window that
-- has to go back is put right below the wanted row first.
def shift (window : Window n T) (taps anchor : Nat) : Except Error Nat := do
  let slots ← Span.signed taps
  let row ← Span.signed anchor
  let start := window.signedStart taps
  let start ← if row < start then Span.signed (row - slots) else pure start
  let distance ← Span.signed (row - start)
  return (min distance slots).toNat

def seekEvents (window : Window n T) (anchor : Nat) : List Event :=
  match window.start with
  | none => []
  | some start => if anchor < start then [.seekBack anchor start] else []

end Window

namespace Plan

variable {n : Nat} {S W T : Type} [Element S]

def taps (plan : Plan n S W T) : Nat := plan.ymap.samples

def rowBytes (plan : Plan n S W T) : Nat := plan.xmap.inPixels * Element.size (Vector S n)

def linePosition (plan : Plan n S W T) (slot : Nat) : Nat :=
  if plan.sharpening.isSome then slot * plan.rowBytes else 0

-- The row kernel, which is written out for one to four channels
def dispatch (plan : Plan n S W T) : Except Error (RowKernel n S W T) :=
  if 1 ≤ n ∧ n ≤ 4 then .ok plan.kernel else .error .fault

def filterRow (plan : Plan n S W T) (row : Array (Vector S n)) :
    Except Error (Array (Vector T n)) := do
  let kernel ← plan.dispatch
  -- the weights are taken in groups of this size
  if plan.xmap.samples = 0 then throw .fault
  plan.xmap.rows.mapM fun r => do
    let pixels ← Span.read n row r.anchor plan.xmap.samples
    return kernel.gather (pixels.toList.zip r.weights)

-- Puts a filtered row into one slot of every column
def putSlot (plan : Plan n S W T) (slots : Array (Vector T n)) (slot : Nat)
    (row : Array (Vector T n)) : Except Error (Array (Vector T n)) :=
  if slot < plan.taps ∧ row.size * plan.taps ≤ slots.size ∧ slots.size * n < Word.limit then
    .ok (Span.scatter slots slot plan.taps row.toList)
  else .error .fault

-- Moves the slots from `shift` on to the front. They are moved as one block, so that the later
-- slots of a column receive values of the next one; they are filled anew afterwards.
def slide (plan : Plan n S W T) (window : Window n T) (shift : Nat) :
    Except Error (Window n T) := do
  if shift = 0 ∨ plan.taps ≤ shift then return window
  Span.check n shift 0 window.slots.size
  let slots := Span.moveDown window.slots shift
  if plan.sharpening.isSome then
    Span.check 1 (shift * plan.rowBytes) 0 window.lines.size
    return { window with
      slots := slots, lines := Span.moveDown window.lines (shift * plan.rowBytes) }
  return { window with slots := slots }

variable {σ : Type} [ImageSource σ]

-- Asks for source row `anchor + slot` and filters it into its slot
def pull (plan : Plan n S W T) (anchor slot : Nat) (source : σ) (window : Window n T) :
    Outcome σ (Window n T) :=
  let position := plan.linePosition slot
  match (do return (← Span.word (anchor + slot),
      ← Span.read 1 window.lines position plan.rowBytes)) with
  | .error e => .fail source window e
  | .ok (y, line) =>
    let rect : Rect := ⟨0, y, plan.xmap.inPixels, 1⟩
    let outcome := ImageSource.copyRect source rect plan.rowBytes line.toVector
    let line := outcome.state.toArray
    let window := { window with lines := Span.overwrite window.lines position line }
    .settle outcome.source window (.pull y slot :: outcome.events) do
      outcome.result
      let row ← plan.filterRow (Element.decodeRow (Vector S n) plan.xmap.inPixels line 0)
      return { window with slots := (← plan.putSlot window.slots slot row) }

-- Makes the window start at `anchor`. After a failure it holds nothing.
def load (plan : Plan n S W T) (anchor : Nat) (source : σ) (window : Window n T) :
    Outcome σ (Window n T) :=
  match (do
      let shift ← window.shift plan.taps anchor
      return (shift, ← plan.slide window shift)) with
  | .error e => .fail source window e
  | .ok (shift, moved) =>
    let outcome := Outcome.forEach (plan.pull anchor) (List.range' (plan.taps - shift) shift)
      source { moved with start := some anchor }
    let start := match outcome.result with
      | .error _ => none
      | .ok () => some anchor
    { outcome with
      state := { outcome.state with start := start }
      events := window.seekEvents anchor ++ outcome.events }

-- Part of an output row, blended down the columns
def blendRow (plan : Plan n S W T) (slots : Array (Vector T n)) (weights : List W)
    (x width : Nat) : Except Error (Array (Vector S n)) := do
  let kernel ← plan.dispatch
  (Array.range width).mapM fun i => do
    let column ← Span.read n slots ((x + i) * plan.taps) plan.taps
    return kernel.blend (column.toList.zip weights)

-- The slot that holds source row `y`, or else the nearest
def slotOf (plan : Plan n S W T) (window : Window n T) (y : Nat) : Except Error Nat := do
  let row ← Span.signed y
  let distance ← Span.signed (row - window.signedStart plan.taps)
  return (FixedPoint.clamp 0 (plan.taps - 1) distance).toNat

def keptRow (plan : Plan n S W T) (window : Window n T) (slot x width : Nat) :
    Except Error (Array (Vector S n)) := do
  let pixel := Element.size (Vector S n)
  let bytes ← Span.read 1 window.lines (slot * plan.rowBytes + x * pixel) (width * pixel)
  return Element.decodeRow (Vector S n) width bytes 0

-- Columns `x` to `x + width` of output row `y`, from a loaded window
def outputRow (plan : Plan n S W T) (window : Window n T) (weights : List W)
    (y x width : Nat) : Except Error (Array (Vector S n)) := do
  let _ ← Span.word (x + width)
  -- the line that takes the row is as long as an output row
  Span.check n 0 width plan.xmap.outPixels
  let blended ← plan.blendRow window.slots weights x width
  match plan.sharpening with
  | none => return blended
  | some sharpening =>
    let kernel ← plan.dispatch
    let unblurred ← plan.keptRow window (← plan.slotOf window y) x width
    return Array.zipWith (kernel.sharpen sharpening) unblurred blended

def copyRow (plan : Plan n S W T) (rect : Rect) (stride : Nat) {length : Nat} (i : Nat)
    (source : σ) (state : Window n T × Vector UInt8 length) :
    Outcome σ (Window n T × Vector UInt8 length) :=
  let (window, buffer) := state
  match plan.ymap.row (rect.y + i) with
  | .error e => .fail source (window, buffer) e
  | .ok row =>
    let outcome := plan.load row.anchor source window
    .settle outcome.source (outcome.state, buffer) outcome.events do
      outcome.result
      let pixels ← plan.outputRow outcome.state row.weights (rect.y + i) rect.x rect.width
      let buffer ← Span.write buffer (i * stride) (Element.encodeRow pixels)
      return (outcome.state, buffer)

def copyRows (plan : Plan n S W T) (rect : Rect) (stride : Nat) {length : Nat} (source : σ)
    (window : Window n T) (buffer : Vector UInt8 length) :
    Outcome σ (Window n T × Vector UInt8 length) :=
  Outcome.forEach (plan.copyRow rect stride) (List.range rect.height) source (window, buffer)

end Plan

end Resampling
