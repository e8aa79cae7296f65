import Resampling.Depot
import Resampling.Event
import Resampling.Source.Request

-- Sources of pixels. A source copies any rectangle of its image into bytes of its caller, and
-- may change while it does so.

namespace Resampling

-- What an operation on a source leaves behind: the source, the data it worked on, whether it
-- succeeded, and what was reported
structure Outcome (σ β : Type) where
  source : σ
  state : β
  result : Except Error Unit
  events : List Event

namespace Outcome

variable {σ β : Type}

def done (source : σ) (state : β) : Outcome σ β :=
  { source := source, state := state, result := .ok (), events := [] }

def fail (source : σ) (state : β) (e : Error) : Outcome σ β :=
  { source := source, state := state, result := .error e, events := [] }

-- The new state, or after a failure the old one
def settle (source : σ) (state : β) (events : List Event) (next : Except Error β) :
    Outcome σ β :=
  match next with
  | .ok state => { source := source, state := state, result := .ok (), events := events }
  | .error e => { source := source, state := state, result := .error e, events := events }

-- The same of a source that is part of another
def mapSource {τ : Type} (f : σ → τ) (outcome : Outcome σ β) : Outcome τ β :=
  { source := f outcome.source
    state := outcome.state
    result := outcome.result
    events := outcome.events }

def andThen (outcome : Outcome σ β) (next : σ → β → Outcome σ β) : Outcome σ β :=
  match outcome.result with
  | .error _ => outcome
  | .ok () =>
    let after := next outcome.source outcome.state
    { after with events := outcome.events ++ after.events }

-- One step per list entry, up to the first that fails
def forEach {ι : Type} (step : ι → σ → β → Outcome σ β) : List ι → σ → β → Outcome σ β
  | [], source, state => done source state
  | i :: rest, source, state => (step i source state).andThen (forEach step rest)

end Outcome

class ImageSource (σ : Type) where
  width : σ → Nat
  height : σ → Nat
  format : σ → PixelFormat
  -- copies a rectangle, row `i` of it to byte `i * stride` of the buffer
  copyRect : σ → Rect → (stride : Nat) → {length : Nat} → Vector UInt8 length →
    Outcome σ (Vector UInt8 length)
  -- the buffers to give back when the source is dropped, in order
  leases : σ → List Lease := fun _ => []

namespace ImageSource

variable {σ : Type} [ImageSource σ]

-- Copies rows that are at hand into the buffer
def putRows {length : Nat} (rows : List (Except Error (Array UInt8))) (stride : Nat)
    (buffer : Vector UInt8 length) : Except Error (Vector UInt8 length) :=
  rows.zipIdx.foldlM (fun buffer (row, i) => do Span.write buffer (i * stride) (← row))
    buffer

-- Bytes of a packed row and of the whole packed image
def packedSize (source : σ) : Except Error (Nat × Nat) := do
  let some stride := Word.mul? (width source) (format source).pixelSize | throw .outOfMemory
  let some length := Word.mul? stride (height source) | throw .outOfMemory
  if length > Word.maxAllocation then throw .outOfMemory
  return (stride, length)

def whole (source : σ) : Rect := ⟨0, 0, width source, height source⟩

end ImageSource

structure Reading (σ α : Type) where
  source : σ
  result : Except Error α
  events : List Event

namespace ImageSource

variable {σ : Type} [ImageSource σ]

def collectBytes (source : σ) : Reading σ (Array UInt8) :=
  match packedSize source with
  | .error e => { source := source, result := .error e, events := [] }
  | .ok (stride, length) =>
    let outcome := copyRect source (whole source) stride (Vector.replicate length 0)
    { source := outcome.source
      result := outcome.result.map fun _ => outcome.state.toArray
      events := outcome.events }

end ImageSource

end Resampling
