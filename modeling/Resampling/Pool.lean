import Resampling.Span

-- Working memory is borrowed from a pool and handed back. The pool keeps a bounded number of
-- idle buffers and lends the smallest one that is large enough, cleared.

namespace Resampling

-- Whether there is memory for so many words in one piece
abbrev Memory := Nat → Bool

def Memory.ample : Memory := fun _ => true

-- Memory in words of four bytes. The capacity is what was first allocated; the contents are
-- the bytes in use.
structure Storage where
  capacity : Nat
  bytes : Array UInt8

namespace Storage

def wordSize : Nat := 4

-- No words take no memory, and for more than the largest allocation there never is any
def allocate (memory : Memory) (words : Nat) : Except Error Storage :=
  if words * wordSize ≤ Word.maxAllocation ∧ (words = 0 ∨ memory words) then
    .ok { capacity := words, bytes := #[] }
  else .error .outOfMemory

def clear (storage : Storage) : Storage := { storage with bytes := #[] }

-- Cuts the contents to `count` bytes or fills them up with zeros
def resize (storage : Storage) (count : Nat) : Storage :=
  { storage with
    bytes := storage.bytes.extract 0 count ++ Array.replicate (count - storage.bytes.size) 0 }

end Storage

-- Borrowed storage, seen as `length` elements of `size` bytes
structure Buffer where
  storage : Storage
  size : Nat
  length : Nat

namespace Buffer

def words (buffer : Buffer) : Nat := buffer.storage.bytes.size / Storage.wordSize

def bytes (buffer : Buffer) : Array UInt8 :=
  buffer.storage.bytes.extract 0 (buffer.length * buffer.size)

-- The elements. All words are seen as elements before the first `length` are taken, so it is a
-- fault if the words are not a whole number of elements.
def view (buffer : Buffer) : Except Error (Array UInt8) :=
  let count := buffer.storage.bytes.size / buffer.size
  if count * buffer.size = buffer.storage.bytes.size ∧ buffer.length ≤ count then
    .ok buffer.bytes
  else .error .fault

def store (buffer : Buffer) (bytes : Array UInt8) : Buffer :=
  { buffer with
    storage :=
      { buffer.storage with bytes := Span.overwrite buffer.storage.bytes 0 bytes } }

-- Writes to the elements from the first on, and not past them
def write (buffer : Buffer) (bytes : Array UInt8) : Except Error Buffer := do
  let _ ← buffer.view
  return buffer.store (bytes.extract 0 (buffer.length * buffer.size))

def fill (buffer : Buffer) (value : UInt8) : Buffer :=
  buffer.store (Array.replicate (buffer.length * buffer.size) value)

def describe (buffer : Buffer) : String :=
  "PooledBuffer \x7b len: " ++ toString buffer.length ++ ", words: " ++ toString buffer.words ++
    " \x7d"

end Buffer

structure Pool where
  idle : Array Storage
  -- how many idle buffers are kept at most
  retain : Nat
  -- how many buffers were ever lent and ever taken back
  lent : Nat
  returned : Nat

namespace Pool

def empty (retain : Nat) : Pool := { idle := #[], retain := retain, lent := 0, returned := 0 }

def standard : Pool := empty 16

-- The first of the smallest idle buffers of at least `words` words
def bestFit (pool : Pool) (words : Nat) : Option (Fin pool.idle.size) :=
  ((List.finRange pool.idle.size).filter fun i => words ≤ pool.idle[i].capacity).foldl
    (fun best i =>
      match best with
      | none => some i
      | some b => if pool.idle[i].capacity < pool.idle[b].capacity then some i else some b)
    none

-- Takes an idle buffer out, the last one filling its place, or else allocates one
def take (pool : Pool) (memory : Memory) (words : Nat) : Except Error (Storage × Pool) :=
  match pool.bestFit words with
  | some i =>
    .ok (pool.idle[i],
      { pool with idle := (pool.idle.swapIfInBounds i (pool.idle.size - 1)).pop })
  | none => (Storage.allocate memory words).map fun storage => (storage, pool)

-- Lends `length` elements of `size` bytes, all zero
def lend (pool : Pool) (size length : Nat) (memory : Memory := .ample) :
    Except Error (Buffer × Pool) := do
  let some bytes := Word.mul? length size | throw .outOfMemory
  let words := (bytes + (Storage.wordSize - 1)) / Storage.wordSize
  let (storage, pool) ← pool.take memory words
  let storage := storage.clear.resize (words * Storage.wordSize)
  return ({ storage := storage, size := size, length := length },
    { pool with lent := pool.lent + 1 })

-- Takes a buffer back. It is kept if it has any capacity and there is room for it.
def takeBack (pool : Pool) (storage : Storage) : Pool :=
  let pool := { pool with returned := pool.returned + 1 }
  if storage.capacity ≠ 0 ∧ pool.idle.size < pool.retain then
    { pool with idle := pool.idle.push storage }
  else pool

end Pool

end Resampling
