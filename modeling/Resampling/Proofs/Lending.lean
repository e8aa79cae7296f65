import Resampling.Proofs.Outcome
import Resampling.Resampler.Construct

-- What borrowed buffers are: as long as asked for, of lengths that are words, and cleared

namespace Resampling

theorem Storage.size_resize (storage : Storage) (count : Nat) :
    (storage.resize count).bytes.size = count := by
  rw [resize, Array.size_append, Array.size_extract, Array.size_replicate]
  omega

-- A buffer of `length` elements of `size` bytes, all of them in its storage
structure Buffer.Holds (buffer : Buffer) (size length : Nat) : Prop where
  size_lt : length * size < Word.limit
  size_bytes : buffer.bytes.size = length * size

theorem Pool.lend_eq_ok {pool after : Pool} {size length : Nat} {memory : Memory} {buffer : Buffer}
    (h : pool.lend size length memory = .ok (buffer, after)) : buffer.Holds size length := by
  unfold lend at h
  cases hbytes : Word.mul? length size with
  | none =>
    rw [hbytes] at h
    cases h
  | some bytes =>
    rw [hbytes] at h
    obtain ⟨⟨storage, taken⟩, -, h⟩ := bind_eq_ok_iff.mp h
    cases h
    obtain ⟨hlt, rfl⟩ := Word.mul?_eq_some_iff.mp hbytes
    refine ⟨hlt, ?_⟩
    -- whole words are no shorter than the bytes
    rw [Buffer.bytes, Array.size_extract, Storage.size_resize, Storage.wordSize]
    simp only
    omega

theorem Depot.lend_eq_ok {depot after : Depot} {home size length : Nat} {lease : Lease}
    (h : depot.lend home size length = (.ok lease, after)) : lease.buffer.Holds size length := by
  unfold lend at h
  cases hlend : (depot.pool home).lend size length (depot.memory 0) with
  | error e =>
    rw [hlend] at h
    cases h
  | ok lent =>
    rw [hlend] at h
    cases h
    exact Pool.lend_eq_ok hlend

-- What succeeds with a buffer has lent it
theorem Depot.of_lending_eq_ok {α : Type} {depot after : Depot} {home size : Nat}
    {length : Option Nat} {rest : Lease → Depot → Except Error α × Depot} {value : α}
    (h : depot.lending home size length rest = (.ok value, after)) :
    ∃ count lease between, length = some count ∧ lease.buffer.Holds size count ∧
      rest lease between = (.ok value, after) := by
  unfold lending at h
  cases hlength : length with
  | none =>
    rw [hlength] at h
    cases h
  | some count =>
    rw [hlength] at h
    simp only at h
    cases hlend : depot.lend home size count with
    | mk lent between =>
      rw [hlend] at h
      cases lent with
      | error e => cases h
      | ok lease =>
        simp only at h
        refine ⟨count, lease, between, rfl, lend_eq_ok hlend, ?_⟩
        cases hrest : rest lease between with
        | mk result final =>
          rw [hrest] at h
          cases result with
          | ok value => exact h
          | error e => cases h

theorem WorkBuffers.lend_eq_ok {home : Nat} {depot after : Depot}
    {sampleSize innerSize channels inWidth outWidth taps : Nat} {sharpens : Bool}
    {buffers : WorkBuffers}
    (h : lend home depot sampleSize innerSize channels inWidth outWidth taps sharpens =
      (.ok buffers, after)) :
    inWidth * channels < Word.limit ∧ outWidth * channels * taps < Word.limit ∧
      buffers.lines.buffer.Holds sampleSize
        (inWidth * channels * (if sharpens then taps else 1)) := by
  unfold lend at h
  cases hrow : Word.mul? inWidth channels with
  | none =>
    rw [hrow] at h
    cases h
  | some rowLength =>
    cases hout : Word.mul? outWidth channels with
    | none =>
      rw [hrow, hout] at h
      cases h
    | some outLength =>
      rw [hrow, hout] at h
      obtain ⟨hrowLt, rfl⟩ := Word.mul?_eq_some_iff.mp hrow
      obtain ⟨-, rfl⟩ := Word.mul?_eq_some_iff.mp hout
      obtain ⟨count, lines, depot, hcount, hlines, h⟩ := Depot.of_lending_eq_ok h
      obtain ⟨slotCount, slots, depot, hslotCount, -, h⟩ := Depot.of_lending_eq_ok h
      obtain ⟨outCount, outLine, depot, -, -, h⟩ := Depot.of_lending_eq_ok h
      obtain ⟨hslotsLt, -⟩ := Word.mul?_eq_some_iff.mp hslotCount
      obtain ⟨-, rfl⟩ := Word.mul?_eq_some_iff.mp hcount
      refine ⟨hrowLt, hslotsLt, ?_⟩
      by_cases hsharpens : sharpens
      · rw [if_pos hsharpens] at h
        obtain ⟨blurCount, blurLine, depot, -, -, h⟩ := Depot.of_lending_eq_ok h
        cases h
        exact hlines
      · rw [if_neg hsharpens] at h
        cases h
        exact hlines

end Resampling
