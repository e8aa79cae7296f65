-- Sizes, offsets and strides are 64-bit words. They are kept as natural numbers,
-- and every sum or product that may not fit is formed through this module.

namespace Resampling.Word

-- One past the largest word
def limit : Nat := 0x1_0000_0000_0000_0000

-- One past the largest signed word
def signedLimit : Nat := 0x8000_0000_0000_0000

-- The largest number of bytes that one allocation can hold
def maxAllocation : Nat := signedLimit - 1

def add? (a b : Nat) : Option Nat := if a + b < limit then some (a + b) else none

def mul? (a b : Nat) : Option Nat := if a * b < limit then some (a * b) else none

theorem mul?_eq_some_iff {a b c : Nat} : mul? a b = some c ↔ a * b < limit ∧ a * b = c := by
  simp [mul?]

end Resampling.Word
