import Resampling.Pool

-- Several pools, each known by a number, and the memory that all of them allocate from. A lease
-- remembers the pool it came from, so that it goes back there whoever holds it last.

namespace Resampling

structure Lease where
  home : Nat
  buffer : Buffer

structure Depot where
  pool : Nat → Pool
  -- what there is memory for when the first loan from now on is made, the second and so on
  memory : Nat → Memory

namespace Depot

-- The number of the pool that serves those who name none
def shared : Nat := 0

def fresh : Depot := { pool := fun _ => Pool.standard, memory := fun _ => .ample }

def update (depot : Depot) (home : Nat) (pool : Pool) : Depot :=
  { depot with pool := fun i => if i = home then pool else depot.pool i }

@[simp]
theorem pool_update_self (depot : Depot) (home : Nat) (pool : Pool) :
    (depot.update home pool).pool home = pool := by
  simp [update]

theorem pool_update_other (depot : Depot) {home other : Nat} (pool : Pool) (h : other ≠ home) :
    (depot.update home pool).pool other = depot.pool other := by
  simp [update, h]

-- The depot once a loan has been asked for, whether it was made or not
def asked (depot : Depot) : Depot := { depot with memory := fun n => depot.memory (n + 1) }

def lend (depot : Depot) (home size length : Nat) : Except Error Lease × Depot :=
  match (depot.pool home).lend size length (depot.memory 0) with
  | .error e => (.error e, depot.asked)
  | .ok (buffer, pool) => (.ok { home := home, buffer := buffer }, depot.asked.update home pool)

def takeBack (depot : Depot) (lease : Lease) : Depot :=
  depot.update lease.home ((depot.pool lease.home).takeBack lease.buffer.storage)

def takeBackAll (depot : Depot) (leases : List Lease) : Depot := leases.foldl takeBack depot

-- Lends a buffer for the rest of a construction. Where the length is no word nothing is lent,
-- and if the rest fails the buffer goes back.
def lending {α : Type} (depot : Depot) (home size : Nat) (length : Option Nat)
    (rest : Lease → Depot → Except Error α × Depot) : Except Error α × Depot :=
  match length with
  | none => (.error .outOfMemory, depot)
  | some length =>
    match depot.lend home size length with
    | (.error e, depot) => (.error e, depot)
    | (.ok lease, depot) =>
      match rest lease depot with
      | (.ok value, depot) => (.ok value, depot)
      | (.error e, depot) => (.error e, depot.takeBack lease)

end Depot

end Resampling
