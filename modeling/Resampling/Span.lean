import Resampling.Error
import Resampling.Word

-- Parts of arrays. Reading or writing a part outside the array is the error `fault`, and so is
-- arithmetic on positions that leaves the words, so that a computation without that error has
-- kept to its buffers.

namespace Resampling.Span

def word (x : Nat) : Except Error Nat := if x < Word.limit then .ok x else .error .fault

-- The same for a signed number as wide as a word
def signed (x : Int) : Except Error Int :=
  if x.natAbs < Word.signedLimit ∨ x = -Word.signedLimit then .ok x else .error .fault

-- Whether `length` entries from `offset` on lie in an array of `size` entries. An entry is
-- `unit` numbers wide, and positions are counted in numbers.
def check (unit offset length size : Nat) : Except Error Unit :=
  if offset + length ≤ size ∧ (offset + length) * unit < Word.limit then .ok ()
  else .error .fault

theorem word_eq_ok {x : Nat} (h : x < Word.limit) : word x = .ok x := by
  simp [word, h]

theorem signed_eq_ok {x : Int} (hlow : -Word.signedLimit ≤ x) (hhigh : x < Word.signedLimit) :
    signed x = .ok x := by
  unfold signed
  rw [if_pos (by omega)]

theorem check_eq_ok_iff {unit offset length size : Nat} {u : Unit} :
    check unit offset length size = .ok u ↔
      offset + length ≤ size ∧ (offset + length) * unit < Word.limit := by
  unfold check
  split <;> simp_all

variable {α : Type}

def read (unit : Nat) (xs : Array α) (offset length : Nat) : Except Error (Array α) := do
  check unit offset length xs.size
  return xs.extract offset (offset + length)

theorem read_eq_ok_iff {unit : Nat} {xs ys : Array α} {offset length : Nat} :
    read unit xs offset length = .ok ys ↔
      (offset + length ≤ xs.size ∧ (offset + length) * unit < Word.limit) ∧
        ys = xs.extract offset (offset + length) := by
  unfold read
  cases h : check unit offset length xs.size with
  | ok u =>
    rw [check_eq_ok_iff] at h
    simp [bind, Except.bind, pure, Except.pure, h, eq_comm]
  | error e =>
    have hn : ¬(offset + length ≤ xs.size ∧ (offset + length) * unit < Word.limit) := fun hw => by
      rw [(check_eq_ok_iff (u := ())).mpr hw] at h
      cases h
    simp only [bind, Except.bind, reduceCtorEq, false_iff]
    exact fun hw => hn hw.1

-- Puts the listed entries at `offset`, `offset + step` and so on; what would lie outside is
-- dropped
def scatter (xs : Array α) (offset step : Nat) : List α → Array α
  | [] => xs
  | value :: rest => scatter (xs.setIfInBounds offset value) (offset + step) step rest

@[simp]
theorem size_scatter (xs : Array α) (offset step : Nat) (values : List α) :
    (scatter xs offset step values).size = xs.size := by
  induction values generalizing xs offset with
  | nil => rfl
  | cons value rest ih => rw [scatter, ih, Array.size_setIfInBounds]

theorem getElem?_scatter_of_forall_ne (xs : Array α) (offset step : Nat) (values : List α)
    (j : Nat) (h : ∀ k < values.length, offset + k * step ≠ j) :
    (scatter xs offset step values)[j]? = xs[j]? := by
  induction values generalizing xs offset with
  | nil => rfl
  | cons value rest ih =>
    rw [scatter, ih]
    · have h0 := h 0 (by simp)
      rw [Nat.zero_mul, Nat.add_zero] at h0
      exact Array.getElem?_setIfInBounds_ne h0
    · intro k hk
      have hk' := h (k + 1) (by simpa using hk)
      rw [Nat.succ_mul] at hk'
      omega

theorem getElem?_scatter (xs : Array α) (offset step : Nat) (values : List α) (hstep : 0 < step)
    (k : Nat) (hk : k < values.length) (hin : offset + k * step < xs.size) :
    (scatter xs offset step values)[offset + k * step]? = some values[k] := by
  induction values generalizing xs offset k with
  | nil => simp at hk
  | cons value rest ih =>
    rw [scatter]
    cases k with
    | zero =>
      rw [Nat.zero_mul, Nat.add_zero] at hin ⊢
      rw [getElem?_scatter_of_forall_ne]
      · simp [hin]
      · intro m _
        omega
    | succ k =>
      rw [Nat.succ_mul] at hin ⊢
      have hmove : offset + (k * step + step) = offset + step + k * step := by omega
      rw [hmove, ih]
      · simp
      · simpa using hk
      · rw [Array.size_setIfInBounds]
        omega

-- Puts `row` in place of the entries from `offset` on
def overwrite (xs : Array α) (offset : Nat) (row : Array α) : Array α :=
  scatter xs offset 1 row.toList

@[simp]
theorem size_overwrite (xs : Array α) (offset : Nat) (row : Array α) :
    (overwrite xs offset row).size = xs.size := size_scatter ..

theorem getElem?_overwrite_of_outside (xs : Array α) (offset : Nat) (row : Array α) (j : Nat)
    (h : j < offset ∨ offset + row.size ≤ j) : (overwrite xs offset row)[j]? = xs[j]? :=
  getElem?_scatter_of_forall_ne _ _ _ _ _ fun k hk => by
    rw [Array.length_toList] at hk
    omega

theorem getElem?_overwrite (xs : Array α) (offset : Nat) (row : Array α) (k : Nat)
    (hk : k < row.size) (hin : offset + k < xs.size) :
    (overwrite xs offset row)[offset + k]? = some row[k] := by
  have h := getElem?_scatter xs offset 1 row.toList Nat.one_pos k
    (by rwa [Array.length_toList]) (by rwa [Nat.mul_one])
  rwa [Nat.mul_one, Array.getElem_toList] at h

-- The same where all of the row has to lie in the array
def write {size : Nat} (xs : Vector α size) (offset : Nat) (row : Array α) :
    Except Error (Vector α size) := do
  check 1 offset row.size size
  return ⟨overwrite xs.toArray offset row, by simp⟩

theorem write_eq_ok {size : Nat} {xs : Vector α size} {offset : Nat} {row : Array α}
    (h : offset + row.size ≤ size ∧ offset + row.size < Word.limit) :
    write xs offset row = .ok ⟨overwrite xs.toArray offset row, by simp⟩ := by
  have hcheck : check 1 offset row.size size = .ok () := by rwa [check_eq_ok_iff, Nat.mul_one]
  rw [write, hcheck]
  rfl

-- Moves the entries from `shift` on to the front; the last `shift` entries stay as they are
def moveDown (xs : Array α) (shift : Nat) : Array α :=
  Array.ofFn fun j : Fin xs.size => if h : j + shift < xs.size then xs[j + shift] else xs[j]

@[simp]
theorem size_moveDown (xs : Array α) (shift : Nat) : (moveDown xs shift).size = xs.size := by
  simp [moveDown]

theorem getElem?_moveDown (xs : Array α) (shift j : Nat) (h : j + shift < xs.size) :
    (moveDown xs shift)[j]? = xs[j + shift]? := by
  have hj : j < xs.size := by omega
  simp [moveDown, h, hj]

end Resampling.Span
