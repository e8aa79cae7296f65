import Mathlib.Data.List.Induction
import Resampling.Span

-- What parts of an array hold after other parts were moved or written, and rows that are
-- painted into it one below the other

namespace Resampling.Span

variable {α : Type}

theorem extract_moveDown (xs : Array α) (shift first last : Nat) (h : last + shift ≤ xs.size) :
    (moveDown xs shift).extract first last = xs.extract (first + shift) (last + shift) := by
  apply Array.ext_getElem?
  intro i
  rw [Array.getElem?_extract, Array.getElem?_extract, size_moveDown]
  by_cases hi : first + i < last
  · rw [if_pos (by omega), if_pos (by omega), getElem?_moveDown _ _ _ (by omega)]
    congr 1
    omega
  · rw [if_neg (by omega), if_neg (by omega)]

theorem extract_overwrite (xs : Array α) (offset : Nat) (row : Array α)
    (h : offset + row.size ≤ xs.size) :
    (overwrite xs offset row).extract offset (offset + row.size) = row := by
  apply Array.ext_getElem?
  intro i
  rw [Array.getElem?_extract, size_overwrite]
  by_cases hi : i < row.size
  · rw [if_pos (by omega), getElem?_overwrite _ _ _ _ hi (by omega),
      Array.getElem?_eq_getElem hi]
  · rw [if_neg (by omega), Array.getElem?_eq_none (by omega)]

theorem extract_overwrite_of_disjoint (xs : Array α) (offset : Nat) (row : Array α)
    (first last : Nat) (h : last ≤ offset ∨ offset + row.size ≤ first) :
    (overwrite xs offset row).extract first last = xs.extract first last := by
  apply Array.ext_getElem?
  intro i
  rw [Array.getElem?_extract, Array.getElem?_extract, size_overwrite]
  by_cases hi : i < min last xs.size - first
  · rw [if_pos hi, if_pos hi, getElem?_overwrite_of_outside]
    omega
  · rw [if_neg hi, if_neg hi]

-- Puts rows into an array, `stride` entries apart
def paint (stride : Nat) (rows : List (Array α)) (xs : Array α) : Array α :=
  rows.zipIdx.foldl (fun xs (row, i) => overwrite xs (i * stride) row) xs

@[simp]
theorem paint_nil (stride : Nat) (xs : Array α) : paint stride [] xs = xs := rfl

theorem paint_append (stride : Nat) (rows : List (Array α)) (row : Array α) (xs : Array α) :
    paint stride (rows ++ [row]) xs =
      overwrite (paint stride rows xs) (rows.length * stride) row := by
  simp [paint, List.zipIdx_append]

@[simp]
theorem size_paint (stride : Nat) (rows : List (Array α)) (xs : Array α) :
    (paint stride rows xs).size = xs.size := by
  induction rows using List.reverseRecOn with
  | nil => rfl
  | append_singleton rows row ih => rw [paint_append, size_overwrite, ih]

theorem getElem?_paint_of_outside (stride : Nat) (rows : List (Array α)) (xs : Array α) (p : Nat)
    (h : ∀ i (hi : i < rows.length), p < i * stride ∨ i * stride + rows[i].size ≤ p) :
    (paint stride rows xs)[p]? = xs[p]? := by
  induction rows using List.reverseRecOn with
  | nil => rfl
  | append_singleton rows row ih =>
    rw [paint_append, getElem?_overwrite_of_outside, ih]
    · intro i hi
      have hrow := h i (by simp; omega)
      rwa [List.getElem_append_left hi] at hrow
    · simpa using h rows.length (by simp)

-- Rows that are no longer than the stride are all found where they were put
theorem getElem?_paint (stride : Nat) (rows : List (Array α)) (xs : Array α) (i k : Nat)
    (hi : i < rows.length) (hk : k < rows[i].size)
    (hrows : ∀ row ∈ rows, row.size ≤ stride)
    (hin : ∀ j (hj : j < rows.length), j * stride + rows[j].size ≤ xs.size) :
    (paint stride rows xs)[i * stride + k]? = some rows[i][k] := by
  induction rows using List.reverseRecOn with
  | nil => simp at hi
  | append_singleton rows row ih =>
    rw [paint_append]
    by_cases hlast : i < rows.length
    · have hsize : rows[i].size ≤ stride := hrows _ (by simp)
      simp only [List.getElem_append_left hlast] at hk ⊢
      -- the last row starts below the end of this one
      have hbelow : (i + 1) * stride ≤ rows.length * stride := Nat.mul_le_mul_right _ hlast
      rw [Nat.succ_mul] at hbelow
      rw [getElem?_overwrite_of_outside _ _ _ _ (Or.inl (by omega))]
      apply ih hlast hk (fun row hrow => hrows row (by simp [hrow]))
      intro j hj
      have hrow := hin j (by simp; omega)
      rwa [List.getElem_append_left hj] at hrow
    · have heq : i = rows.length := by
        simp at hi
        omega
      subst heq
      have hrow := hin rows.length (by simp)
      simp only [List.getElem_concat_length] at hk hrow ⊢
      exact getElem?_overwrite _ _ _ _ hk (by rw [size_paint]; omega)

-- Arrays made of blocks of one length are known block by block
theorem eq_of_blocks {xs ys : Array α} {blocks length : Nat} (hxs : xs.size = blocks * length)
    (hys : ys.size = blocks * length)
    (h : ∀ block < blocks, ∀ k < length, xs[block * length + k]? = ys[block * length + k]?) :
    xs = ys := by
  apply Array.ext_getElem?
  intro i
  by_cases hi : i < blocks * length
  · have hpos : 0 < length := Nat.pos_of_lt_mul_left hi
    have hblock : i / length < blocks := Nat.div_lt_of_lt_mul (by rwa [Nat.mul_comm])
    have hentry := h (i / length) hblock (i % length) (Nat.mod_lt i hpos)
    rwa [Nat.div_add_mod'] at hentry
  · rw [Array.getElem?_eq_none (by omega), Array.getElem?_eq_none (by omega)]

end Resampling.Span
