-- Values as bytes, the least significant byte first, and rows of values as packed bytes.
-- Both directions are given through the byte at an index, so that a slice of a row is the
-- row of a slice.

namespace Resampling

-- The number with the given low `count` bytes
def littleEndian : Nat → (Nat → UInt8) → Nat
  | 0, _ => 0
  | count + 1, bytes => (bytes 0).toNat + 256 * littleEndian count fun k => bytes (k + 1)

def byteOfNat (value k : Nat) : UInt8 := UInt8.ofNat (value >>> (8 * k))

theorem toNat_byteOfNat (value k : Nat) :
    (byteOfNat value k).toNat = value >>> (8 * k) % 256 := by
  simp [byteOfNat]

theorem littleEndian_congr {count : Nat} {bytes bytes' : Nat → UInt8}
    (h : ∀ k < count, bytes k = bytes' k) :
    littleEndian count bytes = littleEndian count bytes' := by
  induction count generalizing bytes bytes' with
  | zero => rfl
  | succ count ih =>
    rw [littleEndian, littleEndian, h 0 (by omega), ih fun k hk => h (k + 1) (by omega)]

-- The low bytes of a number make up its remainder
theorem littleEndian_byteOfNat (count value : Nat) :
    littleEndian count (byteOfNat value) = value % 1 <<< (8 * count) := by
  induction count generalizing value with
  | zero => rw [littleEndian, Nat.mul_zero, Nat.shiftLeft_zero, Nat.mod_one]
  | succ count ih =>
    have hbyte : (fun k => byteOfNat value (k + 1)) = byteOfNat (value >>> 8) := by
      funext k
      rw [byteOfNat, byteOfNat, Nat.mul_succ, Nat.add_comm, Nat.shiftRight_add]
    have hlimit : 1 <<< (8 * (count + 1)) = 256 * 1 <<< (8 * count) := by
      rw [Nat.mul_succ, Nat.shiftLeft_add, Nat.shiftLeft_eq _ 8, Nat.mul_comm]
    rw [littleEndian, hbyte, ih, toNat_byteOfNat, Nat.mul_zero, Nat.shiftRight_zero, hlimit,
      Nat.mod_mul, Nat.shiftRight_eq_div_pow]

-- A type whose values are stored in `size` bytes each
class Element (α : Type) where
  size : Nat
  byteAt : α → Nat → UInt8
  ofBytes : (Nat → UInt8) → α

-- A type whose values are what their bytes say
class LawfulElement (α : Type) [Element α] : Prop where
  ofBytes_of_forall_eq : ∀ (value : α) (bytes : Nat → UInt8),
    (∀ k < Element.size α, bytes k = Element.byteAt value k) → Element.ofBytes bytes = value

namespace Element

instance : Element UInt8 where
  size := 1
  byteAt value _ := value
  ofBytes bytes := bytes 0

instance : LawfulElement UInt8 where
  ofBytes_of_forall_eq _ _ h := h 0 Nat.one_pos

instance : Element UInt16 where
  size := 2
  byteAt value k := byteOfNat value.toNat k
  ofBytes bytes := UInt16.ofNat (littleEndian 2 bytes)

instance : LawfulElement UInt16 where
  ofBytes_of_forall_eq value bytes h := by
    have hvalue : littleEndian 2 bytes = value.toNat % 1 <<< 16 :=
      (littleEndian_congr h).trans (littleEndian_byteOfNat 2 value.toNat)
    simp only [ofBytes, hvalue]
    rw [Nat.mod_eq_of_lt (show value.toNat < 1 <<< 16 from value.toNat_lt), UInt16.ofNat_toNat]

instance : Element Int where
  size := 4
  byteAt value k := byteOfNat (value % 0x1_0000_0000).toNat k
  ofBytes bytes := Int.bmod (littleEndian 4 bytes) 0x1_0000_0000

instance : Element Float32 where
  size := 4
  byteAt value k := byteOfNat value.toBits.toNat k
  ofBytes bytes := Float32.ofBits (UInt32.ofNat (littleEndian 4 bytes))

variable {α : Type} [Element α] {n : Nat}

instance : Element (Vector α n) where
  size := n * size α
  byteAt value j :=
    match value[j / size α]? with
    | some entry => byteAt entry (j % size α)
    | none => 0
  ofBytes bytes := Vector.ofFn fun i : Fin n => ofBytes fun k => bytes (i * size α + k)

theorem size_vector : size (Vector α n) = n * size α := rfl

private theorem entry_div {i k size : Nat} (hk : k < size) : (i * size + k) / size = i := by
  rw [Nat.mul_comm, Nat.mul_add_div (by omega), Nat.div_eq_of_lt hk, Nat.add_zero]

private theorem entry_mod {i k size : Nat} (hk : k < size) : (i * size + k) % size = k := by
  rw [Nat.mul_comm, Nat.mul_add_mod, Nat.mod_eq_of_lt hk]

-- Byte `k` of entry `i` lies within the bytes of `count` entries
theorem entry_lt {i k size count : Nat} (hi : i < count) (hk : k < size) :
    i * size + k < count * size :=
  calc i * size + k < (i + 1) * size := by rw [Nat.succ_mul]; omega
    _ ≤ count * size := Nat.mul_le_mul_right _ hi

theorem byteAt_vector (value : Vector α n) (i k : Nat) (hi : i < n) (hk : k < size α) :
    byteAt value (i * size α + k) = byteAt value[i] k := by
  show (match value[(i * size α + k) / size α]? with
    | some entry => byteAt entry ((i * size α + k) % size α)
    | none => 0) = byteAt value[i] k
  rw [entry_div hk, entry_mod hk, Vector.getElem?_eq_getElem hi]

instance [LawfulElement α] : LawfulElement (Vector α n) where
  ofBytes_of_forall_eq value bytes h := by
    apply Vector.ext
    intro i hi
    show (Vector.ofFn fun i : Fin n => ofBytes fun k => bytes (i * size α + k))[i] = value[i]
    rw [Vector.getElem_ofFn]
    apply LawfulElement.ofBytes_of_forall_eq
    intro k hk
    rw [h _ (entry_lt hi hk), byteAt_vector value i k hi hk]

def encodeRow (row : Array α) : Array UInt8 :=
  Array.ofFn fun i : Fin (row.size * size α) =>
    have h : i.val / size α < row.size :=
      Nat.div_lt_of_lt_mul (Nat.lt_of_lt_of_eq i.isLt (Nat.mul_comm _ _))
    byteAt row[i.val / size α] (i % size α)

-- The row of `count` values stored from byte `offset` on
def decodeRow (α : Type) [Element α] (count : Nat) (bytes : Array UInt8) (offset : Nat) :
    Array α :=
  Array.ofFn fun i : Fin count => ofBytes fun k => bytes.getD (offset + i * size α + k) 0

@[simp]
theorem size_encodeRow (row : Array α) : (encodeRow row).size = row.size * size α := by
  simp [encodeRow]

@[simp]
theorem size_decodeRow (count : Nat) (bytes : Array UInt8) (offset : Nat) :
    (decodeRow α count bytes offset).size = count := by
  simp [decodeRow]

theorem getElem?_encodeRow (row : Array α) (i k : Nat) (hi : i < row.size) (hk : k < size α) :
    (encodeRow row)[i * size α + k]? = some (byteAt row[i] k) := by
  rw [Array.getElem?_eq_getElem (by simpa using entry_lt hi hk)]
  simp only [encodeRow, Array.getElem_ofFn, entry_div hk, entry_mod hk]

theorem decodeRow_encodeRow [LawfulElement α] (row : Array α) :
    decodeRow α row.size (encodeRow row) 0 = row := by
  apply Array.ext
  · simp
  · intro i _ hi
    simp only [decodeRow, Array.getElem_ofFn]
    apply LawfulElement.ofBytes_of_forall_eq
    intro k hk
    rw [Nat.zero_add, Array.getD_eq_getD_getElem?, getElem?_encodeRow row i k hi hk,
      Option.getD_some]

end Element

end Resampling
