import Resampling.Proofs.Request
import Resampling.Proofs.Run
import Resampling.Proofs.Span
import Resampling.Source.Memory
import Resampling.Source.View

-- Images as such: what a source is to deliver, whoever delivers it and however often

namespace Resampling

structure Picture where
  format : PixelFormat
  width : Nat
  height : Nat
  row : Nat → Array UInt8

namespace Picture

def pixelSize (picture : Picture) : Nat := picture.format.pixelSize

-- Every row is as long as the image is wide
def Packed (picture : Picture) : Prop :=
  ∀ y < picture.height, (picture.row y).size = picture.width * picture.pixelSize

-- The rows of a rectangle of the image are in the buffer, `stride` bytes apart, and every other
-- byte is as it was
structure Delivered (picture : Picture) (rect : Rect) (stride : Nat) {length : Nat}
    (before after : Vector UInt8 length) : Prop where
  inside : ∀ i < rect.height, ∀ k < rect.width * picture.pixelSize, ∃ byte,
    (picture.row (rect.y + i))[rect.x * picture.pixelSize + k]? = some byte ∧
      after[i * stride + k]? = some byte
  outside : ∀ p, (∀ i < rect.height,
      p < i * stride ∨ i * stride + rect.width * picture.pixelSize ≤ p) → after[p]? = before[p]?

def rowPart (picture : Picture) (rect : Rect) (y : Nat) : Array UInt8 :=
  (picture.row y).extract (rect.x * picture.pixelSize) ((rect.x + rect.width) * picture.pixelSize)

variable {picture : Picture} {rect : Rect} {stride length : Nat}
  {before after : Vector UInt8 length}

theorem size_rowPart (hpacked : picture.Packed) (hx : rect.x + rect.width ≤ picture.width) {y : Nat}
    (hy : y < picture.height) : (picture.rowPart rect y).size = rect.width * picture.pixelSize := by
  have hend := Nat.mul_le_mul_right picture.pixelSize hx
  rw [rowPart, Array.size_extract, hpacked y hy, Nat.min_eq_left hend, Nat.add_mul,
    Nat.add_sub_cancel_left]

theorem delivered_of_isEmpty (hempty : rect.isEmpty = true) (h : after = before) :
    picture.Delivered rect stride before after where
  inside i hi k hk := by
    simp only [Rect.isEmpty, Bool.or_eq_true, beq_iff_eq] at hempty
    rcases hempty with hwidth | hheight
    · rw [hwidth, Nat.zero_mul] at hk
      omega
    · omega
  outside p _ := by rw [h]

-- Painting the rows of a rectangle one below the other delivers it. Only rows that have pixels
-- need places.
theorem delivered_of_paint (hpacked : picture.Packed)
    (hright : rect.x + rect.width ≤ picture.width)
    (hbottom : rect.y + rect.height ≤ picture.height)
    (hplaced : rect.isEmpty = false → Request.Placed ⟨rect, stride, length⟩ picture.width
      picture.height picture.pixelSize)
    {parts : List (Array UInt8)} (hlength : parts.length = rect.height)
    (hparts : ∀ i (hi : i < parts.length), parts[i] = picture.rowPart rect (rect.y + i))
    (hafter : after.toArray = Span.paint stride parts before.toArray) :
    picture.Delivered rect stride before after := by
  have hsize : ∀ i (hi : i < parts.length), parts[i].size = rect.width * picture.pixelSize := by
    intro i hi
    rw [hparts i hi]
    exact size_rowPart hpacked hright (by omega)
  constructor
  · intro i hi k hk
    have hwidth : 0 < rect.width := Nat.pos_of_mul_pos_right (Nat.zero_lt_of_lt hk)
    have hplaced := hplaced (by
      simp only [Rect.isEmpty, Bool.or_eq_false_iff, beq_eq_false_iff_ne]
      omega)
    have hend : ∀ i < rect.height, i * stride + rect.width * picture.pixelSize ≤ length :=
      fun i hi => (hplaced.row_end_le hi).1
    have hi : i < parts.length := by omega
    have hkSize : k < parts[i].size := by rwa [hsize i hi]
    have hpainted := Span.getElem?_paint stride parts before.toArray i k hi hkSize
      (fun row hrow => by
        obtain ⟨j, hj, rfl⟩ := List.mem_iff_getElem.mp hrow
        rw [hsize j hj]
        exact hplaced.row_le)
      (fun j hj => by
        rw [hsize j hj, Vector.size_toArray]
        exact hend j (by omega))
    refine ⟨parts[i][k], ?_, ?_⟩
    · have hpart : (picture.rowPart rect (rect.y + i))[k]? = some parts[i][k] :=
        (congrArg (·[k]?) (hparts i hi)).symm.trans (Array.getElem?_eq_getElem hkSize)
      rw [rowPart, Array.getElem?_extract] at hpart
      split at hpart
      · exact hpart
      · cases hpart
    · rw [← Vector.getElem?_toArray, hafter, hpainted]
  · intro p hp
    rw [← Vector.getElem?_toArray, ← Vector.getElem?_toArray, hafter]
    apply Span.getElem?_paint_of_outside
    intro i hi
    rw [hsize i hi]
    exact hp i (by omega)

-- A full row delivered to a packed buffer is the buffer
theorem Delivered.toArray_eq {y : Nat} (hpacked : picture.Packed) (hy : y < picture.height)
    (hlength : length = picture.width * picture.pixelSize)
    (h : picture.Delivered ⟨0, y, picture.width, 1⟩ stride before after) :
    after.toArray = picture.row y := by
  apply Array.ext_getElem?
  intro k
  by_cases hk : k < length
  · obtain ⟨byte, hrow, hafter⟩ := h.inside 0 Nat.one_pos k (by rwa [← hlength])
    simp only [Nat.zero_mul, Nat.zero_add, Nat.add_zero] at hrow hafter
    rw [Vector.getElem?_toArray, hafter, hrow]
  · rw [Array.getElem?_eq_none (by rw [Vector.size_toArray]; omega),
      Array.getElem?_eq_none (by rw [hpacked y hy, ← hlength]; omega)]

end Picture

-- A source that delivers one image, however often it is asked: `I` tells the states it can come
-- to. It may fail at any request.
structure Shows {σ : Type} [ImageSource σ] (I : σ → Prop) (picture : Picture) : Prop
    extends Steady I picture.format picture.width picture.height where
  packed : picture.Packed
  answer : ∀ source, I source → ∀ call, (ImageSource.answer source call).Satisfies
    (fun after bytes => I after ∧ picture.Delivered call.rect call.stride call.buffer bytes)
    fun _ after _ => I after

namespace Shows

variable {σ : Type} [ImageSource σ] {I : σ → Prop} {picture : Picture}

theorem preserved (h : Shows I picture) {source : σ} (hsource : I source) (calls : List Call) :
    I (ImageSource.after source calls) := by
  apply ImageSource.after_preserves _ hsource
  intro source hsource call
  have hanswer := h.answer source hsource call
  cases hresult : (ImageSource.answer source call).result with
  | error e => exact hanswer.of_error hresult
  | ok => exact (hanswer.of_ok hresult).1

-- A probe around the source fails more often and delivers the same
theorem probe (h : Shows I picture) : Shows (fun probe : Probe σ => I probe.inner) picture where
  toSteady := h.toSteady.probe
  packed := h.packed
  answer probe hprobe call := by
    by_cases hfails : call.rect.y ∈ probe.schedule
    · rw [Probe.answer_of_mem hfails]
      exact Outcome.satisfies_of_error rfl hprobe
    · rw [Probe.answer_of_not_mem hfails]
      have hanswer := h.answer probe.inner hprobe call
      cases hresult : (ImageSource.answer probe.inner call).result with
      | error e => exact Outcome.satisfies_of_error hresult (hanswer.of_error hresult)
      | ok => exact Outcome.satisfies_of_ok hresult (hanswer.of_ok hresult)

end Shows

end Resampling
