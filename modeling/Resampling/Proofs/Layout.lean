import Resampling.Pixel.Typed
import Resampling.Proofs.Admission

-- How an image lies in memory. Its rows may be any distance apart, with anything between them:
-- every request gets the same bytes of it.

namespace Resampling

namespace Picture

-- Data that have the rows of an image at every `stride` bytes. What lies between the rows does not
-- matter, and after the last row nothing needs to follow.
structure LaidOut (picture : Picture) (stride : Nat) (data : Array UInt8) : Prop where
  size_lt : data.size < Word.limit
  row_le : picture.width * picture.pixelSize ≤ stride
  row_eq : ∀ y < picture.height,
    data.extract (y * stride) (y * stride + picture.width * picture.pixelSize) = picture.row y

-- A copy of part of an image, whose rows are at hand
def serve (picture : Picture) (rect : Rect) (stride : Nat) {length : Nat}
    (buffer : Vector UInt8 length) : Except Error (Vector UInt8 length) := do
  Request.admit ⟨rect, stride, length⟩ picture.width picture.height picture.pixelSize
  ImageSource.putRows
    ((List.range' rect.y rect.height).map fun y => .ok (picture.rowPart rect y)) stride buffer

variable {picture : Picture} {rect : Rect} {stride length : Nat} {data : Array UInt8}

-- Any other copy is the same, if it gets the same parts of rows for a rectangle in the image
theorem serve_eq {buffer : Vector UInt8 length} {rows : List (Except Error (Array UInt8))}
    (hrows : rect.x + rect.width ≤ picture.width → rect.y + rect.height ≤ picture.height →
      rows = (List.range' rect.y rect.height).map fun y => .ok (picture.rowPart rect y)) :
    (do
      Request.admit ⟨rect, stride, length⟩ picture.width picture.height picture.pixelSize
      ImageSource.putRows rows stride buffer) = picture.serve rect stride buffer := by
  unfold serve
  cases haccept : Request.admit ⟨rect, stride, length⟩ picture.width picture.height
      picture.pixelSize with
  | error e => rfl
  | ok =>
    obtain ⟨hright, hbottom⟩ := Request.le_of_admit_eq_ok haccept
    rw [hrows hright hbottom]

-- The request alone decides whether it is met, if it asks for pixels
theorem exists_serve_eq_ok (hpacked : picture.Packed) (buffer : Vector UInt8 length)
    (hempty : rect.isEmpty = false) (haccept : Request.admit ⟨rect, stride, length⟩ picture.width
      picture.height picture.pixelSize = .ok ()) :
    ∃ after, picture.serve rect stride buffer = .ok after := by
  unfold serve
  rw [haccept]
  have hplaced := (Request.admit_eq_ok_iff hempty).mp haccept
  have hbottom : rect.y + rect.height ≤ picture.height := hplaced.bottom_le
  refine ImageSource.exists_putRows_eq_ok buffer fun i hi => ?_
  rw [List.length_map, List.length_range'] at hi
  refine ⟨picture.rowPart rect (rect.y + i), by simp, ?_⟩
  rw [size_rowPart hpacked hplaced.right_le (by omega)]
  exact hplaced.row_end_le hi

-- What is served is what is to be delivered
theorem delivered_of_serve_eq_ok (hpacked : picture.Packed) {before after : Vector UInt8 length}
    (h : picture.serve rect stride before = .ok after) :
    picture.Delivered rect stride before after := by
  refine delivered_of_copy_eq_ok hpacked (fun _ => rfl) (fun _ y part hpart => ?_) h
  exact (Except.ok.inj hpart).symm

namespace LaidOut

theorem row_le_size (h : picture.LaidOut stride data) (hpacked : picture.Packed) {y : Nat}
    (hy : y < picture.height) : picture.width * picture.pixelSize ≤ data.size := by
  have hrow := congrArg Array.size (h.row_eq y hy)
  rw [Array.size_extract, hpacked y hy] at hrow
  omega

theorem end_le (h : picture.LaidOut stride data) (hpacked : picture.Packed)
    (hsize : 0 < picture.width * picture.pixelSize) {y : Nat} (hy : y < picture.height) :
    y * stride + picture.width * picture.pixelSize ≤ data.size := by
  have hrow := congrArg Array.size (h.row_eq y hy)
  rw [Array.size_extract, hpacked y hy] at hrow
  omega

-- Part of a row is read where the row is
theorem read_eq (h : picture.LaidOut stride data) (hx : rect.x + rect.width ≤ picture.width)
    {y : Nat} (hy : y < picture.height)
    (hend : y * stride + picture.width * picture.pixelSize ≤ data.size) :
    Span.read 1 data (y * stride + rect.x * picture.pixelSize) (rect.width * picture.pixelSize) =
      .ok (picture.rowPart rect y) := by
  have hlimit := h.size_lt
  have hright := Nat.mul_le_mul_right picture.pixelSize hx
  rw [Nat.add_mul] at hright
  refine Span.read_eq_ok_iff.mpr ⟨⟨by omega, by omega⟩, ?_⟩
  rw [rowPart, ← h.row_eq y hy, Array.extract_extract, Nat.add_mul, Nat.min_eq_left (by omega),
    Nat.add_assoc]

-- So it is read from the row itself
theorem read_row_eq (h : picture.LaidOut stride data) (hpacked : picture.Packed)
    (hx : rect.x + rect.width ≤ picture.width) {y : Nat} (hy : y < picture.height) :
    Span.read 1 (picture.row y) (rect.x * picture.pixelSize) (rect.width * picture.pixelSize) =
      .ok (picture.rowPart rect y) := by
  have hlimit := h.size_lt
  have hsize := h.row_le_size hpacked hy
  have hright := Nat.mul_le_mul_right picture.pixelSize hx
  rw [Nat.add_mul] at hright
  refine Span.read_eq_ok_iff.mpr ⟨?_, by rw [rowPart, Nat.add_mul]⟩
  rw [hpacked y hy]
  omega

end LaidOut

end Picture

-- A source that answers every request from an image that is at hand, and stays as it is
structure ImageSource.Stores {σ : Type} [ImageSource σ] (source : σ) (picture : Picture) :
    Prop where
  format_eq : ImageSource.format source = picture.format
  width_eq : ImageSource.width source = picture.width
  height_eq : ImageSource.height source = picture.height
  answer_eq : ∀ call : Call, ImageSource.answer source call =
    .settle source call.buffer [] (picture.serve call.rect call.stride call.buffer)

namespace ImageSource.Stores

variable {σ τ : Type} [ImageSource σ] [ImageSource τ] {source : σ} {other : τ} {picture : Picture}

-- Sources of one image answer alike
theorem alike (h : Stores source picture) (hother : Stores other picture) :
    ImageSource.Alike fun (a : σ) (b : τ) => a = source ∧ b = other where
  width_eq := by
    rintro _ _ ⟨rfl, rfl⟩
    exact h.width_eq.trans hother.width_eq.symm
  height_eq := by
    rintro _ _ ⟨rfl, rfl⟩
    exact h.height_eq.trans hother.height_eq.symm
  format_eq := by
    rintro _ _ ⟨rfl, rfl⟩
    exact h.format_eq.trans hother.format_eq.symm
  answer := by
    rintro _ _ ⟨rfl, rfl⟩ call
    rw [h.answer_eq, hother.answer_eq]
    exact Outcome.alike_settle ⟨rfl, rfl⟩ _ _ _

-- The request alone decides, if it asks for pixels. One that is met delivers its rectangle, and
-- any other leaves the buffer as it was.
theorem answer_spec (h : Stores source picture) (hpacked : picture.Packed) {call : Call}
    (hempty : call.rect.isEmpty = false) :
    (ImageSource.answer source call).source = source ∧
      (ImageSource.answer source call).result =
        Request.admit call.request picture.width picture.height picture.pixelSize ∧
      ((ImageSource.answer source call).result = .ok () →
        picture.Delivered call.rect call.stride call.buffer
          (ImageSource.answer source call).state) ∧
      ((ImageSource.answer source call).result ≠ .ok () →
        (ImageSource.answer source call).state = call.buffer) := by
  rw [h.answer_eq]
  cases hserved : picture.serve call.rect call.stride call.buffer with
  | ok after =>
    refine ⟨rfl, ?_, fun _ => picture.delivered_of_serve_eq_ok hpacked hserved, fun hne => ?_⟩
    · obtain ⟨_, haccept, -⟩ := bind_eq_ok_iff.mp hserved
      exact haccept.symm
    · exact absurd rfl hne
  | error e =>
    refine ⟨rfl, ?_, fun hok => (nomatch hok), fun _ => rfl⟩
    cases haccept : Request.admit call.request picture.width picture.height picture.pixelSize with
    | ok =>
      obtain ⟨after, hafter⟩ := picture.exists_serve_eq_ok hpacked call.buffer hempty haccept
      rw [hafter] at hserved
      cases hserved
    | error refusal =>
      have hrefused : picture.serve call.rect call.stride call.buffer = .error refusal := by
        unfold Picture.serve
        rw [show Request.admit ⟨call.rect, call.stride, call.length⟩ _ _ _ = _ from haccept]
        rfl
      cases hserved.symm.trans hrefused
      rfl

end ImageSource.Stores

namespace Picture.LaidOut

variable {picture : Picture} {stride : Nat} {data : Array UInt8}

theorem placed (h : picture.LaidOut stride data) (hpacked : picture.Packed)
    (hsize : 0 < picture.width * picture.pixelSize) (hheight : 0 < picture.height) :
    Request.Placed ⟨⟨0, 0, picture.width, picture.height⟩, stride, data.size⟩ picture.width
      picture.height picture.pixelSize := by
  have hend := h.end_le hpacked hsize (Nat.sub_one_lt_of_lt hheight)
  have hlimit := h.size_lt
  have hrow := h.row_le
  have hwidth : picture.width ≤ picture.width * picture.pixelSize :=
    Nat.le_mul_of_pos_right _ (Nat.pos_of_mul_pos_left hsize)
  have hrows : picture.height - 1 ≤ (picture.height - 1) * stride :=
    Nat.le_mul_of_pos_right _ (Nat.lt_of_lt_of_le hsize hrow)
  constructor <;> simp only <;> omega

theorem exists_make_eq_ok (h : picture.LaidOut stride data) (hpacked : picture.Packed)
    (hsize : 0 < picture.width * picture.pixelSize) (hheight : 0 < picture.height) :
    ∃ image, MemoryImage.make picture.format picture.width picture.height stride data =
      .ok image := by
  have hwidth : 0 < picture.width := Nat.pos_of_mul_pos_right hsize
  have hextent : ¬(picture.width == 0 || picture.height == 0) = true := by
    simp only [Bool.or_eq_true, beq_iff_eq]
    omega
  have haccept := (Request.admit_eq_ok_iff (by simpa [Rect.isEmpty] using hextent)).mpr
    (h.placed hpacked hsize hheight)
  unfold MemoryImage.make
  exact ⟨_, guard_eq_ok_iff.mpr ⟨hextent, bind_eq_ok_iff.mpr ⟨(), haccept, rfl⟩⟩⟩

-- An image in memory may have its rows any distance apart
theorem stores_of_make_eq_ok (h : picture.LaidOut stride data) {image : MemoryImage}
    (hmake : MemoryImage.make picture.format picture.width picture.height stride data =
      .ok image) : ImageSource.Stores image picture := by
  have hplaced := MemoryImage.placed_of_make_eq_ok hmake
  obtain rfl := MemoryImage.eq_of_make_eq_ok hmake
  refine ⟨rfl, rfl, rfl, fun call =>
    congrArg (Outcome.settle _ call.buffer []) (serve_eq fun hx hy => ?_)⟩
  rw [List.range'_eq_map_range, List.map_map]
  refine List.map_congr_left fun i hi => ?_
  have hin : call.rect.y + i < picture.height :=
    Nat.lt_of_lt_of_le (Nat.add_lt_add_left (List.mem_range.mp hi) _) hy
  exact h.read_eq hx hin (hplaced.row_end_le hin).1

-- So may pixels of a larger array
theorem stores_view {type : PixelType} {pixels : Array type.Pixel} {pitch : Nat}
    (hformat : picture.format = type.format)
    (h : picture.LaidOut (pitch * picture.pixelSize) (Element.encodeRow pixels))
    (hpacked : picture.Packed) :
    ImageSource.Stores (PixelView.ofPixels type pixels picture.width picture.height pitch)
      picture := by
  obtain ⟨format, width, height, row⟩ := picture
  obtain rfl : format = type.format := hformat
  refine ⟨rfl, rfl, rfl, fun call => congrArg (Outcome.settle _ call.buffer [])
    (@serve_eq ⟨type.format, width, height, row⟩ _ _ _ call.buffer _ fun hx hy => ?_)⟩
  refine (congrArg (List.map _) (PixelView.drop_take_rows hy)).trans
    (List.map_congr_left fun y hlisted => ?_)
  have hin : y < height := by
    rw [List.mem_range'_1] at hlisted
    simp only at hy
    omega
  have hrow : (PixelView.ofPixels type pixels width height pitch).row y = row y := by
    refine Eq.trans ?_ (h.row_eq y hin)
    rw [PixelView.row, Nat.mul_assoc]
    rfl
  rw [hrow]
  exact h.read_row_eq hpacked hx hin

end Picture.LaidOut

end Resampling
