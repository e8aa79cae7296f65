import Resampling.Proofs.Picture
import Resampling.Proofs.Reliable

-- Sources that hold their image deliver it, and never fail to

namespace Resampling

namespace ImageSource

theorem paint_of_putRows_eq_ok {rows : List (Except Error (Array UInt8))} {stride length : Nat}
    {before after : Vector UInt8 length} (h : putRows rows stride before = .ok after) :
    ∃ parts : List (Array UInt8), rows = parts.map .ok ∧
      after.toArray = Span.paint stride parts before.toArray := by
  unfold putRows at h
  unfold Span.paint
  -- the rows are counted from any number on
  generalize 0 = first at h ⊢
  induction rows generalizing first before with
  | nil =>
    cases h
    exact ⟨[], rfl, rfl⟩
  | cons row rows ih =>
    rw [List.zipIdx_cons, List.foldlM_cons] at h
    obtain ⟨between, hwrite, h⟩ := bind_eq_ok_iff.mp h
    obtain ⟨part, hpart, hwrite⟩ := bind_eq_ok_iff.mp hwrite
    obtain ⟨_, -, hwrite⟩ := bind_eq_ok_iff.mp hwrite
    cases hwrite
    obtain ⟨parts, rfl, hafter⟩ := ih (first + 1) h
    refine ⟨part :: parts, by rw [hpart]; rfl, ?_⟩
    rw [List.zipIdx_cons, List.foldl_cons]
    exact hafter

theorem exists_putRows_eq_ok {rows : List (Except Error (Array UInt8))} {stride length : Nat}
    (before : Vector UInt8 length) (hrows : ∀ i (hi : i < rows.length), ∃ part,
      rows[i] = .ok part ∧ i * stride + part.size ≤ length ∧ i * stride + part.size < Word.limit) :
    ∃ after, putRows rows stride before = .ok after := by
  unfold putRows
  replace hrows : ∀ i (hi : i < rows.length), ∃ part, rows[i] = .ok part ∧
      (0 + i) * stride + part.size ≤ length ∧ (0 + i) * stride + part.size < Word.limit := by
    simpa only [Nat.zero_add] using hrows
  generalize 0 = first at hrows ⊢
  induction rows generalizing first before with
  | nil => exact ⟨before, rfl⟩
  | cons row rows ih =>
    obtain ⟨part, hpart, hplace⟩ := hrows 0 (Nat.zero_lt_succ _)
    rw [Nat.add_zero] at hplace
    have hpart : row = .ok part := hpart
    have hrest : ∀ i (hi : i < rows.length), ∃ part, rows[i] = .ok part ∧
        (first + 1 + i) * stride + part.size ≤ length ∧
        (first + 1 + i) * stride + part.size < Word.limit := by
      intro i hi
      have hrow := hrows (i + 1) (Nat.succ_lt_succ hi)
      rwa [← Nat.add_assoc, Nat.add_right_comm] at hrow
    obtain ⟨after, hafter⟩ :=
      ih ⟨Span.overwrite before.toArray (first * stride) part, by simp⟩ (first + 1) hrest
    refine ⟨after, ?_⟩
    rw [List.zipIdx_cons, List.foldlM_cons, hpart]
    exact bind_eq_ok_iff.mpr ⟨_, Span.write_eq_ok hplace, hafter⟩

end ImageSource

-- A copy that checks the request and puts rows in their places delivers the rectangle, if the
-- rows are the parts of an image that it has
theorem Picture.delivered_of_copy_eq_ok {picture : Picture} {rect : Rect} {stride length : Nat}
    {before after : Vector UInt8 length} {rows : List (Except Error (Array UInt8))}
    {row : Nat → Except Error (Array UInt8)} (hpacked : picture.Packed)
    (hrows : rect.y + rect.height ≤ picture.height →
      rows = (List.range' rect.y rect.height).map row)
    (hrow : rect.x + rect.width ≤ picture.width →
      ∀ y part, row y = .ok part → part = picture.rowPart rect y)
    (h : (do
      Request.admit ⟨rect, stride, length⟩ picture.width picture.height picture.pixelSize
      ImageSource.putRows rows stride before) = .ok after) :
    picture.Delivered rect stride before after := by
  obtain ⟨_, haccept, h⟩ := bind_eq_ok_iff.mp h
  obtain ⟨hright, hbottom⟩ := Request.le_of_admit_eq_ok haccept
  rw [hrows hbottom] at h
  obtain ⟨parts, hparts, hafter⟩ := ImageSource.paint_of_putRows_eq_ok h
  have hlength : parts.length = rect.height := by
    have hlengths := congrArg List.length hparts
    simpa using hlengths.symm
  refine delivered_of_paint hpacked hright hbottom
    (fun hempty => (Request.admit_eq_ok_iff hempty).mp haccept) hlength (fun i hi => ?_) hafter
  apply hrow hright
  have hentry := congrArg (·[i]?) hparts
  simpa [show i < rect.height by omega, hi] using hentry

namespace MemoryImage

variable {image : MemoryImage}

def picture (image : MemoryImage) : Picture where
  format := image.format
  width := image.width
  height := image.height
  row y := image.data.extract (y * image.stride)
    (y * image.stride + image.width * image.format.pixelSize)

-- The data of an image that was taken reach to the end of its last row
theorem placed_of_make_eq_ok {format : PixelFormat} {width height stride : Nat}
    {data : Array UInt8} (h : make format width height stride data = .ok image) :
    Request.Placed ⟨⟨0, 0, image.width, image.height⟩, image.stride, image.data.size⟩ image.width
      image.height image.format.pixelSize := by
  unfold make at h
  obtain ⟨hextent, h⟩ := guard_eq_ok_iff.mp h
  obtain ⟨_, haccept, h⟩ := bind_eq_ok_iff.mp h
  cases h
  exact (Request.admit_eq_ok_iff (by simpa [Rect.isEmpty] using hextent)).mp haccept

theorem packed_picture (h : Request.Placed
    ⟨⟨0, 0, image.width, image.height⟩, image.stride, image.data.size⟩ image.width image.height
      image.format.pixelSize) : image.picture.Packed := by
  intro y hy
  have hend := (h.row_end_le hy).1
  simp only at hend
  simp only [picture, Picture.pixelSize, Array.size_extract]
  omega

theorem rowPart_eq_ok {rect : Rect} {y : Nat} {part : Array UInt8}
    (hx : rect.x + rect.width ≤ image.width)
    (h : image.rowPart rect.x rect.width y = .ok part) : part = image.picture.rowPart rect y := by
  obtain ⟨-, rfl⟩ := Span.read_eq_ok_iff.mp h
  have hend := Nat.mul_le_mul_right image.format.pixelSize hx
  simp only [Picture.rowPart, picture, Picture.pixelSize, Array.extract_extract]
  rw [Nat.min_eq_left (by omega), Nat.add_mul, Nat.add_assoc]

-- An image in memory shows itself
theorem shows {format : PixelFormat} {width height stride : Nat} {data : Array UInt8}
    (hmake : make format width height stride data = .ok image) :
    Shows (· = image) image.picture where
  toSteady := .of_eq image
  packed := packed_picture (placed_of_make_eq_ok hmake)
  answer source h call := by
    subst h
    refine Outcome.satisfies_settle (fun after hcopy => ⟨rfl, ?_⟩) fun _ _ => rfl
    have hrow : call.rect.x + call.rect.width ≤ source.width → ∀ y part,
        source.rowPart call.rect.x call.rect.width y = .ok part →
          part = source.picture.rowPart call.rect y := fun hx _ _ hpart => rowPart_eq_ok hx hpart
    apply Picture.delivered_of_copy_eq_ok (packed_picture (placed_of_make_eq_ok hmake)) _ hrow hcopy
    intro _
    rw [List.range'_eq_map_range, List.map_map]
    rfl

theorem exists_rowPart_eq_ok (h : Request.Placed
    ⟨⟨0, 0, image.width, image.height⟩, image.stride, image.data.size⟩ image.width image.height
      image.format.pixelSize) {x width y : Nat} (hx : x + width ≤ image.width)
    (hy : y < image.height) :
    ∃ part, image.rowPart x width y = .ok part ∧ part.size = width * image.format.pixelSize := by
  obtain ⟨hend, hlimit⟩ := h.row_end_le hy
  have hright := Nat.mul_le_mul_right image.format.pixelSize hx
  rw [Nat.add_mul] at hright
  simp only at hend hlimit
  refine ⟨_, Span.read_eq_ok_iff.mpr ⟨⟨?_, ?_⟩, rfl⟩, ?_⟩
  · omega
  · omega
  · rw [Array.size_extract]
    omega

theorem exists_copyRect_eq_ok (h : Request.Placed
    ⟨⟨0, 0, image.width, image.height⟩, image.stride, image.data.size⟩ image.width image.height
      image.format.pixelSize) {rect : Rect} {stride length : Nat} (buffer : Vector UInt8 length)
    (hempty : rect.isEmpty = false) (haccept : Request.admit ⟨rect, stride, length⟩ image.width
      image.height image.format.pixelSize = .ok ()) :
    ∃ after, image.copyRect rect stride buffer = .ok after := by
  have hplaced := (Request.admit_eq_ok_iff hempty).mp haccept
  have hbottom : rect.y + rect.height ≤ image.height := hplaced.bottom_le
  have hrows : ∀ i (hi : i < ((List.range rect.height).map fun i =>
      image.rowPart rect.x rect.width (rect.y + i)).length), ∃ part,
      ((List.range rect.height).map fun i =>
        image.rowPart rect.x rect.width (rect.y + i))[i] = .ok part ∧
      i * stride + part.size ≤ length ∧ i * stride + part.size < Word.limit := by
    intro i hi
    rw [List.length_map, List.length_range] at hi
    obtain ⟨part, hpart, hsize⟩ := exists_rowPart_eq_ok h hplaced.right_le
      (Nat.lt_of_lt_of_le (Nat.add_lt_add_left hi rect.y) hbottom)
    have hend := hplaced.row_end_le hi
    rw [List.getElem_map, List.getElem_range]
    exact ⟨part, hpart, by rwa [hsize]⟩
  obtain ⟨after, hafter⟩ := ImageSource.exists_putRows_eq_ok buffer hrows
  exact ⟨after, bind_eq_ok_iff.mpr ⟨(), haccept, hafter⟩⟩

-- An image in memory meets every request for pixels that is admitted
theorem reliable {format : PixelFormat} {width height stride : Nat} {data : Array UInt8}
    (hmake : make format width height stride data = .ok image) :
    Reliable (· = image) image.format image.width image.height where
  toSteady := .of_eq image
  answer source h call := by
    subst h
    refine Outcome.satisfies_settle (fun _ _ => rfl)
      fun e hcopy => ⟨rfl, fun hempty haccept => ?_⟩
    obtain ⟨after, hafter⟩ :=
      exists_copyRect_eq_ok (placed_of_make_eq_ok hmake) call.buffer hempty haccept
    rw [hafter] at hcopy
    cases hcopy

end MemoryImage

namespace PixelView

variable {view : PixelView}

def picture (view : PixelView) : Picture where
  format := view.format
  width := view.width
  height := view.height
  row := view.row

theorem rowPart_eq_ok {rect : Rect} {y : Nat} {part : Array UInt8}
    (h : Span.read 1 (view.row y) (rect.x * view.format.pixelSize)
      (rect.width * view.format.pixelSize) = .ok part) : part = view.picture.rowPart rect y := by
  obtain ⟨-, rfl⟩ := Span.read_eq_ok_iff.mp h
  rw [← Nat.add_mul]
  rfl

-- The rows of a view that a rectangle has pixels of
theorem drop_take_rows {y count height : Nat} (h : y + count ≤ height) :
    ((List.range height).drop y).take count = List.range' y count := by
  rw [List.range_eq_range', List.drop_range',
    List.take_range'_of_length_ge (Nat.le_sub_of_add_le' h), Nat.mul_one, Nat.zero_add]

-- So does a view of pixels that are all there
theorem shows (hpacked : view.picture.Packed) : Shows (· = view) view.picture where
  toSteady := .of_eq view
  packed := hpacked
  answer source h call := by
    subst h
    refine Outcome.satisfies_settle (fun after hcopy => ⟨rfl, ?_⟩) fun _ _ => rfl
    apply Picture.delivered_of_copy_eq_ok hpacked _ (fun _ _ _ hpart => rowPart_eq_ok hpart) hcopy
    exact fun hbottom => congrArg (List.map _) (drop_take_rows hbottom)

end PixelView

end Resampling
