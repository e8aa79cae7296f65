import Resampling.Proofs.Journal
import Resampling.Proofs.Twins

-- Pixels that are put into memory and read again. What does not fit the words never comes to
-- count, as the pixels are in memory already and no allocation is larger.

namespace Resampling

theorem of_map_eq_ok {ε α β : Type} {x : Except ε α} {f : α → β} {b : β} (h : x.map f = .ok b) :
    ∃ a, x = .ok a ∧ f a = b := by
  cases x with
  | error e => cases h
  | ok a => exact ⟨a, rfl, Except.ok.inj h⟩

theorem PixelType.size_pixel (type : PixelType) :
    Element.size type.Pixel = type.format.pixelSize := Nat.mul_one _

namespace MemoryImage

variable {format : PixelFormat} {width height pixelSize length : Nat} {data : Array UInt8}
  {image : MemoryImage}

theorem packed_end_eq (hheight : 0 < height) :
    (height - 1) * (width * pixelSize) + width * pixelSize = width * height * pixelSize := by
  rw [← Nat.succ_mul, Nat.succ_eq_add_one, Nat.sub_add_cancel hheight, Nat.mul_left_comm,
    ← Nat.mul_assoc]

-- Packed rows, one after the other from the start
theorem placed_packed (hwidth : 0 < width) (hheight : 0 < height) (hpixel : 0 < pixelSize)
    (hlength : width * height * pixelSize ≤ length) (hlimit : length < Word.limit) :
    Request.Placed ⟨⟨0, 0, width, height⟩, width * pixelSize, length⟩ width height pixelSize := by
  have hcount : width * height ≤ width * height * pixelSize := Nat.le_mul_of_pos_right _ hpixel
  have hright : width ≤ width * height := Nat.le_mul_of_pos_right _ hheight
  have hbottom : height ≤ width * height := Nat.le_mul_of_pos_left _ hwidth
  have hend : (height - 1) * (width * pixelSize) + width * pixelSize =
      width * height * pixelSize := packed_end_eq hheight
  constructor
  all_goals
    simp only
    omega

theorem ofPacked_eq_error (h : Word.limit ≤ width * format.pixelSize) :
    ofPacked format width height data = .error .narrowStride := by
  unfold ofPacked Word.mul?
  simp only [if_neg (Nat.not_lt.mpr h)]
  rfl

theorem exists_ofPacked_iff (hwidth : 0 < width) (hheight : 0 < height)
    (hpixel : 0 < format.pixelSize) (hlimit : data.size < Word.limit) :
    (∃ image, ofPacked format width height data = .ok image) ↔
      width * height * format.pixelSize ≤ data.size := by
  constructor
  · rintro ⟨image, h⟩
    have hmake := make_of_ofPacked_eq_ok h
    cases eq_of_make_eq_ok hmake
    have hend := (placed_of_make_eq_ok hmake).end_le
    simp only at hend
    rwa [packed_end_eq hheight] at hend
  · intro hle
    have hplaced := placed_packed hwidth hheight hpixel hle hlimit
    have hword : width * format.pixelSize < Word.limit :=
      Nat.lt_of_le_of_lt (Nat.le_add_left ..) hplaced.end_lt
    have hextent : ¬(width == 0 || height == 0) = true := by
      simp only [Bool.or_eq_true, beq_iff_eq]
      omega
    have haccept := (Request.admit_eq_ok_iff (by simpa [Rect.isEmpty] using hextent)).mpr hplaced
    refine ⟨⟨format, width, height, width * format.pixelSize, data⟩, ?_⟩
    rw [ofPacked_eq hword, make]
    exact guard_eq_ok_iff.mpr ⟨hextent, bind_eq_ok_iff.mpr ⟨(), haccept, rfl⟩⟩

-- All of a packed image is the data from the start
theorem answer_wholeCall (hwidth : 0 < width) (hheight : 0 < height)
    (hpixel : 0 < format.pixelSize) (hlimit : data.size < Word.limit)
    (h : ofPacked format width height data = .ok image) :
    let answer := ImageSource.answer image (ImageSource.wholeCall image)
    answer.source = image ∧ answer.result = .ok () ∧ answer.events = [] ∧
      answer.state.toArray = data.extract 0 (width * height * format.pixelSize) := by
  have hsize := (exists_ofPacked_iff hwidth hheight hpixel hlimit).mp ⟨image, h⟩
  have hmake := make_of_ofPacked_eq_ok h
  obtain rfl := eq_of_make_eq_ok hmake
  have hempty : (Rect.isEmpty ⟨0, 0, width, height⟩) = false := by
    simp only [Rect.isEmpty, Bool.or_eq_false_iff, beq_eq_false_iff_ne]
    omega
  intro answer
  have haccept : Request.admit (ImageSource.wholeCall (⟨format, width, height,
      width * format.pixelSize, data⟩ : MemoryImage)).request width height format.pixelSize =
        .ok () :=
    (Request.admit_eq_ok_iff hempty).mpr (placed_packed hwidth hheight hpixel (Nat.le_refl _)
      (Nat.lt_of_le_of_lt hsize hlimit))
  have hok : answer.result = .ok () := (reliable hmake).result_eq_ok rfl hempty haccept
  obtain ⟨hsource, hdelivered⟩ := ((shows hmake).answer _ rfl (ImageSource.wholeCall _)).of_ok hok
  refine ⟨hsource, hok, ?_, ?_⟩
  · show (Outcome.settle _ _ [] _).events = []
    unfold Outcome.settle
    split <;> rfl
  · have hblocks : width * height * format.pixelSize = height * (width * format.pixelSize) := by
      rw [Nat.mul_comm width, Nat.mul_assoc]
    apply Span.eq_of_blocks (show _ = height * (width * format.pixelSize) from ?_) ?_ ?_
    · rw [Vector.size_toArray]
      exact hblocks
    · rw [Array.size_extract]
      omega
    · intro y hy k hk
      obtain ⟨byte, hrow, hafter⟩ := hdelivered.inside y hy k hk
      replace hrow : (data.extract ((0 + y) * (width * format.pixelSize))
          ((0 + y) * (width * format.pixelSize) + width * format.pixelSize))[
            0 * format.pixelSize + k]? = some byte := hrow
      have hentry := Element.entry_lt hy hk
      rw [Nat.zero_add, Nat.zero_mul, Nat.zero_add, Array.getElem?_extract] at hrow
      split at hrow
      · rw [Vector.getElem?_toArray, Array.getElem?_extract, if_pos (by omega), Nat.zero_add]
        exact hafter.trans hrow.symm
      · cases hrow

end MemoryImage

namespace ImageSource

variable {σ : Type} [ImageSource σ] {source : σ} {type : PixelType}

-- Pixels of the format of the source are collected by one request for all of it
theorem collectPixels_eq (hformat : format source = type.format)
    (hfits : (wholeCall source).length ≤ Word.maxAllocation) :
    let answer := answer source (wholeCall source)
    collectPixels type source =
      { source := answer.source
        result := answer.result.map fun _ =>
          Element.decodeRow type.Pixel (width source * height source) answer.state.toArray 0
        events := answer.events } := by
  have hcall : wholeCall source = ⟨whole source, width source * type.format.pixelSize,
      width source * height source * type.format.pixelSize, Vector.replicate _ 0⟩ := by
    rw [wholeCall, hformat]
  unfold collectPixels
  rw [pixelCount_eq hformat, if_pos hfits, hcall]
  rfl

-- Of another format nothing is asked
theorem collectPixels_of_ne (h : format source ≠ type.format) :
    collectPixels type source =
      ⟨source, .error (.unsupportedFormat (format source)), []⟩ := by
  unfold collectPixels pixelCount
  rw [if_pos h]
  rfl

theorem of_collectPixels_eq_ok {pixels : Array type.Pixel} (hformat : format source = type.format)
    (h : (collectPixels type source).result = .ok pixels) :
    (answer source (wholeCall source)).result = .ok () ∧
      Element.encodeRow pixels = (answer source (wholeCall source)).state.toArray := by
  rw [result_collectPixels hformat] at h
  split at h
  · obtain ⟨_, hok, rfl⟩ := of_map_eq_ok h
    refine ⟨hok, Element.encodeRow_decodeRow ?_⟩
    rw [Vector.size_toArray, type.size_pixel, ← hformat]
    rfl
  · cases h

theorem of_packedSize_eq_ok {stride length : Nat} (h : packedSize source = .ok (stride, length)) :
    stride = (wholeCall source).stride ∧ length = (wholeCall source).length := by
  unfold packedSize Word.mul? at h
  by_cases hrow : width source * (format source).pixelSize < Word.limit
  · by_cases hall : width source * (format source).pixelSize * height source < Word.limit
    · simp only [if_pos hrow, if_pos hall] at h
      obtain ⟨-, h⟩ := guard_eq_ok_iff.mp h
      cases h
      exact ⟨rfl, Nat.mul_right_comm ..⟩
    · simp only [if_pos hrow, if_neg hall] at h
      cases h
  · simp only [if_neg hrow] at h
    cases h

theorem of_collectBytes_eq_ok {bytes : Array UInt8} (h : (collectBytes source).result = .ok bytes) :
    bytes = (answer source (wholeCall source)).state.toArray := by
  unfold collectBytes at h
  cases hsize : packedSize source with
  | error e =>
    rw [hsize] at h
    cases h
  | ok sizes =>
    obtain ⟨stride, length⟩ := sizes
    obtain ⟨rfl, rfl⟩ := of_packedSize_eq_ok hsize
    rw [hsize] at h
    replace h : (answer source (wholeCall source)).result.map (fun _ =>
      (answer source (wholeCall source)).state.toArray) = .ok bytes := h
    obtain ⟨-, -, rfl⟩ := of_map_eq_ok h
    rfl

-- Whatever the state of a source, its pixels and its bytes are the same
theorem encodeRow_eq_of_eq_ok {pixels : Array type.Pixel} {bytes : Array UInt8}
    (hformat : format source = type.format)
    (hpixels : (collectPixels type source).result = .ok pixels)
    (hbytes : (collectBytes source).result = .ok bytes) : Element.encodeRow pixels = bytes :=
  (of_collectPixels_eq_ok hformat hpixels).2.trans (of_collectBytes_eq_ok hbytes).symm

end ImageSource

-- Packed data read back as pixels of their format, from the start
theorem MemoryImage.collectPixels_ofPacked {format : PixelFormat} {width height : Nat}
    {data : Array UInt8} {image : MemoryImage} (hwidth : 0 < width) (hheight : 0 < height)
    (hmemory : data.size ≤ Word.maxAllocation) {type : PixelType} (hformat : type.format = format)
    (h : ofPacked format width height data = .ok image) :
    ∃ read : Array type.Pixel, ImageSource.collectPixels type image = ⟨image, .ok read, []⟩ ∧
      read.size = width * height ∧
      Element.encodeRow read = data.extract 0 (width * height * format.pixelSize) := by
  subst hformat
  have hpixel := type.pixelSize_pos
  have hlimit : data.size < Word.limit := Nat.lt_of_le_of_lt hmemory (by decide)
  have hsize := (exists_ofPacked_iff hwidth hheight hpixel hlimit).mp ⟨image, h⟩
  obtain ⟨hsource, hok, hevents, hstate⟩ := answer_wholeCall hwidth hheight hpixel hlimit h
  obtain rfl := eq_of_make_eq_ok (make_of_ofPacked_eq_ok h)
  refine ⟨Element.decodeRow type.Pixel (width * height)
    (data.extract 0 (width * height * type.format.pixelSize)) 0, ?_, Element.size_decodeRow .., ?_⟩
  · rw [ImageSource.collectPixels_eq rfl (Nat.le_trans hsize hmemory)]
    simp only [hsource, hok, hevents, hstate]
    rfl
  · apply Element.encodeRow_decodeRow
    rw [Array.size_extract, Nat.min_eq_left hsize, Nat.sub_zero, type.size_pixel]

-- Pixels in memory make an image exactly if there are enough of them. It reads back as the first of
-- them, in any type of the same format; in any other it does not read, and nothing is asked of it.
-- From any source, pixels and bytes are the same.
theorem PixelType.round_trip (type : PixelType) (pixels : Array type.Pixel) {width height : Nat}
    (hwidth : 0 < width) (hheight : 0 < height)
    (hmemory : pixels.size * type.format.pixelSize ≤ Word.maxAllocation) :
    ((∃ image, MemoryImage.ofPixels type pixels width height = .ok image) ↔
      width * height ≤ pixels.size) ∧
    (Word.limit ≤ width * type.format.pixelSize →
      MemoryImage.ofPixels type pixels width height = .error .narrowStride) ∧
    (∀ image, MemoryImage.ofPixels type pixels width height = .ok image →
      ∀ other : PixelType,
        (other.format = type.format → ∃ read : Array other.Pixel,
          ImageSource.collectPixels other image = ⟨image, .ok read, []⟩ ∧
            read.size = width * height ∧
            Element.encodeRow read = Element.encodeRow (pixels.extract 0 (width * height))) ∧
        (other.format ≠ type.format →
          ImageSource.collectPixels other image =
              ⟨image, .error (.unsupportedFormat type.format), []⟩ ∧
            ImageSource.collectPixels other (Journal.around image) =
              ⟨Journal.around image, .error (.unsupportedFormat type.format), []⟩)) ∧
    ∀ (σ : Type) [ImageSource σ] (source : σ) (other : PixelType) (read : Array other.Pixel)
      (bytes : Array UInt8), ImageSource.format source = other.format →
        (ImageSource.collectPixels other source).result = .ok read →
          (ImageSource.collectBytes source).result = .ok bytes →
            Element.encodeRow read = bytes := by
  have hpixel := type.pixelSize_pos
  have hsize : (Element.encodeRow pixels).size = pixels.size * type.format.pixelSize := by
    rw [Element.size_encodeRow, type.size_pixel]
  rw [← hsize] at hmemory
  have hexists := MemoryImage.exists_ofPacked_iff hwidth hheight hpixel
    (Nat.lt_of_le_of_lt hmemory (by decide))
  rw [hsize] at hexists
  refine ⟨hexists.trans (Nat.mul_le_mul_right_iff hpixel), MemoryImage.ofPacked_eq_error,
    fun image himage other => ⟨fun hsame => ?_, fun hother => ?_⟩, ?_⟩
  · obtain ⟨read, hread, hcount, hbytes⟩ :=
      MemoryImage.collectPixels_ofPacked hwidth hheight hmemory hsame himage
    have hfirst := Element.encodeRow_extract pixels 0 (width * height)
    rw [Nat.zero_add, Nat.zero_mul, type.size_pixel] at hfirst
    exact ⟨read, hread, hcount, hbytes.trans hfirst.symm⟩
  · obtain rfl := MemoryImage.eq_of_make_eq_ok (MemoryImage.make_of_ofPacked_eq_ok himage)
    exact ⟨ImageSource.collectPixels_of_ne hother.symm,
      ImageSource.collectPixels_of_ne hother.symm⟩
  · intro σ _ source other read bytes hformat hread hbytes
    exact ImageSource.encodeRow_eq_of_eq_ok hformat hread hbytes

-- Five pixels for an image of four: they read back as bytes and in the other order of colors, and
-- not as gray
theorem PixelType.round_trip_surplus :
    let type : PixelType := ⟨.rgb, .byte⟩
    let pixels : Array type.Pixel :=
      #[#v[1, 2, 3], #v[4, 5, 6], #v[7, 8, 9], #v[10, 11, 12], #v[13, 14, 15]]
    ∃ image, MemoryImage.ofPixels type pixels 2 2 = .ok image ∧
      (ImageSource.collectBytes image).result =
        .ok #[1, 2, 3, 4, 5, 6, 7, 8, 9, 10, 11, 12] ∧
      (∃ read : Array (PixelType.Pixel ⟨.bgr, .byte⟩),
        ImageSource.collectPixels ⟨.bgr, .byte⟩ image = ⟨image, .ok read, []⟩ ∧
          Element.encodeRow read = #[1, 2, 3, 4, 5, 6, 7, 8, 9, 10, 11, 12]) ∧
      ImageSource.collectPixels ⟨.gray, .byte⟩ (Journal.around image) =
        ⟨Journal.around image, .error (.unsupportedFormat .bgr24), []⟩ ∧
      ¬∃ image, MemoryImage.ofPixels type pixels 2 3 = .ok image := by
  intro type pixels
  have hmemory : pixels.size * type.format.pixelSize ≤ Word.maxAllocation := by decide
  obtain ⟨hexists, -, hreads, hsame⟩ :=
    type.round_trip pixels (show 0 < 2 by decide) (show 0 < 2 by decide) hmemory
  obtain ⟨hnone, -⟩ := type.round_trip pixels (show 0 < 2 by decide) (show 0 < 3 by decide) hmemory
  obtain ⟨image, himage⟩ := hexists.mpr (by decide)
  obtain ⟨read, hread, -⟩ := (hreads image himage ⟨.bgr, .byte⟩).1 rfl
  obtain ⟨-, hjournal⟩ := (hreads image himage ⟨.gray, .byte⟩).2 (by decide)
  obtain rfl := MemoryImage.eq_of_make_eq_ok (MemoryImage.make_of_ofPacked_eq_ok himage)
  have hcollected : (ImageSource.collectBytes (⟨.bgr24, 2, 2, 2 * 3,
      Element.encodeRow pixels⟩ : MemoryImage)).result =
        .ok #[1, 2, 3, 4, 5, 6, 7, 8, 9, 10, 11, 12] := by decide +kernel
  have hbytes := hsame _ _ ⟨.bgr, .byte⟩ read _ rfl (congrArg Reading.result hread) hcollected
  exact ⟨_, himage, hcollected, ⟨read, hread, hbytes⟩, hjournal,
    fun h => absurd (hnone.mp h) (by decide)⟩

end Resampling
