import Resampling.Proofs.Layout
import Resampling.Proofs.Unchanged
import Resampling.Proofs.Unseen

-- Twins: stages that were set up in the same way over sources that answer alike, whatever pools
-- their buffers are from. They answer alike, and what is collected from them is the same.

namespace Resampling

-- The same error, or successes that are related
inductive Except.Related {α β : Type} (R : α → β → Prop) : Except Error α → Except Error β → Prop
  | error (e : Error) : Related R (.error e) (.error e)
  | ok {a : α} {b : β} (h : R a b) : Related R (.ok a) (.ok b)

theorem Except.Related.bind {α β α' β' : Type} {R : α → β → Prop} {S : α' → β' → Prop}
    {result : Except Error α} {other : Except Error β} (h : Except.Related R result other)
    {next : α → Except Error α'} {next' : β → Except Error β'}
    (hnext : ∀ a b, result = .ok a → other = .ok b → R a b →
      Except.Related S (next a) (next' b)) :
    Except.Related S (result >>= next) (other >>= next') := by
  cases h with
  | error e => exact .error e
  | ok h => exact hnext _ _ rfl rfl h

variable {σ τ : Type} {R : σ → τ → Prop}

namespace Resampler

-- Stages that differ in nothing but their buffers and in sources that are related
def Twins (R : σ → τ → Prop) (stage : Resampler σ) (other : Resampler τ) : Prop :=
  Alike R stage.unbacked other.unbacked

variable [ImageSource σ] [ImageSource τ]

theorem alike_twins (halike : ImageSource.Alike R) : ImageSource.Alike (Twins R) where
  width_eq stage other h := (alike halike).width_eq stage.unbacked other.unbacked h
  height_eq stage other h := (alike halike).height_eq stage.unbacked other.unbacked h
  format_eq stage other h := (alike halike).format_eq stage.unbacked other.unbacked h
  answer stage other h call := by
    have hanswer := (alike halike).answer stage.unbacked other.unbacked h call
    rw [answer_unbacked, answer_unbacked] at hanswer
    exact ⟨hanswer.source, hanswer.state_eq, hanswer.result_eq, hanswer.events_eq⟩

theorem twins_install {source : σ} {other : τ} (h : R source other) {format : PixelFormat}
    {made made' : Except Error (Engine format) × Depot}
    (hmade : made.1.map Engine.unbacked = made'.1.map Engine.unbacked) :
    Except.Related (Twins R) (install source made).result (install other made').result := by
  obtain ⟨result, depot⟩ := made
  obtain ⟨result', depot'⟩ := made'
  rcases of_map_eq_map hmade with ⟨e, rfl, rfl⟩ | ⟨engine, engine', rfl, rfl, hsame⟩
  · exact .error e
  · have hunbacked : ∀ engine : Engine format,
        (engine.stage source engine.window).unbacked =
          engine.unbacked.stage source engine.unbacked.window := fun _ => rfl
    have htwins : Alike R (engine.stage source engine.window).unbacked
        (engine'.unbacked.stage other engine'.unbacked.window) := by
      rw [hunbacked, hsame]
      exact ⟨h, rfl⟩
    exact .ok htwins

end Resampler

namespace Design

variable [ImageSource σ] [ImageSource τ] {source : σ} {other : τ} {depot away : Depot}
  {design : Design} {home : Nat} {stage : Resampler σ}

-- Setting up a stage looks at no more of the source than what related sources have in common
theorem twins_setUp (halike : ImageSource.Alike R) (h : R source other) (hdepot : depot.Sound)
    (haway : away.Sound) (design : Design) (home place : Nat) :
    Except.Related (Resampler.Twins R) (design.setUp source home depot).result
      (design.setUp other place away).result := by
  rw [setUp_eq, setUp_eq, halike.format_eq source other h, halike.width_eq source other h,
    halike.height_eq source other h]
  exact Resampler.twins_install h (design.map_unbacked_equip hdepot haway ..)

theorem sound_of_setUp_eq_ok (hdepot : depot.Sound)
    (h : (design.setUp source home depot).result = .ok stage) :
    (design.setUp source home depot).depot.Sound := by
  have hborrows := design.borrows_equip hdepot.tidy (ImageSource.format source)
    (ImageSource.width source) (ImageSource.height source) home
  rw [setUp_eq] at h ⊢
  generalize design.equip (ImageSource.format source) (ImageSource.width source)
    (ImageSource.height source) home depot = made at h hborrows ⊢
  obtain ⟨result, after⟩ := made
  cases result with
  | error e => cases h
  | ok engine => exact hborrows.follows.sound hdepot

theorem madeOver_of_setUp_eq_ok (h : (design.setUp source home depot).result = .ok stage) :
    Resampler.MadeOver source stage := by
  cases design with
  | resize filter width height => exact .resize filter width height home depot h
  | unsharp mask => exact .unsharp mask home depot h
  | byMaps maps hx hy => exact .byMaps maps hx hy home depot h

-- A stage has the format of its source, and it has rows
theorem format_eq_of_setUp_eq_ok (h : (design.setUp source home depot).result = .ok stage) :
    ImageSource.format stage = ImageSource.format source ∧ 0 < ImageSource.height stage := by
  obtain ⟨engine, rfl, hready, -⟩ := (madeOver_of_setUp_eq_ok h).isNew
  exact ⟨rfl, hready.sound.ymap.outPixels_pos⟩

end Design

namespace Prepared

variable [ImageSource σ] [ImageSource τ]

-- The same stages, over sources that are related
inductive Twins (R : σ → τ → Prop) : Prepared σ → Prepared τ → Prop
  | resized {stage : Resampler σ} {other : Resampler τ} (h : Resampler.Twins R stage other) :
      Twins R (.resized stage) (.resized other)
  | sharpened {stage : Resampler (Resampler σ)} {other : Resampler (Resampler τ)}
      (h : Resampler.Twins (Resampler.Twins R) stage other) :
      Twins R (.sharpened stage) (.sharpened other)

theorem alike_twins (halike : ImageSource.Alike R) : ImageSource.Alike (Twins R) := by
  have hresized := Resampler.alike_twins halike
  have hsharpened := Resampler.alike_twins hresized
  refine ⟨?_, ?_, ?_, ?_⟩ <;> rintro _ _ (h | h)
  · exact hresized.width_eq _ _ h
  · exact hsharpened.width_eq _ _ h
  · exact hresized.height_eq _ _ h
  · exact hsharpened.height_eq _ _ h
  · exact hresized.format_eq _ _ h
  · exact hsharpened.format_eq _ _ h
  · intro call
    obtain ⟨hsource, hstate, hresult, hevents⟩ := hresized.answer _ _ h call
    exact ⟨.resized hsource, hstate, hresult, hevents⟩
  · intro call
    obtain ⟨hsource, hstate, hresult, hevents⟩ := hsharpened.answer _ _ h call
    exact ⟨.sharpened hsource, hstate, hresult, hevents⟩

end Prepared

namespace Resize

variable [ImageSource σ] [ImageSource τ] {source : σ} {other : τ} {depot away : Depot}

def resizing (order : Resize) : Design :=
  .resize order.filter.filter order.width order.height

theorem result_applyTo (order : Resize) (source : σ) (depot : Depot) :
    (order.applyTo source depot).result = (do
      order.validate
      let resized := order.resizing.setUp source Depot.shared depot
      let stage ← resized.result
      match order.activeMask with
      | none => return .resized stage
      | some mask =>
        let sharpened := (Design.unsharp mask).setUp stage Depot.shared resized.depot
        return .sharpened (← sharpened.result)) := by
  unfold applyTo
  cases order.validate with
  | error e => rfl
  | ok =>
    simp only [resizing, Design.setUp]
    cases (Resampler.resize source order.filter.filter order.width order.height Depot.shared
        depot).result with
    | error e => rfl
    | ok stage =>
      cases order.activeMask with
      | none => rfl
      | some mask => rfl

theorem twins_applyTo (halike : ImageSource.Alike R) (h : R source other) (hdepot : depot.Sound)
    (haway : away.Sound) (order : Resize) :
    Except.Related (Prepared.Twins R) (order.applyTo source depot).result
      (order.applyTo other away).result := by
  rw [result_applyTo, result_applyTo]
  cases order.validate with
  | error e => exact .error e
  | ok =>
    refine (order.resizing.twins_setUp halike h hdepot haway _ _).bind
      fun stage stage' hstage hstage' htwins => ?_
    cases order.activeMask with
    | none => exact .ok (.resized htwins)
    | some mask =>
      refine ((Design.unsharp mask).twins_setUp (Resampler.alike_twins halike) htwins
        (Design.sound_of_setUp_eq_ok hdepot hstage) (Design.sound_of_setUp_eq_ok haway hstage')
        _ _).bind fun last last' _ _ htwins => ?_
      exact .ok (.sharpened htwins)

theorem format_eq_of_applyTo_eq_ok {order : Resize} {prepared : Prepared σ}
    (h : (order.applyTo source depot).result = .ok prepared) :
    ImageSource.format prepared = ImageSource.format source ∧
      0 < ImageSource.height prepared := by
  rw [result_applyTo] at h
  obtain ⟨-, -, h⟩ := bind_eq_ok_iff.mp h
  obtain ⟨stage, hstage, h⟩ := bind_eq_ok_iff.mp h
  have hresized := Design.format_eq_of_setUp_eq_ok hstage
  cases hmask : order.activeMask with
  | none =>
    rw [hmask] at h
    cases h
    exact hresized
  | some mask =>
    rw [hmask] at h
    obtain ⟨last, hlast, h⟩ := bind_eq_ok_iff.mp h
    cases h
    obtain ⟨hformat, hheight⟩ := Design.format_eq_of_setUp_eq_ok hlast
    exact ⟨hformat.trans hresized.1, hheight⟩

end Resize

theorem PixelType.pixelSize_pos (type : PixelType) : 0 < type.format.pixelSize := by
  obtain ⟨order, depth⟩ := type
  cases order <;> cases depth <;> decide

namespace Element

variable {α : Type} [Element α] [TightElement α]

theorem encodeRow_decodeRow {count : Nat} {bytes : Array UInt8}
    (h : bytes.size = count * size α) : encodeRow (decodeRow α count bytes 0) = bytes := by
  apply Array.ext_getElem?
  intro p
  by_cases hp : p < count * size α
  · obtain ⟨i, hi, k, hk, rfl⟩ := exists_entry hp
    rw [getElem?_encodeRow _ i k (by rwa [size_decodeRow]) hk]
    simp only [decodeRow, Array.getElem_ofFn]
    rw [TightElement.byteAt_ofBytes _ k hk, Nat.zero_add, Array.getD_eq_getD_getElem?,
      Array.getElem?_eq_getElem (h ▸ hp), Option.getD_some]
  · rw [Array.getElem?_eq_none (by rw [size_encodeRow, size_decodeRow]; omega),
      Array.getElem?_eq_none (by omega)]

end Element

namespace ImageSource

variable [ImageSource σ] [ImageSource τ] {source : σ} {other : τ} {type : PixelType}

-- The whole image, asked for as packed rows
def wholeCall (source : σ) : Call where
  rect := whole source
  stride := width source * (format source).pixelSize
  length := width source * height source * (format source).pixelSize
  buffer := Vector.replicate _ 0

theorem packedSize_eq (hheight : 0 < height source) :
    packedSize source =
      if (wholeCall source).length ≤ Word.maxAllocation then
        .ok ((wholeCall source).stride, (wholeCall source).length)
      else .error .outOfMemory := by
  have hlength : width source * (format source).pixelSize * height source =
      (wholeCall source).length := Nat.mul_right_comm ..
  have hstride : width source * (format source).pixelSize ≤ (wholeCall source).length :=
    (Nat.le_mul_of_pos_right _ hheight).trans_eq hlength
  unfold packedSize Word.mul?
  by_cases hfits : (wholeCall source).length ≤ Word.maxAllocation
  · have hlimit : (wholeCall source).length < Word.limit := Nat.lt_of_le_of_lt hfits (by decide)
    simp only [hlength, if_pos (Nat.lt_of_le_of_lt hstride hlimit), if_pos hlimit, if_pos hfits,
      if_neg (Nat.not_lt.mpr hfits)]
    rfl
  · rw [if_neg hfits]
    by_cases hrow : width source * (format source).pixelSize < Word.limit
    · simp only [if_pos hrow, hlength]
      by_cases hlimit : (wholeCall source).length < Word.limit
      · simp only [if_pos hlimit, if_pos (Nat.lt_of_not_le hfits)]
        rfl
      · simp only [if_neg hlimit]
        rfl
    · simp only [if_neg hrow]
      rfl

theorem pixelCount_eq (hformat : format source = type.format) :
    pixelCount type source =
      if (wholeCall source).length ≤ Word.maxAllocation then .ok (width source * height source)
      else .error .outOfMemory := by
  have hlength : width source * height source * type.format.pixelSize =
      (wholeCall source).length := by
    rw [← hformat]
    rfl
  have hsize : 0 < type.format.pixelSize := type.pixelSize_pos
  have hcount : width source * height source ≤ (wholeCall source).length :=
    (Nat.le_mul_of_pos_right _ hsize).trans_eq hlength
  unfold pixelCount Word.mul?
  rw [if_neg (not_not_intro hformat)]
  by_cases hfits : (wholeCall source).length ≤ Word.maxAllocation
  · have hlimit : (wholeCall source).length < Word.limit := Nat.lt_of_le_of_lt hfits (by decide)
    simp only [hlength, if_pos (Nat.lt_of_le_of_lt hcount hlimit), if_pos hfits,
      if_neg (Nat.not_lt.mpr hfits)]
    rfl
  · rw [if_neg hfits]
    by_cases hlimit : width source * height source < Word.limit
    · simp only [if_pos hlimit, hlength, if_pos (Nat.lt_of_not_le hfits)]
      rfl
    · simp only [if_neg hlimit]
      rfl

theorem result_collectBytes (hheight : 0 < height source) :
    (collectBytes source).result =
      if (wholeCall source).length ≤ Word.maxAllocation then
        (answer source (wholeCall source)).result.map fun _ =>
          (answer source (wholeCall source)).state.toArray
      else .error .outOfMemory := by
  unfold collectBytes
  rw [packedSize_eq hheight]
  by_cases hfits : (wholeCall source).length ≤ Word.maxAllocation
  · rw [if_pos hfits, if_pos hfits]
    rfl
  · rw [if_neg hfits, if_neg hfits]

theorem result_collectPixels (hformat : format source = type.format) :
    (collectPixels type source).result =
      if (wholeCall source).length ≤ Word.maxAllocation then
        (answer source (wholeCall source)).result.map fun _ =>
          Element.decodeRow type.Pixel (width source * height source)
            (answer source (wholeCall source)).state.toArray 0
      else .error .outOfMemory := by
  unfold collectPixels
  rw [pixelCount_eq hformat]
  by_cases hfits : (wholeCall source).length ≤ Word.maxAllocation
  · have hcall : wholeCall source = ⟨whole source, width source * type.format.pixelSize,
        width source * height source * type.format.pixelSize, Vector.replicate _ 0⟩ := by
      rw [wholeCall, hformat]
    rw [if_pos hfits, if_pos hfits, hcall]
    rfl
  · rw [if_neg hfits, if_neg hfits]

-- Pixels of a type and packed bytes are collected by the same request, from sources that answer
-- alike
theorem map_collectPixels (halike : Alike R) (h : R source other)
    (hformat : format source = type.format) (hheight : 0 < height source) :
    (collectPixels type source).result.map Element.encodeRow = (collectBytes other).result := by
  have hcall : wholeCall source = wholeCall other := by
    unfold wholeCall whole
    rw [halike.width_eq source other h, halike.height_eq source other h,
      halike.format_eq source other h]
  have hanswer := halike.answer source other h (wholeCall source)
  rw [result_collectPixels hformat,
    result_collectBytes (halike.height_eq source other h ▸ hheight), ← hcall,
    ← hanswer.result_eq, ← hanswer.state_eq]
  by_cases hfits : (wholeCall source).length ≤ Word.maxAllocation
  · have hbytes : (answer source (wholeCall source)).state.toArray.size =
        width source * height source * Element.size type.Pixel := by
      rw [Vector.size_toArray, Element.size_vector, ← hformat]
      exact congrArg _ (Nat.mul_one _).symm
    rw [if_pos hfits, if_pos hfits]
    cases (answer source (wholeCall source)).result with
    | error e => rfl
    | ok => exact congrArg Except.ok (Element.encodeRow_decodeRow hbytes)
  · rw [if_neg hfits, if_neg hfits]
    rfl

-- So are they from what was set up over such sources
theorem map_bind_collectPixels (halike : Alike R) {made : Except Error σ} {made' : Except Error τ}
    (hmade : Except.Related R made made')
    (hlooks : ∀ stage, made = .ok stage → format stage = type.format ∧ 0 < height stage) :
    (made >>= fun stage => (collectPixels type stage).result).map Element.encodeRow =
      made' >>= fun stage => (collectBytes stage).result := by
  cases hmade with
  | error e => rfl
  | ok h =>
    obtain ⟨hformat, hheight⟩ := hlooks _ rfl
    exact map_collectPixels halike h hformat hheight

end ImageSource

namespace PixelView

variable [ImageSource τ] {type : PixelType} {view : PixelView} {other : τ} {depot away : Depot}
  {R : PixelView → τ → Prop}

theorem result_resize (type : PixelType) (view : PixelView) (filter : Filter) (width height : Nat)
    (depot : Depot) :
    (view.resize type filter width height depot).1 =
      (Resampler.resize view filter width height Depot.shared depot).result >>= fun stage =>
        (ImageSource.collectPixels type stage).result := by
  unfold resize
  generalize Resampler.resize view filter width height Depot.shared depot = made
  obtain ⟨result, after, events⟩ := made
  cases result <;> rfl

theorem result_run (type : PixelType) (view : PixelView) (order : Resize) (depot : Depot) :
    (view.run type order depot).1 = (order.applyTo view depot).result >>= fun stage =>
      (ImageSource.collectPixels type stage).result := by
  unfold run
  generalize order.applyTo view depot = made
  obtain ⟨result, after, events⟩ := made
  cases result <;> rfl

-- What is made of a view is made of any source that answers as the view does
theorem map_resize (halike : ImageSource.Alike R) (h : R view other)
    (hformat : view.format = type.format) (hdepot : depot.Sound) (haway : away.Sound)
    (filter : Filter) (width height home : Nat) :
    (view.resize type filter width height depot).1.map Element.encodeRow =
      (Resampler.resize other filter width height home away).result >>= fun stage =>
        (ImageSource.collectBytes stage).result := by
  let resizing : Design := .resize filter width height
  rw [result_resize]
  refine ImageSource.map_bind_collectPixels (Resampler.alike_twins halike)
    (resizing.twins_setUp halike h hdepot haway Depot.shared home) fun stage hstage => ?_
  replace hstage : (resizing.setUp view Depot.shared depot).result = .ok stage := hstage
  obtain ⟨hlast, hheight⟩ := Design.format_eq_of_setUp_eq_ok hstage
  exact ⟨hlast.trans hformat, hheight⟩

theorem map_run (halike : ImageSource.Alike R) (h : R view other)
    (hformat : view.format = type.format) (hdepot : depot.Sound) (haway : away.Sound)
    (order : Resize) :
    (view.run type order depot).1.map Element.encodeRow =
      (order.applyTo other away).result >>= fun stage =>
        (ImageSource.collectBytes stage).result := by
  rw [result_run]
  refine ImageSource.map_bind_collectPixels (Prepared.alike_twins halike)
    (order.twins_applyTo halike h hdepot haway) fun stage hstage => ?_
  obtain ⟨hlast, hheight⟩ := Resize.format_eq_of_applyTo_eq_ok hstage
  exact ⟨hlast.trans hformat, hheight⟩

end PixelView

section Layouts

-- Packed data are data with rows of their own length
theorem MemoryImage.ofPacked_eq {format : PixelFormat} {width height : Nat} {data : Array UInt8}
    (h : width * format.pixelSize < Word.limit) :
    ofPacked format width height data =
      make format width height (width * format.pixelSize) data := by
  unfold ofPacked Word.mul?
  simp only [if_pos h]

theorem MemoryImage.make_of_ofPacked_eq_ok {format : PixelFormat} {width height : Nat}
    {data : Array UInt8} {image : MemoryImage} (h : ofPacked format width height data = .ok image) :
    make format width height (width * format.pixelSize) data = .ok image := by
  by_cases hword : width * format.pixelSize < Word.limit
  · rwa [ofPacked_eq hword] at h
  · unfold ofPacked Word.mul? at h
    simp only [if_neg hword] at h
    cases h

variable {type : PixelType} {picture : Picture} {stride pitch : Nat} {data flat : Array UInt8}
  {pixels : Array type.Pixel}

-- How an image lies in memory is not seen. Rows at any distance, with anything between them, packed
-- rows and pixels of a larger array make sources that answer every request that asks for pixels
-- alike, and what is made of pixels of a larger array is what is made of the packed image.
theorem PixelView.layout_unseen (hformat : picture.format = type.format)
    (hpacked : picture.Packed) (hdata : picture.LaidOut stride data)
    (hflat : picture.LaidOut (picture.width * picture.pixelSize) flat)
    (hpixels : picture.LaidOut (pitch * picture.pixelSize) (Element.encodeRow pixels)) :
    (0 < picture.width → 0 < picture.height → ∃ strided packed : MemoryImage,
      MemoryImage.make picture.format picture.width picture.height stride data = .ok strided ∧
        MemoryImage.ofPacked picture.format picture.width picture.height flat = .ok packed) ∧
    ∀ strided packed : MemoryImage,
      MemoryImage.make picture.format picture.width picture.height stride data = .ok strided →
      MemoryImage.ofPacked picture.format picture.width picture.height flat = .ok packed →
      let view := PixelView.ofPixels type pixels picture.width picture.height pitch
      (∀ call : Call, call.rect.isEmpty = false →
        let answer := ImageSource.answer view call
        (ImageSource.answer strided call).Alike (fun after same => after = strided ∧ same = view)
          answer ∧
        (ImageSource.answer packed call).Alike (fun after same => after = packed ∧ same = view)
          answer ∧
        answer.result =
          Request.admit call.request picture.width picture.height picture.pixelSize ∧
        (answer.result = .ok () →
          picture.Delivered call.rect call.stride call.buffer answer.state) ∧
        (answer.result ≠ .ok () → answer.state = call.buffer)) ∧
      ∀ depot away : Depot, depot.Sound → away.Sound →
        (∀ filter width height home,
          (view.resize type filter width height depot).1.map Element.encodeRow =
            (Resampler.resize packed filter width height home away).result >>= fun stage =>
              (ImageSource.collectBytes stage).result) ∧
        ∀ order : Resize, (view.run type order depot).1.map Element.encodeRow =
          (order.applyTo packed away).result >>= fun stage =>
            (ImageSource.collectBytes stage).result := by
  have hview := hpixels.stores_view hformat hpacked
  refine ⟨fun hwidth hheight => ?_, fun strided packed hmake hmakePacked => ?_⟩
  · have hsize : 0 < picture.width * picture.pixelSize := by
      rw [Picture.pixelSize, hformat]
      exact Nat.mul_pos hwidth type.pixelSize_pos
    obtain ⟨strided, hstrided⟩ := hdata.exists_make_eq_ok hpacked hsize hheight
    obtain ⟨packed, hmade⟩ := hflat.exists_make_eq_ok hpacked hsize hheight
    have hword : picture.width * picture.pixelSize < Word.limit :=
      Nat.lt_of_le_of_lt (hflat.row_le_size hpacked hheight) hflat.size_lt
    exact ⟨strided, packed, hstrided, (MemoryImage.ofPacked_eq hword).trans hmade⟩
  · have hstrided := hdata.stores_of_make_eq_ok hmake
    have hpackedImage :=
      hflat.stores_of_make_eq_ok (MemoryImage.make_of_ofPacked_eq_ok hmakePacked)
    refine ⟨fun call hempty => ?_, fun depot away hdepot haway => ⟨?_, ?_⟩⟩
    · obtain ⟨-, hanswer⟩ := hview.answer_spec hpacked hempty
      exact ⟨(hstrided.alike hview).answer strided _ ⟨rfl, rfl⟩ call,
        (hpackedImage.alike hview).answer packed _ ⟨rfl, rfl⟩ call, hanswer⟩
    · exact PixelView.map_resize (hview.alike hpackedImage) ⟨rfl, rfl⟩ rfl hdepot haway
    · exact PixelView.map_run (hview.alike hpackedImage) ⟨rfl, rfl⟩ rfl hdepot haway

-- Two rows of two pixels, in rows of three bytes and in rows of four pixels. After the last pixel
-- nothing follows in the one, and another pixel in the other.
def paddedPicture : Picture where
  format := .gray8
  width := 2
  height := 2
  row y := if y = 0 then #[10, 20] else #[30, 40]

theorem PixelView.layout_unseen_padded :
    let data : Array UInt8 := #[10, 20, 99, 30, 40]
    let flat : Array UInt8 := #[10, 20, 30, 40]
    let pixels : Array (PixelType.Pixel ⟨.gray, .byte⟩) :=
      #[#v[10], #v[20], #v[1], #v[2], #v[30], #v[40], #v[3]]
    let view := PixelView.ofPixels ⟨.gray, .byte⟩ pixels 2 2 4
    let strided : MemoryImage := ⟨.gray8, 2, 2, 3, data⟩
    let packed : MemoryImage := ⟨.gray8, 2, 2, 2, flat⟩
    let column : Call := ⟨⟨1, 0, 1, 2⟩, 2, 4, #v[7, 7, 7, 7]⟩
    paddedPicture.Packed ∧ paddedPicture.LaidOut 3 data ∧ paddedPicture.LaidOut 2 flat ∧
      paddedPicture.LaidOut 4 (Element.encodeRow pixels) ∧
      MemoryImage.make .gray8 2 2 3 data = .ok strided ∧
      MemoryImage.ofPacked .gray8 2 2 flat = .ok packed ∧
      Depot.fresh.Sound ∧
      (ImageSource.answer strided column).state = #v[20, 7, 40, 7] ∧
      (ImageSource.answer packed column).state = #v[20, 7, 40, 7] ∧
      ∀ order : Resize, (view.run ⟨.gray, .byte⟩ order Depot.fresh).1.map Element.encodeRow =
        (order.applyTo packed Depot.fresh).result >>= fun stage =>
          (ImageSource.collectBytes stage).result := by
  intro data flat pixels view strided packed column
  have hpacked : paddedPicture.Packed := by
    show ∀ y < 2, _ = 2 * 1
    decide
  have hdata : paddedPicture.LaidOut 3 data := ⟨by decide, by decide, by
    show ∀ y < 2, _
    decide⟩
  have hflat : paddedPicture.LaidOut 2 flat := ⟨by decide, by decide, by
    show ∀ y < 2, _
    decide⟩
  have hpixels : paddedPicture.LaidOut 4 (Element.encodeRow pixels) := ⟨by decide, by decide, by
    show ∀ y < 2, _
    decide⟩
  have hmake : MemoryImage.make .gray8 2 2 3 data = .ok strided := rfl
  have hmakePacked : MemoryImage.ofPacked .gray8 2 2 flat = .ok packed := rfl
  obtain ⟨-, hsame⟩ :=
    @layout_unseen ⟨.gray, .byte⟩ paddedPicture 3 4 data flat pixels rfl hpacked hdata hflat hpixels
  obtain ⟨hanswers, hmade⟩ := hsame strided packed hmake hmakePacked
  obtain ⟨hstrided, hflatAnswer, -⟩ := hanswers column rfl
  have hview : (ImageSource.answer view column).state = #v[20, 7, 40, 7] := by decide
  refine ⟨hpacked, hdata, hflat, hpixels, hmake, hmakePacked, Depot.sound_fresh,
    hstrided.state_eq.trans hview, hflatAnswer.state_eq.trans hview, ?_⟩
  exact (hmade Depot.fresh Depot.fresh Depot.sound_fresh Depot.sound_fresh).2

end Layouts

end Resampling
