import Resampling.Proofs.Pixels

-- Stages over images that agree. Where no source fails, the request alone decides whether it is
-- met, and what comes out differs only where the images of the stages do.

namespace Resampling

namespace Engine

variable {format : PixelFormat} {engine : Engine format} {below : Picture} {σ : Type}
  [ImageSource σ] {I : σ → Prop}

-- A source that shows an image and is reliable gives every row of it
theorem serves_of_shows_of_reliable (hready : engine.Ready below.width below.height)
    (hformat : below.format = format) (hshows : Shows I below)
    (hreliable : Reliable I format below.width below.height) :
    engine.plan.Serves (fun _ => I) (RowOf below) fun _ _ => False := by
  have hserves := serves_of_shows hready hformat hshows
  have hanswers : engine.plan.Serves (fun _ => I) _ _ :=
    serves_of_reliable hready hreliable (fun _ _ h => h)
      fun _ source _ hsource _ call _ => hreliable.step hsource call
  intro ys source y hsource hy length buffer hlength
  have hrow := hserves ys source y hsource hy buffer hlength
  have hanswer := hanswers ys source y hsource hy buffer hlength
  cases hresult : (ImageSource.copyRect source ⟨0, y, engine.plan.xmap.inPixels, 1⟩
      engine.plan.rowBytes buffer).result with
  | error e => exact (hanswer.of_error hresult).elim
  | ok => exact Outcome.satisfies_of_ok hresult (hrow.of_ok hresult)

-- Over such a source the request alone decides whether it is met
theorem answer_eq_admit {Row : Nat → Array UInt8 → Prop} {width height : Nat}
    (hready : engine.Ready width height)
    (hserves : engine.plan.Serves (fun _ => I) Row fun _ _ => False) {start : Option Nat}
    {stage : Resampler σ} (hruns : engine.Runs Row I start stage) (call : Call) :
    (ImageSource.answer stage call).result =
        Request.admit call.request engine.xmap.outPixels engine.ymap.outPixels format.pixelSize ∧
      ∀ e, (ImageSource.answer stage call).result = .error e →
        (ImageSource.answer stage call).state = call.buffer := by
  have hcopy : (ImageSource.answer stage call).Satisfies _ _ :=
    copyRect_satisfies hready hserves [] hruns call.rect call.stride call.buffer
  obtain ⟨source, window, rfl, -⟩ := hruns
  have hanswer : ImageSource.answer (engine.stage source window) call = _ :=
    copyRect_stage engine source window call.rect call.stride call.buffer
  cases haccept : Request.admit call.request engine.xmap.outPixels engine.ymap.outPixels
      format.pixelSize with
  | error e =>
    rw [Call.request] at haccept
    rw [haccept] at hanswer
    rw [hanswer]
    exact ⟨rfl, fun _ _ => rfl⟩
  | ok =>
    cases hresult : (ImageSource.answer (engine.stage source window) call).result with
    | ok => exact ⟨rfl, fun e h => by cases h⟩
    | error e =>
      rcases hcopy.of_error hresult with ⟨hrefused, -⟩ | ⟨_, _, _, hfalse, _⟩
      · rw [Call.request, hrefused] at haccept
        cases haccept
      · exact hfalse.elim

end Engine

-- A place among the bytes of `count` entries is a byte of one of them
theorem exists_entry {count size k : Nat} (hk : k < count * size) :
    ∃ i < count, ∃ j < size, k = i * size + j := by
  have hpos : 0 < size := Nat.pos_of_mul_pos_left (Nat.zero_lt_of_lt hk)
  exact ⟨k / size, Nat.div_lt_of_lt_mul (by rwa [Nat.mul_comm]), k % size, Nat.mod_lt k hpos,
    (Nat.div_add_mod' k size).symm⟩

-- A place is in one of `count` rows that are `stride` apart, or outside of all
theorem in_row_or_outside (count stride width p : Nat) :
    (∃ i < count, ∃ k < width, p = i * stride + k) ∨
      ∀ i < count, p < i * stride ∨ i * stride + width ≤ p := by
  by_cases hin : ∃ i < count, i * stride ≤ p ∧ p < i * stride + width
  · obtain ⟨i, hi, hlow, hhigh⟩ := hin
    obtain ⟨k, rfl⟩ := Nat.exists_eq_add_of_le hlow
    exact Or.inl ⟨i, hi, k, Nat.lt_of_add_lt_add_left hhigh, rfl⟩
  · right
    intro i hi
    by_contra hcontra
    exact hin ⟨i, hi, by omega, by omega⟩

-- Byte `p` of the memory of a request is for color of a pixel at a hidden place
def Call.HoldsColor (call : Call) (size : Nat) (hidden : Nat → Nat → Prop) (p : Nat) : Prop :=
  ∃ i < call.rect.height, ∃ j < call.rect.width, ∃ k < 3 * size,
    p = i * call.stride + (j * (4 * size) + k) ∧ hidden (call.rect.x + j) (call.rect.y + i)

namespace Picture

-- Images of four channels that are the same up to color at hidden places
structure SameUpTo (hidden : Nat → Nat → Prop) (S : Type) [Element S] (image other : Picture) :
    Prop where
  format_eq : other.format = image.format
  width_eq : other.width = image.width
  height_eq : other.height = image.height
  alpha_eq : ∀ x < image.width, ∀ y < image.height,
    Kernel.alphaOf (image.pixel S 4 x y) = Kernel.alphaOf (other.pixel S 4 x y)
  pixel_eq : ∀ x < image.width, ∀ y < image.height, ¬hidden x y →
    image.pixel S 4 x y = other.pixel S 4 x y

variable {S : Type} [Element S] {hidden : Nat → Nat → Prop} {image other : Picture}

theorem SameUpTo.byteAt_eq (h : image.SameUpTo hidden S other) {x y k : Nat}
    (hx : x < image.width) (hy : y < image.height) (hk : k < Element.size (Vector S 4))
    (hshown : k < 3 * Element.size S → ¬hidden x y) :
    Element.byteAt (image.pixel S 4 x y) k = Element.byteAt (other.pixel S 4 x y) k := by
  rw [Element.size_vector] at hk
  by_cases hcolor : k < 3 * Element.size S
  · rw [h.pixel_eq x hx y hy (hshown hcolor)]
  · obtain ⟨j, rfl⟩ := Nat.exists_eq_add_of_le (Nat.le_of_not_lt hcolor)
    have hj : j < Element.size S := by omega
    have halpha : (image.pixel S 4 x y)[3] = (other.pixel S 4 x y)[3] := h.alpha_eq x hx y hy
    rw [Element.byteAt_vector _ 3 j (by decide) hj, Element.byteAt_vector _ 3 j (by decide) hj,
      halpha]

theorem SameUpTo.pixelSize_eq (h : image.SameUpTo hidden S other) :
    other.pixelSize = image.pixelSize := by
  rw [pixelSize, pixelSize, h.format_eq]

-- Byte `t` of pixel `j` of row `i` of a rectangle, in the memory it was delivered to
theorem Delivered.getElem?_eq {n : Nat} {rect : Rect} {stride length : Nat}
    {before after : Vector UInt8 length} (h : image.Delivered rect stride before after)
    (hencoded : image.Encoded S n) (hsize : image.pixelSize = Element.size (Vector S n))
    {i j t : Nat} (hi : i < rect.height) (hj : j < rect.width)
    (ht : t < Element.size (Vector S n)) (hx : rect.x + j < image.width)
    (hy : rect.y + i < image.height) :
    after[i * stride + (j * Element.size (Vector S n) + t)]? =
      some (Element.byteAt (image.pixel S n (rect.x + j) (rect.y + i)) t) := by
  obtain ⟨byte, hrow, hafter⟩ := h.inside i hi _ (by rw [hsize]; exact Element.entry_lt hj ht)
  rw [hsize, ← Nat.add_assoc, ← Nat.add_mul] at hrow
  rw [hafter, ← hrow]
  exact hencoded _ hx _ hy t ht

-- The same part of both, delivered to the same memory
theorem SameUpTo.eq_of_delivered (h : image.SameUpTo hidden S other) (himage : image.Encoded S 4)
    (hother : other.Encoded S 4) (hsize : image.pixelSize = Element.size (Vector S 4)) {call : Call}
    (haccept : Request.admit call.request image.width image.height image.pixelSize = .ok ())
    {after after' : Vector UInt8 call.length}
    (hdelivered : image.Delivered call.rect call.stride call.buffer after)
    (hdelivered' : other.Delivered call.rect call.stride call.buffer after') (p : Nat) :
    after[p]? = after'[p]? ∨ call.HoldsColor (Element.size S) hidden p := by
  rcases in_row_or_outside call.rect.height call.stride (call.rect.width * image.pixelSize) p with
    ⟨i, hi, k, hk, rfl⟩ | hout
  · obtain ⟨j, hj, t, ht, rfl⟩ := exists_entry hk
    rw [hsize] at ht ⊢
    have hin : call.rect.x + j < image.width ∧ call.rect.y + i < image.height :=
      Request.lt_of_admit_eq_ok haccept hj hi
    obtain ⟨hx, hy⟩ := hin
    by_cases hhidden : t < 3 * Element.size S ∧ hidden (call.rect.x + j) (call.rect.y + i)
    · exact Or.inr ⟨i, hi, j, hj, t, hhidden.1, rfl, hhidden.2⟩
    · left
      have hsame := h.byteAt_eq hx hy ht fun hcolor hplace => hhidden ⟨hcolor, hplace⟩
      rw [hdelivered.getElem?_eq himage hsize hi hj ht hx hy, hsame,
        hdelivered'.getElem?_eq hother (h.pixelSize_eq.trans hsize) hi hj ht
          (by rwa [h.width_eq]) (by rwa [h.height_eq])]
  · left
    rw [hdelivered.outside p hout, hdelivered'.outside p (by rwa [h.pixelSize_eq])]

end Picture

-- What a stage makes of an image comes out of it, and over a source that does not fail it comes
-- out at every request that is admitted
structure Resampler.Yields {σ : Type} [ImageSource σ] (stage : Resampler σ) (I : σ → Prop)
    (image : Picture) : Prop where
  delivers : ImageSource.Delivers stage (stage.picture image)
  result_eq_ok : Reliable I image.format image.width image.height → ∀ calls (call : Call),
    Request.admit call.request (stage.picture image).width (stage.picture image).height
        (stage.picture image).pixelSize = .ok () →
      (ImageSource.answer (ImageSource.after stage calls) call).result = .ok ()

namespace Resampler.SetUp

variable {σ τ : Type} [ImageSource σ] [ImageSource τ] {I : σ → Prop} {J : τ → Prop}
  {image other : Picture} {source : σ} {twin : τ}

theorem answer_eq_admit {format : PixelFormat} {maps : AxisMaps format.sample.Weights}
    {sharpening : Option Sharpening} {stage : Resampler σ}
    (h : SetUp source format maps sharpening stage) (hshows : Shows I image)
    (hreliable : Reliable I image.format image.width image.height) (hsource : I source)
    (calls : List Call) (call : Call) :
    (ImageSource.answer (ImageSource.after stage calls) call).result =
        Request.admit call.request maps.x.outPixels maps.y.outPixels format.pixelSize ∧
      ∀ e, (ImageSource.answer (ImageSource.after stage calls) call).result = .error e →
        (ImageSource.answer (ImageSource.after stage calls) call).state = call.buffer := by
  obtain ⟨buffers, rfl, hready, hfits, hformat⟩ := h.exists_engine_of_shows hshows hsource
  have hnew : Engine.Runs _ (Engine.RowOf image) I none _ := Engine.runs_new hsource hfits rfl
  obtain ⟨start, hruns⟩ :=
    (Engine.shows_stage hready hformat hshows).preserved ⟨none, hnew⟩ calls
  rw [hformat] at hreliable
  exact Engine.answer_eq_admit hready
    (Engine.serves_of_shows_of_reliable hready hformat hshows hreliable) hruns call

theorem yields {format : PixelFormat} {maps : AxisMaps format.sample.Weights}
    {sharpening : Option Sharpening} {stage : Resampler σ}
    (h : SetUp source format maps sharpening stage) (hshows : Shows I image) (hsource : I source) :
    stage.Yields I image where
  delivers := h.delivers hshows hsource
  result_eq_ok hreliable calls call haccept := by
    obtain ⟨hformat, hwidth, hheight⟩ := h.extent_picture image
    rw [Picture.pixelSize, hformat, hwidth, hheight] at haccept
    exact (h.answer_eq_admit hshows hreliable hsource calls call).1.trans haccept

-- Two stages that were set up alike, whatever each has been asked before
theorem answers_agree {kind : SampleKind} {alpha : AlphaMode} {maps : AxisMaps kind.Weights}
    {sharpening : Option Sharpening} {stage : Resampler σ} {stage' : Resampler τ}
    (h : SetUp source ⟨4, kind, alpha⟩ maps sharpening stage) (hshows : Shows I image)
    (hreliable : Reliable I image.format image.width image.height) (hsource : I source)
    (h' : SetUp twin ⟨4, kind, alpha⟩ maps sharpening stage') (hshows' : Shows J other)
    (hreliable' : Reliable J other.format other.width other.height) (htwin : J twin)
    {hidden : Nat → Nat → Prop}
    (hsame : (stage.picture image).SameUpTo hidden kind.Sample (stage'.picture other))
    (calls calls' : List Call) (call : Call) :
    (ImageSource.answer (ImageSource.after stage calls) call).result =
        (ImageSource.answer (ImageSource.after stage' calls') call).result ∧
      ∀ p : Nat, (ImageSource.answer (ImageSource.after stage calls) call).state[p]? =
          (ImageSource.answer (ImageSource.after stage' calls') call).state[p]? ∨
        call.HoldsColor (Element.size kind.Sample) hidden p := by
  have hanswer := h.answer_eq_admit hshows hreliable hsource calls call
  have hanswer' := h'.answer_eq_admit hshows' hreliable' htwin calls' call
  refine ⟨hanswer.1.trans hanswer'.1.symm, fun p => ?_⟩
  cases haccept : Request.admit call.request maps.x.outPixels maps.y.outPixels
      (PixelFormat.pixelSize ⟨4, kind, alpha⟩) with
  | error e =>
    left
    rw [hanswer.2 e (hanswer.1.trans haccept), hanswer'.2 e (hanswer'.1.trans haccept)]
  | ok =>
    have hdelivered := h.delivers hshows hsource calls call (hanswer.1.trans haccept)
    have hdelivered' := h'.delivers hshows' htwin calls' call (hanswer'.1.trans haccept)
    obtain ⟨hformat, hwidth, hheight⟩ := h.extent_picture image
    have hsize : (stage.picture image).pixelSize = Element.size (Vector kind.Sample 4) := by
      rw [Picture.pixelSize, hformat]
      exact (Engine.size_pixel ⟨4, kind, alpha⟩).symm
    apply hsame.eq_of_delivered (h.encoded_picture hshows hsource)
      (h'.encoded_picture hshows' htwin) hsize _ hdelivered hdelivered'
    rw [Picture.pixelSize, hwidth, hheight, hformat]
    exact haccept

end Resampler.SetUp

end Resampling
