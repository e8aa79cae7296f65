import Resampling.Proofs.Idle
import Resampling.Proofs.Twins
import Resampling.Proofs.Weights

-- What an order sets up: the stages that one would set up by hand, but for one that sharpens
-- without strength.

namespace Resampling

variable {σ τ : Type}

namespace ImageSource

variable [ImageSource σ] [ImageSource τ]

-- Sources that look the same and answer every run of requests alike
structure AnswersAs (source : σ) (other : τ) : Prop where
  width_eq : width source = width other
  height_eq : height source = height other
  format_eq : format source = format other
  answer : ∀ calls call,
    (answer (after source calls) call).Alike (fun _ _ => True) (answer (after other calls) call)

theorem answersAs_of_alike {R : σ → τ → Prop} (halike : Alike R) {source : σ} {other : τ}
    (h : R source other) : AnswersAs source other where
  width_eq := halike.width_eq source other h
  height_eq := halike.height_eq source other h
  format_eq := halike.format_eq source other h
  answer calls call := by
    have hanswer := halike.answer _ _ (alike_after halike h calls) call
    exact ⟨trivial, hanswer.state_eq, hanswer.result_eq, hanswer.events_eq⟩

-- A source put into another type, which passes on what it is asked
theorem alike_wrap {wrap : σ → τ} (hwidth : ∀ source, width (wrap source) = width source)
    (hheight : ∀ source, height (wrap source) = height source)
    (hformat : ∀ source, format (wrap source) = format source)
    (hanswer : ∀ source call,
      answer (wrap source) call = (answer source call).mapSource wrap) :
    Alike fun (outer : τ) (source : σ) => outer = wrap source where
  width_eq outer source h := by rw [h, hwidth]
  height_eq outer source h := by rw [h, hheight]
  format_eq outer source h := by rw [h, hformat]
  answer outer source h call := by
    rw [h, hanswer]
    exact ⟨rfl, rfl, rfl, rfl⟩

end ImageSource

namespace Prepared

variable [ImageSource σ]

theorem resized_answersAs (stage : Resampler σ) : ImageSource.AnswersAs (resized stage) stage := by
  have halike : ImageSource.Alike fun (prepared : Prepared σ) stage => prepared = resized stage :=
    ImageSource.alike_wrap (fun _ => rfl) (fun _ => rfl) (fun _ => rfl) fun _ _ => rfl
  exact ImageSource.answersAs_of_alike halike rfl

theorem sharpened_answersAs (stage : Resampler (Resampler σ)) :
    ImageSource.AnswersAs (sharpened stage) stage := by
  have halike : ImageSource.Alike fun (prepared : Prepared σ) stage => prepared = sharpened stage :=
    ImageSource.alike_wrap (fun _ => rfl) (fun _ => rfl) (fun _ => rfl) fun _ _ => rfl
  exact ImageSource.answersAs_of_alike halike rfl

end Prepared

namespace Resampler

variable [ImageSource σ]

theorem resize_eq_assemble {source : σ} {filter : Filter} {width height : Nat}
    {maps : AxisMaps (ImageSource.format source).sample.Weights}
    (hsupported : (ImageSource.format source).supported)
    (hmaps : AxisMaps.ofFilter filter (ImageSource.width source) (ImageSource.height source) width
      height = .ok maps) (home : Nat) (depot : Depot) :
    resize source filter width height home depot = assemble source maps none home depot := by
  have hchecked : (do
      checkFormat (ImageSource.format source)
      AxisMaps.ofFilter filter (ImageSource.width source) (ImageSource.height source) width
        height) = Except.ok maps :=
    bind_eq_ok_iff.mpr ⟨(), if_pos hsupported, hmaps⟩
  unfold resize
  rw [hchecked]

-- Tables for a format that the source is known to have
theorem exists_setUp_of_resize {source : σ} {stage : Resampler σ} {format : PixelFormat}
    (hformat : ImageSource.format source = format) {filter : Filter} {width height home : Nat}
    {depot : Depot} (h : (resize source filter width height home depot).result = .ok stage) :
    ∃ maps : AxisMaps format.sample.Weights, AxisMaps.ofFilter filter (ImageSource.width source)
        (ImageSource.height source) width height = .ok maps ∧
      SetUp source format maps none stage := by
  subst hformat
  exact setUp_of_resize_eq_ok h

theorem exists_setUp_of_unsharp {source : σ} {stage : Resampler σ} {format : PixelFormat}
    (hformat : ImageSource.format source = format) {mask : UnsharpMask} {home : Nat}
    {depot : Depot} (h : (unsharp source mask home depot).result = .ok stage) :
    ∃ maps : AxisMaps format.sample.Weights, AxisMaps.ofBlur mask.radius
        (ImageSource.width source) (ImageSource.height source) = .ok maps ∧
      SetUp source format maps (some mask.sharpening) stage := by
  subst hformat
  exact setUp_of_unsharp_eq_ok h

end Resampler

theorem AxisMaps.blur_of_ofBlur_eq_ok {W : Type} [Weight W] {maps : AxisMaps W} {radius : Float}
    {width height : Nat} (h : ofBlur radius width height = .ok maps) :
    AxisMap.blur height radius = .ok maps.y := by
  obtain ⟨x, hx, h⟩ := bind_eq_ok_iff.mp h
  by_cases hshared : width = height
  · rw [if_pos hshared] at h
    cases h
    exact hshared ▸ hx
  · rw [if_neg hshared] at h
    obtain ⟨y, hy, h⟩ := bind_eq_ok_iff.mp h
    cases h
    exact hy

theorem UnsharpMask.exists_fault {mask : UnsharpMask} {e : Error} (h : mask.validate = .error e) :
    ∃ cause, e = .badMask cause := by
  unfold validate at h
  by_cases hamount : mask.amount > maxAmount
  · rw [if_pos hamount] at h
    cases h
    exact ⟨.amount, rfl⟩
  · rw [if_neg hamount] at h
    by_cases hradius : (!mask.radius.isFinite || mask.radius ≤ 0.0) = true
    · rw [if_pos hradius] at h
      cases h
      exact ⟨.radius, rfl⟩
    · rw [if_neg hradius] at h
      cases h

namespace Resize

variable [ImageSource σ] {order : Resize}

theorem validate_of_filter {e : Error} (h : order.filter.validate = .error e) :
    order.validate = .error e := by
  rw [validate, h]
  rfl

theorem validate_of_mask (hfilter : order.filter.validate = .ok ()) {mask : UnsharpMask}
    (hmask : order.mask = some mask) : order.validate = mask.validate := by
  rw [validate, hfilter, hmask]
  rfl

theorem validate_eq_ok (hfilter : order.filter.validate = .ok ())
    (hvalid : ∀ mask, order.mask = some mask → mask.validate = .ok ()) :
    order.validate = .ok () := by
  cases hmask : order.mask with
  | none =>
    rw [validate, hfilter, hmask]
    rfl
  | some mask => rw [validate_of_mask hfilter hmask, hvalid mask hmask]

theorem activeMask_eq_none (h : ∀ mask, order.mask = some mask → mask.amount = 0) :
    order.activeMask = none := by
  rw [activeMask, Option.filter_eq_none_iff]
  intro mask hmask
  simp [h mask hmask]

theorem activeMask_eq_some {mask : UnsharpMask} (hmask : order.mask = some mask)
    (hamount : 0 < mask.amount) : order.activeMask = some mask := by
  rw [activeMask, hmask, Option.filter_some, if_pos (by simpa using hamount)]

theorem applyTo_of_invalid (source : σ) (depot : Depot) {e : Error}
    (h : order.validate = .error e) : order.applyTo source depot =
      ⟨.error e, depot.takeBackAll (ImageSource.leases source), []⟩ := by
  rw [applyTo, h]

section Valid

variable {source : σ} {depot : Depot} (hvalid : order.validate = .ok ())

include hvalid

theorem applyTo_of_resize_eq_error {e : Error} (h : (Resampler.resize source order.filter.filter
      order.width order.height Depot.shared depot).result = .error e) :
    let resized := Resampler.resize source order.filter.filter order.width order.height
      Depot.shared depot
    order.applyTo source depot = ⟨.error e, resized.depot, resized.events⟩ := by
  rw [applyTo, hvalid]
  simp only [h]

theorem applyTo_of_resize_eq_ok {stage : Resampler σ} (h : (Resampler.resize source
      order.filter.filter order.width order.height Depot.shared depot).result = .ok stage) :
    let resized := Resampler.resize source order.filter.filter order.width order.height
      Depot.shared depot
    (order.activeMask = none →
      order.applyTo source depot = ⟨.ok (.resized stage), resized.depot, resized.events⟩) ∧
    ∀ mask, order.activeMask = some mask →
      let sharpened := Resampler.unsharp stage mask Depot.shared resized.depot
      order.applyTo source depot = ⟨sharpened.result.map .sharpened, sharpened.depot,
        resized.events ++ sharpened.events⟩ := by
  refine ⟨fun hidle => ?_, fun mask hmask => ?_⟩
  · rw [applyTo, hvalid]
    simp only [h, hidle]
  · rw [applyTo, hvalid]
    simp only [h, hmask]

end Valid

theorem exists_resized_of_applyTo_eq_ok {source : σ} {depot : Depot} {prepared : Prepared σ}
    (hidle : order.activeMask = none) (h : (order.applyTo source depot).result = .ok prepared) :
    ∃ stage, (Resampler.resize source order.filter.filter order.width order.height Depot.shared
        depot).result = .ok stage ∧ prepared = .resized stage := by
  rw [result_applyTo, hidle] at h
  obtain ⟨-, -, h⟩ := bind_eq_ok_iff.mp h
  obtain ⟨stage, hstage, h⟩ := bind_eq_ok_iff.mp h
  cases h
  exact ⟨stage, hstage, rfl⟩

-- The stage of the mask can be spared: with it, the same stack over any source of the image and
-- with buffers from any pools meets all requests alike, unless a pull fails for one. Its tables may
-- be those of the blur, or any that keep the height; every row has to have its own row among its
-- taps. A source that answers the same pull now in one way and then in another has no image.
def Spares (order : Resize) (mask : UnsharpMask) (image : Picture) (stage : Resampler σ) : Prop :=
  ∀ (τ : Type) [ImageSource τ] (J : τ → Prop) (twin : τ), Shows J image → J twin →
    ∀ home away below, (Resampler.resize twin order.filter.filter order.width order.height home
        away).result = .ok below →
      (∀ home away last, (Resampler.unsharp below mask home away).result = .ok last →
        (∀ map : AxisMap image.format.sample.Weights,
          AxisMap.blur (ImageSource.height below) mask.radius = .ok map → map.Centered) →
        stage.Interchangeable last) ∧
      ∀ maps last, Resampler.SetUp below image.format maps (some mask.sharpening) last →
        maps.y.Centered → maps.y.outPixels = maps.y.inPixels → stage.Interchangeable last

-- An order sets up the stages that one would set up by hand. Settings that are not valid are
-- refused without a look at the source: the filter first, then the mask. A mask without strength
-- has no stage, and in images of integer samples that stage is not missed.
theorem sets_up_stages (order : Resize) (source : σ) (depot : Depot) :
    let refused (e : Error) : Construction (Prepared σ) :=
      ⟨.error e, depot.takeBackAll (ImageSource.leases source), []⟩
    let resized := Resampler.resize source order.filter.filter order.width order.height
      Depot.shared depot
    (∀ e, order.filter.validate = .error e → order.applyTo source depot = refused e) ∧
    (order.filter.validate = .ok () → ∀ mask, order.mask = some mask →
      ∀ e, mask.validate = .error e →
        (∃ cause, e = .badMask cause) ∧ order.applyTo source depot = refused e) ∧
    (order.filter.validate = .ok () →
      (∀ mask, order.mask = some mask → mask.validate = .ok ()) →
        (∀ e, resized.result = .error e →
          order.applyTo source depot = ⟨.error e, resized.depot, resized.events⟩) ∧
        ∀ stage, resized.result = .ok stage →
          ((∀ mask, order.mask = some mask → mask.amount = 0) →
            order.applyTo source depot =
                ⟨.ok (.resized stage), resized.depot, resized.events⟩ ∧
              ImageSource.AnswersAs (Prepared.resized stage) stage) ∧
          ∀ mask, order.mask = some mask → 0 < mask.amount →
            let sharpened := Resampler.unsharp stage mask Depot.shared resized.depot
            order.applyTo source depot =
                ⟨sharpened.result.map .sharpened, sharpened.depot,
                  resized.events ++ sharpened.events⟩ ∧
              ∀ last, sharpened.result = .ok last →
                ImageSource.AnswersAs (Prepared.sharpened last) last) ∧
    ∀ mask, order.mask = some mask → mask.amount = 0 →
      ∀ prepared, (order.applyTo source depot).result = .ok prepared →
        ∃ stage, prepared = .resized stage ∧
          ∀ (I : σ → Prop) (image : Picture), Shows I image → I source →
            image.format.sample ≠ .float →
            (image.format.sample = .byte → FixedPoint.ofFloat (Float.ofNat 0 / 100.0) = 0) →
            order.Spares mask image stage := by
  intro refused resized
  refine ⟨fun e h => ?_, fun hfilter mask hmask e h => ?_, fun hfilter hvalid => ?_,
    fun mask hmask hamount prepared hprepared => ?_⟩
  · exact applyTo_of_invalid source depot (validate_of_filter h)
  · exact ⟨UnsharpMask.exists_fault h,
      applyTo_of_invalid source depot ((validate_of_mask hfilter hmask).trans h)⟩
  · have hchecked := validate_eq_ok hfilter hvalid
    refine ⟨fun e h => applyTo_of_resize_eq_error hchecked h, fun stage h => ?_⟩
    obtain ⟨hnone, hsome⟩ := applyTo_of_resize_eq_ok hchecked h
    refine ⟨fun hidle => ?_, fun mask hmask hamount => ?_⟩
    · exact ⟨hnone (activeMask_eq_none hidle), Prepared.resized_answersAs stage⟩
    · exact ⟨hsome mask (activeMask_eq_some hmask hamount),
        fun last _ => Prepared.sharpened_answersAs last⟩
  · have hidle : order.activeMask = none := by
      apply activeMask_eq_none
      intro other hother
      rw [hmask, Option.some.injEq] at hother
      rw [← hother, hamount]
    obtain ⟨stage, hstage, rfl⟩ := exists_resized_of_applyTo_eq_ok hidle hprepared
    refine ⟨stage, rfl, fun I image hshows hsource hkind hbyte => ?_⟩
    intro τ _ J twin hshows' htwin home away below hbelow
    obtain ⟨maps, hmaps, hsetUp⟩ :=
      Resampler.exists_setUp_of_resize (hshows.format_eq source hsource) hstage
    obtain ⟨maps', hmaps', hsetUp'⟩ :=
      Resampler.exists_setUp_of_resize (hshows'.format_eq twin htwin) hbelow
    rw [hshows.width_eq source hsource, hshows.height_eq source hsource] at hmaps
    rw [hshows'.width_eq twin htwin, hshows'.height_eq twin htwin, hmaps] at hmaps'
    cases hmaps'
    have htables : ∀ blur last,
        Resampler.SetUp below image.format blur (some mask.sharpening) last →
        blur.y.Centered → blur.y.outPixels = blur.y.inPixels → stage.Interchangeable last :=
      fun blur last hlast hcentered hsame => hsetUp.interchangeable_of_amount_zero hsetUp' hlast
        hkind hbyte hamount hshows hsource hshows' htwin hcentered hsame
    refine ⟨fun home away last hlast hcentered => ?_, htables⟩
    obtain ⟨blur, hblur, hlast⟩ :=
      Resampler.exists_setUp_of_unsharp hsetUp'.extent_stage.1 hlast
    have hmap := AxisMaps.blur_of_ofBlur_eq_ok hblur
    obtain ⟨-, hin, hout⟩ := AxisMap.sized_of_build_eq_ok (AxisMap.build_of_blur_eq_ok hmap)
    exact htables blur last hlast (hcentered blur.y hmap) (hout.trans hin.symm)

end Resize

-- An image of one pixel, made six of by a box of one sample
namespace Speck

def image : MemoryImage := ⟨.bgra64, 1, 1, 8, #[232, 3, 64, 156, 32, 78, 0, 64]⟩

theorem make_image : MemoryImage.make .bgra64 1 1 8 image.data = .ok image := rfl

def order (mask : Option UnsharpMask) : Resize := ⟨2, 3, .box, mask⟩

def mask (amount : Nat) : UnsharpMask := ⟨amount, 1.0, 3⟩

theorem validate_mask {amount : Nat} (h : amount ≤ 1000) : (mask amount).validate = .ok () := by
  unfold UnsharpMask.validate
  have hradius : ¬(!Float.isFinite 1.0 || (1.0 : Float) ≤ 0.0) = true := by decide +kernel
  exact guard_eq_ok_iff.mpr ⟨Nat.not_lt.mpr h, guard_eq_ok_iff.mpr ⟨hradius, rfl⟩⟩

def fit (count : Nat) : AxisMap.Fit := .make Interpolation.box.filter.support 1 count

theorem samples_fit (count : Nat) : (fit count).samples = 1 :=
  Nat.le_antisymm (AxisMap.Fit.samples_le _ _ Nat.one_pos) (AxisMap.Fit.samples_pos ..)

-- One sample, copied `count` times
def copies (count : Nat) : AxisMap Int :=
  ⟨1, count, 1, ((List.range count).map fun _ => ⟨0, [32768]⟩).toArray⟩

-- Whatever its weight is, a single tap is made up to one
theorem row_fit {count i : Nat} (hcount : count < 4) (hi : i < count) :
    (fit count).row Interpolation.box.filter.weight i =
      .ok (⟨0, [32768]⟩ : AxisMap.Row Int) := by
  have hsamples := samples_fit count
  have hanchor : (fit count).anchor i = 0 := by
    have hend := (fit count).anchor_add_samples_le i (Nat.le_of_eq hsamples)
    have hin : (fit count).inPixels = 1 := rfl
    omega
  have hnearest : (fit count).nearest i = 0 := by
    have hlt := (fit count).nearest_lt i (by omega)
    omega
  have htap : ∀ count < 4, ∀ i < count,
      AxisMap.tapWeight Interpolation.box.filter 1 count i 0 = 1.0 := by decide +kernel
  have hraw : (fit count).rawWeights Interpolation.box.filter.weight i = [1.0] := by
    unfold AxisMap.Fit.rawWeights
    rw [hsamples, hanchor]
    exact congrArg (fun weight => [weight]) (htap count hcount i hi)
  have hone : (Weight.represent [(1.0 : Float) / AxisMap.sum [1.0]] 0 : List Int) = [32768] := by
    show [FixedPoint.ofFloat _ + (32768 - (0 + FixedPoint.ofFloat _))] = [32768]
    congr 1
    omega
  refine bind_eq_ok_iff.mpr ⟨[1.0 / AxisMap.sum [1.0]], ?_, ?_⟩
  · rw [hraw]
    exact AxisMap.normalize_eq_ok (by decide +kernel) (by decide +kernel) (by decide +kernel) _
  · rw [hanchor, hnearest, hone]
    rfl

theorem build_eq_ok {count : Nat} (hpos : 0 < count) (hcount : count < 4) :
    AxisMap.build Interpolation.box.filter 1 count = .ok (copies count) := by
  have hsamples : (AxisMap.Fit.make Interpolation.box.filter.support 1 count).samples = 1 :=
    samples_fit count
  have hroom : 3 * 1 * 4 ≤ Word.maxAllocation ∧ 3 * AxisMap.anchorSize ≤ Word.maxAllocation := by
    decide
  have hsize : Weight.size Int = 4 := rfl
  unfold AxisMap.anchorSize at hroom
  rw [AxisMap.build_eq_ok_of_rows (by simp; omega) (by simp; omega) rfl (by decide +kernel)
    (by unfold AxisMap.anchorSize; omega) (by rw [hsamples, hsize]; omega)
    (fun i hi => row_fit hcount hi), hsamples]
  rfl

theorem exists_setUp : ∃ stage, (Resampler.resize image Interpolation.box.filter 2 3 Depot.shared
      .fresh).result = .ok stage ∧
    Resampler.SetUp image .bgra64 ⟨copies 2, copies 3⟩ none stage := by
  have hmaps : AxisMaps.ofFilter Interpolation.box.filter (ImageSource.width image)
      (ImageSource.height image) 2 3 = .ok (⟨copies 2, copies 3⟩ : AxisMaps Int) :=
    bind_eq_ok_iff.mpr ⟨copies 2, build_eq_ok (by decide) (by decide),
      bind_eq_ok_iff.mpr ⟨copies 3, build_eq_ok (by decide) (by decide), rfl⟩⟩
  have hassembled : ∃ stage, (Resampler.resize image Interpolation.box.filter 2 3 Depot.shared
      .fresh).result = .ok stage := by
    rw [Resampler.resize_eq_assemble (by decide) hmaps]
    exact Resampler.exists_assemble (by decide +kernel)
  obtain ⟨stage, hstage⟩ := hassembled
  obtain ⟨maps, hmade, hsetUp⟩ :=
    Resampler.exists_setUp_of_resize (show ImageSource.format image = .bgra64 from rfl) hstage
  cases hmaps.symm.trans hmade
  exact ⟨stage, hstage, hsetUp⟩

-- Tables of a blur over two columns and three rows
def blurred : AxisMaps Int where
  x := ⟨2, 2, 2, #[⟨0, [24576, 8192]⟩, ⟨0, [8192, 24576]⟩]⟩
  y := ⟨3, 3, 3, #[⟨0, [20480, 8192, 4096]⟩, ⟨0, [8192, 16384, 8192]⟩, ⟨0, [4096, 8192, 20480]⟩]⟩

def unsupported : Blank := ⟨⟨5, .byte, .none⟩, 0, 0⟩

end Speck

-- Three orders that are refused, each for a reason that comes before the next; and orders for the
-- one pixel, the first with a mask without strength, which may as well have its stage
theorem Resize.sets_up_stages_speck :
    Resize.applyTo ⟨2, 3, .lanczos 0, some (Speck.mask 5000)⟩ Speck.unsupported .fresh =
      ⟨.error (.badFilter .noLobes), .fresh, []⟩ ∧
    (Speck.order (some (Speck.mask 5000))).applyTo Speck.unsupported .fresh =
      ⟨.error (.badMask .amount), .fresh, []⟩ ∧
    (Speck.order (some (Speck.mask 50))).applyTo Speck.unsupported .fresh =
      ⟨.error (.unsupportedFormat ⟨5, .byte, .none⟩), .fresh, []⟩ ∧
    ∃ stage, ((Speck.order (some (Speck.mask 0))).applyTo Speck.image .fresh).result =
        .ok (.resized stage) ∧
      ((Speck.order (some (Speck.mask 50))).applyTo Speck.image .fresh).result =
        (Resampler.unsharp stage (Speck.mask 50) Depot.shared (Resampler.resize Speck.image
          Interpolation.box.filter 2 3 Depot.shared .fresh).depot).result.map .sharpened ∧
      Speck.blurred.x.Balanced ∧ Speck.blurred.y.Balanced ∧
      ∃ last, Resampler.SetUp stage .bgra64 Speck.blurred (some ⟨0, 3⟩) last ∧
        ∀ calls calls' call,
          let answer := ImageSource.answer (ImageSource.after stage calls) call
          let answer' := ImageSource.answer (ImageSource.after last calls') call
          answer.result = answer'.result ∧ answer.state = answer'.state := by
  have hbox : Interpolation.box.validate = .ok () := rfl
  have hvalid : ∀ amount ≤ 1000, ∀ mask, (Speck.order (some (Speck.mask amount))).mask = some mask →
      mask.validate = .ok () := by
    rintro amount hamount mask ⟨⟩
    exact Speck.validate_mask hamount
  obtain ⟨hfilter, -⟩ :=
    sets_up_stages ⟨2, 3, .lanczos 0, some (Speck.mask 5000)⟩ Speck.unsupported .fresh
  obtain ⟨-, hmask, -⟩ :=
    sets_up_stages (Speck.order (some (Speck.mask 5000))) Speck.unsupported .fresh
  obtain ⟨-, -, hformat, -⟩ :=
    sets_up_stages (Speck.order (some (Speck.mask 50))) Speck.unsupported .fresh
  obtain ⟨stage, hstage, hsetUp⟩ := Speck.exists_setUp
  obtain ⟨-, -, hsharp, -⟩ := sets_up_stages (Speck.order (some (Speck.mask 50))) Speck.image .fresh
  obtain ⟨-, -, hplain, hspared⟩ :=
    sets_up_stages (Speck.order (some (Speck.mask 0))) Speck.image .fresh
  have hzero : ∀ mask, (Speck.order (some (Speck.mask 0))).mask = some mask → mask.amount = 0 := by
    rintro mask ⟨⟩
    rfl
  obtain ⟨hidle, -⟩ := ((hplain hbox (hvalid 0 (by decide))).2 stage hstage).1 hzero
  obtain ⟨hboth, -⟩ :=
    ((hsharp hbox (hvalid 50 (by decide))).2 stage hstage).2 _ rfl (show 0 < 50 by decide)
  have hresult : ((Speck.order (some (Speck.mask 0))).applyTo Speck.image .fresh).result =
      .ok (.resized stage) := by rw [hidle]
  refine ⟨hfilter _ rfl, (hmask hbox _ rfl _ rfl).2, (hformat hbox (hvalid 50 (by decide))).1 _ rfl,
    stage, hresult, congrArg Construction.result hboth, by decide, by decide, ?_⟩
  obtain ⟨_, ⟨⟩, hspare⟩ := hspared _ rfl rfl _ hresult
  have hshows := MemoryImage.shows Speck.make_image
  have hreliable := MemoryImage.reliable Speck.make_image
  obtain ⟨K, hK, hbelow⟩ := hsetUp.exists_reliable hreliable rfl
  have hlast : ∃ last, Resampler.SetUp stage .bgra64 Speck.blurred (some ⟨0, 3⟩) last := by
    obtain ⟨hformat, hwidth, hheight⟩ := hsetUp.extent_stage
    exact Resampler.exists_setUp hformat (by decide)
      ⟨by decide, by decide, hwidth.symm, hheight.symm⟩ (fun _ => hwidth.symm) Depot.shared .fresh
      (by decide +kernel)
  obtain ⟨last, hlast⟩ := hlast
  refine ⟨last, hlast, fun calls calls' call => ?_⟩
  have hsame := (hspare _ Speck.image.picture hshows rfl (by decide) (by decide) _ _ _ hshows rfl
    _ _ _ hstage).2 _ last hlast (by decide) rfl
  exact hsame calls calls' call (hsetUp.pullsMet hreliable rfl calls call)
    (hlast.pullsMet hbelow hK calls' call)

end Resampling
