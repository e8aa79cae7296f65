import Resampling.Proofs.Accuracy
import Resampling.Proofs.Kernel.Settled

-- Averages do not overshoot. Under weights that are not negative and sum to one, output samples are
-- ordered as the samples below are, so that nothing leaves the range of its window.

namespace Resampling

open FixedPoint Kernel

namespace Kernel

variable {S W : Type} [LE S] {rx ry : AxisMap.Row W}

-- The window at both rows holds no value below `low` and none above `high`
def Between (value : Nat → Nat → S) (rx ry : AxisMap.Row W) (low high : S) : Prop :=
  ∀ j < rx.weights.length, ∀ k < ry.weights.length,
    low ≤ value (rx.anchor + j) (ry.anchor + k) ∧ value (rx.anchor + j) (ry.anchor + k) ≤ high

-- A window brought down to one value, by what orders windows and leaves constants alone
structure Averages (rx ry : AxisMap.Row W) (average : (Nat → Nat → S) → S) : Prop where
  mono : ∀ value value' : Nat → Nat → S,
    (∀ j < rx.weights.length, ∀ k < ry.weights.length,
      value (rx.anchor + j) (ry.anchor + k) ≤ value' (rx.anchor + j) (ry.anchor + k)) →
    average value ≤ average value'
  constant : ∀ v, (average fun _ _ => v) = v

theorem Averages.between {average : (Nat → Nat → S) → S} (h : Averages rx ry average)
    {value : Nat → Nat → S} {low high : S} (hvalue : Between value rx ry low high) :
    low ≤ average value ∧ average value ≤ high := by
  have hlow := h.mono (fun _ _ => low) value fun j hj k hk => (hvalue j hj k hk).1
  have hhigh := h.mono value (fun _ _ => high) fun j hj k hk => (hvalue j hj k hk).2
  rw [h.constant] at hlow hhigh
  exact ⟨hlow, hhigh⟩

variable {rx ry : AxisMap.Row Int}

theorem Byte.averages (hx : rx.Averaging) (hy : ry.Averaging) :
    Averages rx ry fun value => throughBoth gatherChannel blendChannel value rx ry where
  mono value value' h := by
    have hle : clamp 0 255 (rounded 8 22 (fun x y => (value x y).toNat) rx ry) ≤
        clamp 0 255 (rounded 8 22 (fun x y => (value' x y).toNat) rx ry) :=
      clamp_mono (rounded_mono 8 22 hx hy fun j hj k hk =>
        Int.ofNat_le.mpr (UInt8.le_iff_toNat_le.mp (h j hj k hk)))
    rw [← toNat_throughBoth, ← toNat_throughBoth] at hle
    exact UInt8.le_iff_toNat_le.mpr (Int.ofNat_le.mp hle)
  constant v :=
    throughBoth_of_settled (settled_of_forall_eq hx.balanced hy.balanced fun _ _ _ _ => rfl)

theorem Uq15.averages (hx : rx.Averaging) (hy : ry.Averaging) :
    Averages rx ry fun value => throughBoth gatherChannel blendColor value rx ry where
  mono value value' h := by
    have hle : clamp 0 sampleMax (rounded 15 15 (fun x y => (value x y).toNat) rx ry) ≤
        clamp 0 sampleMax (rounded 15 15 (fun x y => (value' x y).toNat) rx ry) :=
      clamp_mono (rounded_mono 15 15 hx hy fun j hj k hk =>
        Int.ofNat_le.mpr (UInt16.le_iff_toNat_le.mp (h j hj k hk)))
    rw [← toNat_throughBoth hx.mass_le hy.mass_le, ← toNat_throughBoth hx.mass_le hy.mass_le] at hle
    exact UInt16.le_iff_toNat_le.mpr (Int.ofNat_le.mp hle)
  constant v :=
    throughBoth_of_settled (settled_of_forall_eq hx.balanced hy.balanced fun _ _ _ _ => rfl)

theorem Uq15.cap_mono (a b : UInt16) (h : a ≤ b) : min a 32768 ≤ min b 32768 :=
  Std.le_min_iff.mpr ⟨UInt16.le_trans Std.min_le_left h, Std.min_le_right⟩

end Kernel

namespace Picture

-- No sample exceeds the sample at its place in the other image
def Below (image : Picture) (S : Type) [Element S] [LE S] (n : Nat) (other : Picture) : Prop :=
  ∀ x < image.width, ∀ y < image.height, ∀ c : Fin n,
    (image.pixel S n x y).get c ≤ (other.pixel S n x y).get c

-- Channel `c` nowhere exceeds channel `d`
def Ordered {n : Nat} (image : Picture) (S : Type) [Element S] [LE S] (c d : Fin n) : Prop :=
  ∀ x < image.width, ∀ y < image.height,
    (image.pixel S n x y).get c ≤ (image.pixel S n x y).get d

end Picture

namespace Resampler

variable {σ τ : Type} [ImageSource σ] [ImageSource τ] {I : σ → Prop} {J : τ → Prop}
  {image other : Picture} {source : σ} {twin : τ}

namespace SetUp

variable {n : Nat} {kind : SampleKind} {alpha : AlphaMode} {maps : AxisMaps kind.Weights}
  {stage : Resampler σ} {stage' : Resampler τ} {rx ry : AxisMap.Row kind.Weights} {x y : Nat}

-- Without straight alpha a resized image is known channel by channel
theorem get_separated (h : SetUp source ⟨n, kind, alpha⟩ maps none stage) (hshows : Shows I image)
    (hsource : I source) (halpha : alpha ≠ .straight) (hrx : maps.x.rows[x]? = some rx)
    (hry : maps.y.rows[y]? = some ry) (c : Fin n) :
    ((stage.picture image).pixel kind.Sample n x y).get c =
      let sample := throughBoth kind.gatherChannel kind.blendColor
        (fun x y => (image.pixel kind.Sample n x y).get c) rx ry
      if c < alpha.colors n then sample else kind.cap sample := by
  have hchannel := RowKernel.separates_ofFormat h.supported (c := c)
    fun hstraight => absurd hstraight halpha
  have hpixel : (stage.picture image).pixel kind.Sample n x y = _ :=
    h.pixel_picture hshows hsource hrx hry
  rw [hpixel, RowKernel.finish, hchannel.get_outputPixel]
  rfl

variable [LE kind.Sample]

theorem below_of_averages (h : SetUp source ⟨n, kind, alpha⟩ maps none stage)
    (hshows : Shows I image) (hsource : I source)
    (h' : SetUp twin ⟨n, kind, alpha⟩ maps none stage') (hshows' : Shows J other) (htwin : J twin)
    (halpha : alpha ≠ .straight)
    (haverages : ∀ rx ∈ maps.x.rows, ∀ ry ∈ maps.y.rows,
      Averages rx ry fun value => throughBoth kind.gatherChannel kind.blendColor value rx ry)
    (hcap : ∀ a b : kind.Sample, a ≤ b → kind.cap a ≤ kind.cap b)
    (hbelow : image.Below kind.Sample n other) :
    (stage.picture image).Below kind.Sample n (stage'.picture other) := by
  obtain ⟨-, hwidth, hheight⟩ := h.extent_picture image
  intro x hx y hy c
  obtain ⟨rx, hrx, hrxMem, -⟩ := h.suit.x.row_eq (hwidth ▸ hx)
  obtain ⟨ry, hry, hryMem, -⟩ := h.suit.y.row_eq (hheight ▸ hy)
  have hle := (haverages rx hrxMem ry hryMem).mono
    (fun x y => (image.pixel kind.Sample n x y).get c)
    (fun x y => (other.pixel kind.Sample n x y).get c) fun j hj k hk =>
      hbelow _ (h.column_lt hshows hsource hrxMem hj) _ (h.row_lt hshows hsource hryMem hk) c
  rw [h.get_separated hshows hsource halpha hrx hry, h'.get_separated hshows' htwin halpha hrx hry]
  simp only
  split
  · exact hle
  · exact hcap _ _ hle

theorem between_of_averages (h : SetUp source ⟨n, kind, alpha⟩ maps none stage)
    (hshows : Shows I image) (hsource : I source) (halpha : alpha ≠ .straight)
    (hrx : maps.x.rows[x]? = some rx) (hry : maps.y.rows[y]? = some ry)
    (haverages : Averages rx ry fun value =>
      throughBoth kind.gatherChannel kind.blendColor value rx ry)
    (hcap : ∀ a b : kind.Sample, a ≤ b → kind.cap a ≤ kind.cap b) {c : Fin n}
    {low high : kind.Sample}
    (hbetween : Between (fun x y => (image.pixel kind.Sample n x y).get c) rx ry low high) :
    let out := ((stage.picture image).pixel kind.Sample n x y).get c
    if c < alpha.colors n then low ≤ out ∧ out ≤ high
    else kind.cap low ≤ out ∧ out ≤ kind.cap high := by
  obtain ⟨hlow, hhigh⟩ := haverages.between hbetween
  rw [h.get_separated hshows hsource halpha hrx hry]
  by_cases hc : c.val < alpha.colors n
  · simp only [hc, if_true]
    exact ⟨hlow, hhigh⟩
  · simp only [hc, if_false]
    exact ⟨hcap _ _ hlow, hcap _ _ hhigh⟩

-- Where the cap takes nothing off alpha
theorem ordered_of_averages (h : SetUp source ⟨n, kind, alpha⟩ maps none stage)
    (hshows : Shows I image) (hsource : I source) (halpha : alpha ≠ .straight) {c a : Fin n}
    (hc : c.val < alpha.colors n) (ha : ¬a.val < alpha.colors n)
    (haverages : ∀ rx ∈ maps.x.rows, ∀ ry ∈ maps.y.rows,
      Averages rx ry fun value => throughBoth kind.gatherChannel kind.blendColor value rx ry)
    (hcap : ∀ rx ∈ maps.x.rows, ∀ ry ∈ maps.y.rows,
      let out := throughBoth kind.gatherChannel kind.blendColor
        (fun x y => (image.pixel kind.Sample n x y).get a) rx ry
      kind.cap out = out)
    (hordered : image.Ordered kind.Sample c a) :
    (stage.picture image).Ordered kind.Sample c a := by
  obtain ⟨-, hwidth, hheight⟩ := h.extent_picture image
  intro x hx y hy
  obtain ⟨rx, hrx, hrxMem, -⟩ := h.suit.x.row_eq (hwidth ▸ hx)
  obtain ⟨ry, hry, hryMem, -⟩ := h.suit.y.row_eq (hheight ▸ hy)
  have hle := (haverages rx hrxMem ry hryMem).mono
    (fun x y => (image.pixel kind.Sample n x y).get c)
    (fun x y => (image.pixel kind.Sample n x y).get a) fun j hj k hk =>
      hordered _ (h.column_lt hshows hsource hrxMem hj) _ (h.row_lt hshows hsource hryMem hk)
  have hcolor := h.get_separated hshows hsource halpha hrx hry c
  have hshown := h.get_separated hshows hsource halpha hrx hry a
  simp only [hc, if_true] at hcolor
  simp only [ha, if_false, hcap rx hrxMem ry hryMem] at hshown
  rw [hcolor, hshown]
  exact hle

end SetUp

-- Averaging keeps images in order, and every sample in the range of its window; so that color does
-- not come to exceed the alpha it was multiplied by
theorem keeps_order (hshows : Shows I image) (hsource : I source) (hshows' : Shows J other)
    (htwin : J twin) {n : Nat} {alpha : AlphaMode} (halpha : alpha ≠ .straight)
    {maps : AxisMaps Int} (hx : maps.x.Averaging) (hy : maps.y.Averaging) (stage : Resampler σ) :
    (SetUp source ⟨n, .byte, alpha⟩ maps none stage →
      stage.Yields I image ∧
      (∀ stage', SetUp twin ⟨n, .byte, alpha⟩ maps none stage' →
        image.Below UInt8 n other →
          (stage.picture image).Below UInt8 n (stage'.picture other)) ∧
      (∀ x y rx ry, maps.x.rows[x]? = some rx → maps.y.rows[y]? = some ry →
        ∀ c low high, Between (fun x y => (image.pixel UInt8 n x y).get c) rx ry low high →
          let out := ((stage.picture image).pixel UInt8 n x y).get c
          low ≤ out ∧ out ≤ high) ∧
      ∀ c a : Fin n, c < alpha.colors n → ¬a < alpha.colors n → image.Ordered UInt8 c a →
        (stage.picture image).Ordered UInt8 c a) ∧
    (SetUp source ⟨n, .uq15, alpha⟩ maps none stage →
      stage.Yields I image ∧
      (∀ stage', SetUp twin ⟨n, .uq15, alpha⟩ maps none stage' →
        image.Below UInt16 n other →
          (stage.picture image).Below UInt16 n (stage'.picture other)) ∧
      (∀ x y rx ry, maps.x.rows[x]? = some rx → maps.y.rows[y]? = some ry →
        ∀ c low high, Between (fun x y => (image.pixel UInt16 n x y).get c) rx ry low high →
          let out := ((stage.picture image).pixel UInt16 n x y).get c
          if c < alpha.colors n then low ≤ out ∧ out ≤ high
          else min low 32768 ≤ out ∧ out ≤ min high 32768) ∧
      ∀ c a : Fin n, c < alpha.colors n → ¬a < alpha.colors n → image.Ordered UInt16 c a →
        (∀ x < image.width, ∀ y < image.height, (image.pixel UInt16 n x y).get a ≤ 32768) →
          (stage.picture image).Ordered UInt16 c a) := by
  constructor
  · intro h
    have haverages : ∀ rx ∈ maps.x.rows, ∀ ry ∈ maps.y.rows, Averages rx ry fun value =>
        throughBoth Byte.gatherChannel Byte.blendChannel value rx ry :=
      fun rx hrx ry hry => Byte.averages (hx rx hrx) (hy ry hry)
    refine ⟨h.yields hshows hsource, ?_, ?_, ?_⟩
    · intro stage' h' hbelow
      exact h.below_of_averages hshows hsource h' hshows' htwin halpha haverages
        (fun _ _ hle => hle) hbelow
    · intro x y rx ry hrx hry c low high hbetween
      have hout := h.between_of_averages hshows hsource halpha hrx hry
        (haverages rx (Array.mem_of_getElem? hrx) ry (Array.mem_of_getElem? hry))
        (fun _ _ hle => hle) hbetween
      exact (ite_self _).mp hout
    · intro c a hc ha hordered
      exact h.ordered_of_averages hshows hsource halpha hc ha haverages (fun _ _ _ _ => rfl)
        hordered
  · intro h
    have haverages : ∀ rx ∈ maps.x.rows, ∀ ry ∈ maps.y.rows, Averages rx ry fun value =>
        throughBoth Uq15.gatherChannel Uq15.blendColor value rx ry :=
      fun rx hrx ry hry => Uq15.averages (hx rx hrx) (hy ry hry)
    refine ⟨h.yields hshows hsource, ?_, ?_, ?_⟩
    · intro stage' h' hbelow
      exact h.below_of_averages hshows hsource h' hshows' htwin halpha haverages Uq15.cap_mono
        hbelow
    · intro x y rx ry hrx hry c low high hbetween
      exact h.between_of_averages hshows hsource halpha hrx hry
        (haverages rx (Array.mem_of_getElem? hrx) ry (Array.mem_of_getElem? hry)) Uq15.cap_mono
        hbetween
    · intro c a hc ha hordered hone
      refine h.ordered_of_averages hshows hsource halpha hc ha haverages ?_ hordered
      intro rx hrx ry hry
      have hle := (haverages rx hrx ry hry).mono
        (fun x y => (image.pixel UInt16 n x y).get a) (fun _ _ => 32768) fun j hj k hk =>
          hone _ (h.column_lt hshows hsource hrx hj) _ (h.row_lt hshows hsource hry hk)
      rw [(haverages rx hrx ry hry).constant] at hle
      exact Std.min_eq_if.trans (if_pos hle)

end Resampler

-- Premultiplied pixels, two each way, and the same with more light
namespace Dimmed

def map : AxisMap Int := ⟨2, 2, 2, #[⟨0, [24576, 8192]⟩, ⟨0, [8192, 24576]⟩]⟩

def bytes (light : UInt8) : MemoryImage :=
  ⟨.pbgra32, 2, 2, 8, #[light, 20, 30, 40, 0, 0, light, 40, 255, 254, 253, 255, light, 6, 5, 90]⟩

def words (light : UInt8) : MemoryImage :=
  ⟨.pbgra64, 2, 2, 16, #[light, 64, 0, 128, 1, 64, 0, 128, 0, 0, light, 0, 0, 0, 40, 0,
    255, 3, 254, 3, 253, 3, 255, 3, light, 20, 6, 20, 5, 20, 90, 20]⟩

theorem shows_bytes (light : UInt8) : Shows (· = bytes light) (bytes light).picture :=
  MemoryImage.shows
    (show MemoryImage.make .pbgra32 2 2 8 (bytes light).data = .ok (bytes light) from rfl)

theorem shows_words (light : UInt8) : Shows (· = words light) (words light).picture :=
  MemoryImage.shows
    (show MemoryImage.make .pbgra64 2 2 16 (words light).data = .ok (words light) from rfl)

theorem averaging_map : map.Averaging := by decide

theorem exists_setUp_bytes (light : UInt8) :
    ∃ stage, Resampler.SetUp (bytes light) .pbgra32 ⟨map, map⟩ none stage :=
  Resampler.exists_setUp rfl (by decide) ⟨by decide, by decide, rfl, rfl⟩ (by simp) Depot.shared
    .fresh (by decide +kernel)

theorem exists_setUp_words (light : UInt8) :
    ∃ stage, Resampler.SetUp (words light) .pbgra64 ⟨map, map⟩ none stage :=
  Resampler.exists_setUp rfl (by decide) ⟨by decide, by decide, rfl, rfl⟩ (by simp) Depot.shared
    .fresh (by decide +kernel)

end Dimmed

theorem Resampler.keeps_order_dimmed :
    (∃ stage stage', SetUp (Dimmed.bytes 1) .pbgra32 ⟨Dimmed.map, Dimmed.map⟩ none stage ∧
      SetUp (Dimmed.bytes 39) .pbgra32 ⟨Dimmed.map, Dimmed.map⟩ none stage' ∧
      (stage.picture (Dimmed.bytes 1).picture).Below UInt8 4
        (stage'.picture (Dimmed.bytes 39).picture) ∧
      (let out := ((stage.picture (Dimmed.bytes 1).picture).pixel UInt8 4 0 0).get 3
      40 ≤ out ∧ out ≤ 255) ∧
      (stage.picture (Dimmed.bytes 1).picture).Ordered UInt8 (0 : Fin 4) 3) ∧
    ∃ stage stage', SetUp (Dimmed.words 1) .pbgra64 ⟨Dimmed.map, Dimmed.map⟩ none stage ∧
      SetUp (Dimmed.words 39) .pbgra64 ⟨Dimmed.map, Dimmed.map⟩ none stage' ∧
      (stage.picture (Dimmed.words 1).picture).Below UInt16 4
        (stage'.picture (Dimmed.words 39).picture) ∧
      (let out := ((stage.picture (Dimmed.words 1).picture).pixel UInt16 4 0 0).get 3
      min 40 32768 ≤ out ∧ out ≤ min 32768 32768) ∧
      (stage.picture (Dimmed.words 1).picture).Ordered UInt16 (0 : Fin 4) 3 := by
  constructor
  · obtain ⟨stage, h⟩ := Dimmed.exists_setUp_bytes 1
    obtain ⟨stage', h'⟩ := Dimmed.exists_setUp_bytes 39
    obtain ⟨-, hbelow, hbetween, hordered⟩ := (keeps_order (Dimmed.shows_bytes 1) rfl
      (Dimmed.shows_bytes 39) rfl (by decide) Dimmed.averaging_map Dimmed.averaging_map stage).1 h
    refine ⟨stage, stage', h, h', hbelow stage' h' ?_, hbetween 0 0 _ _ rfl rfl 3 40 255 ?_,
      hordered 0 3 (by decide) (by decide) ?_⟩
    · unfold Picture.Below
      decide +kernel
    · unfold Between
      decide +kernel
    · unfold Picture.Ordered
      decide +kernel
  · obtain ⟨stage, h⟩ := Dimmed.exists_setUp_words 1
    obtain ⟨stage', h'⟩ := Dimmed.exists_setUp_words 39
    obtain ⟨-, hbelow, hbetween, hordered⟩ := (keeps_order (Dimmed.shows_words 1) rfl
      (Dimmed.shows_words 39) rfl (by decide) Dimmed.averaging_map Dimmed.averaging_map stage).2 h
    refine ⟨stage, stage', h, h', hbelow stage' h' ?_, hbetween 0 0 _ _ rfl rfl 3 40 32768 ?_,
      hordered 0 3 (by decide) (by decide) ?_ (by decide +kernel)⟩
    · unfold Picture.Below
      decide +kernel
    · unfold Between
      decide +kernel
    · unfold Picture.Ordered
      decide +kernel

end Resampling
