import Resampling.Proofs.Window.Contents

-- How the window moves. Whatever it held, after a move to an anchor it holds the rows from
-- there on, and it has asked for exactly those rows that it did not hold before.

namespace Resampling

variable {n : Nat} {S W T : Type} [Element S] {plan : Plan n S W T} {window : Window n T}

namespace Window

-- How many slots are still wanted when a window moves from `start` to `anchor`
def kept (start : Option Nat) (taps anchor : Nat) : Nat :=
  match start with
  | none => 0
  | some start => if anchor < start then 0 else taps - (anchor - start)

-- The rows that a window lacks when it moves from `start` to `anchor`
def missing (start : Option Nat) (taps anchor : Nat) : List Nat :=
  List.range' (anchor + kept start taps anchor) (taps - kept start taps anchor)

theorem kept_le (start : Option Nat) (taps anchor : Nat) : kept start taps anchor ≤ taps := by
  unfold kept
  split
  · omega
  · split <;> omega

-- The signed arithmetic stays in range and tells how many slots are given up
theorem shift_eq (window : Window n T) {taps anchor : Nat} (htaps : taps < 0x1_0000_0000)
    (hanchor : anchor < 0x1_0000_0000)
    (hstart : ∀ start, window.start = some start → start < 0x1_0000_0000) :
    window.shift taps anchor = .ok (taps - kept window.start taps anchor) := by
  have hroom : 0x2_0000_0000 < Word.signedLimit := by decide
  unfold shift signedStart
  rw [Span.signed_eq_ok (by omega) (by omega), Span.signed_eq_ok (by omega) (by omega)]
  simp only [bind, Except.bind, pure, Except.pure]
  cases hwindow : window.start with
  | none =>
    simp only
    rw [if_neg (by omega), Span.signed_eq_ok (by omega) (by omega)]
    simp only [kept, Except.ok.injEq]
    omega
  | some start =>
    have hlt := hstart start hwindow
    simp only
    by_cases hback : anchor < start
    · rw [if_pos (by omega), Span.signed_eq_ok (by omega) (by omega)]
      simp only
      rw [Span.signed_eq_ok (by omega) (by omega)]
      simp only [kept, if_pos hback, Except.ok.injEq]
      omega
    · rw [if_neg (by omega), Span.signed_eq_ok (by omega) (by omega)]
      simp only [kept, if_neg hback, Except.ok.injEq]
      omega

end Window

namespace Plan

-- The window moved down by `shift` slots
def slid (plan : Plan n S W T) (window : Window n T) (shift : Nat) : Window n T :=
  { window with
    slots := Span.moveDown window.slots shift
    lines := if plan.sharpening.isSome then
        Span.moveDown window.lines (shift * plan.rowBytes)
      else window.lines }

theorem fits_slid (hfits : window.Fits plan) (shift : Nat) :
    (plan.slid window shift).Fits plan where
  size_slots := by rw [slid, Span.size_moveDown, hfits.size_slots]
  size_lines := by
    by_cases hsharpen : plan.sharpening.isSome
    · rw [slid, if_pos hsharpen, Span.size_moveDown, hfits.size_lines]
    · rw [slid, if_neg hsharpen, hfits.size_lines]
  start_le := hfits.start_le

-- Columns keep their places relative to the block that moves, and so do source rows
theorem keeps_slid (hsound : plan.Sound) (hfits : window.Fits plan) {shift slot : Nat}
    (hslot : slot + shift < plan.taps) {line : Array UInt8}
    (h : window.Keeps plan (slot + shift) line) :
    (plan.slid window shift).Keeps plan slot line where
  column x hx := by
    have hend := plan.column_le (hsound.xmap.size_rows ▸ hx)
    rw [slid, Span.getElem?_moveDown _ _ _ (by rw [hfits.size_slots]; omega), Nat.add_assoc]
    exact h.column x hx
  line hsharpen := by
    have hrows : plan.lineRows = plan.taps := by rw [lineRows, if_pos hsharpen]
    have hle := Nat.mul_le_mul_right plan.rowBytes hslot
    rw [Nat.succ_mul, Nat.add_mul] at hle
    have hmove := Span.extract_moveDown window.lines (shift * plan.rowBytes)
      (slot * plan.rowBytes) (slot * plan.rowBytes + plan.rowBytes)
      (by rw [hfits.size_lines, hrows]; omega)
    have hline := h.line hsharpen
    rw [Nat.add_mul] at hline
    rw [slid, if_pos hsharpen, hmove, Nat.add_right_comm, hline]

-- A window that keeps some of its slots can be moved
theorem slide_eq (hsound : plan.Sound) (hfits : window.Fits plan) {shift : Nat} (hpos : 0 < shift)
    (hshift : shift < plan.taps) : plan.slide window shift = .ok (plan.slid window shift) := by
  have hslots : plan.taps ≤ window.slots.size := by
    rw [hfits.size_slots]
    exact Nat.le_mul_of_pos_left _ hsound.xmap.outPixels_pos
  have hcheck : Span.check n shift 0 window.slots.size = .ok () := by
    have hle := Nat.mul_le_mul_right n (Nat.le_of_lt (Nat.lt_of_lt_of_le hshift hslots))
    rw [hfits.size_slots] at hle
    rw [Span.check_eq_ok_iff, Nat.add_zero]
    exact ⟨by omega, Nat.lt_of_le_of_lt hle hsound.slots_lt⟩
  rw [slide, if_neg (by omega), hcheck]
  by_cases hsharpen : plan.sharpening.isSome
  · have hlines : Span.check 1 (shift * plan.rowBytes) 0 window.lines.size = .ok () := by
      have hle := Nat.mul_le_mul_right plan.rowBytes (Nat.le_of_lt hshift)
      have hlt := hsound.lines_lt
      rw [lineRows, if_pos hsharpen] at hlt
      rw [Span.check_eq_ok_iff, hfits.size_lines, lineRows, if_pos hsharpen]
      omega
    simp only [bind, Except.bind, slid, if_pos hsharpen, hlines]
    rfl
  · simp only [bind, Except.bind, slid, if_neg hsharpen]
    rfl

-- Moving by `shift` slots never leaves the buffers, and each slot keeps what the one `shift`
-- further on kept
theorem slide_spec (hsound : plan.Sound) (hfits : window.Fits plan) (shift : Nat) :
    ∃ moved, plan.slide window shift = .ok moved ∧ moved.Fits plan ∧
      ∀ slot line, slot + shift < plan.taps → window.Keeps plan (slot + shift) line →
        moved.Keeps plan slot line := by
  by_cases hstay : shift = 0 ∨ plan.taps ≤ shift
  · refine ⟨window, by rw [slide, if_pos hstay]; rfl, hfits, fun slot line hslot hkeeps => ?_⟩
    have hzero : shift = 0 := by omega
    rwa [hzero, Nat.add_zero] at hkeeps
  · exact ⟨plan.slid window shift, slide_eq hsound hfits (by omega) (by omega),
      fits_slid hfits shift, fun _ _ hslot hkeeps => keeps_slid hsound hfits hslot hkeeps⟩

-- A window on its way to an anchor already has the first of the rows from there on, where the
-- slots that it keeps are moved to
theorem slide_filled {Row : Nat → Array UInt8 → Prop} (hsound : plan.Sound)
    (hfits : window.Fits plan) (hholds : window.Holds plan Row) (anchor : Nat) :
    ∃ moved,
      plan.slide window (plan.taps - Window.kept window.start plan.taps anchor) = .ok moved ∧
      moved.Fits plan ∧
      moved.Filled plan Row anchor (Window.kept window.start plan.taps anchor) := by
  obtain ⟨moved, hmoved, hmovedFits, hkeeps⟩ :=
    slide_spec hsound hfits (plan.taps - Window.kept window.start plan.taps anchor)
  refine ⟨moved, hmoved, hmovedFits, fun slot hslot => ?_⟩
  cases hstart : window.start with
  | none =>
    rw [hstart, Window.kept] at hslot
    omega
  | some start =>
    rw [hstart, Window.kept] at hslot hkeeps
    by_cases hback : anchor < start
    · rw [if_pos hback] at hslot
      omega
    · rw [if_neg hback] at hslot hkeeps
      have hdistance : plan.taps - (plan.taps - (anchor - start)) = anchor - start := by omega
      have hsame : start + (slot + (anchor - start)) = anchor + slot := by omega
      obtain ⟨line, hrow, hline⟩ := hholds start hstart (slot + (anchor - start)) (by omega)
      rw [hsame] at hrow
      rw [hdistance] at hkeeps
      exact ⟨line, hrow, hkeeps slot line (by omega) hline⟩

theorem putSlot_eq (hsound : plan.Sound) (hfits : window.Fits plan) {slot : Nat}
    (hslot : slot < plan.taps) (line : Array UInt8) :
    plan.putSlot window.slots slot (plan.filtered line) =
      .ok (Span.scatter window.slots slot plan.taps (plan.filtered line).toList) := by
  unfold putSlot
  rw [if_pos]
  refine ⟨hslot, ?_, ?_⟩
  · exact Nat.le_of_eq (by rw [size_filtered, hsound.xmap.size_rows, hfits.size_slots])
  · rw [hfits.size_slots]
    exact hsound.slots_lt

variable {σ : Type} [ImageSource σ]

-- A source that answers pulls of single rows as told: while `P` holds of it and of the rows
-- pulled so far, a pull of row `y` that succeeds delivers bytes for which `Row` holds, and one
-- that fails gives an error for which `E` holds.
def Serves (plan : Plan n S W T) (P : List Nat → σ → Prop) (Row : Nat → Array UInt8 → Prop)
    (E : Error → σ → Prop) : Prop :=
  ∀ ys source y, P ys source → y < plan.ymap.inPixels →
    ∀ {length : Nat} (buffer : Vector UInt8 length), length = plan.rowBytes →
      (ImageSource.copyRect source ⟨0, y, plan.xmap.inPixels, 1⟩ plan.rowBytes buffer).Satisfies
        (fun source line => P (ys ++ [y]) source ∧ Row y line.toArray) fun e source _ => E e source

variable {P : List Nat → σ → Prop} {Row : Nat → Array UInt8 → Prop} {E : Error → σ → Prop}

-- A pull asks for one row. It fails as the source does, and else stores what came.
theorem pull_eq (hsound : plan.Sound) (hfits : window.Fits plan) {anchor slot : Nat}
    (hslot : slot < plan.taps) (hrow : anchor + slot < plan.ymap.inPixels) (source : σ) :
    ∃ (length : Nat) (buffer : Vector UInt8 length), length = plan.rowBytes ∧
      let outcome := ImageSource.copyRect source ⟨0, anchor + slot, plan.xmap.inPixels, 1⟩
        plan.rowBytes buffer
      let pulled := plan.pull anchor slot source window
      pulled.source = outcome.source ∧ pulled.result = outcome.result ∧
        pulled.state.Fits plan ∧
        (outcome.result = .ok () →
          pulled.state = plan.store window slot outcome.state.toArray) := by
  have hposition := plan.linePosition_add_le hslot
  have hlines := hsound.lines_lt
  have hsize : (window.lines.extract (plan.linePosition slot)
      (plan.linePosition slot + plan.rowBytes)).size = plan.rowBytes := by
    rw [Array.size_extract, hfits.size_lines]
    omega
  have hread : Span.read 1 window.lines (plan.linePosition slot) plan.rowBytes =
      .ok (window.lines.extract (plan.linePosition slot)
        (plan.linePosition slot + plan.rowBytes)) := by
    rw [Span.read_eq_ok_iff, hfits.size_lines]
    exact ⟨⟨hposition, by omega⟩, rfl⟩
  have hword : Span.word (anchor + slot) = .ok (anchor + slot) := by
    have hlt := hsound.ymap.inPixels_lt
    exact Span.word_eq_ok (by unfold Word.limit; omega)
  refine ⟨_, (window.lines.extract (plan.linePosition slot)
    (plan.linePosition slot + plan.rowBytes)).toVector, hsize, ?_⟩
  unfold pull
  simp only [hword, hread, bind, Except.bind, pure, Except.pure]
  generalize ImageSource.copyRect source _ _ _ = outcome
  have hoverwritten : (Span.overwrite window.lines (plan.linePosition slot)
      outcome.state.toArray).size = plan.lineRows * plan.rowBytes := by
    rw [Span.size_overwrite, hfits.size_lines]
  cases hresult : outcome.result with
  | error e =>
    exact ⟨rfl, rfl, ⟨hfits.size_slots, hoverwritten, hfits.start_le⟩, fun h => by cases h⟩
  | ok =>
    have hfilter : plan.filterRow (Element.decodeRow (Vector S n) plan.xmap.inPixels
        outcome.state.toArray 0) = .ok (plan.filtered outcome.state.toArray) :=
      hsound.filterRow_eq outcome.state.toArray
    rw [hfilter]
    simp only
    rw [putSlot_eq hsound hfits hslot]
    exact ⟨rfl, rfl, hfits.store slot outcome.state.toArray, fun _ => rfl⟩

theorem pull_satisfies (hsound : plan.Sound) (hserves : plan.Serves P Row E)
    (hfits : window.Fits plan) {anchor slot : Nat} (hslot : slot < plan.taps)
    (hrow : anchor + slot < plan.ymap.inPixels) {source : σ} {ys : List Nat} (h : P ys source) :
    (plan.pull anchor slot source window).Satisfies
      (fun source moved => P (ys ++ [anchor + slot]) source ∧
        ∃ line, Row (anchor + slot) line ∧ line.size = plan.rowBytes ∧
          moved = plan.store window slot line)
      fun e source moved => E e source ∧ moved.Fits plan := by
  obtain ⟨length, buffer, hlength, hsource, hresult, hafter, hstored⟩ :=
    pull_eq hsound hfits hslot hrow source
  have hpulled := hserves ys source (anchor + slot) h hrow buffer hlength
  generalize ImageSource.copyRect source _ _ _ = outcome at hsource hresult hstored hpulled
  cases hcame : outcome.result with
  | error e =>
    refine Outcome.satisfies_of_error (hresult.trans hcame) ⟨?_, hafter⟩
    rw [hsource]
    exact hpulled.of_error hcame
  | ok =>
    obtain ⟨hp, hdelivered⟩ := hpulled.of_ok hcame
    refine Outcome.satisfies_of_ok (hresult.trans hcame) ⟨?_, outcome.state.toArray, hdelivered,
      by simp [hlength], hstored hcame⟩
    rw [hsource]
    exact hp

-- Pulls into slots from `kept` on, one after the other. After `k` of them the first `kept + k`
-- slots are filled.
theorem fill_satisfies (hsound : plan.Sound) (hserves : plan.Serves P Row E)
    {anchor kept count : Nat} (hfits : window.Fits plan) (hstart : window.start = some anchor)
    (hfilled : window.Filled plan Row anchor kept) (hcount : kept + count ≤ plan.taps) {source : σ}
    {ys : List Nat} (h : P ys source) :
    (Outcome.forEach (plan.pull anchor) (List.range' kept count) source window).Satisfies
      (fun source full => P (ys ++ List.range' (anchor + kept) count) source ∧
        full.Fits plan ∧ full.start = some anchor ∧ full.Filled plan Row anchor (kept + count))
      fun e source full => E e source ∧ full.Fits plan := by
  have hanchor := hfits.start_le anchor hstart
  have hloop := Outcome.satisfies_forEach
    (P := fun k source (window : Window n T) =>
      P (ys ++ List.range' (anchor + kept) k) source ∧ window.Fits plan ∧
        window.start = some anchor ∧ window.Filled plan Row anchor (kept + k))
    (E := fun e source (window : Window n T) => E e source ∧ window.Fits plan)
    (plan.pull anchor) (List.range' kept count) source window
    (fun k hk source window ⟨hp, hfits, hstart, hfilled⟩ => by
      rw [List.length_range'] at hk
      rw [List.getElem_range', Nat.one_mul]
      have hpull := pull_satisfies hsound hserves hfits
        (show kept + k < plan.taps by omega)
        (show anchor + (kept + k) < plan.ymap.inPixels by omega) hp
      refine hpull.mono (fun source after hafter => ?_) fun e source after he => he
      obtain ⟨hp, line, hrow, hsize, rfl⟩ := hafter
      refine ⟨?_, hfits.store _ _, hstart, ?_⟩
      · rw [List.range'_concat, Nat.one_mul, ← List.append_assoc, Nat.add_assoc]
        exact hp
      · intro slot hslot
        by_cases heq : slot = kept + k
        · rw [heq]
          exact ⟨line, hrow, Window.keeps_store hsound hfits (by omega) hsize⟩
        · obtain ⟨old, hold, hkeeps⟩ := hfilled slot (by omega)
          exact ⟨old, hold, hkeeps.store (by omega) (by omega) heq hsize⟩)
    ⟨by simpa using h, hfits, hstart, hfilled⟩
  rwa [List.length_range'] at hloop

-- A move to an anchor is pulls into the slots that it could not keep
theorem load_eq (hsound : plan.Sound) (hfits : window.Fits plan) (hholds : window.Holds plan Row)
    {anchor : Nat} (hanchor : anchor + plan.taps ≤ plan.ymap.inPixels) (source : σ) :
    let kept := Window.kept window.start plan.taps anchor
    ∃ ready : Window n T, ready.Fits plan ∧ ready.start = some anchor ∧
      ready.Filled plan Row anchor kept ∧
      let outcome := Outcome.forEach (plan.pull anchor) (List.range' kept (plan.taps - kept)) source
        ready
      let loaded := plan.load anchor source window
      loaded.source = outcome.source ∧ loaded.result = outcome.result ∧
        loaded.state = { outcome.state with
          start := match outcome.result with
            | .error _ => none
            | .ok () => some anchor } := by
  have hlt := hsound.ymap.inPixels_lt
  have hkept := Window.kept_le window.start plan.taps anchor
  have hshift : window.shift plan.taps anchor =
      .ok (plan.taps - Window.kept window.start plan.taps anchor) := by
    apply window.shift_eq (by omega) (by omega)
    intro start hstart
    have hle := hfits.start_le start hstart
    omega
  have ⟨moved, hmoved, hmovedFits, hfilled⟩ := slide_filled hsound hfits hholds anchor
  have hready : Window.Fits { moved with start := some anchor } plan :=
    ⟨hmovedFits.size_slots, hmovedFits.size_lines, fun start hstart => by
      cases hstart
      exact hanchor⟩
  refine ⟨{ moved with start := some anchor }, hready, rfl, hfilled.of_start _, ?_⟩
  unfold load
  rw [hshift]
  simp only [bind, Except.bind, pure, Except.pure, hmoved]
  rw [Nat.sub_sub_self hkept]
  exact ⟨rfl, rfl, rfl⟩

-- It asks for the missing rows, in order. If all come, the window holds the rows from the anchor
-- on; if one does not come, the window holds nothing.
theorem load_satisfies (hsound : plan.Sound) (hserves : plan.Serves P Row E)
    (hfits : window.Fits plan) (hholds : window.Holds plan Row) {anchor : Nat}
    (hanchor : anchor + plan.taps ≤ plan.ymap.inPixels) {source : σ} {ys : List Nat}
    (h : P ys source) :
    (plan.load anchor source window).Satisfies
      (fun source moved => P (ys ++ Window.missing window.start plan.taps anchor) source ∧
        moved.Fits plan ∧ moved.start = some anchor ∧ moved.Filled plan Row anchor plan.taps)
      fun e source moved => E e source ∧ moved.Fits plan ∧ moved.start = none := by
  have hkept := Window.kept_le window.start plan.taps anchor
  obtain ⟨ready, hready, hstart, hfilled, hsource, hresult, hstate⟩ :=
    load_eq hsound hfits hholds hanchor source
  unfold Window.missing
  generalize Window.kept window.start plan.taps anchor = kept at *
  have hfill := fill_satisfies hsound hserves hready hstart hfilled
    (Nat.le_of_eq (Nat.add_sub_cancel' hkept)) h
  rw [Nat.add_sub_cancel' hkept] at hfill
  generalize Outcome.forEach (plan.pull anchor) _ source _ = outcome at *
  cases hfilling : outcome.result with
  | error e =>
    obtain ⟨he, hfits⟩ := hfill.of_error hfilling
    rw [hfilling] at hstate
    refine Outcome.satisfies_of_error (hresult.trans hfilling) ?_
    rw [hsource, hstate]
    exact ⟨he, ⟨hfits.size_slots, hfits.size_lines, fun start hstart => by cases hstart⟩, rfl⟩
  | ok =>
    obtain ⟨hp, hfits, hstart, hfilled⟩ := hfill.of_ok hfilling
    rw [hfilling] at hstate
    refine Outcome.satisfies_of_ok (hresult.trans hfilling) ?_
    rw [hsource, hstate]
    refine ⟨hp, ⟨hfits.size_slots, hfits.size_lines, fun start h => ?_⟩, rfl, hfilled.of_start _⟩
    cases h
    exact hanchor

-- A move that fails has pulled some of the missing rows, and then one that did not come
theorem exists_pull_of_load_eq_error (hsound : plan.Sound) (hserves : plan.Serves P Row E)
    (hfits : window.Fits plan) (hholds : window.Holds plan Row) {anchor : Nat}
    (hanchor : anchor + plan.taps ≤ plan.ymap.inPixels) {source : σ} {ys : List Nat}
    (h : P ys source) {e : Error} (herror : (plan.load anchor source window).result = .error e) :
    let kept := Window.kept window.start plan.taps anchor
    ∃ k, kept + k < plan.taps ∧
      ∃ (before : σ) (length : Nat) (buffer : Vector UInt8 length), length = plan.rowBytes ∧
        P (ys ++ List.range' (anchor + kept) k) before ∧
        let outcome := ImageSource.copyRect before ⟨0, anchor + (kept + k), plan.xmap.inPixels, 1⟩
          plan.rowBytes buffer
        outcome.result = .error e ∧ (plan.load anchor source window).source = outcome.source := by
  obtain ⟨ready, hready, hstart, hfilled, hsource, hresult, -⟩ :=
    load_eq hsound hfits hholds hanchor source
  generalize Window.kept window.start plan.taps anchor = kept at *
  obtain ⟨k, hk, hbefore, hlast, hend, -⟩ :=
    Outcome.exists_of_forEach_eq_error (hresult.symm.trans herror)
  rw [List.length_range'] at hk
  rw [List.getElem_range', Nat.one_mul] at hlast hend
  rw [List.take_range'_of_length_ge (Nat.le_of_lt hk)] at hbefore hlast hend
  have hfill := fill_satisfies hsound hserves hready hstart hfilled
    (show kept + k ≤ plan.taps by omega) h
  generalize Outcome.forEach (plan.pull anchor) (List.range' kept k) source ready = filled at *
  obtain ⟨hp, hfits, -⟩ := hfill.of_ok hbefore
  obtain ⟨length, buffer, hlength, hpulled, hfailed, -⟩ :=
    pull_eq hsound hfits (show kept + k < plan.taps by omega)
      (show anchor + (kept + k) < plan.ymap.inPixels by omega) filled.source
  exact ⟨k, by omega, filled.source, length, buffer, hlength, hp, hfailed.symm.trans hlast,
    hsource.trans (hend.trans hpulled)⟩

end Plan

end Resampling
