import Resampling.Proofs.Safety
import Resampling.Proofs.Session

-- Accounts. Every buffer that is borrowed goes back once, whichever way the stage ends that
-- borrowed it.

namespace Resampling

-- Sources that look the same and hold the same buffers. Their pixels may differ, and what they
-- answer when asked for them.
structure ImageSource.LooksLike {σ τ : Type} [ImageSource σ] [ImageSource τ] (source : σ)
    (other : τ) : Prop where
  width_eq : ImageSource.width source = ImageSource.width other
  height_eq : ImageSource.height source = ImageSource.height other
  format_eq : ImageSource.format source = ImageSource.format other
  leases_eq : ImageSource.leases source = ImageSource.leases other

-- A construction goes by looks. It does the same over a source that answers otherwise, and has
-- not asked for anything.
theorem Design.setUp_looks {σ τ : Type} [ImageSource σ] [ImageSource τ] {source : σ} {other : τ}
    (h : ImageSource.LooksLike source other) (design : Design) (home : Nat) (depot : Depot) :
    (design.setUp source home depot).result =
        (design.setUp other home depot).result.map (·.withSource source) ∧
      (design.setUp source home depot).depot = (design.setUp other home depot).depot ∧
      (design.setUp source home depot).events = (design.setUp other home depot).events := by
  rw [setUp_eq, setUp_eq, h.format_eq, h.width_eq, h.height_eq]
  cases design.equip (ImageSource.format other) (ImageSource.width other)
      (ImageSource.height other) home depot with
  | mk result after =>
    cases result with
    | error e => exact ⟨rfl, congrArg after.takeBackAll h.leases_eq, rfl⟩
    | ok engine => exact ⟨rfl, rfl, rfl⟩

namespace Stack

variable {β : Type}

-- What a stack is like whose uppermost stage is disposed of: another disposal does nothing, taking
-- the stage off gives nothing back, and dropping the stack is dropping what is below
structure Disposed [ImageSource β] (gone : Stack β) (depot : Depot) : Prop where
  dispose : gone.dispose depot = (gone, depot, [])
  unwrap : (gone.unwrap depot).2 = (depot, [])
  drop : gone.drop depot = (gone.unwrap depot).1.drop depot
  live : gone.live = (gone.unwrap depot).1.live

variable [ImageSource β] {stack : Stack β} {depot : Depot}

theorem disposed_raise {depth : Nat} (stage : Resampler (Layered β depth)) (depot : Depot) :
    Disposed ((raise stage).dispose depot).1 ((raise stage).dispose depot).2.1 := by
  simp only [dispose_raise]
  generalize depot.takeBackAll stage.ownLeases = after
  refine { dispose := ?dispose, unwrap := ?unwrap, drop := ?drop, live := ?live }
  case dispose =>
    rw [dispose_raise]
    rfl
  case unwrap =>
    rw [unwrap_raise, dispose_raise]
    rfl
  case drop =>
    rw [unwrap_raise]
    exact congrArg after.takeBackAll (List.append_nil _)
  case live =>
    rw [unwrap_raise]
    exact List.append_nil _

theorem disposed_dispose (stack : Stack β) (depot : Depot) :
    Disposed (stack.dispose depot).1 (stack.dispose depot).2.1 := by
  obtain ⟨_ | depth, top⟩ := stack
  · exact ⟨rfl, rfl, rfl, rfl⟩
  · exact disposed_raise top depot

theorem setUp_of_error (hbare : ∀ source : β, ImageSource.leases source = [])
    (htidy : depot.Tidy) (h : stack.Backed) {design : Design} {home : Nat} {e : Error}
    (herror : (stack.setUp design home depot).result = .error e) :
    (stack.setUp design home depot).events = [] ∧
      ∀ pool, (stack.setUp design home depot).depot.out pool + stack.inUse pool =
        depot.out pool := by
  have hsettled := settled_setUp hbare htidy h design home
  unfold Settled at hsettled
  rw [herror] at hsettled
  refine ⟨?_, fun pool => by simpa using hsettled.out pool⟩
  unfold setUp layer at herror ⊢
  rw [Design.setUp_eq] at herror ⊢
  cases hequip : design.equip (ImageSource.format stack.top) (ImageSource.width stack.top)
      (ImageSource.height stack.top) home depot with
  | mk result after =>
    rw [hequip] at herror
    cases result with
    | error e => rfl
    | ok engine => cases herror

theorem live_of_setUp_eq_ok (htidy : depot.Tidy) {design : Design} {home : Nat} {made : Stack β}
    (hmade : (stack.setUp design home depot).result = .ok made) :
    made.live = stack.live ++ [(home, design.sharpening.isSome)] := by
  unfold setUp layer at hmade
  rw [Design.setUp_eq] at hmade
  cases hequip : design.equip (ImageSource.format stack.top) (ImageSource.width stack.top)
      (ImageSource.height stack.top) home depot with
  | mk result after =>
    rw [hequip] at hmade
    cases result with
    | error e => cases hmade
    | ok engine =>
      obtain ⟨-, hhome, hsharpening⟩ := Design.backed_of_equip_eq_ok htidy hequip
      cases hmade
      rw [← hhome, ← hsharpening]
      rfl

theorem idle_drop (hbare : ∀ source : β, ImageSource.leases source = []) (htidy : depot.Tidy)
    (h : stack.Backed) (pool : Nat) :
    ((stack.drop depot).pool pool).idle.size =
      min (depot.pool pool).retain ((depot.pool pool).idle.size + stack.inUse pool) := by
  obtain ⟨hleases, hcount⟩ := Layered.Backed.leases hbare h
  have hidle := Depot.idle_takeBackAll htidy hleases pool
  rwa [hcount pool] at hidle

omit [ImageSource β] in
theorem idle_dispose {depth : Nat} {stage : Resampler (Layered β depth)} (htidy : depot.Tidy)
    (h : (raise stage).Backed) (pool : Nat) :
    (((raise stage).dispose depot).2.1.pool pool).idle.size =
      min (depot.pool pool).retain ((depot.pool pool).idle.size + stage.inUse pool) := by
  have hstage : stage.Backed := h.2
  obtain ⟨hleases, hcount⟩ := hstage.ownLeases
  have hidle := Depot.idle_takeBackAll htidy hleases pool
  rw [dispose_raise]
  rwa [hcount pool] at hidle

-- How the pools get on with a stack that they serve
structure Accounted (stack : Stack β) (depot : Depot) : Prop where
  -- a construction adds one stage in use, or gives back all that was below and nothing else
  setUp_ok : ∀ design home made, (stack.setUp design home depot).result = .ok made →
    made.live = stack.live ++ [(home, design.sharpening.isSome)]
  setUp_error : ∀ design home e, (stack.setUp design home depot).result = .error e →
    (stack.setUp design home depot).events = [] ∧
      ∀ pool, (stack.setUp design home depot).depot.out pool + stack.inUse pool = depot.out pool
  -- one that fails would have failed so whatever the source answers
  unasked : ∀ design home e, (stack.setUp design home depot).result = .error e →
    ∀ {τ : Type} [ImageSource τ] (other : τ), ImageSource.LooksLike stack.top other →
      (design.setUp other home depot).result = .error e ∧
        (design.setUp other home depot).depot = (stack.setUp design home depot).depot
  read : ∀ home call, (stack.turn home depot (.read call)).depot = depot ∧
    (ImageSource.answer stack call).source.live = stack.live
  disposed : Disposed (stack.dispose depot).1 (stack.dispose depot).2.1
  idle_dispose : ∀ {depth : Nat} (stage : Resampler (Layered β depth)), stack = raise stage →
    ∀ pool, ((stack.dispose depot).2.1.pool pool).idle.size =
      min (depot.pool pool).retain ((depot.pool pool).idle.size + stage.inUse pool)
  unwrap : (stack.unwrap depot).2 = (stack.dispose depot).2
  idle_drop : ∀ pool, ((stack.drop depot).pool pool).idle.size =
    min (depot.pool pool).retain ((depot.pool pool).idle.size + stack.inUse pool)

theorem unasked_of_error {design : Design} {home : Nat} {e : Error}
    (herror : (stack.setUp design home depot).result = .error e) {τ : Type} [ImageSource τ]
    {other : τ} (h : ImageSource.LooksLike stack.top other) :
    (design.setUp other home depot).result = .error e ∧
      (design.setUp other home depot).depot = (stack.setUp design home depot).depot := by
  obtain ⟨hresult, hdepot, -⟩ := design.setUp_looks h home depot
  refine ⟨?_, hdepot.symm⟩
  simp only [setUp, layer, hresult] at herror
  cases hother : (design.setUp other home depot).result with
  | error e' =>
    rw [hother] at herror
    cases herror
    rfl
  | ok stage =>
    rw [hother] at herror
    cases herror

theorem Backed.accounted (hbare : ∀ source : β, ImageSource.leases source = [])
    (htidy : depot.Tidy) (h : stack.Backed) : stack.Accounted depot where
  setUp_ok _ _ _ hmade := live_of_setUp_eq_ok htidy hmade
  setUp_error _ _ _ herror := setUp_of_error hbare htidy h herror
  unasked _ _ _ herror _ _ _ hlooks := unasked_of_error herror hlooks
  read _ call := ⟨rfl, Layered.live_answer stack.top call⟩
  disposed := disposed_dispose stack depot
  idle_dispose stage hstage pool := by
    subst hstage
    exact idle_dispose htidy h pool
  unwrap := by
    obtain ⟨_ | depth, top⟩ := stack <;> rfl
  idle_drop := idle_drop hbare htidy h

end Stack

namespace Session

variable {β : Type}

-- The stages in use in a session
def live (session : Session β) : List (Nat × Bool) := session.placed.flatMap Stack.live

theorem inUse_eq (session : Session β) (home : Nat) :
    session.inUse home = 3 * session.live.count (home, false) +
      4 * session.live.count (home, true) + session.held.countP (·.home = home) := by
  have hplaced : ∀ placed : List (Stack β),
      (placed.map (·.inUse home)).sum = buffersOf home (placed.flatMap Stack.live) := by
    intro placed
    induction placed with
    | nil => rfl
    | cons stack placed ih =>
      rw [List.map_cons, List.sum_cons, List.flatMap_cons, buffersOf_append, ih]
      rfl
  unfold inUse live
  rw [hplaced, buffersOf]

variable [ImageSource β]

-- After any run, what was lent from a pool and is not back is what the stages in use have of it,
-- three buffers each or four, and what borrowers hold. And so it goes on with every stack.
theorem accounts_of_run (hbare : ∀ source : β, ImageSource.leases source = []) {depot : Depot}
    (htidy : depot.Tidy) (script : List (Nat × Action β)) :
    let session := ((start depot).run script).1
    (∀ home, session.depot.out home = depot.out home +
      (3 * session.live.count (home, false) + 4 * session.live.count (home, true) +
        session.held.countP (·.home = home) : Nat)) ∧
      ∀ stack ∈ session.placed, stack.Accounted session.depot := by
  obtain ⟨hlast, hmoves⟩ := (tidy_start htidy : (start depot : Session β).Tidy).run hbare script
  refine ⟨fun home => ?_, fun stack hstack =>
    (hlast.placed stack hstack).accounted hbare hlast.depot⟩
  have hnone : (start depot : Session β).inUse home = 0 := rfl
  have hout := hmoves.out home
  rw [hnone, inUse_eq] at hout
  exact (Int.add_zero _).symm.trans hout

-- There is memory for all loans but the seventh
def scarce : Depot := { Depot.fresh with memory := fun n _ => n != 6 }

-- A stage is set up and a buffer borrowed; the source fails halfway. Another stage gets two of
-- its three buffers. The first is disposed of, twice, and taken off, and its source dropped.
def hiccup : List (Nat × Action (Probe Blank)) :=
  [(5, .place (.around Blind.blank [1])), (5, .act 0 (.setUp .averaging)), (5, .rent 4 9),
    (5, .act 0 (.read Blind.whole)), (5, .place (.around Blind.blank [])),
    (5, .act 1 (.setUp .averaging)), (5, .act 0 .dispose), (5, .act 0 .dispose),
    (5, .act 0 .unwrap), (5, .act 0 .drop)]

-- The session that so many of these actions lead to
def hiccupAfter (n : Nat) : Session (Probe Blank) := ((start scarce).run (hiccup.take n)).1

theorem accounts_of_run_hiccup :
    ((start scarce).run hiccup).2.map (·.1.result) =
        [.ok (), .ok (), .ok (), .error (.sourceFailed Probe.reason), .ok (),
          .error .outOfMemory, .ok (), .ok (), .ok (), .ok ()] ∧
      (List.range 11).map (fun n => (((hiccupAfter n).depot.pool 5).lent,
          ((hiccupAfter n).depot.pool 5).returned)) =
        [(0, 0), (0, 0), (3, 0), (4, 0), (4, 0), (4, 0), (6, 2), (6, 5), (6, 5), (6, 5),
          (6, 5)] ∧
      scarce.Tidy ∧
      ∀ n, (hiccupAfter n).depot.out 5 = (3 * (hiccupAfter n).live.count (5, false) +
          4 * (hiccupAfter n).live.count (5, true) +
          (hiccupAfter n).held.countP (·.home = 5) : Nat) ∧
        ∀ stack ∈ (hiccupAfter n).placed, stack.Accounted (hiccupAfter n).depot := by
  have htidy : scarce.Tidy := Depot.sound_fresh.tidy
  refine ⟨by decide +kernel, by decide +kernel, htidy, fun n => ?_⟩
  obtain ⟨hout, hplaced⟩ :=
    accounts_of_run (fun _ : Probe Blank => rfl) htidy (hiccup.take n)
  exact ⟨(hout 5).trans (Int.zero_add _), hplaced⟩

end Session

end Resampling
