import Resampling.Proofs.Journal
import Resampling.Proofs.Safety
import Resampling.Proofs.Session

-- The pools are not seen. Sessions that differ only in their pools, and in what their stages and
-- borrowers have from them, answer every action alike, however the pools are stocked.

namespace Resampling

section View

variable {α ω : Type} {view : α → ω}

-- Results that look the same are the same error, or successes that look the same
theorem of_map_eq_map {result other : Except Error α} (h : result.map view = other.map view) :
    (∃ e, result = .error e ∧ other = .error e) ∨
      ∃ a b, result = .ok a ∧ other = .ok b ∧ view a = view b := by
  cases result with
  | error e =>
    cases other with
    | error e' =>
      cases h
      exact Or.inl ⟨e, rfl, rfl⟩
    | ok b => cases h
  | ok a =>
    cases other with
    | error e => cases h
    | ok b => exact Or.inr ⟨a, b, rfl, rfl, Except.ok.inj h⟩

-- Lists that look the same have nothing at a place, or entries that look the same
theorem getElem?_of_map_eq_map {as bs : List α} (h : as.map view = bs.map view) (i : Nat) :
    (as[i]? = none ∧ bs[i]? = none) ∨
      ∃ a b, as[i]? = some a ∧ bs[i]? = some b ∧ view a = view b := by
  have hplace : as[i]?.map view = bs[i]?.map view := by
    rw [← List.getElem?_map, h, List.getElem?_map]
  cases ha : as[i]? with
  | none =>
    rw [ha] at hplace
    exact Or.inl ⟨rfl, Option.map_eq_none_iff.mp hplace.symm⟩
  | some a =>
    rw [ha] at hplace
    obtain ⟨b, hb, hsame⟩ := Option.map_eq_some_iff.mp hplace.symm
    exact Or.inr ⟨a, b, rfl, hb, hsame.symm⟩

end View

namespace Resampler

variable {σ : Type}

-- The stage on no buffers in particular
def unbacked (stage : Resampler σ) : Resampler σ :=
  { stage with engine := stage.engine.map Engine.unbacked }

-- A request reads and changes the window, and no buffer behind it
theorem answer_unbacked [ImageSource σ] (stage : Resampler σ) (call : Call) :
    ImageSource.answer stage.unbacked call =
      (ImageSource.answer stage call).mapSource unbacked := by
  obtain ⟨source, format, width, height, engine⟩ := stage
  cases engine with
  | none => rfl
  | some engine =>
    have hplan : engine.unbacked.plan = engine.plan := rfl
    have hwindow : engine.unbacked.window = engine.window := rfl
    unfold ImageSource.answer
    simp only [ImageSource.copyRect, copyRect, unbacked, Option.map_some, hplan, hwindow]
    split
    · rfl
    · split <;> rfl

end Resampler

namespace Layered

variable {β : Type}

def unbacked : {depth : Nat} → Layered β depth → Layered β depth
  | 0, source => source
  | _ + 1, stage => (Resampler.unbacked stage).withSource (unbacked (Resampler.source stage))

theorem bottom_unbacked {depth : Nat} (top : Layered β depth) :
    top.unbacked.bottom = top.bottom := by
  induction depth with
  | zero => rfl
  | succ depth ih => exact ih (Resampler.source top)

variable [ImageSource β]

-- Every stage of a stack answers as it would on other buffers, because the stages below it do
theorem alike_unbacked (depth : Nat) :
    ImageSource.Alike fun top other : Layered β depth => top.unbacked = other := by
  induction depth with
  | zero => exact ImageSource.alike_eq (σ := β)
  | succ depth ih =>
    refine ⟨?_, ?_, ?_, ?_⟩
    · rintro stage _ rfl
      rfl
    · rintro stage _ rfl
      rfl
    · rintro stage _ rfl
      rfl
    · rintro stage _ rfl call
      have hown := Resampler.answer_unbacked (σ := Layered β depth) stage call
      have hanswer := (Resampler.alike ih).answer (Resampler.unbacked stage) stage.unbacked
        ⟨rfl, rfl⟩ call
      obtain ⟨⟨hbelow, hstage⟩, hstate, hresult, hevents⟩ := hanswer
      rw [hown] at hbelow hstage hstate hresult hevents
      refine ⟨?_, hstate, hresult, hevents⟩
      have hafter := congrArg₂ Resampler.withSource hstage hbelow
      exact hafter

end Layered

namespace Stack

variable {β : Type}

def unbacked (stack : Stack β) : Stack β := ⟨stack.depth, stack.top.unbacked⟩

-- What a construction shows of itself
def shown (made : Construction (Stack β)) : Except Error (Stack β) × List Event :=
  (made.result.map unbacked, made.events)

section Raise

variable {depth : Nat} (stage : Resampler (Layered β depth)) (depot other : Depot)

theorem unbacked_raise :
    (raise stage).unbacked = raise (stage.unbacked.withSource (Layered.unbacked stage.source)) :=
  rfl

theorem isDisposed_unbacked :
    (stage.unbacked.withSource (Layered.unbacked stage.source)).isDisposed = stage.isDisposed :=
  Option.isNone_map

theorem unbacked_dispose_raise :
    ((raise stage).dispose depot).1.unbacked = ((raise stage).unbacked.dispose other).1 ∧
      ((raise stage).dispose depot).2.2 = ((raise stage).unbacked.dispose other).2.2 := by
  rw [unbacked_raise, dispose_raise, dispose_raise, isDisposed_unbacked]
  exact ⟨rfl, rfl⟩

theorem unbacked_unwrap_raise :
    ((raise stage).unwrap depot).1.unbacked = ((raise stage).unbacked.unwrap other).1 ∧
      ((raise stage).unwrap depot).2.2 = ((raise stage).unbacked.unwrap other).2.2 := by
  obtain ⟨-, hevents⟩ := unbacked_dispose_raise stage depot other
  rw [unbacked_raise] at hevents ⊢
  rw [unwrap_raise, unwrap_raise]
  exact ⟨rfl, hevents⟩

end Raise

theorem unbacked_dispose (stack : Stack β) (depot other : Depot) :
    (stack.dispose depot).1.unbacked = (stack.unbacked.dispose other).1 ∧
      (stack.dispose depot).2.2 = (stack.unbacked.dispose other).2.2 := by
  obtain ⟨_ | depth, top⟩ := stack
  · exact ⟨rfl, rfl⟩
  · exact unbacked_dispose_raise top depot other

theorem unbacked_unwrap (stack : Stack β) (depot other : Depot) :
    (stack.unwrap depot).1.unbacked = (stack.unbacked.unwrap other).1 ∧
      (stack.unwrap depot).2.2 = (stack.unbacked.unwrap other).2.2 := by
  obtain ⟨_ | depth, top⟩ := stack
  · exact ⟨rfl, rfl⟩
  · exact unbacked_unwrap_raise top depot other

variable [ImageSource β] {stack other : Stack β} {depot away : Depot}

theorem answer_unbacked (stack : Stack β) (call : Call) :
    (ImageSource.answer stack.unbacked call).Alike (fun after before => after = before.unbacked)
      (ImageSource.answer stack call) := by
  obtain ⟨hsource, hstate, hresult, hevents⟩ :=
    (Layered.alike_unbacked stack.depth).answer stack.top stack.top.unbacked rfl call
  exact ⟨congrArg (Stack.mk stack.depth) hsource.symm, hstate.symm, hresult.symm, hevents.symm⟩

-- What is built on a source, shown
def shownOver {depth : Nat} (bare : Layered β depth) {format : PixelFormat} :
    Except Error (Engine format) → Except Error (Stack β) × List Event
  | .error e => (.error e, [])
  | .ok engine => (.ok (raise (engine.stage bare engine.window)), [engine.builtEvent])

theorem shown_install {depth : Nat} (top : Layered β depth) {format : PixelFormat}
    (made : Except Error (Engine format) × Depot) :
    shown (layer (Resampler.install top made)) =
      shownOver top.unbacked (made.1.map Engine.unbacked) := by
  obtain ⟨result, depot⟩ := made
  cases result <;> rfl

theorem shown_setUp (h : stack.unbacked = other.unbacked) (hdepot : depot.Sound)
    (haway : away.Sound) (design : Design) (home place : Nat) :
    shown (stack.setUp design home depot) = shown (other.setUp design place away) := by
  obtain ⟨depth, top⟩ := stack
  obtain ⟨_, top'⟩ := other
  obtain ⟨rfl, htop⟩ := Stack.mk.inj h
  rw [heq_eq_eq] at htop
  obtain ⟨hwidth, hheight, hformat, -⟩ := Layered.alike_unbacked (β := β) depth
  simp only [setUp, Design.setUp_eq, shown_install]
  rw [Design.map_unbacked_equip hdepot haway design _ _ _ home place, hformat top _ rfl,
    hwidth top _ rfl, hheight top _ rfl, htop, ← hformat top' _ rfl, ← hwidth top' _ rfl,
    ← hheight top' _ rfl]

omit [ImageSource β] in
-- The events of both constructions, and what the second shows if the first has succeeded
theorem shown_chain {made made' : Construction (Stack β)}
    {next next' : Stack β → Depot → Construction (Stack β)} (hmade : shown made = shown made')
    (hnext : ∀ stack other, made.result = .ok stack → made'.result = .ok other →
      stack.unbacked = other.unbacked →
        shown (next stack made.depot) = shown (next' other made'.depot)) :
    shown (chain made next) = shown (chain made' next') := by
  obtain ⟨result, between, events⟩ := made
  obtain ⟨result', between', events'⟩ := made'
  obtain ⟨hresult, rfl⟩ := Prod.mk.inj hmade
  rcases of_map_eq_map hresult with ⟨e, rfl, rfl⟩ | ⟨stack, other, rfl, rfl, hsame⟩
  · rfl
  · obtain ⟨hlast, hevents⟩ := Prod.mk.inj (hnext stack other rfl rfl hsame)
    exact Prod.ext hlast (congrArg (events ++ ·) hevents)

theorem shown_prepare (hbare : ∀ source : β, ImageSource.leases source = [])
    (h : stack.unbacked = other.unbacked) (hdepot : depot.Sound) (haway : away.Sound)
    (hstack : stack.Backed) (hother : other.Backed) (order : Resize) :
    shown (stack.prepare order depot) = shown (other.prepare order away) := by
  cases hvalid : order.validate with
  | error e =>
    rw [prepare_of_error hvalid, prepare_of_error hvalid]
    rfl
  | ok =>
    let resizing : Design := .resize order.filter.filter order.width order.height
    have hresized := shown_setUp h hdepot haway resizing Depot.shared Depot.shared
    rw [prepare_of_ok hvalid, prepare_of_ok hvalid]
    unfold meet
    cases order.activeMask with
    | none => exact hresized
    | some mask =>
      refine shown_chain hresized fun resized resized' _ _ hsame => ?_
      exact shown_setUp hsame ((settled_setUp hbare hdepot.tidy hstack resizing
        Depot.shared).follows.sound hdepot) ((settled_setUp hbare haway.tidy hother resizing
        Depot.shared).follows.sound haway) (.unsharp mask) _ _

end Stack

namespace Turn

variable {β : Type}

def shown (turn : Turn β) : Option (Stack β) × Reply := (turn.stack.map Stack.unbacked, turn.reply)

theorem shown_ofMade {made other : Construction (Stack β)}
    (h : Stack.shown made = Stack.shown other) : (ofMade made).shown = (ofMade other).shown := by
  obtain ⟨result, depot, events⟩ := made
  obtain ⟨result', depot', events'⟩ := other
  obtain ⟨hresult, rfl⟩ := Prod.mk.inj h
  rcases of_map_eq_map hresult with ⟨e, rfl, rfl⟩ | ⟨stack, other, rfl, rfl, hsame⟩
  · rfl
  · exact congrArg (fun stack => (some stack, _)) hsame

theorem shown_ofLeft {left other : Stack β × Depot × List Event}
    (h : left.1.unbacked = other.1.unbacked ∧ left.2.2 = other.2.2) :
    (ofLeft left).shown = (ofLeft other).shown := by
  simp only [shown, ofLeft, Option.map_some, h.1, h.2]

end Turn

theorem Stack.shown_turn {β : Type} [ImageSource β] {stack other : Stack β} {depot away : Depot}
    (hbare : ∀ source : β, ImageSource.leases source = []) (h : stack.unbacked = other.unbacked)
    (hdepot : depot.Sound) (haway : away.Sound) (hstack : stack.Backed) (hother : other.Backed)
    (home place : Nat) (action : Action) :
    (stack.turn home depot action).shown = (other.turn place away action).shown := by
  cases action with
  | setUp design => exact Turn.shown_ofMade (shown_setUp h hdepot haway design home place)
  | prepare order =>
    exact Turn.shown_ofMade (shown_prepare hbare h hdepot haway hstack hother order)
  | read call =>
    have hanswer := stack.answer_unbacked call
    have hother := other.answer_unbacked call
    rw [h] at hanswer
    have hsame : (ImageSource.answer stack call).source.unbacked =
        (ImageSource.answer other call).source.unbacked := hanswer.source.symm.trans hother.source
    simp only [turn, Turn.shown, Option.map_some, hsame, ← hanswer.state_eq, ← hanswer.result_eq,
      ← hanswer.events_eq, hother.state_eq, hother.result_eq, hother.events_eq]
  | dispose =>
    obtain ⟨hstack, hevents⟩ := stack.unbacked_dispose depot .fresh
    obtain ⟨hother, hevents'⟩ := other.unbacked_dispose away .fresh
    rw [h] at hstack hevents
    exact Turn.shown_ofLeft ⟨hstack.trans hother.symm, hevents.trans hevents'.symm⟩
  | unwrap =>
    obtain ⟨hstack, hevents⟩ := stack.unbacked_unwrap depot .fresh
    obtain ⟨hother, hevents'⟩ := other.unbacked_unwrap away .fresh
    rw [h] at hstack hevents
    exact Turn.shown_ofLeft ⟨hstack.trans hother.symm, hevents.trans hevents'.symm⟩
  | drop => rfl

theorem Lease.map_unbacked_write (lease : Lease) (bytes : Array UInt8) :
    (lease.write bytes).map unbacked = lease.unbacked.write bytes := by
  have hview : lease.unbacked.buffer.view = lease.buffer.view := rfl
  unfold write Buffer.write
  rw [hview]
  cases lease.buffer.view <;> rfl

theorem Lease.reply_eq_of_unbacked_eq {lease other : Lease} (h : lease.unbacked = other.unbacked) :
    lease.reply = other.reply := by
  have hreply : ∀ lease : Lease, lease.unbacked.reply = lease.reply := fun _ => rfl
  rw [← hreply, h, hreply]

namespace Session

variable {β : Type} {session other : Session β}

-- A session in order that has memory for whatever is borrowed
structure Sound (session : Session β) : Prop extends session.Tidy where
  ample : session.depot.Ample

theorem Sound.depot_sound (h : session.Sound) : session.depot.Sound := ⟨h.depot, h.ample⟩

theorem sound_start {depot : Depot} (hsound : depot.Sound) : (start depot : Session β).Sound :=
  ⟨tidy_start hsound.tidy, hsound.ample⟩

-- Sessions that differ in nothing but the pools and what they have from them
structure Same (session other : Session β) : Prop where
  placed : session.placed.map Stack.unbacked = other.placed.map Stack.unbacked
  held : session.held.map Lease.unbacked = other.held.map Lease.unbacked

theorem Same.sources (h : session.Same other) : session.sources = other.sources := by
  have hbottoms : ∀ session : Session β, session.sources =
      (session.placed.map Stack.unbacked).map (·.top.bottom) := by
    intro session
    rw [List.map_map]
    exact List.map_congr_left fun stack _ => (Layered.bottom_unbacked stack.top).symm
  rw [hbottoms, h.placed, ← hbottoms]

theorem Same.rent (h : session.Same other) (hsession : session.Sound) (hother : other.Sound)
    (home place size length : Nat) :
    (session.rent home size length).2 = (other.rent place size length).2 ∧
      (session.rent home size length).1.Same (other.rent place size length).1 := by
  unfold Session.rent
  rcases Depot.lend_spec hsession.depot home size length with
    ⟨hlendable, lease, after, hlent, -, hcleared, -⟩ | ⟨hnone, hlent⟩
  · rcases Depot.lend_spec hother.depot place size length with
      ⟨-, lease', after', hlent', -, hcleared', -⟩ | ⟨hnone, -⟩
    · have hsame : lease.unbacked = lease'.unbacked := hcleared.trans hcleared'.symm
      rw [hlent, hlent']
      refine ⟨Lease.reply_eq_of_unbacked_eq hsame, h.placed, ?_⟩
      simp only [List.map_append, h.held, List.map_singleton, hsame]
    · exact absurd hlendable (hnone hother.ample)
  · rcases Depot.lend_spec hother.depot place size length with ⟨hlendable, -⟩ | ⟨-, hlent'⟩
    · exact absurd hlendable (hnone hsession.ample)
    · rw [hlent, hlent']
      exact ⟨rfl, h.placed, h.held⟩

theorem Same.write (h : session.Same other) (j : Nat) (bytes : Array UInt8) :
    (session.write j bytes).2 = (other.write j bytes).2 ∧
      (session.write j bytes).1.Same (other.write j bytes).1 := by
  unfold Session.write
  rcases getElem?_of_map_eq_map h.held j with
    ⟨hnone, hnone'⟩ | ⟨lease, lease', hlease, hlease', hsame⟩
  · rw [hnone, hnone']
    exact ⟨rfl, h⟩
  · have hwrites : (lease.write bytes).map Lease.unbacked =
        (lease'.write bytes).map Lease.unbacked := by
      rw [Lease.map_unbacked_write, Lease.map_unbacked_write, hsame]
    rw [hlease, hlease']
    rcases of_map_eq_map hwrites with ⟨e, herror, herror'⟩ |
      ⟨written, written', hwritten, hwritten', hsame⟩
    · simp only [herror, herror']
      exact ⟨trivial, h⟩
    · simp only [hwritten, hwritten']
      refine ⟨Lease.reply_eq_of_unbacked_eq hsame, h.placed, ?_⟩
      simp only [map_exchange, h.held, Option.map_some, hsame]

theorem Same.release (h : session.Same other) (j : Nat) :
    (session.release j).2 = (other.release j).2 ∧
      (session.release j).1.Same (other.release j).1 := by
  unfold Session.release
  rcases getElem?_of_map_eq_map h.held j with
    ⟨hnone, hnone'⟩ | ⟨lease, lease', hlease, hlease', -⟩
  · rw [hnone, hnone']
    exact ⟨rfl, h⟩
  · rw [hlease, hlease']
    refine ⟨rfl, h.placed, ?_⟩
    simp only [map_exchange, h.held, Option.map_none]

variable [ImageSource β]

theorem Same.act (hbare : ∀ source : β, ImageSource.leases source = []) (h : session.Same other)
    (hsession : session.Sound) (hother : other.Sound) (home place i : Nat)
    (action : Stack.Action) :
    (session.act home i action).2 = (other.act place i action).2 ∧
      (session.act home i action).1.Same (other.act place i action).1 := by
  unfold Session.act
  rcases getElem?_of_map_eq_map h.placed i with
    ⟨hnone, hnone'⟩ | ⟨stack, stack', hstack, hstack', hsame⟩
  · rw [hnone, hnone']
    exact ⟨rfl, h⟩
  · obtain ⟨hnext, hreply⟩ := Prod.mk.inj (Stack.shown_turn hbare hsame hsession.depot_sound
      hother.depot_sound (hsession.placed stack (List.mem_of_getElem? hstack))
      (hother.placed stack' (List.mem_of_getElem? hstack')) home place action)
    rw [hstack, hstack']
    refine ⟨hreply, ?_, h.held⟩
    simp only [map_exchange, h.placed, hnext]

theorem Same.step (hbare : ∀ source : β, ImageSource.leases source = []) (h : session.Same other)
    (hsession : session.Sound) (hother : other.Sound) (home place : Nat) (action : Action β) :
    (session.step home action).2 = (other.step place action).2 ∧
      (session.step home action).1.Same (other.step place action).1 := by
  cases action with
  | place source => exact ⟨rfl, by simp only [Session.step, List.map_append, h.placed], h.held⟩
  | act i action => exact h.act hbare hsession hother home place i action
  | rent size length => exact h.rent hsession hother home place size length
  | write j bytes => exact h.write j bytes
  | release j => exact h.release j

theorem Sound.step (hbare : ∀ source : β, ImageSource.leases source = []) (h : session.Sound)
    (home : Nat) (action : Action β) : (session.step home action).1.Sound := by
  obtain ⟨htidy, hmoves⟩ := h.toTidy.step hbare home action
  exact ⟨htidy, hmoves.follows.ample h.ample⟩

-- Sessions that are the same show the same when the same is done in them, whichever pools serve
-- them and whatever happens to these in between
theorem Same.runWith (hbare : ∀ source : β, ImageSource.leases source = [])
    (h : session.Same other) (hsession : session.Sound) (hother : other.Sound)
    {renew renew' : Depot → Depot} (hrenew : ∀ depot, depot.Sound → (renew depot).Sound)
    (hrenew' : ∀ depot, depot.Sound → (renew' depot).Sound) {script script' : List (Nat × Action β)}
    (hscript : script.map Prod.snd = script'.map Prod.snd) :
    (session.runWith renew script).2 = (other.runWith renew' script').2 := by
  induction script generalizing session other script' with
  | nil =>
    rw [List.map_nil, eq_comm, List.map_eq_nil_iff] at hscript
    rw [hscript]
    rfl
  | cons entry script ih =>
    obtain ⟨entry', rest, rfl, haction, hrest⟩ := List.map_eq_cons_iff.mp hscript.symm
    have hdepot := hrenew _ hsession.depot_sound
    have hdepot' := hrenew' _ hother.depot_sound
    have hrenewed : Sound { session with depot := renew session.depot } :=
      ⟨⟨hdepot.tidy, hsession.placed, hsession.held⟩, hdepot.ample⟩
    have hrenewed' : Sound { other with depot := renew' other.depot } :=
      ⟨⟨hdepot'.tidy, hother.placed, hother.held⟩, hdepot'.ample⟩
    have hsame : Same { session with depot := renew session.depot }
        { other with depot := renew' other.depot } := ⟨h.placed, h.held⟩
    obtain ⟨hreply, hnext⟩ := hsame.step hbare hrenewed hrenewed' entry.1 entry'.1 entry.2
    have hlast := ih hnext (hrenewed.step hbare entry.1 entry.2)
      (hrenewed'.step hbare entry'.1 entry.2) hrest.symm
    obtain ⟨home, action⟩ := entry
    obtain ⟨place, action'⟩ := entry'
    cases haction
    unfold Session.runWith
    simp only [hreply, hnext.sources, hlast]

-- What is done with stacks and borrowed buffers shows the same whichever pools serve it, however
-- these are stocked, and the same as if nothing else had ever used them
theorem pools_unseen (hbare : ∀ source : β, ImageSource.leases source = []) {depot other : Depot}
    (hdepot : depot.Sound) (hother : other.Sound) {script script' : List (Nat × Action β)}
    (hscript : script.map Prod.snd = script'.map Prod.snd) :
    ((start depot).run script).2 = ((start other).run script').2 ∧
      ((start depot).run script).2 = ((start .fresh).runApart script').2 := by
  have hsame : ∀ other : Depot, (start depot : Session β).Same (start other) := fun _ => ⟨rfl, rfl⟩
  have hfresh : (start .fresh : Session β).Sound := sound_start Depot.sound_fresh
  exact ⟨(hsame other).runWith hbare (sound_start hdepot) (sound_start hother)
      (fun _ h => h) (fun _ h => h) hscript,
    (hsame .fresh).runWith hbare (sound_start hdepot) hfresh (fun _ h => h)
      (fun _ _ => Depot.sound_fresh) hscript⟩

-- Pools with leftovers of earlier loans
def soiled : Depot where
  pool _ := ⟨#[⟨100, #[1, 2, 3]⟩, ⟨2, Array.replicate 8 255⟩], 2, 5, 5⟩
  memory _ := .ample

-- A borrower writes and gives back; then a stage is set up over a source that never writes
def errand (home : Nat) : List (Nat × Action (Journal Blank)) :=
  [.place (.around Blind.blank), .rent 1 5, .write 0 #[255, 255, 255, 255, 255], .release 0,
    .act 0 (.setUp .averaging), .act 0 (.read Blind.whole), .act 0 .dispose,
    .act 0 .drop].map fun action => (home, action)

theorem pools_unseen_soiled :
    ((start soiled).run (errand 0)).2 = ((start .fresh).run (errand 7)).2 ∧
      ((start soiled).run (errand 0)).2 = ((start .fresh).runApart (errand 7)).2 ∧
      (((start soiled).run (errand 0)).2[5]?.map fun shown => shown.1.bytes) =
        some #[0, 0, 0, 0] := by
  have hpool : (soiled.pool 0).Sound :=
    { allocated := by decide
      idle_le := by decide }
  have hsoiled : soiled.Sound := ⟨fun _ => hpool, fun _ => rfl⟩
  have hscript : (errand 0).map Prod.snd = (errand 7).map Prod.snd := rfl
  have hsame := pools_unseen (fun _ : Journal Blank => rfl) hsoiled Depot.sound_fresh hscript
  refine ⟨hsame.1, hsame.2, ?_⟩
  decide +kernel

end Session

end Resampling
