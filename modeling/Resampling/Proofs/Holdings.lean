import Resampling.Proofs.Alike
import Resampling.Proofs.Design

-- What stages and stacks hold of the pools, and how setting up, reading and giving back move it

namespace Resampling

-- How the accounts of the pools move: `held` of each pool was held before, and `holds` is held now
structure Depot.Moves (depot after : Depot) (held holds : Nat → Nat) : Prop where
  follows : depot.Follows after
  out : ∀ home, after.out home + held home = depot.out home + holds home

theorem Depot.Moves.trans {depot between after : Depot} {a b c : Nat → Nat}
    (h : depot.Moves between a b) (hnext : between.Moves after b c) : depot.Moves after a c where
  follows := h.follows.trans hnext.follows
  out home := by
    have hfirst := h.out home
    have hsecond := hnext.out home
    omega

theorem Depot.Moves.refl {depot : Depot} (htidy : depot.Tidy) (held : Nat → Nat) :
    depot.Moves depot held held := ⟨.refl htidy, fun _ => rfl⟩

-- Leases that are given back are no longer held
theorem Depot.moves_takeBackAll {depot : Depot} (htidy : depot.Tidy) {leases : List Lease}
    (hleases : ∀ lease ∈ leases, lease.Backed lease.home) {held holds : Nat → Nat}
    (hheld : ∀ home, held home = leases.countP (·.home = home) + holds home) :
    depot.Moves (depot.takeBackAll leases) held holds := by
  obtain ⟨hafter, hout⟩ := takeBackAll_spec htidy fun lease h => (hleases lease h).allocated
  refine ⟨hafter, fun home => ?_⟩
  rw [hout home, hheld home]
  omega

-- How many buffers of the pool `home` stages in use have: three each, or four if they sharpen. A
-- stage is told by its pool and whether it sharpens.
def buffersOf (home : Nat) (live : List (Nat × Bool)) : Nat :=
  3 * live.count (home, false) + 4 * live.count (home, true)

theorem buffersOf_append (home : Nat) (live added : List (Nat × Bool)) :
    buffersOf home (live ++ added) = buffersOf home live + buffersOf home added := by
  unfold buffersOf
  rw [List.count_append, List.count_append]
  omega

theorem buffersOf_singleton (home pool : Nat) (sharpens : Bool) :
    buffersOf home [(pool, sharpens)] = if pool = home then WorkBuffers.share sharpens else 0 := by
  unfold buffersOf WorkBuffers.share
  by_cases hpool : pool = home
  · cases sharpens <;> simp [hpool]
  · simp [hpool]

namespace Engine

variable {format : PixelFormat} {engine : Engine format}

-- What the window leaves in the buffers is no concern of the pools
theorem Backed.release (h : engine.Backed) :
    (∀ lease ∈ engine.release, lease.Backed engine.home) ∧
      engine.release.length = engine.share := by
  obtain ⟨xmap, ymap, sharpening, window, ⟨lines, slots, outLine, blurLine⟩⟩ := engine
  obtain ⟨hleases, hlength⟩ := h
  refine ⟨?_, hlength⟩
  have hlines := hleases lines (by simp [WorkBuffers.toList])
  have hslots := hleases slots (by simp [WorkBuffers.toList])
  have hrest : ∀ lease ∈ outLine :: blurLine.toList, lease.Backed lines.home := by
    intro lease hlease
    apply hleases
    simp only [WorkBuffers.toList, List.mem_append, List.mem_cons] at hlease ⊢
    tauto
  intro lease hlease
  simp only [Engine.release, WorkBuffers.toList, List.cons_append, List.nil_append,
    List.mem_cons] at hlease
  rcases hlease with rfl | rfl | hlease
  · exact hlines.store _
  · exact hslots.store _
  · exact hrest lease (List.mem_cons.mpr hlease)

end Engine

namespace Resampler

variable {σ : Type}

-- The stage, if it is in use
def live (stage : Resampler σ) : List (Nat × Bool) :=
  match stage.engine with
  | none => []
  | some engine => [(engine.home, engine.sharpening.isSome)]

def inUse (stage : Resampler σ) (home : Nat) : Nat := buffersOf home stage.live

def Backed (stage : Resampler σ) : Prop := ∀ engine, stage.engine = some engine → engine.Backed

theorem Backed.ownLeases {stage : Resampler σ} (h : stage.Backed) :
    (∀ lease ∈ stage.ownLeases, lease.Backed lease.home) ∧
      ∀ home, stage.ownLeases.countP (·.home = home) = stage.inUse home := by
  unfold Resampler.ownLeases inUse live
  cases hengine : stage.engine with
  | none => exact ⟨fun _ hlease => absurd hlease List.not_mem_nil, fun _ => rfl⟩
  | some engine =>
    obtain ⟨hleases, hlength⟩ := (h engine hengine).release
    refine ⟨fun lease hlease => ?_, fun home => ?_⟩
    · rw [(hleases lease hlease).home_eq]
      exact hleases lease hlease
    rw [buffersOf_singleton]
    by_cases hhome : engine.home = home
    · rw [if_pos hhome, ← Engine.share, ← hlength, List.countP_eq_length]
      exact fun lease hlease => by simp [(hleases lease hlease).home_eq, hhome]
    · rw [if_neg hhome, List.countP_eq_zero]
      exact fun lease hlease => by simp [(hleases lease hlease).home_eq, hhome]

-- A disposed stage, what it held given back
theorem dispose_eq (stage : Resampler σ) (depot : Depot) :
    stage.dispose depot = ({ stage with engine := none }, depot.takeBackAll stage.ownLeases,
      if stage.isDisposed then [] else [.disposed stage.width stage.height]) := by
  obtain ⟨source, format, width, height, engine⟩ := stage
  cases engine <;> rfl

variable [ImageSource σ]

-- A request changes the source and the window of a stage, and the source only by asking it
theorem source_answer_eq (stage : Resampler σ) (call : Call) :
    ∃ (source : σ) (reload : Window stage.format.channels stage.format.sample.Inner →
        Window stage.format.channels stage.format.sample.Inner),
      (ImageSource.answer stage call).source = { stage with
        source := source
        engine := stage.engine.map fun engine =>
          { engine with window := reload engine.window } } := by
  obtain ⟨source, format, width, height, engine⟩ := stage
  cases engine with
  | none => exact ⟨source, id, rfl⟩
  | some engine =>
    unfold ImageSource.answer
    simp only [ImageSource.copyRect, copyRect]
    split
    · exact ⟨source, id, rfl⟩
    · split
      · exact ⟨source, id, rfl⟩
      · exact ⟨_, fun _ => _, rfl⟩

theorem live_answer (stage : Resampler σ) (call : Call) :
    (ImageSource.answer stage call).source.live = stage.live := by
  obtain ⟨source, reload, hafter⟩ := stage.source_answer_eq call
  rw [hafter]
  unfold live
  cases stage.engine <;> rfl

theorem Backed.answer {stage : Resampler σ} (h : stage.Backed) (call : Call) :
    (ImageSource.answer stage call).source.Backed := by
  obtain ⟨source, reload, hafter⟩ := stage.source_answer_eq call
  rw [hafter]
  intro engine hengine
  obtain ⟨before, hbefore, rfl⟩ := Option.map_eq_some_iff.mp hengine
  exact h before hbefore

-- Whatever every request to a source keeps, a request to a stage over it keeps
theorem source_answer_preserves {I : σ → Prop}
    (hstep : ∀ source, I source → ∀ call, I (ImageSource.answer source call).source)
    {stage : Resampler σ} (h : I stage.source) (call : Call) :
    I (ImageSource.answer stage call).source.source := by
  have halike : ImageSource.Alike fun source other : σ => source = other ∧ I source :=
    { width_eq := fun source other hsame => by rw [hsame.1]
      height_eq := fun source other hsame => by rw [hsame.1]
      format_eq := fun source other hsame => by rw [hsame.1]
      answer := fun source other hsame call => by
        rw [← hsame.1]
        exact ⟨⟨rfl, hstep source hsame.2 call⟩, rfl, rfl, rfl⟩ }
  exact ((Resampler.alike halike).answer stage stage ⟨⟨rfl, h⟩, rfl⟩ call).source.1.2

end Resampler

namespace Layered

variable {β : Type}

-- The stages of a stack that are in use
def live : {depth : Nat} → Layered β depth → List (Nat × Bool)
  | 0, _ => []
  | _ + 1, stage => live (Resampler.source stage) ++ Resampler.live stage

def Backed : {depth : Nat} → Layered β depth → Prop
  | 0, _ => True
  | _ + 1, stage => Backed (Resampler.source stage) ∧ Resampler.Backed stage

variable [ImageSource β] {depth : Nat} {stack : Layered β depth}

theorem live_answer (stack : Layered β depth) (call : Call) :
    (ImageSource.answer stack call).source.live = stack.live := by
  induction depth generalizing call with
  | zero => rfl
  | succ depth ih =>
    have hsource : live (Resampler.source (ImageSource.answer stack call).source) =
        live (Resampler.source stack) :=
      Resampler.source_answer_preserves (I := fun source => live source =
        live (Resampler.source stack)) (fun source h call => (ih source call).trans h) rfl call
    exact congrArg₂ (· ++ ·) hsource (Resampler.live_answer (σ := Layered β depth) stack call)

theorem Backed.answer (h : stack.Backed) (call : Call) :
    Backed (ImageSource.answer stack call).source := by
  induction depth generalizing call with
  | zero => trivial
  | succ depth ih =>
    have hsource : Backed (Resampler.source (ImageSource.answer stack call).source) :=
      Resampler.source_answer_preserves (I := Backed) (fun source h call => ih h call) h.1 call
    exact ⟨hsource, Resampler.Backed.answer h.2 call⟩

-- What is given back when a stack is dropped, if it is over a source that holds nothing itself
theorem Backed.leases (hbare : ∀ source : β, ImageSource.leases source = []) (h : stack.Backed) :
    (∀ lease ∈ ImageSource.leases stack, lease.Backed lease.home) ∧
      ∀ home, (ImageSource.leases stack).countP (·.home = home) = buffersOf home stack.live := by
  induction depth with
  | zero =>
    have hnone : ImageSource.leases stack = [] := hbare stack
    rw [hnone]
    exact ⟨fun lease hlease => absurd hlease List.not_mem_nil, fun home => rfl⟩
  | succ depth ih =>
    obtain ⟨hbelow, hbelowCount⟩ := ih h.1
    obtain ⟨hown, hownCount⟩ := Resampler.Backed.ownLeases h.2
    have hleases : ImageSource.leases stack =
        ImageSource.leases (Resampler.source stack) ++ Resampler.ownLeases stack := rfl
    rw [hleases]
    refine ⟨fun lease hlease => ?_, fun home => ?_⟩
    · rcases List.mem_append.mp hlease with hlease | hlease
      · exact hbelow lease hlease
      · exact hown lease hlease
    · rw [List.countP_append, hbelowCount, hownCount]
      exact (buffersOf_append ..).symm

end Layered

namespace Stack

variable {β : Type}

def live (stack : Stack β) : List (Nat × Bool) := stack.top.live

def inUse (stack : Stack β) (home : Nat) : Nat := buffersOf home stack.live

def Backed (stack : Stack β) : Prop := stack.top.Backed

-- Disposes of the uppermost stage
def dispose (stack : Stack β) (depot : Depot) : Stack β × Depot × List Event :=
  match stack with
  | ⟨0, source⟩ => (⟨0, source⟩, depot, [])
  | ⟨depth + 1, stage⟩ =>
    let stage : Resampler (Layered β depth) := stage
    let (stage, depot, events) := stage.dispose depot
    (⟨depth + 1, stage⟩, depot, events)

-- Takes the uppermost stage off
def unwrap (stack : Stack β) (depot : Depot) : Stack β × Depot × List Event :=
  match stack with
  | ⟨0, source⟩ => (⟨0, source⟩, depot, [])
  | ⟨depth + 1, stage⟩ =>
    let stage : Resampler (Layered β depth) := stage
    let (source, depot, events) := stage.unwrap depot
    (⟨depth, source⟩, depot, events)

def raise {depth : Nat} (stage : Resampler (Layered β depth)) : Stack β := ⟨depth + 1, stage⟩

section Raise

variable {depth : Nat} {stage : Resampler (Layered β depth)} {depot : Depot}

theorem inUse_raise (stage : Resampler (Layered β depth)) (home : Nat) :
    (raise stage).inUse home = buffersOf home stage.source.live + stage.inUse home :=
  buffersOf_append ..

theorem dispose_raise (stage : Resampler (Layered β depth)) (depot : Depot) :
    (raise stage).dispose depot = (raise { stage with engine := none },
      depot.takeBackAll stage.ownLeases,
      if stage.isDisposed then [] else [.disposed stage.width stage.height]) :=
  congrArg (fun gone : Resampler (Layered β depth) × Depot × List Event =>
    (raise gone.1, gone.2)) (stage.dispose_eq depot)

-- The stage is disposed of before it is taken off
theorem unwrap_raise (stage : Resampler (Layered β depth)) (depot : Depot) :
    (raise stage).unwrap depot = (⟨depth, stage.source⟩, ((raise stage).dispose depot).2) := by
  have hunwrap : (raise stage).unwrap depot =
      (⟨depth, (stage.dispose depot).1.source⟩, (stage.dispose depot).2) := rfl
  rw [hunwrap, dispose_raise, stage.dispose_eq]

theorem moves_dispose_raise (htidy : depot.Tidy) (h : (raise stage).Backed) :
    ((raise stage).dispose depot).1.Backed ∧ depot.Moves ((raise stage).dispose depot).2.1
      (raise stage).inUse ((raise stage).dispose depot).1.inUse := by
  have hstage : stage.Backed := h.2
  obtain ⟨hleases, hcount⟩ := hstage.ownLeases
  rw [dispose_raise]
  refine ⟨⟨h.1, fun engine hengine => by cases hengine⟩,
    Depot.moves_takeBackAll htidy hleases fun home => ?_⟩
  rw [hcount home, inUse_raise, inUse_raise, Nat.add_comm]
  rfl

theorem moves_unwrap_raise (htidy : depot.Tidy) (h : (raise stage).Backed) :
    ((raise stage).unwrap depot).1.Backed ∧ depot.Moves ((raise stage).unwrap depot).2.1
      (raise stage).inUse ((raise stage).unwrap depot).1.inUse := by
  obtain ⟨-, hmoves⟩ := moves_dispose_raise htidy h
  have hgone : (raise { stage with engine := none }).inUse = inUse ⟨depth, stage.source⟩ :=
    funext fun home => congrArg (buffersOf home) (List.append_nil _)
  simp only [dispose_raise, hgone] at hmoves
  simp only [unwrap_raise, dispose_raise]
  exact ⟨h.1, hmoves⟩

end Raise

theorem moves_dispose {stack : Stack β} {depot : Depot} (htidy : depot.Tidy) (h : stack.Backed) :
    (stack.dispose depot).1.Backed ∧
      depot.Moves (stack.dispose depot).2.1 stack.inUse (stack.dispose depot).1.inUse := by
  obtain ⟨_ | depth, top⟩ := stack
  · exact ⟨h, .refl htidy _⟩
  · exact moves_dispose_raise htidy h

theorem moves_unwrap {stack : Stack β} {depot : Depot} (htidy : depot.Tidy) (h : stack.Backed) :
    (stack.unwrap depot).1.Backed ∧
      depot.Moves (stack.unwrap depot).2.1 stack.inUse (stack.unwrap depot).1.inUse := by
  obtain ⟨_ | depth, top⟩ := stack
  · exact ⟨h, .refl htidy _⟩
  · exact moves_unwrap_raise htidy h

variable [ImageSource β]

def setUp (stack : Stack β) (design : Design) (home : Nat) (depot : Depot) :
    Construction (Stack β) :=
  layer (design.setUp stack.top home depot)

variable {stack : Stack β} {depot : Depot}

theorem moves_drop (hbare : ∀ source : β, ImageSource.leases source = []) (htidy : depot.Tidy)
    (h : stack.Backed) : depot.Moves (stack.drop depot) stack.inUse fun _ => 0 := by
  obtain ⟨hleases, hcount⟩ := Layered.Backed.leases hbare h
  exact Depot.moves_takeBackAll htidy hleases fun home => (hcount home).symm

-- A construction that succeeds holds what its source held and what it has borrowed. One that
-- fails holds nothing.
def Settled (depot : Depot) (held : Nat → Nat) (made : Construction (Stack β)) : Prop :=
  match made.result with
  | .ok stack => stack.Backed ∧ depot.Moves made.depot held stack.inUse
  | .error _ => depot.Moves made.depot held fun _ => 0

omit [ImageSource β] in
theorem Settled.follows {held : Nat → Nat} {made : Construction (Stack β)}
    (h : Settled depot held made) : depot.Follows made.depot := by
  unfold Settled at h
  cases hresult : made.result with
  | error e =>
    rw [hresult] at h
    exact h.follows
  | ok stack =>
    rw [hresult] at h
    exact h.2.follows

theorem settled_setUp (hbare : ∀ source : β, ImageSource.leases source = []) (htidy : depot.Tidy)
    (h : stack.Backed) (design : Design) (home : Nat) :
    Settled depot stack.inUse (stack.setUp design home depot) := by
  have hborrows := design.borrows_equip htidy (ImageSource.format stack.top)
    (ImageSource.width stack.top) (ImageSource.height stack.top) home
  unfold setUp layer Settled
  rw [Design.setUp_eq]
  cases hequip : design.equip (ImageSource.format stack.top) (ImageSource.width stack.top)
      (ImageSource.height stack.top) home depot with
  | mk result after =>
    rw [hequip] at hborrows
    cases result with
    | error e =>
      -- the source is dropped, and nothing else was borrowed
      have hnone : depot.Moves after stack.inUse stack.inUse :=
        ⟨hborrows.follows, fun other => congrArg (· + (stack.inUse other : Int))
          (hborrows.out_of_error other)⟩
      exact hnone.trans (moves_drop hbare hborrows.follows.tidy h)
    | ok engine =>
      obtain ⟨hbacked, hhome, hsharpening⟩ := Design.backed_of_equip_eq_ok htidy hequip
      refine ⟨⟨h, fun other hother => ?_⟩, hborrows.follows, fun other => ?_⟩
      · cases hother
        exact hbacked
      · have hinUse : inUse ⟨stack.depth + 1, engine.stage stack.top engine.window⟩ other =
            stack.inUse other + if engine.home = other then engine.share else 0 :=
          (buffersOf_append ..).trans (congrArg _ (buffersOf_singleton ..))
        have hshare : engine.share = WorkBuffers.share design.sharpening.isSome := by
          rw [Engine.share, hsharpening]
        have hout := hborrows.out_of_ok other
        simp only [Resampler.install]
        rw [hinUse, hout, hhome, hshare]
        by_cases hother : other = home
        · simp only [hother, if_true]
          omega
        · simp only [hother, Ne.symm hother, if_false]
          omega

-- Two constructions after each other, the second of which takes over what the first has set up
def chain (made : Construction (Stack β)) (next : Stack β → Depot → Construction (Stack β)) :
    Construction (Stack β) :=
  match made.result with
  | .error e => { made with result := .error e }
  | .ok stack =>
    let after := next stack made.depot
    { after with events := made.events ++ after.events }

omit [ImageSource β] in
theorem settled_chain {held : Nat → Nat} {made : Construction (Stack β)}
    {next : Stack β → Depot → Construction (Stack β)} (hmade : Settled depot held made)
    (hnext : ∀ stack between, between.Tidy → stack.Backed →
      Settled between stack.inUse (next stack between)) :
    Settled depot held (chain made next) := by
  unfold chain Settled at *
  cases hresult : made.result with
  | error e =>
    rw [hresult] at hmade
    exact hmade
  | ok stack =>
    rw [hresult] at hmade
    obtain ⟨hbacked, hmoves⟩ := hmade
    have hafter := hnext stack made.depot hmoves.follows.tidy hbacked
    simp only
    cases hlast : (next stack made.depot).result with
    | error e =>
      rw [hlast] at hafter
      exact hmoves.trans hafter
    | ok last =>
      rw [hlast] at hafter
      exact ⟨hafter.1, hmoves.trans hafter.2⟩

-- An order that is valid is met by one stage or by two, all with buffers from the shared pool
def meet (stack : Stack β) (order : Resize) (depot : Depot) : Construction (Stack β) :=
  let resizing : Design := .resize order.filter.filter order.width order.height
  let resized := stack.setUp resizing Depot.shared depot
  match order.activeMask with
  | none => resized
  | some mask => chain resized fun stack depot => stack.setUp (.unsharp mask) Depot.shared depot

def ofPrepared {depth : Nat} : Prepared (Layered β depth) → Stack β
  | .resized stage => ⟨depth + 1, stage⟩
  | .sharpened stage => ⟨depth + 2, stage⟩

theorem prepare_eq (stack : Stack β) (order : Resize) (depot : Depot) :
    stack.prepare order depot =
      { result := (order.applyTo stack.top depot).result.map ofPrepared
        depot := (order.applyTo stack.top depot).depot
        events := (order.applyTo stack.top depot).events } := by
  unfold prepare
  generalize order.applyTo stack.top depot = made
  obtain ⟨result, after, events⟩ := made
  cases result with
  | error e => rfl
  | ok prepared => cases prepared <;> rfl

theorem prepare_of_error {order : Resize} {e : Error} (h : order.validate = .error e)
    (stack : Stack β) (depot : Depot) :
    stack.prepare order depot =
      { result := .error e, depot := stack.drop depot, events := [] } := by
  unfold prepare Resize.applyTo
  rw [h]
  rfl

theorem prepare_of_ok {order : Resize} (h : order.validate = .ok ()) (stack : Stack β)
    (depot : Depot) : stack.prepare order depot = stack.meet order depot := by
  rw [prepare_eq]
  unfold Resize.applyTo meet
  rw [h]
  simp only [setUp, layer, Design.setUp]
  generalize Resampler.resize stack.top order.filter.filter order.width order.height Depot.shared
    depot = resized
  obtain ⟨result, between, events⟩ := resized
  cases result with
  | error e => cases order.activeMask <;> rfl
  | ok stage =>
    cases order.activeMask with
    | none => rfl
    | some mask =>
      -- the second stage is over the first, as the one on top of the stack
      have hchain : ∀ sharpened : Construction (Resampler (Resampler (Layered β stack.depth))),
          (⟨(sharpened.result.map Prepared.sharpened).map ofPrepared, sharpened.depot,
            events ++ sharpened.events⟩ : Construction (Stack β)) =
          ⟨sharpened.result.map fun stage => ⟨stack.depth + 1 + 1, stage⟩, sharpened.depot,
            events ++ sharpened.events⟩ := by
        intro sharpened
        obtain ⟨result, after, later⟩ := sharpened
        cases result <;> rfl
      exact hchain (Resampler.unsharp stage mask Depot.shared between)

theorem settled_prepare (hbare : ∀ source : β, ImageSource.leases source = [])
    (htidy : depot.Tidy) (h : stack.Backed) (order : Resize) :
    Settled depot stack.inUse (stack.prepare order depot) := by
  cases hvalid : order.validate with
  | error e =>
    rw [prepare_of_error hvalid]
    have hdropped : depot.Moves (stack.drop depot) stack.inUse fun _ => 0 :=
      moves_drop hbare htidy h
    exact hdropped
  | ok =>
    have hresized := settled_setUp hbare htidy h
      (.resize order.filter.filter order.width order.height) Depot.shared
    rw [prepare_of_ok hvalid]
    unfold meet
    cases order.activeMask with
    | none => exact hresized
    | some mask =>
      exact settled_chain hresized fun stack between hbetween hstack =>
        settled_setUp hbare hbetween hstack (.unsharp mask) Depot.shared

end Stack

end Resampling
