import Resampling.Proofs.Holdings

-- Sessions: pools, and all the stacks and borrowed buffers that share them. Whatever is done in
-- a session, its accounts agree with what is in use.

namespace Resampling

section Exchange

variable {α ω : Type}

-- The list with another entry at a place, or with none
def exchange (as : List α) (i : Nat) (a : Option α) : List α :=
  as.take i ++ a.toList ++ as.drop (i + 1)

theorem map_exchange (f : α → ω) (as : List α) (i : Nat) (a : Option α) :
    (exchange as i a).map f = exchange (as.map f) i (a.map f) := by
  cases a <;> simp [exchange, List.map_take, List.map_drop]

theorem exists_exchange {as : List α} {i : Nat} {a : α} (h : as[i]? = some a) :
    ∃ before after, as = before ++ a :: after ∧
      ∀ next, exchange as i next = before ++ next.toList ++ after := by
  obtain ⟨hi, rfl⟩ := List.getElem?_eq_some_iff.mp h
  exact ⟨as.take i, as.drop (i + 1), by simp, fun next => rfl⟩

theorem mem_of_mem_exchange {as : List α} {i : Nat} {next : Option α} {a : α}
    (h : a ∈ exchange as i next) : a ∈ as ∨ next = some a := by
  unfold exchange at h
  simp only [List.mem_append, Option.mem_toList] at h
  rcases h with (h | h) | h
  · exact Or.inl (List.mem_of_mem_take h)
  · exact Or.inr h
  · exact Or.inl (List.mem_of_mem_drop h)

theorem sum_exchange {as : List α} {i : Nat} {a : α} (h : as[i]? = some a) (f : α → Nat)
    (next : Option α) :
    ((exchange as i next).map f).sum + f a = (as.map f).sum + next.elim 0 f := by
  obtain ⟨before, after, rfl, hexchange⟩ := exists_exchange h
  rw [hexchange]
  cases next <;> simp <;> omega

theorem countP_exchange {as : List α} {i : Nat} {a : α} (h : as[i]? = some a) (p : α → Bool)
    (next : Option α) :
    (exchange as i next).countP p + [a].countP p = as.countP p + next.toList.countP p := by
  obtain ⟨before, after, rfl, hexchange⟩ := exists_exchange h
  simp only [hexchange, List.countP_append, List.countP_cons, List.countP_nil]
  omega

end Exchange

-- What an action shows of itself
structure Reply where
  result : Except Error Unit
  bytes : Array UInt8
  events : List Event

def Reply.nothing : Reply := ⟨.ok (), #[], []⟩

-- What can be done with a stack
inductive Stack.Action
  | setUp (design : Design)
  | prepare (order : Resize)
  | read (call : Call)
  | dispose
  | unwrap
  | drop

-- What becomes of a stack that something is done with
structure Turn (β : Type) where
  stack : Option (Stack β)
  depot : Depot
  reply : Reply

namespace Turn

variable {β : Type}

-- A construction takes over the stack. If it fails the stack is gone.
def ofMade (made : Construction (Stack β)) : Turn β :=
  match made.result with
  | .error e => ⟨none, made.depot, ⟨.error e, #[], made.events⟩⟩
  | .ok stack => ⟨some stack, made.depot, ⟨.ok (), #[], made.events⟩⟩

def ofLeft (left : Stack β × Depot × List Event) : Turn β :=
  ⟨some left.1, left.2.1, ⟨.ok (), #[], left.2.2⟩⟩

def inUse (turn : Turn β) (home : Nat) : Nat := turn.stack.elim 0 (·.inUse home)

def Backed (turn : Turn β) : Prop := ∀ stack, turn.stack = some stack → stack.Backed

end Turn

namespace Stack

variable {β : Type} [ImageSource β]

def turn (stack : Stack β) (home : Nat) (depot : Depot) : Action → Turn β
  | .setUp design => .ofMade (stack.setUp design home depot)
  | .prepare order => .ofMade (stack.prepare order depot)
  | .read call =>
    let outcome := ImageSource.answer stack call
    ⟨some outcome.source, depot, ⟨outcome.result, outcome.state.toArray, outcome.events⟩⟩
  | .dispose => .ofLeft (stack.dispose depot)
  | .unwrap => .ofLeft (stack.unwrap depot)
  | .drop => ⟨none, stack.drop depot, .nothing⟩

end Stack

def Lease.write (lease : Lease) (bytes : Array UInt8) : Except Error Lease := do
  let buffer ← lease.buffer.write bytes
  return { lease with buffer := buffer }

-- What a borrower sees who looks at the elements
def Lease.reply (lease : Lease) : Reply :=
  match lease.buffer.view with
  | .error e => ⟨.error e, #[], []⟩
  | .ok bytes => ⟨.ok (), bytes, []⟩

theorem Lease.of_write_eq_ok {lease written : Lease} {bytes : Array UInt8}
    (h : lease.write bytes = .ok written) :
    written.home = lease.home ∧
      written.buffer.storage.capacity = lease.buffer.storage.capacity := by
  obtain ⟨buffer, hbuffer, h⟩ := bind_eq_ok_iff.mp h
  obtain ⟨_, -, hbuffer⟩ := bind_eq_ok_iff.mp hbuffer
  cases hbuffer
  cases h
  exact ⟨rfl, rfl⟩

structure Session (β : Type) where
  depot : Depot
  placed : List (Stack β)
  -- buffers that callers have borrowed for themselves
  held : List Lease

-- What can be done in a session. Stacks and borrowed buffers are known by their places.
inductive Session.Action (β : Type)
  | place (source : β)
  | act (i : Nat) (action : Stack.Action)
  | rent (size length : Nat)
  | write (j : Nat) (bytes : Array UInt8)
  | release (j : Nat)

namespace Session

variable {β : Type}

def start (depot : Depot) : Session β := ⟨depot, [], []⟩

-- The sources at the bottom of the stacks, which tell what they were asked for
def sources (session : Session β) : List β := session.placed.map (·.top.bottom)

-- How many buffers of a pool are in use
def inUse (session : Session β) (home : Nat) : Nat :=
  (session.placed.map (·.inUse home)).sum + session.held.countP (·.home = home)

def rent (session : Session β) (home size length : Nat) : Session β × Reply :=
  match session.depot.lend home size length with
  | (.error e, depot) => ({ session with depot := depot }, ⟨.error e, #[], []⟩)
  | (.ok lease, depot) =>
    ({ session with depot := depot, held := session.held ++ [lease] }, lease.reply)

def write (session : Session β) (j : Nat) (bytes : Array UInt8) : Session β × Reply :=
  match session.held[j]? with
  | none => (session, .nothing)
  | some lease =>
    match lease.write bytes with
    | .error e => (session, ⟨.error e, #[], []⟩)
    | .ok lease =>
      ({ session with held := exchange session.held j (some lease) }, lease.reply)

def release (session : Session β) (j : Nat) : Session β × Reply :=
  match session.held[j]? with
  | none => (session, .nothing)
  | some lease =>
    ({ session with
        depot := session.depot.takeBack lease
        held := exchange session.held j none }, .nothing)

structure Tidy (session : Session β) : Prop where
  depot : session.depot.Tidy
  placed : ∀ stack ∈ session.placed, stack.Backed
  held : ∀ lease ∈ session.held, lease.buffer.storage.Allocated

variable [ImageSource β]

def act (session : Session β) (home i : Nat) (action : Stack.Action) : Session β × Reply :=
  match session.placed[i]? with
  | none => (session, .nothing)
  | some stack =>
    let turn := stack.turn home session.depot action
    ({ session with depot := turn.depot, placed := exchange session.placed i turn.stack },
      turn.reply)

-- One action, with the pool `home` for what it borrows
def step (session : Session β) (home : Nat) : Action β → Session β × Reply
  | .place source => ({ session with placed := session.placed ++ [.base source] }, .nothing)
  | .act i action => session.act home i action
  | .rent size length => session.rent home size length
  | .write j bytes => session.write j bytes
  | .release j => session.release j

-- A run of actions, each with the pool it borrows from. Shown are the replies, and what the
-- sources tell after each action. Before each action the pools may be exchanged.
def runWith (renew : Depot → Depot) (session : Session β) :
    List (Nat × Action β) → Session β × List (Reply × List β)
  | [] => (session, [])
  | (home, action) :: script =>
    let (next, reply) := step { session with depot := renew session.depot } home action
    let (last, shown) := runWith renew next script
    (last, (reply, next.sources) :: shown)

def run (session : Session β) (script : List (Nat × Action β)) :
    Session β × List (Reply × List β) := runWith id session script

-- A run in which every action finds fresh pools, which nothing else has touched
def runApart (session : Session β) (script : List (Nat × Action β)) :
    Session β × List (Reply × List β) := runWith (fun _ => .fresh) session script

end Session

namespace Stack

variable {β : Type} {depot : Depot}

theorem Settled.ofMade {held : Nat → Nat} {made : Construction (Stack β)}
    (h : Settled depot held made) :
    (Turn.ofMade made).Backed ∧
      depot.Moves (Turn.ofMade made).depot held (Turn.ofMade made).inUse := by
  unfold Settled at h
  unfold Turn.ofMade
  cases hresult : made.result with
  | error e =>
    rw [hresult] at h
    exact ⟨fun stack hstack => (nomatch hstack), h⟩
  | ok stack =>
    rw [hresult] at h
    refine ⟨fun other hother => ?_, h.2⟩
    cases hother
    exact h.1

variable [ImageSource β] {stack : Stack β}

-- Whatever is done with a stack, the pools have lent what it holds then in place of what it held
theorem moves_turn (hbare : ∀ source : β, ImageSource.leases source = []) (htidy : depot.Tidy)
    (h : stack.Backed) (home : Nat) (action : Action) :
    (stack.turn home depot action).Backed ∧
      depot.Moves (stack.turn home depot action).depot stack.inUse
        (stack.turn home depot action).inUse := by
  have hleft : ∀ {left : Stack β × Depot × List Event}, left.1.Backed ∧
      depot.Moves left.2.1 stack.inUse left.1.inUse →
      (Turn.ofLeft left).Backed ∧ depot.Moves left.2.1 stack.inUse (Turn.ofLeft left).inUse := by
    rintro left ⟨hbacked, hmoves⟩
    refine ⟨fun other hother => ?_, hmoves⟩
    cases hother
    exact hbacked
  cases action with
  | setUp design => exact (settled_setUp hbare htidy h design home).ofMade
  | prepare order => exact (settled_prepare hbare htidy h order).ofMade
  | read call =>
    refine ⟨fun other hother => ?_, .refl htidy, fun pool => ?_⟩
    · cases hother
      exact Layered.Backed.answer h call
    · have hsame : (stack.turn home depot (.read call)).inUse pool = stack.inUse pool :=
        congrArg (buffersOf pool) (Layered.live_answer stack.top call)
      rw [hsame]
      rfl
  | dispose => exact hleft (moves_dispose htidy h)
  | unwrap => exact hleft (moves_unwrap htidy h)
  | drop => exact ⟨fun other hother => (nomatch hother), moves_drop hbare htidy h⟩

end Stack

namespace Session

variable {β : Type} {session : Session β}

theorem tidy_start {depot : Depot} (htidy : depot.Tidy) : (start depot : Session β).Tidy where
  depot := htidy
  placed _ h := absurd h List.not_mem_nil
  held _ h := absurd h List.not_mem_nil

-- How a session gets on to another: its pools have lent what is in use then in place of what was
-- in use
structure Advances (session next : Session β) : Prop where
  tidy : next.Tidy
  moves : session.depot.Moves next.depot session.inUse next.inUse

theorem Tidy.refl (h : session.Tidy) : session.Advances session := ⟨h, .refl h.depot _⟩

theorem Tidy.place [ImageSource β] (h : session.Tidy) (source : β) :
    session.Advances { session with placed := session.placed ++ [.base source] } where
  tidy :=
    { depot := h.depot
      placed := fun stack hstack => by
        rcases List.mem_append.mp hstack with hstack | hstack
        · exact h.placed stack hstack
        · rw [List.mem_singleton.mp hstack]
          trivial
      held := h.held }
  moves := ⟨.refl h.depot, fun home => by simp [inUse, Stack.base, Stack.inUse, Stack.live,
    Layered.live, buffersOf]⟩

theorem Tidy.rent (h : session.Tidy) (home size length : Nat) :
    session.Advances (session.rent home size length).1 := by
  unfold Session.rent
  rcases Depot.lend_spec h.depot home size length with
    ⟨-, lease, after, hlent, hhome, -, -, hallocated, hafter, hout⟩ | ⟨-, hlent⟩
  · rw [hlent]
    refine ⟨⟨hafter.tidy, h.placed, fun other hother => ?_⟩, hafter, fun pool => ?_⟩
    · rcases List.mem_append.mp hother with hother | hother
      · exact h.held other hother
      · rw [List.mem_singleton.mp hother]
        exact hallocated
    · have hone : [lease].countP (·.home = pool) = if pool = home then 1 else 0 := by
        simp [hhome, eq_comm]
      simp only [hout pool, inUse, List.countP_append, hone]
      split <;> omega
  · rw [hlent]
    exact ⟨⟨h.depot, h.placed, h.held⟩, Depot.follows_asked h.depot, fun _ => rfl⟩

theorem Tidy.write (h : session.Tidy) (j : Nat) (bytes : Array UInt8) :
    session.Advances (session.write j bytes).1 := by
  unfold Session.write
  cases hlease : session.held[j]? with
  | none => exact h.refl
  | some lease =>
    cases hwrite : lease.write bytes with
    | error e =>
      simp only [hwrite]
      exact h.refl
    | ok written =>
      obtain ⟨hhome, hcapacity⟩ := Lease.of_write_eq_ok hwrite
      simp only [hwrite]
      refine ⟨⟨h.depot, h.placed, fun other hother => ?_⟩, .refl h.depot, fun pool => ?_⟩
      · rcases mem_of_mem_exchange hother with hother | hother
        · exact h.held other hother
        · cases hother
          rw [Storage.Allocated, hcapacity]
          exact h.held lease (List.mem_of_getElem? hlease)
      · have hcount := countP_exchange hlease (·.home = pool) (some written)
        have hsame : [written].countP (·.home = pool) = [lease].countP (·.home = pool) := by
          simp [hhome]
        simp only [Option.toList, hsame] at hcount
        simp only [inUse]
        omega

theorem Tidy.release (h : session.Tidy) (j : Nat) :
    session.Advances (session.release j).1 := by
  unfold Session.release
  cases hlease : session.held[j]? with
  | none => exact h.refl
  | some lease =>
    obtain ⟨hafter, hout⟩ := Depot.takeBack_spec h.depot
      (h.held lease (List.mem_of_getElem? hlease))
    refine ⟨⟨hafter.tidy, h.placed, fun other hother => ?_⟩, hafter, fun pool => ?_⟩
    · rcases mem_of_mem_exchange hother with hother | hother
      · exact h.held other hother
      · cases hother
    · have hcount := countP_exchange hlease (·.home = pool) none
      have hone : [lease].countP (·.home = pool) = if pool = lease.home then 1 else 0 := by
        simp [eq_comm]
      simp only [Option.toList, hone, List.countP_nil] at hcount
      simp only [hout pool, inUse]
      split at hcount <;> omega

variable [ImageSource β]

theorem Tidy.act (hbare : ∀ source : β, ImageSource.leases source = []) (h : session.Tidy)
    (home i : Nat) (action : Stack.Action) : session.Advances (session.act home i action).1 := by
  unfold Session.act
  cases hstack : session.placed[i]? with
  | none => exact h.refl
  | some stack =>
    obtain ⟨hbacked, hafter, hout⟩ := Stack.moves_turn hbare h.depot
      (h.placed stack (List.mem_of_getElem? hstack)) home action
    refine ⟨⟨hafter.tidy, fun other hother => ?_, h.held⟩, hafter, fun pool => ?_⟩
    · rcases mem_of_mem_exchange hother with hother | hother
      · exact h.placed other hother
      · exact hbacked other hother
    · have hturn := hout pool
      have hsum := sum_exchange hstack (·.inUse pool) (stack.turn home session.depot action).stack
      unfold Turn.inUse at hturn
      simp only [inUse]
      omega

theorem Tidy.step (hbare : ∀ source : β, ImageSource.leases source = []) (h : session.Tidy)
    (home : Nat) (action : Action β) : session.Advances (session.step home action).1 := by
  cases action with
  | place source => exact h.place source
  | act i action => exact h.act hbare home i action
  | rent size length => exact h.rent home size length
  | write j bytes => exact h.write j bytes
  | release j => exact h.release j

theorem Tidy.run (hbare : ∀ source : β, ImageSource.leases source = []) (h : session.Tidy)
    (script : List (Nat × Action β)) : session.Advances (session.run script).1 := by
  induction script generalizing session with
  | nil => exact h.refl
  | cons entry script ih =>
    obtain ⟨hnext, hmoves⟩ := h.step hbare entry.1 entry.2
    obtain ⟨hlast, hrest⟩ := ih hnext
    exact ⟨hlast, hmoves.trans hrest⟩

end Session

end Resampling
