import Mathlib
import Resampling.Proofs.Lending

-- Accounts of pools: how many of its buffers are out, how many lie idle, and what a loan is
-- like whatever lay idle before

namespace Resampling

-- Storage of a size that can be allocated
def Storage.Allocated (storage : Storage) : Prop :=
  storage.capacity * Storage.wordSize ≤ Word.maxAllocation

instance (storage : Storage) : Decidable storage.Allocated := inferInstanceAs (Decidable (_ ≤ _))

-- A buffer as its borrower sees it, whatever storage it is in
def Buffer.unbacked (buffer : Buffer) : Buffer :=
  { buffer with storage := { buffer.storage with capacity := 0 } }

-- Whole words that hold `length` elements of `size` bytes
def Storage.wordsFor (size length : Nat) : Nat :=
  (length * size + (Storage.wordSize - 1)) / Storage.wordSize

-- These words are a whole number of elements. There is one that takes no bytes only if none are
-- asked for.
def Storage.Whole (size length : Nat) : Prop :=
  size ∣ wordsFor size length * wordSize ∧ (size = 0 → length = 0)

instance (size length : Nat) : Decidable (Storage.Whole size length) :=
  inferInstanceAs (Decidable (_ ∧ _))

theorem Storage.le_wordsFor (size length : Nat) :
    length * size ≤ wordsFor size length * wordSize := by
  unfold wordsFor wordSize
  omega

-- Elements of one, two or four bytes fill words whatever their number, and so do elements of words
theorem Storage.whole_of_dvd {size : Nat} (h : size ∣ wordSize) (length : Nat) :
    Whole size length := by
  refine ⟨h.mul_left _, ?_⟩
  rintro rfl
  cases Nat.eq_zero_of_zero_dvd h

theorem Storage.whole_of_words {size : Nat} (hpos : 0 < size) (h : wordSize ∣ size)
    (length : Nat) : Whole size length := by
  have hwords : wordsFor size length * wordSize = length * size := by
    obtain ⟨count, rfl⟩ := h
    unfold wordsFor wordSize
    rw [Nat.mul_left_comm]
    omega
  exact ⟨hwords ▸ Nat.dvd_mul_left .., fun hzero => by omega⟩

-- A new buffer as its borrower sees it
def Buffer.cleared (size length : Nat) : Buffer where
  storage := ⟨0, Array.replicate (Storage.wordsFor size length * Storage.wordSize) 0⟩
  size := size
  length := length

theorem Buffer.bytes_cleared (size length : Nat) :
    (cleared size length).bytes = Array.replicate (length * size) 0 := by
  simp [bytes, cleared, Storage.le_wordsFor]

-- All elements of it read zero, if they can be read
theorem Buffer.view_cleared (size length : Nat) :
    (cleared size length).view =
      if Storage.Whole size length then .ok (Array.replicate (length * size) 0)
      else .error .fault := by
  have hle := Storage.le_wordsFor size length
  have hwhole : Storage.wordsFor size length * Storage.wordSize / size * size =
        Storage.wordsFor size length * Storage.wordSize ∧
      length ≤ Storage.wordsFor size length * Storage.wordSize / size ↔
        Storage.Whole size length := by
    unfold Storage.Whole
    rw [← Nat.dvd_iff_div_mul_eq]
    refine and_congr_right fun hdvd => ?_
    rcases Nat.eq_zero_or_pos size with rfl | hpos
    · simp
    · rw [Nat.le_div_iff_mul_le hpos]
      exact iff_of_true hle fun hzero => by omega
  unfold view
  rw [bytes_cleared]
  simp only [cleared, Array.size_replicate, hwhole]

theorem Buffer.bytes_unbacked (buffer : Buffer) : buffer.unbacked.bytes = buffer.bytes := rfl

theorem Buffer.view_unbacked (buffer : Buffer) : buffer.unbacked.view = buffer.view := rfl

theorem Buffer.of_view_eq_ok {buffer : Buffer} {elements : Array UInt8}
    (h : buffer.view = .ok elements) : elements = buffer.bytes := by
  unfold view at h
  simp only at h
  split at h
  · cases h
    rfl
  · cases h

-- What is written changes no more than what the elements are
theorem Buffer.view_store {buffer : Buffer} {elements : Array UInt8}
    (h : buffer.view = .ok elements) (bytes : Array UInt8) :
    (buffer.store bytes).view = .ok (buffer.store bytes).bytes := by
  unfold view at h ⊢
  have hsize : (buffer.store bytes).storage.bytes.size = buffer.storage.bytes.size :=
    Span.size_overwrite ..
  rw [hsize]
  by_cases hwhole : buffer.storage.bytes.size / buffer.size * buffer.size =
      buffer.storage.bytes.size ∧ buffer.length ≤ buffer.storage.bytes.size / buffer.size
  · exact if_pos hwhole
  · rw [if_neg hwhole] at h
    cases h

def Lease.unbacked (lease : Lease) : Lease :=
  { home := Depot.shared, buffer := lease.buffer.unbacked }

-- A lease of a buffer whose elements can be seen, and which is kept when it goes back to its pool
structure Lease.Backed (lease : Lease) (home : Nat) : Prop where
  home_eq : lease.home = home
  allocated : lease.buffer.storage.Allocated
  capacity_pos : 0 < lease.buffer.storage.capacity
  view_eq : lease.buffer.view = .ok lease.buffer.bytes

theorem Lease.Backed.store {lease : Lease} {home : Nat} (h : lease.Backed home)
    (bytes : Array UInt8) : Lease.Backed ⟨lease.home, lease.buffer.store bytes⟩ home where
  home_eq := h.home_eq
  allocated := h.allocated
  capacity_pos := h.capacity_pos
  view_eq := Buffer.view_store h.view_eq bytes

-- A choice made along a list is an entry of it
theorem mem_of_foldl_choose {α : Type} {f : Option α → α → Option α}
    (hf : ∀ best a, f best a = best ∨ f best a = some a) {as : List α} {a : α}
    (h : as.foldl f none = some a) : a ∈ as := by
  have hstart : ∀ best, as.foldl f best = some a → best = some a ∨ a ∈ as := by
    clear h
    induction as with
    | nil => exact fun best h => Or.inl h
    | cons b as ih =>
      intro best h
      rcases ih (f best b) h with hbest | hmem
      · rcases hf best b with hsame | htaken
        · exact Or.inl (hsame.symm.trans hbest)
        · cases htaken.symm.trans hbest
          exact Or.inr List.mem_cons_self
      · exact Or.inr (List.mem_cons_of_mem b hmem)
  rcases hstart none h with hnone | hmem
  · cases hnone
  · exact hmem

namespace Pool

-- What lies idle was allocated once, and is no more than the pool keeps
structure Sound (pool : Pool) : Prop where
  allocated : ∀ storage ∈ pool.idle, storage.Allocated
  idle_le : pool.idle.size ≤ pool.retain

-- How many buffers are lent and not taken back
def out (pool : Pool) : Int := pool.lent - pool.returned

variable {pool : Pool}

theorem sound_empty (retain : Nat) : (empty retain).Sound where
  allocated storage h := by simp [empty] at h
  idle_le := Nat.zero_le retain

-- The buffer that is picked is large enough
theorem le_capacity_of_bestFit {words : Nat} {i : Fin pool.idle.size}
    (h : pool.bestFit words = some i) (hi : i.val < pool.idle.size) :
    words ≤ pool.idle[i.val].capacity := by
  have hmem : i ∈ (List.finRange pool.idle.size).filter fun i => words ≤ pool.idle[i].capacity := by
    refine mem_of_foldl_choose (fun best j => ?_) h
    cases best with
    | none => exact Or.inr rfl
    | some b =>
      by_cases hless : pool.idle[j].capacity < pool.idle[b].capacity
      · exact Or.inr (if_pos hless)
      · exact Or.inl (if_neg hless)
  simpa using (List.mem_filter.mp hmem).2

theorem mem_of_mem_swap_pop {i : Fin pool.idle.size} {storage : Storage}
    (h : storage ∈ (pool.idle.swapIfInBounds i (pool.idle.size - 1)).pop) :
    storage ∈ pool.idle := by
  have hlast : pool.idle.size - 1 < pool.idle.size := by
    have hi := i.isLt
    omega
  have hswap : pool.idle.swapIfInBounds i (pool.idle.size - 1) =
      pool.idle.swap i (pool.idle.size - 1) i.isLt hlast := by
    unfold Array.swapIfInBounds
    rw [dif_pos i.isLt, dif_pos hlast]
  rw [hswap, Array.mem_def, Array.toList_pop] at h
  have hmem := Array.mem_def.mpr (List.dropLast_subset _ h)
  exact (Array.swap_perm i.isLt hlast).mem_iff.mp hmem

-- Storage comes out of the pool or is new. If there is memory, it comes whenever that many words
-- can be allocated, whatever lies idle.
theorem take_spec (hsound : pool.Sound) (memory : Memory) (words : Nat) :
    (words * Storage.wordSize ≤ Word.maxAllocation ∧ ∃ storage after,
      pool.take memory words = .ok (storage, after) ∧ words ≤ storage.capacity ∧
        storage.Allocated ∧ after.Sound ∧ after.out = pool.out) ∨
    (memory words → ¬words * Storage.wordSize ≤ Word.maxAllocation) ∧
      pool.take memory words = .error .outOfMemory := by
  unfold take
  cases hfit : pool.bestFit words with
  | some i =>
    have hle := le_capacity_of_bestFit hfit i.isLt
    have hallocated := hsound.allocated _ (Array.getElem_mem i.isLt)
    refine Or.inl ⟨Nat.le_trans (Nat.mul_le_mul_right _ hle) hallocated, _, _, rfl, hle, hallocated,
      ⟨fun storage hmem => hsound.allocated storage (mem_of_mem_swap_pop hmem), ?_⟩, rfl⟩
    have hidle := hsound.idle_le
    simp only [Array.size_pop, Array.size_swapIfInBounds]
    omega
  | none =>
    unfold Storage.allocate
    by_cases hgranted : words * Storage.wordSize ≤ Word.maxAllocation ∧ (words = 0 ∨ memory words)
    · rw [if_pos hgranted]
      exact Or.inl ⟨hgranted.1, _, _, rfl, Nat.le_refl _, hgranted.1, hsound, rfl⟩
    · rw [if_neg hgranted]
      exact Or.inr ⟨fun hmemory hwords => hgranted ⟨hwords, Or.inr hmemory⟩, rfl⟩

-- Whether one allocation can hold `length` elements of `size` bytes
def Lendable (size length : Nat) : Prop :=
  length * size < Word.limit ∧
    Storage.wordsFor size length * Storage.wordSize ≤ Word.maxAllocation

-- A loan is a cleared buffer, whatever was left in what lay idle. If there is memory, whether
-- there is one does not depend on the pool.
theorem lend_spec (hsound : pool.Sound) (size length : Nat) (memory : Memory) :
    (Lendable size length ∧ ∃ buffer after, pool.lend size length memory = .ok (buffer, after) ∧
      buffer.unbacked = .cleared size length ∧
      Storage.wordsFor size length ≤ buffer.storage.capacity ∧ buffer.storage.Allocated ∧
      after.Sound ∧ after.out = pool.out + 1) ∨
    (memory (Storage.wordsFor size length) → ¬Lendable size length) ∧
      pool.lend size length memory = .error .outOfMemory := by
  unfold lend
  by_cases hbytes : length * size < Word.limit
  · have hmul : Word.mul? length size = some (length * size) :=
      Word.mul?_eq_some_iff.mpr ⟨hbytes, rfl⟩
    rw [hmul]
    rcases take_spec hsound memory (Storage.wordsFor size length) with
      ⟨hfits, storage, after, htaken, hwords, hallocated, hafter, hout⟩ | ⟨hfits, hrefused⟩
    · refine Or.inl ⟨⟨hbytes, hfits⟩,
        ⟨storage.clear.resize (Storage.wordsFor size length * Storage.wordSize), size, length⟩,
        { after with lent := after.lent + 1 }, ?_, ?_, hwords, hallocated,
        ⟨hafter.allocated, hafter.idle_le⟩, ?_⟩
      · exact bind_eq_ok_iff.mpr ⟨_, htaken, rfl⟩
      · simp [Buffer.unbacked, Buffer.cleared, Storage.resize, Storage.clear]
      · rw [← hout]
        simp only [out]
        omega
    · refine Or.inr ⟨fun hmemory h => hfits hmemory h.2, ?_⟩
      simp only
      rw [show (length * size + (Storage.wordSize - 1)) / Storage.wordSize =
        Storage.wordsFor size length from rfl, hrefused]
      rfl
  · have hmul : Word.mul? length size = none := by
      unfold Word.mul?
      rw [if_neg hbytes]
    rw [hmul]
    exact Or.inr ⟨fun _ h => hbytes h.1, rfl⟩

theorem takeBack_spec (hsound : pool.Sound) {storage : Storage} (hallocated : storage.Allocated) :
    (pool.takeBack storage).Sound ∧ (pool.takeBack storage).out = pool.out - 1 ∧
      (pool.takeBack storage).retain = pool.retain ∧
      (0 < storage.capacity →
        (pool.takeBack storage).idle.size = min pool.retain (pool.idle.size + 1)) := by
  have hidle := hsound.idle_le
  have hout : ∀ idle, out { pool with returned := pool.returned + 1, idle } = pool.out - 1 := by
    intro idle
    simp only [out]
    omega
  unfold takeBack
  by_cases hkept : storage.capacity ≠ 0 ∧ pool.idle.size < pool.retain
  · rw [if_pos hkept]
    refine ⟨⟨fun other h => ?_, ?_⟩, hout _, rfl, fun _ => ?_⟩
    · rcases Array.mem_push.mp h with hmem | rfl
      · exact hsound.allocated other hmem
      · exact hallocated
    · simp only [Array.size_push]
      exact hkept.2
    · simp only [Array.size_push]
      omega
  · rw [if_neg hkept]
    refine ⟨⟨hsound.allocated, hidle⟩, hout _, rfl, fun hpos => ?_⟩
    show pool.idle.size = _
    omega

end Pool

namespace Depot

variable {α ω : Type} {depot : Depot} {home size : Nat}

-- All pools are in order, whatever there is memory for
def Tidy (depot : Depot) : Prop := ∀ home, (depot.pool home).Sound

-- There is memory for whatever one allocation can hold
def Ample (depot : Depot) : Prop := ∀ n, depot.memory n = .ample

structure Sound (depot : Depot) : Prop where
  tidy : depot.Tidy
  ample : depot.Ample

-- A depot in order, and as ample as the one that it came out of
structure Follows (depot after : Depot) : Prop where
  tidy : after.Tidy
  ample : depot.Ample → after.Ample

theorem Follows.refl (htidy : depot.Tidy) : depot.Follows depot := ⟨htidy, id⟩

theorem Follows.trans {between after : Depot} (h : depot.Follows between)
    (hnext : between.Follows after) : depot.Follows after :=
  ⟨hnext.tidy, fun hample => hnext.ample (h.ample hample)⟩

theorem Follows.sound {after : Depot} (h : depot.Follows after) (hsound : depot.Sound) :
    after.Sound := ⟨h.tidy, h.ample hsound.ample⟩

def out (depot : Depot) (home : Nat) : Int := (depot.pool home).out

theorem sound_fresh : fresh.Sound := ⟨fun _ => Pool.sound_empty 16, fun _ => rfl⟩

theorem follows_asked (htidy : depot.Tidy) : depot.Follows depot.asked :=
  ⟨htidy, fun hample n => hample (n + 1)⟩

theorem follows_update (htidy : depot.Tidy) {pool : Pool} (hpool : pool.Sound) :
    depot.Follows (depot.update home pool) := by
  refine ⟨fun other => ?_, id⟩
  by_cases h : other = home
  · rw [h, pool_update_self]
    exact hpool
  · rw [pool_update_other depot pool h]
    exact htidy other

-- A count of one pool moved by `change` where the buffer is from that pool
theorem out_update {pool : Pool} {change : Int} (hpool : pool.out = (depot.pool home).out + change)
    (other : Nat) :
    (depot.update home pool).out other = depot.out other + if other = home then change else 0 := by
  unfold out
  by_cases h : other = home
  · rw [h, pool_update_self, if_pos rfl]
    exact hpool
  · rw [pool_update_other depot pool h, if_neg h, Int.add_zero]

theorem lend_spec (htidy : depot.Tidy) (home size length : Nat) :
    (Pool.Lendable size length ∧ ∃ lease after,
      depot.lend home size length = (.ok lease, after) ∧ lease.home = home ∧
      lease.unbacked = ⟨shared, .cleared size length⟩ ∧
      Storage.wordsFor size length ≤ lease.buffer.storage.capacity ∧
      lease.buffer.storage.Allocated ∧ depot.Follows after ∧
      ∀ other, after.out other = depot.out other + if other = home then 1 else 0) ∨
    (depot.Ample → ¬Pool.Lendable size length) ∧
      depot.lend home size length = (.error .outOfMemory, depot.asked) := by
  rcases Pool.lend_spec (htidy home) size length (depot.memory 0) with
    ⟨hlendable, buffer, pool, hlent, hcleared, hwords, hallocated, hpool, hout⟩ | ⟨hnone, hlent⟩
  · have hasked := follows_asked htidy
    refine Or.inl ⟨hlendable, ⟨home, buffer⟩, depot.asked.update home pool, ?_, rfl, ?_, hwords,
      hallocated, hasked.trans (follows_update hasked.tidy hpool), out_update hout⟩
    · unfold lend
      rw [hlent]
    · rw [Lease.unbacked, hcleared]
  · refine Or.inr ⟨fun hample => hnone (by rw [hample 0]; rfl), ?_⟩
    unfold lend
    rw [hlent]

theorem takeBack_spec (htidy : depot.Tidy) {lease : Lease}
    (hallocated : lease.buffer.storage.Allocated) :
    depot.Follows (depot.takeBack lease) ∧ ∀ other, (depot.takeBack lease).out other =
      depot.out other - if other = lease.home then 1 else 0 := by
  obtain ⟨hpool, hout, -⟩ := Pool.takeBack_spec (htidy lease.home) hallocated
  refine ⟨follows_update htidy hpool, fun other => ?_⟩
  rw [takeBack, out_update (hout.trans (Int.sub_eq_add_neg))]
  split <;> omega

theorem takeBackAll_spec (htidy : depot.Tidy) {leases : List Lease}
    (hallocated : ∀ lease ∈ leases, lease.buffer.storage.Allocated) :
    depot.Follows (depot.takeBackAll leases) ∧ ∀ other, (depot.takeBackAll leases).out other =
      depot.out other - leases.countP (·.home = other) := by
  induction leases generalizing depot with
  | nil => exact ⟨.refl htidy, fun other => by simp [takeBackAll]⟩
  | cons lease leases ih =>
    rw [List.forall_mem_cons] at hallocated
    obtain ⟨hafter, hout⟩ := takeBack_spec htidy hallocated.1
    obtain ⟨hlast, hrest⟩ := ih hafter.tidy hallocated.2
    refine ⟨hafter.trans hlast, fun other => ?_⟩
    have hstep : (depot.takeBackAll (lease :: leases)).out other =
        ((depot.takeBack lease).takeBackAll leases).out other := rfl
    rw [hstep, hrest other, hout other, List.countP_cons]
    by_cases hhome : lease.home = other
    · simp only [hhome, if_true, decide_true]
      omega
    · simp only [hhome, Ne.symm hhome, if_false, decide_false, Bool.false_eq_true]
      omega

-- Buffers that go back lie idle in their pools, as many as these keep
theorem idle_takeBackAll (htidy : depot.Tidy) {leases : List Lease}
    (hleases : ∀ lease ∈ leases, lease.Backed lease.home) (home : Nat) :
    ((depot.takeBackAll leases).pool home).idle.size =
      min (depot.pool home).retain
        ((depot.pool home).idle.size + leases.countP (·.home = home)) := by
  induction leases generalizing depot with
  | nil =>
    have hidle := (htidy home).idle_le
    simp [takeBackAll]
    omega
  | cons lease leases ih =>
    rw [List.forall_mem_cons] at hleases
    obtain ⟨⟨-, hallocated, hcapacity⟩, hrest⟩ := hleases
    have hlast := ih (takeBack_spec htidy hallocated).1.tidy hrest
    have hstep : depot.takeBackAll (lease :: leases) = (depot.takeBack lease).takeBackAll leases :=
      rfl
    rw [hstep, hlast, List.countP_cons]
    by_cases hhome : lease.home = home
    · obtain ⟨-, -, hretain, hidle⟩ := Pool.takeBack_spec (htidy lease.home) hallocated
      have hpool : (depot.takeBack lease).pool home =
          (depot.pool lease.home).takeBack lease.buffer.storage := by
        rw [takeBack, ← hhome, pool_update_self]
      rw [hpool, hretain, hidle hcapacity]
      simp only [hhome, decide_true, if_true]
      omega
    · have hpool : (depot.takeBack lease).pool home = depot.pool home :=
        pool_update_other depot _ (Ne.symm hhome)
      rw [hpool]
      simp only [hhome, decide_false, Bool.false_eq_true, if_false, Nat.add_zero]

-- A step of a construction that has borrowed `count` buffers if it succeeds, and else none
structure Borrows (depot : Depot) (home count : Nat) (made : Except Error α × Depot) : Prop where
  follows : depot.Follows made.2
  out : ∀ other, made.2.out other =
    depot.out other + if made.1.isOk ∧ other = home then (count : Int) else 0

namespace Borrows

variable {count : Nat} {after : Depot}

theorem out_of_ok {value : α} (h : depot.Borrows home count (.ok value, after)) (other : Nat) :
    after.out other = depot.out other + if other = home then (count : Int) else 0 := by
  simpa [Except.isOk, Except.toBool] using h.out other

theorem out_of_error {e : Error}
    (h : depot.Borrows home count ((.error e, after) : Except Error α × Depot)) (other : Nat) :
    after.out other = depot.out other := by
  simpa [Except.isOk, Except.toBool] using h.out other

end Borrows

theorem borrows_error {after : Depot} (hafter : depot.Follows after)
    (hout : ∀ other, after.out other = depot.out other) (home count : Nat) (e : Error) :
    depot.Borrows home count ((.error e, after) : Except Error α × Depot) where
  follows := hafter
  out other := by simp [hout, Except.isOk, Except.toBool]

-- A loan for the rest of a construction, which is taken back if the rest fails
theorem borrows_lending (htidy : depot.Tidy) {count : Nat} (length : Option Nat)
    {rest : Lease → Depot → Except Error α × Depot}
    (hrest : ∀ lease (between : Depot), between.Tidy →
      between.Borrows home count (rest lease between)) :
    depot.Borrows home (count + 1) (depot.lending home size length rest) := by
  unfold lending
  cases length with
  | none => exact borrows_error (.refl htidy) (fun _ => rfl) home _ _
  | some length =>
    rcases lend_spec htidy home size length with
      ⟨-, lease, between, hlent, rfl, -, -, hallocated, hbetween, hout⟩ | ⟨-, hlent⟩
    · simp only [hlent]
      have hmade := hrest lease between hbetween.tidy
      cases hcase : rest lease between with
      | mk result after =>
        rw [hcase] at hmade
        cases result with
        | ok value =>
          refine ⟨hbetween.trans hmade.follows, fun other => ?_⟩
          have hafter := hmade.out_of_ok other
          rw [hafter, hout other]
          by_cases hhome : other = lease.home
          · simp [hhome, Except.isOk, Except.toBool]
            omega
          · simp [hhome]
        | error e =>
          obtain ⟨hback, hbackOut⟩ := takeBack_spec hmade.follows.tidy hallocated
          refine ⟨(hbetween.trans hmade.follows).trans hback, fun other => ?_⟩
          have hafter := hmade.out_of_error other
          have hnone : (depot.out other + if other = lease.home then (1 : Int) else 0) -
              (if other = lease.home then 1 else 0) = depot.out other := by omega
          simp only [hbackOut other, hafter, hout other, hnone]
          simp [Except.isOk, Except.toBool]
    · simp only [hlent]
      exact borrows_error (follows_asked htidy) (fun _ => rfl) home _ _

theorem fst_lending {length : Nat} {lease : Lease} {between : Depot}
    (hlent : depot.lend home size length = (.ok lease, between))
    (rest : Lease → Depot → Except Error α × Depot) :
    (depot.lending home size (some length) rest).1 = (rest lease between).1 := by
  unfold lending
  simp only [hlent]
  cases hmade : rest lease between with
  | mk result after => cases result <;> rfl

-- Where there is memory, what comes of a loan shows nothing of the pools, as long as the rest
-- shows nothing
theorem map_lending {view : α → ω} {other : Depot} (hsound : depot.Sound) (hother : other.Sound)
    {away : Nat} (length : Option Nat) {rest rest' : Lease → Depot → Except Error α × Depot}
    (hrest : ∀ lease lease' between between', between.Sound → between'.Sound →
      lease.unbacked = lease'.unbacked →
        (rest lease between).1.map view = (rest' lease' between').1.map view) :
    (depot.lending home size length rest).1.map view =
      (other.lending away size length rest').1.map view := by
  cases length with
  | none => rfl
  | some length =>
    rcases lend_spec hsound.tidy home size length with
      ⟨hlendable, lease, between, hlent, -, hcleared, -, -, hbetween, -⟩ | ⟨hnone, hlent⟩
    · rcases lend_spec hother.tidy away size length with
        ⟨-, lease', between', hlent', -, hcleared', -, -, hbetween', -⟩ | ⟨hnone, -⟩
      · rw [fst_lending hlent, fst_lending hlent']
        exact hrest lease lease' between between' (hbetween.sound hsound)
          (hbetween'.sound hother) (hcleared.trans hcleared'.symm)
      · exact absurd hlendable (hnone hother.ample)
    · rcases lend_spec hother.tidy away size length with ⟨hlendable, -⟩ | ⟨-, hlent'⟩
      · exact absurd hlendable (hnone hsound.ample)
      · unfold lending
        simp only [hlent, hlent']

theorem backed_of_lending_eq_ok (htidy : depot.Tidy) (hsize : size ∣ Storage.wordSize)
    {length : Option Nat} (hlength : ∀ count, length = some count → 0 < count)
    {rest : Lease → Depot → Except Error α × Depot} {value : α} {after : Depot}
    (h : depot.lending home size length rest = (.ok value, after)) :
    ∃ lease between, lease.Backed home ∧ between.Tidy ∧
      rest lease between = (.ok value, after) := by
  unfold lending at h
  cases length with
  | none => cases h
  | some count =>
    rcases lend_spec htidy home size count with
      ⟨-, lease, between, hlent, hhome, hcleared, hwords, hallocated, hbetween, -⟩ | ⟨-, hlent⟩
    · simp only [hlent] at h
      have hcount := Nat.mul_pos (hlength count rfl) (Nat.pos_of_dvd_of_pos hsize (by decide))
      have hpos : 0 < lease.buffer.storage.capacity := by
        unfold Storage.wordsFor Storage.wordSize at hwords
        omega
      have hview : lease.buffer.view = .ok lease.buffer.bytes := by
        have hbuffer : lease.buffer.unbacked = .cleared size count := congrArg Lease.buffer hcleared
        rw [← Buffer.view_unbacked, ← Buffer.bytes_unbacked, hbuffer, Buffer.view_cleared,
          if_pos (Storage.whole_of_dvd hsize count)]
        exact congrArg Except.ok (Buffer.bytes_cleared size count).symm
      refine ⟨lease, between, ⟨hhome, hallocated, hpos, hview⟩, hbetween.tidy, ?_⟩
      cases hrest : rest lease between with
      | mk result final =>
        rw [hrest] at h
        cases result with
        | ok value => exact h
        | error e => cases h
    · simp only [hlent] at h
      cases h

end Depot

namespace WorkBuffers

variable {home sampleSize innerSize channels inWidth outWidth taps : Nat} {depot : Depot}

-- How many buffers a stage borrows
def share (sharpens : Bool) : Nat := if sharpens then 4 else 3

theorem borrows_lend (htidy : depot.Tidy)
    (home sampleSize innerSize channels inWidth outWidth taps : Nat) (sharpens : Bool) :
    depot.Borrows home (share sharpens)
      (lend home depot sampleSize innerSize channels inWidth outWidth taps sharpens) := by
  have hdone : ∀ (between : Depot) (buffers : WorkBuffers), between.Tidy →
      between.Borrows home 0 (.ok buffers, between) := fun between buffers h =>
    ⟨.refl h, fun other => by simp⟩
  unfold lend
  cases Word.mul? inWidth channels with
  | none => exact Depot.borrows_error (.refl htidy) (fun _ => rfl) ..
  | some rowLength =>
    cases Word.mul? outWidth channels with
    | none => exact Depot.borrows_error (.refl htidy) (fun _ => rfl) ..
    | some outLength =>
      simp only
      cases sharpens with
      | true =>
        refine Depot.borrows_lending htidy _ fun lines between h => ?_
        refine Depot.borrows_lending h _ fun slots between h => ?_
        refine Depot.borrows_lending h _ fun outLine between h => ?_
        rw [if_pos rfl]
        exact Depot.borrows_lending h _ fun blurLine between h => hdone between _ h
      | false =>
        refine Depot.borrows_lending htidy _ fun lines between h => ?_
        refine Depot.borrows_lending h _ fun slots between h => ?_
        exact Depot.borrows_lending h _ fun outLine between h => hdone between _ h

-- There is memory for three of four buffers
example :
    let scarce : Depot := { Depot.fresh with memory := fun n _ => n != 3 }
    let (made, after) := lend 5 scarce 1 4 1 2 2 1 true
    made.isOk = false ∧ (after.pool 5).lent = 3 ∧ (after.pool 5).returned = 3 := by decide +kernel

def blank : WorkBuffers :=
  let lease : Lease := ⟨Depot.shared, .cleared 0 0⟩
  ⟨lease, lease, lease, none⟩

-- The bytes that a stage starts from
def contents (buffers : WorkBuffers) : Array UInt8 × Array UInt8 :=
  (buffers.lines.buffer.bytes, buffers.slots.buffer.bytes)

-- They are the same whatever pool it borrows from
theorem map_contents_lend {other : Depot} (hsound : depot.Sound) (hother : other.Sound)
    (home away sampleSize innerSize channels inWidth outWidth taps : Nat) (sharpens : Bool) :
    (lend home depot sampleSize innerSize channels inWidth outWidth taps sharpens).1.map contents =
      (lend away other sampleSize innerSize channels inWidth outWidth taps sharpens).1.map
        contents := by
  have hbytes : ∀ {lease lease' : Lease}, lease.unbacked = lease'.unbacked →
      lease.buffer.bytes = lease'.buffer.bytes := by
    intro lease lease' h
    have hbuffer : lease.buffer.unbacked = lease'.buffer.unbacked := congrArg Lease.buffer h
    rw [← Buffer.bytes_unbacked, hbuffer, Buffer.bytes_unbacked]
  unfold lend
  cases Word.mul? inWidth channels with
  | none => rfl
  | some rowLength =>
    cases Word.mul? outWidth channels with
    | none => rfl
    | some outLength =>
      simp only
      refine Depot.map_lending hsound hother _ fun lines lines' between between' h h' hlines => ?_
      refine Depot.map_lending h h' _ fun slots slots' between between' h h' hslots => ?_
      refine Depot.map_lending h h' _ fun outLine outLine' between between' h h' _ => ?_
      cases sharpens with
      | true =>
        rw [if_pos rfl, if_pos rfl]
        refine Depot.map_lending h h' _ fun blurLine blurLine' between between' _ _ _ => ?_
        simp only [Except.map, contents, hbytes hlines, hbytes hslots]
      | false =>
        simp only [Bool.false_eq_true, if_false, Except.map, contents, hbytes hlines,
          hbytes hslots]

-- Leases as a stage holds them: of one pool, and as many as it borrows
structure Backed (buffers : WorkBuffers) (home : Nat) (sharpens : Bool) : Prop where
  leases : ∀ lease ∈ buffers.toList, lease.Backed home
  length_eq : buffers.toList.length = share sharpens

theorem backed_of_lend_eq_ok (htidy : depot.Tidy) (hsample : sampleSize ∣ Storage.wordSize)
    (hinner : innerSize ∣ Storage.wordSize) (hchannels : 0 < channels) (hin : 0 < inWidth)
    (hout : 0 < outWidth) (htaps : 0 < taps) {sharpens : Bool} {buffers : WorkBuffers}
    {after : Depot} (h : lend home depot sampleSize innerSize channels inWidth outWidth taps
      sharpens = (.ok buffers, after)) : buffers.Backed home sharpens := by
  have hmul : ∀ {a b : Nat}, 0 < a → 0 < b → ∀ c, Word.mul? a b = some c → 0 < c := by
    intro a b ha hb c hc
    rw [← (Word.mul?_eq_some_iff.mp hc).2]
    exact Nat.mul_pos ha hb
  unfold lend at h
  cases hrow : Word.mul? inWidth channels with
  | none =>
    rw [hrow] at h
    cases h
  | some rowLength =>
    cases hrowOut : Word.mul? outWidth channels with
    | none =>
      rw [hrow, hrowOut] at h
      cases h
    | some outLength =>
      rw [hrow, hrowOut] at h
      have hrowPos := hmul hin hchannels _ hrow
      have houtPos := hmul hout hchannels _ hrowOut
      have houtSome : ∀ count, some outLength = some count → 0 < count := by
        rintro count ⟨⟩
        exact houtPos
      obtain ⟨lines, depot, hlines, htidy, h⟩ := Depot.backed_of_lending_eq_ok htidy hsample
        (hmul hrowPos (by split <;> omega)) h
      obtain ⟨slots, depot, hslots, htidy, h⟩ := Depot.backed_of_lending_eq_ok htidy hinner
        (hmul houtPos htaps) h
      obtain ⟨outLine, depot, houtLine, htidy, h⟩ := Depot.backed_of_lending_eq_ok htidy hsample
        houtSome h
      cases sharpens with
      | true =>
        rw [if_pos rfl] at h
        obtain ⟨blurLine, depot, hblurLine, -, h⟩ := Depot.backed_of_lending_eq_ok htidy hsample
          houtSome h
        cases h
        exact ⟨by simp [toList, hlines, hslots, houtLine, hblurLine], rfl⟩
      | false =>
        cases h
        exact ⟨by simp [toList, hlines, hslots, houtLine], rfl⟩

end WorkBuffers

end Resampling
