import Resampling.Proofs.Session

-- What a pool is to its borrowers: a stock of capacities. The idle buffers are a multiset of
-- numbers of words, and neither their order nor what was left in them can be told.

namespace Resampling

-- The front of an array that is written to is the front, written to
theorem Span.front_overwrite {α : Type} (xs row : Array α) (n : Nat) :
    (overwrite xs 0 (row.extract 0 n)).extract 0 n = overwrite (xs.extract 0 n) 0 row := by
  have hat : ∀ k < n, ((overwrite xs 0 (row.extract 0 n)).extract 0 n)[k]? =
      (overwrite xs 0 (row.extract 0 n))[k]? := fun k hk => by
    simp [Array.getElem?_extract, hk]
  refine Array.ext (by simp) fun k hk hk' => ?_
  have hin : k < n ∧ k < xs.size := by
    rw [size_overwrite, Array.size_extract] at hk'
    omega
  rw [← Option.some.injEq, ← Array.getElem?_eq_getElem hk, ← Array.getElem?_eq_getElem hk',
    hat k hin.1]
  by_cases hrow : k < row.size
  · have hnew := getElem?_overwrite xs 0 (row.extract 0 n) k (by simp; omega) (by omega)
    have hfront := getElem?_overwrite (xs.extract 0 n) 0 row k hrow (by simp; omega)
    rw [Nat.zero_add] at hnew hfront
    rw [hnew, hfront]
    simp
  · rw [getElem?_overwrite_of_outside xs 0 _ k (Or.inr (by simp; omega)),
      getElem?_overwrite_of_outside (xs.extract 0 n) 0 row k (Or.inr (by omega))]
    simp [hin]

-- What a borrower can tell of a buffer. Its elements can be seen, or it is a fault to look at them.
structure Appearance where
  length : Nat
  elements : Except Error (Array UInt8)
  text : String

-- A buffer as a borrower has it, with the capacity that goes back in the end
structure Loan where
  capacity : Nat
  words : Nat
  length : Nat
  elements : Except Error (Array UInt8)

namespace Loan

-- The elements read zero, if the words are a whole number of them
def cleared (capacity size length : Nat) : Loan where
  capacity := capacity
  words := Storage.wordsFor size length
  length := length
  elements :=
    if Storage.Whole size length then .ok (Array.replicate (length * size) 0) else .error .fault

-- A borrower writes from the start of the elements on, and not past them
def write (loan : Loan) (bytes : Array UInt8) : Except Error Loan :=
  loan.elements.map fun elements =>
    { loan with elements := .ok (Span.overwrite elements 0 bytes) }

theorem of_write_eq_ok {loan written : Loan} {bytes : Array UInt8}
    (h : loan.write bytes = .ok written) :
    written.words = loan.words ∧ written.capacity = loan.capacity ∧
      ∃ elements, written.elements = .ok elements := by
  unfold write at h
  cases helements : loan.elements with
  | error e =>
    rw [helements] at h
    cases h
  | ok elements =>
    rw [helements] at h
    cases h
    exact ⟨rfl, rfl, _, rfl⟩

def appearance (loan : Loan) : Appearance where
  length := loan.length
  elements := loan.elements
  text := "PooledBuffer \x7b len: " ++ toString loan.length ++ ", words: " ++
    toString loan.words ++ " \x7d"

end Loan

namespace Buffer

def appearance (buffer : Buffer) : Appearance := ⟨buffer.length, buffer.view, buffer.describe⟩

def loan (buffer : Buffer) : Loan :=
  ⟨buffer.storage.capacity, buffer.words, buffer.length, buffer.view⟩

theorem appearance_loan (buffer : Buffer) : buffer.loan.appearance = buffer.appearance := rfl

theorem loan_write (buffer : Buffer) (bytes : Array UInt8) :
    (buffer.write bytes).map loan = buffer.loan.write bytes := by
  unfold write Loan.write
  rw [show buffer.loan.elements = buffer.view from rfl]
  cases hview : buffer.view with
  | error e => rfl
  | ok elements =>
    have hwords : (buffer.store (bytes.extract 0 (buffer.length * buffer.size))).words =
        buffer.words := by
      simp only [words, store, Span.size_overwrite]
    have hfront : (buffer.store (bytes.extract 0 (buffer.length * buffer.size))).bytes =
        Span.overwrite elements 0 bytes := by
      rw [of_view_eq_ok hview]
      exact Span.front_overwrite ..
    refine congrArg Except.ok ?_
    rw [loan, hwords, view_store hview, hfront]
    rfl

end Buffer

-- How many idle buffers are kept at most, and the capacities of those that are, in words
structure Stock where
  retain : Nat
  idle : Multiset Nat

namespace Stock

-- The smallest capacity of at least `words` words
def best (idle : Multiset Nat) (words : Nat) : Option Nat :=
  (idle.filter (words ≤ ·)).sort.head?

theorem best_eq_none_iff {idle : Multiset Nat} {words : Nat} :
    best idle words = none ↔ ∀ c ∈ idle, c < words := by
  rw [best, List.head?_eq_none_iff, ← List.length_eq_zero_iff, Multiset.length_sort,
    Multiset.card_eq_zero, Multiset.filter_eq_nil]
  simp only [not_le]

theorem best_eq_some_iff {idle : Multiset Nat} {words capacity : Nat} :
    best idle words = some capacity ↔
      capacity ∈ idle ∧ words ≤ capacity ∧ ∀ c ∈ idle, words ≤ c → capacity ≤ c := by
  have hmem : ∀ c, c ∈ (idle.filter (words ≤ ·)).sort ↔ c ∈ idle ∧ words ≤ c := fun c => by
    rw [Multiset.mem_sort, Multiset.mem_filter]
  have hsorted := Multiset.pairwise_sort (idle.filter (words ≤ ·)) (· ≤ ·)
  unfold best
  cases hsort : (idle.filter (words ≤ ·)).sort with
  | nil =>
    rw [hsort] at hmem
    refine ⟨fun h => (nomatch h), fun h => ?_⟩
    exact absurd ((hmem capacity).mpr ⟨h.1, h.2.1⟩) List.not_mem_nil
  | cons first rest =>
    rw [hsort] at hmem hsorted
    obtain ⟨hfirst, -⟩ := List.pairwise_cons.mp hsorted
    obtain ⟨hidle, hwords⟩ := (hmem first).mp List.mem_cons_self
    have hleast : ∀ c ∈ idle, words ≤ c → first ≤ c := fun c hc hle => by
      rcases List.mem_cons.mp ((hmem c).mpr ⟨hc, hle⟩) with rfl | hrest
      · exact Nat.le_refl _
      · exact hfirst c hrest
    rw [List.head?_cons, Option.some.injEq]
    refine ⟨fun h => h ▸ ⟨hidle, hwords, hleast⟩, fun ⟨hc, hle, hcleast⟩ => ?_⟩
    exact Nat.le_antisymm (hleast capacity hc hle) (hcleast first hidle hwords)

-- Takes the best capacity out, or else allocates as many words as are wanted
def take (stock : Stock) (memory : Memory) (words : Nat) : Except Error (Nat × Stock) :=
  match best stock.idle words with
  | some capacity => .ok (capacity, { stock with idle := stock.idle.erase capacity })
  | none =>
    if words * Storage.wordSize ≤ Word.maxAllocation ∧ (words = 0 ∨ memory words) then
      .ok (words, stock)
    else .error .outOfMemory

-- Lends `length` elements of `size` bytes, all zero
def lend (stock : Stock) (size length : Nat) (memory : Memory) : Except Error (Loan × Stock) :=
  if length * size < Word.limit then
    (stock.take memory (Storage.wordsFor size length)).map fun taken =>
      (.cleared taken.1 size length, taken.2)
  else .error .outOfMemory

def takeBack (stock : Stock) (capacity : Nat) : Stock :=
  if capacity ≠ 0 ∧ stock.idle.card < stock.retain then
    { stock with idle := capacity ::ₘ stock.idle }
  else stock

theorem idle_takeBack_le (stock : Stock) (capacity : Nat) :
    (stock.takeBack capacity).idle ≤ capacity ::ₘ stock.idle := by
  unfold takeBack
  split
  · exact le_refl _
  · exact Multiset.le_cons_self _ _

-- A loan fits into its capacity, which was idle or is the number of words that are wanted
theorem lend_spec (stock : Stock) (size length : Nat) (memory : Memory) :
    (∃ loan rest, stock.lend size length memory = .ok (loan, rest) ∧
      rest.retain = stock.retain ∧ rest.idle ≤ stock.idle ∧ loan.words ≤ loan.capacity ∧
      rest.idle + {loan.capacity} ≤ stock.idle + {Storage.wordsFor size length} ∧
      (Storage.Whole size length → ∃ bytes, loan.elements = .ok bytes)) ∨
    stock.lend size length memory = .error .outOfMemory := by
  have hseen : ∀ capacity, Storage.Whole size length →
      ∃ bytes, (Loan.cleared capacity size length).elements = .ok bytes :=
    fun _ hwhole => ⟨_, if_pos hwhole⟩
  unfold lend take
  by_cases hbytes : length * size < Word.limit
  · rw [if_pos hbytes]
    cases hbest : best stock.idle (Storage.wordsFor size length) with
    | some capacity =>
      obtain ⟨hmem, hwords, -⟩ := best_eq_some_iff.mp hbest
      refine Or.inl ⟨_, _, rfl, rfl, Multiset.erase_le _ _, hwords, ?_, hseen capacity⟩
      calc stock.idle.erase capacity + {capacity} = stock.idle := by
            rw [add_comm, Multiset.singleton_add, Multiset.cons_erase hmem]
        _ ≤ stock.idle + {Storage.wordsFor size length} := le_self_add
    | none =>
      by_cases hgranted : Storage.wordsFor size length * Storage.wordSize ≤ Word.maxAllocation ∧
          (Storage.wordsFor size length = 0 ∨ memory (Storage.wordsFor size length))
      · simp only [if_pos hgranted]
        exact Or.inl ⟨_, _, rfl, rfl, le_refl _, Nat.le_refl _, le_refl _, hseen _⟩
      · simp only [if_neg hgranted]
        exact Or.inr rfl
  · exact Or.inr (if_neg hbytes)

end Stock

namespace Pool

def stock (pool : Pool) : Stock := ⟨pool.retain, (pool.idle.toList.map Storage.capacity : List Nat)⟩

variable (pool : Pool)

theorem card_stock : pool.stock.idle.card = pool.idle.size := by
  simp [stock]

-- A choice of the smaller at every step along a list, the first of them where several are
def smaller {α : Type} (f : α → Nat) (best : Option α) (a : α) : Option α :=
  match best with
  | none => some a
  | some b => if f a < f b then some a else some b

theorem foldl_smaller_some {α : Type} (f : α → Nat) (as : List α) (b : α) :
    ∃ a, as.foldl (smaller f) (some b) = some a ∧ a ∈ b :: as ∧ ∀ c ∈ b :: as, f a ≤ f c := by
  induction as generalizing b with
  | nil => exact ⟨b, rfl, by simp⟩
  | cons first as ih =>
    by_cases hless : f first < f b
    · obtain ⟨a, ha, hmem, hleast⟩ := ih first
      refine ⟨a, ?_, List.mem_cons_of_mem b hmem, ?_⟩
      · rw [List.foldl_cons, smaller, if_pos hless, ha]
      · rintro c (_ | ⟨_, hc⟩)
        · exact Nat.le_of_lt (Nat.lt_of_le_of_lt (hleast first List.mem_cons_self) hless)
        · exact hleast c hc
    · obtain ⟨a, ha, hmem, hleast⟩ := ih b
      refine ⟨a, ?_, ?_, ?_⟩
      · rw [List.foldl_cons, smaller, if_neg hless, ha]
      · rcases List.mem_cons.mp hmem with rfl | hmem
        · exact List.mem_cons_self
        · exact List.mem_cons_of_mem _ (List.mem_cons_of_mem _ hmem)
      · rintro c (_ | ⟨_, _ | ⟨_, hc⟩⟩)
        · exact hleast b List.mem_cons_self
        · exact Nat.le_trans (hleast b List.mem_cons_self) (Nat.le_of_not_lt hless)
        · exact hleast c (List.mem_cons_of_mem b hc)

def capacityAt : Fin pool.idle.size → Nat
  | ⟨i, _⟩ => pool.idle[i].capacity

theorem mem_stock {capacity : Nat} :
    capacity ∈ pool.stock.idle ↔ ∃ i, pool.capacityAt i = capacity := by
  simp only [stock, Multiset.mem_coe, List.mem_map, Array.mem_toList_iff, Array.mem_iff_getElem]
  constructor
  · rintro ⟨_, ⟨i, hi, rfl⟩, rfl⟩
    exact ⟨⟨i, hi⟩, rfl⟩
  · rintro ⟨i, rfl⟩
    exact ⟨_, ⟨i.val, i.isLt, rfl⟩, rfl⟩

theorem bestFit_eq (words : Nat) :
    pool.bestFit words = ((List.finRange pool.idle.size).filter (words ≤ pool.capacityAt ·)).foldl
      (smaller pool.capacityAt) none := by
  unfold bestFit
  congr 1
  funext best i
  cases best <;> rfl

-- What is found by its place in the list is found by its capacity alone
theorem map_bestFit (words : Nat) :
    (pool.bestFit words).map pool.capacityAt = Stock.best pool.stock.idle words := by
  have hfits : ∀ i, i ∈ (List.finRange pool.idle.size).filter (words ≤ pool.capacityAt ·) ↔
      words ≤ pool.capacityAt i := fun i => by simp
  rw [bestFit_eq]
  cases hlist : (List.finRange pool.idle.size).filter (words ≤ pool.capacityAt ·) with
  | nil =>
    refine (Stock.best_eq_none_iff.mpr fun c hc => ?_).symm
    obtain ⟨i, rfl⟩ := pool.mem_stock.mp hc
    refine Nat.lt_of_not_le fun hle => ?_
    have hlisted := (hfits i).mpr hle
    rw [hlist] at hlisted
    cases hlisted
  | cons first rest =>
    rw [hlist] at hfits
    obtain ⟨i, hi, hfit, hleast⟩ := foldl_smaller_some pool.capacityAt rest first
    rw [List.foldl_cons, smaller, hi]
    refine (Stock.best_eq_some_iff.mpr ⟨pool.mem_stock.mpr ⟨i, rfl⟩, (hfits i).mp hfit, ?_⟩).symm
    intro c hc hle
    obtain ⟨k, rfl⟩ := pool.mem_stock.mp hc
    exact hleast k ((hfits k).mpr hle)

-- Taking a buffer out, with the last one filling its place, leaves the others
theorem swap_pop_perm {idle : Array Storage} {i : Nat} (hi : i < idle.size) :
    (idle[i] :: (idle.swapIfInBounds i (idle.size - 1)).pop.toList).Perm idle.toList := by
  have hlast : idle.size - 1 < idle.size := by omega
  have hswap : idle.swapIfInBounds i (idle.size - 1) = idle.swap i (idle.size - 1) hi hlast := by
    unfold Array.swapIfInBounds
    rw [dif_pos hi, dif_pos hlast]
  have hne : (idle.swap i (idle.size - 1) hi hlast).toList ≠ [] := by
    rw [← List.length_pos_iff, Array.length_toList, Array.size_swap]
    omega
  have hback : (idle.swap i (idle.size - 1) hi hlast).toList.getLast hne = idle[i] := by
    rw [List.getLast_eq_getElem]
    simp only [Array.length_toList, Array.size_swap, Array.getElem_toList]
    exact Array.getElem_swap_right
  have hall := List.dropLast_append_getLast hne
  rw [hback] at hall
  have hfront := List.perm_append_singleton idle[i] (idle.swap i _ hi hlast).toList.dropLast
  rw [hall] at hfront
  rw [hswap, Array.toList_pop]
  exact hfront.symm.trans (Array.perm_iff_toList_perm.mp (Array.swap_perm hi hlast))

theorem take_stock (memory : Memory) (words : Nat) :
    (pool.take memory words).map (Prod.map Storage.capacity stock) =
      pool.stock.take memory words := by
  have hfit := pool.map_bestFit words
  unfold take Stock.take
  rw [← hfit]
  cases pool.bestFit words with
  | some i =>
    have hperm := (swap_pop_perm i.isLt).map Storage.capacity
    have hleft : pool.capacityAt i ::ₘ ((pool.idle.swapIfInBounds i
        (pool.idle.size - 1)).pop.toList.map Storage.capacity : List Nat) = pool.stock.idle :=
      Multiset.coe_eq_coe.mpr hperm
    simp only [Option.map_some, Except.map, Prod.map, ← hleft, Multiset.erase_cons_head]
    rfl
  | none =>
    unfold Storage.allocate
    simp only [Option.map_none]
    by_cases hgranted : words * Storage.wordSize ≤ Word.maxAllocation ∧ (words = 0 ∨ memory words)
    · rw [if_pos hgranted, if_pos hgranted]
      rfl
    · rw [if_neg hgranted, if_neg hgranted]
      rfl

theorem lend_stock (size length : Nat) (memory : Memory) :
    (pool.lend size length memory).map (Prod.map Buffer.loan stock) =
      pool.stock.lend size length memory := by
  unfold lend Stock.lend
  by_cases hbytes : length * size < Word.limit
  · have hmul : Word.mul? length size = some (length * size) :=
      Word.mul?_eq_some_iff.mpr ⟨hbytes, rfl⟩
    rw [hmul, if_pos hbytes, ← take_stock]
    change Except.map _ (pool.take memory (Storage.wordsFor size length) >>= _) = _
    cases pool.take memory (Storage.wordsFor size length) with
    | error e => rfl
    | ok taken =>
      let buffer : Buffer := ⟨taken.1.clear.resize
        (Storage.wordsFor size length * Storage.wordSize), size, length⟩
      have hcleared : buffer.unbacked = .cleared size length := by
        simp [buffer, Buffer.unbacked, Buffer.cleared, Storage.resize, Storage.clear]
      have hwords : buffer.words = Storage.wordsFor size length := by
        simp [buffer, Buffer.words, Storage.resize, Storage.clear, Storage.wordSize]
      have hloan : buffer.loan = .cleared taken.1.capacity size length := by
        rw [Buffer.loan, hwords, ← Buffer.view_unbacked, hcleared, Buffer.view_cleared]
        rfl
      exact congrArg (fun loan => Except.ok (loan, taken.2.stock)) hloan
  · have hmul : Word.mul? length size = none := by
      unfold Word.mul?
      rw [if_neg hbytes]
    rw [hmul, if_neg hbytes]
    rfl

theorem takeBack_stock (storage : Storage) :
    (pool.takeBack storage).stock = pool.stock.takeBack storage.capacity := by
  unfold takeBack Stock.takeBack
  rw [card_stock]
  change Pool.stock (if _ then _ else _) = if storage.capacity ≠ 0 ∧ pool.idle.size < pool.retain
    then _ else _
  split
  · rw [stock, Array.toList_push, List.map_append, List.map_singleton, ← Multiset.coe_add,
      Multiset.coe_singleton, Multiset.add_comm, Multiset.singleton_add]
    rfl
  · rfl

end Pool

theorem coe_map_exchange {α : Type} {as : List α} {i : Nat} {a : α} (h : as[i]? = some a)
    (f : α → Nat) (next : Option α) :
    ((exchange as i next).map f : Multiset Nat) + {f a} =
      (as.map f : List Nat) + (next.toList.map f : List Nat) := by
  obtain ⟨before, after, rfl, hexchange⟩ := exists_exchange h
  simp only [hexchange, List.map_append, List.map_cons, ← Multiset.coe_add, ← Multiset.cons_coe,
    ← Multiset.singleton_add]
  ac_rfl

-- What is done at a counter where buffers are lent, with what there is memory for when one is
-- rented. Those that are out are known by their places.
inductive Deal
  | rent (size length : Nat) (memory : Memory)
  | write (j : Nat) (bytes : Array UInt8)
  | drop (j : Nat)

-- What is seen after a deal: how it went, how many buffers lie idle, and what those that are out
-- look like
structure Scene where
  result : Except Error Unit
  idle : Nat
  out : List Appearance

-- A pool and the buffers that it has out
structure Counter where
  pool : Pool
  out : List Buffer

namespace Counter

def opened (retain : Nat) : Counter := ⟨.empty retain, []⟩

def step (counter : Counter) : Deal → Counter × Except Error Unit
  | .rent size length memory =>
    match counter.pool.lend size length memory with
    | .error e => (counter, .error e)
    | .ok (buffer, pool) => (⟨pool, counter.out ++ [buffer]⟩, .ok ())
  | .write j bytes =>
    match counter.out[j]? with
    | none => (counter, .ok ())
    | some buffer =>
      match buffer.write bytes with
      | .error e => (counter, .error e)
      | .ok buffer => ({ counter with out := exchange counter.out j (some buffer) }, .ok ())
  | .drop j =>
    match counter.out[j]? with
    | none => (counter, .ok ())
    | some buffer => (⟨counter.pool.takeBack buffer.storage, exchange counter.out j none⟩, .ok ())

def scene (counter : Counter) (result : Except Error Unit) : Scene :=
  ⟨result, counter.pool.idle.size, counter.out.map Buffer.appearance⟩

def run (counter : Counter) : List Deal → Counter × List Scene
  | [] => (counter, [])
  | deal :: deals =>
    let (next, result) := counter.step deal
    let (last, scenes) := next.run deals
    (last, next.scene result :: scenes)

end Counter

-- The same with nothing known of idle buffers but the stock
structure Ledger where
  stock : Stock
  out : List Loan

namespace Ledger

def opened (retain : Nat) : Ledger := ⟨⟨retain, 0⟩, []⟩

def step (ledger : Ledger) : Deal → Ledger × Except Error Unit
  | .rent size length memory =>
    match ledger.stock.lend size length memory with
    | .error e => (ledger, .error e)
    | .ok (loan, stock) => (⟨stock, ledger.out ++ [loan]⟩, .ok ())
  | .write j bytes =>
    match ledger.out[j]? with
    | none => (ledger, .ok ())
    | some loan =>
      match loan.write bytes with
      | .error e => (ledger, .error e)
      | .ok loan => ({ ledger with out := exchange ledger.out j (some loan) }, .ok ())
  | .drop j =>
    match ledger.out[j]? with
    | none => (ledger, .ok ())
    | some loan => (⟨ledger.stock.takeBack loan.capacity, exchange ledger.out j none⟩, .ok ())

def scene (ledger : Ledger) (result : Except Error Unit) : Scene :=
  ⟨result, ledger.stock.idle.card, ledger.out.map Loan.appearance⟩

def run (ledger : Ledger) : List Deal → Ledger × List Scene
  | [] => (ledger, [])
  | deal :: deals =>
    let (next, result) := ledger.step deal
    let (last, scenes) := next.run deals
    (last, next.scene result :: scenes)

-- Capacities of all buffers there are, idle or out
def capacities (ledger : Ledger) : Multiset Nat :=
  ledger.stock.idle + (ledger.out.map Loan.capacity : List Nat)

end Ledger

-- Nothing that shows is a fault
structure Scene.Clear (scene : Scene) : Prop where
  result_ne : scene.result ≠ .error .fault
  seen : ∀ seen ∈ scene.out, ∃ bytes, seen.elements = .ok bytes

-- What is rented, if anything, is a whole number of elements in whole words
def Deal.Whole : Deal → Prop
  | .rent size length _ => Storage.Whole size length
  | .write _ _ => True
  | .drop _ => True

-- How many words a deal asks for
def Deal.wanted : Deal → Multiset Nat
  | .rent size length _ => {Storage.wordsFor size length}
  | .write _ _ => 0
  | .drop _ => 0

namespace Ledger

-- What holds of a ledger at all times: the stock is no more than is kept, and what is out fits
-- into what it was given
structure Sound (retain : Nat) (ledger : Ledger) : Prop where
  retain_eq : ledger.stock.retain = retain
  card_le : ledger.stock.idle.card ≤ retain
  pos : ∀ capacity ∈ ledger.stock.idle, 0 < capacity
  fits : ∀ loan ∈ ledger.out, loan.words ≤ loan.capacity

variable {retain : Nat} {ledger : Ledger}

theorem sound_opened (retain : Nat) : (opened retain).Sound retain where
  retain_eq := rfl
  card_le := Nat.zero_le retain
  pos _ h := absurd h (Multiset.notMem_zero _)
  fits _ h := absurd h List.not_mem_nil

theorem Sound.step (h : ledger.Sound retain) (deal : Deal) :
    (ledger.step deal).1.Sound retain := by
  cases deal with
  | rent size length memory =>
    simp only [Ledger.step]
    rcases ledger.stock.lend_spec size length memory with
      ⟨loan, rest, hlent, hretain, hidle, hfits, -⟩ | hlent
    · rw [hlent]
      refine ⟨hretain.trans h.retain_eq, (Multiset.card_le_card hidle).trans h.card_le,
        fun c hc => h.pos c (Multiset.mem_of_le hidle hc), fun other hother => ?_⟩
      rcases List.mem_append.mp hother with hother | hother
      · exact h.fits other hother
      · rw [List.mem_singleton.mp hother]
        exact hfits
    · rw [hlent]
      exact h
  | write j bytes =>
    simp only [Ledger.step]
    cases hplace : ledger.out[j]? with
    | none => exact h
    | some loan =>
      cases hwrite : loan.write bytes with
      | error e =>
        simp only [hwrite]
        exact h
      | ok written =>
        simp only [hwrite]
        refine ⟨h.retain_eq, h.card_le, h.pos, fun other hother => ?_⟩
        rcases mem_of_mem_exchange hother with hother | hother
        · exact h.fits other hother
        · cases hother
          obtain ⟨hwords, hcapacity, -⟩ := Loan.of_write_eq_ok hwrite
          rw [hwords, hcapacity]
          exact h.fits loan (List.mem_of_getElem? hplace)
  | drop j =>
    simp only [Ledger.step]
    cases hplace : ledger.out[j]? with
    | none => exact h
    | some loan =>
      have hfits : ∀ other ∈ exchange ledger.out j none, other.words ≤ other.capacity := by
        intro other hother
        rcases mem_of_mem_exchange hother with hother | hother
        · exact h.fits other hother
        · cases hother
      simp only [Stock.takeBack]
      split
      next hkept =>
        refine ⟨h.retain_eq, ?_, fun c hc => ?_, hfits⟩
        · rw [Multiset.card_cons, ← h.retain_eq]
          exact hkept.2
        · rcases Multiset.mem_cons.mp hc with rfl | hc
          · exact Nat.pos_of_ne_zero hkept.1
          · exact h.pos c hc
      next => exact ⟨h.retain_eq, h.card_le, h.pos, hfits⟩

theorem Sound.run (h : ledger.Sound retain) (deals : List Deal) :
    (ledger.run deals).1.Sound retain := by
  induction deals generalizing ledger with
  | nil => exact h
  | cons deal deals ih => exact ih (h.step deal)

-- All elements that are out can be seen
def Seen (ledger : Ledger) : Prop := ∀ loan ∈ ledger.out, ∃ bytes, loan.elements = .ok bytes

theorem Seen.step (h : ledger.Seen) {deal : Deal} (hwhole : deal.Whole) :
    (ledger.step deal).1.Seen ∧ (ledger.step deal).2 ≠ .error .fault := by
  cases deal with
  | rent size length memory =>
    simp only [Ledger.step]
    rcases ledger.stock.lend_spec size length memory with
      ⟨loan, rest, hlent, -, -, -, -, hseen⟩ | hlent
    · rw [hlent]
      refine ⟨fun other hother => ?_, by simp⟩
      rcases List.mem_append.mp hother with hother | hother
      · exact h other hother
      · rw [List.mem_singleton.mp hother]
        exact hseen hwhole
    · rw [hlent]
      exact ⟨h, by simp⟩
  | write j bytes =>
    simp only [Ledger.step]
    cases hplace : ledger.out[j]? with
    | none => exact ⟨h, by simp⟩
    | some loan =>
      obtain ⟨elements, helements⟩ := h loan (List.mem_of_getElem? hplace)
      have hwrite : loan.write bytes =
          .ok { loan with elements := .ok (Span.overwrite elements 0 bytes) } := by
        rw [Loan.write, helements]
        rfl
      simp only [hwrite]
      refine ⟨fun other hother => ?_, by simp⟩
      rcases mem_of_mem_exchange hother with hother | hother
      · exact h other hother
      · cases hother
        exact ⟨_, rfl⟩
  | drop j =>
    simp only [Ledger.step]
    cases hplace : ledger.out[j]? with
    | none => exact ⟨h, by simp⟩
    | some loan =>
      refine ⟨fun other hother => ?_, by simp⟩
      rcases mem_of_mem_exchange hother with hother | hother
      · exact h other hother
      · cases hother

theorem Seen.clear (h : ledger.Seen) {result : Except Error Unit}
    (hresult : result ≠ .error .fault) : (ledger.scene result).Clear where
  result_ne := hresult
  seen seen hseen := by
    obtain ⟨loan, hloan, rfl⟩ := List.mem_map.mp hseen
    exact h loan hloan

theorem Seen.run (h : ledger.Seen) {deals : List Deal} (hwhole : ∀ deal ∈ deals, deal.Whole) :
    ∀ scene ∈ (ledger.run deals).2, scene.Clear := by
  induction deals generalizing ledger with
  | nil => exact fun scene hscene => absurd hscene List.not_mem_nil
  | cons deal deals ih =>
    rw [List.forall_mem_cons] at hwhole
    obtain ⟨hnext, hresult⟩ := h.step hwhole.1
    intro scene hscene
    rcases List.mem_cons.mp hscene with rfl | hscene
    · exact hnext.clear hresult
    · exact ih hnext hwhole.2 scene hscene

-- A deal changes no capacity. New is at most one buffer, of the words that are wanted.
theorem capacities_step_le (ledger : Ledger) (deal : Deal) :
    (ledger.step deal).1.capacities ≤ ledger.capacities + deal.wanted := by
  cases deal with
  | rent size length memory =>
    simp only [Ledger.step]
    rcases ledger.stock.lend_spec size length memory with
      ⟨loan, rest, hlent, -, -, -, htotal, -⟩ | hlent
    · rw [hlent]
      calc rest.idle + ((ledger.out ++ [loan]).map Loan.capacity : List Nat)
          = rest.idle + {loan.capacity} + (ledger.out.map Loan.capacity : List Nat) := by
            rw [List.map_append, ← Multiset.coe_add, add_right_comm, add_assoc]
            rfl
        _ ≤ ledger.stock.idle + {Storage.wordsFor size length} +
            (ledger.out.map Loan.capacity : List Nat) := by gcongr
        _ = ledger.capacities + {Storage.wordsFor size length} := add_right_comm ..
    · rw [hlent]
      exact le_self_add
  | write j bytes =>
    simp only [Ledger.step]
    cases hplace : ledger.out[j]? with
    | none => exact le_self_add
    | some loan =>
      cases hwrite : loan.write bytes with
      | error e =>
        simp only [hwrite]
        exact le_self_add
      | ok written =>
        simp only [hwrite]
        obtain ⟨-, hcapacity, -⟩ := Loan.of_write_eq_ok hwrite
        have hsame := coe_map_exchange hplace Loan.capacity (some written)
        rw [Option.toList_some, List.map_singleton, hcapacity] at hsame
        exact (congrArg (ledger.stock.idle + ·) (add_right_cancel hsame)).trans_le le_self_add
  | drop j =>
    simp only [Ledger.step]
    cases hplace : ledger.out[j]? with
    | none => exact le_self_add
    | some loan =>
      have hless := coe_map_exchange hplace Loan.capacity none
      calc (ledger.stock.takeBack loan.capacity).idle +
            ((exchange ledger.out j none).map Loan.capacity : List Nat)
          ≤ loan.capacity ::ₘ ledger.stock.idle +
            ((exchange ledger.out j none).map Loan.capacity : List Nat) := by
            gcongr
            exact ledger.stock.idle_takeBack_le loan.capacity
        _ = ledger.stock.idle + (((exchange ledger.out j none).map Loan.capacity : List Nat) +
            {loan.capacity}) := by
            rw [← Multiset.singleton_add]
            ac_rfl
        _ = ledger.capacities := by
            rw [hless, Option.toList_none, List.map_nil, Multiset.coe_nil, add_zero]
            rfl
        _ ≤ ledger.capacities + Deal.wanted (.drop j) := le_self_add

theorem capacities_run_le (ledger : Ledger) (deals : List Deal) :
    (ledger.run deals).1.capacities ≤ ledger.capacities + (deals.map Deal.wanted).sum := by
  induction deals generalizing ledger with
  | nil => exact le_self_add
  | cons deal deals ih =>
    rw [List.map_cons, List.sum_cons, ← add_assoc]
    exact (ih _).trans (add_le_add_left (ledger.capacities_step_le deal) _)

end Ledger

namespace Counter

-- What a counter is to those who deal at it
def ledger (counter : Counter) : Ledger := ⟨counter.pool.stock, counter.out.map Buffer.loan⟩

theorem scene_ledger (counter : Counter) (result : Except Error Unit) :
    counter.ledger.scene result = counter.scene result := by
  simp only [Ledger.scene, scene, ledger, Pool.card_stock, List.map_map, Function.comp_def,
    Buffer.appearance_loan]

theorem step_ledger (counter : Counter) (deal : Deal) :
    counter.ledger.step deal = ((counter.step deal).1.ledger, (counter.step deal).2) := by
  cases deal with
  | rent size length memory =>
    have hlent := counter.pool.lend_stock size length memory
    simp only [Ledger.step, step]
    rw [show counter.ledger.stock = counter.pool.stock from rfl, ← hlent]
    cases counter.pool.lend size length memory with
    | error e => rfl
    | ok lent =>
      simp only [Except.map, Prod.map, ledger, List.map_append, List.map_singleton]
  | write j bytes =>
    have hplace : counter.ledger.out[j]? = counter.out[j]?.map Buffer.loan := List.getElem?_map
    simp only [Ledger.step, step, hplace]
    cases counter.out[j]? with
    | none => rfl
    | some buffer =>
      simp only [Option.map_some, ← Buffer.loan_write]
      cases buffer.write bytes with
      | error e => rfl
      | ok written => simp only [Except.map, ledger, map_exchange, Option.map_some]
  | drop j =>
    have hplace : counter.ledger.out[j]? = counter.out[j]?.map Buffer.loan := List.getElem?_map
    simp only [Ledger.step, step, hplace]
    cases counter.out[j]? with
    | none => rfl
    | some buffer =>
      simp only [Option.map_some, ledger, map_exchange, Option.map_none, Pool.takeBack_stock]
      rfl

theorem run_ledger (counter : Counter) (deals : List Deal) :
    counter.ledger.run deals = ((counter.run deals).1.ledger, (counter.run deals).2) := by
  induction deals generalizing counter with
  | nil => rfl
  | cons deal deals ih =>
    simp only [Ledger.run, run, step_ledger, ih, scene_ledger]

-- A pool lends as a stock of capacities does, whatever is rented, written to and dropped, in
-- whatever order, and whatever there is memory for. If only elements that fill words are rented,
-- all of them can be seen at all times. The stock never exceeds what is kept and holds no empty
-- buffer, every buffer that is out fits into its capacity, and every capacity is one that was once
-- asked for, for another buffer each. Nobody can tell one order of the idle buffers from another,
-- nor what was left in them.
theorem refines_ledger (retain : Nat) (deals : List Deal) :
    ((opened retain).run deals).2 = ((Ledger.opened retain).run deals).2 ∧
      ((opened retain).run deals).1.ledger = ((Ledger.opened retain).run deals).1 ∧
      ((∀ deal ∈ deals, deal.Whole) → ∀ scene ∈ ((opened retain).run deals).2, scene.Clear) ∧
      ((Ledger.opened retain).run deals).1.Sound retain ∧
      ((Ledger.opened retain).run deals).1.capacities ≤ (deals.map Deal.wanted).sum ∧
      ∀ other : Counter, other.ledger = ((opened retain).run deals).1.ledger →
        ∀ later, (other.run later).2 = (((opened retain).run deals).1.run later).2 := by
  have hrun : (Ledger.opened retain).run deals = _ := run_ledger (opened retain) deals
  have hscenes : ((opened retain).run deals).2 = ((Ledger.opened retain).run deals).2 := by
    rw [hrun]
  have hseen : (Ledger.opened retain).Seen := fun loan hloan => absurd hloan List.not_mem_nil
  refine ⟨hscenes, ?_, fun hwhole => ?_, (Ledger.sound_opened retain).run deals, ?_,
    fun other hother later => ?_⟩
  · rw [hrun]
  · rw [hscenes]
    exact hseen.run hwhole
  · exact ((Ledger.opened retain).capacities_run_le deals).trans_eq (zero_add _)
  · have hlater := run_ledger ((opened retain).run deals).1 later
    rw [← hother, run_ledger other later] at hlater
    exact congrArg (·.2) hlater

-- Two buffers go back, one for which there was no memory is not had, and later rents cannot tell
-- the pool from one where the two lie the other way round and are not cleared
theorem refines_ledger_reordered :
    let deals : List Deal :=
      [.rent 1 12 .ample, .rent 20 1 .ample, .rent 2 0 .ample, .rent 2 9 fun _ => false,
        .write 0 #[7, 7], .drop 2, .drop 0, .drop 0]
    let other : Counter := ⟨⟨#[⟨5, #[1, 2, 3]⟩, ⟨3, #[]⟩], 2, 0, 0⟩, []⟩
    (∀ scene ∈ ((opened 2).run deals).2, scene.Clear) ∧
      other.ledger = ((opened 2).run deals).1.ledger ∧
      ∀ later, (other.run later).2 = (((opened 2).run deals).1.run later).2 := by
  intro deals other
  have hwhole : ∀ deal ∈ deals, deal.Whole := by
    simp only [deals, List.forall_mem_cons, List.not_mem_nil]
    exact ⟨Storage.whole_of_dvd (by decide) 12,
      Storage.whole_of_words (by decide) (by decide) 1, Storage.whole_of_dvd (by decide) 0,
      Storage.whole_of_dvd (by decide) 9, trivial, trivial, trivial, trivial, nofun⟩
  have hswap : ([5, 3] : Multiset Nat) = ([3, 5] : List Nat) :=
    Multiset.coe_eq_coe.mpr (List.Perm.swap 3 5 [])
  have hledger : other.ledger = ((opened 2).run deals).1.ledger :=
    congrArg (fun idle => Ledger.mk ⟨2, idle⟩ []) hswap
  obtain ⟨-, -, hclear, -, -, hlater⟩ := refines_ledger 2 deals
  exact ⟨hclear hwhole, hledger, hlater other hledger⟩

-- Five elements of three bytes take four words, which are five elements and a byte. They are
-- rented, and it is a fault to look at them or to write to them.
theorem unseen_triples :
    (((opened 16).run [.rent 3 5 .ample, .write 0 #[7]]).2.map fun scene =>
        (scene.result, scene.out.map Appearance.elements)) =
      [(.ok (), [.error .fault]), (.error .fault, [.error .fault])] := rfl

end Counter

end Resampling
