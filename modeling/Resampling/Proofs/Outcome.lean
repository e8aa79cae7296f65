import Resampling.Source.Basic

-- How to reason about steps that may fail: computations in `Except` are taken apart at each
-- bind, and an `Outcome` by one condition for success and one for errors.

namespace Resampling

theorem bind_eq_ok_iff {ε α β : Type} {x : Except ε α} {f : α → Except ε β} {b : β} :
    x >>= f = .ok b ↔ ∃ a, x = .ok a ∧ f a = .ok b := by
  cases x with
  | error e => simp [bind, Except.bind]
  | ok a => simp [bind, Except.bind]

theorem guard_eq_ok_iff {ε α : Type} {c : Prop} [Decidable c] {e : ε} {next : PUnit → Except ε α}
    {a : α} : (if c then throw e >>= next else next ⟨⟩) = .ok a ↔ ¬c ∧ next ⟨⟩ = .ok a := by
  by_cases h : c
  · simp [h, bind, Except.bind, throw, throwThe, MonadExceptOf.throw]
  · simp [h]

theorem mapM_eq_ok {ε α β : Type} {f : α → Except ε β} {g : α → β} {xs : List α}
    (h : ∀ x ∈ xs, f x = .ok (g x)) : xs.mapM f = .ok (xs.map g) := by
  induction xs with
  | nil => rfl
  | cons x xs ih =>
    rw [List.mapM_cons, h x (by simp), ih fun y hy => h y (by simp [hy])]
    rfl

theorem array_mapM_eq_ok {ε α β : Type} {f : α → Except ε β} {g : α → β} {xs : Array α}
    (h : ∀ x ∈ xs, f x = .ok (g x)) : xs.mapM f = .ok (xs.map g) := by
  rw [Array.mapM_eq_mapM_toList, mapM_eq_ok fun x hx => h x (by simpa using hx)]
  exact congrArg Except.ok (Array.ext' (by simp))

theorem of_mapM_eq_ok {ε α β : Type} {f : α → Except ε β} {xs : List α} {ys : List β}
    (h : xs.mapM f = .ok ys) : ys.length = xs.length ∧ ∀ y ∈ ys, ∃ x ∈ xs, f x = .ok y := by
  induction xs generalizing ys with
  | nil =>
    cases h
    simp
  | cons x xs ih =>
    rw [List.mapM_cons] at h
    obtain ⟨first, hfirst, h⟩ := bind_eq_ok_iff.mp h
    obtain ⟨rest, hrest, h⟩ := bind_eq_ok_iff.mp h
    cases h
    obtain ⟨hlength, hmem⟩ := ih hrest
    refine ⟨by simp [hlength], fun y hy => ?_⟩
    rcases List.mem_cons.mp hy with rfl | hy
    · exact ⟨x, by simp, hfirst⟩
    · obtain ⟨z, hz, hy⟩ := hmem y hy
      exact ⟨z, by simp [hz], hy⟩

theorem getElem?_of_mapM_eq_ok {ε α β : Type} {f : α → Except ε β} {xs : List α} {ys : List β}
    (h : xs.mapM f = .ok ys) {i : Nat} (hi : i < xs.length) :
    ∃ y, ys[i]? = some y ∧ f xs[i] = .ok y := by
  induction xs generalizing ys i with
  | nil => simp at hi
  | cons x xs ih =>
    rw [List.mapM_cons] at h
    obtain ⟨first, hfirst, h⟩ := bind_eq_ok_iff.mp h
    obtain ⟨rest, hrest, h⟩ := bind_eq_ok_iff.mp h
    cases h
    cases i with
    | zero => exact ⟨first, rfl, hfirst⟩
    | succ i => exact ih hrest (by simpa using hi)

namespace Outcome

variable {σ β ι : Type}

-- `Q` holds of source and state after success, and `E` after an error
def Satisfies (outcome : Outcome σ β) (Q : σ → β → Prop) (E : Error → σ → β → Prop) : Prop :=
  match outcome.result with
  | .ok () => Q outcome.source outcome.state
  | .error e => E e outcome.source outcome.state

variable {outcome : Outcome σ β} {Q Q' : σ → β → Prop} {E E' : Error → σ → β → Prop}

theorem satisfies_of_ok (hresult : outcome.result = .ok ())
    (h : Q outcome.source outcome.state) : outcome.Satisfies Q E := by
  unfold Satisfies
  rw [hresult]
  exact h

theorem satisfies_of_error {e : Error} (hresult : outcome.result = .error e)
    (h : E e outcome.source outcome.state) : outcome.Satisfies Q E := by
  unfold Satisfies
  rw [hresult]
  exact h

theorem Satisfies.of_ok (h : outcome.Satisfies Q E) (hresult : outcome.result = .ok ()) :
    Q outcome.source outcome.state := by
  unfold Satisfies at h
  rwa [hresult] at h

theorem Satisfies.of_error (h : outcome.Satisfies Q E) {e : Error}
    (hresult : outcome.result = .error e) : E e outcome.source outcome.state := by
  unfold Satisfies at h
  rwa [hresult] at h

theorem Satisfies.mono (h : outcome.Satisfies Q E) (hQ : ∀ s b, Q s b → Q' s b)
    (hE : ∀ e s b, E e s b → E' e s b) : outcome.Satisfies Q' E' := by
  cases hresult : outcome.result with
  | ok => exact satisfies_of_ok hresult (hQ _ _ (h.of_ok hresult))
  | error e => exact satisfies_of_error hresult (hE _ _ _ (h.of_error hresult))

theorem satisfies_settle {source : σ} {state : β} {events : List Event} {next : Except Error β}
    (hok : ∀ after, next = .ok after → Q source after)
    (herror : ∀ e, next = .error e → E e source state) :
    (settle source state events next).Satisfies Q E := by
  cases hnext : next with
  | ok after => exact satisfies_of_ok rfl (hok after hnext)
  | error e => exact satisfies_of_error rfl (herror e hnext)

theorem satisfies_andThen {next : σ → β → Outcome σ β} (h : outcome.Satisfies Q E)
    (hnext : ∀ s b, Q s b → (next s b).Satisfies Q' E) :
    (outcome.andThen next).Satisfies Q' E := by
  unfold andThen
  cases hresult : outcome.result with
  | ok => exact hnext _ _ (h.of_ok hresult)
  | error e => exact satisfies_of_error hresult (h.of_error hresult)

-- What each step brings from one stage of an invariant to the next holds of all of them
theorem satisfies_forEach {P : Nat → σ → β → Prop} (step : ι → σ → β → Outcome σ β)
    (is : List ι) (source : σ) (state : β)
    (hstep : ∀ k (hk : k < is.length) s b, P k s b → (step is[k] s b).Satisfies (P (k + 1)) E)
    (h : P 0 source state) :
    (forEach step is source state).Satisfies (P is.length) E := by
  induction is generalizing P source state with
  | nil => exact h
  | cons i is ih =>
    apply satisfies_andThen (hstep 0 (by simp) source state h)
    intro s b hsb
    exact ih (P := fun k => P (k + 1)) s b
      (fun k hk s b hp => hstep (k + 1) (by simpa using hk) s b hp) hsb

theorem forEach_cons_of_ok {step : ι → σ → β → Outcome σ β} {i : ι} {source : σ} {state : β}
    (h : (step i source state).result = .ok ()) (is : List ι) :
    let rest := forEach step is (step i source state).source (step i source state).state
    (forEach step (i :: is) source state).result = rest.result ∧
      (forEach step (i :: is) source state).source = rest.source ∧
      (forEach step (i :: is) source state).state = rest.state := by
  rw [forEach, andThen, h]
  exact ⟨rfl, rfl, rfl⟩

-- Steps that fail are steps that succeed and then one that fails, which leaves things as they are
-- in the end
theorem exists_of_forEach_eq_error {step : ι → σ → β → Outcome σ β} {is : List ι} {source : σ}
    {state : β} {e : Error} (h : (forEach step is source state).result = .error e) :
    ∃ k, ∃ hk : k < is.length,
      let before := forEach step (is.take k) source state
      let last := step is[k] before.source before.state
      before.result = .ok () ∧ last.result = .error e ∧
        (forEach step is source state).source = last.source ∧
        (forEach step is source state).state = last.state := by
  induction is generalizing source state with
  | nil => cases h
  | cons i is ih =>
    cases hfirst : (step i source state).result with
    | error cause =>
      have hwhole : forEach step (i :: is) source state = step i source state := by
        rw [forEach, andThen, hfirst]
      rw [hwhole] at h ⊢
      exact ⟨0, Nat.zero_lt_succ _, rfl, h, rfl, rfl⟩
    | ok =>
      obtain ⟨hresult, hsource, hstate⟩ := forEach_cons_of_ok hfirst is
      rw [hresult] at h
      obtain ⟨k, hk, hbefore, hlast, hsame⟩ := ih h
      obtain ⟨hresult', hsource', hstate'⟩ := forEach_cons_of_ok hfirst (is.take k)
      refine ⟨k + 1, Nat.succ_lt_succ hk, ?_⟩
      rw [hsource, hstate]
      simp only [List.take_succ_cons, List.getElem_cons_succ, hresult', hsource', hstate']
      exact ⟨hbefore, hlast, hsame⟩

end Outcome

end Resampling
