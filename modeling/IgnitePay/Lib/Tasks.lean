/-
Tasks that share a state.

A task is a program cut into sections, at the places where it takes or releases a lock
or waits; one section of one task runs at a time.  `System.turn i` runs the next section
of task `i`, so a run of turns is an interleaving of any number of tasks.

* `turn_eq_ok` — what a turn does;
* `System.invariant` — a property of the shared state and a property of each task that
  depends on it hold in every state, if a section keeps them for its own task and for
  every other one;
* `OneLock.ends` — tasks that have only so many turns and only ever wait for one lock come
  to their ends, whatever the surroundings answer;
* `count_add_le` — a task with only so many turns has no more of them in any run.
-/
import IgnitePay.Lib.Machine
import IgnitePay.Lib.Run

namespace Machine

/-- A shared state, and the tasks that work on it. -/
structure System (σ τ : Type) where
  shared : σ
  tasks : ℕ → τ

namespace System

variable {σ τ ε : Type}

/-- Task `i` runs its next section. -/
def turn (next : τ → σ → Except ε (τ × σ)) (i : ℕ) (s : System σ τ) : Except ε (System σ τ) := do
  let r ← next (s.tasks i) s.shared
  pure ⟨r.2, Function.update s.tasks i r.1⟩

variable {next : τ → σ → Except ε (τ × σ)} {i : ℕ} {s₀ s s' : System σ τ}

theorem turn_eq_ok : turn next i s = .ok s' ↔
    ∃ t shared, next (s.tasks i) s.shared = .ok (t, shared) ∧
      s' = ⟨shared, Function.update s.tasks i t⟩ := by
  rw [turn, bind_eq_ok]
  constructor
  · rintro ⟨⟨t, shared⟩, hnext, h⟩
    exact ⟨t, shared, hnext, (Except.ok.inj h).symm⟩
  · rintro ⟨t, shared, hnext, rfl⟩
    exact ⟨(t, shared), hnext, rfl⟩

theorem turn_of_next {t : τ} {shared : σ} (h : next (s.tasks i) s.shared = .ok (t, shared)) :
    turn next i s = .ok ⟨shared, Function.update s.tasks i t⟩ :=
  turn_eq_ok.mpr ⟨t, shared, h, rfl⟩

/-- An invariant of the shared state together with one of the tasks. -/
theorem invariant {J : σ → Prop} {K : σ → τ → Prop}
    (hshared : ∀ x t t' x', J x → K x t → next t x = .ok (t', x') → J x')
    (hown : ∀ x t t' x', J x → K x t → next t x = .ok (t', x') → K x' t')
    (hother : ∀ x t t' x' u, J x → K x t → next t x = .ok (t', x') → K x u → K x' u)
    (hJ : J s₀.shared) (hK : ∀ i, K s₀.shared (s₀.tasks i)) {h : List (System σ τ × ℕ)}
    (hrun : Run (turn next) s₀ h s) : J s.shared ∧ ∀ i, K s.shared (s.tasks i) := by
  refine hrun.invariant (P := fun s => J s.shared ∧ ∀ i, K s.shared (s.tasks i)) ⟨hJ, hK⟩ ?_
  rintro s i s' ⟨hJ, hK⟩ hturn
  obtain ⟨t, shared, hnext, rfl⟩ := turn_eq_ok.mp hturn
  refine ⟨hshared _ _ _ _ hJ (hK i) hnext, fun j => ?_⟩
  show K shared (Function.update s.tasks i t j)
  by_cases hji : j = i
  · rw [hji, Function.update_self]
    exact hown _ _ _ _ hJ (hK i) hnext
  · rw [Function.update_of_ne hji]
    exact hother _ _ _ _ _ hJ (hK i) hnext (hK j)

end System

/-! ### Tasks that end -/

section

variable {σ ι ε : Type} {exec : ι → σ → Except ε σ} {s₀ s s' : σ}

/-- A rank that no call raises and some calls lower bounds how often these are made. -/
theorem count_add_le {counted : σ × ι → Bool} {rank : σ → ℕ}
    (hstep : ∀ s i s', exec i s = .ok s' → rank s' + (counted (s, i)).toNat ≤ rank s)
    {h : List (σ × ι)} (hrun : Run exec s₀ h s) : h.countP counted + rank s ≤ rank s₀ := by
  induction hrun with
  | start => simp
  | @step h s s' i _ hok ih =>
    have hnext := hstep s i s' hok
    rw [List.countP_cons]
    cases hcounted : counted (s, i) <;> simp [hcounted] at hnext ⊢ <;> omega

/-- Tasks that wait for one lock only.  `turn s i` is the next turn of task `i` in the state `s`,
with what its surroundings answer; `rank s i` bounds the turns it still has; `holder` has the lock. -/
structure OneLock (exec : ι → σ → Except ε σ) (turn : σ → ℕ → ι) (rank : σ → ℕ → ℕ)
    (holder : σ → Option ℕ) (J : σ → Prop) : Prop where
  keeps : ∀ s i s', J s → exec (turn s i) s = .ok s' → J s'
  sinks : ∀ s i s', exec (turn s i) s = .ok s' → rank s' i < rank s i
  others : ∀ s i s' j, exec (turn s i) s = .ok s' → j ≠ i → rank s' j = rank s j
  moves : ∀ s i, J s → 0 < rank s i → (∃ s', exec (turn s i) s = .ok s') ∨
    ∃ j, j ≠ i ∧ holder s = some j
  holds : ∀ s j, J s → holder s = some j → ∃ s', exec (turn s j) s = .ok s'
  releases : ∀ s j s', J s → holder s = some j → exec (turn s j) s = .ok s' →
    holder s' = some j ∨ holder s' = none

namespace OneLock

variable {turn : σ → ℕ → ι} {rank : σ → ℕ → ℕ} {holder : σ → Option ℕ} {J : σ → Prop}

/-- `s'` is reached from `s` by turns. -/
def Reaches (exec : ι → σ → Except ε σ) (turn : σ → ℕ → ι) (s s' : σ) : Prop :=
  ∃ h, Run exec s h s' ∧ ∀ p ∈ h, ∃ i, p.2 = turn p.1 i

theorem Reaches.refl (s : σ) : Reaches exec turn s s := ⟨[], .start, by simp⟩

theorem Reaches.tail {s₁ : σ} {i : ℕ} (hok : exec (turn s i) s = .ok s₁)
    (h : Reaches exec turn s₁ s') : Reaches exec turn s s' := by
  obtain ⟨l, hrun, hturns⟩ := h
  refine ⟨l ++ [(s, turn s i)], ?_, ?_⟩
  · clear hturns
    induction hrun with
    | start => exact .step .start hok
    | step _ he ih => exact .step ih he
  · intro p hp
    rcases List.mem_append.mp hp with hp | hp
    · exact hturns p hp
    · rw [List.mem_singleton.mp hp]
      exact ⟨i, rfl⟩

theorem Reaches.trans {s₁ : σ} (h : Reaches exec turn s s₁) (h' : Reaches exec turn s₁ s') :
    Reaches exec turn s s' := by
  obtain ⟨l, hrun, hturns⟩ := h
  obtain ⟨l', hrun', hturns'⟩ := h'
  refine ⟨l' ++ l, ?_, ?_⟩
  · clear hturns'
    induction hrun' with
    | start => exact hrun
    | step _ he ih => exact .step ih he
  · intro p hp
    rcases List.mem_append.mp hp with hp | hp
    · exact hturns' p hp
    · exact hturns p hp

/-- The task that has the lock comes to release it. -/
theorem releases_eventually (o : OneLock exec turn rank holder J) {i j : ℕ} (hji : j ≠ i)
    (hs : J s) (hholder : holder s = some j) :
    ∃ s', Reaches exec turn s s' ∧ J s' ∧ holder s' = none ∧ rank s' i = rank s i := by
  -- By induction on the turns that the holder still has.
  induction hn : rank s j using Nat.strong_induction_on generalizing s with
  | _ n ih =>
    obtain ⟨s₁, hok⟩ := o.holds s j hs hholder
    have hs₁ := o.keeps s j s₁ hs hok
    have hsame : rank s₁ i = rank s i := o.others s j s₁ i hok hji.symm
    rcases o.releases s j s₁ hs hholder hok with hheld | hfree
    · obtain ⟨s₂, hreach, hs₂, hfree, hrank⟩ :=
        ih (rank s₁ j) (hn ▸ o.sinks s j s₁ hok) hs₁ hheld rfl
      exact ⟨s₂, hreach.tail hok, hs₂, hfree, hrank.trans hsame⟩
    · exact ⟨s₁, (Reaches.refl s₁).tail hok, hs₁, hfree, hsame⟩

/-- Every task comes to its end. -/
theorem ends (o : OneLock exec turn rank holder J) (hs : J s) (i : ℕ) :
    ∃ s', Reaches exec turn s s' ∧ J s' ∧ rank s' i = 0 := by
  induction hn : rank s i using Nat.strong_induction_on generalizing s with
  | _ n ih =>
    by_cases hpos : 0 < rank s i
    · -- The turn of the task itself, from a state that it can be made in.
      have hturn : ∀ {s₁ : σ}, J s₁ → rank s₁ i = rank s i → (∃ s₂, exec (turn s₁ i) s₁ = .ok s₂) →
          ∃ s', Reaches exec turn s₁ s' ∧ J s' ∧ rank s' i = 0 := by
        rintro s₁ hs₁ hrank ⟨s₂, hok⟩
        have hlt : rank s₂ i < n := by
          have := o.sinks s₁ i s₂ hok
          omega
        obtain ⟨s', hreach, hs', hend⟩ := ih _ hlt (o.keeps s₁ i s₂ hs₁ hok) rfl
        exact ⟨s', hreach.tail hok, hs', hend⟩
      rcases o.moves s i hs hpos with hmoves | ⟨j, hji, hholder⟩
      · exact hturn hs rfl hmoves
      · obtain ⟨s₁, hreach, hs₁, hfree, hrank⟩ := o.releases_eventually hji hs hholder
        have hmoves : ∃ s₂, exec (turn s₁ i) s₁ = .ok s₂ := by
          refine (o.moves s₁ i hs₁ (hrank ▸ hpos)).resolve_right ?_
          rintro ⟨k, -, hk⟩
          rw [hfree] at hk
          exact absurd hk (by simp)
        obtain ⟨s', hreach', hs', hend⟩ := hturn hs₁ hrank hmoves
        exact ⟨s', hreach.trans hreach', hs', hend⟩
    · exact ⟨s, .refl s, hs, by omega⟩

end OneLock

end

end Machine
