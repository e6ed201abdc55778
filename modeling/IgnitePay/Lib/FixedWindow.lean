/-
A counter over a fixed window.

Events are counted from the start of a window; the start is moved on only when it lies at
least a width back.  `Spread` says how the times of the events then lie: no more than the
limit since the start, no more in the last width before it, and no more than twice the limit
in any interval of the width.

* `Spread.add` — counting an event keeps it;
* `Spread.restart` — moving the start keeps it.
-/
import Mathlib

namespace FixedWindow

/-- The events from `t` on and before `u`. -/
def countIn (t u : ℤ) (l : List ℤ) : ℕ := l.countP fun x => decide (t ≤ x) && decide (x < u)

/-- The events from `t` on. -/
def countFrom (t : ℤ) (l : List ℤ) : ℕ := l.countP fun x => decide (t ≤ x)

/-- The times of the events, for a window that starts at `start`. -/
structure Spread (width : ℤ) (limit : ℕ) (start : ℤ) (l : List ℤ) : Prop where
  current : countFrom start l ≤ limit
  previous : ∀ t, start - width < t → countIn t start l ≤ limit
  anywhere : ∀ t, countIn t (t + width) l ≤ 2 * limit

variable {width : ℤ} {limit : ℕ} {start start' t u x : ℤ} {l : List ℤ}

theorem countIn_le_countFrom (t u : ℤ) (l : List ℤ) : countIn t u l ≤ countFrom t l := by
  refine List.countP_mono_left fun x _ hx => ?_
  exact (Bool.and_eq_true_iff.mp hx).1

/-- An interval is split at any point. -/
theorem countIn_le_add (t u start : ℤ) (l : List ℤ) :
    countIn t u l ≤ countIn t start l + countFrom start l := by
  induction l with
  | nil => exact Nat.zero_le _
  | cons x l ih =>
    rw [countIn, countIn, countFrom, List.countP_cons, List.countP_cons, List.countP_cons]
    rw [countIn, countIn, countFrom] at ih
    by_cases hx : x < start
    · by_cases ht : t ≤ x
      · simp [hx, ht, not_le.mpr hx]
        split <;> omega
      · simp [ht, not_le.mpr hx]
        omega
    · simp [not_lt.mp hx]
      split <;> omega

theorem Spread.empty (width : ℤ) (limit : ℕ) (start : ℤ) : Spread width limit start [] :=
  ⟨Nat.zero_le _, fun _ _ => Nat.zero_le _, fun _ => Nat.zero_le _⟩

theorem Spread.add (h : Spread width limit start l) (hx : start ≤ x)
    (hroom : countFrom start (x :: l) ≤ limit) : Spread width limit start (x :: l) := by
  have hcons : countFrom start (x :: l) = countFrom start l + 1 :=
    List.countP_cons_of_pos (by simpa using hx)
  refine ⟨hroom, fun t ht => ?_, fun t => ?_⟩
  · rw [countIn, List.countP_cons_of_neg (by simp; omega)]
    exact h.previous t ht
  · by_cases hin : t ≤ x ∧ x < t + width
    · -- The interval reaches the current window, so it began less than a width before it.
      have hprevious := h.previous t (by omega)
      have hsplit := countIn_le_add t (t + width) start l
      rw [countIn, List.countP_cons_of_pos (by simpa using hin)]
      rw [countIn] at hsplit
      omega
    · rw [countIn, List.countP_cons_of_neg (by simpa using hin)]
      exact h.anywhere t

theorem Spread.restart (h : Spread width limit start l) (hnew : start + width ≤ start')
    (hpast : ∀ x ∈ l, x < start') : Spread width limit start' l := by
  have hnone : countFrom start' l = 0 := by
    refine List.countP_eq_zero.mpr fun x hx => ?_
    have := hpast x hx
    simpa using this
  refine ⟨hnone ▸ Nat.zero_le _, fun t ht => ?_, h.anywhere⟩
  -- All of it lies in the window that ends.
  have hlater : countFrom t l ≤ countFrom start l := by
    refine List.countP_mono_left fun x _ hx => ?_
    simp only [decide_eq_true_eq] at hx ⊢
    omega
  exact (countIn_le_countFrom t start' l).trans (hlater.trans h.current)

end FixedWindow
