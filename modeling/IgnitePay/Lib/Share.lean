/-
Dividing an amount in proportion to two deposits.

The exact share of a deposit `a` among deposits of `t` in an amount `u` is
`u * a / t`.  In integers it is rounded down (`floorShare`), and some programs
first round the ratio `a / t` down to a fixed number of parts (`scaledShare`);
the other party gets the rest, so nothing is lost either way.

* `scaledShare_le` — the scaled share is never the larger one;
* `scaledShare_eq_iff` — when the two agree, in the remainders alone;
* `scaledSplit_eq_iff` — so the two divisions then agree in both parts;
* `divides_floorSplit` — the first of them rounds both exact shares.
-/
import Mathlib

namespace Share

/-- `u * a / t`, as integers have it. -/
def floorShare (u a t : ℕ) : ℕ := u * a / t

/-- The same with the ratio rounded down to `scale` parts. -/
def scaledShare (scale u a t : ℕ) : ℕ := u * (a * scale / t) / scale

/-- The floor for one deposit, and the rest for the other. -/
def floorSplit (u a t : ℕ) : ℕ × ℕ := (floorShare u a t, u - floorShare u a t)

/-- The scaled share for one deposit, and the rest for the other. -/
def scaledSplit (scale u a t : ℕ) : ℕ × ℕ := (scaledShare scale u a t, u - scaledShare scale u a t)

/-- The exact share. -/
def exactShare (u a t : ℕ) : ℚ := u * a / t

/-- `n` is within one of the exact share. -/
def RoundsShare (n u a t : ℕ) : Prop := |(n : ℚ) - exactShare u a t| < 1

/-- The pair divides `u`: it adds up to it and rounds both shares. -/
structure Divides (u a b : ℕ) (r : ℕ × ℕ) : Prop where
  sum_eq : r.1 + r.2 = u
  roundsA : RoundsShare r.1 u a (a + b)
  roundsB : RoundsShare r.2 u b (a + b)

section

variable {scale u a b t : ℕ}

/-- What the rounded ratio loses of the numerator. -/
theorem mul_ratio (scale u a t : ℕ) :
    u * (a * scale / t) * t + u * (a * scale % t) = u * a * scale := by
  calc u * (a * scale / t) * t + u * (a * scale % t)
      = u * (a * scale / t * t + a * scale % t) := by rw [Nat.mul_add, Nat.mul_assoc]
    _ = u * (a * scale) := by rw [Nat.div_add_mod']
    _ = u * a * scale := (Nat.mul_assoc _ _ _).symm

theorem scaledShare_le (scale u a : ℕ) : scaledShare scale u a t ≤ floorShare u a t := by
  rcases Nat.eq_zero_or_pos t with rfl | ht
  · simp [scaledShare, floorShare]
  rcases Nat.eq_zero_or_pos scale with rfl | hs
  · simp [scaledShare]
  rw [scaledShare, floorShare, Nat.le_div_iff_mul_le ht]
  have hloss := mul_ratio scale u a t
  have hdiv := Nat.div_mul_le_self (u * (a * scale / t)) scale
  refine Nat.le_of_mul_le_mul_right ?_ hs
  calc u * (a * scale / t) / scale * t * scale
      = u * (a * scale / t) / scale * scale * t := by rw [Nat.mul_right_comm]
    _ ≤ u * (a * scale / t) * t := Nat.mul_le_mul_right t hdiv
    _ ≤ u * a * scale := by omega

/-- The scaled share is the floor exactly when the amount's remainder makes up
for the ratio's. -/
theorem scaledShare_eq_iff (hs : 0 < scale) :
    scaledShare scale u a t = floorShare u a t ↔
      u * (a * scale % t) ≤ u * a % t * scale := by
  rcases Nat.eq_zero_or_pos t with rfl | ht
  · simp [scaledShare, floorShare, Nat.mul_assoc]
  have hle : scaledShare scale u a t ≤ floorShare u a t := scaledShare_le scale u a
  have hloss := mul_ratio scale u a t
  have hfloor : floorShare u a t * t + u * a % t = u * a := Nat.div_add_mod' _ _
  have hscaled : floorShare u a t * t * scale + u * a % t * scale = u * a * scale := by
    rw [← Nat.add_mul, hfloor]
  -- Both sides say that `floorShare * scale` ratios fit into the rounded ones.
  have hfit : floorShare u a t ≤ scaledShare scale u a t ↔
      floorShare u a t * t * scale ≤ u * (a * scale / t) * t := by
    rw [scaledShare, Nat.le_div_iff_mul_le hs, Nat.mul_right_comm _ t scale]
    exact (Nat.mul_le_mul_right_iff ht).symm
  calc scaledShare scale u a t = floorShare u a t
      ↔ floorShare u a t ≤ scaledShare scale u a t := by omega
    _ ↔ floorShare u a t * t * scale ≤ u * (a * scale / t) * t := hfit
    _ ↔ u * (a * scale % t) ≤ u * a % t * scale := by omega

theorem floorShare_le (h : a ≤ t) : floorShare u a t ≤ u :=
  Nat.div_le_of_le_mul ((Nat.mul_le_mul_left u h).trans_eq (Nat.mul_comm u t))

theorem roundsShare_floor (u a t : ℕ) : RoundsShare (floorShare u a t) u a t := by
  have hfloor : ((floorShare u a t : ℕ) : ℚ) = ⌊exactShare u a t⌋₊ := by
    rw [exactShare, ← Nat.cast_mul, Nat.floor_div_eq_div]
    rfl
  have hnonneg : 0 ≤ exactShare u a t := by
    rw [exactShare]
    positivity
  rw [RoundsShare, hfloor, abs_sub_lt_iff]
  have hle := Nat.floor_le hnonneg
  have hlt := Nat.lt_floor_add_one (exactShare u a t)
  constructor
  · linarith
  · linarith

theorem exactShare_add (u : ℕ) (ht : 0 < a + b) :
    exactShare u a (a + b) + exactShare u b (a + b) = u := by
  have hne : ((a + b : ℕ) : ℚ) ≠ 0 := Nat.cast_ne_zero.mpr ht.ne'
  rw [exactShare, exactShare, ← add_div, ← mul_add, ← Nat.cast_add]
  exact mul_div_cancel_right₀ (u : ℚ) hne

/-- What a rounded share leaves of the amount rounds the other share. -/
theorem RoundsShare.rest {n : ℕ} (h : RoundsShare n u a (a + b)) (hn : n ≤ u) (ht : 0 < a + b) :
    RoundsShare (u - n) u b (a + b) := by
  have hadd := exactShare_add u ht
  have hrest : ((u - n : ℕ) : ℚ) - exactShare u b (a + b) = -((n : ℚ) - exactShare u a (a + b)) := by
    rw [Nat.cast_sub hn]
    linarith
  rw [RoundsShare, hrest, abs_neg]
  exact h

theorem scaledSplit_eq_iff (hs : 0 < scale) :
    scaledSplit scale u a t = floorSplit u a t ↔ u * (a * scale % t) ≤ u * a % t * scale := by
  rw [← scaledShare_eq_iff hs]
  constructor
  · intro h
    exact congrArg Prod.fst h
  · intro h
    rw [scaledSplit, floorSplit, h]

/-- Without deposits there must be nothing to divide. -/
theorem divides_floorSplit (hu : a + b = 0 → u = 0) :
    Divides u a b (floorSplit u a (a + b)) := by
  have hle : floorShare u a (a + b) ≤ u := floorShare_le (Nat.le_add_right a b)
  have hrounds := roundsShare_floor u a (a + b)
  refine ⟨Nat.add_sub_of_le hle, hrounds, ?_⟩
  rcases Nat.eq_zero_or_pos (a + b) with hzero | hpos
  · obtain rfl : u = 0 := hu hzero
    simp [RoundsShare, exactShare, floorSplit]
  · exact hrounds.rest hle hpos

end

end Share
