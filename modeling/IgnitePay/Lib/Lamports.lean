/-
Lamports and their transfer between accounts.

The address type is a parameter.  `of_move` is the whole effect of a move, as one
equation for every account, which also covers a move from an account to itself.
-/
import IgnitePay.Lib.Machine

namespace Lamports

open Machine

variable {A : Type} [DecidableEq A]

/-- Take `amount` lamports from `src` and give them to `dst`; `none` when `src` has too few or
`dst` would overflow. -/
def move (lamports : A → UInt64) (src dst : A) (amount : UInt64) : Option (A → UInt64) :=
  (checkedSub (lamports src) amount).bind fun s =>
    let taken := Function.update lamports src s
    (checkedAdd (taken dst) amount).map fun d => Function.update taken dst d

variable {l l' : A → UInt64} {src dst : A} {amount : UInt64}

theorem of_move (h : move l src dst amount = some l') (a : A) :
    (l' a).toNat + (if a = src then amount.toNat else 0)
      = (l a).toNat + (if a = dst then amount.toNat else 0) := by
  rw [move, Option.bind_eq_some_iff] at h
  obtain ⟨s, hs, h⟩ := h
  rw [Option.map_eq_some_iff] at h
  obtain ⟨d, hd, rfl⟩ := h
  rw [checkedSub_eq_some] at hs
  rw [checkedAdd_eq_some] at hd
  simp only [Function.update_apply] at hd ⊢
  by_cases hsrc : a = src
  · by_cases hdst : a = dst
    · subst hsrc
      subst hdst
      simp only [if_true] at hd ⊢
      omega
    · subst hsrc
      simp only [if_true, if_neg hdst]
      omega
  · by_cases hdst : a = dst
    · subst hdst
      simp only [if_true, if_neg hsrc] at hd ⊢
      omega
    · simp only [if_neg hsrc, if_neg hdst]

/-- A move of nothing goes through and changes nothing. -/
theorem move_zero (l : A → UInt64) (src dst : A) : move l src dst 0 = some l := by
  have hsub : checkedSub (l src) 0 = some (l src) := checkedSub_eq_some.mpr (Nat.add_zero _).symm
  have hadd : checkedAdd (l dst) 0 = some (l dst) := checkedAdd_eq_some.mpr (Nat.add_zero _).symm
  rw [move, hsub, Option.bind_some, Function.update_eq_self]
  dsimp only
  rw [hadd, Option.map_some, Function.update_eq_self]

/-- Who is not the source does not lose. -/
theorem le_of_move (h : move l src dst amount = some l') {a : A} (ha : a ≠ src) :
    (l a).toNat ≤ (l' a).toNat := by
  have := of_move h a
  rw [if_neg ha] at this
  omega

end Lamports
