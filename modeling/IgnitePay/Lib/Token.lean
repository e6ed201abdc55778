/-
The SPL token program, as far as programs call it: token accounts and the
`Transfer` instruction.

The address type is a parameter.  That the authority signed is the caller's
business: a wallet signs the transaction, a program signs for the addresses it
derives.

`Moved` says what a transfer does to all balances at once, without subtraction,
so that a transfer of an account to itself needs no case of its own.
-/
import IgnitePay.Lib.Machine
import IgnitePay.Lib.Solana
import IgnitePay.Lib.Store

namespace Token

open Machine

/-- How a transfer fails. -/
inductive Error
  | uninitializedAccount
  | accountFrozen
  | insufficientFunds
  | mintMismatch
  | ownerMismatch
  | overflow
deriving DecidableEq, Repr

structure Account (A : Type) where
  mint : Solana.Pubkey
  owner : A
  amount : UInt64
  delegate : Option A
  delegatedAmount : UInt64
  frozen : Bool
deriving DecidableEq

variable {A : Type} [DecidableEq A]

/-- The accounts of the token program. -/
abbrev Ledger (A : Type) := Store.Map A (Account A)

/-- Use up `amount` of what `authority` may spend of `src`: a delegate has an
allowance, the owner may spend everything. -/
def spendAllowance (src : Account A) (authority : A) (amount : UInt64) :
    Except Error (Account A) :=
  if src.delegate = some authority then do
    let delegatedAmount ← orErr (checkedSub src.delegatedAmount amount) .insufficientFunds
    let delegate := if delegatedAmount = 0 then none else src.delegate
    pure { src with delegate, delegatedAmount }
  else do
    require (src.owner = authority) .ownerMismatch
    pure src

/-- `Transfer` of `amount` from `src` to `dst`, signed by `authority`. -/
def transfer (ledger : Ledger A) (src dst authority : A) (amount : UInt64) :
    Except Error (Ledger A) := do
  let source ← orErr (ledger.lookup src) .uninitializedAccount
  let dest ← orErr (ledger.lookup dst) .uninitializedAccount
  require (source.frozen = false ∧ dest.frozen = false) .accountFrozen
  require (amount ≤ source.amount) .insufficientFunds
  require (source.mint = dest.mint) .mintMismatch
  let spent ← spendAllowance source authority amount
  if src = dst then pure ledger
  else do
    let sourceAmount ← orErr (checkedSub spent.amount amount) .overflow
    let destAmount ← orErr (checkedAdd dest.amount amount) .overflow
    pure ((ledger.insert src { spent with amount := sourceAmount }).insert dst
      { dest with amount := destAmount })

/-! ### Balances -/

/-- The tokens at an address; none where there is no account. -/
def balance (ledger : Ledger A) (a : A) : ℕ := (ledger.lookup a).elim 0 fun t => t.amount.toNat

/-- What `x` has of `n` tokens that are all at `a`. -/
def amountAt (a x : A) (n : ℕ) : ℕ := if x = a then n else 0

/-- From one ledger to the other, `n` tokens went from `src` to `dst`, and
nothing else happened to a balance. -/
def Moved (ledger ledger' : Ledger A) (src dst : A) (n : ℕ) : Prop :=
  ∀ x, balance ledger' x + amountAt src x n = balance ledger x + amountAt dst x n

section

variable {l l' : Ledger A} {src dst authority : A} {amount : UInt64}

@[simp] theorem amountAt_self (a : A) (n : ℕ) : amountAt a a n = n := if_pos rfl

@[simp] theorem amountAt_zero (a x : A) : amountAt a x 0 = 0 := by simp [amountAt]

theorem amountAt_of_ne {a x : A} (h : x ≠ a) (n : ℕ) : amountAt a x n = 0 := if_neg h

theorem amountAt_add (a x : A) (m n : ℕ) :
    amountAt a x (m + n) = amountAt a x m + amountAt a x n := by
  by_cases h : x = a
  · rw [h, amountAt_self, amountAt_self, amountAt_self]
  · rw [amountAt_of_ne h, amountAt_of_ne h, amountAt_of_ne h]

theorem amountAt_eq_zero {a x : A} {n : ℕ} : amountAt a x n = 0 ↔ n = 0 ∨ a ≠ x := by
  by_cases h : x = a
  · subst h
    simp
  · rw [amountAt_of_ne h]
    exact iff_of_true rfl (.inr (Ne.symm h))

/-- Two amounts at two addresses each are everywhere the same exactly if each
amount that is not nothing is at the same address, or two equal amounts are
exchanged. -/
theorem amountAt_pair_iff {a b a' b' : A} {m n : ℕ} :
    (∀ x, amountAt a x m + amountAt b x n = amountAt a' x m + amountAt b' x n) ↔
      ((m = 0 ∨ a = a') ∧ (n = 0 ∨ b = b')) ∨ (a = b' ∧ b = a' ∧ m = n) := by
  constructor
  · intro h
    have ha := h a
    have hb := h b
    have ha' := h a'
    have hb' := h b'
    simp only [amountAt] at ha hb ha' hb'
    grind
  · rintro (⟨hm, hn⟩ | ⟨rfl, rfl, rfl⟩) x
    · have hleft : amountAt a x m = amountAt a' x m := by
        rcases hm with rfl | rfl
        · rw [amountAt_zero, amountAt_zero]
        · rfl
      have hright : amountAt b x n = amountAt b' x n := by
        rcases hn with rfl | rfl
        · rw [amountAt_zero, amountAt_zero]
        · rfl
      rw [hleft, hright]
    · exact Nat.add_comm _ _

theorem Moved.refl (l : Ledger A) (src dst : A) : Moved l l src dst 0 := by
  intro x
  rw [amountAt_zero, amountAt_zero]

theorem balance_insert (l : Ledger A) (a x : A) (t : Account A) :
    balance (l.insert a t) x = if x = a then t.amount.toNat else balance l x := by
  rw [balance, Store.lookup_insert_eq]
  split
  · rfl
  · rfl

theorem balance_of_lookup {a : A} {t : Account A} (h : l.lookup a = some t) :
    balance l a = t.amount.toNat := by
  rw [balance, h]
  rfl

theorem amount_of_spendAllowance {t spent : Account A}
    (h : spendAllowance t authority amount = .ok spent) : spent.amount = t.amount := by
  unfold spendAllowance at h
  split at h
  · simp only [bind_eq_ok, orErr_eq_ok, pure, Except.pure, Except.ok.injEq] at h
    obtain ⟨_, -, rfl⟩ := h
    rfl
  · simp only [bind_eq_ok, require_eq_ok, pure, Except.pure, Except.ok.injEq] at h
    obtain ⟨_, -, rfl⟩ := h
    rfl

/-- A transfer moves the amount. -/
theorem transfer_moved (h : transfer l src dst authority amount = .ok l') :
    Moved l l' src dst amount.toNat := by
  simp only [transfer, bind_eq_ok, orErr_eq_ok, require_eq_ok, exists_const] at h
  obtain ⟨source, hsource, dest, hdest, -, -, -, spent, hspent, h⟩ := h
  by_cases hself : src = dst
  · rw [if_pos hself] at h
    cases h
    intro x
    rw [hself]
  rw [if_neg hself] at h
  simp only [bind_eq_ok, orErr_eq_ok, checkedSub_eq_some, checkedAdd_eq_some, pure, Except.pure,
    Except.ok.injEq] at h
  obtain ⟨sourceAmount, hsub, destAmount, hadd, rfl⟩ := h
  rw [amount_of_spendAllowance hspent] at hsub
  have hsrc := balance_of_lookup hsource
  have hdst := balance_of_lookup hdest
  intro x
  rw [balance_insert, balance_insert]
  -- The two accounts are different, so `x` is one of them or neither.
  by_cases hxdst : x = dst
  · have hxsrc : x ≠ src := fun hx => hself (hx.symm.trans hxdst)
    rw [if_pos hxdst, hxdst, amountAt_self, amountAt_of_ne (hxdst ▸ hxsrc)]
    show destAmount.toNat + 0 = _
    omega
  · rw [if_neg hxdst, amountAt_of_ne hxdst]
    by_cases hxsrc : x = src
    · rw [if_pos hxsrc, hxsrc, amountAt_self]
      show sourceAmount.toNat + _ = _
      omega
    · rw [if_neg hxsrc, amountAt_of_ne hxsrc]

end

end Token
