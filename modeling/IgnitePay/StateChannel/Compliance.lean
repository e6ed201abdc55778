/-
Spending limits of a channel (`compliance.rs`).

The compliance manager keeps one record for each channel.  `record_payment`
checks a payment against the limits and adds it to the record: to the sum of
all payments, and, where the payment has a slot, to a window of recent ones.
At the threshold it puts a hold on the channel, and refuses payments from then
on.

* `recordPayment_eq_ok` — what a recorded payment has passed, and its record;
* `progress_lt_of_paid` — a recorded payment leaves no record as it was.
-/
import IgnitePay.StateChannel.State

namespace StateChannel

open Bytes Machine Solana

structure SpendingLimit where
  /-- The spend that calls for a review. -/
  threshold : UInt64
  perChannel : UInt64
  windowSlots : UInt64
deriving DecidableEq

structure TravelRuleData where
  originatorId : List UInt8
  beneficiaryId : List UInt8
  amount : UInt64
  createdSlot : UInt64
  channelId : Bytes 32
  originatorJurisdiction : List UInt8
  beneficiaryJurisdiction : List UInt8
deriving DecidableEq

inductive ComplianceAction
  | none
  | insertMarker (complianceHash : Bytes 32) (threshold : UInt64)
deriving DecidableEq

structure PaymentRecord where
  slot : UInt64
  amount : UInt64
deriving DecidableEq

structure ChannelComplianceState where
  channelId : Bytes 32
  cumulativeSpent : UInt64
  lastCheckSlot : UInt64
  complianceHold : Bool
  limits : SpendingLimit
  travelRules : List TravelRuleData
  windowPayments : List PaymentRecord
deriving DecidableEq

/-- The records under `compliance:{id}`. -/
abbrev ComplianceDb := Store.Map (Bytes 32) ChannelComplianceState

/-- `compute_compliance_hash`. -/
def computeComplianceHash (sha : List UInt8 → Bytes 32) (channelId : Bytes 32)
    (user provider : Pubkey) (cumulative slot : UInt64) : Bytes 32 :=
  sha (channelId.val ++ (user.val ++ (provider.val ++ (u64Le cumulative ++ u64Le slot))))

/-- The amounts of the window, as `fold` with `saturating_add` adds them up. -/
def windowSpend (payments : List PaymentRecord) : UInt64 :=
  payments.foldl (fun acc p => saturatingAdd acc p.amount) 0

/-- The window with a payment, and without those that are older than the window. -/
def ChannelComplianceState.pushPayment (state : ChannelComplianceState) (slot amount : UInt64) :
    List PaymentRecord :=
  if slot > 0 then
    let payments := state.windowPayments ++ [⟨slot, amount⟩]
    let windowSlots := state.limits.windowSlots
    if windowSlots > 0 ∧ slot ≥ windowSlots then
      payments.filter fun p => p.slot ≥ slot - windowSlots
    else payments
  else state.windowPayments

/-- The spend a payment is measured by: without a slot it is the sum of all payments,
not the window. -/
def ChannelComplianceState.effectiveSpend (state : ChannelComplianceState) (amount slot : UInt64) :
    UInt64 :=
  if slot = 0 then saturatingAdd state.cumulativeSpent amount
  else windowSpend (state.pushPayment slot amount)

/-- The record after a payment that passed its checks. -/
def ChannelComplianceState.paid (state : ChannelComplianceState) (amount slot : UInt64) :
    ChannelComplianceState :=
  { state with
    windowPayments := state.pushPayment slot amount
    cumulativeSpent := saturatingAdd state.cumulativeSpent amount
    lastCheckSlot := slot
    complianceHold := state.complianceHold ||
      decide (state.effectiveSpend amount slot ≥ state.limits.threshold) }

/-- What the payment calls for. -/
def ChannelComplianceState.action (sha : List UInt8 → Bytes 32) (state : ChannelComplianceState)
    (channelId : Bytes 32) (amount slot : UInt64) (user provider : Pubkey) : ComplianceAction :=
  let spend := state.effectiveSpend amount slot
  let threshold := state.limits.threshold
  if spend ≥ threshold then
    .insertMarker (computeComplianceHash sha channelId user provider spend slot) threshold
  else .none

/-- `record_payment`. -/
def recordPayment (sha : List UInt8 → Bytes 32) (db : ComplianceDb) (channelId : Bytes 32)
    (amount slot : UInt64) (user provider : Pubkey) :
    Except StateChannelError (ComplianceAction × ComplianceDb) := do
  let state ← orErr (db.lookup channelId) (.channelNotFound (hexEncode channelId.val))
  require (¬ state.complianceHold) (.other "compliance hold is active for this channel")
  let perChannel := state.limits.perChannel
  require (¬ amount > perChannel)
    (.other s!"payment {amount} exceeds per_channel limit {perChannel}")
  return (state.action sha channelId amount slot user provider,
    db.insert channelId (state.paid amount slot))

section

variable {sha : List UInt8 → Bytes 32} {db db' : ComplianceDb} {channelId : Bytes 32}
  {amount slot : UInt64} {user provider : Pubkey}

/-- The channel has a record, and its limits let the payment pass. -/
def Payable (db : ComplianceDb) (channelId : Bytes 32) (amount : UInt64)
    (state : ChannelComplianceState) : Prop :=
  db.lookup channelId = some state ∧ ¬ state.complianceHold ∧ ¬ amount > state.limits.perChannel

theorem recordPayment_eq_ok :
    (∃ action, recordPayment sha db channelId amount slot user provider = .ok (action, db')) ↔
      ∃ state, Payable db channelId amount state ∧
        db' = db.insert channelId (state.paid amount slot) := by
  constructor
  · rintro ⟨action, h⟩
    obtain ⟨state, hstate, h⟩ := bind_eq_ok.mp h
    obtain ⟨_, hhold, h⟩ := bind_eq_ok.mp h
    obtain ⟨_, hlimit, h⟩ := bind_eq_ok.mp h
    rw [orErr_eq_ok] at hstate
    rw [require_eq_ok] at hhold hlimit
    have heq := Except.ok.inj h
    rw [Prod.mk.injEq] at heq
    exact ⟨state, ⟨hstate, hhold, hlimit⟩, heq.2.symm⟩
  · rintro ⟨state, ⟨hstate, hhold, hlimit⟩, rfl⟩
    refine ⟨state.action sha channelId amount slot user provider,
      bind_eq_ok.mpr ⟨state, orErr_eq_ok.mpr hstate, ?_⟩⟩
    rw [require_bind hhold, require_bind hlimit]
    rfl

/-- Grows with every payment: by the sum paid, or by the hold that a full sum brings. -/
def ChannelComplianceState.progress (state : ChannelComplianceState) : ℕ :=
  state.cumulativeSpent.toNat + if state.complianceHold then 1 else 0

/-- A payment without a slot that is recorded changes the record. -/
theorem progress_lt_of_paid {state : ChannelComplianceState} (hhold : ¬ state.complianceHold)
    (hamount : amount > 0) : state.progress < (state.paid amount 0).progress := by
  have hpos : 0 < amount.toNat := UInt64.lt_iff_toNat_lt.mp hamount
  have hbefore : state.progress = state.cumulativeSpent.toNat := by
    rw [ChannelComplianceState.progress, if_neg hhold, Nat.add_zero]
  have hcum : (state.paid amount 0).cumulativeSpent = saturatingAdd state.cumulativeSpent amount :=
    rfl
  rw [hbefore, ChannelComplianceState.progress, hcum]
  by_cases hfits : state.cumulativeSpent.toNat + amount.toNat < 2 ^ 64
  · rw [toNat_saturatingAdd_of_lt hfits]
    omega
  · -- The sum stays at the largest `u64`, which no threshold exceeds.
    have hmax : saturatingAdd state.cumulativeSpent amount = UInt64.ofNat (2 ^ 64 - 1) :=
      if_neg hfits
    have hge : saturatingAdd state.cumulativeSpent amount ≥ state.limits.threshold := by
      rw [hmax]
      exact UInt64.le_iff_toNat_le.mpr (Nat.le_pred_of_lt state.limits.threshold.toNat_lt)
    have hheld : (state.paid amount 0).complianceHold = true := by
      show (state.complianceHold
        || decide (saturatingAdd state.cumulativeSpent amount ≥ state.limits.threshold)) = true
      rw [decide_eq_true hge, Bool.or_true]
    have hlt := state.cumulativeSpent.toNat_lt
    rw [hheld, hmax]
    show state.cumulativeSpent.toNat < 2 ^ 64 - 1 + 1
    omega

end

end StateChannel
