/-
The sliding window of the spending limit (`compliance.rs`): `init_channel_compliance`,
`record_payment` and `clear_hold` over a run.

The record keeps a list of recent payments.  A payment that is recorded joins it, and those that
the window has left behind go, unless the slot is below the length of the window, when nothing
can be too old.  Where slots do not fall, what has gone stays out of every later window, and the
list adds up to what the history says:

* `Tracks.pushPayment_eq` — the new list is the history from the start of the window on;
* `exists_tracks` — throughout a run the record keeps track of the history;
* `recordPayment_iff_window` — so payments are rejected, and the hold is set, by the history alone.
-/
import IgnitePay.StateChannel.Conservation

namespace StateChannel

open Bytes Machine Solana

/-- `init_channel_compliance`. -/
def initChannelCompliance (db : ComplianceDb) (channelId : Bytes 32) (limits : SpendingLimit) :
    ComplianceDb :=
  db.insert channelId {
    channelId
    cumulativeSpent := 0
    lastCheckSlot := 0
    complianceHold := false
    limits
    travelRules := []
    windowPayments := [] }

/-- `clear_hold`. -/
def clearHold (db : ComplianceDb) (channelId : Bytes 32) : Except StateChannelError ComplianceDb := do
  let state ← orErr (db.lookup channelId) (.channelNotFound (hexEncode channelId.val))
  return db.insert channelId { state with complianceHold := false }

inductive ComplianceCall
  | recordPayment (channelId : Bytes 32) (amount slot : UInt64) (user provider : Pubkey)
  | clearHold (channelId : Bytes 32)

namespace ComplianceCall

/-- The channel that a call is about. -/
def channelId : ComplianceCall → Bytes 32
  | recordPayment channelId _ _ _ _ => channelId
  | clearHold channelId => channelId

/-- The records after a call; one that is rejected leaves them as they are. -/
def exec (sha : List UInt8 → Bytes 32) (c : ComplianceCall) (db : ComplianceDb) :
    Except Empty ComplianceDb :=
  match c with
  | recordPayment channelId amount slot user provider =>
    match StateChannel.recordPayment sha db channelId amount slot user provider with
    | .ok (_, db') => .ok db'
    | .error _ => .ok db
  | clearHold channelId =>
    match StateChannel.clearHold db channelId with
    | .ok db' => .ok db'
    | .error _ => .ok db

end ComplianceCall

/-! ### What the history says -/

/-- Calls with the records that they were made on, the latest first. -/
abbrev ComplianceHistory := List (ComplianceDb × ComplianceCall)

namespace ComplianceHistory

variable (sha : List UInt8 → Bytes 32) (channelId : Bytes 32)

/-- The slots of the payments of a channel, rejected or not. -/
def slots : ComplianceHistory → List UInt64
  | [] => []
  | (_, .recordPayment id _ slot _ _) :: h => if id = channelId then slot :: slots h else slots h
  | (_, .clearHold _) :: h => slots h

/-- The payments of a channel that were recorded. -/
def accepted : ComplianceHistory → List PaymentRecord
  | [] => []
  | (db, .recordPayment id amount slot user provider) :: h =>
    if id = channelId ∧ (recordPayment sha db id amount slot user provider).isOk then
      ⟨slot, amount⟩ :: accepted h
    else accepted h
  | (_, .clearHold _) :: h => accepted h

end ComplianceHistory

/-- Latest first, the slots are positive and do not fall. -/
structure Ascending (slots : List UInt64) : Prop where
  positive : ∀ slot ∈ slots, slot > 0
  sorted : slots.Pairwise fun later earlier => earlier ≤ later

instance (slots : List UInt64) : Decidable (Ascending slots) :=
  decidable_of_iff ((slots.all fun slot => slot > 0) ∧
    slots.Pairwise fun later earlier => earlier ≤ later) (by
      rw [List.all_eq_true]
      simp only [decide_eq_true_iff]
      exact ⟨fun h => ⟨h.1, h.2⟩, fun h => ⟨h.positive, h.sorted⟩⟩)

/-- The payments with a slot in `[slot - window_slots, slot]`, added up. -/
def spentWithin (payments : List PaymentRecord) (windowSlots slot : UInt64) : ℕ :=
  ((payments.filter fun p =>
    slot.toNat - windowSlots.toNat ≤ p.slot.toNat ∧ p.slot ≤ slot).map fun p => p.amount.toNat).sum

/-- The payments within the window, with one of `amount` in `slot`, reach the threshold, as a
saturating sum. -/
def SpendingLimit.Reached (limits : SpendingLimit) (payments : List PaymentRecord)
    (amount slot : UInt64) : Prop :=
  limits.threshold.toNat
    ≤ min (amount.toNat + spentWithin payments limits.windowSlots slot) (2 ^ 64 - 1)

instance (limits : SpendingLimit) (payments : List PaymentRecord) (amount slot : UInt64) :
    Decidable (limits.Reached payments amount slot) := inferInstanceAs (Decidable (_ ≤ _))

/-! ### The record and the history -/

section

variable {sha : List UInt8 → Bytes 32} {channelId : Bytes 32} {limits : SpendingLimit}
  {past : List PaymentRecord} {slots : List UInt64} {state : ChannelComplianceState}
  {amount slot : UInt64}

/-- The record keeps the recent part of the past, and has dropped nothing that a window from now
on could reach. -/
structure Tracks (limits : SpendingLimit) (past : List PaymentRecord) (slots : List UInt64)
    (state : ChannelComplianceState) : Prop where
  limits_eq : state.limits = limits
  within : ∀ p ∈ past, p.slot ∈ slots
  window : ∃ cut, state.windowPayments = past.reverse.filter (fun p => cut ≤ p.slot.toNat) ∧
    ∀ slot : UInt64, (∀ s ∈ slots, s ≤ slot) → cut ≤ slot.toNat - limits.windowSlots.toNat

/-- What a first cut leaves, a later one cuts as if it were the first. -/
theorem filter_filter_later {cut cut' : ℕ} (hcut : cut ≤ cut') (payments : List PaymentRecord) :
    (payments.filter fun p => cut ≤ p.slot.toNat).filter (fun p => cut' ≤ p.slot.toNat)
      = payments.filter fun p => cut' ≤ p.slot.toNat := by
  rw [List.filter_filter]
  refine List.filter_congr fun p _ => ?_
  rw [← Bool.decide_and, decide_eq_decide]
  omega

/-- The window of a payment is the past, with the payment, from the start of the window on. -/
theorem Tracks.pushPayment_eq (h : Tracks limits past slots state) (hlength : limits.windowSlots > 0)
    (hslot : slot > 0) (hlatest : ∀ s ∈ slots, s ≤ slot) : state.pushPayment slot amount
      = (⟨slot, amount⟩ :: past).reverse.filter
          fun p => slot.toNat - limits.windowSlots.toNat ≤ p.slot.toNat := by
  obtain ⟨cut, hwindow, hcut⟩ := h.window
  have hcut := hcut slot hlatest
  have hpush : ∀ cut', cut ≤ cut' →
      (state.windowPayments ++ [PaymentRecord.mk slot amount]).filter (fun p => cut' ≤ p.slot.toNat)
        = (PaymentRecord.mk slot amount :: past).reverse.filter fun p => cut' ≤ p.slot.toNat := by
    intro cut' hle
    rw [hwindow, List.filter_append, filter_filter_later hle, List.reverse_cons, List.filter_append]
  rw [ChannelComplianceState.pushPayment, if_pos hslot, h.limits_eq]
  dsimp only
  split
  · next hfull =>
    -- Payments before the start of the window go.
    have hsub : (slot - limits.windowSlots).toNat = slot.toNat - limits.windowSlots.toNat :=
      UInt64.toNat_sub_of_le _ _ hfull.2
    rw [← hpush _ hcut]
    refine List.filter_congr fun p _ => ?_
    rw [decide_eq_decide, ge_iff_le, UInt64.le_iff_toNat_le, hsub]
  · next hshort =>
    -- The window starts at slot 0, and nothing has gone before.
    have hlt : slot < limits.windowSlots := UInt64.not_le.mp fun hle => hshort ⟨hlength, hle⟩
    have hzero : slot.toNat - limits.windowSlots.toNat = 0 :=
      Nat.sub_eq_zero_of_le (UInt64.lt_iff_toNat_lt.mp hlt).le
    rw [hzero] at hcut ⊢
    rw [← hpush 0 hcut]
    exact (List.filter_eq_self.mpr fun p _ => decide_eq_true (Nat.zero_le _)).symm

/-- So the window adds up to the payment and what the past has spent within it. -/
theorem Tracks.toNat_effectiveSpend (h : Tracks limits past slots state)
    (hlength : limits.windowSlots > 0) (hslot : slot > 0) (hlatest : ∀ s ∈ slots, s ≤ slot) :
    (state.effectiveSpend amount slot).toNat
      = min (amount.toNat + spentWithin past limits.windowSlots slot) (2 ^ 64 - 1) := by
  have hne : slot ≠ 0 := fun hzero => absurd hslot (by rw [hzero]; exact UInt64.lt_irrefl 0)
  have hzero : (0 : UInt64).toNat = 0 := rfl
  have hcut : slot.toNat - limits.windowSlots.toNat ≤ slot.toNat := Nat.sub_le _ _
  have hupper : past.filter (fun p => slot.toNat - limits.windowSlots.toNat ≤ p.slot.toNat)
      = past.filter fun p => slot.toNat - limits.windowSlots.toNat ≤ p.slot.toNat ∧ p.slot ≤ slot :=
    List.filter_congr fun p hp => by
      rw [decide_eq_decide, and_iff_left (hlatest p.slot (h.within p hp))]
  have hfirst : (PaymentRecord.mk slot amount :: past).filter
        (fun p => slot.toNat - limits.windowSlots.toNat ≤ p.slot.toNat)
      = ⟨slot, amount⟩ ::
          past.filter fun p => slot.toNat - limits.windowSlots.toNat ≤ p.slot.toNat :=
    List.filter_cons_of_pos (decide_eq_true hcut)
  rw [ChannelComplianceState.effectiveSpend, if_neg hne, windowSpend,
    toNat_foldl_saturatingAdd PaymentRecord.amount, h.pushPayment_eq hlength hslot hlatest, hzero,
    Nat.zero_add, List.filter_reverse, List.map_reverse, List.sum_reverse, hfirst, List.map_cons,
    List.sum_cons, hupper, spentWithin]

/-- The record after the payment has its part of the past with the payment. -/
theorem Tracks.paid (h : Tracks limits past slots state) (hlength : limits.windowSlots > 0)
    (hslot : slot > 0) (hlatest : ∀ s ∈ slots, s ≤ slot) :
    Tracks limits (⟨slot, amount⟩ :: past) (slot :: slots) (state.paid amount slot) where
  limits_eq := h.limits_eq
  within := List.forall_mem_cons.mpr
    ⟨List.mem_cons_self, fun p hp => List.mem_cons_of_mem _ (h.within p hp)⟩
  window := by
    refine ⟨_, h.pushPayment_eq hlength hslot hlatest, fun later hlater => ?_⟩
    have hle := UInt64.le_iff_toNat_le.mp (hlater slot List.mem_cons_self)
    omega

/-- A payment that is rejected, and a hold that is cleared, leave the window alone. -/
theorem Tracks.skip (h : Tracks limits past slots state) (slot : UInt64) :
    Tracks limits past (slot :: slots) state where
  limits_eq := h.limits_eq
  within p hp := List.mem_cons_of_mem _ (h.within p hp)
  window := by
    obtain ⟨cut, hwindow, hcut⟩ := h.window
    exact ⟨cut, hwindow, fun later hlater => hcut later (List.forall_mem_cons.mp hlater).2⟩

theorem Tracks.cleared (h : Tracks limits past slots state) :
    Tracks limits past slots { state with complianceHold := false } :=
  ⟨h.limits_eq, h.within, h.window⟩

/-! ### Runs -/

variable {db db' db₀ : ComplianceDb} {h : ComplianceHistory} {user provider : Pubkey}
  {action : ComplianceAction}

/-- The limits of the record let the payment pass. -/
theorem recordPayment_of_passes (hstate : db.lookup channelId = some state)
    (hhold : ¬ state.complianceHold) (hlimit : ¬ amount > state.limits.perChannel) :
    recordPayment sha db channelId amount slot user provider
      = .ok (state.action sha channelId amount slot user provider,
          db.insert channelId (state.paid amount slot)) := by
  refine bind_eq_ok.mpr ⟨state, orErr_eq_ok.mpr hstate, ?_⟩
  rw [require_bind hhold, require_bind hlimit]
  rfl

theorem recordPayment_of_rejects (hstate : db.lookup channelId = some state)
    (hrejects : state.complianceHold ∨ amount > state.limits.perChannel) :
    ∃ e, recordPayment sha db channelId amount slot user provider = .error e := by
  rcases hr : recordPayment sha db channelId amount slot user provider with e | ⟨action, db'⟩
  · exact ⟨e, rfl⟩
  · obtain ⟨state', ⟨hstate', hhold, hlimit⟩, -⟩ := recordPayment_eq_ok.mp ⟨action, hr⟩
    obtain rfl := Option.some_inj.mp (hstate.symm.trans hstate')
    exact absurd hrejects (not_or.mpr ⟨hhold, hlimit⟩)

theorem rejects_iff (hstate : db.lookup channelId = some state) :
    (∃ e, recordPayment sha db channelId amount slot user provider = .error e) ↔
      state.complianceHold ∨ amount > state.limits.perChannel := by
  constructor
  · rintro ⟨e, he⟩
    by_contra hpasses
    obtain ⟨hhold, hlimit⟩ := not_or.mp hpasses
    rw [recordPayment_of_passes hstate hhold hlimit] at he
    exact absurd he (by simp)
  · exact recordPayment_of_rejects hstate

theorem Ascending.tail {slots : List UInt64} (h : Ascending (slot :: slots)) : Ascending slots :=
  ⟨(List.forall_mem_cons.mp h.positive).2, (List.pairwise_cons.mp h.sorted).2⟩

theorem Ascending.latest {slots : List UInt64} (h : Ascending (slot :: slots)) :
    slot > 0 ∧ ∀ s ∈ slots, s ≤ slot :=
  ⟨(List.forall_mem_cons.mp h.positive).1, (List.pairwise_cons.mp h.sorted).1⟩

/-- The channel has a record that keeps track of its history. -/
def Tracked (sha : List UInt8 → Bytes 32) (channelId : Bytes 32) (limits : SpendingLimit)
    (h : ComplianceHistory) (db : ComplianceDb) : Prop :=
  ∃ state, db.lookup channelId = some state ∧
    Tracks limits (h.accepted sha channelId) (h.slots channelId) state

theorem tracked_start : Tracked sha channelId limits []
    (initChannelCompliance db₀ channelId limits) := by
  refine ⟨_, AList.lookup_insert _, rfl, fun _ hp => absurd hp List.not_mem_nil, 0, rfl, ?_⟩
  exact fun _ _ => Nat.zero_le _

namespace ComplianceCall

/-- A call about another channel does not touch the record. -/
theorem lookup_of_exec {c : ComplianceCall} {id : Bytes 32} (h : exec sha c db = .ok db')
    (hother : id ≠ c.channelId) : db'.lookup id = db.lookup id := by
  cases c with
  | recordPayment channelId amount slot user provider =>
    rcases hr : StateChannel.recordPayment sha db channelId amount slot user provider
      with e | ⟨action, db₁⟩
    · rw [exec, hr] at h
      rw [Except.ok.inj h]
    · rw [exec, hr] at h
      obtain ⟨state, -, hinsert⟩ := recordPayment_eq_ok.mp ⟨action, hr⟩
      rw [← Except.ok.inj h, hinsert]
      exact AList.lookup_insert_ne hother
  | clearHold channelId =>
    rcases hr : StateChannel.clearHold db channelId with e | db₁
    · rw [exec, hr] at h
      rw [Except.ok.inj h]
    · rw [exec, hr] at h
      obtain ⟨state, -, hinsert⟩ := bind_eq_ok.mp hr
      rw [← Except.ok.inj h, ← Except.ok.inj hinsert]
      exact AList.lookup_insert_ne hother

theorem exec_recordPayment_of_ok
    (hr : StateChannel.recordPayment sha db channelId amount slot user provider = .ok (action, db')) :
    exec sha (recordPayment channelId amount slot user provider) db = .ok db' := by
  rw [exec, hr]

/-- A rejected payment changes nothing. -/
theorem exec_recordPayment_of_error {e : StateChannelError}
    (hr : StateChannel.recordPayment sha db channelId amount slot user provider = .error e) :
    exec sha (recordPayment channelId amount slot user provider) db = .ok db := by
  rw [exec, hr]

/-- A payment on a record that keeps track of the history. -/
theorem tracked_of_payment (ht : Tracked sha channelId limits h db)
    (hlength : limits.windowSlots > 0) (hasc : Ascending (slot :: h.slots channelId))
    (hexec : exec sha (recordPayment channelId amount slot user provider) db = .ok db') :
    Tracked sha channelId limits ((db, recordPayment channelId amount slot user provider) :: h) db' := by
  obtain ⟨state, hstate, htracks⟩ := ht
  obtain ⟨hpos, hlatest⟩ := hasc.latest
  rw [Tracked, ComplianceHistory.accepted, ComplianceHistory.slots, if_pos rfl]
  rcases hr : StateChannel.recordPayment sha db channelId amount slot user provider
    with e | ⟨action, db₁⟩
  · rw [exec_recordPayment_of_error hr] at hexec
    rw [← Except.ok.inj hexec, if_neg (by simp [Except.isOk, Except.toBool])]
    exact ⟨state, hstate, htracks.skip slot⟩
  · rw [exec_recordPayment_of_ok hr] at hexec
    obtain ⟨state', ⟨hstate', -, -⟩, rfl⟩ := recordPayment_eq_ok.mp ⟨action, hr⟩
    obtain rfl := Option.some_inj.mp (hstate.symm.trans hstate')
    rw [← Except.ok.inj hexec, if_pos ⟨rfl, rfl⟩]
    exact ⟨_, AList.lookup_insert _, htracks.paid hlength hpos hlatest⟩

theorem tracked_of_clearHold (ht : Tracked sha channelId limits h db)
    (hexec : exec sha (clearHold channelId) db = .ok db') :
    Tracked sha channelId limits ((db, clearHold channelId) :: h) db' := by
  obtain ⟨state, hstate, htracks⟩ := ht
  have hr : StateChannel.clearHold db channelId
      = .ok (db.insert channelId { state with complianceHold := false }) :=
    bind_eq_ok.mpr ⟨state, orErr_eq_ok.mpr hstate, rfl⟩
  rw [exec, hr] at hexec
  rw [← Except.ok.inj hexec]
  exact ⟨_, AList.lookup_insert _, htracks.cleared⟩

/-- The history of a channel does not hear of a call about another. -/
theorem tracked_of_other {c : ComplianceCall} (ht : Tracked sha channelId limits h db)
    (hother : channelId ≠ c.channelId) (hexec : exec sha c db = .ok db') :
    Tracked sha channelId limits ((db, c) :: h) db' := by
  obtain ⟨state, hstate, htracks⟩ := ht
  refine ⟨state, (lookup_of_exec hexec hother).trans hstate, ?_⟩
  cases c with
  | recordPayment id =>
    have hne : id ≠ channelId := hother.symm
    rw [ComplianceHistory.accepted, ComplianceHistory.slots, if_neg hne, if_neg fun hc => hne hc.1]
    exact htracks
  | clearHold id => exact htracks

/-- Throughout a run in which the slots of a channel do not fall, its record keeps track. -/
theorem tracked_of_run (hlength : limits.windowSlots > 0)
    (hrun : Run (exec sha) (initChannelCompliance db₀ channelId limits) h db)
    (hasc : Ascending (ComplianceHistory.slots channelId h)) : Tracked sha channelId limits h db := by
  induction hrun with
  | start => exact tracked_start
  | @step h db db' c hrun hexec ih =>
    by_cases hother : channelId = c.channelId
    · cases c with
      | recordPayment id amount slot user provider =>
        obtain rfl : channelId = id := hother
        rw [ComplianceHistory.slots, if_pos rfl] at hasc
        exact tracked_of_payment (ih hasc.tail) hlength hasc hexec
      | clearHold id =>
        obtain rfl : channelId = id := hother
        exact tracked_of_clearHold (ih hasc) hexec
    · refine tracked_of_other (ih ?_) hother hexec
      cases c with
      | recordPayment id =>
        have hne : id ≠ channelId := Ne.symm hother
        rw [ComplianceHistory.slots, if_neg hne] at hasc
        exact hasc
      | clearHold id => exact hasc

end ComplianceCall

/-- Throughout a run in which the slots of a channel are positive and do not fall, a payment is
rejected exactly under a hold or above the limit, which changes nothing; and one that is recorded
sets the hold, and calls for a marker, exactly where what the window has spent, with the payment,
reaches the threshold. -/
theorem recordPayment_iff_window (sha : List UInt8 → Bytes 32) (db₀ : ComplianceDb)
    (channelId : Bytes 32) (limits : SpendingLimit) (hlength : limits.windowSlots > 0)
    {h : ComplianceHistory} {db : ComplianceDb}
    (hrun : Run (ComplianceCall.exec sha) (initChannelCompliance db₀ channelId limits) h db)
    (amount slot : UInt64) (user provider : Pubkey) (hasc : Ascending (slot :: h.slots channelId)) :
    ∃ state, db.lookup channelId = some state ∧ state.limits = limits ∧
      ((∃ e, recordPayment sha db channelId amount slot user provider = .error e) ↔
        state.complianceHold ∨ amount > limits.perChannel) ∧
      ((∃ e, recordPayment sha db channelId amount slot user provider = .error e) →
        ComplianceCall.exec sha (.recordPayment channelId amount slot user provider) db = .ok db) ∧
      ∀ action db', recordPayment sha db channelId amount slot user provider = .ok (action, db') →
        ∃ state', db'.lookup channelId = some state' ∧
          (state'.complianceHold ↔ limits.Reached (h.accepted sha channelId) amount slot) ∧
          ((∃ complianceHash, action = .insertMarker complianceHash limits.threshold) ↔
            limits.Reached (h.accepted sha channelId) amount slot) ∧
          (action = .none ↔ ¬ limits.Reached (h.accepted sha channelId) amount slot) := by
  obtain ⟨hpos, hlatest⟩ := hasc.latest
  obtain ⟨state, hstate, htracks⟩ := ComplianceCall.tracked_of_run hlength hrun hasc.tail
  refine ⟨state, hstate, htracks.limits_eq, ?_, ?_, ?_⟩
  · rw [rejects_iff hstate, htracks.limits_eq]
  · rintro ⟨e, he⟩
    exact ComplianceCall.exec_recordPayment_of_error he
  · intro action db' hr
    obtain ⟨state', ⟨hstate', hhold, hlimit⟩, rfl⟩ := recordPayment_eq_ok.mp ⟨action, hr⟩
    obtain rfl := Option.some_inj.mp (hstate.symm.trans hstate')
    rw [recordPayment_of_passes hstate hhold hlimit] at hr
    have haction := (Prod.mk.inj (Except.ok.inj hr)).1
    have hiff : state.effectiveSpend amount slot ≥ state.limits.threshold ↔
        limits.Reached (h.accepted sha channelId) amount slot := by
      rw [ge_iff_le, UInt64.le_iff_toNat_le, htracks.toNat_effectiveSpend hlength hpos hlatest,
        htracks.limits_eq, SpendingLimit.Reached]
    refine ⟨_, AList.lookup_insert _, ?_, ?_, ?_⟩
    · rw [← hiff]
      show (state.complianceHold || decide _) = true ↔ _
      rw [Bool.eq_false_iff.mpr hhold, Bool.false_or, decide_eq_true_iff]
    · rw [← haction, ← hiff, ← htracks.limits_eq, ChannelComplianceState.action]
      by_cases hge : state.effectiveSpend amount slot ≥ state.limits.threshold
      · rw [if_pos hge]
        exact iff_of_true ⟨_, rfl⟩ hge
      · rw [if_neg hge]
        exact iff_of_false (by simp) hge
    · rw [← haction, ← hiff, ChannelComplianceState.action]
      by_cases hge : state.effectiveSpend amount slot ≥ state.limits.threshold
      · rw [if_pos hge]
        exact iff_of_false (by simp) (not_not_intro hge)
      · rw [if_neg hge]
        exact iff_of_true rfl hge

end

/-! ### Payments that leave the window -/

namespace Sample

def limits : SpendingLimit where
  threshold := 1000
  perChannel := 10000
  windowSlots := 100

/-- Two payments that reach the threshold together, and the hold is cleared. -/
def spendings : List ComplianceCall := [
  .recordPayment channelId 600 100 payer seller, .recordPayment channelId 600 150 payer seller,
  .clearHold channelId]

end Sample

/-- When both have left the window, a payment of the same amount is recorded without a marker. -/
theorem window_slides : ∃ h db db',
    Run (ComplianceCall.exec Sample.env.sha)
      (initChannelCompliance ∅ Sample.channelId Sample.limits) h db ∧
    (ComplianceHistory.accepted Sample.env.sha Sample.channelId h).length = 2 ∧
    recordPayment Sample.env.sha db Sample.channelId 600 300 Sample.payer Sample.seller
      = .ok (.none, db') := by
  have htest : (Run.record (ComplianceCall.exec Sample.env.sha) Sample.spendings []
      (initChannelCompliance ∅ Sample.channelId Sample.limits)).toOption.any fun r =>
        decide (Ascending (300 :: ComplianceHistory.slots Sample.channelId r.1) ∧
          (ComplianceHistory.accepted Sample.env.sha Sample.channelId r.1).length = 2 ∧
          ¬ Sample.limits.Reached (ComplianceHistory.accepted Sample.env.sha Sample.channelId r.1)
            600 300) &&
        (recordPayment Sample.env.sha r.2 Sample.channelId 600 300 Sample.payer Sample.seller).isOk := by
    decide
  obtain ⟨h, db, hrun, htest⟩ := Run.exists_of_record htest
  obtain ⟨hhistory, hok⟩ := Bool.and_eq_true_iff.mp htest
  obtain ⟨hasc, htwo, hbelow⟩ := of_decide_eq_true hhistory
  obtain ⟨⟨action, db'⟩, hr⟩ := exists_of_isOk hok
  obtain ⟨-, -, -, -, -, hpaid⟩ := recordPayment_iff_window Sample.env.sha ∅ Sample.channelId
    Sample.limits (by decide) hrun 600 300 Sample.payer Sample.seller hasc
  obtain ⟨-, -, -, -, hnone⟩ := hpaid action db' hr
  obtain rfl := hnone.mpr hbelow
  exact ⟨h, db, db', hrun, htwo, hr⟩

end StateChannel
