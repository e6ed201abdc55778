/-
What a successful call does to the world of the channel program.

A call that goes through opens a channel, or updates the one channel it names,
or leaves all channels alone (`exec_ok`).  `Update` has one case for each
instruction, with what the instruction checked, what it wrote and which tokens
it moved; invariants of channels are proved by cases on it.

* `exec_entry` — what a call does to the channel at an address;
* `exec_new` — a channel that was not there was opened by the call;
* `reachable_channels` — what opening gives and updates keep, all channels have;
* `follow_channel` — the same for one channel, from some state on.
-/
import IgnitePay.Lib.Share
import IgnitePay.Program.Authenticity
import IgnitePay.Program.Payout

namespace Program

open Bytes Machine Solana HashTree Token Share

/-! ### What is written -/

namespace ChannelAccount

/-- What `open_channel` writes. -/
def opened (ctx : OpenChannel) (a : OpenChannelArgs) : ChannelAccount where
  channelId := a.channelId
  userPubkey := ctx.user
  providerPubkey := ctx.providerPubkey
  tokenMint := ctx.tokenMint
  status := .opened
  sequence := 0
  currentRoot := a.initialRoot
  totalDeposited := a.depositA
  openSlot := a.openSlot
  challengeSlot := none
  vaultA := ctx.vaultA
  vaultB := ctx.vaultB
  depositA := a.depositA
  depositB := 0
  challengeDuration := a.challengeDuration
  minChallengeDelay := a.minChallengeDelay
  totalClaimed := 0
  settleDeadline := none
  treeDepth := a.treeDepth
  leafCount := 1
  claimedLeaves := []
  autoCloseSlot := none

variable (c : ChannelAccount)

/-- What `fund_channel` writes. -/
def funded (depositB totalDeposited : UInt64) : ChannelAccount :=
  { c with depositB, totalDeposited, leafCount := c.leafCount + 1 }

/-- What `cooperative_settle` and `settle_after_timeout` write. -/
def settledUntil (deadline : UInt64) : ChannelAccount :=
  { c with status := .settling, settleDeadline := some deadline }

/-- What `submit_counter_state` writes. -/
def countered (sequence : UInt64) (root : Bytes 32) : ChannelAccount :=
  { c with sequence, currentRoot := root }

/-- What a payout writes. -/
def paid (totalClaimed : UInt64) (leafIndex : UInt32) : ChannelAccount :=
  { c with totalClaimed, claimedLeaves := c.claimedLeaves ++ [leafIndex] }

/-- What `finalize_settlement` writes. -/
def finalized : ChannelAccount := { c with status := .closed }

/-- What is left to refund. -/
def unclaimed : ℕ := c.totalDeposited.toNat - c.totalClaimed.toNat

/-- What `finalize_settlement` refunds to the first vault it is given. -/
def refundA : ℕ := c.unclaimed * (c.depositA.toNat * 1000000 / (c.depositA.toNat + c.depositB.toNat))
  / 1000000

/-- And to the second; without deposits there are no refunds. -/
def refundB : ℕ := if c.depositA.toNat + c.depositB.toNat = 0 then 0 else c.unclaimed - c.refundA

end ChannelAccount

/-- The channel at `a` was `c` and now is `c'`, in the space it had. -/
structure Stored (w w' : World) (a : Address) (c c' : ChannelAccount) : Prop where
  stored : ∃ n, w.channels.lookup a = some ⟨n, c⟩ ∧ c'.size ≤ n ∧
    w'.channels = w.channels.insert a ⟨n, c'⟩
  slot_eq : w'.slot = w.slot

/-! ### What an instruction checks and does -/

/-- What `open_channel` checks and does. -/
structure Opened (w w' : World) (ctx : OpenChannel) (a : OpenChannelArgs) : Prop where
  address_eq : ctx.channel = .channel a.channelId
  fresh : w.channels.lookup ctx.channel = none
  depth_le : a.treeDepth ≤ 12
  deposit_pos : 0 < a.depositA.toNat
  record : Record ctx.instructionSysvar ctx.user.val a.message
  channels_eq : w'.channels = w.channels.insert ctx.channel
    ⟨ChannelAccount.space a.treeDepth, .opened ctx a⟩
  tokens_eq : w'.tokens = w.tokens
  slot_eq : w'.slot = w.slot

/-- What `fund_channel` checks. -/
structure Funds (w : World) (ctx : FundChannel) (depositB : UInt64) (c : ChannelAccount) :
    Prop where
  channel_eq : w.channelAt ctx.channel = some c
  status_eq : c.status = .opened
  unfunded : c.depositB = 0
  signer_eq : ctx.signer = c.providerPubkey
  vault_eq : ctx.vaultB = c.vaultB
  deposit_pos : 0 < depositB.toNat

/-- What `settle_after_timeout` checks: that the challenge ran out, or that the
channel closes by itself. -/
structure TimedOut (w : World) (ctx : SettleAfterTimeout) (c : ChannelAccount) : Prop where
  channel_eq : w.channelAt ctx.channel = some c
  due : (c.status = .challenged ∧ ∃ cs, c.challengeSlot = some cs ∧
      cs.toNat + c.challengeDuration.toNat < w.slot.toNat) ∨
    (c.status = .opened ∧ ∃ s, c.autoCloseSlot = some s ∧ s ≤ w.slot)

/-- The amount a payout asks for. -/
def Payout.amount : Payout → UInt64
  | .claim a => a.claimAmount
  | .verifyHtlc a => a.leafAmount
  | .htlcRefund a => a.leafAmount

/-- What a payout checks. -/
structure Pays (sha : List UInt8 → Bytes 32) (w : World) (ctx : PayoutAccounts) (p : Payout)
    (c : ChannelAccount) : Prop where
  claimable : Claimable sha w ctx p.opening.leafIndex p.opening.leafHash p.opening.proof c
  admitted : c.status = .challenged ∨ c.status = .settling
  hash_eq : sha p.opening.leafData = p.opening.leafHash
  amount_eq : u64OfLe (slice p.opening.leafData 33 8) = p.amount
  amount_le : c.totalClaimed.toNat + p.amount.toNat ≤ c.totalDeposited.toNat

/-- What a call on the channel `c` does, where the world goes from `w` to `w'`. -/
inductive Update (sha : List UInt8 → Bytes 32) (w w' : World) (c : ChannelAccount) :
    Call → ChannelAccount → Prop
  | fund {ctx : FundChannel} {depositB total : UInt64} (checked : Funds w ctx depositB c)
      (total_eq : total.toNat = c.totalDeposited.toNat + depositB.toNat)
      (moved : Moved w.tokens w'.tokens ctx.sourceVault ctx.vaultB depositB.toNat) :
      Update sha w w' c (.fundChannel ctx depositB) (c.funded depositB total)
  | agree {ctx : CooperativeSettle} {sequence window deadline : UInt64} {root : Bytes 32}
      (checked : Agreed w ctx sequence root c)
      (deadline_eq : deadline.toNat = w.slot.toNat + window.toNat)
      (tokens_eq : w'.tokens = w.tokens) :
      Update sha w w' c (.cooperativeSettle ctx sequence root window) (c.settledUntil deadline)
  | trigger {ctx : TriggerChallenge} {root : Bytes 32} {sequence : UInt64}
      (checked : Triggered w ctx root sequence c) (tokens_eq : w'.tokens = w.tokens) :
      Update sha w w' c (.triggerChallenge ctx root sequence) (c.triggered w.slot root sequence)
  | counter {ctx : SubmitCounterState} {sequence : UInt64} {root : Bytes 32}
      (checked : Countered w ctx sequence root c) (tokens_eq : w'.tokens = w.tokens) :
      Update sha w w' c (.submitCounterState ctx sequence root) (c.countered sequence root)
  | timeout {ctx : SettleAfterTimeout} {window deadline : UInt64} (checked : TimedOut w ctx c)
      (deadline_eq : deadline.toNat = w.slot.toNat + window.toNat)
      (tokens_eq : w'.tokens = w.tokens) :
      Update sha w w' c (.settleAfterTimeout ctx window) (c.settledUntil deadline)
  | pay {ctx : PayoutAccounts} {p : Payout} {total : UInt64} (checked : Pays sha w ctx p c)
      (total_eq : total.toNat = c.totalClaimed.toNat + p.amount.toNat)
      (moved : Moved w.tokens w'.tokens (.escrow c.channelId) ctx.vault p.amount.toNat) :
      Update sha w w' c (.payout ctx p) (c.paid total p.opening.leafIndex)
  | finalize {ctx : FinalizeSettlement} (checked : Finalizes w ctx c)
      (claimed_le : c.totalClaimed.toNat ≤ c.totalDeposited.toNat)
      (moved : ∃ mid, Moved w.tokens mid (.escrow c.channelId) ctx.vaultA c.refundA ∧
        Moved mid w'.tokens (.escrow c.channelId) ctx.vaultB c.refundB) :
      Update sha w w' c (.finalizeSettlement ctx) c.finalized

/-! ### Handler by handler -/

section

variable {sha : List UInt8 → Bytes 32} {w w' : World} {c c' : ChannelAccount} {a : Address}

/-- A channel that is written back, after its tokens may have moved, is stored. -/
theorem stored_of_save {w₁ : World} (hc : w.channelAt a = some c)
    (hch : w₁.channels = w.channels) (hslot : w₁.slot = w.slot)
    (h : saveChannel w₁ a c' = .ok w') : Stored w w' a c c' ∧ w'.tokens = w₁.tokens := by
  obtain ⟨entry, hentry, hsize, rfl⟩ := saveChannel_eq_ok.mp h
  obtain ⟨n, hn⟩ := World.channelAt_eq_some.mp hc
  rw [hch, hn, Option.some_inj] at hentry
  subst hentry
  exact ⟨⟨⟨n, hn, hsize, by rw [hch]⟩, hslot⟩, rfl⟩

theorem transferTokens_ok {src dst authority : Address} {amount : UInt64}
    (h : transferTokens w src dst authority amount = .ok w') :
    w'.channels = w.channels ∧ w'.slot = w.slot ∧
      Moved w.tokens w'.tokens src dst amount.toNat := by
  simp only [transferTokens, bind_eq_ok, pure, Except.pure, Except.ok.injEq] at h
  obtain ⟨tokens, htokens, rfl⟩ := h
  rcases htransfer : Token.transfer w.tokens src dst authority amount with e | l
  · rw [htransfer] at htokens
    exact absurd htokens (by simp [Except.mapError])
  · rw [htransfer] at htokens
    obtain rfl : l = tokens := Except.ok.inj htokens
    exact ⟨rfl, rfl, transfer_moved htransfer⟩

theorem openChannel_ok {ctx : OpenChannel} {args : OpenChannelArgs}
    (h : openChannel ctx args w = .ok w') : Opened w w' ctx args := by
  simp only [openChannel, bind_eq_ok, require_eq_ok, checkSignature_eq_ok, exists_const] at h
  obtain ⟨haddr, hfresh, -, -, -, -, -, -, -, hdepth, hpos, hrecord, hsave⟩ := h
  obtain ⟨entry, hentry, -, rfl⟩ := saveChannel_eq_ok.mp hsave
  rw [AList.lookup_insert, Option.some_inj] at hentry
  subst hentry
  refine ⟨haddr, hfresh, hdepth, UInt64.lt_iff_toNat_lt.mp hpos, hrecord, ?_, rfl, rfl⟩
  exact AList.insert_insert _

theorem fundChannel_ok {ctx : FundChannel} {depositB : UInt64}
    (h : fundChannel ctx depositB w = .ok w') :
    ∃ c c', Update sha w w' c (.fundChannel ctx depositB) c' ∧ Stored w w' ctx.channel c c' := by
  simp only [fundChannel, bind_eq_ok, require_eq_ok, loadChannel_eq_ok, orErr_eq_ok,
    checkedAdd_eq_some, exists_const] at h
  obtain ⟨c, hc, hstatus, hzero, hsigner, -, -, -, -, hvault, hpos, w₁, htransfer, total, htotal,
    -, hsave⟩ := h
  obtain ⟨hch, hslot, hmoved⟩ := transferTokens_ok htransfer
  obtain ⟨hstored, htokens⟩ := stored_of_save hc hch hslot hsave
  have hfunds : Funds w ctx depositB c :=
    ⟨hc, hstatus, hzero, hsigner, hvault, UInt64.lt_iff_toNat_lt.mp hpos⟩
  exact ⟨c, _, .fund hfunds htotal (htokens ▸ hmoved), hstored⟩

theorem cooperativeSettle_update {ctx : CooperativeSettle} {sequence window : UInt64}
    {root : Bytes 32} (h : cooperativeSettle ctx sequence root window w = .ok w') :
    ∃ c c', Update sha w w' c (.cooperativeSettle ctx sequence root window) c' ∧
      Stored w w' ctx.channel c c' := by
  simp only [cooperativeSettle, bind_eq_ok, require_eq_ok, loadChannel_eq_ok, addSlots,
    orErr_eq_ok, checkedAdd_eq_some, checkSignature_eq_ok, exists_const] at h
  obtain ⟨c, hc, hstatus, hseq, hroot, huser, hprovider, deadline, hdeadline, hsave⟩ := h
  obtain ⟨hstored, htokens⟩ := stored_of_save hc rfl rfl hsave
  exact ⟨c, _, .agree ⟨hc, hstatus, hseq, hroot, huser, hprovider⟩ hdeadline htokens, hstored⟩

theorem triggerChallenge_update {ctx : TriggerChallenge} {root : Bytes 32} {sequence : UInt64}
    (h : triggerChallenge ctx root sequence w = .ok w') :
    ∃ c c', Update sha w w' c (.triggerChallenge ctx root sequence) c' ∧
      Stored w w' ctx.channel c c' := by
  obtain ⟨c, hchecked, hsave⟩ := triggerChallenge_eq_ok.mp h
  obtain ⟨hstored, htokens⟩ := stored_of_save hchecked.channel_eq rfl rfl hsave
  exact ⟨c, _, .trigger hchecked htokens, hstored⟩

/-- A counter-state goes through exactly when it passes its checks and fits. -/
theorem submitCounterState_eq_ok {ctx : SubmitCounterState} {sequence : UInt64}
    {root : Bytes 32} :
    submitCounterState ctx sequence root w = .ok w' ↔
      ∃ c, Countered w ctx sequence root c ∧
        saveChannel w ctx.channel (c.countered sequence root) = .ok w' := by
  simp only [submitCounterState, bind_eq_ok, require_eq_ok, loadChannel_eq_ok,
    checkSignature_eq_ok, exists_const]
  constructor
  · rintro ⟨c, hc, hstatus, hseq, huser, hprovider, hsave⟩
    exact ⟨c, ⟨hc, hstatus, hseq, huser, hprovider⟩, hsave⟩
  · rintro ⟨c, h, hsave⟩
    exact ⟨c, h.channel_eq, h.status_eq, h.sequence_lt, h.user, h.provider, hsave⟩

theorem submitCounterState_update {ctx : SubmitCounterState} {sequence : UInt64}
    {root : Bytes 32} (h : submitCounterState ctx sequence root w = .ok w') :
    ∃ c c', Update sha w w' c (.submitCounterState ctx sequence root) c' ∧
      Stored w w' ctx.channel c c' := by
  obtain ⟨c, hchecked, hsave⟩ := submitCounterState_eq_ok.mp h
  obtain ⟨hstored, htokens⟩ := stored_of_save hchecked.channel_eq rfl rfl hsave
  exact ⟨c, _, .counter hchecked htokens, hstored⟩

theorem settleAfterTimeout_update {ctx : SettleAfterTimeout} {window : UInt64}
    (h : settleAfterTimeout ctx window w = .ok w') :
    ∃ c c', Update sha w w' c (.settleAfterTimeout ctx window) c' ∧
      Stored w w' ctx.channel c c' := by
  simp only [settleAfterTimeout, bind_eq_ok, require_eq_ok, loadChannel_eq_ok, exists_const] at h
  obtain ⟨c, hc, hstatus, h⟩ := h
  -- Both branches end in the same write; they differ in what was due.
  by_cases hopen : c.status = .opened
  · simp only [if_pos hopen, bind_eq_ok, require_eq_ok, orErr_eq_ok, addSlots,
      checkedAdd_eq_some, exists_const] at h
    obtain ⟨auto, hauto, hslot, deadline, hdeadline, hsave⟩ := h
    obtain ⟨hstored, htokens⟩ := stored_of_save hc rfl rfl hsave
    exact ⟨c, _, .timeout ⟨hc, .inr ⟨hopen, auto, hauto, hslot⟩⟩ hdeadline htokens, hstored⟩
  · have hchallenged : c.status = .challenged := hstatus.resolve_right fun hs => hopen hs.1
    simp only [if_neg hopen, bind_eq_ok, require_eq_ok, orErr_eq_ok, addSlots,
      checkedAdd_eq_some, exists_const] at h
    obtain ⟨cs, hcs, limit, hlimit, hslot, deadline, hdeadline, hsave⟩ := h
    obtain ⟨hstored, htokens⟩ := stored_of_save hc rfl rfl hsave
    have hdue : cs.toNat + c.challengeDuration.toNat < w.slot.toNat :=
      hlimit ▸ UInt64.lt_iff_toNat_lt.mp hslot
    exact ⟨c, _, .timeout ⟨hc, .inl ⟨hchallenged, cs, hcs, hdue⟩⟩ hdeadline htokens, hstored⟩

/-- The end of a payout: the amount is counted and, unless it is nothing, moved. -/
theorem payOut_ok {ctx : PayoutAccounts} {leafIndex : UInt32} {amount : UInt64}
    (hc : w.channelAt ctx.channel = some c) (hescrow : ctx.escrowVault = .escrow c.channelId)
    (h : payOut ctx c leafIndex amount w = .ok w') :
    ∃ total : UInt64, total.toNat = c.totalClaimed.toNat + amount.toNat ∧
      total.toNat ≤ c.totalDeposited.toNat ∧
      Moved w.tokens w'.tokens (.escrow c.channelId) ctx.vault amount.toNat ∧
      Stored w w' ctx.channel c (c.paid total leafIndex) := by
  simp only [payOut, bind_eq_ok, require_eq_ok, orErr_eq_ok, checkedAdd_eq_some, exists_const] at h
  obtain ⟨total, htotal, hle, h⟩ := h
  have hle : total.toNat ≤ c.totalDeposited.toNat := UInt64.le_iff_toNat_le.mp hle
  -- The source skips the transfer of nothing, which would have moved nothing either.
  by_cases hpos : amount > 0
  · rw [if_pos hpos, bind_eq_ok] at h
    obtain ⟨w₁, htransfer, hsave⟩ := h
    obtain ⟨hch, hslot, hmoved⟩ := transferTokens_ok htransfer
    obtain ⟨hstored, htokens⟩ := stored_of_save hc hch hslot hsave
    exact ⟨total, htotal, hle, hescrow ▸ htokens ▸ hmoved, hstored⟩
  · rw [if_neg hpos] at h
    have hsave : saveChannel w ctx.channel (c.paid total leafIndex) = .ok w' := h
    obtain ⟨hstored, htokens⟩ := stored_of_save hc rfl rfl hsave
    have hzero : amount.toNat = 0 := by
      have hnot : ¬ 0 < amount.toNat := fun hlt => hpos (UInt64.lt_iff_toNat_lt.mpr hlt)
      omega
    rw [hzero, htokens]
    rw [hzero] at htotal
    exact ⟨total, htotal, hle, .refl _ _ _, hstored⟩

theorem admitted_of_payout {ctx : PayoutAccounts} {p : Payout}
    (h : payout sha ctx p w = .ok w') (hc : w.channelAt ctx.channel = some c) :
    c.status = .challenged ∨ c.status = .settling := by
  have load : ∀ {admitted : ChannelStatus → Bool} {c' : ChannelAccount},
      loadPayout ctx admitted w = .ok c' → admitted c.status = true := by
    intro admitted c' hload
    obtain ⟨hc', hadmitted, -⟩ := loadPayout_ok hload
    obtain rfl : c' = c := Option.some_inj.mp (hc'.symm.trans hc)
    exact hadmitted
  cases p with
  | claim a =>
    simp only [payout, claim, bind_eq_ok] at h
    obtain ⟨c', hload, -⟩ := h
    exact .inr (of_decide_eq_true (load hload))
  | verifyHtlc a =>
    simp only [payout, verifyHtlc, bind_eq_ok] at h
    obtain ⟨c', hload, -⟩ := h
    exact of_decide_eq_true (load hload)
  | htlcRefund a =>
    simp only [payout, htlcRefund, bind_eq_ok] at h
    obtain ⟨c', hload, -⟩ := h
    exact of_decide_eq_true (load hload)

/-- The three payouts, taken apart alike. -/
theorem payout_eq_payOut {ctx : PayoutAccounts} {p : Payout} (h : payout sha ctx p w = .ok w') :
    ∃ c, Claimable sha w ctx p.opening.leafIndex p.opening.leafHash p.opening.proof c ∧
      sha p.opening.leafData = p.opening.leafHash ∧
      u64OfLe (slice p.opening.leafData 33 8) = p.amount ∧
      payOut ctx c p.opening.leafIndex p.amount w = .ok w' := by
  cases p with
  | claim a =>
    obtain ⟨c, hc, -, hchecked, hpay⟩ := claim_ok h
    exact ⟨c, hc, hchecked.hash_eq, hchecked.amount_eq, hpay⟩
  | verifyHtlc a =>
    obtain ⟨c, hc, -, hchecked, -, -, hpay⟩ := verifyHtlc_ok h
    exact ⟨c, hc, hchecked.hash_eq, hchecked.amount_eq, hpay⟩
  | htlcRefund a =>
    obtain ⟨c, hc, -, hchecked, -, hpay⟩ := htlcRefund_ok h
    exact ⟨c, hc, hchecked.hash_eq, hchecked.amount_eq, hpay⟩

theorem payout_update {ctx : PayoutAccounts} {p : Payout} (h : payout sha ctx p w = .ok w') :
    ∃ c c', Update sha w w' c (.payout ctx p) c' ∧ Stored w w' ctx.channel c c' := by
  obtain ⟨c, hclaim, hhash, hamount, hpay⟩ := payout_eq_payOut h
  obtain ⟨total, htotal, hle, hmoved, hstored⟩ :=
    payOut_ok hclaim.channel_eq hclaim.escrow_eq hpay
  have hadmitted := admitted_of_payout h hclaim.channel_eq
  exact ⟨c, _, .pay ⟨hclaim, hadmitted, hhash, hamount, htotal ▸ hle⟩ htotal hmoved, hstored⟩

/-! ### Finalization -/

theorem refund_ok {ctx : FinalizeSettlement} {dst : Address} {amount : UInt64}
    (h : refund ctx c dst amount w = .ok w') :
    w'.channels = w.channels ∧ w'.slot = w.slot ∧
      Moved w.tokens w'.tokens ctx.escrowVault dst amount.toNat := by
  rw [refund] at h
  by_cases hpos : amount > 0
  · rw [if_pos hpos] at h
    exact transferTokens_ok h
  · rw [if_neg hpos] at h
    obtain rfl : w = w' := Except.ok.inj h
    have hnot : ¬ 0 < amount.toNat := fun hlt => hpos (UInt64.lt_iff_toNat_lt.mpr hlt)
    have hzero : amount.toNat = 0 := by omega
    rw [hzero]
    exact ⟨rfl, rfl, .refl _ _ _⟩

theorem refundA_le_unclaimed (c : ChannelAccount) : c.refundA ≤ c.unclaimed :=
  (scaledShare_le _ _ _).trans (floorShare_le (Nat.le_add_right _ _))

/-- The `u64` of the source holds the refund. -/
theorem toNat_refundA {total unclaimed : UInt64}
    (htotal : total.toNat = c.depositA.toNat + c.depositB.toNat)
    (hunclaimed : unclaimed.toNat = c.unclaimed) :
    (refundA c.depositA total unclaimed).toNat = c.refundA := by
  have hle := refundA_le_unclaimed c
  have hlt := unclaimed.toNat_lt
  rw [refundA, htotal, hunclaimed]
  exact UInt64.toNat_ofNat_of_lt' (show c.refundA < 2 ^ 64 by omega)

/-- What the handler pays once it knows what is left. -/
theorem refunds_ok {ctx : FinalizeSettlement} {total unclaimed : UInt64}
    (htotal : total.toNat = c.depositA.toNat + c.depositB.toNat) (hpos : 0 < total.toNat)
    (hunclaimed : unclaimed.toNat = c.unclaimed) {rest : UInt64}
    (hrest : unclaimed.toNat = rest.toNat + (refundA c.depositA total unclaimed).toNat)
    {w₁ w₂ : World}
    (hA : refund ctx c ctx.vaultA (refundA c.depositA total unclaimed) w = .ok w₁)
    (hB : refund ctx c ctx.vaultB rest w₁ = .ok w₂) :
    w₂.channels = w.channels ∧ w₂.slot = w.slot ∧
      ∃ mid, Moved w.tokens mid ctx.escrowVault ctx.vaultA c.refundA ∧
        Moved mid w₂.tokens ctx.escrowVault ctx.vaultB c.refundB := by
  obtain ⟨hch, hslot, hmoved⟩ := refund_ok hA
  obtain ⟨hch', hslot', hmoved'⟩ := refund_ok hB
  have hrefundA := toNat_refundA htotal hunclaimed
  have hrefundB : rest.toNat = c.refundB := by
    rw [ChannelAccount.refundB, if_neg (by omega)]
    omega
  rw [hrefundA] at hmoved
  rw [hrefundB] at hmoved'
  exact ⟨hch'.trans hch, hslot'.trans hslot, w₁.tokens, hmoved, hmoved'⟩

/-- Where the handler pays nothing, both refunds are nothing. -/
theorem no_refunds {src a b : Address} (l : Ledger Address)
    (h : c.unclaimed = 0 ∨ c.depositA.toNat + c.depositB.toNat = 0) :
    ∃ mid, Moved l mid src a c.refundA ∧ Moved mid l src b c.refundB := by
  have hA : c.refundA = 0 := by
    rcases h with h | h
    · rw [ChannelAccount.refundA, h, Nat.zero_mul, Nat.zero_div]
    · rw [ChannelAccount.refundA, h, Nat.div_zero, Nat.mul_zero, Nat.zero_div]
  have hB : c.refundB = 0 := by
    rw [ChannelAccount.refundB]
    split
    · rfl
    · next hne =>
      have := h.resolve_right hne
      omega
  rw [hA, hB]
  exact ⟨l, .refl _ _ _, .refl _ _ _⟩

theorem finalizeSettlement_update {ctx : FinalizeSettlement}
    (h : finalizeSettlement ctx w = .ok w') :
    ∃ c c', Update sha w w' c (.finalizeSettlement ctx) c' ∧ Stored w w' ctx.channel c c' := by
  obtain ⟨c, hchecked⟩ := finalizeSettlement_ok h
  simp only [finalizeSettlement, bind_eq_ok, require_eq_ok, loadChannel_eq_ok,
    checkSignature_eq_ok, orErr_eq_ok, checkedSub_eq_some, exists_const] at h
  obtain ⟨c', hc', -, -, -, -, -, -, -, -, -, -, -, unclaimed, hsub, h⟩ := h
  obtain rfl : c' = c := Option.some_inj.mp (hc'.symm.trans hchecked.channel_eq)
  have hle : c'.totalClaimed.toNat ≤ c'.totalDeposited.toNat := by omega
  have hunclaimed : unclaimed.toNat = c'.unclaimed := by
    rw [ChannelAccount.unclaimed]
    omega
  -- The three ways through the handler: refunds, no deposits, nothing left.
  suffices hpaid : ∃ w₂, w₂.channels = w.channels ∧ w₂.slot = w.slot ∧
      (∃ mid, Moved w.tokens mid ctx.escrowVault ctx.vaultA c'.refundA ∧
        Moved mid w₂.tokens ctx.escrowVault ctx.vaultB c'.refundB) ∧
      saveChannel w₂ ctx.channel c'.finalized = .ok w' by
    obtain ⟨w₂, hch, hslot, hmoved, hsave⟩ := hpaid
    obtain ⟨hstored, htokens⟩ := stored_of_save hc' hch hslot hsave
    rw [hchecked.escrow_eq, ← htokens] at hmoved
    exact ⟨c', _, .finalize hchecked hle hmoved, hstored⟩
  by_cases hleft : unclaimed > 0
  · simp only [if_pos hleft, bind_eq_ok, orErr_eq_ok, checkedAdd_eq_some] at h
    obtain ⟨total, htotal, h⟩ := h
    by_cases hdeposit : total > 0
    · simp only [if_pos hdeposit, bind_eq_ok, orErr_eq_ok, checkedSub_eq_some] at h
      obtain ⟨rest, hrest, w₁, hA, w₂, hB, hsave⟩ := h
      have hpos : 0 < total.toNat := UInt64.lt_iff_toNat_lt.mp hdeposit
      obtain ⟨hch, hslot, hmoved⟩ := refunds_ok htotal hpos hunclaimed hrest hA hB
      exact ⟨w₂, hch, hslot, hmoved, hsave⟩
    · rw [if_neg hdeposit] at h
      have hnot : ¬ 0 < total.toNat := fun hlt => hdeposit (UInt64.lt_iff_toNat_lt.mpr hlt)
      exact ⟨w, rfl, rfl, no_refunds w.tokens (.inr (by omega)), h⟩
  · rw [if_neg hleft] at h
    have hnot : ¬ 0 < unclaimed.toNat := fun hlt => hleft (UInt64.lt_iff_toNat_lt.mpr hlt)
    exact ⟨w, rfl, rfl, no_refunds w.tokens (.inl (by omega)), h⟩

/-! ### Any call -/

/-- What a successful call does. -/
inductive Effect (sha : List UInt8 → Bytes 32) (w w' : World) (call : Call) : Prop
  | opens {ctx : OpenChannel} {args : OpenChannelArgs} (call_eq : call = .openChannel ctx args)
      (opened : Opened w w' ctx args)
  | updates {a : Address} {c c' : ChannelAccount} (channel_eq : call.channel = some a)
      (update : Update sha w w' c call c') (stored : Stored w w' a c c')
  | outside (channel_eq : call.channel = none) (channels_eq : w'.channels = w.channels)
      (slot_le : w.slot ≤ w'.slot)

theorem exec_ok {call : Call} (h : exec sha call w = .ok w') : Effect sha w w' call := by
  have updates : ∀ {a : Address}, call.channel = some a →
      (∃ c c', Update sha w w' c call c' ∧ Stored w w' a c c') → Effect sha w w' call := by
    rintro a ha ⟨c, c', hu, hs⟩
    exact .updates ha hu hs
  cases call with
  | openChannel ctx args => exact .opens rfl (openChannel_ok h)
  | fundChannel ctx depositB => exact updates rfl (fundChannel_ok h)
  | cooperativeSettle ctx sequence root window => exact updates rfl (cooperativeSettle_update h)
  | triggerChallenge ctx root sequence => exact updates rfl (triggerChallenge_update h)
  | submitCounterState ctx sequence root => exact updates rfl (submitCounterState_update h)
  | settleAfterTimeout ctx window => exact updates rfl (settleAfterTimeout_update h)
  | payout ctx p => exact updates rfl (payout_update h)
  | finalizeSettlement ctx => exact updates rfl (finalizeSettlement_update h)
  | tokenTransfer src dst authority amount =>
    obtain ⟨hch, hslot, -⟩ := transferTokens_ok h
    exact .outside rfl hch (hslot ▸ UInt64.le_refl _)
  | tick slot =>
    simp only [exec, tick, bind_eq_ok, require_eq_ok, exists_const, pure, Except.pure,
      Except.ok.injEq] at h
    obtain ⟨hle, rfl⟩ := h
    exact .outside rfl rfl hle

/-- What a call does to the channel at an address: nothing, or an update in the
same space. -/
theorem exec_entry {call : Call} {n : ℕ} (h : exec sha call w = .ok w')
    (hc : w.channels.lookup a = some ⟨n, c⟩) :
    w'.channels.lookup a = some ⟨n, c⟩ ∨
      ∃ c', call.channel = some a ∧ Update sha w w' c call c' ∧ c'.size ≤ n ∧
        w'.channels.lookup a = some ⟨n, c'⟩ := by
  cases exec_ok h with
  | opens hcall ho =>
    left
    rw [ho.channels_eq, AList.lookup_insert_ne (Store.ne_of_lookup ho.fresh hc).symm, hc]
  | @updates a' c₀ c' ha hu hs =>
    obtain ⟨n', hn', hsize, hch⟩ := hs.stored
    by_cases heq : a = a'
    · subst heq
      rw [hn', Option.some_inj, ChannelEntry.mk.injEq] at hc
      obtain ⟨rfl, rfl⟩ := hc
      exact .inr ⟨c', ha, hu, hsize, by rw [hch, AList.lookup_insert]⟩
    · left
      rw [hch, AList.lookup_insert_ne heq, hc]
  | outside _ hch _ => exact .inl (hch ▸ hc)

/-- A channel that appears was opened. -/
theorem exec_new {call : Call} {e : ChannelEntry} (h : exec sha call w = .ok w')
    (hnone : w.channels.lookup a = none) (he : w'.channels.lookup a = some e) :
    ∃ ctx args, call = .openChannel ctx args ∧ ctx.channel = a ∧ Opened w w' ctx args ∧
      e = ⟨ChannelAccount.space args.treeDepth, .opened ctx args⟩ := by
  cases exec_ok h with
  | @opens ctx args hcall ho =>
    rw [ho.channels_eq, Store.lookup_insert_eq] at he
    split at he
    · next heq => exact ⟨ctx, args, hcall, heq.symm, ho, (Option.some_inj.mp he).symm⟩
    · rw [hnone] at he
      exact absurd he (by simp)
  | @updates a' c₀ c' ha hu hs =>
    obtain ⟨n', hn', hsize, hch⟩ := hs.stored
    rw [hch, AList.lookup_insert_ne (Store.ne_of_lookup hnone hn'), hnone] at he
    exact absurd he (by simp)
  | outside _ hch _ =>
    rw [hch, hnone] at he
    exact absurd he (by simp)

theorem slot_le_of_exec {call : Call} (h : exec sha call w = .ok w') : w.slot ≤ w'.slot := by
  cases exec_ok h with
  | opens _ ho => exact ho.slot_eq ▸ UInt64.le_refl _
  | updates _ _ hs => exact hs.slot_eq ▸ UInt64.le_refl _
  | outside _ _ hle => exact hle

/-! ### Runs -/

/-- What a new channel has and every update keeps, every channel has that a run
from a world without channels leads to. -/
theorem reachable_channels {P : ℕ → ChannelAccount → Prop} {w₀ : World}
    {h : List (World × Call)} {n : ℕ} (hempty : w₀.channels = ∅)
    (hopen : ∀ w w' ctx args, Opened w w' ctx args →
      P (ChannelAccount.space args.treeDepth) (.opened ctx args))
    (hupdate : ∀ n w w' c call c', P n c → Update sha w w' c call c' → c'.size ≤ n → P n c')
    (hrun : Run (exec sha) w₀ h w) (hc : w.channels.lookup a = some ⟨n, c⟩) : P n c := by
  -- By induction on the run, for all addresses at once: a call may reach any of them.
  have hall : ∀ a n c, w.channels.lookup a = some ⟨n, c⟩ → P n c := by
    refine hrun.invariant (P := fun w => ∀ a n c, w.channels.lookup a = some ⟨n, c⟩ → P n c) ?_ ?_
    · intro a n c hc
      rw [hempty] at hc
      exact absurd hc (by simp)
    · intro w call w' hp hok a n c hc
      rcases hbefore : w.channels.lookup a with _ | ⟨n₀, c₀⟩
      · obtain ⟨ctx, args, -, -, ho, heq⟩ := exec_new hok hbefore hc
        rw [ChannelEntry.mk.injEq] at heq
        obtain ⟨rfl, rfl⟩ := heq
        exact hopen _ _ _ _ ho
      · rcases exec_entry hok hbefore with hsame | ⟨c', -, hu, hsize, hafter⟩
        · rw [hsame, Option.some_inj, ChannelEntry.mk.injEq] at hc
          obtain ⟨rfl, rfl⟩ := hc
          exact hp a _ _ hbefore
        · rw [hafter, Option.some_inj, ChannelEntry.mk.injEq] at hc
          obtain ⟨rfl, rfl⟩ := hc
          exact hupdate _ _ _ _ _ _ (hp a _ _ hbefore) hu hsize
  exact hall a n c hc

/-- A channel stays at its address, in its space; what the allowed calls keep of
it, and the passing of slots, holds of it from then on. -/
theorem follow_channel {P : UInt64 → ChannelAccount → Prop} {w₁ : World}
    {h : List (World × Call)} {n : ℕ} (allowed : World → Call → Prop)
    (hc : w₁.channels.lookup a = some ⟨n, c⟩) (hsize : c.size ≤ n) (hstart : P w₁.slot c)
    (hlater : ∀ s s' c, s ≤ s' → P s c → P s' c)
    (hupdate : ∀ w w' c call c', w.channelAt a = some c → P w.slot c → allowed w call →
      call.channel = some a → Update sha w w' c call c' → P w.slot c')
    (hrun : Run (exec sha) w₁ h w) (hall : ∀ p ∈ h, allowed p.1 p.2) :
    ∃ c', w.channels.lookup a = some ⟨n, c'⟩ ∧ c'.size ≤ n ∧ P w.slot c' := by
  refine hrun.invariant_of
    (P := fun w => ∃ c', w.channels.lookup a = some ⟨n, c'⟩ ∧ c'.size ≤ n ∧ P w.slot c')
    allowed ⟨c, hc, hsize, hstart⟩ ?_ hall
  rintro w call w' ⟨c, hc, hsize, hp⟩ hallowed hok
  have hle := slot_le_of_exec hok
  rcases exec_entry hok hc with hsame | ⟨c', ha, hu, hsize', hafter⟩
  · exact ⟨c, hsame, hsize, hlater _ _ _ hle hp⟩
  · have hat := World.channelAt_eq_some.mpr ⟨n, hc⟩
    exact ⟨c', hafter, hsize', hlater _ _ _ hle (hupdate _ _ _ _ _ hat hp hallowed ha hu)⟩

end

end Program
