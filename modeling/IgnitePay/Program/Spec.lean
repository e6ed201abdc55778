/-
What a successful instruction of the channel program has checked.

Every instruction that looks at signatures has one lemma here that takes its
success apart into a structure of facts, and no proof above this file unfolds
a handler.  The facts about `leaf_data` are about its bytes: what they say of a
leaf of the tree is derived elsewhere.
-/
import IgnitePay.Program.Instructions
import IgnitePay.StateChannel.MerkleTree

namespace Program

open Bytes Machine Solana HashTree StateChannel

section

variable {sha : List UInt8 → Bytes 32} {w w' : World} {c : ChannelAccount}

theorem loadChannel_eq_ok {a : Address} : loadChannel w a = .ok c ↔ w.channelAt a = some c :=
  orErr_eq_ok

/-- The program's check hashes what the off-chain tree hashes. -/
theorem verifyMerkleProof_iff {leafHash root : Bytes 32} {proof : List (Bytes 32)} :
    verifyMerkleProof sha leafHash proof root = true ↔
      climb (hashPair sha) leafHash proof = root := by
  have hstep : proofStep sha = hashPair sha := rfl
  rw [verifyMerkleProof, hstep, decide_eq_true_iff]
  rfl

/-! ### Agreement, challenge, finalization -/

/-- What `cooperative_settle` checks. -/
structure Agreed (w : World) (ctx : CooperativeSettle) (sequence : UInt64) (root : Bytes 32)
    (c : ChannelAccount) : Prop where
  channel_eq : w.channelAt ctx.channel = some c
  status_eq : c.status = .opened
  sequence_le : c.sequence ≤ sequence
  root_eq : root = c.currentRoot
  user : Record ctx.instructionSysvar c.userPubkey.val (channelMessage c.channelId sequence root)
  provider : Record ctx.instructionSysvar c.providerPubkey.val
    (channelMessage c.channelId sequence root)

theorem cooperativeSettle_ok {ctx : CooperativeSettle} {sequence settleWindow : UInt64}
    {root : Bytes 32} (h : cooperativeSettle ctx sequence root settleWindow w = .ok w') :
    ∃ c, Agreed w ctx sequence root c := by
  simp only [cooperativeSettle, bind_eq_ok, require_eq_ok, loadChannel_eq_ok,
    checkSignature_eq_ok, exists_const] at h
  obtain ⟨c, hc, hstatus, hseq, hroot, huser, hprovider, -⟩ := h
  exact ⟨c, hc, hstatus, hseq, hroot, huser, hprovider⟩

/-- What `submit_counter_state` checks. -/
structure Countered (w : World) (ctx : SubmitCounterState) (sequence : UInt64) (root : Bytes 32)
    (c : ChannelAccount) : Prop where
  channel_eq : w.channelAt ctx.channel = some c
  status_eq : c.status = .challenged
  sequence_lt : c.sequence < sequence
  user : Record ctx.instructionSysvar c.userPubkey.val (channelMessage c.channelId sequence root)
  provider : Record ctx.instructionSysvar c.providerPubkey.val
    (channelMessage c.channelId sequence root)

theorem submitCounterState_ok {ctx : SubmitCounterState} {sequence : UInt64} {root : Bytes 32}
    (h : submitCounterState ctx sequence root w = .ok w') : ∃ c, Countered w ctx sequence root c := by
  simp only [submitCounterState, bind_eq_ok, require_eq_ok, loadChannel_eq_ok,
    checkSignature_eq_ok, exists_const] at h
  obtain ⟨c, hc, hstatus, hseq, huser, hprovider, -⟩ := h
  exact ⟨c, hc, hstatus, hseq, huser, hprovider⟩

/-- What `trigger_challenge` checks. -/
structure Triggered (w : World) (ctx : TriggerChallenge) (submittedRoot : Bytes 32)
    (submittedSequence : UInt64) (c : ChannelAccount) : Prop where
  channel_eq : w.channelAt ctx.channel = some c
  status_eq : c.status = .opened
  party : isParty c ctx.challenger
  elapsed : c.openSlot.toNat + c.minChallengeDelay.toNat ≤ w.slot.toNat
  sequence_lt : c.sequence < submittedSequence
  record : Record ctx.instructionSysvar ctx.challenger.val
    (channelMessage c.channelId w.slot submittedRoot)

/-- What `trigger_challenge` writes. -/
def ChannelAccount.triggered (c : ChannelAccount) (slot : UInt64) (submittedRoot : Bytes 32)
    (submittedSequence : UInt64) : ChannelAccount :=
  { c with
    status := .challenged
    challengeSlot := some slot
    currentRoot := submittedRoot
    sequence := submittedSequence }

theorem triggerChallenge_eq_ok {ctx : TriggerChallenge} {submittedRoot : Bytes 32}
    {submittedSequence : UInt64} :
    triggerChallenge ctx submittedRoot submittedSequence w = .ok w' ↔
      ∃ c, Triggered w ctx submittedRoot submittedSequence c ∧
        saveChannel w ctx.channel (c.triggered w.slot submittedRoot submittedSequence) = .ok w' := by
  simp only [triggerChallenge, bind_eq_ok, require_eq_ok, loadChannel_eq_ok,
    checkSignature_eq_ok, exists_const, addSlots, orErr_eq_ok, checkedAdd_eq_some]
  constructor
  · rintro ⟨c, hc, hstatus, hparty, minSlot, hmin, hslot, hseq, hrecord, hsave⟩
    have hle : minSlot.toNat ≤ w.slot.toNat := UInt64.le_iff_toNat_le.mp hslot
    exact ⟨c, ⟨hc, hstatus, hparty, hmin ▸ hle, hseq, hrecord⟩, hsave⟩
  · rintro ⟨c, ht, hsave⟩
    have hlt := w.slot.toNat_lt
    have helapsed := ht.elapsed
    have hadd : (c.openSlot + c.minChallengeDelay).toNat
        = c.openSlot.toNat + c.minChallengeDelay.toNat := toNat_add_of_lt (by omega)
    refine ⟨c, ht.channel_eq, ht.status_eq, ht.party, c.openSlot + c.minChallengeDelay, hadd, ?_,
      ht.sequence_lt, ht.record, hsave⟩
    exact UInt64.le_iff_toNat_le.mpr (hadd ▸ helapsed)

/-- What `finalize_settlement` checks before it pays. -/
structure Finalizes (w : World) (ctx : FinalizeSettlement) (c : ChannelAccount) : Prop where
  channel_eq : w.channelAt ctx.channel = some c
  status_eq : c.status = .settling
  party : isParty c ctx.caller
  escrow_eq : ctx.escrowVault = .escrow c.channelId
  elapsed : ∃ deadline, c.settleDeadline = some deadline ∧ deadline ≤ w.slot
  record : Record ctx.instructionSysvar ctx.caller.val
    (channelMessage c.channelId w.slot c.currentRoot)

theorem finalizeSettlement_ok {ctx : FinalizeSettlement}
    (h : finalizeSettlement ctx w = .ok w') : ∃ c, Finalizes w ctx c := by
  simp only [finalizeSettlement, bind_eq_ok, require_eq_ok, loadChannel_eq_ok,
    checkSignature_eq_ok, orErr_eq_ok, exists_const] at h
  obtain ⟨c, hc, hstatus, hparty, -, -, -, -, hescrow, deadline, hdeadline, hslot, hrecord, -⟩ := h
  exact ⟨c, hc, hstatus, hparty, hescrow, ⟨deadline, hdeadline, hslot⟩, hrecord⟩

/-! ### Payouts -/

/-- What the three payouts check of their accounts, of the index and of the
signature. -/
structure Claimable (sha : List UInt8 → Bytes 32) (w : World) (ctx : PayoutAccounts)
    (leafIndex : UInt32) (leafHash : Bytes 32) (proof : List (Bytes 32))
    (c : ChannelAccount) : Prop where
  channel_eq : w.channelAt ctx.channel = some c
  party : isParty c ctx.claimer
  escrow_eq : ctx.escrowVault = .escrow c.channelId
  fresh : leafIndex ∉ c.claimedLeaves
  climbs : climb (hashPair sha) leafHash proof = c.currentRoot
  record : Record ctx.instructionSysvar ctx.claimer.val
    (channelMessage c.channelId w.slot c.currentRoot)

theorem loadPayout_ok {ctx : PayoutAccounts} {admitted : ChannelStatus → Bool}
    (h : loadPayout ctx admitted w = .ok c) :
    w.channelAt ctx.channel = some c ∧ admitted c.status = true ∧ isParty c ctx.claimer ∧
      ctx.escrowVault = .escrow c.channelId := by
  simp only [loadPayout, bind_eq_ok, require_eq_ok, loadChannel_eq_ok, exists_const] at h
  obtain ⟨c', hc, hstatus, hparty, -, -, hescrow, hpure⟩ := h
  cases hpure
  exact ⟨hc, hstatus, hparty, hescrow⟩

/-- What `claim` checks of the leaf data. -/
structure ClaimChecked (sha : List UInt8 → Bytes 32) (a : ClaimArgs) : Prop where
  hash_eq : sha a.leafData = a.leafHash
  length_le : 41 ≤ a.leafData.length
  amount_eq : u64OfLe (slice a.leafData 33 8) = a.claimAmount

theorem claim_ok {ctx : PayoutAccounts} {a : ClaimArgs} (h : claim sha ctx a w = .ok w') :
    ∃ c, Claimable sha w ctx a.leafIndex a.leafHash a.proof c ∧ ctx.claimer = a.leafOwner ∧
      ClaimChecked sha a ∧ payOut ctx c a.leafIndex a.claimAmount w = .ok w' := by
  simp only [claim, bind_eq_ok, require_eq_ok, checkSignature_eq_ok, verifyMerkleProof_iff,
    exists_const] at h
  obtain ⟨c, hload, -, -, -, howner, hfresh, hhash, hlen, hamount, hclimb, hrecord, hpay⟩ := h
  obtain ⟨hc, -, hparty, hescrow⟩ := loadPayout_ok hload
  exact ⟨c, ⟨hc, hparty, hescrow, hfresh, hclimb, hrecord⟩, howner, ⟨hhash, hlen, hamount⟩, hpay⟩

/-- What `verify_htlc` and `htlc_refund` check of the leaf data. -/
structure HtlcChecked (sha : List UInt8 → Bytes 32) (leafData : List UInt8) (leafHash : Bytes 32)
    (leafAmount : UInt64) (party : Pubkey) : Prop where
  hash_eq : sha leafData = leafHash
  length_le : 41 ≤ leafData.length
  type_eq : leafData[0]? = some leafTypeHtlc
  amount_eq : u64OfLe (slice leafData 33 8) = leafAmount
  owner_eq : slice leafData 1 32 = party.val

theorem checkHtlcLeafData_eq_ok {leafData : List UInt8} {leafHash : Bytes 32}
    {leafAmount : UInt64} {party : Pubkey} {u : Unit} :
    checkHtlcLeafData sha leafData leafHash leafAmount party = .ok u ↔
      HtlcChecked sha leafData leafHash leafAmount party := by
  simp only [checkHtlcLeafData, bind_eq_ok, require_eq_ok, exists_const]
  constructor
  · rintro ⟨hhash, hlen, htype, hamount, howner⟩
    exact ⟨hhash, hlen, htype, hamount, howner⟩
  · intro h
    exact ⟨h.hash_eq, h.length_le, h.type_eq, h.amount_eq, h.owner_eq⟩

theorem verifyHtlc_ok {ctx : PayoutAccounts} {a : VerifyHtlcArgs}
    (h : verifyHtlc sha ctx a w = .ok w') :
    ∃ c, Claimable sha w ctx a.leafIndex a.leafHash a.proof c ∧ ctx.claimer = a.beneficiary ∧
      HtlcChecked sha a.leafData a.leafHash a.leafAmount a.beneficiary ∧
      sha a.preimage.val = a.hashLock ∧ w.slot ≤ a.timelockSlot ∧
      payOut ctx c a.leafIndex a.leafAmount w = .ok w' := by
  simp only [verifyHtlc, bind_eq_ok, require_eq_ok, checkSignature_eq_ok, verifyMerkleProof_iff,
    checkHtlcLeafData_eq_ok, exists_const] at h
  obtain ⟨c, hload, -, -, -, howner, hfresh, hleaf, hlock, htime, hclimb, hrecord, hpay⟩ := h
  obtain ⟨hc, -, hparty, hescrow⟩ := loadPayout_ok hload
  exact ⟨c, ⟨hc, hparty, hescrow, hfresh, hclimb, hrecord⟩, howner, hleaf, hlock, htime, hpay⟩

theorem htlcRefund_ok {ctx : PayoutAccounts} {a : HtlcRefundArgs}
    (h : htlcRefund sha ctx a w = .ok w') :
    ∃ c, Claimable sha w ctx a.leafIndex a.leafHash a.proof c ∧ ctx.claimer = a.leafOwner ∧
      HtlcChecked sha a.leafData a.leafHash a.leafAmount a.leafOwner ∧
      w.slot > a.timelockSlot ∧ payOut ctx c a.leafIndex a.leafAmount w = .ok w' := by
  simp only [htlcRefund, bind_eq_ok, require_eq_ok, checkSignature_eq_ok, verifyMerkleProof_iff,
    checkHtlcLeafData_eq_ok, exists_const] at h
  obtain ⟨c, hload, -, -, -, howner, hfresh, hleaf, htime, hclimb, hrecord, hpay⟩ := h
  obtain ⟨hc, -, hparty, hescrow⟩ := loadPayout_ok hload
  exact ⟨c, ⟨hc, hparty, hescrow, hfresh, hclimb, hrecord⟩, howner, hleaf, htime, hpay⟩

/-! ### Where a failure comes from -/

/-- The errors of the accounts of a payout. -/
theorem loadPayout_ne {ctx : PayoutAccounts} {admitted : ChannelStatus → Bool} {e : Error}
    (he : e ∉ [.accountNotInitialized, .code .invalidStatus, .code .unauthorized,
      .constraintSeeds]) : loadPayout ctx admitted w ≠ .error e := by
  intro h
  simp only [List.mem_cons, List.not_mem_nil, or_false, not_or] at he
  obtain ⟨h1, h2, h3, h4⟩ := he
  simp [loadPayout, loadChannel, loadToken, bind_eq_error, require_eq_error, orErr_eq_error,
    pure, Except.pure, Ne.symm h1, Ne.symm h2, Ne.symm h3, Ne.symm h4] at h

theorem htlcDeadline_ne {e : Error} (he : e ∉ [.code .invalidStatus, .code .arithmeticOverflow]) :
    htlcDeadline c ≠ .error e := by
  intro h
  simp only [List.mem_cons, List.not_mem_nil, or_false, not_or] at he
  obtain ⟨h1, h2⟩ := he
  rw [htlcDeadline] at h
  split at h
  · simp [bind_eq_error, orErr_eq_error, Ne.symm h1, Ne.symm h2] at h
  · simp [orErr_eq_error, Ne.symm h1] at h

theorem checkHtlcLeafData_ne {leafData : List UInt8} {leafHash : Bytes 32} {leafAmount : UInt64}
    {party : Pubkey} {e : Error} (he : e ∉ [.code .invalidLeafData, .code .amountMismatch]) :
    checkHtlcLeafData sha leafData leafHash leafAmount party ≠ .error e := by
  intro h
  simp only [List.mem_cons, List.not_mem_nil, or_false, not_or] at he
  obtain ⟨h1, h2⟩ := he
  simp [checkHtlcLeafData, bind_eq_error, require_eq_error, Ne.symm h1, Ne.symm h2] at h

theorem checkSignature_ne {data : List UInt8} {pk : Pubkey} {msg : List UInt8} {e : Error}
    (he : e ≠ .code .invalidSignature) : checkSignature data pk msg ≠ .error e := by
  intro h
  rcases checkSignature_cases data pk msg with ⟨hok, -⟩ | ⟨herror, -⟩
  · rw [hok] at h
    exact absurd h (by simp)
  · rw [herror] at h
    exact he (Except.error.inj h).symm

theorem transferTokens_ne {src dst authority : Address} {amount : UInt64} {e : Error}
    (he : ∀ t, e ≠ .token t) : transferTokens w src dst authority amount ≠ .error e := by
  intro h
  rcases ht : Token.transfer w.tokens src dst authority amount with t | l
  · simp only [transferTokens, ht, Except.mapError, bind, Except.bind, Except.error.injEq] at h
    exact he t h.symm
  · simp [transferTokens, ht, Except.mapError, bind, Except.bind, pure, Except.pure] at h

theorem saveChannel_ne {a : Address} {e : Error}
    (he : e ∉ [.accountNotInitialized, .accountDidNotSerialize]) :
    saveChannel w a c ≠ .error e := by
  intro h
  simp only [List.mem_cons, List.not_mem_nil, or_false, not_or] at he
  obtain ⟨h1, h2⟩ := he
  simp [saveChannel, bind_eq_error, require_eq_error, orErr_eq_error, pure, Except.pure,
    Ne.symm h1, Ne.symm h2] at h

end

end Program
