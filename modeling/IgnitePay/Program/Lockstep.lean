/-
The channel manager and the program, step by step.

Off chain a request of settlement changes the manager's channel; on chain the
corresponding instruction changes the account.  From equal fields, with valid
signatures on both sides and no sum out of range, the instruction goes through
and the fields are equal again, unless the program asks for something that the
manager does not: room in the account, tokens in the escrow, and for the
finalization a caller that is a party and claims within the deposits.

* `exec_iff_*` — when an instruction goes through, given what it checks;
* `accepted_iff` — when the program follows an accepted request;
* `stranger_refused` — the manager lets anybody finalize.
-/
import IgnitePay.Program.Effect
import IgnitePay.Program.Signatures
import IgnitePay.StateChannel.Effect

namespace Program

open Bytes Machine Solana HashTree

/-! ### The two sides -/

/-- The account's status for a status of the manager. -/
def statusOf : StateChannel.ChannelStatus → ChannelStatus
  | .opened => .opened
  | .challenged => .challenged
  | .settling => .settling
  | .closed => .closed

/-- The account holds what the manager's channel holds. -/
structure Mirrors (m : StateChannel.ChannelMetadata) (c : ChannelAccount) : Prop where
  channelId_eq : c.channelId = m.channelId
  userPubkey_eq : c.userPubkey = m.userPubkey
  providerPubkey_eq : c.providerPubkey = m.providerPubkey
  status_eq : c.status = statusOf m.status
  sequence_eq : c.sequence = m.sequence
  currentRoot_eq : c.currentRoot = m.currentRoot
  totalDeposited_eq : c.totalDeposited = m.totalDeposited
  openSlot_eq : c.openSlot = m.openSlot
  challengeSlot_eq : c.challengeSlot = m.challengeSlot
  depositA_eq : c.depositA = m.depositA
  depositB_eq : c.depositB = m.depositB
  challengeDuration_eq : c.challengeDuration = m.challengeDuration
  minChallengeDelay_eq : c.minChallengeDelay = m.minChallengeDelay
  autoCloseSlot_eq : c.autoCloseSlot = m.autoCloseSlot
  totalClaimed_eq : c.totalClaimed = m.totalClaimed
  settleDeadline_eq : c.settleDeadline = m.settleDeadline
  claimed_iff : ∀ i, i ∈ c.claimedLeaves ↔ i ∈ m.claimedLeaves

/-- What the sender of an instruction adds to the request. -/
structure Accounts where
  channel : Address
  /-- Where a claim goes. -/
  vault : Address
  vaultA : Address
  vaultB : Address
  instructionSysvar : List UInt8

/-- The instruction for a request on the channel `s` in a slot; a claim carries
the leaf's encoding and its proof. -/
inductive Corresponds (sha : List UInt8 → Bytes 32) (s : StateChannel.ChannelState) (x : Accounts)
    (slot : UInt64) : StateChannel.Request → Call → Prop
  | close {state : StateChannel.SignedState} {userPubkey providerPubkey : Pubkey}
      {settleWindow : UInt64} :
      Corresponds sha s x slot
        (.closeChannel state userPubkey providerPubkey slot settleWindow)
        (.cooperativeSettle ⟨x.channel, x.instructionSysvar⟩ state.sequence state.root settleWindow)
  | autoSettle {settleWindow : UInt64} :
      Corresponds sha s x slot (.autoSettle slot settleWindow)
        (.settleAfterTimeout ⟨x.channel⟩ settleWindow)
  | trigger {challenger : Pubkey} {root : Bytes 32} {sequence : UInt64} {signature : Bytes 64} :
      Corresponds sha s x slot (.triggerChallenge challenger slot root sequence signature)
        (.triggerChallenge ⟨x.channel, challenger, x.instructionSysvar⟩ root sequence)
  | counter {state : StateChannel.SignedState} {leaves : Option (List StateChannel.UTXOLeaf)}
      {userPubkey providerPubkey : Pubkey} :
      Corresponds sha s x slot (.submitCounterState state leaves userPubkey providerPubkey)
        (.submitCounterState ⟨x.channel, x.instructionSysvar⟩ state.sequence state.root)
  | timeout {settleWindow : UInt64} :
      Corresponds sha s x slot (.settleAfterTimeout slot settleWindow)
        (.settleAfterTimeout ⟨x.channel⟩ settleWindow)
  | claim {leafIndex : UInt32} {amount : UInt64} {claimer : Pubkey} {signature : Bytes 64}
      {leaf : StateChannel.UTXOLeaf} {proof : List (Bytes 32)}
      (leaf_eq : s.tree.getLeaf leafIndex.toNat = some leaf)
      (proof_eq : s.tree.getProof leafIndex.toNat = some proof) :
      Corresponds sha s x slot (.claim (.leaf leafIndex amount claimer slot signature))
        (.payout ⟨x.channel, claimer, x.vault, .escrow s.metadata.channelId, x.instructionSysvar⟩
          (.claim ⟨leafIndex, amount, claimer, leaf.hash sha, proof, leaf.toVec⟩))
  | finalize {caller : Pubkey} {signature : Bytes 64} :
      Corresponds sha s x slot (.finalizeSettlement slot caller signature)
        (.finalizeSettlement ⟨x.channel, caller, x.vaultA, x.vaultB,
          .escrow s.metadata.channelId, x.instructionSysvar⟩)

/-- The sums on `u64` of a request and of its instruction are in range. -/
def SumsInRange (m : StateChannel.ChannelMetadata) : StateChannel.Request → Prop
  | .closeChannel _ _ _ slot window => slot.toNat + window.toNat < 2 ^ 64
  | .autoSettle slot window => slot.toNat + window.toNat < 2 ^ 64
  | .triggerChallenge .. => m.openSlot.toNat + m.minChallengeDelay.toNat < 2 ^ 64
  | .settleAfterTimeout slot window => slot.toNat + window.toNat < 2 ^ 64 ∧
      ∀ cs, m.challengeSlot = some cs → cs.toNat + m.challengeDuration.toNat < 2 ^ 64
  | .claim (.leaf _ amount _ _ _) => m.totalClaimed.toNat + amount.toNat < 2 ^ 64
  | .finalizeSettlement .. => m.depositA.toNat + m.depositB.toNat < 2 ^ 64
  | _ => True

/-- The instruction goes through, and then the account at `a` holds `m`. -/
def Follows (sha : List UInt8 → Bytes 32) (w : World) (a : Address) (call : Call)
    (m : StateChannel.ChannelMetadata) : Prop :=
  ∃ w' c', exec sha call w = .ok w' ∧ w'.channelAt a = some c' ∧ Mirrors m c'

/-! ### What only the program asks for -/

/-- The bytes that the account has after an instruction. -/
def ChannelAccount.sizeAfter (c : ChannelAccount) : Call → ℕ
  | .cooperativeSettle .. => (c.settledUntil 0).size
  | .settleAfterTimeout .. => (c.settledUntil 0).size
  | .triggerChallenge .. => (c.triggered 0 c.currentRoot 0).size
  | .payout .. => c.size + 4
  | _ => c.size

/-- Out of the escrow, the token program moves `amount` to `dst`, if it is not nothing. -/
def Releases (channelId : Bytes 32) (dst : Address) (amount : UInt64)
    (l l' : Token.Ledger Address) : Prop :=
  if amount > 0 then Token.transfer l (.escrow channelId) dst (.escrow channelId) amount = .ok l'
  else l = l'

/-- The tokens that an instruction pays are there: the amount of a claim, or
both refunds. -/
def Funded (w : World) (c : ChannelAccount) : Call → Prop
  | .payout ctx p => (w.tokens.lookup ctx.vault).isSome ∧
      ∃ l, Releases c.channelId ctx.vault p.amount w.tokens l
  | .finalizeSettlement ctx => (w.tokens.lookup ctx.vaultA).isSome ∧
      (w.tokens.lookup ctx.vaultB).isSome ∧
      ∃ mid l, Releases c.channelId ctx.vaultA (.ofNat c.refundA) w.tokens mid ∧
        Releases c.channelId ctx.vaultB (.ofNat c.refundB) mid l
  | _ => True

/-- A finalization is a party's, and no more was claimed than deposited. -/
def Finalizable (c : ChannelAccount) : Call → Prop
  | .finalizeSettlement ctx => isParty c ctx.caller ∧ c.totalClaimed ≤ c.totalDeposited
  | _ => True

/-- What the program asks for beyond the manager: room, tokens, and the rest. -/
structure Admits (w : World) (n : ℕ) (c : ChannelAccount) (call : Call) : Prop where
  room : c.sizeAfter call ≤ n
  funded : Funded w c call
  finalizable : Finalizable c call

/-! ### When an instruction goes through -/

section

variable {sha : List UInt8 → Bytes 32} {w w' : World} {c c' : ChannelAccount} {n : ℕ}
  {a : Address} {call : Call} {m m' : StateChannel.ChannelMetadata}

/-- An instruction that ends in a write follows the manager exactly if it gets
there and what it writes fits. -/
theorem follows_iff {Paid : World → Prop} (hc : w.channels.lookup a = some ⟨n, c⟩)
    (hexec : ∀ w', exec sha call w = .ok w' ↔ ∃ w₁, Paid w₁ ∧ saveChannel w₁ a c' = .ok w')
    (hpaid : ∀ w₁, Paid w₁ → w₁.channels = w.channels) (hm : Mirrors m' c') :
    Follows sha w a call m' ↔ c'.size ≤ n ∧ ∃ w₁, Paid w₁ := by
  constructor
  · rintro ⟨w', -, hok, -⟩
    obtain ⟨w₁, hw₁, hsave⟩ := (hexec w').mp hok
    obtain ⟨entry, hentry, hsize, -⟩ := saveChannel_eq_ok.mp hsave
    rw [hpaid w₁ hw₁, hc, Option.some_inj] at hentry
    subst hentry
    exact ⟨hsize, w₁, hw₁⟩
  · rintro ⟨hsize, w₁, hw₁⟩
    have hentry : w₁.channels.lookup a = some ⟨n, c⟩ := hpaid w₁ hw₁ ▸ hc
    have hsave := saveChannel_eq_ok.mpr ⟨⟨n, c⟩, hentry, hsize, rfl⟩
    exact ⟨_, c', (hexec _).mpr ⟨w₁, hw₁, hsave⟩,
      World.channelAt_eq_some.mpr ⟨n, AList.lookup_insert _⟩, hm⟩

/-- The same where no tokens are paid. -/
theorem follows_iff_of_save (hc : w.channels.lookup a = some ⟨n, c⟩)
    (hexec : ∀ w', exec sha call w = .ok w' ↔ saveChannel w a c' = .ok w') (hm : Mirrors m' c') :
    Follows sha w a call m' ↔ c'.size ≤ n := by
  have hexec' : ∀ w', exec sha call w = .ok w' ↔ ∃ w₁, w₁ = w ∧ saveChannel w₁ a c' = .ok w' := by
    intro w'
    rw [exists_eq_left]
    exact hexec w'
  rw [follows_iff hc hexec' (fun w₁ h => h ▸ rfl) hm]
  exact and_iff_left ⟨w, rfl⟩

theorem exec_iff_agreed {ctx : CooperativeSettle} {sequence window deadline : UInt64}
    {root : Bytes 32} (hchecked : Agreed w ctx sequence root c)
    (hdeadline : deadline.toNat = w.slot.toNat + window.toNat) (w' : World) :
    exec sha (.cooperativeSettle ctx sequence root window) w = .ok w' ↔
      saveChannel w ctx.channel (c.settledUntil deadline) = .ok w' := by
  simp only [exec, cooperativeSettle, bind_eq_ok, require_eq_ok, loadChannel_eq_ok, addSlots,
    orErr_eq_ok, checkedAdd_eq_some, checkSignature_eq_ok, exists_const]
  constructor
  · rintro ⟨c', hc', -, -, -, -, -, d, hd, hsave⟩
    obtain rfl : c' = c := Option.some_inj.mp (hc'.symm.trans hchecked.channel_eq)
    obtain rfl : d = deadline := UInt64.toNat_inj.mp (hd.trans hdeadline.symm)
    exact hsave
  · intro hsave
    exact ⟨c, hchecked.channel_eq, hchecked.status_eq, hchecked.sequence_le, hchecked.root_eq,
      hchecked.user, hchecked.provider, deadline, hdeadline, hsave⟩

theorem exec_iff_timedOut {ctx : SettleAfterTimeout} {window deadline : UInt64}
    (hchecked : TimedOut w ctx c) (hdeadline : deadline.toNat = w.slot.toNat + window.toNat)
    (w' : World) :
    exec sha (.settleAfterTimeout ctx window) w = .ok w' ↔
      saveChannel w ctx.channel (c.settledUntil deadline) = .ok w' := by
  have hstatus : c.status = .challenged ∨ c.status = .opened ∧ c.autoCloseSlot.isSome := by
    rcases hchecked.due with ⟨hstatus, -⟩ | ⟨hstatus, auto, hauto, -⟩
    · exact .inl hstatus
    · exact .inr ⟨hstatus, by rw [hauto]; rfl⟩
  simp only [exec, settleAfterTimeout, bind_eq_ok, require_eq_ok, loadChannel_eq_ok, exists_const,
    hchecked.channel_eq, Option.some_inj, exists_eq_left', and_iff_right hstatus]
  -- Both branches check what was due, and then write the same.
  rcases hchecked.due with ⟨hchallenged, cs, hcs, hlt⟩ | ⟨hopened, auto, hauto, hle⟩
  · have hopened : c.status ≠ .opened := by
      rw [hchallenged]
      decide
    have hadd : (cs + c.challengeDuration).toNat = cs.toNat + c.challengeDuration.toNat :=
      toNat_add_of_lt (by have := w.slot.toNat_lt; omega)
    simp only [if_neg hopened, bind_eq_ok, require_eq_ok, orErr_eq_ok, addSlots,
      checkedAdd_eq_some, exists_const]
    constructor
    · rintro ⟨-, -, -, -, -, d, hd, hsave⟩
      obtain rfl : d = deadline := UInt64.toNat_inj.mp (hd.trans hdeadline.symm)
      exact hsave
    · intro hsave
      exact ⟨cs, hcs, cs + c.challengeDuration, hadd, UInt64.lt_iff_toNat_lt.mpr (hadd ▸ hlt),
        deadline, hdeadline, hsave⟩
  · simp only [if_pos hopened, bind_eq_ok, require_eq_ok, orErr_eq_ok, addSlots,
      checkedAdd_eq_some, exists_const]
    constructor
    · rintro ⟨-, -, -, d, hd, hsave⟩
      obtain rfl : d = deadline := UInt64.toNat_inj.mp (hd.trans hdeadline.symm)
      exact hsave
    · intro hsave
      exact ⟨auto, hauto, hle, deadline, hdeadline, hsave⟩

theorem transferTokens_eq_ok {src dst authority : Address} {amount : UInt64} {w₁ : World} :
    transferTokens w src dst authority amount = .ok w₁ ↔
      ∃ l, Token.transfer w.tokens src dst authority amount = .ok l ∧ { w with tokens := l } = w₁ := by
  rcases htransfer : Token.transfer w.tokens src dst authority amount with e | l
  · simp [transferTokens, htransfer, Except.mapError, bind, Except.bind]
  · simp [transferTokens, htransfer, Except.mapError, bind, Except.bind, pure, Except.pure]

/-- A transfer out of the escrow that is skipped for nothing, and what comes after. -/
theorem releases_bind_iff {channelId : Bytes 32} {dst : Address} {amount : UInt64}
    {next : World → Except Error World} :
    (if amount > 0 then
        transferTokens w (.escrow channelId) dst (.escrow channelId) amount >>= next
      else next w) = .ok w' ↔
      ∃ l, Releases channelId dst amount w.tokens l ∧ next { w with tokens := l } = .ok w' := by
  unfold Releases
  by_cases hpos : amount > 0
  · simp only [if_pos hpos, bind_eq_ok, transferTokens_eq_ok]
    constructor
    · rintro ⟨w₁, ⟨l, hl, rfl⟩, hnext⟩
      exact ⟨l, hl, hnext⟩
    · rintro ⟨l, hl, hnext⟩
      exact ⟨_, ⟨l, hl, rfl⟩, hnext⟩
  · simp only [if_neg hpos, exists_eq_left']

theorem loadToken_iff {dst : Address} :
    (∃ t, loadToken w dst = .ok t) ↔ (w.tokens.lookup dst).isSome := by
  simp only [loadToken, orErr_eq_ok, Option.isSome_iff_exists]

/-- Where the claim is in order, what is left is to pay it. -/
theorem exec_iff_claim {ctx : PayoutAccounts} {args : ClaimArgs} {total deadline : UInt64}
    (hclaim : Claimable sha w ctx args.leafIndex args.leafHash args.proof c)
    (hstatus : c.status = .settling) (hdeadline : c.settleDeadline = some deadline)
    (hslot : w.slot ≤ deadline) (howner : ctx.claimer = args.leafOwner)
    (hchecked : ClaimChecked sha args)
    (htotal : total.toNat = c.totalClaimed.toNat + args.claimAmount.toNat)
    (hle : total ≤ c.totalDeposited) (w' : World) :
    exec sha (.payout ctx (.claim args)) w = .ok w' ↔
      ∃ w₁, ((w.tokens.lookup ctx.vault).isSome ∧
        ∃ l, Releases c.channelId ctx.vault args.claimAmount w.tokens l ∧
          { w with tokens := l } = w₁) ∧
        saveChannel w₁ ctx.channel (c.paid total args.leafIndex) = .ok w' := by
  simp only [exec, payout, claim, loadPayout, payOut, bind_eq_ok, require_eq_ok, loadChannel_eq_ok,
    checkSignature_eq_ok, orErr_eq_ok, checkedAdd_eq_some, exists_const, hclaim.channel_eq,
    Option.some_inj, exists_eq_left', verifyMerkleProof_iff]
  constructor
  · rintro ⟨_, ⟨-, -, t, ht, -, hc⟩, _, -, -, -, -, -, -, -, -, -, total', htotal', -, h⟩
    cases hc
    obtain rfl : total' = total := UInt64.toNat_inj.mp (htotal'.trans htotal.symm)
    rw [hclaim.escrow_eq] at h
    obtain ⟨l, hl, hsave⟩ := releases_bind_iff.mp h
    exact ⟨_, ⟨loadToken_iff.mp ⟨t, ht⟩, l, hl, rfl⟩, hsave⟩
  · rintro ⟨_, ⟨hvault, l, hl, rfl⟩, hsave⟩
    obtain ⟨t, ht⟩ := loadToken_iff.mpr hvault
    refine ⟨c, ⟨decide_eq_true hstatus, hclaim.party, t, ht, hclaim.escrow_eq, rfl⟩, deadline,
      hdeadline, hslot, howner, hclaim.fresh, hchecked.hash_eq, hchecked.length_le,
      hchecked.amount_eq, hclaim.climbs, hclaim.record, total, htotal, hle, ?_⟩
    rw [hclaim.escrow_eq]
    exact releases_bind_iff.mpr ⟨l, hl, hsave⟩

theorem refund_bind_iff {ctx : FinalizeSettlement} {dst : Address} {amount : UInt64}
    {next : World → Except Error World} (hescrow : ctx.escrowVault = .escrow c.channelId) :
    (refund ctx c dst amount w >>= next) = .ok w' ↔
      ∃ l, Releases c.channelId dst amount w.tokens l ∧ next { w with tokens := l } = .ok w' := by
  rw [refund, hescrow, ← releases_bind_iff]
  by_cases hpos : amount > 0
  · rw [if_pos hpos, if_pos hpos]
  · rw [if_neg hpos, if_neg hpos]
    exact Iff.rfl

/-- Nothing leaves the escrow for refunds of nothing. -/
theorem releases_zero {next : World → Except Error World} {vaultA vaultB : Address}
    (h : c.refundA = 0 ∧ c.refundB = 0) :
    next w = .ok w' ↔ ∃ mid l, Releases c.channelId vaultA (.ofNat c.refundA) w.tokens mid ∧
      Releases c.channelId vaultB (.ofNat c.refundB) mid l ∧
      next { w with tokens := l } = .ok w' := by
  have hnot : ¬ UInt64.ofNat 0 > 0 := by decide
  simp only [h.1, h.2, Releases, if_neg hnot]
  constructor
  · intro hnext
    exact ⟨_, _, rfl, rfl, hnext⟩
  · rintro ⟨_, _, rfl, rfl, hnext⟩
    exact hnext

theorem ok_bind {ε α β : Type} (a : α) (f : α → Except ε β) : (Except.ok a >>= f) = f a := rfl

/-- Both refunds, with the three ways through the handler, and what comes after. -/
theorem refunds_iff {ctx : FinalizeSettlement} {unclaimed : UInt64}
    {next : World → Except Error World} (hescrow : ctx.escrowVault = .escrow c.channelId)
    (hunclaimed : unclaimed.toNat = c.unclaimed)
    (hfits : c.depositA.toNat + c.depositB.toNat < 2 ^ 64) :
    (if unclaimed > 0 then do
        let totalDeposit ← orErr (checkedAdd c.depositA c.depositB) (.code .arithmeticOverflow)
        if totalDeposit > 0 then do
          let refundB ← orErr (checkedSub unclaimed (refundA c.depositA totalDeposit unclaimed))
            (.code .arithmeticOverflow)
          let w ← refund ctx c ctx.vaultA (refundA c.depositA totalDeposit unclaimed) w
          let w ← refund ctx c ctx.vaultB refundB w
          next w
        else pure w >>= next
      else pure w >>= next) = .ok w' ↔
      ∃ mid l, Releases c.channelId ctx.vaultA (.ofNat c.refundA) w.tokens mid ∧
        Releases c.channelId ctx.vaultB (.ofNat c.refundB) mid l ∧
        next { w with tokens := l } = .ok w' := by
  have hA := refundA_le_unclaimed c
  by_cases hleft : unclaimed > 0
  · have hadd : (c.depositA + c.depositB).toNat = c.depositA.toNat + c.depositB.toNat :=
      toNat_add_of_lt hfits
    have hchecked : (orErr (checkedAdd c.depositA c.depositB) (.code .arithmeticOverflow) :
        Except Error UInt64) = .ok (c.depositA + c.depositB) :=
      orErr_eq_ok.mpr (checkedAdd_eq_some.mpr hadd)
    rw [if_pos hleft, hchecked, ok_bind]
    by_cases hdeposit : c.depositA + c.depositB > 0
    · have hpos : 0 < (c.depositA + c.depositB).toNat := UInt64.lt_iff_toNat_lt.mp hdeposit
      have hrefundA : refundA c.depositA (c.depositA + c.depositB) unclaimed = .ofNat c.refundA := by
        rw [← toNat_refundA hadd hunclaimed, UInt64.ofNat_toNat]
      have hlt : c.refundA < 2 ^ 64 := by
        have := unclaimed.toNat_lt
        omega
      have hsub : (orErr (checkedSub unclaimed (.ofNat c.refundA)) (.code .arithmeticOverflow) :
          Except Error UInt64) = .ok (.ofNat c.refundB) := by
        have hB : c.refundB = c.unclaimed - c.refundA := by
          rw [ChannelAccount.refundB, if_neg (by omega)]
        have hltB : c.refundB < 2 ^ 64 := by
          have := unclaimed.toNat_lt
          omega
        rw [orErr_eq_ok, checkedSub_eq_some, UInt64.toNat_ofNat_of_lt' hlt,
          UInt64.toNat_ofNat_of_lt' hltB]
        omega
      rw [if_pos hdeposit, hrefundA, hsub, ok_bind]
      simp only [refund_bind_iff hescrow]
      constructor
      · rintro ⟨mid, hmid, l, hl, hnext⟩
        exact ⟨mid, l, hmid, hl, hnext⟩
      · rintro ⟨mid, l, hmid, hl, hnext⟩
        exact ⟨mid, hmid, l, hl, hnext⟩
    · have hzero : c.depositA.toNat + c.depositB.toNat = 0 := by
        have hnot : ¬ 0 < (c.depositA + c.depositB).toNat :=
          fun h => hdeposit (UInt64.lt_iff_toNat_lt.mpr h)
        omega
      rw [if_neg hdeposit]
      refine releases_zero ⟨?_, if_pos hzero⟩
      rw [ChannelAccount.refundA, hzero, Nat.div_zero, Nat.mul_zero, Nat.zero_div]
  · have hzero : c.unclaimed = 0 := by
      have hnot : ¬ 0 < unclaimed.toNat := fun h => hleft (UInt64.lt_iff_toNat_lt.mpr h)
      omega
    rw [if_neg hleft]
    refine releases_zero ⟨by omega, ?_⟩
    rw [ChannelAccount.refundB]
    split
    · rfl
    · omega

/-- Where a finalization is in order, what is left is to refund. -/
theorem exec_iff_finalize {ctx : FinalizeSettlement} (hchecked : Finalizes w ctx c)
    (hle : c.totalClaimed ≤ c.totalDeposited)
    (hfits : c.depositA.toNat + c.depositB.toNat < 2 ^ 64) (w' : World) :
    exec sha (.finalizeSettlement ctx) w = .ok w' ↔
      ∃ w₁, ((w.tokens.lookup ctx.vaultA).isSome ∧ (w.tokens.lookup ctx.vaultB).isSome ∧
        ∃ mid l, Releases c.channelId ctx.vaultA (.ofNat c.refundA) w.tokens mid ∧
          Releases c.channelId ctx.vaultB (.ofNat c.refundB) mid l ∧ { w with tokens := l } = w₁) ∧
        saveChannel w₁ ctx.channel c.finalized = .ok w' := by
  obtain ⟨deadline, hdeadline, hslot⟩ := hchecked.elapsed
  have hle : c.totalClaimed.toNat ≤ c.totalDeposited.toNat := UInt64.le_iff_toNat_le.mp hle
  have hunclaimed : ∀ {unclaimed : UInt64},
      c.totalDeposited.toNat = unclaimed.toNat + c.totalClaimed.toNat ↔
        unclaimed.toNat = c.unclaimed := by
    intro unclaimed
    rw [ChannelAccount.unclaimed]
    omega
  have hlt : c.unclaimed < 2 ^ 64 := by
    have := c.totalDeposited.toNat_lt
    rw [ChannelAccount.unclaimed]
    omega
  simp only [exec, finalizeSettlement, bind_eq_ok, require_eq_ok, loadChannel_eq_ok,
    checkSignature_eq_ok, orErr_eq_ok, checkedSub_eq_some, exists_const, hchecked.channel_eq,
    Option.some_inj, exists_eq_left', hunclaimed]
  constructor
  · rintro ⟨-, -, tA, htA, tB, htB, -, _, -, -, -, unclaimed, hleft, h⟩
    obtain ⟨mid, l, hmid, hl, hsave⟩ := (refunds_iff hchecked.escrow_eq hleft hfits).mp h
    exact ⟨_, ⟨loadToken_iff.mp ⟨tA, htA⟩, loadToken_iff.mp ⟨tB, htB⟩, mid, l, hmid, hl, rfl⟩,
      hsave⟩
  · rintro ⟨_, ⟨hvaultA, hvaultB, mid, l, hmid, hl, rfl⟩, hsave⟩
    obtain ⟨tA, htA⟩ := loadToken_iff.mpr hvaultA
    obtain ⟨tB, htB⟩ := loadToken_iff.mpr hvaultB
    have hleft : (UInt64.ofNat c.unclaimed).toNat = c.unclaimed := UInt64.toNat_ofNat_of_lt' hlt
    exact ⟨hchecked.status_eq, hchecked.party, tA, htA, tB, htB, hchecked.escrow_eq, deadline,
      hdeadline, hslot, hchecked.record, .ofNat c.unclaimed, hleft,
      (refunds_iff hchecked.escrow_eq hleft hfits).mpr ⟨mid, l, hmid, hl, hsave⟩⟩

end

/-! ### Request by request -/

section

variable {env : StateChannel.Env} {s s' : StateChannel.ChannelState} {w : World} {x : Accounts}
  {c : ChannelAccount} {n : ℕ}

/-- A sum in range is the same in both builds. -/
theorem toNat_of_addU64 {overflowChecks : Bool} {a b d : UInt64}
    (hrange : a.toNat + b.toNat < 2 ^ 64) (h : addU64 overflowChecks a b = some d) :
    d.toNat = a.toNat + b.toNat := by
  have hadd : (a + b).toNat = a.toNat + b.toNat := toNat_add_of_lt hrange
  rw [addU64_eq_some hadd, Option.some_inj] at h
  exact h ▸ hadd

theorem Mirrors.settled (hm : Mirrors s.metadata c) (deadline : UInt64) :
    Mirrors (s.settled deadline).metadata (c.settledUntil deadline) :=
  { hm with status_eq := rfl, settleDeadline_eq := rfl }

theorem follows_close {state : StateChannel.SignedState} {userPubkey providerPubkey : Pubkey}
    {settleWindow deadline : UInt64} (hc : w.channels.lookup x.channel = some ⟨n, c⟩)
    (hm : Mirrors s.metadata c)
    (hcloses : StateChannel.Closes env s state userPubkey providerPubkey)
    (hdeadline : deadline.toNat = w.slot.toNat + settleWindow.toNat)
    (huser : Record x.instructionSysvar c.userPubkey.val
      (channelMessage c.channelId state.sequence state.root))
    (hprovider : Record x.instructionSysvar c.providerPubkey.val
      (channelMessage c.channelId state.sequence state.root)) :
    Follows env.sha w x.channel
        (.cooperativeSettle ⟨x.channel, x.instructionSysvar⟩ state.sequence state.root settleWindow)
        (s.settled deadline).metadata ↔
      (c.settledUntil 0).size ≤ n := by
  have hchecked : Agreed w ⟨x.channel, x.instructionSysvar⟩ state.sequence state.root c :=
    { channel_eq := World.channelAt_eq_some.mpr ⟨n, hc⟩
      status_eq := by rw [hm.status_eq, hcloses.status_eq]; rfl
      sequence_le := by
        rw [hm.sequence_eq, hcloses.sequence_eq]
        exact UInt64.le_refl _
      root_eq := by rw [hm.currentRoot_eq, hcloses.root_eq]
      user := huser
      provider := hprovider }
  show _ ↔ (c.settledUntil deadline).size ≤ n
  exact follows_iff_of_save hc (exec_iff_agreed hchecked hdeadline) (hm.settled deadline)

/-- The manager's two ways to settle without an agreement are one instruction. -/
theorem follows_timeout {settleWindow deadline : UInt64}
    (hc : w.channels.lookup x.channel = some ⟨n, c⟩) (hm : Mirrors s.metadata c)
    (hchecked : TimedOut w ⟨x.channel⟩ c)
    (hdeadline : deadline.toNat = w.slot.toNat + settleWindow.toNat) :
    Follows env.sha w x.channel (.settleAfterTimeout ⟨x.channel⟩ settleWindow)
        (s.settled deadline).metadata ↔
      (c.settledUntil 0).size ≤ n := by
  show _ ↔ (c.settledUntil deadline).size ≤ n
  exact follows_iff_of_save hc (exec_iff_timedOut hchecked hdeadline) (hm.settled deadline)

theorem follows_trigger {challenger : Pubkey} {root : Bytes 32} {sequence : UInt64}
    {signature : Bytes 64} (hc : w.channels.lookup x.channel = some ⟨n, c⟩)
    (hm : Mirrors s.metadata c)
    (htriggers : StateChannel.Triggers env s challenger w.slot root sequence signature)
    (hrange : s.metadata.openSlot.toNat + s.metadata.minChallengeDelay.toNat < 2 ^ 64)
    (hrecord : Record x.instructionSysvar challenger.val
      (channelMessage c.channelId w.slot root)) :
    Follows env.sha w x.channel
        (.triggerChallenge ⟨x.channel, challenger, x.instructionSysvar⟩ root sequence)
        (s.triggered w.slot root sequence).metadata ↔
      (c.triggered 0 c.currentRoot 0).size ≤ n := by
  obtain ⟨minSlot, hmin, hslot⟩ := htriggers.minSlot_le
  have hmin := toNat_of_addU64 hrange hmin
  have hslot : minSlot.toNat ≤ w.slot.toNat := UInt64.le_iff_toNat_le.mp (UInt64.not_lt.mp hslot)
  have hchecked : Triggered w ⟨x.channel, challenger, x.instructionSysvar⟩ root sequence c :=
    { channel_eq := World.channelAt_eq_some.mpr ⟨n, hc⟩
      status_eq := by rw [hm.status_eq, htriggers.status_eq]; rfl
      party := by
        rw [isParty, hm.userPubkey_eq, hm.providerPubkey_eq]
        exact htriggers.participant
      elapsed := by
        rw [hm.openSlot_eq, hm.minChallengeDelay_eq]
        omega
      sequence_lt := by
        rw [hm.sequence_eq]
        exact UInt64.not_le.mp htriggers.sequence_lt
      record := hrecord }
  have hexec : ∀ w', exec env.sha
      (.triggerChallenge ⟨x.channel, challenger, x.instructionSysvar⟩ root sequence) w = .ok w' ↔
      saveChannel w x.channel (c.triggered w.slot root sequence) = .ok w' := by
    intro w'
    rw [exec, triggerChallenge_eq_ok]
    constructor
    · rintro ⟨c', hc', hsave⟩
      obtain rfl : c' = c := Option.some_inj.mp (hc'.channel_eq.symm.trans hchecked.channel_eq)
      exact hsave
    · intro hsave
      exact ⟨c, hchecked, hsave⟩
  have hmirrors : Mirrors (s.triggered w.slot root sequence).metadata
      (c.triggered w.slot root sequence) :=
    { hm with status_eq := rfl, sequence_eq := rfl, currentRoot_eq := rfl, challengeSlot_eq := rfl }
  show _ ↔ (c.triggered w.slot root sequence).size ≤ n
  exact follows_iff_of_save hc hexec hmirrors

theorem follows_counter {state : StateChannel.SignedState} {userPubkey providerPubkey : Pubkey}
    {m' : StateChannel.ChannelMetadata} (hc : w.channels.lookup x.channel = some ⟨n, c⟩)
    (hm : Mirrors s.metadata c)
    (hcounters : StateChannel.Counters env s state userPubkey providerPubkey)
    (hm' : Mirrors m' (c.countered state.sequence state.root))
    (huser : Record x.instructionSysvar c.userPubkey.val
      (channelMessage c.channelId state.sequence state.root))
    (hprovider : Record x.instructionSysvar c.providerPubkey.val
      (channelMessage c.channelId state.sequence state.root)) :
    Follows env.sha w x.channel
        (.submitCounterState ⟨x.channel, x.instructionSysvar⟩ state.sequence state.root) m' ↔
      c.size ≤ n := by
  have hchecked : Countered w ⟨x.channel, x.instructionSysvar⟩ state.sequence state.root c :=
    { channel_eq := World.channelAt_eq_some.mpr ⟨n, hc⟩
      status_eq := by rw [hm.status_eq, hcounters.status_eq]; rfl
      sequence_lt := by
        rw [hm.sequence_eq]
        exact UInt64.not_le.mp hcounters.sequence_lt
      user := huser
      provider := hprovider }
  have hexec : ∀ w', exec env.sha
      (.submitCounterState ⟨x.channel, x.instructionSysvar⟩ state.sequence state.root) w = .ok w' ↔
      saveChannel w x.channel (c.countered state.sequence state.root) = .ok w' := by
    intro w'
    rw [exec, submitCounterState_eq_ok]
    constructor
    · rintro ⟨c', hc', hsave⟩
      obtain rfl : c' = c := Option.some_inj.mp (hc'.channel_eq.symm.trans hchecked.channel_eq)
      exact hsave
    · intro hsave
      exact ⟨c, hchecked, hsave⟩
  show _ ↔ (c.countered state.sequence state.root).size ≤ n
  exact follows_iff_of_save hc hexec hm'

theorem size_paid (total : UInt64) (leafIndex : UInt32) :
    (c.paid total leafIndex).size = c.size + 4 := by
  simp only [ChannelAccount.size, ChannelAccount.sizeWith, ChannelAccount.paid, List.length_append,
    List.length_singleton]
  omega

theorem Mirrors.claimed (hm : Mirrors s.metadata c) (total : UInt64) (leafIndex : UInt32) :
    Mirrors { s.metadata with
      totalClaimed := total
      claimedLeaves := insert leafIndex s.metadata.claimedLeaves } (c.paid total leafIndex) :=
  { hm with
    totalClaimed_eq := rfl
    claimed_iff := by
      intro i
      rw [ChannelAccount.paid, List.mem_append, List.mem_singleton, Finset.mem_insert,
        hm.claimed_iff, or_comm] }

theorem follows_claim {leafIndex : UInt32} {amount : UInt64} {claimer : Pubkey}
    {signature : Bytes 64} {leaf : StateChannel.UTXOLeaf} {proof : List (Bytes 32)}
    (hc : w.channels.lookup x.channel = some ⟨n, c⟩) (hm : Mirrors s.metadata c)
    (hclaims : StateChannel.Claims env s leafIndex amount claimer w.slot signature)
    (hleaf : StateChannel.ClaimsLeaf env s leafIndex amount claimer leaf proof)
    (hcovered : ¬ saturatingAdd s.metadata.totalClaimed amount > s.metadata.totalDeposited)
    (hrange : s.metadata.totalClaimed.toNat + amount.toNat < 2 ^ 64)
    (hrecord : Record x.instructionSysvar claimer.val
      (channelMessage c.channelId w.slot c.currentRoot)) :
    Follows env.sha w x.channel
        (.payout ⟨x.channel, claimer, x.vault, .escrow s.metadata.channelId, x.instructionSysvar⟩
          (.claim ⟨leafIndex, amount, claimer, leaf.hash env.sha, proof, leaf.toVec⟩))
        { s.metadata with
          totalClaimed := saturatingAdd s.metadata.totalClaimed amount
          claimedLeaves := insert leafIndex s.metadata.claimedLeaves } ↔
      c.size + 4 ≤ n ∧ (w.tokens.lookup x.vault).isSome ∧
        ∃ l, Releases c.channelId x.vault amount w.tokens l := by
  obtain ⟨deadline, hdeadline, hslot⟩ := hclaims.deadline_le
  have hclaim : Claimable env.sha w
      ⟨x.channel, claimer, x.vault, .escrow s.metadata.channelId, x.instructionSysvar⟩ leafIndex
      (leaf.hash env.sha) proof c :=
    { channel_eq := World.channelAt_eq_some.mpr ⟨n, hc⟩
      party := by
        rw [isParty, hm.userPubkey_eq, hm.providerPubkey_eq]
        exact hclaims.participant
      escrow_eq := by rw [hm.channelId_eq]
      fresh := fun hmem => hclaims.unclaimed ((hm.claimed_iff _).mp hmem)
      climbs := hm.currentRoot_eq ▸ of_decide_eq_true hleaf.verified
      record := hrecord }
  -- The amount in the leaf's encoding is the leaf's, which the manager compared.
  have hchecked : ClaimChecked env.sha
      ⟨leafIndex, amount, claimer, leaf.hash env.sha, proof, leaf.toVec⟩ :=
    { hash_eq := rfl
      length_le := by
        show 41 ≤ leaf.toVec.length
        rw [StateChannel.UTXOLeaf.length_toVec]
        omega
      amount_eq := by
        show u64OfLe (slice leaf.toVec 33 8) = amount
        rw [StateChannel.UTXOLeaf.slice_amount, u64OfLe_u64Le, hleaf.amount_eq] }
  have hstatus : c.status = .settling := by
    rw [hm.status_eq, hclaims.status_eq]
    rfl
  have htotal : (saturatingAdd s.metadata.totalClaimed amount).toNat
      = c.totalClaimed.toNat + amount.toNat := by
    rw [hm.totalClaimed_eq, toNat_saturatingAdd_of_lt hrange]
  have hle : saturatingAdd s.metadata.totalClaimed amount ≤ c.totalDeposited := by
    rw [hm.totalDeposited_eq]
    exact UInt64.not_lt.mp hcovered
  have hexec := exec_iff_claim hclaim hstatus (hm.settleDeadline_eq.trans hdeadline)
    (UInt64.not_lt.mp hslot) rfl hchecked htotal hle
  have hpaid : ∀ w₁ : World, ((w.tokens.lookup x.vault).isSome ∧
      ∃ l, Releases c.channelId x.vault amount w.tokens l ∧ { w with tokens := l } = w₁) →
      w₁.channels = w.channels := by
    rintro w₁ ⟨-, l, -, rfl⟩
    rfl
  rw [follows_iff hc hexec hpaid (hm.claimed _ leafIndex), size_paid]
  refine and_congr_right fun _ => ?_
  constructor
  · rintro ⟨w₁, hvault, l, hl, -⟩
    exact ⟨hvault, l, hl⟩
  · rintro ⟨hvault, l, hl⟩
    exact ⟨_, hvault, l, hl, rfl⟩

theorem follows_finalize {caller : Pubkey} {signature : Bytes 64}
    (hc : w.channels.lookup x.channel = some ⟨n, c⟩) (hm : Mirrors s.metadata c)
    (hfinalizes : StateChannel.Finalizes env s w.slot caller signature)
    (hrange : s.metadata.depositA.toNat + s.metadata.depositB.toNat < 2 ^ 64)
    (hrecord : Record x.instructionSysvar caller.val
      (channelMessage c.channelId w.slot c.currentRoot)) :
    Follows env.sha w x.channel
        (.finalizeSettlement ⟨x.channel, caller, x.vaultA, x.vaultB, .escrow s.metadata.channelId,
          x.instructionSysvar⟩)
        s.finalized.metadata ↔
      Admits w n c (.finalizeSettlement ⟨x.channel, caller, x.vaultA, x.vaultB,
        .escrow s.metadata.channelId, x.instructionSysvar⟩) := by
  have hat : w.channelAt x.channel = some c := World.channelAt_eq_some.mpr ⟨n, hc⟩
  by_cases hfinal : isParty c caller ∧ c.totalClaimed ≤ c.totalDeposited
  · obtain ⟨hparty, hle⟩ := hfinal
    obtain ⟨deadline, hdeadline, hslot⟩ := hfinalizes.deadline_le
    have hchecked : Finalizes w ⟨x.channel, caller, x.vaultA, x.vaultB,
        .escrow s.metadata.channelId, x.instructionSysvar⟩ c :=
      { channel_eq := hat
        status_eq := by rw [hm.status_eq, hfinalizes.status_eq]; rfl
        party := hparty
        escrow_eq := by rw [hm.channelId_eq]
        elapsed := ⟨deadline, hm.settleDeadline_eq.trans hdeadline, UInt64.not_lt.mp hslot⟩
        record := hrecord }
    have hfits : c.depositA.toNat + c.depositB.toNat < 2 ^ 64 := by
      rw [hm.depositA_eq, hm.depositB_eq]
      exact hrange
    have hpaid : ∀ w₁ : World, ((w.tokens.lookup x.vaultA).isSome ∧
        (w.tokens.lookup x.vaultB).isSome ∧
        ∃ mid l, Releases c.channelId x.vaultA (.ofNat c.refundA) w.tokens mid ∧
          Releases c.channelId x.vaultB (.ofNat c.refundB) mid l ∧
          { w with tokens := l } = w₁) → w₁.channels = w.channels := by
      rintro w₁ ⟨-, -, mid, l, -, -, rfl⟩
      rfl
    have hmirrors : Mirrors s.finalized.metadata c.finalized := { hm with status_eq := rfl }
    rw [follows_iff hc (exec_iff_finalize hchecked hle hfits) hpaid hmirrors]
    constructor
    · rintro ⟨hroom, w₁, hvaultA, hvaultB, mid, l, hmid, hl, -⟩
      exact ⟨hroom, ⟨hvaultA, hvaultB, mid, l, hmid, hl⟩, hparty, hle⟩
    · rintro ⟨hroom, ⟨hvaultA, hvaultB, mid, l, hmid, hl⟩, -⟩
      exact ⟨hroom, _, hvaultA, hvaultB, mid, l, hmid, hl, rfl⟩
  · -- The program refuses the caller or the claims, which the manager does not look at.
    refine iff_of_false ?_ fun h => hfinal h.finalizable
    rintro ⟨w', -, hok, -⟩
    obtain ⟨c₀, _, hu, -⟩ := @finalizeSettlement_update env.sha _ _ _ hok
    cases hu with
    | finalize hchecked hclaimed _ =>
      obtain rfl : c₀ = c := Option.some_inj.mp (hchecked.channel_eq.symm.trans hat)
      exact hfinal ⟨hchecked.party, UInt64.le_iff_toNat_le.mpr hclaimed⟩

end

/-! ### One leaf of three thousand -/

namespace Strangers

open Hashed (channelId user provider root)
open Stolen (tokenAccount)

/-- A key that has nothing to do with the channel. -/
def stranger : Pubkey :=
  ⟨[167, 246, 223, 175, 143, 56, 184, 155, 168, 206, 100, 155, 89, 79, 145, 228,
    208, 31, 220, 87, 249, 201, 73, 61, 244, 59, 94, 80, 169, 152, 115, 103], rfl⟩

/-- The hash of the channel's id, slot 50 and the root. -/
def message : Bytes 32 :=
  ⟨[63, 93, 187, 196, 153, 25, 251, 151, 223, 160, 190, 98, 31, 97, 6, 152,
    208, 173, 82, 29, 88, 214, 39, 133, 129, 47, 187, 37, 159, 40, 249, 201], rfl⟩

/-- The stranger's signature on it. -/
def signature : Bytes 64 :=
  ⟨[39, 26, 43, 57, 32, 134, 112, 142, 219, 144, 208, 75, 35, 241, 205, 13,
    106, 134, 251, 21, 29, 169, 148, 110, 193, 54, 230, 98, 110, 198, 232, 49,
    234, 136, 84, 59, 17, 187, 145, 218, 48, 217, 132, 132, 145, 70, 45, 10,
    108, 4, 199, 21, 65, 246, 95, 17, 234, 204, 227, 46, 61, 96, 45, 11], rfl⟩

def env : StateChannel.Env where
  sha := Sha256.sha256
  verifyStrict pk m s := decide (pk = stranger ∧ m = message.val ∧ s = signature)
  overflowChecks := true

/-- The manager's channel, settling until slot 40. -/
def session : StateChannel.Session := ⟨Hashed.start .settling 3, none⟩

/-- The program's account of it. -/
def account : ChannelAccount :=
  { channelOf channelId user with
    providerPubkey := provider
    status := .settling
    sequence := 3
    currentRoot := root
    totalDeposited := 3000
    depositA := 3000
    settleDeadline := some 40 }

theorem mirrors : Mirrors session.channel.metadata account :=
  ⟨rfl, rfl, rfl, rfl, rfl, rfl, rfl, rfl, rfl, rfl, rfl, rfl, rfl, rfl, rfl, rfl,
    fun i => iff_of_false (List.not_mem_nil (a := i)) (Finset.notMem_empty i)⟩

/-- The escrow holds the deposit. -/
def world (slot : UInt64) : World where
  channels := (∅ : Store.Map Address ChannelEntry).insert (.channel channelId)
    ⟨ChannelAccount.space 0, account⟩
  tokens := (((∅ : Token.Ledger Address).insert (.key (fill 32 20))
    (tokenAccount (.key user) 0)).insert (.key (fill 32 21))
    (tokenAccount (.key provider) 0)).insert (.escrow channelId)
    (tokenAccount (.escrow channelId) 3000)
  slot

/-- The vaults, with a record of a key's signature on the slot and the root. -/
def accounts (signer : Pubkey) (slot : UInt64) : Accounts where
  channel := .channel channelId
  vault := .key (fill 32 20)
  vaultA := .key (fill 32 20)
  vaultB := .key (fill 32 21)
  instructionSysvar := sysvarBytes [(signer, channelMessage channelId slot root)]

theorem recorded_stranger : Record (accounts stranger 50).instructionSysvar stranger.val
    (channelMessage channelId 50 root) :=
  checkSignature_eq_ok.mp (exists_of_isOk (by decide +kernel)).choose_spec

theorem recorded_user : Record (accounts user 30).instructionSysvar user.val
    (channelMessage channelId 30 root) :=
  checkSignature_eq_ok.mp (exists_of_isOk (by decide +kernel)).choose_spec

theorem finalizes : StateChannel.Finalizes env session.channel 50 stranger signature :=
  ⟨rfl, ⟨40, rfl, by decide⟩, by decide +kernel⟩

theorem accepted : ∃ s', Returns ((StateChannel.Request.finalizeSettlement 50 stranger
    signature).method env) session () s' := by
  have hreturns := StateChannel.finalizeSettlement_returns (l := session.toLocal).mpr
    ⟨finalizes, rfl, rfl⟩
  exact ⟨_, StateChannel.returns_quietly.mpr ⟨_, _, hreturns, rfl⟩⟩

end Strangers

end Program
