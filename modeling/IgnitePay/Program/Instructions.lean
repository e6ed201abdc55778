/-
The instructions of the channel program (`lib.rs`).

Each instruction first checks the constraints of its account struct, then runs
its handler.  A failed instruction has no effect, so an instruction is a
function to `Except Error World`.  The account in the `instruction_sysvar`
position is unchecked; it enters as its bytes, which the caller chooses.

`claim`, `verify_htlc` and `htlc_refund` take the same accounts, up to the
admitted states, and end in the same payout.
-/
import IgnitePay.Program.Introspection

namespace Program

open Bytes Machine Solana

variable (sha : List UInt8 → Bytes 32)

/-! ### Shared pieces -/

/-- `channel_id || number || root`, the message of all instructions but
`open_channel`; the number is a sequence or the current slot. -/
def channelMessage (channelId : Bytes 32) (number : UInt64) (root : Bytes 32) : List UInt8 :=
  channelId.val ++ (u64Le number ++ root.val)

/-- `a + b` on `u64` in a build with overflow checks. -/
def addSlots (a b : UInt64) : Except Error UInt64 := orErr (checkedAdd a b) .panic

/-- The constraint on `challenger`, `claimer` and `caller`. -/
def isParty (channel : ChannelAccount) (signer : Pubkey) : Prop :=
  signer = channel.userPubkey ∨ signer = channel.providerPubkey

instance (channel : ChannelAccount) (signer : Pubkey) : Decidable (isParty channel signer) :=
  inferInstanceAs (Decidable (_ ∨ _))

/-- The loop body of `verify_merkle_proof`. -/
def proofStep (current sibling : Bytes 32) : Bytes 32 :=
  let (left, right) := if current.val < sibling.val then (current, sibling) else (sibling, current)
  sha (left.val ++ right.val)

/-- `verify_merkle_proof`. -/
def verifyMerkleProof (leafHash : Bytes 32) (proof : List (Bytes 32)) (root : Bytes 32) : Bool :=
  decide (proof.foldl (proofStep sha) leafHash = root)

/-! ### Opening and funding -/

structure OpenChannel where
  channel : Address
  user : Pubkey
  userPubkey : Pubkey
  providerPubkey : Pubkey
  tokenMint : Pubkey
  vaultA : Address
  vaultB : Address
  instructionSysvar : List UInt8
deriving DecidableEq

structure OpenChannelArgs where
  channelId : Bytes 32
  depositA : UInt64
  treeDepth : UInt32
  openSlot : UInt64
  challengeDuration : UInt64
  minChallengeDelay : UInt64
  initialRoot : Bytes 32
deriving DecidableEq

/-- `channel_id || deposit_a || tree_depth || initial_root`. -/
def OpenChannelArgs.message (a : OpenChannelArgs) : List UInt8 :=
  a.channelId.val ++ u64Le a.depositA ++ leBytes 4 a.treeDepth.toNat ++ a.initialRoot.val

def openChannel (ctx : OpenChannel) (a : OpenChannelArgs) (w : World) : Except Error World := do
  require (ctx.channel = .channel a.channelId) .constraintSeeds
  require (w.channels.lookup ctx.channel = none) .accountAlreadyInUse
  require (ctx.user = ctx.userPubkey) (.code .unauthorized)
  let vaultA ← loadToken w ctx.vaultA
  require (vaultA.mint = ctx.tokenMint) (.code .invalidOwner)
  let vaultB ← loadToken w ctx.vaultB
  require (vaultB.mint = ctx.tokenMint) (.code .invalidOwner)
  require (a.treeDepth ≤ 12) (.code .leafIndexOutOfBounds)
  require (a.depositA > 0) (.code .zeroDeposit)
  let channel : ChannelAccount := {
    channelId := a.channelId
    userPubkey := ctx.user
    providerPubkey := ctx.providerPubkey
    tokenMint := ctx.tokenMint
    status := .opened
    sequence := 0
    currentRoot := a.initialRoot
    totalDeposited := a.depositA
    openSlot := a.openSlot
    challengeSlot := none
    vaultA := ctx.vaultA
    vaultB := ctx.vaultB
    depositA := a.depositA
    depositB := 0
    challengeDuration := a.challengeDuration
    minChallengeDelay := a.minChallengeDelay
    totalClaimed := 0
    settleDeadline := none
    treeDepth := a.treeDepth
    leafCount := 1
    claimedLeaves := []
    autoCloseSlot := none }
  checkSignature ctx.instructionSysvar channel.userPubkey a.message
  saveChannel { w with
      channels := w.channels.insert ctx.channel ⟨ChannelAccount.space a.treeDepth, channel⟩ }
    ctx.channel channel

structure FundChannel where
  channel : Address
  signer : Pubkey
  sourceVault : Address
  vaultB : Address
deriving DecidableEq

def fundChannel (ctx : FundChannel) (depositB : UInt64) (w : World) : Except Error World := do
  let channel ← loadChannel w ctx.channel
  require (channel.status = .opened) (.code .invalidStatus)
  require (channel.depositB = 0) (.code .alreadyFunded)
  require (ctx.signer = channel.providerPubkey) (.code .unauthorized)
  let _ ← loadToken w ctx.sourceVault
  let _ ← loadToken w ctx.vaultB
  require (ctx.vaultB = channel.vaultB) (.code .invalidOwner)
  require (depositB > 0) (.code .zeroDeposit)
  let w ← transferTokens w ctx.sourceVault ctx.vaultB (.key ctx.signer) depositB
  let totalDeposited ← orErr (checkedAdd channel.totalDeposited depositB)
    (.code .arithmeticOverflow)
  require (channel.leafCount.toNat + 1 < 2 ^ 32) (.code .arithmeticOverflow)
  saveChannel w ctx.channel { channel with
    depositB, totalDeposited, leafCount := channel.leafCount + 1 }

/-! ### Agreement and challenge -/

structure CooperativeSettle where
  channel : Address
  instructionSysvar : List UInt8
deriving DecidableEq

def cooperativeSettle (ctx : CooperativeSettle) (sequence : UInt64) (root : Bytes 32)
    (settleWindow : UInt64) (w : World) : Except Error World := do
  let channel ← loadChannel w ctx.channel
  require (channel.status = .opened) (.code .invalidStatus)
  require (sequence ≥ channel.sequence) (.code .invalidSequence)
  require (root = channel.currentRoot) (.code .prevHashMismatch)
  let msg := channelMessage channel.channelId sequence root
  checkSignature ctx.instructionSysvar channel.userPubkey msg
  checkSignature ctx.instructionSysvar channel.providerPubkey msg
  let deadline ← addSlots w.slot settleWindow
  saveChannel w ctx.channel { channel with status := .settling, settleDeadline := some deadline }

structure TriggerChallenge where
  channel : Address
  challenger : Pubkey
  instructionSysvar : List UInt8
deriving DecidableEq

def triggerChallenge (ctx : TriggerChallenge) (submittedRoot : Bytes 32)
    (submittedSequence : UInt64) (w : World) : Except Error World := do
  let channel ← loadChannel w ctx.channel
  require (channel.status = .opened) (.code .invalidStatus)
  require (isParty channel ctx.challenger) (.code .unauthorized)
  let minSlot ← addSlots channel.openSlot channel.minChallengeDelay
  require (w.slot ≥ minSlot) (.code .challengeNotElapsed)
  require (submittedSequence > channel.sequence) (.code .invalidSequence)
  checkSignature ctx.instructionSysvar ctx.challenger
    (channelMessage channel.channelId w.slot submittedRoot)
  saveChannel w ctx.channel { channel with
    status := .challenged
    challengeSlot := some w.slot
    currentRoot := submittedRoot
    sequence := submittedSequence }

structure SubmitCounterState where
  channel : Address
  instructionSysvar : List UInt8
deriving DecidableEq

def submitCounterState (ctx : SubmitCounterState) (sequence : UInt64) (root : Bytes 32)
    (w : World) : Except Error World := do
  let channel ← loadChannel w ctx.channel
  require (channel.status = .challenged) (.code .invalidStatus)
  require (sequence > channel.sequence) (.code .invalidSequence)
  let msg := channelMessage channel.channelId sequence root
  checkSignature ctx.instructionSysvar channel.userPubkey msg
  checkSignature ctx.instructionSysvar channel.providerPubkey msg
  saveChannel w ctx.channel { channel with sequence, currentRoot := root }

/-- The accounts of `settle_after_timeout`: the channel. -/
structure SettleAfterTimeout where
  channel : Address
deriving DecidableEq

def settleAfterTimeout (ctx : SettleAfterTimeout) (settleWindow : UInt64) (w : World) :
    Except Error World := do
  let channel ← loadChannel w ctx.channel
  require (channel.status = .challenged ∨
    channel.status = .opened ∧ channel.autoCloseSlot.isSome) (.code .invalidStatus)
  if channel.status = .opened then
    let autoClose ← orErr channel.autoCloseSlot (.code .invalidStatus)
    require (w.slot ≥ autoClose) (.code .challengeNotElapsed)
  else
    let challengeSlot ← orErr channel.challengeSlot (.code .invalidStatus)
    let deadline ← addSlots challengeSlot channel.challengeDuration
    require (w.slot > deadline) (.code .challengeNotElapsed)
  let deadline ← addSlots w.slot settleWindow
  saveChannel w ctx.channel { channel with status := .settling, settleDeadline := some deadline }

/-! ### Payouts -/

/-- The accounts of `claim`, `verify_htlc` and `htlc_refund`. -/
structure PayoutAccounts where
  channel : Address
  claimer : Pubkey
  vault : Address
  escrowVault : Address
  instructionSysvar : List UInt8
deriving DecidableEq

/-- The constraints of these account structs, in the admitted states. -/
def loadPayout (ctx : PayoutAccounts) (admitted : ChannelStatus → Bool) (w : World) :
    Except Error ChannelAccount := do
  let channel ← loadChannel w ctx.channel
  require (admitted channel.status) (.code .invalidStatus)
  require (isParty channel ctx.claimer) (.code .unauthorized)
  let _ ← loadToken w ctx.vault
  require (ctx.escrowVault = .escrow channel.channelId) .constraintSeeds
  pure channel

/-- The end of the three handlers: count the amount, remember the index, and
transfer from the escrow to the vault that the caller passed. -/
def payOut (ctx : PayoutAccounts) (channel : ChannelAccount) (leafIndex : UInt32)
    (amount : UInt64) (w : World) : Except Error World := do
  let totalClaimed ← orErr (checkedAdd channel.totalClaimed amount) (.code .arithmeticOverflow)
  require (totalClaimed ≤ channel.totalDeposited) (.code .amountConservation)
  let w ← if amount > 0 then
      transferTokens w ctx.escrowVault ctx.vault (.escrow channel.channelId) amount
    else pure w
  saveChannel w ctx.channel { channel with
    totalClaimed, claimedLeaves := channel.claimedLeaves ++ [leafIndex] }

/-- The deadline of `verify_htlc` and `htlc_refund`. -/
def htlcDeadline (channel : ChannelAccount) : Except Error UInt64 :=
  if channel.status = .challenged then do
    let cs ← orErr channel.challengeSlot (.code .invalidStatus)
    orErr (checkedAdd cs channel.challengeDuration) (.code .arithmeticOverflow)
  else orErr channel.settleDeadline (.code .invalidStatus)

structure ClaimArgs where
  leafIndex : UInt32
  claimAmount : UInt64
  leafOwner : Pubkey
  leafHash : Bytes 32
  proof : List (Bytes 32)
  leafData : List UInt8
deriving DecidableEq

def claim (ctx : PayoutAccounts) (a : ClaimArgs) (w : World) : Except Error World := do
  let channel ← loadPayout ctx (fun s => s = .settling) w
  let deadline ← orErr channel.settleDeadline (.code .invalidStatus)
  require (w.slot ≤ deadline) (.code .settlementExpired)
  require (ctx.claimer = a.leafOwner) (.code .invalidOwner)
  require (a.leafIndex ∉ channel.claimedLeaves) (.code .alreadyClaimed)
  require (sha a.leafData = a.leafHash) (.code .invalidLeafData)
  require (a.leafData.length ≥ 41) (.code .invalidLeafData)
  require (u64OfLe (slice a.leafData 33 8) = a.claimAmount) (.code .amountMismatch)
  -- The type and the owner in `leafData` are not looked at.
  require (verifyMerkleProof sha a.leafHash a.proof channel.currentRoot)
    (.code .proofVerificationFailed)
  checkSignature ctx.instructionSysvar ctx.claimer
    (channelMessage channel.channelId w.slot channel.currentRoot)
  payOut ctx channel a.leafIndex a.claimAmount w

structure VerifyHtlcArgs where
  leafIndex : UInt32
  preimage : Bytes 32
  hashLock : Bytes 32
  leafAmount : UInt64
  beneficiary : Pubkey
  leafHash : Bytes 32
  proof : List (Bytes 32)
  timelockSlot : UInt64
  leafData : List UInt8
deriving DecidableEq

/-- `LEAF_TYPE_HTLC`. -/
def leafTypeHtlc : UInt8 := 1

/-- The block of `verify_htlc` and `htlc_refund` that looks into `leaf_data`;
`party` is `beneficiary` in the one and `leaf_owner` in the other. -/
def checkHtlcLeafData (leafData : List UInt8) (leafHash : Bytes 32) (leafAmount : UInt64)
    (party : Pubkey) : Except Error Unit := do
  require (sha leafData = leafHash) (.code .invalidLeafData)
  require (leafData.length ≥ 41) (.code .invalidLeafData)
  require (leafData[0]? = some leafTypeHtlc) (.code .invalidLeafData)
  require (u64OfLe (slice leafData 33 8) = leafAmount) (.code .amountMismatch)
  -- The owner's bytes, in `verify_htlc` too.
  require (slice leafData 1 32 = party.val) (.code .invalidLeafData)

/-- The states in which an HTLC can be resolved. -/
def htlcAdmitted (s : ChannelStatus) : Bool := s = .challenged ∨ s = .settling

def verifyHtlc (ctx : PayoutAccounts) (a : VerifyHtlcArgs) (w : World) : Except Error World := do
  let channel ← loadPayout ctx htlcAdmitted w
  let deadline ← htlcDeadline channel
  require (w.slot ≤ deadline) (.code .settlementExpired)
  require (ctx.claimer = a.beneficiary) (.code .invalidOwner)
  require (a.leafIndex ∉ channel.claimedLeaves) (.code .alreadyClaimed)
  checkHtlcLeafData sha a.leafData a.leafHash a.leafAmount a.beneficiary
  -- The lock and the timelock are those of the arguments, not of `leafData`.
  require (sha a.preimage.val = a.hashLock) (.code .hashLockMismatch)
  require (w.slot ≤ a.timelockSlot) (.code .htlcExpired)
  require (verifyMerkleProof sha a.leafHash a.proof channel.currentRoot)
    (.code .proofVerificationFailed)
  checkSignature ctx.instructionSysvar ctx.claimer
    (channelMessage channel.channelId w.slot channel.currentRoot)
  payOut ctx channel a.leafIndex a.leafAmount w

structure HtlcRefundArgs where
  leafIndex : UInt32
  timelockSlot : UInt64
  leafAmount : UInt64
  leafOwner : Pubkey
  leafHash : Bytes 32
  proof : List (Bytes 32)
  leafData : List UInt8
deriving DecidableEq

def htlcRefund (ctx : PayoutAccounts) (a : HtlcRefundArgs) (w : World) : Except Error World := do
  let channel ← loadPayout ctx htlcAdmitted w
  let deadline ← htlcDeadline channel
  require (w.slot ≤ deadline) (.code .settlementExpired)
  require (ctx.claimer = a.leafOwner) (.code .invalidOwner)
  require (a.leafIndex ∉ channel.claimedLeaves) (.code .alreadyClaimed)
  checkHtlcLeafData sha a.leafData a.leafHash a.leafAmount a.leafOwner
  require (w.slot > a.timelockSlot) (.code .htlcNotExpired)
  require (verifyMerkleProof sha a.leafHash a.proof channel.currentRoot)
    (.code .proofVerificationFailed)
  checkSignature ctx.instructionSysvar ctx.claimer
    (channelMessage channel.channelId w.slot channel.currentRoot)
  payOut ctx channel a.leafIndex a.leafAmount w

/-! ### Finalization -/

structure FinalizeSettlement where
  channel : Address
  caller : Pubkey
  vaultA : Address
  vaultB : Address
  escrowVault : Address
  instructionSysvar : List UInt8
deriving DecidableEq

/-- The refund of party A: its share of the deposits in millionths, rounded
down, of the unclaimed amount, rounded down. -/
def refundA (depositA totalDeposit unclaimed : UInt64) : UInt64 :=
  UInt64.ofNat (unclaimed.toNat * (depositA.toNat * 1000000 / totalDeposit.toNat) / 1000000)

/-- A transfer out of the escrow, if there is anything to transfer. -/
def refund (ctx : FinalizeSettlement) (channel : ChannelAccount) (dst : Address)
    (amount : UInt64) (w : World) : Except Error World :=
  if amount > 0 then
    transferTokens w ctx.escrowVault dst (.escrow channel.channelId) amount
  else pure w

/-- The products of the source are on `u128`, where those of two `u64` fit. -/
def finalizeSettlement (ctx : FinalizeSettlement) (w : World) : Except Error World := do
  let channel ← loadChannel w ctx.channel
  require (channel.status = .settling) (.code .invalidStatus)
  require (isParty channel ctx.caller) (.code .unauthorized)
  let _ ← loadToken w ctx.vaultA
  let _ ← loadToken w ctx.vaultB
  require (ctx.escrowVault = .escrow channel.channelId) .constraintSeeds
  let deadline ← orErr channel.settleDeadline (.code .invalidStatus)
  require (w.slot ≥ deadline) (.code .settlementNotExpired)
  checkSignature ctx.instructionSysvar ctx.caller
    (channelMessage channel.channelId w.slot channel.currentRoot)
  let unclaimed ← orErr (checkedSub channel.totalDeposited channel.totalClaimed)
    (.code .arithmeticOverflow)
  let w ← if unclaimed > 0 then do
      let totalDeposit ← orErr (checkedAdd channel.depositA channel.depositB)
        (.code .arithmeticOverflow)
      if totalDeposit > 0 then do
        let refundA := refundA channel.depositA totalDeposit unclaimed
        let refundB ← orErr (checkedSub unclaimed refundA) (.code .arithmeticOverflow)
        let w ← refund ctx channel ctx.vaultA refundA w
        refund ctx channel ctx.vaultB refundB w
      else pure w
    else pure w
  saveChannel w ctx.channel { channel with status := .closed }

/-! ### Calls -/

/-- The three payouts with their arguments. -/
inductive Payout
  | claim (a : ClaimArgs)
  | verifyHtlc (a : VerifyHtlcArgs)
  | htlcRefund (a : HtlcRefundArgs)
deriving DecidableEq

/-- The instructions, and what else happens to the ledger: wallets move their
tokens and slots pass. -/
inductive Call
  | openChannel (ctx : OpenChannel) (a : OpenChannelArgs)
  | fundChannel (ctx : FundChannel) (depositB : UInt64)
  | cooperativeSettle (ctx : CooperativeSettle) (sequence : UInt64) (root : Bytes 32)
      (settleWindow : UInt64)
  | triggerChallenge (ctx : TriggerChallenge) (submittedRoot : Bytes 32)
      (submittedSequence : UInt64)
  | submitCounterState (ctx : SubmitCounterState) (sequence : UInt64) (root : Bytes 32)
  | settleAfterTimeout (ctx : SettleAfterTimeout) (settleWindow : UInt64)
  | payout (ctx : PayoutAccounts) (p : Payout)
  | finalizeSettlement (ctx : FinalizeSettlement)
  | tokenTransfer (src dst : Address) (authority : Pubkey) (amount : UInt64)
  | tick (slot : UInt64)

def tick (slot : UInt64) (w : World) : Except Error World := do
  require (w.slot ≤ slot) .panic
  pure { w with slot }

def payout (ctx : PayoutAccounts) : Payout → World → Except Error World
  | .claim a => claim sha ctx a
  | .verifyHtlc a => verifyHtlc sha ctx a
  | .htlcRefund a => htlcRefund sha ctx a

def exec : Call → World → Except Error World
  | .openChannel ctx a => openChannel ctx a
  | .fundChannel ctx depositB => fundChannel ctx depositB
  | .cooperativeSettle ctx sequence root window => cooperativeSettle ctx sequence root window
  | .triggerChallenge ctx root sequence => triggerChallenge ctx root sequence
  | .submitCounterState ctx sequence root => submitCounterState ctx sequence root
  | .settleAfterTimeout ctx window => settleAfterTimeout ctx window
  | .payout ctx p => payout sha ctx p
  | .finalizeSettlement ctx => finalizeSettlement ctx
  | .tokenTransfer src dst authority amount =>
    fun w => transferTokens w src dst (.key authority) amount
  | .tick slot => tick slot

end Program
