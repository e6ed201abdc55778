/-
The instructions of the MagicBlock program (`lib.rs`).

Each instruction first checks the constraints of its account struct, then runs
its handler.  A failed instruction has no effect, so an instruction is a
function to `Except Error World`.  The two settlements differ in the defences
they run and in one flag; both are `settleWith`.

`Call` collects the instructions with the accounts and arguments a caller
chooses, and what else happens to the ledger: wallets transfer lamports and
the clock moves on.
-/
import IgnitePay.Mb.Ed25519
import IgnitePay.Mb.SumMerkle

namespace Mb

open Bytes Machine Solana

variable (rt : Runtime)

/-! ### Loading accounts -/

def loadGlobalState (w : World) (a : Address) : Except Error GlobalState :=
  orErr (w.globalStateAt a) .accountNotInitialized

def loadChannel (w : World) (a : Address) : Except Error Channel :=
  orErr (w.channelAt a) .accountNotInitialized

def loadSettlementEscrow (w : World) (a : Address) : Except Error SettlementEscrow :=
  orErr (w.escrowAt a) .accountNotInitialized

/-- The `init` constraint: the account is not in use, and `payer` tops it up to
the rent of `space` bytes.  The handler writes the data. -/
def initAccount (w : World) (a payer : Address) (space : ℕ) : Except Error World := do
  require (w.accounts.lookup a = none) .accountAlreadyInUse
  let required := rt.minimumBalance space
  let topUp := if w.lamports a ≤ required then required - w.lamports a else 0
  orErr (w.moveLamports payer a topUp) .insufficientFunds

/-! ### Deposits and allocation -/

structure InitializeGlobal where
  globalState : Address
  vault : Address
  buyer : Address
  tokenMint : Address
deriving DecidableEq

def initializeGlobal (ctx : InitializeGlobal) (w : World) : Except Error World := do
  require ctx.buyer.isKey .accountNotSigner
  require (w.accounts.lookup ctx.tokenMint = none) .accountNotSystemOwned
  require (ctx.globalState = .globalState ctx.buyer ctx.tokenMint) .constraintSeeds
  require (ctx.vault = .vault ctx.buyer ctx.tokenMint) .constraintSeeds
  let w ← initAccount rt w ctx.globalState ctx.buyer GlobalState.SPACE
  pure (w.setAccount ctx.globalState (.globalState {
    buyer := ctx.buyer
    tokenMint := ctx.tokenMint
    totalDeposited := 0
    totalAllocated := 0 }))

structure InitializeChannel where
  globalState : Address
  channel : Address
  buyer : Address
  merchant : Address
deriving DecidableEq

def initializeChannel (ctx : InitializeChannel) (spendingCap : UInt64)
    (challengePeriod disputePeriod : Int64) (w : World) : Except Error World := do
  require ctx.buyer.isKey .accountNotSigner
  require (w.accounts.lookup ctx.merchant = none) .accountNotSystemOwned
  let globalState ← loadGlobalState w ctx.globalState
  require (globalState.buyer = ctx.buyer) .constraintHasOne
  require (ctx.globalState = .globalState ctx.buyer globalState.tokenMint) .constraintSeeds
  require (ctx.channel = .channel ctx.buyer ctx.merchant globalState.tokenMint) .constraintSeeds
  let w ← initAccount rt w ctx.channel ctx.buyer Channel.SPACE
  let totalAllocated ← orErr (checkedAdd globalState.totalAllocated spendingCap)
    (.code .arithmeticOverflow)
  require (totalAllocated ≤ globalState.totalDeposited) (.code .allocationExceedsDeposit)
  let w := w.setAccount ctx.globalState (.globalState { globalState with totalAllocated })
  pure (w.setAccount ctx.channel (.channel {
    buyer := ctx.buyer
    merchant := ctx.merchant
    tokenMint := globalState.tokenMint
    spendingCap
    settledAmount := 0
    nonce := 0
    challengePeriod
    disputePeriod }))

structure UpdateSpendingCap where
  globalState : Address
  channel : Address
  buyer : Address
deriving DecidableEq

def updateSpendingCap (ctx : UpdateSpendingCap) (newSpendingCap : UInt64) (w : World) :
    Except Error World := do
  require ctx.buyer.isKey .accountNotSigner
  let globalState ← loadGlobalState w ctx.globalState
  require (globalState.buyer = ctx.buyer) .constraintHasOne
  require (ctx.globalState = .globalState ctx.buyer globalState.tokenMint) .constraintSeeds
  let channel ← loadChannel w ctx.channel
  require (channel.buyer = ctx.buyer) .constraintHasOne
  -- The channel's mint is only compared with its own address, never with the global state's.
  require (ctx.channel = .channel channel.buyer channel.merchant channel.tokenMint)
    .constraintSeeds
  let delta := if newSpendingCap > channel.spendingCap then newSpendingCap - channel.spendingCap
    else 0
  let totalAllocated ← orErr (checkedAdd globalState.totalAllocated delta)
    (.code .arithmeticOverflow)
  require (totalAllocated ≤ globalState.totalDeposited) (.code .allocationExceedsDeposit)
  let w := w.setAccount ctx.globalState (.globalState { globalState with totalAllocated })
  pure (w.setAccount ctx.channel (.channel { channel with spendingCap := newSpendingCap }))

/-- The accounts of `deposit` and of `withdraw`. -/
structure VaultAccess where
  globalState : Address
  vault : Address
  buyer : Address
deriving DecidableEq

/-- The constraints `Deposit` and `Withdraw` share. -/
def loadVault (ctx : VaultAccess) (w : World) : Except Error GlobalState := do
  require ctx.buyer.isKey .accountNotSigner
  let globalState ← loadGlobalState w ctx.globalState
  require (globalState.buyer = ctx.buyer) .constraintHasOne
  require (ctx.globalState = .globalState ctx.buyer globalState.tokenMint) .constraintSeeds
  require (ctx.vault = .vault ctx.buyer globalState.tokenMint) .constraintSeeds
  pure globalState

def deposit (ctx : VaultAccess) (amount : UInt64) (w : World) : Except Error World := do
  let globalState ← loadVault ctx w
  let w ← orErr (w.moveLamports ctx.buyer ctx.vault amount) .insufficientFunds
  let totalDeposited ← orErr (checkedAdd globalState.totalDeposited amount)
    (.code .arithmeticOverflow)
  pure (w.setAccount ctx.globalState (.globalState { globalState with totalDeposited }))

def withdraw (ctx : VaultAccess) (amount : UInt64) (w : World) : Except Error World := do
  let globalState ← loadVault ctx w
  let unallocated ← orErr (checkedSub globalState.totalDeposited globalState.totalAllocated)
    (.code .arithmeticOverflow)
  require (amount ≤ unallocated) (.code .insufficientBalance)
  let totalDeposited ← orErr (checkedSub globalState.totalDeposited amount)
    (.code .arithmeticOverflow)
  let w := w.setAccount ctx.globalState (.globalState { globalState with totalDeposited })
  orErr (w.moveLamports ctx.vault ctx.buyer amount) .insufficientFunds

/-! ### Settlement -/

/-- The accounts of both settlements; the instructions sysvar is bound by its
address and passed as what it shows. -/
structure BatchSettle where
  globalState : Address
  vault : Address
  channel : Address
  settlementEscrow : Address
  merchant : Address
deriving DecidableEq

/-- `SHA256(merkle_root || total_amount || channel || nonce)`. -/
def settlementMessage (channelKey : Pubkey) (merkleRoot : Bytes 32) (totalAmount nonce : UInt64) :
    Bytes 32 :=
  rt.sha256 (merkleRoot.val ++ u64Le totalAmount ++ channelKey.val ++ u64Le nonce)

/-- Whether some instruction before the current one is found for `party`. -/
def partyVerified (ixSysvar : InstructionsSysvar) (x : Expected) (party : VerifiedParty) : Prop :=
  ∃ ixIdx < ixSysvar.loadCurrentIndex, verifyEd25519ForPubkey ixSysvar ixIdx x = .ok party

instance (ixSysvar : InstructionsSysvar) (x : Expected) (party : VerifiedParty) :
    Decidable (partyVerified ixSysvar x party) :=
  inferInstanceAs (Decidable (∃ ixIdx < _, _))

/-- Defence 3 of `settle_batch`: both parties' signatures are found. -/
def settleBatchSignatures (ixSysvar : InstructionsSysvar) (x : Expected) : Except Error Unit := do
  require (ixSysvar.loadCurrentIndex ≥ 1) (.code .invalidTransactionLayout)
  require (partyVerified ixSysvar x .buyer) (.code .buyerSignatureNotFound)
  require (partyVerified ixSysvar x .merchant) (.code .merchantSignatureNotFound)

/-- Defence 4 of `optimistic_settle`: the merchant's signature is found. -/
def optimisticSettleSignatures (ixSysvar : InstructionsSysvar) (x : Expected) :
    Except Error Unit := do
  require (ixSysvar.loadCurrentIndex ≥ 1) (.code .invalidTransactionLayout)
  require (partyVerified ixSysvar x .merchant) (.code .merchantSignatureNotFound)

/-- The common body of `settle_batch` and `optimistic_settle`; `defences` are
the checks after the balance check, on the channel and the message hash. -/
def settleWith (optimistic : Bool) (defences : Channel → Bytes 32 → Except Error Unit)
    (ctx : BatchSettle) (merkleRoot : Bytes 32) (totalAmount : UInt64) (w : World) :
    Except Error World := do
  require ctx.merchant.isKey .accountNotSigner
  let channel ← loadChannel w ctx.channel
  let _ ← loadGlobalState w ctx.globalState
  require (ctx.globalState = .globalState channel.buyer channel.tokenMint) .constraintSeeds
  require (ctx.vault = .vault channel.buyer channel.tokenMint) .constraintSeeds
  require (channel.merchant = ctx.merchant) .constraintHasOne
  require (ctx.channel = .channel channel.buyer ctx.merchant channel.tokenMint) .constraintSeeds
  require (ctx.settlementEscrow = .settlement ctx.channel channel.nonce) .constraintSeeds
  let w ← initAccount rt w ctx.settlementEscrow ctx.merchant SettlementEscrow.SPACE
  let cumulative ← orErr (checkedAdd channel.settledAmount totalAmount)
    (.code .arithmeticOverflow)
  require (cumulative ≤ channel.spendingCap) (.code .spendingCapExceeded)
  require (totalAmount ≤ w.lamports ctx.vault) (.code .insufficientBalance)
  defences channel
    (settlementMessage rt (ctx.channel.bytes rt) merkleRoot totalAmount channel.nonce)
  let settledAmount ← orErr (checkedAdd channel.settledAmount totalAmount)
    (.code .arithmeticOverflow)
  let w ← orErr (w.moveLamports ctx.vault ctx.settlementEscrow totalAmount) .insufficientFunds
  let nonce ← orErr (checkedAdd channel.nonce 1) (.code .arithmeticOverflow)
  let w := w.setAccount ctx.channel (.channel { channel with settledAmount, nonce })
  pure (w.setAccount ctx.settlementEscrow (.settlementEscrow {
    channel := ctx.channel
    merchant := channel.merchant
    tokenMint := channel.tokenMint
    amount := totalAmount
    merkleRoot
    nonce := channel.nonce
    createdAt := w.now
    claimed := false
    disputed := false
    optimistic }))

def settleBatch (ixSysvar : InstructionsSysvar) (ctx : BatchSettle) (merkleRoot : Bytes 32)
    (totalAmount : UInt64) (buyerBatchSig merchantBatchSig : Bytes 64) (w : World) :
    Except Error World :=
  settleWith rt false (fun channel messageHash =>
      settleBatchSignatures ixSysvar {
        message := messageHash.val
        buyerSig := buyerBatchSig.val
        merchantSig := merchantBatchSig.val
        buyerPubkey := (channel.buyer.bytes rt).val
        merchantPubkey := (channel.merchant.bytes rt).val })
    ctx merkleRoot totalAmount w

/-- The dummy buyer key and signature of the source are all zeros. -/
def optimisticSettle (ixSysvar : InstructionsSysvar) (ctx : BatchSettle) (merkleRoot : Bytes 32)
    (totalAmount : UInt64) (merchantBatchSig : Bytes 64) (w : World) : Except Error World :=
  settleWith rt true (fun channel messageHash => do
      require (channel.challengePeriod > 0) (.code .challengePeriodRequired)
      optimisticSettleSignatures ixSysvar {
        message := messageHash.val
        buyerSig := (fill 64 0).val
        merchantSig := merchantBatchSig.val
        buyerPubkey := (fill 32 0).val
        merchantPubkey := (channel.merchant.bytes rt).val })
    ctx merkleRoot totalAmount w

/-! ### Release and dispute -/

/-- The accounts of the instructions on one escrow; `party` is the signing
merchant or buyer. -/
structure EscrowAccess where
  channel : Address
  settlementEscrow : Address
  party : Address
deriving DecidableEq

/-- The constraints of these four account structs: signer, `has_one = merchant`
where the merchant signs, the escrow's seeds, and its two flags. -/
def loadEscrow (ctx : EscrowAccess) (hasOneMerchant disputed : Bool) (wrongFlag : ErrorCode)
    (w : World) : Except Error (Channel × SettlementEscrow) := do
  require ctx.party.isKey .accountNotSigner
  let channel ← loadChannel w ctx.channel
  require (hasOneMerchant → channel.merchant = ctx.party) .constraintHasOne
  let escrow ← loadSettlementEscrow w ctx.settlementEscrow
  require (ctx.settlementEscrow = .settlement ctx.channel escrow.nonce) .constraintSeeds
  require (escrow.claimed = false) (.code .alreadyClaimed)
  require (escrow.disputed = disputed) (.code wrongFlag)
  pure (channel, escrow)

/-- Mark the escrow claimed and pay its amount to `ctx.party`. -/
def payOut (ctx : EscrowAccess) (escrow : SettlementEscrow) (w : World) : Except Error World :=
  orErr ((w.setAccount ctx.settlementEscrow
      (.settlementEscrow { escrow with claimed := true })).moveLamports
    ctx.settlementEscrow ctx.party escrow.amount) (.code .arithmeticOverflow)

def releaseSettlement (ctx : EscrowAccess) (w : World) : Except Error World := do
  let (channel, escrow) ← loadEscrow ctx true false .disputed w
  let deadline ← orErr (addI64 escrow.createdAt channel.challengePeriod) .panic
  require (w.now ≥ deadline) (.code .challengePeriodNotExpired)
  payOut ctx escrow w

def dispute (ctx : EscrowAccess) (w : World) : Except Error World := do
  let (channel, escrow) ← loadEscrow ctx false false .alreadyDisputed w
  let deadline ← orErr (addI64 escrow.createdAt channel.challengePeriod) .panic
  require (w.now < deadline) (.code .challengePeriodExpired)
  require (ctx.party = channel.buyer) (.code .notBuyer)
  pure (w.setAccount ctx.settlementEscrow (.settlementEscrow { escrow with disputed := true }))

def forceRelease (ctx : EscrowAccess) (w : World) : Except Error World := do
  let (channel, escrow) ← loadEscrow ctx true true .notDisputed w
  let deadline ← orErr (addI64 escrow.createdAt channel.disputePeriod) .panic
  require (w.now ≥ deadline) (.code .disputePeriodNotExpired)
  payOut ctx escrow w

structure FraudProof where
  voucherSeq : UInt64
  voucherAmount : UInt64
  buyerVoucherSig : Bytes 64
  siblingHashes : List (Bytes 32)
  siblingSums : List UInt64
deriving DecidableEq

def resolveDispute (ctx : EscrowAccess) (proof : FraudProof) (w : World) :
    Except Error World := do
  let (channel, escrow) ← loadEscrow ctx false true .notDisputed w
  require (ctx.party = channel.buyer) (.code .notBuyer)
  require (proof.siblingHashes.length = proof.siblingSums.length) (.code .invalidFraudProof)
  let leafHash := rt.sha256 (leafPreimage (ctx.channel.bytes rt) proof.voucherSeq
    proof.voucherAmount (channel.buyer.bytes rt) proof.buyerVoucherSig)
  let (rootMatches, _computedTotal) ← verifySumMerkleProof rt.sha256 leafHash
    proof.voucherAmount proof.siblingHashes proof.siblingSums escrow.merkleRoot
  require rootMatches (.code .invalidFraudProof)
  -- The one voucher is compared with the settled amount, not the computed total.
  require (proof.voucherAmount < escrow.amount) (.code .fraudNotProven)
  let settledAmount ← orErr (checkedSub channel.settledAmount escrow.amount)
    (.code .arithmeticOverflow)
  payOut ctx escrow (w.setAccount ctx.channel (.channel { channel with settledAmount }))

/-! ### Calls -/

inductive Call
  | initializeGlobal (ctx : InitializeGlobal)
  | initializeChannel (ctx : InitializeChannel) (spendingCap : UInt64)
      (challengePeriod disputePeriod : Int64)
  | updateSpendingCap (ctx : UpdateSpendingCap) (newSpendingCap : UInt64)
  | deposit (ctx : VaultAccess) (amount : UInt64)
  | settleBatch (ixSysvar : InstructionsSysvar) (ctx : BatchSettle) (merkleRoot : Bytes 32)
      (totalAmount : UInt64) (buyerBatchSig merchantBatchSig : Bytes 64)
  | optimisticSettle (ixSysvar : InstructionsSysvar) (ctx : BatchSettle) (merkleRoot : Bytes 32)
      (totalAmount : UInt64) (merchantBatchSig : Bytes 64)
  | releaseSettlement (ctx : EscrowAccess)
  | dispute (ctx : EscrowAccess)
  | forceRelease (ctx : EscrowAccess)
  | resolveDispute (ctx : EscrowAccess) (proof : FraudProof)
  | withdraw (ctx : VaultAccess) (amount : UInt64)
  /-- A System transfer that a wallet signs. -/
  | transfer (src dst : Address) (amount : UInt64)
  /-- The clock moves on. -/
  | tick (now : Int64)

def transfer (src dst : Address) (amount : UInt64) (w : World) : Except Error World := do
  require src.isKey .accountNotSigner
  orErr (w.moveLamports src dst amount) .insufficientFunds

def tick (now : Int64) (w : World) : Except Error World := do
  require (w.now ≤ now) .panic
  pure { w with now }

def exec : Call → World → Except Error World
  | .initializeGlobal ctx => initializeGlobal rt ctx
  | .initializeChannel ctx cap cp dp => initializeChannel rt ctx cap cp dp
  | .updateSpendingCap ctx cap => updateSpendingCap ctx cap
  | .deposit ctx amount => deposit ctx amount
  | .settleBatch ixs ctx root amount bsig msig => settleBatch rt ixs ctx root amount bsig msig
  | .optimisticSettle ixs ctx root amount msig => optimisticSettle rt ixs ctx root amount msig
  | .releaseSettlement ctx => releaseSettlement ctx
  | .dispute ctx => dispute ctx
  | .forceRelease ctx => forceRelease ctx
  | .resolveDispute ctx proof => resolveDispute rt ctx proof
  | .withdraw ctx amount => withdraw ctx amount
  | .transfer src dst amount => transfer src dst amount
  | .tick now => tick now

end Mb
