/-
The ledger of the program and the store of the agent, as the agent's vouchers come and go.

The agent signs vouchers against what its global state has not allocated: a payment is checked
against the vouchers that are stored, `mb_sign_voucher` against nothing, and a withdrawal or a change
of a cap not against the vouchers either.  A payment is three sections: the vault is read, the vouchers
that are stored are counted, and the voucher is signed and stored; in between, anything else can happen.

* `paymentVoucher_eq_sections` — the sections one after the other are `try_mb_voucher_payment`;
* `Backed`, `RefusesFitting` — what is signed and not settled is within what is settleable; a payment
  that would be is refused;
* `keepsBacked` — what is asked of a call so that the one stays and the other does not happen.
-/
import IgnitePay.Agent.DoubleUse
import IgnitePay.Mb.Settleable

namespace Agent

open Bytes Machine Solana
open Mb (Address Runtime WellPlaced Genesis CapsCover settleable settleableChange allocated
  deposited)

/-! ### A payment in its sections -/

section

variable (b : Buyer)

/-- The merchant, and what is not allocated. -/
def readVault (getAccount : Pubkey → Option GlobalAmounts) (merchantDid : String) :
    Except VoucherError (Pubkey × UInt64) := do
  let merchant ← orErr (extractPubkeyFromDid merchantDid) .invalidMerchant
  let globalPda := Mb.Sdk.deriveGlobalStatePda b.findProgramAddress b.programId b.pubkey defaultPubkey
  let gs ← orErr (getAccount globalPda) .noGlobalState
  pure (merchant, saturatingSub gs.totalDeposited gs.totalAllocated)

/-- `reads`: whether the store can be read. -/
def checkOutstanding (reads : Bool) (available amount : UInt64) (store : VoucherStore) :
    Except VoucherError Unit :=
  require (saturatingAdd (if reads then store.totalOutstanding else 0) amount ≤ available)
    .vaultInsufficient

def nextVoucher (a : VoucherAccess) (merchant : Pubkey) (amount : UInt64) (store : VoucherStore) :
    Except VoucherError StoredVoucher := do
  let channelId := deriveChannelPda b merchant defaultPubkey
  let seq ← orErr (nextSeq b a store channelId) .panic
  pure (signVoucher b channelId merchant seq amount)

theorem paymentVoucher_eq_sections (a : VoucherAccess) (getAccount : Pubkey → Option GlobalAmounts)
    (merchantDid : String) (amount : UInt64) (store : VoucherStore) :
    paymentVoucher b a getAccount merchantDid amount store = (do
      let (merchant, available) ← readVault b getAccount merchantDid
      checkOutstanding a.outstanding available amount store
      nextVoucher b a merchant amount store) := by
  unfold paymentVoucher readVault
  rcases orErr (extractPubkeyFromDid merchantDid) VoucherError.invalidMerchant with e | merchant
  · rfl
  · show (orErr _ _ >>= _) = ((orErr _ _ >>= _) >>= _)
    rcases orErr (getAccount _) VoucherError.noGlobalState with e | gs
    · rfl
    · rfl

end

/-! ### The agent and the chain -/

/-- A voucher, and the mint of its channel. -/
structure Issued where
  tokenMint : Pubkey
  voucher : StoredVoucher
deriving DecidableEq

/-- The vouchers that a settlement counts. -/
structure CountedBatch where
  escrow : Address
  vouchers : List StoredVoucher

/-- How far a payment has come. -/
inductive PaymentStage
  | vaultRead (merchant : Pubkey) (available amount : UInt64)
  | cleared (merchant : Pubkey) (amount : UInt64)
deriving DecidableEq

/-- The ledger of the program and the store of the agent; what was signed so far, and what the
settlements count that no dispute has returned; the payments that are under way. -/
structure VoucherLedger where
  world : Mb.World
  store : VoucherStore
  issued : List Issued
  counted : List CountedBatch
  payments : List PaymentStage

def VoucherLedger.start (w : Mb.World) : VoucherLedger := ⟨w, ∅, [], [], []⟩

inductive LedgerCall
  /-- `reads`: whether the chain can be read. -/
  | readVault (reads : Bool) (merchantDid : String) (amount : UInt64)
  | checkOutstanding (reads : Bool) (merchant : Pubkey) (available amount : UInt64)
  | signPayment (a : VoucherAccess) (merchant : Pubkey) (amount : UInt64)
  | mbSignVoucher (a : VoucherAccess) (input : MbSignVoucherInput)
  /-- A call of the program, by the agent or by anyone else.  A settlement counts the vouchers of
  `batch`, where its root is that of their tree; a root that is of no tree counts none. -/
  | onChain (call : Mb.Call) (batch : List StoredVoucher)

section

variable (b : Buyer) (rt : Runtime)

def Buyer.address : Address := .key b.pubkey

def globalAmounts (w : Mb.World) : Option GlobalAmounts :=
  (w.globalStateAt (.globalState b.address (.key defaultPubkey))).map fun g =>
    ⟨g.totalDeposited, g.totalAllocated⟩

/-- The voucher is stored, and counts as signed. -/
def VoucherLedger.issue (a : VoucherAccess) (tokenMint : Pubkey) (v : StoredVoucher)
    (s : VoucherLedger) : VoucherLedger :=
  let after := (Agent.issue a v ⟨s.store, [], []⟩).2
  { s with store := after.store, issued := after.signed.map (Issued.mk tokenMint) ++ s.issued }

def makesUp (batch : List StoredVoucher) (call : Mb.Call) : Bool :=
  decide (batch = []) || call.settlement.any fun settled =>
    decide ((sumRoot b batch).map (·.hash) = some settled.2.2.1)

def withoutEscrow (escrow : Address) (counted : List CountedBatch) : List CountedBatch :=
  counted.filter fun x => decide (x.escrow ≠ escrow)

/-- A settlement that a dispute returns has paid nothing. -/
def recordBatch (batch : List StoredVoucher) (counted : List CountedBatch) :
    Mb.Call → List CountedBatch
  | .settleBatch _ ctx _ _ _ _ | .optimisticSettle _ ctx _ _ _ =>
    ⟨ctx.settlementEscrow, batch⟩ :: counted
  | .resolveDispute ctx _ => withoutEscrow ctx.settlementEscrow counted
  | _ => counted

def execLedger : LedgerCall → VoucherLedger → Except Unit VoucherLedger
  | .readVault reads merchantDid amount, s =>
    match readVault b (fun _ => if reads then globalAmounts b s.world else none) merchantDid with
    | .error _ => .ok s
    | .ok (merchant, available) =>
      .ok { s with payments := .vaultRead merchant available amount :: s.payments }
  | .checkOutstanding reads merchant available amount, s => do
    let stage := PaymentStage.vaultRead merchant available amount
    require (s.payments.any fun p => decide (p = stage)) ()
    let rest := s.payments.erase stage
    match checkOutstanding reads available amount s.store with
    | .error _ => pure { s with payments := rest }
    | .ok () => pure { s with payments := .cleared merchant amount :: rest }
  | .signPayment a merchant amount, s => do
    let stage := PaymentStage.cleared merchant amount
    require (s.payments.any fun p => decide (p = stage)) ()
    let s := { s with payments := s.payments.erase stage }
    match nextVoucher b a merchant amount s.store with
    | .error _ => pure s
    | .ok v => pure (s.issue a defaultPubkey v)
  | .mbSignVoucher a input, s =>
    match inputVoucher b input with
    | .error _ => .ok s
    | .ok v => .ok (s.issue a (resolveTokenMint input.tokenMint) v)
  | .onChain call batch, s => do
    require (makesUp b batch call) ()
    match Mb.exec rt call s.world with
    | .error _ => .error ()
    | .ok world => pure { s with world, counted := recordBatch batch s.counted call }

/-! ### What is to hold -/

/-- Whether a settlement on the channel of the voucher counts it. -/
def CountedBatch.pays (x : CountedBatch) (i : Issued) : Bool :=
  match x.escrow with
  | .settlement channel _ =>
    decide (channel = .channel b.address (.key i.voucher.merchant) (.key i.tokenMint)) &&
      x.vouchers.any fun v => decide (v = i.voucher)
  | _ => false

/-- The vouchers in a mint that no settlement has paid. -/
def unpaid (s : VoucherLedger) (tokenMint : Pubkey) : Finset Issued :=
  s.issued.toFinset.filter fun i => (decide (i.tokenMint = tokenMint) &&
    s.counted.all fun x => !x.pays b i) = true

def amountSum (vouchers : Finset Issued) : ℕ := ∑ i ∈ vouchers, i.voucher.amount.toNat

def owed (s : VoucherLedger) (tokenMint : Pubkey) : ℕ := amountSum (unpaid b s tokenMint)

/-- The vouchers in a mint are within what the buyer can still make settleable. -/
def Backed (s : VoucherLedger) : Prop :=
  ∀ tokenMint, (owed b s tokenMint : ℤ) ≤ settleable s.world.accounts b.address (.key tokenMint)

/-- One more amount keeps it. -/
def Fits (s : VoucherLedger) (tokenMint : Pubkey) (amount : UInt64) : Prop :=
  (owed b s tokenMint : ℤ) + amount.toNat ≤ settleable s.world.accounts b.address (.key tokenMint)

instance (s : VoucherLedger) (tokenMint : Pubkey) (amount : UInt64) :
    Decidable (Fits b s tokenMint amount) :=
  inferInstanceAs (Decidable (_ ≤ _))

/-- A payment ends without a voucher because of its amount, or because there is no global state, and
would have fitted. -/
def RefusesFitting (s : VoucherLedger) : LedgerCall → Prop
  | .readVault reads merchantDid amount =>
    reads = true ∧ (extractPubkeyFromDid merchantDid).isSome = true ∧
      (globalAmounts b s.world).isNone = true ∧ Fits b s defaultPubkey amount
  | .checkOutstanding reads _ available amount =>
    (checkOutstanding reads available amount s.store).toOption.isNone = true ∧
      Fits b s defaultPubkey amount
  | _ => False

instance (s : VoucherLedger) (call : LedgerCall) : Decidable (RefusesFitting b s call) :=
  match call with
  | .readVault .. => inferInstanceAs (Decidable (_ ∧ _ ∧ _ ∧ _))
  | .checkOutstanding .. => inferInstanceAs (Decidable (_ ∧ _))
  | .signPayment .. => inferInstanceAs (Decidable False)
  | .mbSignVoucher .. => inferInstanceAs (Decidable False)
  | .onChain .. => inferInstanceAs (Decidable False)

/-! ### When it holds -/

/-- The mint, for a global state or a channel of the buyer. -/
def Buyer.mintOf : Address → Option Pubkey
  | .globalState buyer (.key tokenMint) => if buyer = b.address then some tokenMint else none
  | .channel buyer _ (.key tokenMint) => if buyer = b.address then some tokenMint else none
  | _ => none

def storedSum (store : VoucherStore) : ℕ := amountOf (Store.values store)

/-- What the check counts, as a number. -/
def countedSum (reads : Bool) (store : VoucherStore) : ℕ := if reads then storedSum store else 0

/-- After a dispute has returned a settlement. -/
def VoucherLedger.returned (s : VoucherLedger) (escrow : Address) : VoucherLedger :=
  { s with counted := withoutEscrow escrow s.counted }

/-- A settlement takes no more than its vouchers that are not paid yet. -/
def settlesOwed (s : VoucherLedger) (ctx : Mb.BatchSettle) (batch : List StoredVoucher)
    (totalAmount : UInt64) : Prop :=
  ∀ tokenMint ∈ b.mintOf ctx.channel, totalAmount.toNat ≤
    amountSum ((unpaid b s tokenMint).filter fun i => (⟨ctx.settlementEscrow, batch⟩ :
      CountedBatch).pays b i = true)

/-- A withdrawal, a lowered cap and a returned settlement leave enough for what is owed; a cap is
raised from the global state of its own mint, and not lowered below what is settled. -/
def keepsSettleable (s : VoucherLedger) (batch : List StoredVoucher) : Mb.Call → Prop
  | .withdraw ctx amount => ∀ tokenMint ∈ b.mintOf ctx.globalState, Fits b s tokenMint amount
  | .updateSpendingCap ctx cap => ∀ c ∈ s.world.channelAt ctx.channel, c.buyer = b.address →
      c.settledAmount.toNat ≤ cap.toNat ∧
      (c.spendingCap.toNat < cap.toNat → ctx.globalState = .globalState c.buyer c.tokenMint) ∧
      ∀ tokenMint ∈ b.mintOf ctx.channel,
        (owed b s tokenMint : ℤ) + (c.spendingCap.toNat - cap.toNat : ℕ)
          ≤ settleable s.world.accounts b.address (.key tokenMint)
  | .settleBatch _ ctx _ totalAmount _ _ | .optimisticSettle _ ctx _ totalAmount _ =>
    settlesOwed b s ctx batch totalAmount
  | .resolveDispute ctx _ => ∀ e ∈ s.world.escrowAt ctx.settlementEscrow,
      ∀ tokenMint ∈ b.mintOf ctx.channel,
        (owed b (s.returned ctx.settlementEscrow) tokenMint : ℤ)
          ≤ settleable s.world.accounts b.address (.key tokenMint) + e.amount.toNat
  | _ => True

/-- A payment of zero has a global state; no payment falls between what the check leaves and what fits;
a payment is signed under a free number, while the check still holds; and a voucher that
`mb_sign_voucher` signs fits and replaces no other. -/
def keepsBacked (s : VoucherLedger) : LedgerCall → Prop
  | .readVault _ _ amount => amount ≠ 0 ∨ (globalAmounts b s.world).isSome = true
  | .checkOutstanding reads _ available amount =>
    ¬ (available.toNat < min (countedSum reads s.store + amount.toNat) (2 ^ 64 - 1) ∧
      Fits b s defaultPubkey amount)
  | .signPayment a merchant amount => a.stored = true →
      reuses b a s.store (deriveChannelPda b merchant defaultPubkey) = false ∧
      (storedSum s.store : ℤ) + amount.toNat ≤
        (deposited s.world.accounts b.address (.key defaultPubkey) : ℤ)
          - allocated s.world.accounts b.address (.key defaultPubkey)
  | .mbSignVoucher a input => a.stored = true → ∀ v ∈ (inputVoucher b input).toOption,
      (∀ w ∈ s.store.lookup (v.channelId, v.seq), w = v) ∧
      ((s.issued.any fun i => decide (i = ⟨resolveTokenMint input.tokenMint, v⟩)) = true ∨
        Fits b s (resolveTokenMint input.tokenMint) v.amount)
  | .onChain call batch => keepsSettleable b s batch call

instance (s : VoucherLedger) (ctx : Mb.BatchSettle) (batch : List StoredVoucher)
    (totalAmount : UInt64) : Decidable (settlesOwed b s ctx batch totalAmount) :=
  inferInstanceAs (Decidable (∀ tokenMint ∈ b.mintOf ctx.channel, _ ≤ _))

instance (s : VoucherLedger) (batch : List StoredVoucher) (call : Mb.Call) :
    Decidable (keepsSettleable b s batch call) :=
  match call with
  | .withdraw ctx _ => inferInstanceAs (Decidable (∀ tokenMint ∈ b.mintOf ctx.globalState, Fits ..))
  | .updateSpendingCap ctx _ => inferInstanceAs (Decidable (∀ c ∈ s.world.channelAt ctx.channel,
      c.buyer = b.address → _ ≤ _ ∧ (_ < _ → _ = _) ∧ ∀ tokenMint ∈ b.mintOf ctx.channel, _ ≤ _))
  | .settleBatch .. => inferInstanceAs (Decidable (settlesOwed ..))
  | .optimisticSettle .. => inferInstanceAs (Decidable (settlesOwed ..))
  | .resolveDispute ctx _ => inferInstanceAs (Decidable (∀ e ∈ s.world.escrowAt ctx.settlementEscrow,
      ∀ tokenMint ∈ b.mintOf ctx.channel, _ ≤ _))
  | .initializeGlobal _ | .initializeChannel .. | .deposit .. | .releaseSettlement _ | .dispute _
  | .forceRelease _ | .transfer .. | .tick _ => inferInstanceAs (Decidable True)

instance (s : VoucherLedger) (call : LedgerCall) : Decidable (keepsBacked b s call) :=
  match call with
  | .readVault .. => inferInstanceAs (Decidable (_ ∨ _))
  | .checkOutstanding .. => inferInstanceAs (Decidable (¬ (_ ∧ _)))
  | .signPayment .. => inferInstanceAs (Decidable (_ → _ ∧ _))
  | .mbSignVoucher _ input => inferInstanceAs (Decidable (_ → ∀ v ∈ (inputVoucher b input).toOption,
      (∀ w ∈ s.store.lookup (v.channelId, v.seq), w = v) ∧ (_ ∨ Fits ..)))
  | .onChain .. => inferInstanceAs (Decidable (keepsSettleable ..))

end

end Agent
