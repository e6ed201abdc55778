/-
The merchant's server (`ignite-pay-merchant-mcp`): its settings, the orders that it keeps, and the
vouchers that it collects (`src/payment.rs`, `src/voucher_store.rs`, `src/main.rs`).
-/
import IgnitePay.Agent.Base58
import IgnitePay.Agent.Vouchers
import IgnitePay.Lib.Text

namespace Merchant

open Bytes Machine Solana
open Agent (decodeBase58 encodeBase58 exactly parsePubkey)

structure ProductConfig where
  id : String
  name : String
  price : UInt64

structure Server where
  /-- `mb_merchant_keypair`, and the build it is. -/
  keypair : Agent.Buyer
  /-- `signing::verify_signature`, of a digest. -/
  verifySignature : Pubkey → Bytes 32 → Bytes 64 → Bool
  did : String
  merchantWallet : String
  products : List ProductConfig

/-! ### Orders -/

inductive OrderStatus
  | pending
  | confirmed
  | failed
  | expired
deriving DecidableEq

structure PaymentOrder where
  orderId : String
  merchantDid : String
  amount : UInt64
  description : String
  hubEndpoint : String
  status : OrderStatus
  createdAt : ℤ
  confirmedAt : Option ℤ
  channelId : Option String
  leafIndex : Option UInt32
  sequence : Option UInt64
deriving DecidableEq

abbrev PaymentOrderStore := Store.Map String PaymentOrder

/-- An order is kept under its id. -/
def PaymentOrderStore.saveOrder (orders : PaymentOrderStore) (order : PaymentOrder) :
    PaymentOrderStore := orders.insert order.orderId order

/-! ### Vouchers -/

structure CollectedVoucher where
  channelId : Pubkey
  buyer : Pubkey
  seq : UInt64
  amount : UInt64
  buyerSig : Bytes 64
deriving DecidableEq

/-- The key is `channel_id || seq`. -/
abbrev MerchantVoucherStore := Store.Map (Pubkey × UInt64) CollectedVoucher

namespace MerchantVoucherStore

def storeVoucher (store : MerchantVoucherStore) (v : CollectedVoucher) : MerchantVoucherStore :=
  store.insert (v.channelId, v.seq) v

/-- Sorted by `seq`. -/
def getVouchersForChannel (store : MerchantVoucherStore) (channelId : Pubkey) :
    List CollectedVoucher :=
  ((store.entries.filter fun e => decide (e.1.1 = channelId)).map Sigma.snd).insertionSort
    fun v w => v.seq ≤ w.seq

end MerchantVoucherStore

/-! ### A voucher that is received -/

structure MbReceiveVoucherInput where
  buyerPubkey : String
  seq : UInt64
  amount : UInt64
  buyerSig : String
  orderId : Option String

inductive ReceiveError
  | invalidBuyer
  | invalidSignature
  | notVerified
deriving DecidableEq

/-- `to_be_bytes`. -/
def u64Be (x : UInt64) : List UInt8 := (u64Le x).reverse

namespace Server

variable (m : Server)

/-- `derive_channel_pda`, for a buyer and this merchant. -/
def channelPda (buyer : Pubkey) : Pubkey :=
  m.keypair.findProgramAddress
    [Mb.channelSeed, buyer.val, m.keypair.pubkey.val, defaultPubkey.val] m.keypair.programId

/-- What the merchant takes the buyer to have signed. -/
def voucherHash (channelId : Pubkey) (seq amount : UInt64) : Bytes 32 :=
  m.keypair.sha (channelId.val ++ u64Be seq ++ u64Be amount)

/-- The checks of `mb_receive_voucher`, and the voucher that it stores. -/
def receivedVoucher (input : MbReceiveVoucherInput) : Except ReceiveError CollectedVoucher := do
  let buyer ← orErr (parsePubkey input.buyerPubkey) .invalidBuyer
  let buyerSig ← orErr ((decodeBase58 input.buyerSig).bind (exactly 64)) .invalidSignature
  let channelId := m.channelPda buyer
  require (m.verifySignature buyer (m.voucherHash channelId input.seq input.amount) buyerSig = true)
    .notVerified
  pure ⟨channelId, buyer, input.seq, input.amount, buyerSig⟩

theorem receivedVoucher_eq_ok {input : MbReceiveVoucherInput} {v : CollectedVoucher} :
    m.receivedVoucher input = .ok v ↔
      parsePubkey input.buyerPubkey = some v.buyer ∧
        (decodeBase58 input.buyerSig).bind (exactly 64) = some v.buyerSig ∧
        v.channelId = m.channelPda v.buyer ∧ v.seq = input.seq ∧ v.amount = input.amount ∧
        m.verifySignature v.buyer (m.voucherHash v.channelId v.seq v.amount) v.buyerSig = true := by
  simp only [receivedVoucher, bind_eq_ok, orErr_eq_ok, require_eq_ok, exists_const]
  constructor
  · rintro ⟨buyer, hbuyer, buyerSig, hsig, hverified, h⟩
    obtain rfl := Except.ok.inj h
    exact ⟨hbuyer, hsig, rfl, rfl, rfl, hverified⟩
  · obtain ⟨channelId, buyer, seq, amount, buyerSig⟩ := v
    rintro ⟨hbuyer, hsig, hchannel, hseq, hamount, hverified⟩
    obtain rfl : channelId = m.channelPda buyer := hchannel
    obtain rfl : seq = input.seq := hseq
    obtain rfl : amount = input.amount := hamount
    exact ⟨buyer, hbuyer, buyerSig, hsig, hverified, rfl⟩

end Server

/-! ### The text of a proof -/

/-- What the lines of a proof by voucher say; a later line replaces an earlier one. -/
structure ProofFields where
  channel : String := ""
  seq : Option UInt64 := none
  amount : Option UInt64 := none
  signature : String := ""
  msgHash : String := ""
deriving DecidableEq

def ProofFields.readLine (f : ProofFields) (line : List Char) : ProofFields :=
  let line := Text.trim line
  if let some v := "Channel: ".toList.isPrefixOf? line then { f with channel := String.ofList v }
  else if let some v := "Seq: ".toList.isPrefixOf? line then { f with seq := Text.parseU64 v }
  else if let some v := "Amount: ".toList.isPrefixOf? line then { f with amount := Text.parseU64 v }
  else if let some v := "Signature: ".toList.isPrefixOf? line then
    { f with signature := String.ofList v }
  else if let some v := "Message hash: ".toList.isPrefixOf? line then
    { f with msgHash := String.ofList v }
  else f

def proofFields (proof : String) : ProofFields := (Text.lines proof.toList).foldl ProofFields.readLine {}

inductive ProofError
  | noAmount
  | amountTooLow (voucherAmount orderAmount : UInt64)
  | invalidChannel
  | hashMismatch (computed provided : String)
  | invalidSignature
deriving DecidableEq

/-- The voucher that an order is confirmed with: the text of the channel is stored with the order. -/
structure ProvenVoucher where
  channel : String
  channelId : Pubkey
  seq : UInt64
  amount : UInt64
  /-- Empty, or the text of 64 bytes. -/
  signature : String
deriving DecidableEq

/-- The checks of `verify_voucher_proof`. -/
def Server.verifyVoucherProof (m : Server) (proof : String) (order : PaymentOrder) :
    Except ProofError ProvenVoucher := do
  let f := proofFields proof
  let voucherAmount ← orErr f.amount .noAmount
  require (order.amount ≤ voucherAmount) (.amountTooLow voucherAmount order.amount)
  let channelId ← orErr (parsePubkey f.channel) .invalidChannel
  let seq := f.seq.getD 0
  let computedHash := hexEncode (m.voucherHash channelId seq voucherAmount).val
  require (f.msgHash = "" ∨ computedHash = f.msgHash) (.hashMismatch computedHash f.msgHash)
  -- Only the form of a signature is checked, and only if there is one.
  require (f.signature = "" ∨ ((decodeBase58 f.signature).bind (exactly 64)).isSome = true)
    .invalidSignature
  pure ⟨f.channel, channelId, seq, voucherAmount, f.signature⟩

end Merchant
