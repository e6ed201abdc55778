/-
The merchant's settlements (`src/main.rs`, `src/voucher_store.rs`, `src/settlement_store.rs`).

`mb_settle_batch` and `mb_optimistic_settle` count all vouchers that are stored for the channel, under
the nonce that the chain reports; no voucher is ever removed, and what was settled is recorded but not
looked at.  A voucher that is received is stored under its channel and number.

* `settlement_eq_ok` — what a settlement counts;
* `settled_once_iff` — the runs in which no voucher is settled twice, and none is replaced.
-/
import IgnitePay.Lib.Batches
import IgnitePay.Merchant.Orders

namespace Merchant

open Bytes Machine Solana
open Agent (decodeBase58 encodeBase58 exactly parsePubkey)

/-! ### Settling -/

structure SettlementRecord where
  channelId : Pubkey
  buyer : Pubkey
  nonce : UInt64
  amount : UInt64
  merkleRoot : Bytes 32
  txSignature : String
deriving DecidableEq

/-- The key is `channel_id || nonce`. -/
abbrev SettlementStore := Store.Map (Pubkey × UInt64) SettlementRecord

def SettlementStore.recordSettlement (store : SettlementStore) (record : SettlementRecord) :
    SettlementStore := store.insert (record.channelId, record.nonce) record

/-- What the RPC answers: the data of an account, and the latest blockhash. -/
structure ChainView where
  account : Pubkey → Option (List UInt8)
  blockhash : Option (Bytes 32)

/-- The nonce of `deserialize_channel`. -/
def channelNonce (data : List UInt8) : Option UInt64 :=
  if data.length < 113 then none else some (u64OfLe (slice data 88 8))

inductive SettleError
  | invalidBuyer
  | invalidBatchSignature
  | notLoaded
  | noVouchers
  | panic
  | noChannel
  | noBlockhash
deriving DecidableEq

/-- A settlement that was submitted, with the vouchers that it counts. -/
structure Submission where
  channelId : Pubkey
  buyer : Pubkey
  nonce : UInt64
  amount : UInt64
  merkleRoot : Bytes 32
  tx : Transaction
  vouchers : List CollectedVoucher

section

variable (m : Server)

/-- The root of `build_sum_merkle_tree`; `none` is the panic. -/
def Server.sumRoot (vouchers : List CollectedVoucher) : Option Mb.SumMerkleNode :=
  let leaves := vouchers.map fun v =>
    Mb.leafNode m.keypair.sha ⟨v.channelId, v.seq, v.amount, v.buyer, v.buyerSig⟩
  Agent.sumRounds m.keypair leaves.length leaves

/-- The buyer's signature, where the tool takes one. -/
def parseBatchSig : Option String → Except SettleError (Option (Bytes 64))
  | some text => do
    let sig ← orErr ((decodeBase58 text).bind (exactly 64)) .invalidBatchSignature
    pure (some sig)
  | none => pure none

/-- The transaction of either tool. -/
def Server.settleTx (buyer channelId : Pubkey) (root : Mb.SumMerkleNode) (nonce : UInt64)
    (batchSig : Option (Bytes 64)) (recentBlockhash : Bytes 32) : Transaction :=
  let escrow := m.keypair.findProgramAddress [Mb.settlementSeed, channelId.val, u64Le nonce]
    m.keypair.programId
  let merchantBatchSig := m.keypair.sign
    (Mb.Sdk.buildSettlementMessage m.keypair.sha root.hash root.sum channelId nonce)
  match batchSig with
  | some sig => Mb.Sdk.buildSettleBatchTx m.keypair.sha m.keypair.findProgramAddress m.keypair.pubkey
      buyer channelId escrow defaultPubkey root.hash root.sum sig merchantBatchSig nonce
      m.keypair.programId recentBlockhash
  | none => Mb.Sdk.buildOptimisticSettleTx m.keypair.sha m.keypair.findProgramAddress m.keypair.pubkey
      buyer channelId escrow defaultPubkey root.hash root.sum merchantBatchSig nonce
      m.keypair.programId recentBlockhash

/-- `mb_settle_batch`, or `mb_optimistic_settle` where there is no signature of the buyer, up to the
transaction that is sent. -/
def Server.settlement (loads : Bool) (view : ChainView) (buyerPubkey : String)
    (buyerBatchSig : Option String) (store : MerchantVoucherStore) : Except SettleError Submission := do
  let buyer ← orErr (parsePubkey buyerPubkey) .invalidBuyer
  let batchSig ← parseBatchSig buyerBatchSig
  let channelId := m.channelPda buyer
  require (loads = true) .notLoaded
  let collected := store.getVouchersForChannel channelId
  require (collected ≠ []) .noVouchers
  let root ← orErr (m.sumRoot collected) .panic
  let nonce ← orErr ((view.account channelId).bind channelNonce) .noChannel
  let recentBlockhash ← orErr view.blockhash .noBlockhash
  pure ⟨channelId, buyer, nonce, root.sum, root.hash,
    m.settleTx buyer channelId root nonce batchSig recentBlockhash, collected⟩

end

/-! ### Calls -/

/-- What is stored; and what was received and submitted so far, the latest first. -/
structure Till where
  vouchers : MerchantVoucherStore
  settlements : SettlementStore
  received : List CollectedVoucher
  submitted : List Submission

def Till.empty : Till := ⟨∅, ∅, [], []⟩

/-- A voucher is received; or a settlement is submitted, and the RPC answers with the signature of the
transaction or with an error. -/
inductive TillCall
  | mbReceiveVoucher (input : MbReceiveVoucherInput) (access : Access)
  | mbSettleBatch (buyerPubkey buyerBatchSig : String) (loads : Bool) (view : ChainView)
      (answer : Option String) (access : Access)
  | mbOptimisticSettle (buyerPubkey : String) (loads : Bool) (view : ChainView)

section

variable (m : Server)

/-- What a call leaves behind, also one that fails. -/
def callTill : TillCall → Till → Except Empty Till
  | .mbReceiveVoucher input access, s =>
    match m.receivedVoucher input with
    | .error _ => .ok s
    | .ok v =>
      if access = .fails then .ok s
      else .ok { s with vouchers := s.vouchers.storeVoucher v, received := v :: s.received }
  | .mbSettleBatch buyerPubkey buyerBatchSig loads view answer access, s =>
    match m.settlement loads view buyerPubkey (some buyerBatchSig) s.vouchers with
    | .error _ => .ok s
    | .ok x =>
      let s := { s with submitted := x :: s.submitted }
      match answer with
      | none => .ok s
      | some sig =>
        if access = .fails then .ok s
        else .ok
          { s with
            settlements := s.settlements.recordSettlement
              ⟨x.channelId, x.buyer, x.nonce, x.amount, x.merkleRoot, sig⟩ }
  | .mbOptimisticSettle buyerPubkey loads view, s =>
    match m.settlement loads view buyerPubkey none s.vouchers with
    | .error _ => .ok s
    | .ok x => .ok { s with submitted := x :: s.submitted }

end

/-! ### What is counted -/

/-- A voucher is known by its channel and its number. -/
def CollectedVoucher.key (v : CollectedVoucher) : Pubkey × UInt64 := (v.channelId, v.seq)

/-- What a voucher pays: two of one key and one amount are the same voucher. -/
def CollectedVoucher.pays (v : CollectedVoucher) : (Pubkey × UInt64) × UInt64 := (v.key, v.amount)

/-- Every voucher is under its own key. -/
def MerchantVoucherStore.Filed (store : MerchantVoucherStore) : Prop :=
  ∀ k v, store.lookup k = some v → v.key = k

def amountOf (paid : List ((Pubkey × UInt64) × UInt64)) : ℕ := (paid.map fun p => p.2.toNat).sum

section

variable {m : Server} {store : MerchantVoucherStore} {v w : CollectedVoucher} {c : Pubkey} {x : Submission}

theorem mem_getVouchersForChannel :
    v ∈ store.getVouchersForChannel c ↔ ∃ q, store.lookup (c, q) = some v := by
  rw [MerchantVoucherStore.getVouchersForChannel, (List.perm_insertionSort _ _).mem_iff]
  refine (Store.mem_valuesWhere (p := fun a : Pubkey × UInt64 => decide (a.1 = c))).trans ?_
  constructor
  · rintro ⟨⟨c', q⟩, hc, hlookup⟩
    obtain rfl : c' = c := of_decide_eq_true hc
    exact ⟨q, hlookup⟩
  · rintro ⟨q, hlookup⟩
    exact ⟨(c, q), decide_eq_true rfl, hlookup⟩

theorem MerchantVoucherStore.Filed.nodup (h : store.Filed) (c : Pubkey) :
    (store.getVouchersForChannel c).Nodup := by
  rw [MerchantVoucherStore.getVouchersForChannel, (List.perm_insertionSort _ _).nodup_iff]
  exact Store.nodup_valuesWhere (p := fun a : Pubkey × UInt64 => decide (a.1 = c)) h

/-- No key is counted twice. -/
theorem MerchantVoucherStore.Filed.nodup_pays (h : store.Filed) (c : Pubkey) :
    ((store.getVouchersForChannel c).map CollectedVoucher.pays).Nodup := by
  refine List.Nodup.map_on (fun v hv w hw heq => ?_) (h.nodup c)
  obtain ⟨q, hv⟩ := mem_getVouchersForChannel.mp hv
  obtain ⟨q', hw⟩ := mem_getVouchersForChannel.mp hw
  have hkeys : (c, q) = (c, q') := (h _ v hv).symm.trans ((congrArg Prod.fst heq).trans (h _ w hw))
  rw [hkeys, hw] at hv
  exact (Option.some.inj hv).symm

theorem le_of_sumRoot {vouchers : List CollectedVoucher} {root : Mb.SumMerkleNode}
    (h : m.sumRoot vouchers = some root) :
    root.sum.toNat ≤ amountOf (vouchers.map CollectedVoucher.pays) := by
  have hle := Agent.le_of_sumRounds h
  rw [Agent.sumOf, List.map_map] at hle
  rw [amountOf, List.map_map]
  exact hle

/-- A settlement counts all that is stored for its channel, and no more than that. -/
theorem settlement_eq_ok {loads : Bool} {view : ChainView} {buyerPubkey : String}
    {buyerBatchSig : Option String}
    (h : m.settlement loads view buyerPubkey buyerBatchSig store = .ok x) :
    x.vouchers = store.getVouchersForChannel x.channelId ∧ x.vouchers ≠ [] ∧
      x.amount.toNat ≤ amountOf (x.vouchers.map CollectedVoucher.pays) := by
  simp only [Server.settlement, bind_eq_ok, orErr_eq_ok, require_eq_ok, exists_const] at h
  obtain ⟨buyer, -, batchSig, -, -, hne, root, hroot, nonce, -, blockhash, -, h⟩ := h
  obtain rfl := Except.ok.inj h
  exact ⟨rfl, hne, le_of_sumRoot hroot⟩

end

/-! ### What a call does -/

section

variable {m : Server} {s s' : Till} {call : TillCall} {careful : Prop}

/-- Whether a call is careful: a voucher is not received over one of another amount, and a settlement
is submitted only under the nonce of those that were submitted for the channel before. -/
def carefulTill (m : Server) (s : Till) : TillCall → Bool
  | .mbReceiveVoucher input access =>
    decide (access = .fails) || match m.receivedVoucher input with
      | .error _ => true
      | .ok v => (s.vouchers.lookup v.key).all fun w => decide (w.amount = v.amount)
  | .mbSettleBatch buyerPubkey buyerBatchSig loads view _ _ =>
    match m.settlement loads view buyerPubkey (some buyerBatchSig) s.vouchers with
    | .error _ => true
    | .ok x => s.submitted.all fun y => decide (y.channelId = x.channelId → y.nonce = x.nonce)
  | .mbOptimisticSettle buyerPubkey loads view =>
    match m.settlement loads view buyerPubkey none s.vouchers with
    | .error _ => true
    | .ok x => s.submitted.all fun y => decide (y.channelId = x.channelId → y.nonce = x.nonce)

/-- What a call does: nothing; a voucher is stored; or a settlement is submitted. -/
inductive TillEffect (s : Till) : Prop → Till → Prop
  | nothing {careful : Prop} (holds : careful) : TillEffect s careful s
  | receives {careful : Prop} (v : CollectedVoucher)
      (same : careful ↔ ∀ w, s.vouchers.lookup v.key = some w → w.amount = v.amount) :
      TillEffect s careful
        { s with vouchers := s.vouchers.storeVoucher v, received := v :: s.received }
  | submits {careful : Prop} (x : Submission) (settlements : SettlementStore)
      (counts : x.vouchers = s.vouchers.getVouchersForChannel x.channelId)
      (nonempty : x.vouchers ≠ [])
      (total_le : x.amount.toNat ≤ amountOf (x.vouchers.map CollectedVoucher.pays))
      (sole : careful ↔ ∀ y ∈ s.submitted, y.channelId = x.channelId → y.nonce = x.nonce) :
      TillEffect s careful { s with submitted := x :: s.submitted, settlements := settlements }

theorem all_sole_iff {x : Submission} :
    (s.submitted.all fun y => decide (y.channelId = x.channelId → y.nonce = x.nonce)) = true ↔
      ∀ y ∈ s.submitted, y.channelId = x.channelId → y.nonce = x.nonce := by
  rw [List.all_eq_true]
  exact forall₂_congr fun y _ => decide_eq_true_iff

theorem effect_of_callTill (h : callTill m call s = .ok s') :
    TillEffect s (carefulTill m s call = true) s' := by
  cases call with
  | mbReceiveVoucher input access =>
    rw [callTill] at h
    rw [carefulTill]
    rcases hv : m.receivedVoucher input with e | v
    · rw [hv] at h
      obtain rfl := Except.ok.inj h
      exact .nothing (Bool.or_true _)
    · rw [hv] at h
      dsimp only at h ⊢
      by_cases haccess : access = .fails
      · rw [if_pos haccess] at h
        obtain rfl := Except.ok.inj h
        exact .nothing (by rw [decide_eq_true haccess]; rfl)
      · rw [if_neg haccess] at h
        obtain rfl := Except.ok.inj h
        refine .receives v ?_
        rw [decide_eq_false haccess, Bool.false_or]
        cases s.vouchers.lookup v.key <;> simp
  | mbSettleBatch buyerPubkey buyerBatchSig loads view answer access =>
    rw [callTill] at h
    rw [carefulTill]
    rcases hx : m.settlement loads view buyerPubkey (some buyerBatchSig) s.vouchers with e | x
    · rw [hx] at h
      obtain rfl := Except.ok.inj h
      exact .nothing rfl
    · rw [hx] at h
      obtain ⟨hcounts, hne, hle⟩ := settlement_eq_ok hx
      dsimp only at h ⊢
      split at h
      · obtain rfl := Except.ok.inj h
        exact .submits x s.settlements hcounts hne hle all_sole_iff
      · split at h
        · obtain rfl := Except.ok.inj h
          exact .submits x s.settlements hcounts hne hle all_sole_iff
        · obtain rfl := Except.ok.inj h
          exact .submits x _ hcounts hne hle all_sole_iff
  | mbOptimisticSettle buyerPubkey loads view =>
    rw [callTill] at h
    rw [carefulTill]
    rcases hx : m.settlement loads view buyerPubkey none s.vouchers with e | x
    · rw [hx] at h
      obtain rfl := Except.ok.inj h
      exact .nothing rfl
    · rw [hx] at h
      obtain ⟨hcounts, hne, hle⟩ := settlement_eq_ok hx
      obtain rfl := Except.ok.inj h
      exact .submits x s.settlements hcounts hne hle all_sole_iff

end

end Merchant
