/-
The payer's vouchers (`ignite-pay-mcp/src/voucher_store.rs`, `src/main.rs`; `ignite-pay-mb/sdk`).

A payment by voucher takes the number after the last one that is stored for the channel, the tool
`mb_sign_voucher` the number that it is told; a voucher is stored under its channel and its number.
`mb_sign_settlement` counts all vouchers that are stored for the channel, and signs if the root and
the total that it is given are theirs.

* `mem_getVouchersForChannel` — what is counted is what is stored;
* `nextSeq_taken_iff` — when the number of a payment is one that is stored already;
* `le_of_sumRoot` — the total of a tree is at most the sum of what it counts.
-/
import IgnitePay.Agent.Identity
import IgnitePay.Lib.Run
import IgnitePay.Lib.Store
import IgnitePay.Mb.Sdk

namespace Agent

open Bytes Machine Solana
open Mb (SumMerkleNode sortPair hashInternal leafNode)

/-! ### The store -/

structure StoredVoucher where
  channelId : Pubkey
  merchant : Pubkey
  seq : UInt64
  amount : UInt64
  buyerSig : Bytes 64
deriving DecidableEq

/-- The key is `channel_id || seq`. -/
abbrev VoucherStore := Store.Map (Pubkey × UInt64) StoredVoucher

namespace VoucherStore

def storeVoucher (store : VoucherStore) (v : StoredVoucher) : VoucherStore :=
  store.insert (v.channelId, v.seq) v

/-- Sorted by `seq`. -/
def getVouchersForChannel (store : VoucherStore) (channelId : Pubkey) : List StoredVoucher :=
  ((store.entries.filter fun e => decide (e.1.1 = channelId)).map Sigma.snd).insertionSort
    fun v w => v.seq ≤ w.seq

/-- The sum over all channels. -/
def totalOutstanding (store : VoucherStore) : UInt64 :=
  (Store.values store).foldl (fun total v => saturatingAdd total v.amount) 0

end VoucherStore

/-! ### The agent -/

/-- What the agent signs vouchers with, and the build it is. -/
structure Buyer where
  sha : List UInt8 → Bytes 32
  findProgramAddress : List (List UInt8) → Pubkey → Pubkey
  /-- The signature of the buyer's key. -/
  sign : Bytes 32 → Bytes 64
  pubkey : Pubkey
  programId : Pubkey
  overflowChecks : Bool

/-- Which accesses to the store go through.  A voucher that is stored may fail to be flushed. -/
structure VoucherAccess where
  outstanding : Bool
  vouchers : Bool
  stored : Bool
  flushed : Bool

/-- What is read of the global state on the chain. -/
structure GlobalAmounts where
  totalDeposited : UInt64
  totalAllocated : UInt64

inductive VoucherError
  | invalidMerchant
  | noGlobalState
  | vaultInsufficient
  | invalidMerkleRoot
  | notLoaded
  | noVouchers
  | rootMismatch
  | totalMismatch
  | notStored
  | panic
deriving DecidableEq

/-- A settlement that was signed, with the vouchers that it counts. -/
structure BatchSettlement where
  channelId : Pubkey
  merkleRoot : Bytes 32
  totalAmount : UInt64
  batchNonce : UInt64
  buyerSig : Bytes 64
  vouchers : List StoredVoucher

/-- The store, and what was signed so far, the latest first.  A voucher that could not be stored is
given to no one, and does not count as signed. -/
structure Vouchers where
  store : VoucherStore
  signed : List StoredVoucher
  settlements : List BatchSettlement

section

variable (b : Buyer)

def deriveChannelPda (merchant tokenMint : Pubkey) : Pubkey :=
  b.findProgramAddress [Mb.channelSeed, b.pubkey.val, merchant.val, tokenMint.val] b.programId

/-- `sign_voucher`, and the record of the voucher. -/
def signVoucher (channelId merchant : Pubkey) (seq amount : UInt64) : StoredVoucher where
  channelId := channelId
  merchant := merchant
  seq := seq
  amount := amount
  buyerSig := b.sign (b.sha (channelId.val ++ u64Le seq ++ u64Le amount))

/-- The voucher is stored, and given out. -/
def issue (a : VoucherAccess) (v : StoredVoucher) (s : Vouchers) :
    Except VoucherError StoredVoucher × Vouchers :=
  if a.stored = false then (.error .notStored, s)
  else
    (if a.flushed = false then .error .notStored else .ok v,
      { s with store := s.store.storeVoucher v, signed := v :: s.signed })

/-! ### `try_mb_voucher_payment` -/

/-- One after the last that is stored; if the vouchers cannot be read, 1. -/
def nextSeq (a : VoucherAccess) (store : VoucherStore) (channelId : Pubkey) : Option UInt64 :=
  if a.vouchers = false then some 1
  else match (store.getVouchersForChannel channelId).getLast? with
    | some last => addU64 b.overflowChecks last.seq 1
    | none => some 1

/-- The voucher for a payment.  For the caller every error is `None`, but for the panic. -/
def paymentVoucher (a : VoucherAccess) (getAccount : Pubkey → Option GlobalAmounts)
    (merchantDid : String) (amount : UInt64) (store : VoucherStore) :
    Except VoucherError StoredVoucher := do
  let merchant ← orErr (extractPubkeyFromDid merchantDid) .invalidMerchant
  let globalPda := Mb.Sdk.deriveGlobalStatePda b.findProgramAddress b.programId b.pubkey defaultPubkey
  let gs ← orErr (getAccount globalPda) .noGlobalState
  let vaultAvailable := saturatingSub gs.totalDeposited gs.totalAllocated
  -- What cannot be read counts as zero.
  let outstanding := if a.outstanding then store.totalOutstanding else 0
  require (saturatingAdd outstanding amount ≤ vaultAvailable) .vaultInsufficient
  let channelId := deriveChannelPda b merchant defaultPubkey
  let seq ← orErr (nextSeq b a store channelId) .panic
  pure (signVoucher b channelId merchant seq amount)

def tryMbVoucherPayment (a : VoucherAccess) (getAccount : Pubkey → Option GlobalAmounts)
    (merchantDid : String) (amount : UInt64) (s : Vouchers) :
    Except VoucherError StoredVoucher × Vouchers :=
  match paymentVoucher b a getAccount merchantDid amount s.store with
  | .error e => (.error e, s)
  | .ok v => issue a v s

/-! ### `mb_sign_voucher` -/

structure MbSignVoucherInput where
  merchantPubkey : String
  seq : UInt64
  amount : UInt64
  tokenMint : Option String

def resolveTokenMint (tokenMint : Option String) : Pubkey :=
  ((tokenMint.filter fun s => s ≠ "").bind parsePubkey).getD defaultPubkey

/-- The voucher that is asked for. -/
def inputVoucher (input : MbSignVoucherInput) : Except VoucherError StoredVoucher := do
  let merchant ← orErr (parsePubkey input.merchantPubkey) .invalidMerchant
  let channelId := deriveChannelPda b merchant (resolveTokenMint input.tokenMint)
  pure (signVoucher b channelId merchant input.seq input.amount)

def mbSignVoucher (a : VoucherAccess) (input : MbSignVoucherInput) (s : Vouchers) :
    Except VoucherError StoredVoucher × Vouchers :=
  match inputVoucher b input with
  | .error e => (.error e, s)
  | .ok v => issue a v s

/-! ### `mb_sign_settlement` -/

structure MbSignSettlementInput where
  merchantPubkey : String
  merkleRoot : String
  totalAmount : UInt64
  batchNonce : UInt64
  tokenMint : Option String

/-- A round of `build_sum_merkle_tree`, in a build with or without overflow checks. -/
def sumLevel : List SumMerkleNode → Option (List SumMerkleNode)
  | n :: m :: rest => do
    let (lo, hi) := sortPair n m
    let sum ← addU64 b.overflowChecks lo.sum hi.sum
    let next ← sumLevel rest
    some (⟨hashInternal b.sha lo hi, sum⟩ :: next)
  | [n] => some [n]
  | [] => some []

/-- Its loop, up to the root: the number of leaves bounds the number of rounds. -/
def sumRounds : ℕ → List SumMerkleNode → Option SumMerkleNode
  | 0, level => level.head?
  | fuel + 1, level =>
    if level.length > 1 then (sumLevel b level).bind (sumRounds fuel) else level.head?

/-- The root of the tree over the vouchers; `none` is the panic. -/
def sumRoot (vouchers : List StoredVoucher) : Option SumMerkleNode :=
  let leaves := vouchers.map fun v =>
    leafNode b.sha ⟨v.channelId, v.seq, v.amount, b.pubkey, v.buyerSig⟩
  sumRounds b leaves.length leaves

/-- The settlement that is asked for, over all the vouchers that are stored for the channel. -/
def inputSettlement (a : VoucherAccess) (input : MbSignSettlementInput) (store : VoucherStore) :
    Except VoucherError BatchSettlement := do
  let merchant ← orErr (parsePubkey input.merchantPubkey) .invalidMerchant
  let merkleRoot ← orErr ((decodeBase58 input.merkleRoot).bind (exactly 32)) .invalidMerkleRoot
  let channelId := deriveChannelPda b merchant (resolveTokenMint input.tokenMint)
  require (a.vouchers = true) .notLoaded
  let vouchers := store.getVouchersForChannel channelId
  require (vouchers ≠ []) .noVouchers
  let root ← orErr (sumRoot b vouchers) .panic
  require (root.hash = merkleRoot) .rootMismatch
  require (root.sum = input.totalAmount) .totalMismatch
  let buyerSig := b.sign (Mb.Sdk.buildSettlementMessage b.sha merkleRoot input.totalAmount channelId
    input.batchNonce)
  pure ⟨channelId, merkleRoot, input.totalAmount, input.batchNonce, buyerSig, vouchers⟩

def mbSignSettlement (a : VoucherAccess) (input : MbSignSettlementInput) (s : Vouchers) :
    Except VoucherError BatchSettlement × Vouchers :=
  match inputSettlement b a input s.store with
  | .error e => (.error e, s)
  | .ok settlement => (.ok settlement, { s with settlements := settlement :: s.settlements })

/-! ### Calls -/

inductive VoucherCall
  | tryMbVoucherPayment (a : VoucherAccess) (getAccount : Pubkey → Option GlobalAmounts)
      (merchantDid : String) (amount : UInt64)
  | mbSignVoucher (a : VoucherAccess) (input : MbSignVoucherInput)
  | mbSignSettlement (a : VoucherAccess) (input : MbSignSettlementInput)

/-- What a call leaves behind, also one that fails. -/
def callVouchers : VoucherCall → Vouchers → Except Empty Vouchers
  | .tryMbVoucherPayment a getAccount merchantDid amount, s =>
    .ok (tryMbVoucherPayment b a getAccount merchantDid amount s).2
  | .mbSignVoucher a input, s => .ok (mbSignVoucher b a input s).2
  | .mbSignSettlement a input, s => .ok (mbSignSettlement b a input s).2

end

/-! ### What is stored -/

/-- Every voucher is under its own key. -/
def VoucherStore.Filed (store : VoucherStore) : Prop :=
  ∀ c q v, store.lookup (c, q) = some v → v.channelId = c ∧ v.seq = q

section

variable {store : VoucherStore} {v last : StoredVoucher} {c : Pubkey} {q : UInt64}

theorem mem_getVouchersForChannel :
    v ∈ store.getVouchersForChannel c ↔ ∃ q, store.lookup (c, q) = some v := by
  rw [VoucherStore.getVouchersForChannel, (List.perm_insertionSort _ _).mem_iff]
  refine (Store.mem_valuesWhere (p := fun a : Pubkey × UInt64 => decide (a.1 = c))).trans ?_
  constructor
  · rintro ⟨⟨c', q⟩, hc, hlookup⟩
    obtain rfl : c' = c := of_decide_eq_true hc
    exact ⟨q, hlookup⟩
  · rintro ⟨q, hlookup⟩
    exact ⟨(c, q), decide_eq_true rfl, hlookup⟩

/-- No voucher is counted twice. -/
theorem VoucherStore.Filed.nodup (h : store.Filed) (c : Pubkey) :
    (store.getVouchersForChannel c).Nodup := by
  rw [VoucherStore.getVouchersForChannel, (List.perm_insertionSort _ _).nodup_iff]
  have hkey : ∀ a v, store.lookup a = some v → (v.channelId, v.seq) = a := by
    rintro ⟨c', q⟩ v hlookup
    obtain ⟨rfl, rfl⟩ := h c' q v hlookup
    rfl
  exact Store.nodup_valuesWhere (p := fun a : Pubkey × UInt64 => decide (a.1 = c)) hkey

/-- The last one has the highest number. -/
theorem le_last (hlast : (store.getVouchersForChannel c).getLast? = some last)
    (hv : v ∈ store.getVouchersForChannel c) : v.seq.toNat ≤ last.seq.toNat := by
  obtain ⟨rest, hrest⟩ := List.getLast?_eq_some_iff.mp hlast
  have hsorted : (store.getVouchersForChannel c).Pairwise fun v w => v.seq ≤ w.seq :=
    List.pairwise_insertionSort _ _
  rw [hrest] at hsorted hv
  rcases List.mem_append.mp hv with hv | hv
  · exact UInt64.le_iff_toNat_le.mp
      ((List.pairwise_append.mp hsorted).2.2 v hv last List.mem_cons_self)
  · rw [List.mem_singleton.mp hv]

/-- Whether the number of a payment is one that is stored: where the vouchers cannot be read, 1 may be
there; otherwise only a number that starts again at 0 can be. -/
def reuses (b : Buyer) (a : VoucherAccess) (store : VoucherStore) (c : Pubkey) : Bool :=
  if a.vouchers = false then (store.lookup (c, 1)).isSome
  else !b.overflowChecks && (store.lookup (c, UInt64.ofNat (2 ^ 64 - 1))).isSome &&
    (store.lookup (c, 0)).isSome

theorem nextSeq_taken_iff {b : Buyer} {a : VoucherAccess} (hfiled : store.Filed)
    (h : nextSeq b a store c = some q) :
    (store.lookup (c, q)).isSome = true ↔ reuses b a store c = true := by
  rw [nextSeq] at h
  by_cases hread : a.vouchers = false
  · rw [if_pos hread] at h
    obtain rfl := Option.some.inj h
    rw [reuses, if_pos hread]
  · rw [if_neg hread] at h
    rw [reuses, if_neg hread]
    rcases hlast : (store.getVouchersForChannel c).getLast? with _ | last
    · have hnone : ∀ q, store.lookup (c, q) = none := by
        intro q
        by_contra hsome
        obtain ⟨v, hv⟩ := Option.ne_none_iff_exists'.mp hsome
        have hmem := mem_getVouchersForChannel.mpr ⟨q, hv⟩
        rw [List.getLast?_eq_none_iff.mp hlast] at hmem
        exact absurd hmem (by simp)
      simp [hnone]
    · -- Everything that is stored has a number up to that of the last.
      have hle : ∀ q, (store.lookup (c, q)).isSome = true → q.toNat ≤ last.seq.toNat := by
        intro q hsome
        obtain ⟨v, hv⟩ := Option.isSome_iff_exists.mp hsome
        rw [← (hfiled c q v hv).2]
        exact le_last hlast (mem_getVouchersForChannel.mpr ⟨q, hv⟩)
      obtain ⟨q', hq'⟩ := mem_getVouchersForChannel.mp (List.mem_of_getLast? hlast)
      obtain rfl := (hfiled c q' last hq').2
      have hmax : (UInt64.ofNat (2 ^ 64 - 1)).toNat = 2 ^ 64 - 1 := rfl
      have hlt := UInt64.toNat_lt last.seq
      rw [hlast] at h
      replace h : addU64 b.overflowChecks last.seq 1 = some q := h
      by_cases hfits : last.seq.toNat + 1 < 2 ^ 64
      · have hq : q.toNat = last.seq.toNat + 1 := toNat_of_addU64 h (.inr hfits)
        constructor
        · intro hsome
          have := hle q hsome
          omega
        · intro hreuse
          obtain ⟨hboth, -⟩ := Bool.and_eq_true_iff.mp hreuse
          have := hle _ (Bool.and_eq_true_iff.mp hboth).2
          omega
      · have hseq : last.seq = UInt64.ofNat (2 ^ 64 - 1) := UInt64.toNat_inj.mp (by omega)
        have hunchecked : b.overflowChecks = false := by
          by_contra hchecks
          have hsum := toNat_of_addU64 h (.inl (by simpa using hchecks))
          have := UInt64.toNat_lt q
          have hone : (1 : UInt64).toNat = 1 := rfl
          omega
        rw [hunchecked, hseq] at h
        obtain rfl : (0 : UInt64) = q := Option.some.inj h
        rw [← hseq, hq', hunchecked]
        simp

end

/-! ### The tree -/

section

variable {b : Buyer} {level next : List SumMerkleNode} {root : SumMerkleNode}

def sumOf (level : List SumMerkleNode) : ℕ := (level.map fun n => n.sum.toNat).sum

theorem addU64_le {overflowChecks : Bool} {x y z : UInt64} (h : addU64 overflowChecks x y = some z) :
    z.toNat ≤ x.toNat + y.toNat := by
  cases overflowChecks with
  | true => exact (toNat_of_addU64 h (.inl rfl)).le
  | false =>
    obtain rfl : x + y = z := Option.some.inj h
    rw [UInt64.toNat_add]
    exact Nat.mod_le _ _

theorem sumOf_sumLevel_le (h : sumLevel b level = some next) : sumOf next ≤ sumOf level := by
  induction level using sumLevel.induct generalizing next with
  | case1 n m rest lo hi hsort ih =>
    rw [sumLevel, hsort] at h
    obtain ⟨sum, hsum, h⟩ := Option.bind_eq_some_iff.mp h
    obtain ⟨rest', hrest, h⟩ := Option.bind_eq_some_iff.mp h
    obtain rfl := Option.some.inj h
    have hpair : sum.toNat ≤ n.sum.toNat + m.sum.toNat := by
      have hle := addU64_le hsum
      rcases Mb.sortPair_cases n m with heq | heq
      · obtain ⟨rfl, rfl⟩ := Prod.mk.inj (hsort.symm.trans heq)
        exact hle
      · obtain ⟨rfl, rfl⟩ := Prod.mk.inj (hsort.symm.trans heq)
        exact hle.trans (Nat.add_comm _ _).le
    have hle := ih hrest
    simp only [sumOf, List.map_cons, List.sum_cons] at hle ⊢
    omega
  | case2 n =>
    obtain rfl : [n] = next := Option.some.inj h
    exact le_rfl
  | case3 =>
    obtain rfl : [] = next := Option.some.inj h
    exact le_rfl

theorem le_of_head (h : level.head? = some root) : root.sum.toNat ≤ sumOf level := by
  obtain ⟨rest, rfl⟩ := List.head?_eq_some_iff.mp h
  exact Nat.le_add_right _ _

theorem le_of_sumRounds {fuel : ℕ} (h : sumRounds b fuel level = some root) :
    root.sum.toNat ≤ sumOf level := by
  induction fuel generalizing level with
  | zero => exact le_of_head h
  | succ fuel ih =>
    rw [sumRounds] at h
    split at h
    · obtain ⟨next, hnext, h⟩ := Option.bind_eq_some_iff.mp h
      exact (ih h).trans (sumOf_sumLevel_le hnext)
    · exact le_of_head h

def amountOf (vouchers : List StoredVoucher) : ℕ := (vouchers.map fun v => v.amount.toNat).sum

/-- The sum at the root is at most the sum of what is counted. -/
theorem le_of_sumRoot {vouchers : List StoredVoucher} (h : sumRoot b vouchers = some root) :
    root.sum.toNat ≤ amountOf vouchers := by
  have hle := le_of_sumRounds h
  rw [sumOf, List.map_map] at hle
  exact hle

/-! With overflow checks it is the tree of `Mb.buildSumMerkleTree`. -/

theorem sumLevel_checked (hchecks : b.overflowChecks = true) (level : List SumMerkleNode) :
    sumLevel b level = Mb.nextLevel b.sha level := by
  induction level using sumLevel.induct with
  | case1 n m rest lo hi hsort ih =>
    rw [sumLevel, Mb.nextLevel, hsort, hchecks, ih]
    rfl
  | case2 n => rfl
  | case3 => rfl

theorem sumRounds_checked (hchecks : b.overflowChecks = true) (fuel : ℕ) (level : List SumMerkleNode) :
    ∃ rounds, sumRounds b fuel level = rounds.bind (fun levels => (Mb.MerkleTree.mk levels).root) ∧
      Mb.buildLevels b.sha fuel level = rounds ∧ rounds ≠ some [] := by
  induction fuel generalizing level with
  | zero =>
    refine ⟨some [level], ?_, rfl, by simp⟩
    rw [sumRounds, List.head?_eq_getElem?]
    rfl
  | succ fuel ih =>
    by_cases hlen : level.length > 1
    · rw [sumRounds, Mb.buildLevels, if_pos hlen, if_pos hlen, sumLevel_checked hchecks]
      rcases Mb.nextLevel b.sha level with _ | next
      · exact ⟨none, rfl, rfl, by simp⟩
      · obtain ⟨rounds, hrounds, hlevels, hne⟩ := ih next
        refine ⟨rounds.map (level :: ·), ?_, ?_, by cases rounds <;> simp⟩
        · rw [Option.bind_some, hrounds]
          rcases rounds with _ | _ | ⟨l, levels⟩
          · rfl
          · exact absurd rfl hne
          · rfl
        · show (Mb.buildLevels b.sha fuel next).bind _ = _
          rw [hlevels]
          cases rounds <;> rfl
    · rw [sumRounds, Mb.buildLevels, if_neg hlen, if_neg hlen]
      refine ⟨some [level], ?_, rfl, by simp⟩
      rw [List.head?_eq_getElem?]
      rfl

theorem sumRoot_checked (hchecks : b.overflowChecks = true) {vouchers : List StoredVoucher}
    (hne : vouchers ≠ []) :
    sumRoot b vouchers = (Mb.buildSumMerkleTree b.sha (vouchers.map fun v =>
      ⟨v.channelId, v.seq, v.amount, b.pubkey, v.buyerSig⟩)).bind Mb.MerkleTree.root := by
  obtain ⟨rounds, hrounds, hlevels, -⟩ := sumRounds_checked hchecks vouchers.length
    ((vouchers.map fun v => (⟨v.channelId, v.seq, v.amount, b.pubkey, v.buyerSig⟩ : Mb.Voucher)).map
      (leafNode b.sha))
  rw [Mb.buildSumMerkleTree, if_neg (by simpa using hne), List.length_map, hlevels, sumRoot,
    List.length_map, Option.bind_map]
  rw [List.map_map] at hrounds
  exact hrounds

end

end Agent
