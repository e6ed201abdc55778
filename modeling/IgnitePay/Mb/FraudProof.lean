/-
What a fraud proof proves.

`resolve_dispute` opens one leaf of the settled tree and returns the escrow to
the buyer when that one voucher is smaller than the settled amount.  The sum
it computes on the way up, which would be the total of the batch, is dropped.
So for a batch of several vouchers the refund says nothing about the total.

* `fraudProofSound_iff` — when a refund implies that the batch was inflated;
* `fraudProof_unsound` — a batch settled for exactly its total and refunded.
-/
import IgnitePay.Mb.Spec

namespace Mb

open Bytes Machine HashTree

/-- The strings that checking a fraud proof hashes. -/
def FraudProof.preimages (rt : Runtime) (channel buyer : Address) (proof : FraudProof) :
    List (List UInt8) :=
  let leaf := leafPreimage (channel.bytes rt) proof.voucherSeq proof.voucherAmount
    (buyer.bytes rt) proof.buyerVoucherSig
  leaf :: proofPreimages rt.sha256 (rt.sha256 leaf) proof.voucherAmount proof.siblingHashes
    proof.siblingSums

/-- `vouchers` is a batch of the channel `c` at `ch`, and `tree` its tree. -/
structure BatchOf (rt : Runtime) (ch : Address) (c : Channel) (vouchers : List Voucher)
    (tree : MerkleTree) : Prop where
  nonempty : vouchers ≠ []
  fits : amountSum vouchers < 2 ^ 64
  keys : ∀ v ∈ vouchers, v.channelId = ch.bytes rt ∧ v.buyerPubkey = c.buyer.bytes rt
  build : buildSumMerkleTree rt.sha256 vouchers = some tree

/-- The refund itself can be paid: the caller is the buyer, the settled amount
covers the roll back, the escrow holds the amount and the buyer has room. -/
structure Refundable (w : World) (ctx : EscrowAccess) (c : Channel)
    (e : SettlementEscrow) : Prop where
  buyer : ctx.party = c.buyer
  settled : e.amount.toNat ≤ c.settledAmount.toNat
  funds : e.amount.toNat ≤ (w.lamports ctx.settlementEscrow).toNat
  room : (w.lamports ctx.party).toNat + e.amount.toNat < 2 ^ 64

/-- Every refund, by a proof over strings in `known`, is of a batch worth less
than the settled amount. -/
def FraudProofSound (rt : Runtime) (known : Set (List UInt8)) (vouchers : List Voucher)
    (w : World) (ctx : EscrowAccess) (c : Channel) (e : SettlementEscrow) : Prop :=
  ∀ proof w', (∀ x ∈ proof.preimages rt ctx.channel c.buyer, x ∈ known) →
    resolveDispute rt ctx proof w = .ok w' → amountSum vouchers < e.amount.toNat

section

variable {rt : Runtime} {known : Set (List UInt8)} {vouchers : List Voucher} {tree : MerkleTree}
  {w w' : World} {ctx : EscrowAccess} {c : Channel} {e : SettlementEscrow}

theorem Loaded.unique {d : Bool} {c' : Channel} {e' : SettlementEscrow}
    (h : Loaded w ctx d c e) (h' : Loaded w ctx d c' e') : c' = c ∧ e' = e :=
  ⟨Option.some_inj.mp (h'.channel.symm.trans h.channel),
    Option.some_inj.mp (h'.escrow.symm.trans h.escrow)⟩

/-- The tree of a batch whose hashed strings do not collide. -/
theorem BatchOf.exists_distinct {ch : Address} (hb : BatchOf rt ch c vouchers tree)
    (hfree : Sha256.CollisionFree rt.sha256 known)
    (hknown : ∀ x ∈ tree.preimages vouchers, x ∈ known) :
    ∃ t, t.leaves = vouchers ∧ tree.rootHash = some (nodeOf rt.sha256 t).hash ∧
      Distinct rt.sha256 known t := by
  obtain ⟨tree', t, ht⟩ := @exists_sumTree rt.sha256 vouchers hb.nonempty hb.fits
  obtain rfl : tree = tree' := Option.some_inj.mp (hb.build.symm.trans ht.build)
  refine ⟨t, ht.leaves, ?_, ht.distinct hfree hknown⟩
  rw [MerkleTree.rootHash, ht.root]
  rfl

/-- An accepted proof opens one of the vouchers, and says only that this one is
smaller than the settled amount. -/
theorem exists_voucher_of_resolveDispute (hload : Loaded w ctx true c e)
    (hb : BatchOf rt ctx.channel c vouchers tree)
    (hfree : Sha256.CollisionFree rt.sha256 known)
    (hknown : ∀ x ∈ tree.preimages vouchers, x ∈ known)
    (hroot : tree.rootHash = some e.merkleRoot) {proof : FraudProof}
    (hproof : ∀ x ∈ proof.preimages rt ctx.channel c.buyer, x ∈ known)
    (h : resolveDispute rt ctx proof w = .ok w') :
    Refundable w ctx c e ∧ ∃ v ∈ vouchers, v.amount.toNat < e.amount.toNat := by
  obtain ⟨c', e', hload', hbuyer, -, ⟨total, hverify⟩, hlt, settledAmount, hsub, hpay⟩ :=
    resolveDispute_eq_ok.mp h
  obtain ⟨rfl, rfl⟩ := hload.unique hload'
  obtain ⟨t, hleaves, hroot', hd⟩ := hb.exists_distinct hfree hknown
  rw [hroot, Option.some_inj] at hroot'
  have hl := (payOut_ok hpay).2.1
  refine ⟨⟨hbuyer, ?_, ?_, ?_⟩, ?_⟩
  · have := checkedSub_eq_some.mp hsub
    omega
  · have := hl ctx.settlementEscrow
    rw [if_pos rfl, if_neg hload.party_ne.symm, World.lamports_setAccount] at this
    omega
  · have := hl ctx.party
    rw [if_pos rfl, if_neg hload.party_ne, World.lamports_setAccount] at this
    have := (w'.lamports ctx.party).toNat_lt
    omega
  · -- The sum that the proof computes is compared with nothing: only the leaf counts.
    have hclimb := climb_of_verifySumMerkleProof hverify
    rw [hroot'] at hclimb
    obtain ⟨v, hv, hpre⟩ := proof_binds hd (hproof _ List.mem_cons_self)
      (fun x hx => hproof x (List.mem_cons_of_mem _ hx)) hclimb
    rw [hleaves] at hv
    obtain ⟨-, -, hamount, -, -⟩ := leafPreimage_inj hpre
    exact ⟨v, hv, hamount ▸ hlt⟩

/-- Conversely every voucher smaller than the settled amount gives a refund. -/
theorem exists_resolveDispute_of_voucher (hload : Loaded w ctx true c e)
    (hb : BatchOf rt ctx.channel c vouchers tree)
    (hfree : Sha256.CollisionFree rt.sha256 known)
    (hknown : ∀ x ∈ tree.preimages vouchers, x ∈ known)
    (hroot : tree.rootHash = some e.merkleRoot) (hrefund : Refundable w ctx c e)
    {v : Voucher} (hv : v ∈ vouchers) (hlt : v.amount.toNat < e.amount.toNat) :
    ∃ proof w', (∀ x ∈ proof.preimages rt ctx.channel c.buyer, x ∈ known) ∧
      resolveDispute rt ctx proof w = .ok w' := by
  obtain ⟨t, hleaves, hroot', hd⟩ := hb.exists_distinct hfree hknown
  rw [hroot, Option.some_inj] at hroot'
  have hsum : amountSum t.leaves < 2 ^ 64 := hleaves ▸ hb.fits
  obtain ⟨hashes, sums, hlen, hverify, hproof⟩ :=
    exists_honestProof hd hsum (hleaves ▸ hv : v ∈ t.leaves)
  obtain ⟨hchannel, hbuyer⟩ := hb.keys v hv
  have hpre : leafPreimage (ctx.channel.bytes rt) v.seq v.amount (c.buyer.bytes rt) v.buyerSig
      = v.preimage := by
    rw [Voucher.preimage, hchannel, hbuyer]
  obtain ⟨settledAmount, hsub, -⟩ := exists_checkedSub hrefund.settled
  obtain ⟨w', hpay⟩ := exists_payOut
    (w := w.setAccount ctx.channel (.channel { c with settledAmount })) hrefund.funds hrefund.room
  refine ⟨⟨v.seq, v.amount, v.buyerSig, hashes, sums⟩, w', fun x hx => ?_,
    resolveDispute_eq_ok.mpr ⟨c, e, hload, hrefund.buyer, hlen, ⟨(nodeOf rt.sha256 t).sum, ?_⟩,
      hlt, settledAmount, hsub, hpay⟩⟩
  · rcases List.mem_cons.mp hx with rfl | hx
    · rw [hpre]
      exact hd.leaf v (hleaves ▸ hv)
    · rw [hpre] at hx
      exact hproof x hx
  · rw [hpre, hroot']
    exact hverify

/-- A refund implies an inflated batch exactly when the batch is inflated, when
no single voucher is below the settled amount, or when the refund cannot be
paid. -/
theorem fraudProofSound_iff (hload : Loaded w ctx true c e)
    (hb : BatchOf rt ctx.channel c vouchers tree)
    (hfree : Sha256.CollisionFree rt.sha256 known)
    (hknown : ∀ x ∈ tree.preimages vouchers, x ∈ known)
    (hroot : tree.rootHash = some e.merkleRoot) :
    FraudProofSound rt known vouchers w ctx c e ↔
      amountSum vouchers < e.amount.toNat ∨ (∀ v ∈ vouchers, e.amount.toNat ≤ v.amount.toNat) ∨
        ¬ Refundable w ctx c e := by
  constructor
  · intro hsound
    by_contra hnot
    push Not at hnot
    obtain ⟨htotal, ⟨v, hv, hlt⟩, hrefund⟩ := hnot
    obtain ⟨proof, w', hproof, hok⟩ :=
      exists_resolveDispute_of_voucher hload hb hfree hknown hroot hrefund hv hlt
    exact absurd (hsound proof w' hproof hok) (not_lt.mpr htotal)
  · intro hcond proof w' hproof hok
    obtain ⟨hrefund, v, hv, hlt⟩ :=
      exists_voucher_of_resolveDispute hload hb hfree hknown hroot hproof hok
    rcases hcond with htotal | hall | hnot
    · exact htotal
    · exact absurd (hall v hv) (not_le.mpr hlt)
    · exact absurd hrefund hnot

end

/-! ### A batch settled for exactly its total -/

namespace ExactBatch

def vouchers : List Voucher :=
  [⟨Sample.channelKey, 0, 300, fill 32 9, fill 64 1⟩,
    ⟨Sample.channelKey, 1, 700, fill 32 9, fill 64 2⟩]

def leaf₀ : SumMerkleNode where
  hash := ⟨[46, 38, 71, 35, 34, 32, 164, 149, 200, 215, 192, 74, 91, 186, 141, 53,
    173, 126, 33, 111, 1, 35, 231, 75, 226, 77, 41, 230, 213, 157, 228, 236], rfl⟩
  sum := 300

def leaf₁ : SumMerkleNode where
  hash := ⟨[72, 15, 181, 217, 35, 30, 49, 115, 167, 244, 49, 20, 73, 115, 174, 65,
    147, 127, 113, 89, 173, 33, 213, 204, 236, 136, 118, 175, 59, 82, 52, 237], rfl⟩
  sum := 700

def root : SumMerkleNode where
  hash := ⟨[141, 162, 238, 131, 170, 4, 228, 140, 172, 12, 81, 193, 34, 226, 223, 84,
    230, 141, 2, 161, 85, 113, 10, 195, 57, 47, 26, 200, 207, 212, 220, 134], rfl⟩
  sum := 1000

def tree : MerkleTree := ⟨[[leaf₀, leaf₁], [root]]⟩

def known : Set (List UInt8) := {x | x ∈ tree.preimages vouchers}

def channel : Channel where
  buyer := Sample.buyer
  merchant := Sample.merchant
  tokenMint := Sample.sol
  spendingCap := 1000
  settledAmount := 1000
  nonce := 1
  challengePeriod := 100
  disputePeriod := 200

/-- The merchant settled 1000, the exact total; the buyer disputed. -/
def escrow : SettlementEscrow where
  channel := Sample.channel
  merchant := Sample.merchant
  tokenMint := Sample.sol
  amount := 1000
  merkleRoot := root.hash
  nonce := 0
  createdAt := 0
  claimed := false
  disputed := true
  optimistic := true

def world : World where
  accounts := ((∅ : Store.Map Address AccountData).insert Sample.channel (.channel channel)).insert
    (.settlement Sample.channel 0) (.settlementEscrow escrow)
  lamports a := if a = .settlement Sample.channel 0 then 3000000 else 0
  now := 10

def access : EscrowAccess := ⟨Sample.channel, .settlement Sample.channel 0, Sample.buyer⟩

/-- The voucher of 300 and its sibling. -/
def proof : FraudProof := ⟨0, 300, fill 64 1, [leaf₁.hash], [700]⟩

theorem loaded : Loaded world access true channel escrow :=
  ⟨rfl, by decide, by decide, rfl, rfl, rfl⟩

theorem batchOf : BatchOf Runtime.cluster access.channel channel vouchers tree where
  nonempty := by decide
  fits := by decide
  keys := by
    show ∀ v ∈ vouchers, v.channelId = Sample.channel.bytes Runtime.cluster ∧ _
    rw [Sample.channel_bytes]
    decide
  build := by decide +kernel

theorem collisionFree : Sha256.CollisionFree Runtime.cluster.sha256 known := by
  have hnodup : ((tree.preimages vouchers).map Sha256.sha256).Nodup := by decide +kernel
  intro x hx y hy hxy
  exact List.inj_on_of_nodup_map hnodup hx hy hxy

theorem proof_known : ∀ x ∈ proof.preimages Runtime.cluster access.channel channel.buyer,
    x ∈ known := by
  show ∀ x ∈ proof.preimages Runtime.cluster Sample.channel channel.buyer,
    x ∈ tree.preimages vouchers
  rw [FraudProof.preimages, Sample.channel_bytes]
  decide +kernel

theorem refunded : ∃ w', resolveDispute Runtime.cluster access proof world = .ok w' :=
  exists_of_isOk (by decide +kernel)

end ExactBatch

/-- Two vouchers of 300 and 700 settled for 1000 are refunded in full. -/
theorem fraudProof_unsound :
    ¬ ∀ (rt : Runtime) (known : Set (List UInt8)) (vouchers : List Voucher) (tree : MerkleTree)
      (w : World) (ctx : EscrowAccess) (c : Channel) (e : SettlementEscrow),
      Loaded w ctx true c e → BatchOf rt ctx.channel c vouchers tree →
        Sha256.CollisionFree rt.sha256 known → (∀ x ∈ tree.preimages vouchers, x ∈ known) →
          tree.rootHash = some e.merkleRoot → FraudProofSound rt known vouchers w ctx c e := by
  intro hsound
  obtain ⟨w', hok⟩ := ExactBatch.refunded
  have hlt := hsound Runtime.cluster ExactBatch.known ExactBatch.vouchers ExactBatch.tree
    ExactBatch.world ExactBatch.access ExactBatch.channel ExactBatch.escrow ExactBatch.loaded
    ExactBatch.batchOf ExactBatch.collisionFree (fun _ hx => hx) rfl ExactBatch.proof w'
    ExactBatch.proof_known hok
  exact absurd hlt (by decide)

/-- The criterion at that batch. -/
theorem fraudProofSound_iff_exactBatch :
    FraudProofSound Runtime.cluster ExactBatch.known ExactBatch.vouchers ExactBatch.world
        ExactBatch.access ExactBatch.channel ExactBatch.escrow ↔
      amountSum ExactBatch.vouchers < ExactBatch.escrow.amount.toNat ∨
        (∀ v ∈ ExactBatch.vouchers, ExactBatch.escrow.amount.toNat ≤ v.amount.toNat) ∨
        ¬ Refundable ExactBatch.world ExactBatch.access ExactBatch.channel ExactBatch.escrow :=
  fraudProofSound_iff ExactBatch.loaded ExactBatch.batchOf ExactBatch.collisionFree
    (fun _ hx => hx) rfl

end Mb
