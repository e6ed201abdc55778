/-
The other three ways to claim a leaf (`channel.rs`): `claim_leaf_with_proof`,
`claim_htlc_verify` and `claim_htlc_refund`.

All four claims end alike: the amount is added to what has been claimed, with
saturation, and must not exceed the deposits (`ChannelState.claimed`).

* `claimLeafWithProof_returns`, `claimHtlcVerify_returns`,
  `claimHtlcRefund_returns` — what a claim has checked;
* `pays_of_returns` — what all claims have in common.
-/
import IgnitePay.StateChannel.Channel

namespace StateChannel

open Bytes Machine Solana

variable (env : Env)

/-! ### The methods -/

/-- `claim_leaf_with_proof`. -/
def claimLeafWithProof (leafIndex : UInt32) (claimAmount : UInt64) (claimerPubkey : Pubkey)
    (currentSlot : UInt64) (claimerSignature : Bytes 64) (proof : List (Bytes 32)) : Op Unit := do
  let state ← channel
  check (state.metadata.status = .settling) (wrongStatus "settling" state.metadata.status)
  let deadline ← orThrow state.metadata.settleDeadline (.other "settle_deadline not set")
  check (¬ currentSlot > deadline)
    (.other s!"settlement window has expired (deadline: {deadline}, current: {currentSlot})")
  check (leafIndex ∉ state.metadata.claimedLeaves)
    (.other s!"leaf {leafIndex} has already been claimed")
  check (state.metadata.isParticipant claimerPubkey)
    (.other "claimer is not a channel participant")
  check (env.verifyEd25519Signature
    (claimMessage env.sha state.metadata.channelId leafIndex claimAmount currentSlot)
    claimerSignature claimerPubkey) (.error .invalidSignature)
  let leaf ← orThrow (state.tree.getLeaf leafIndex.toNat)
    (.error (.leafIndexOutOfBounds leafIndex.toNat state.tree.maxLeaves))
  check (leaf.amount ≠ 0) (.other s!"leaf {leafIndex} is empty and cannot be claimed")
  check (leaf.owner = claimerPubkey) (.other s!"leaf {leafIndex} owner does not match claimer")
  let amount := leaf.amount
  check (claimAmount = amount)
    (.other s!"claim_amount {claimAmount} does not match leaf amount {amount}")
  check (verifyProof env.sha (leaf.hash env.sha) proof state.metadata.currentRoot)
    (.error .proofVerificationFailed)
  let newTotal := saturatingAdd state.metadata.totalClaimed claimAmount
  check (¬ newTotal > state.metadata.totalDeposited)
    (.other "total_claimed would exceed total_deposited")
  updateMetadata fun m => { m with
    totalClaimed := newTotal
    claimedLeaves := insert leafIndex m.claimedLeaves }
  persistState

/-- The deadline, where one is set. -/
def checkDeadline (currentSlot : UInt64) : Option UInt64 → Op Unit
  | some deadline => check (¬ currentSlot > deadline)
      (.other s!"settlement window has expired (deadline: {deadline}, current: {currentSlot})")
  | none => pure ()

/-- How both HTLC claims start: they fetch the leaf first, whose amount is signed. -/
def openHtlc (leafIndex : UInt32) (claimerPubkey : Pubkey) (currentSlot : UInt64)
    (claimerSignature : Bytes 64) : Op UTXOLeaf := do
  let state ← channel
  check (state.metadata.status = .challenged ∨ state.metadata.status = .settling)
    (wrongStatus "challenged or settling" state.metadata.status)
  checkDeadline currentSlot state.metadata.settleDeadline
  check (leafIndex ∉ state.metadata.claimedLeaves)
    (.other s!"leaf {leafIndex} has already been claimed")
  check (state.metadata.isParticipant claimerPubkey)
    (.other "claimer is not a channel participant")
  let leaf ← orThrow (state.tree.getLeaf leafIndex.toNat)
    (.error (.leafIndexOutOfBounds leafIndex.toNat state.tree.maxLeaves))
  check (env.verifyEd25519Signature
    (claimMessage env.sha state.metadata.channelId leafIndex leaf.amount currentSlot)
    claimerSignature claimerPubkey) (.error .invalidSignature)
  check (leaf.leafType = .htlc) (.other s!"leaf {leafIndex} is not an HTLC leaf")
  return leaf

/-- How they end. -/
def payHtlc (leafIndex : UInt32) (leaf : UTXOLeaf) : Op Unit := do
  let state ← channel
  let proof ← orThrow (state.tree.getProof leafIndex.toNat)
    (.error (.leafIndexOutOfBounds leafIndex.toNat state.tree.maxLeaves))
  check (verifyProof env.sha (leaf.hash env.sha) proof state.metadata.currentRoot)
    (.error .proofVerificationFailed)
  let newTotal := saturatingAdd state.metadata.totalClaimed leaf.amount
  check (¬ newTotal > state.metadata.totalDeposited)
    (.other "total_claimed would exceed total_deposited")
  updateMetadata fun m => { m with
    totalClaimed := newTotal
    claimedLeaves := insert leafIndex m.claimedLeaves }
  persistState

/-- `claim_htlc_verify`. -/
def claimHtlcVerify (leafIndex : UInt32) (preimage : Bytes 32) (claimerPubkey : Pubkey)
    (currentSlot : UInt64) (claimerSignature : Bytes 64) : Op Unit := do
  let leaf ← openHtlc env leafIndex claimerPubkey currentSlot claimerSignature
  let beneficiary ← orThrow leaf.beneficiary (.other "HTLC leaf has no beneficiary")
  check (claimerPubkey = beneficiary) (.other "claimer is not the HTLC beneficiary")
  let hashLock ← orThrow leaf.hashLock (.other "HTLC leaf has no hash_lock")
  check (env.sha preimage.val = hashLock) (.error .hashLockMismatch)
  let timelock ← orThrow leaf.timelockSlot (.other "HTLC leaf has no timelock")
  check (¬ currentSlot > timelock) (.error (.htlcExpired timelock currentSlot))
  payHtlc env leafIndex leaf

/-- `claim_htlc_refund`. -/
def claimHtlcRefund (leafIndex : UInt32) (claimerPubkey : Pubkey) (currentSlot : UInt64)
    (claimerSignature : Bytes 64) : Op Unit := do
  let leaf ← openHtlc env leafIndex claimerPubkey currentSlot claimerSignature
  check (leaf.owner = claimerPubkey) (.other "claimer is not the HTLC owner")
  let timelock ← orThrow leaf.timelockSlot (.other "HTLC leaf has no timelock")
  check (¬ currentSlot ≤ timelock) (.error (.htlcNotExpired timelock currentSlot))
  payHtlc env leafIndex leaf

/-! ### What they check and leave behind -/

section

variable {env} {l l' : Local} {u : Unit} {leafIndex : UInt32} {claimAmount : UInt64}
  {claimerPubkey : Pubkey} {currentSlot : UInt64} {claimerSignature : Bytes 64}

/-- The channel with a leaf claimed. -/
def ChannelState.claimed (c : ChannelState) (leafIndex : UInt32) (amount : UInt64) : ChannelState :=
  { c with
    metadata := { c.metadata with
      totalClaimed := saturatingAdd c.metadata.totalClaimed amount
      claimedLeaves := insert leafIndex c.metadata.claimedLeaves } }

/-- The check of the sum, with its saturation. -/
def Covered (c : ChannelState) (amount : UInt64) : Prop :=
  ¬ saturatingAdd c.metadata.totalClaimed amount > c.metadata.totalDeposited

/-- What `claim_leaf_with_proof` checks of the leaf; the type is not among it. -/
structure ClaimsProven (env : Env) (c : ChannelState) (leafIndex : UInt32) (claimAmount : UInt64)
    (claimerPubkey : Pubkey) (leaf : UTXOLeaf) (proof : List (Bytes 32)) : Prop where
  leaf_eq : c.tree.getLeaf leafIndex.toNat = some leaf
  nonempty : leaf.amount ≠ 0
  owner_eq : leaf.owner = claimerPubkey
  amount_eq : claimAmount = leaf.amount
  verified : verifyProof env.sha (leaf.hash env.sha) proof c.metadata.currentRoot

theorem claimLeafWithProof_returns {proof : List (Bytes 32)} :
    Returns (claimLeafWithProof env leafIndex claimAmount claimerPubkey currentSlot claimerSignature
        proof) l u l' ↔
      Claims env l.channel leafIndex claimAmount claimerPubkey currentSlot claimerSignature ∧
      (∃ leaf, ClaimsProven env l.channel leafIndex claimAmount claimerPubkey leaf proof) ∧
      Covered l.channel claimAmount ∧ l' = l.saved (l.channel.claimed leafIndex claimAmount) := by
  simp only [claimLeafWithProof, returns_channel_bind, returns_check_bind, returns_orThrow_bind,
    returns_updateMetadata_bind, returns_persistState]
  constructor
  · rintro ⟨hstatus, deadline, hdeadline, hslot, hfree, hparty, hsig, leaf, hleaf, hne, howner,
      hamount, hverified, htotal, rfl⟩
    exact ⟨⟨hstatus, ⟨deadline, hdeadline, hslot⟩, hfree, hparty, hsig⟩,
      ⟨leaf, hleaf, hne, howner, hamount, hverified⟩, htotal, rfl⟩
  · rintro ⟨h, ⟨leaf, hl⟩, htotal, rfl⟩
    obtain ⟨deadline, hdeadline, hslot⟩ := h.deadline_le
    exact ⟨h.status_eq, deadline, hdeadline, hslot, h.unclaimed, h.participant, h.signature, leaf,
      hl.leaf_eq, hl.nonempty, hl.owner_eq, hl.amount_eq, hl.verified, htotal, rfl⟩

/-- What both HTLC claims check. -/
structure OpensHtlc (env : Env) (c : ChannelState) (leafIndex : UInt32) (claimerPubkey : Pubkey)
    (currentSlot : UInt64) (claimerSignature : Bytes 64) (leaf : UTXOLeaf) : Prop where
  status_eq : c.metadata.status = .challenged ∨ c.metadata.status = .settling
  deadline_le : ∀ deadline, c.metadata.settleDeadline = some deadline → ¬ currentSlot > deadline
  unclaimed : leafIndex ∉ c.metadata.claimedLeaves
  participant : c.metadata.isParticipant claimerPubkey
  leaf_eq : c.tree.getLeaf leafIndex.toNat = some leaf
  signature : env.verifyEd25519Signature
    (claimMessage env.sha c.metadata.channelId leafIndex leaf.amount currentSlot)
    claimerSignature claimerPubkey
  type_eq : leaf.leafType = .htlc

theorem checkDeadline_returns_bind {α : Type} {f : Unit → Op α} {a : α} {deadline : Option UInt64} :
    Returns (checkDeadline currentSlot deadline >>= f) l a l' ↔
      (∀ d, deadline = some d → ¬ currentSlot > d) ∧ Returns (f ()) l a l' := by
  cases deadline with
  | none =>
    rw [checkDeadline, pure_bind]
    exact (and_iff_right fun d hd => absurd hd (by simp)).symm
  | some d =>
    rw [checkDeadline, returns_check_bind]
    simp

theorem openHtlc_returns {leaf : UTXOLeaf} :
    Returns (openHtlc env leafIndex claimerPubkey currentSlot claimerSignature) l leaf l' ↔
      OpensHtlc env l.channel leafIndex claimerPubkey currentSlot claimerSignature leaf ∧ l = l' := by
  simp only [openHtlc, returns_channel_bind, returns_check_bind, checkDeadline_returns_bind,
    returns_orThrow_bind, returns_pure]
  constructor
  · rintro ⟨hstatus, hdeadline, hfree, hparty, leaf, hleaf, hsig, htype, rfl, rfl⟩
    exact ⟨⟨hstatus, hdeadline, hfree, hparty, hleaf, hsig, htype⟩, rfl⟩
  · rintro ⟨h, rfl⟩
    exact ⟨h.status_eq, h.deadline_le, h.unclaimed, h.participant, leaf, h.leaf_eq, h.signature,
      h.type_eq, rfl, rfl⟩

/-- The leaf stands in the channel's root. -/
def Proven (env : Env) (c : ChannelState) (leafIndex : UInt32) (leaf : UTXOLeaf) : Prop :=
  ∃ proof, c.tree.getProof leafIndex.toNat = some proof ∧
    verifyProof env.sha (leaf.hash env.sha) proof c.metadata.currentRoot

theorem payHtlc_returns {leaf : UTXOLeaf} :
    Returns (payHtlc env leafIndex leaf) l u l' ↔
      Proven env l.channel leafIndex leaf ∧ Covered l.channel leaf.amount ∧
        l' = l.saved (l.channel.claimed leafIndex leaf.amount) := by
  simp only [payHtlc, returns_channel_bind, returns_check_bind, returns_orThrow_bind,
    returns_updateMetadata_bind, returns_persistState]
  constructor
  · rintro ⟨proof, hproof, hverified, htotal, rfl⟩
    exact ⟨⟨proof, hproof, hverified⟩, htotal, rfl⟩
  · rintro ⟨⟨proof, hproof, hverified⟩, htotal, rfl⟩
    exact ⟨proof, hproof, hverified, htotal, rfl⟩

/-- The beneficiary knows the preimage, in time. -/
structure Verifies (env : Env) (leaf : UTXOLeaf) (preimage : Bytes 32) (claimerPubkey : Pubkey)
    (currentSlot : UInt64) : Prop where
  beneficiary_eq : leaf.beneficiary = some claimerPubkey
  hashLock_eq : leaf.hashLock = some (env.sha preimage.val)
  timelock_le : ∃ timelock, leaf.timelockSlot = some timelock ∧ ¬ currentSlot > timelock

theorem claimHtlcVerify_returns {preimage : Bytes 32} :
    Returns (claimHtlcVerify env leafIndex preimage claimerPubkey currentSlot claimerSignature) l u l' ↔
      ∃ leaf, OpensHtlc env l.channel leafIndex claimerPubkey currentSlot claimerSignature leaf ∧
        Verifies env leaf preimage claimerPubkey currentSlot ∧ Proven env l.channel leafIndex leaf ∧
        Covered l.channel leaf.amount ∧ l' = l.saved (l.channel.claimed leafIndex leaf.amount) := by
  simp only [claimHtlcVerify, returns_bind, openHtlc_returns, returns_orThrow, returns_check,
    payHtlc_returns]
  constructor
  · rintro ⟨leaf, _, ⟨hopens, rfl⟩, beneficiary, _, ⟨hben, rfl⟩, _, _, ⟨rfl, rfl⟩, lock, _,
      ⟨hlock, rfl⟩, _, _, ⟨rfl, rfl⟩, timelock, _, ⟨htime, rfl⟩, _, _, ⟨hslot, rfl⟩, hpays⟩
    exact ⟨leaf, hopens, ⟨hben, hlock, timelock, htime, hslot⟩, hpays⟩
  · rintro ⟨leaf, hopens, ⟨hben, hlock, timelock, htime, hslot⟩, hpays⟩
    exact ⟨leaf, l, ⟨hopens, rfl⟩, _, l, ⟨hben, rfl⟩, (), l, ⟨rfl, rfl⟩, _, l, ⟨hlock, rfl⟩, (), l,
      ⟨rfl, rfl⟩, timelock, l, ⟨htime, rfl⟩, (), l, ⟨hslot, rfl⟩, hpays⟩

/-- The owner takes the leaf back, after its time. -/
structure Refunds (leaf : UTXOLeaf) (claimerPubkey : Pubkey) (currentSlot : UInt64) : Prop where
  owner_eq : leaf.owner = claimerPubkey
  timelock_lt : ∃ timelock, leaf.timelockSlot = some timelock ∧ ¬ currentSlot ≤ timelock

theorem claimHtlcRefund_returns :
    Returns (claimHtlcRefund env leafIndex claimerPubkey currentSlot claimerSignature) l u l' ↔
      ∃ leaf, OpensHtlc env l.channel leafIndex claimerPubkey currentSlot claimerSignature leaf ∧
        Refunds leaf claimerPubkey currentSlot ∧ Proven env l.channel leafIndex leaf ∧
        Covered l.channel leaf.amount ∧ l' = l.saved (l.channel.claimed leafIndex leaf.amount) := by
  simp only [claimHtlcRefund, returns_bind, openHtlc_returns, returns_orThrow, returns_check,
    payHtlc_returns]
  constructor
  · rintro ⟨leaf, _, ⟨hopens, rfl⟩, _, _, ⟨howner, rfl⟩, timelock, _, ⟨htime, rfl⟩, _, _, ⟨hslot, rfl⟩,
      hpays⟩
    exact ⟨leaf, hopens, ⟨howner, timelock, htime, hslot⟩, hpays⟩
  · rintro ⟨leaf, hopens, ⟨howner, timelock, htime, hslot⟩, hpays⟩
    exact ⟨leaf, l, ⟨hopens, rfl⟩, (), l, ⟨howner, rfl⟩, timelock, l, ⟨htime, rfl⟩, (), l, ⟨hslot, rfl⟩,
      hpays⟩

/-! What all claims have in common. -/

/-- A claim pays a leaf of the tree once, within the deposits. -/
structure Pays (c : ChannelState) (leafIndex : UInt32) (leaf : UTXOLeaf) : Prop where
  status_eq : c.metadata.status = .challenged ∨ c.metadata.status = .settling
  leaf_eq : c.tree.getLeaf leafIndex.toNat = some leaf
  unclaimed : leafIndex ∉ c.metadata.claimedLeaves
  covered : Covered c leaf.amount

end

/-- A claim of any of the four kinds. -/
inductive ClaimCall
  | leaf (leafIndex : UInt32) (claimAmount : UInt64) (claimerPubkey : Pubkey) (currentSlot : UInt64)
      (claimerSignature : Bytes 64)
  | leafWithProof (leafIndex : UInt32) (claimAmount : UInt64) (claimerPubkey : Pubkey)
      (currentSlot : UInt64) (claimerSignature : Bytes 64) (proof : List (Bytes 32))
  | htlcVerify (leafIndex : UInt32) (preimage : Bytes 32) (claimerPubkey : Pubkey)
      (currentSlot : UInt64) (claimerSignature : Bytes 64)
  | htlcRefund (leafIndex : UInt32) (claimerPubkey : Pubkey) (currentSlot : UInt64)
      (claimerSignature : Bytes 64)

namespace ClaimCall

def leafIndex : ClaimCall → UInt32
  | leaf leafIndex _ _ _ _ => leafIndex
  | leafWithProof leafIndex _ _ _ _ _ => leafIndex
  | htlcVerify leafIndex _ _ _ _ => leafIndex
  | htlcRefund leafIndex _ _ _ => leafIndex

def method (env : Env) : ClaimCall → Op Unit
  | leaf leafIndex claimAmount claimerPubkey currentSlot claimerSignature =>
    claimLeaf env leafIndex claimAmount claimerPubkey currentSlot claimerSignature
  | leafWithProof leafIndex claimAmount claimerPubkey currentSlot claimerSignature proof =>
    claimLeafWithProof env leafIndex claimAmount claimerPubkey currentSlot claimerSignature proof
  | htlcVerify leafIndex preimage claimerPubkey currentSlot claimerSignature =>
    claimHtlcVerify env leafIndex preimage claimerPubkey currentSlot claimerSignature
  | htlcRefund leafIndex claimerPubkey currentSlot claimerSignature =>
    claimHtlcRefund env leafIndex claimerPubkey currentSlot claimerSignature

theorem pays_of_returns {env : Env} {call : ClaimCall} {l l' : Local} {u : Unit}
    (h : Returns (call.method env) l u l') : ∃ leaf, Pays l.channel call.leafIndex leaf ∧
      l' = l.saved (l.channel.claimed call.leafIndex leaf.amount) := by
  cases call with
  | leaf leafIndex claimAmount claimerPubkey currentSlot claimerSignature =>
    obtain ⟨hclaims, ⟨leaf, proof, hleaf⟩, hcovered, rfl⟩ := claimLeaf_returns.mp h
    obtain rfl := hleaf.amount_eq
    exact ⟨leaf, ⟨.inr hclaims.status_eq, hleaf.leaf_eq, hclaims.unclaimed, hcovered⟩, rfl⟩
  | leafWithProof leafIndex claimAmount claimerPubkey currentSlot claimerSignature proof =>
    obtain ⟨hclaims, ⟨leaf, hleaf⟩, hcovered, rfl⟩ := claimLeafWithProof_returns.mp h
    obtain rfl := hleaf.amount_eq
    exact ⟨leaf, ⟨.inr hclaims.status_eq, hleaf.leaf_eq, hclaims.unclaimed, hcovered⟩, rfl⟩
  | htlcVerify leafIndex preimage claimerPubkey currentSlot claimerSignature =>
    obtain ⟨leaf, hopens, -, -, hcovered, rfl⟩ := claimHtlcVerify_returns.mp h
    exact ⟨leaf, ⟨hopens.status_eq, hopens.leaf_eq, hopens.unclaimed, hcovered⟩, rfl⟩
  | htlcRefund leafIndex claimerPubkey currentSlot claimerSignature =>
    obtain ⟨leaf, hopens, -, -, hcovered, rfl⟩ := claimHtlcRefund_returns.mp h
    exact ⟨leaf, ⟨hopens.status_eq, hopens.leaf_eq, hopens.unclaimed, hcovered⟩, rfl⟩

end ClaimCall

end StateChannel
