/-
Settlement in the channel manager (`channel.rs`): `close_channel`, `auto_settle`,
`trigger_challenge`, `settle_after_timeout`, `submit_counter_state`, `claim_leaf`
and `finalize_settlement`.

A method checks, then writes; all but `submit_counter_state` are done with their
checks before they write.  For each there is one lemma, `_returns`, with all that
a successful call has checked and what it leaves behind.

* `closeChannel_returns`, `autoSettle_returns`, `triggerChallenge_returns`,
  `settleAfterTimeout_returns`, `submitCounterState_returns`, `claimLeaf_returns`,
  `finalizeSettlement_returns`.
-/
import IgnitePay.StateChannel.State

namespace StateChannel

open Bytes Machine Solana HashTree

variable (env : Env)

/-! ### Shared pieces -/

/-- `channel is not {expected} (status: {:?})`. -/
def wrongStatus (expected : String) (status : ChannelStatus) : Failure :=
  .other s!"channel is not {expected} (status: {status})"

/-- `MerkleTree::verify_proof`. -/
def verifyProof (sha : List UInt8 → Bytes 32) (leafHash : Bytes 32) (proof : List (Bytes 32))
    (root : Bytes 32) : Bool :=
  decide (climb (hashPair sha) leafHash proof = root)

/-- The indices of the HTLC leaves. -/
def htlcLeaves (tree : MerkleTree) : List ℕ :=
  (tree.leaves.zipIdx.filter fun p => p.1.leafType = .htlc).map Prod.snd

/-- `MerkleTree::new` with its error. -/
def buildTree (leaves : List UTXOLeaf) (treeDepth : UInt32) : Op MerkleTree :=
  orThrow (MerkleTree.new env.sha leaves treeDepth.toNat)
    (.error (.leafIndexOutOfBounds leaves.length (2 ^ treeDepth.toNat)))

/-! ### The methods -/

/-- `close_channel`. -/
def closeChannel (signedState : SignedState) (userPubkey providerPubkey : Pubkey)
    (currentSlot settleWindow : UInt64) : Op Unit := do
  let state ← channel
  check (state.metadata.status = .opened) (wrongStatus "open" state.metadata.status)
  let htlcs := htlcLeaves state.tree
  let count := htlcs.length
  check (htlcs = []) (.other s!"cannot close: {count} unresolved HTLC leaf/leaves at index {htlcs}. Resolve or refund all HTLCs before closing.")
  check (signedState.channelId = state.metadata.channelId)
    (.other "signed state channel ID mismatch")
  check (signedState.root = state.metadata.currentRoot)
    (.other "signed state root does not match current root")
  check (signedState.sequence = state.metadata.sequence)
    (.other "signed state sequence does not match current sequence")
  check (env.verifyStateSignature signedState.channelId signedState.sequence signedState.root
    signedState.sigA userPubkey) (.error .invalidSignature)
  check (env.verifyStateSignature signedState.channelId signedState.sequence signedState.root
    signedState.sigB providerPubkey) (.error .invalidSignature)
  updateMetadata fun m => { m with status := .settling }
  let deadline ← addSlots env currentSlot settleWindow
  updateMetadata fun m => { m with settleDeadline := some deadline }
  update fun c => { c with providerCosign := none }
  persistState

/-- `set_auto_close_slot`. -/
def setAutoCloseSlot (autoCloseSlot : UInt64) : Op Unit := do
  let state ← channel
  check (state.metadata.status = .opened) (wrongStatus "open" state.metadata.status)
  updateMetadata fun m => { m with autoCloseSlot := some autoCloseSlot }
  persistState

/-- `auto_settle`. -/
def autoSettle (currentSlot settleWindow : UInt64) : Op Unit := do
  let state ← channel
  let autoClose ← orThrow state.metadata.autoCloseSlot (.other "auto_close_slot not set")
  check (¬ currentSlot < autoClose)
    (.other s!"auto_close_slot not yet reached (auto_close: {autoClose}, current: {currentSlot})")
  check (state.metadata.status = .opened) (wrongStatus "open" state.metadata.status)
  updateMetadata fun m => { m with status := .settling }
  let deadline ← addSlots env currentSlot settleWindow
  updateMetadata fun m => { m with settleDeadline := some deadline }
  update fun c => { c with providerCosign := none }
  persistState

/-- `trigger_challenge`. -/
def triggerChallenge (challengerPubkey : Pubkey) (currentSlot : UInt64) (submittedRoot : Bytes 32)
    (submittedSequence : UInt64) (challengerSignature : Bytes 64) : Op Unit := do
  let state ← channel
  check (state.metadata.status = .opened) (wrongStatus "open" state.metadata.status)
  check (state.metadata.isParticipant challengerPubkey)
    (.other "challenger is not a channel participant")
  let minSlot ← addSlots env state.metadata.openSlot state.metadata.minChallengeDelay
  check (¬ currentSlot < minSlot)
    (.other s!"cannot challenge before slot {minSlot} (min_challenge_delay, current: {currentSlot})")
  let sequence := state.metadata.sequence
  check (¬ submittedSequence ≤ sequence)
    (.other s!"submitted_sequence {submittedSequence} must be > current sequence {sequence}")
  check (env.verifyEd25519Signature
    (stateMessage env.sha state.metadata.channelId submittedSequence submittedRoot)
    challengerSignature challengerPubkey) (.error .invalidSignature)
  updateMetadata fun m => { m with
    status := .challenged
    challengeSlot := some currentSlot
    currentRoot := submittedRoot
    sequence := submittedSequence }
  persistState

/-- `settle_after_timeout`. -/
def settleAfterTimeout (currentSlot settleWindow : UInt64) : Op Unit := do
  let state ← channel
  check (state.metadata.status = .challenged) (wrongStatus "challenged" state.metadata.status)
  let challengeSlot ← orThrow state.metadata.challengeSlot (.other "challenge_slot not set")
  let duration := state.metadata.challengeDuration
  let challengeEnd ← addSlots env challengeSlot duration
  check (¬ currentSlot ≤ challengeEnd)
    (.other s!"challenge duration has not elapsed (challenge_slot: {challengeSlot}, duration: {duration}, current: {currentSlot}, need > {challengeEnd})")
  updateMetadata fun m => { m with status := .settling }
  let deadline ← addSlots env currentSlot settleWindow
  updateMetadata fun m => { m with settleDeadline := some deadline }
  update fun c => { c with providerCosign := none }
  persistState

/-- `submit_counter_state`; the state is accepted before the leaves are checked. -/
def submitCounterState (counterState : SignedState) (counterLeaves : Option (List UTXOLeaf))
    (userPubkey providerPubkey : Pubkey) : Op Unit := do
  let state ← channel
  check (state.metadata.status = .challenged) (wrongStatus "challenged" state.metadata.status)
  check (counterState.channelId = state.metadata.channelId)
    (.other "counter state channel ID mismatch")
  let submitted := counterState.sequence
  let sequence := state.metadata.sequence
  check (¬ submitted ≤ sequence)
    (.other s!"counter state sequence {submitted} must be greater than current {sequence}")
  check (env.verifyStateSignature counterState.channelId counterState.sequence counterState.root
    counterState.sigA userPubkey) (.error .invalidSignature)
  check (env.verifyStateSignature counterState.channelId counterState.sequence counterState.root
    counterState.sigB providerPubkey) (.error .invalidSignature)
  updateMetadata fun m => { m with
    sequence := counterState.sequence
    currentRoot := counterState.root }
  update fun c => { c with providerCosign := some counterState.sigB }
  match counterLeaves with
  | none => persistState
  | some leaves => do
    let newTree ← buildTree env leaves state.metadata.treeDepth
    check (newTree.root = counterState.root)
      (.other "counter state leaves root does not match signed root")
    update fun c => { c with tree := newTree }
    updateMetadata fun m => { m with leafCount := leafCount newTree }
    persistState

/-- `claim_leaf`. -/
def claimLeaf (leafIndex : UInt32) (claimAmount : UInt64) (claimerPubkey : Pubkey)
    (currentSlot : UInt64) (claimerSignature : Bytes 64) : Op Unit := do
  let state ← channel
  check (state.metadata.status = .settling) (wrongStatus "settling" state.metadata.status)
  let deadline ← orThrow state.metadata.settleDeadline (.other "settle_deadline not set")
  check (¬ currentSlot > deadline)
    (.other s!"settlement window has expired (deadline: {deadline}, current: {currentSlot})")
  check (leafIndex ∉ state.metadata.claimedLeaves)
    (.other s!"leaf {leafIndex} has already been claimed")
  check (state.metadata.isParticipant claimerPubkey)
    (.other "claimer is not a channel participant")
  check (env.verifyEd25519Signature
    (claimMessage env.sha state.metadata.channelId leafIndex claimAmount currentSlot)
    claimerSignature claimerPubkey) (.error .invalidSignature)
  let leaf ← orThrow (state.tree.getLeaf leafIndex.toNat)
    (.error (.leafIndexOutOfBounds leafIndex.toNat state.tree.maxLeaves))
  check (leaf.amount ≠ 0) (.other s!"leaf {leafIndex} is empty and cannot be claimed")
  check (leaf.leafType = .standard)
    (.other s!"leaf {leafIndex} is not a Standard leaf and cannot be claimed via claim_leaf")
  check (leaf.owner = claimerPubkey) (.other s!"leaf {leafIndex} owner does not match claimer")
  let amount := leaf.amount
  check (claimAmount = amount)
    (.other s!"claim_amount {claimAmount} does not match leaf amount {amount}")
  let proof ← orThrow (state.tree.getProof leafIndex.toNat)
    (.error (.leafIndexOutOfBounds leafIndex.toNat state.tree.maxLeaves))
  check (verifyProof env.sha (leaf.hash env.sha) proof state.metadata.currentRoot)
    (.error .proofVerificationFailed)
  let newTotal := saturatingAdd state.metadata.totalClaimed claimAmount
  check (¬ newTotal > state.metadata.totalDeposited)
    (.other "total_claimed would exceed total_deposited")
  updateMetadata fun m => { m with
    totalClaimed := newTotal
    claimedLeaves := insert leafIndex m.claimedLeaves }
  persistState

/-- The two refunds of `finalize_settlement`; the product is on `u128`. -/
def refunds (m : ChannelMetadata) : UInt64 × UInt64 :=
  let unclaimed := saturatingSub m.totalDeposited m.totalClaimed
  let totalDeposit := saturatingAdd m.depositA m.depositB
  if totalDeposit > 0 then
    let refundA := UInt64.ofNat (unclaimed.toNat * m.depositA.toNat / totalDeposit.toNat)
    (refundA, saturatingSub unclaimed refundA)
  else (unclaimed, 0)

/-- `finalize_settlement`. -/
def finalizeSettlement (currentSlot : UInt64) (callerPubkey : Pubkey)
    (callerSignature : Bytes 64) : Op (UInt64 × UInt64) := do
  let state ← channel
  check (state.metadata.status = .settling) (wrongStatus "settling" state.metadata.status)
  let deadline ← orThrow state.metadata.settleDeadline (.other "settle_deadline not set")
  check (¬ currentSlot < deadline)
    (.other s!"settlement window has not expired (deadline: {deadline}, current: {currentSlot})")
  check (env.verifyEd25519Signature
    (stateMessage env.sha state.metadata.channelId currentSlot state.metadata.currentRoot)
    callerSignature callerPubkey) (.error .invalidSignature)
  updateMetadata fun m => { m with status := .closed }
  persistState
  return refunds state.metadata

/-! ### What they check and leave behind -/

section

variable {env} {l l' : Local} {u : Unit}

/-- A channel as it is in memory and, after `persist_state`, in the database. -/
def Local.saved (l : Local) (c : ChannelState) : Local := ⟨c, l.db.persist c⟩

/-- Both parties' signatures on a state pass. -/
structure SignedBy (env : Env) (s : SignedState) (userPubkey providerPubkey : Pubkey) : Prop where
  sigA : env.verifyStateSignature s.channelId s.sequence s.root s.sigA userPubkey
  sigB : env.verifyStateSignature s.channelId s.sequence s.root s.sigB providerPubkey

/-- What `close_channel` checks. -/
structure Closes (env : Env) (c : ChannelState) (s : SignedState)
    (userPubkey providerPubkey : Pubkey) : Prop where
  status_eq : c.metadata.status = .opened
  no_htlc : htlcLeaves c.tree = []
  channelId_eq : s.channelId = c.metadata.channelId
  root_eq : s.root = c.metadata.currentRoot
  sequence_eq : s.sequence = c.metadata.sequence
  signed : SignedBy env s userPubkey providerPubkey

theorem closeChannel_returns {signedState : SignedState} {userPubkey providerPubkey : Pubkey}
    {currentSlot settleWindow : UInt64} :
    Returns (closeChannel env signedState userPubkey providerPubkey currentSlot settleWindow) l u l' ↔
      Closes env l.channel signedState userPubkey providerPubkey ∧
        ∃ deadline, addU64 env.overflowChecks currentSlot settleWindow = some deadline ∧
          l' = l.saved { l.channel with
            metadata := { l.channel.metadata with
              status := .settling
              settleDeadline := some deadline }
            providerCosign := none } := by
  simp only [closeChannel, returns_channel_bind, returns_check_bind, returns_updateMetadata_bind,
    returns_addSlots_bind, returns_update_bind, returns_persistState]
  constructor
  · rintro ⟨hstatus, hhtlc, hid, hroot, hseq, hA, hB, deadline, hdeadline, rfl⟩
    exact ⟨⟨hstatus, hhtlc, hid, hroot, hseq, hA, hB⟩, deadline, hdeadline, rfl⟩
  · rintro ⟨h, deadline, hdeadline, rfl⟩
    exact ⟨h.status_eq, h.no_htlc, h.channelId_eq, h.root_eq, h.sequence_eq, h.signed.sigA,
      h.signed.sigB, deadline, hdeadline, rfl⟩

theorem setAutoCloseSlot_returns {autoCloseSlot : UInt64} :
    Returns (setAutoCloseSlot autoCloseSlot) l u l' ↔
      l.channel.metadata.status = .opened ∧
        l' = l.saved { l.channel with
          metadata := { l.channel.metadata with autoCloseSlot := some autoCloseSlot } } := by
  simp only [setAutoCloseSlot, returns_channel_bind, returns_check_bind,
    returns_updateMetadata_bind, returns_persistState]
  exact and_congr_right fun _ => eq_comm

/-- The channel, settling until the deadline. -/
def ChannelState.settled (c : ChannelState) (deadline : UInt64) : ChannelState :=
  { c with
    metadata := { c.metadata with
      status := .settling
      settleDeadline := some deadline }
    providerCosign := none }

theorem autoSettle_returns {currentSlot settleWindow : UInt64} :
    Returns (autoSettle env currentSlot settleWindow) l u l' ↔
      l.channel.metadata.status = .opened ∧
        (∃ autoClose, l.channel.metadata.autoCloseSlot = some autoClose ∧
          ¬ currentSlot < autoClose) ∧
        ∃ deadline, addU64 env.overflowChecks currentSlot settleWindow = some deadline ∧
          l' = l.saved (l.channel.settled deadline) := by
  simp only [autoSettle, returns_channel_bind, returns_check_bind, returns_orThrow_bind,
    returns_updateMetadata_bind, returns_addSlots_bind, returns_update_bind, returns_persistState]
  constructor
  · rintro ⟨autoClose, hauto, hslot, hstatus, deadline, hdeadline, rfl⟩
    exact ⟨hstatus, ⟨autoClose, hauto, hslot⟩, deadline, hdeadline, rfl⟩
  · rintro ⟨hstatus, ⟨autoClose, hauto, hslot⟩, deadline, hdeadline, rfl⟩
    exact ⟨autoClose, hauto, hslot, hstatus, deadline, hdeadline, rfl⟩

theorem settleAfterTimeout_returns {currentSlot settleWindow : UInt64} :
    Returns (settleAfterTimeout env currentSlot settleWindow) l u l' ↔
      l.channel.metadata.status = .challenged ∧
        (∃ challengeSlot challengeEnd, l.channel.metadata.challengeSlot = some challengeSlot ∧
          addU64 env.overflowChecks challengeSlot l.channel.metadata.challengeDuration
            = some challengeEnd ∧ ¬ currentSlot ≤ challengeEnd) ∧
        ∃ deadline, addU64 env.overflowChecks currentSlot settleWindow = some deadline ∧
          l' = l.saved (l.channel.settled deadline) := by
  simp only [settleAfterTimeout, returns_channel_bind, returns_check_bind, returns_orThrow_bind,
    returns_updateMetadata_bind, returns_addSlots_bind, returns_update_bind, returns_persistState]
  constructor
  · rintro ⟨hstatus, challengeSlot, hchallenge, challengeEnd, hend, hslot, deadline, hdeadline, rfl⟩
    exact ⟨hstatus, ⟨challengeSlot, challengeEnd, hchallenge, hend, hslot⟩, deadline, hdeadline, rfl⟩
  · rintro ⟨hstatus, ⟨challengeSlot, challengeEnd, hchallenge, hend, hslot⟩, deadline, hdeadline, rfl⟩
    exact ⟨hstatus, challengeSlot, hchallenge, challengeEnd, hend, hslot, deadline, hdeadline, rfl⟩

/-- What `trigger_challenge` checks. -/
structure Triggers (env : Env) (c : ChannelState) (challengerPubkey : Pubkey)
    (currentSlot : UInt64) (submittedRoot : Bytes 32) (submittedSequence : UInt64)
    (challengerSignature : Bytes 64) : Prop where
  status_eq : c.metadata.status = .opened
  participant : c.metadata.isParticipant challengerPubkey
  minSlot_le : ∃ minSlot, addU64 env.overflowChecks c.metadata.openSlot
    c.metadata.minChallengeDelay = some minSlot ∧ ¬ currentSlot < minSlot
  sequence_lt : ¬ submittedSequence ≤ c.metadata.sequence
  signature : env.verifyEd25519Signature
    (stateMessage env.sha c.metadata.channelId submittedSequence submittedRoot)
    challengerSignature challengerPubkey

theorem triggerChallenge_returns {challengerPubkey : Pubkey} {currentSlot : UInt64}
    {submittedRoot : Bytes 32} {submittedSequence : UInt64} {challengerSignature : Bytes 64} :
    Returns (triggerChallenge env challengerPubkey currentSlot submittedRoot submittedSequence
        challengerSignature) l u l' ↔
      Triggers env l.channel challengerPubkey currentSlot submittedRoot submittedSequence
        challengerSignature ∧
        l' = l.saved { l.channel with
          metadata := { l.channel.metadata with
            status := .challenged
            challengeSlot := some currentSlot
            currentRoot := submittedRoot
            sequence := submittedSequence } } := by
  simp only [triggerChallenge, returns_channel_bind, returns_check_bind,
    returns_updateMetadata_bind, returns_addSlots_bind, returns_persistState]
  constructor
  · rintro ⟨hstatus, hparty, minSlot, hmin, hslot, hseq, hsig, rfl⟩
    exact ⟨⟨hstatus, hparty, ⟨minSlot, hmin, hslot⟩, hseq, hsig⟩, rfl⟩
  · rintro ⟨h, rfl⟩
    obtain ⟨minSlot, hmin, hslot⟩ := h.minSlot_le
    exact ⟨h.status_eq, h.participant, minSlot, hmin, hslot, h.sequence_lt, h.signature, rfl⟩

/-- What `submit_counter_state` checks before it accepts the state. -/
structure Counters (env : Env) (c : ChannelState) (s : SignedState)
    (userPubkey providerPubkey : Pubkey) : Prop where
  status_eq : c.metadata.status = .challenged
  channelId_eq : s.channelId = c.metadata.channelId
  sequence_lt : ¬ s.sequence ≤ c.metadata.sequence
  signed : SignedBy env s userPubkey providerPubkey

/-- The channel with an accepted counter-state, before its leaves. -/
def ChannelState.countered (c : ChannelState) (s : SignedState) : ChannelState :=
  { c with
    metadata := { c.metadata with
      sequence := s.sequence
      currentRoot := s.root }
    providerCosign := some s.sigB }

theorem submitCounterState_returns {counterState : SignedState}
    {counterLeaves : Option (List UTXOLeaf)} {userPubkey providerPubkey : Pubkey} :
    Returns (submitCounterState env counterState counterLeaves userPubkey providerPubkey) l u l' ↔
      Counters env l.channel counterState userPubkey providerPubkey ∧
        match counterLeaves with
        | none => l' = l.saved (l.channel.countered counterState)
        | some leaves => ∃ tree,
          MerkleTree.new env.sha leaves l.channel.metadata.treeDepth.toNat = some tree ∧
          tree.root = counterState.root ∧
          l' = l.saved { l.channel.countered counterState with
            metadata := { (l.channel.countered counterState).metadata with
              leafCount := leafCount tree }
            tree := tree } := by
  -- Without leaves the manager keeps its tree, whose root is then no longer the channel's.
  cases counterLeaves with
  | none =>
    simp only [submitCounterState, returns_channel_bind, returns_check_bind,
      returns_updateMetadata_bind, returns_update_bind, returns_persistState]
    constructor
    · rintro ⟨hstatus, hid, hseq, hA, hB, rfl⟩
      exact ⟨⟨hstatus, hid, hseq, hA, hB⟩, rfl⟩
    · rintro ⟨h, rfl⟩
      exact ⟨h.status_eq, h.channelId_eq, h.sequence_lt, h.signed.sigA, h.signed.sigB, rfl⟩
  | some leaves =>
    simp only [submitCounterState, returns_channel_bind, returns_check_bind, buildTree,
      returns_orThrow_bind, returns_updateMetadata_bind, returns_update_bind,
      returns_persistState]
    constructor
    · rintro ⟨hstatus, hid, hseq, hA, hB, tree, htree, hroot, rfl⟩
      exact ⟨⟨hstatus, hid, hseq, hA, hB⟩, tree, htree, hroot, rfl⟩
    · rintro ⟨h, tree, htree, hroot, rfl⟩
      exact ⟨h.status_eq, h.channelId_eq, h.sequence_lt, h.signed.sigA, h.signed.sigB, tree, htree,
        hroot, rfl⟩

/-- What `claim_leaf` checks of the claim itself. -/
structure Claims (env : Env) (c : ChannelState) (leafIndex : UInt32) (claimAmount : UInt64)
    (claimerPubkey : Pubkey) (currentSlot : UInt64) (claimerSignature : Bytes 64) : Prop where
  status_eq : c.metadata.status = .settling
  deadline_le : ∃ deadline, c.metadata.settleDeadline = some deadline ∧ ¬ currentSlot > deadline
  unclaimed : leafIndex ∉ c.metadata.claimedLeaves
  participant : c.metadata.isParticipant claimerPubkey
  signature : env.verifyEd25519Signature
    (claimMessage env.sha c.metadata.channelId leafIndex claimAmount currentSlot)
    claimerSignature claimerPubkey

/-- What `claim_leaf` checks of the leaf, with the proof it takes from the tree. -/
structure ClaimsLeaf (env : Env) (c : ChannelState) (leafIndex : UInt32) (claimAmount : UInt64)
    (claimerPubkey : Pubkey) (leaf : UTXOLeaf) (proof : List (Bytes 32)) : Prop where
  leaf_eq : c.tree.getLeaf leafIndex.toNat = some leaf
  nonempty : leaf.amount ≠ 0
  type_eq : leaf.leafType = .standard
  owner_eq : leaf.owner = claimerPubkey
  amount_eq : claimAmount = leaf.amount
  proof_eq : c.tree.getProof leafIndex.toNat = some proof
  verified : verifyProof env.sha (leaf.hash env.sha) proof c.metadata.currentRoot

theorem claimLeaf_returns {leafIndex : UInt32} {claimAmount : UInt64} {claimerPubkey : Pubkey}
    {currentSlot : UInt64} {claimerSignature : Bytes 64} :
    Returns (claimLeaf env leafIndex claimAmount claimerPubkey currentSlot claimerSignature) l u l' ↔
      Claims env l.channel leafIndex claimAmount claimerPubkey currentSlot claimerSignature ∧
      (∃ leaf proof, ClaimsLeaf env l.channel leafIndex claimAmount claimerPubkey leaf proof) ∧
      ¬ saturatingAdd l.channel.metadata.totalClaimed claimAmount
        > l.channel.metadata.totalDeposited ∧
      l' = l.saved { l.channel with
        metadata := { l.channel.metadata with
          totalClaimed := saturatingAdd l.channel.metadata.totalClaimed claimAmount
          claimedLeaves := insert leafIndex l.channel.metadata.claimedLeaves } } := by
  simp only [claimLeaf, returns_channel_bind, returns_check_bind, returns_orThrow_bind,
    returns_updateMetadata_bind, returns_persistState]
  constructor
  · rintro ⟨hstatus, deadline, hdeadline, hslot, hfree, hparty, hsig, leaf, hleaf, hne, htype,
      howner, hamount, proof, hproof, hverified, htotal, rfl⟩
    exact ⟨⟨hstatus, ⟨deadline, hdeadline, hslot⟩, hfree, hparty, hsig⟩,
      ⟨leaf, proof, hleaf, hne, htype, howner, hamount, hproof, hverified⟩, htotal, rfl⟩
  · rintro ⟨h, ⟨leaf, proof, hl⟩, htotal, rfl⟩
    obtain ⟨deadline, hdeadline, hslot⟩ := h.deadline_le
    exact ⟨h.status_eq, deadline, hdeadline, hslot, h.unclaimed, h.participant, h.signature, leaf,
      hl.leaf_eq, hl.nonempty, hl.type_eq, hl.owner_eq, hl.amount_eq, proof, hl.proof_eq,
      hl.verified, htotal, rfl⟩

/-- What `finalize_settlement` checks; the caller can be anybody. -/
structure Finalizes (env : Env) (c : ChannelState) (currentSlot : UInt64) (callerPubkey : Pubkey)
    (callerSignature : Bytes 64) : Prop where
  status_eq : c.metadata.status = .settling
  deadline_le : ∃ deadline, c.metadata.settleDeadline = some deadline ∧ ¬ currentSlot < deadline
  signature : env.verifyEd25519Signature
    (stateMessage env.sha c.metadata.channelId currentSlot c.metadata.currentRoot)
    callerSignature callerPubkey

theorem finalizeSettlement_returns {currentSlot : UInt64} {callerPubkey : Pubkey}
    {callerSignature : Bytes 64} {r : UInt64 × UInt64} :
    Returns (finalizeSettlement env currentSlot callerPubkey callerSignature) l r l' ↔
      Finalizes env l.channel currentSlot callerPubkey callerSignature ∧
        r = refunds l.channel.metadata ∧
        l' = l.saved { l.channel with
          metadata := { l.channel.metadata with status := .closed } } := by
  simp only [finalizeSettlement, returns_channel_bind, returns_check_bind, returns_orThrow_bind,
    returns_updateMetadata_bind, returns_persistState_bind, returns_pure]
  constructor
  · rintro ⟨hstatus, deadline, hdeadline, hslot, hsig, rfl, rfl⟩
    exact ⟨⟨hstatus, ⟨deadline, hdeadline, hslot⟩, hsig⟩, rfl, rfl⟩
  · rintro ⟨h, rfl, rfl⟩
    obtain ⟨deadline, hdeadline, hslot⟩ := h.deadline_le
    exact ⟨h.status_eq, deadline, hdeadline, hslot, h.signature, rfl, rfl⟩

end

end StateChannel
