/-
Operations that sign with a keypair (`channel.rs`, `signing.rs`):
`open_channel`, `fund_channel`, `construct_split_tree` and
`provider_cosign_state`.

A keypair comes from outside, as its public key and its signatures.  Whose
keypair it is, only `fund_channel` checks.

* `fundChannel_returns`, `constructSplitTree_returns`,
  `providerCosignState_returns` — what a call has checked and what it leaves.
-/
import IgnitePay.Lib.Sha256
import IgnitePay.StateChannel.Updates

namespace StateChannel

open Bytes Machine Solana

/-! ### Keypairs -/

structure Keypair where
  publicKey : Pubkey
  sign : List UInt8 → Bytes 64

/-- The keypair's signatures verify under its key. -/
def Keypair.Genuine (env : Env) (k : Keypair) : Prop :=
  ∀ message, env.verifyStrict k.publicKey message (k.sign message)

section

variable (env : Env)

/-- `sign_state`. -/
def signState (channelId : Bytes 32) (sequence : UInt64) (root : Bytes 32) (keypair : Keypair) :
    Bytes 64 :=
  keypair.sign (stateMessage env.sha channelId sequence root).val

theorem verify_signState {env : Env} {keypair : Keypair} (h : keypair.Genuine env)
    (channelId : Bytes 32) (sequence : UInt64) (root : Bytes 32) :
    env.verifyStateSignature channelId sequence root
      (signState env channelId sequence root keypair) keypair.publicKey := h _

/-- `sign_leaf_update`. -/
def signLeafUpdate (channelId : Bytes 32) (sequence : UInt64) (leafIndex : UInt32)
    (prevLeaf newLeaf : UTXOLeaf) (signer : Keypair) : LeafUpdate :=
  let prevLeafHash := prevLeaf.hash env.sha
  let message := leafUpdateMessage env.sha channelId sequence leafIndex prevLeafHash
    (newLeaf.hash env.sha)
  { channelId, sequence, leafIndex, prevLeafHash, newLeaf, signature := signer.sign message.val }

/-! ### The methods -/

/-- What `open_channel` is called with. -/
structure OpenArgs where
  userPubkey : Pubkey
  providerPubkey : Pubkey
  tokenMint : Pubkey
  depositAmount : UInt64
  treeDepth : UInt32
  openSlot : UInt64
  vaultA : Pubkey
  vaultB : Pubkey
  challengeDuration : UInt64
  minChallengeDelay : UInt64
  autoCloseSlot : Option UInt64

/-- The metadata of a new channel. -/
def OpenArgs.metadata (a : OpenArgs) (channelId : Bytes 32) (tree : MerkleTree) :
    ChannelMetadata where
  channelId
  userPubkey := a.userPubkey
  providerPubkey := a.providerPubkey
  tokenMint := a.tokenMint
  treeDepth := a.treeDepth
  status := .opened
  sequence := 0
  currentRoot := tree.root
  totalDeposited := a.depositAmount
  openSlot := a.openSlot
  challengeSlot := none
  vaultA := a.vaultA
  vaultB := a.vaultB
  depositA := a.depositAmount
  depositB := 0
  challengeDuration := a.challengeDuration
  minChallengeDelay := a.minChallengeDelay
  autoCloseSlot := a.autoCloseSlot
  totalClaimed := 0
  settleDeadline := none
  leafCount := leafCount tree
  claimedLeaves := ∅

/-- `open_channel`; the id is the hash of a keypair made up for it. -/
def openChannel (a : OpenArgs) (channelId : Bytes 32) (db : Db) :
    Except StateChannelError (ChannelState × Db) := do
  require (a.depositAmount ≠ 0) (.other "deposit_amount must be > 0")
  let rootLeaf := UTXOLeaf.standard a.userPubkey a.depositAmount
  let tree ← orErr (MerkleTree.new env.sha [rootLeaf] a.treeDepth.toNat)
    (.leafIndexOutOfBounds 1 (2 ^ a.treeDepth.toNat))
  let state : ChannelState := ⟨a.metadata channelId tree, tree, none⟩
  return (state, db.persist state)

/-- The empty slot that `fund_channel` fills. -/
def findSlot (tree : MerkleTree) : Option ℕ → Op ℕ
  | some idx => do
    let leaf ← orThrow (tree.getLeaf idx) (.error (.leafIndexOutOfBounds idx tree.maxLeaves))
    check (leaf.amount = 0) (.error .leafSlotOccupied)
    return idx
  | none => orThrow tree.availableSlots.head? (.error .noAvailableSlots)

/-- `fund_channel`. -/
def fundChannel (providerKeypair : Keypair) (depositB : UInt64) (providerLeafIndex : Option ℕ) :
    Op LeafUpdate := do
  let state ← channel
  let m := state.metadata
  check (m.status = .opened) (wrongStatus "open" m.status)
  let funded := m.depositB
  check (funded = 0) (.other s!"channel already has provider funding (deposit_b: {funded})")
  check (providerKeypair.publicKey = m.providerPubkey) (.other "signer is not the channel provider")
  check (depositB ≠ 0) (.other "deposit_b must be > 0")
  let maxDepositB := saturatingSub (UInt64.ofNat (2 ^ 64 - 1)) m.totalDeposited
  check (¬ depositB > maxDepositB)
    (.other s!"deposit_b {depositB} would cause total_deposited overflow (max allowed: {maxDepositB})")
  let targetIndex ← findSlot state.tree providerLeafIndex
  let prevLeaf ← orThrow (state.tree.getLeaf targetIndex) .panic
  let newLeaf := UTXOLeaf.standard providerKeypair.publicKey depositB
  let newSequence ← nextSequence env m.sequence
  let update := signLeafUpdate env m.channelId newSequence (UInt32.ofNat targetIndex) prevLeaf newLeaf
    providerKeypair
  updateLeaf env targetIndex newLeaf
  updateMetadata fun m => { m with sequence := newSequence }
  StateChannel.update fun c => { c with metadata := { c.metadata with currentRoot := c.tree.root } }
  StateChannel.update fun c => { c with metadata := { c.metadata with leafCount := leafCount c.tree } }
  updateMetadata fun m => { m with
    depositB
    totalDeposited := saturatingAdd m.totalDeposited depositB }
  StateChannel.update fun c => { c with providerCosign := none }
  persistState
  return update

/-- `fold` with `saturating_add` over the amounts. -/
def foldAmounts (leaves : List UTXOLeaf) : UInt64 :=
  leaves.foldl (fun acc l => saturatingAdd acc l.amount) 0

/-- The loop over the owners in `construct_split_tree`, from leaf `i` on. -/
def ownerTotals (userPubkey providerPubkey : Pubkey) :
    ℕ → List UTXOLeaf → UInt64 × UInt64 → Except Failure (UInt64 × UInt64)
  | _, [], totals => .ok totals
  | i, leaf :: leaves, (userTotal, providerTotal) =>
    if leaf.amount = 0 then
      ownerTotals userPubkey providerPubkey (i + 1) leaves (userTotal, providerTotal)
    else if leaf.owner = userPubkey then
      ownerTotals userPubkey providerPubkey (i + 1) leaves
        (saturatingAdd userTotal leaf.amount, providerTotal)
    else if leaf.owner = providerPubkey then
      ownerTotals userPubkey providerPubkey (i + 1) leaves
        (userTotal, saturatingAdd providerTotal leaf.amount)
    else
      let owner := debugPubkey leaf.owner
      .error (.other s!"leaf {i} owner {owner} is neither user nor provider")

/-- `construct_split_tree`; it does not look at the status. -/
def constructSplitTree (leaves : List UTXOLeaf) (userKeypair providerKeypair : Keypair) :
    Op SignedState := do
  let state ← channel
  let m := state.metadata
  let total := foldAmounts leaves
  check (total = m.totalDeposited) (.error (.amountConservation m.totalDeposited total))
  let (userTotal, providerTotal) ← ofResult
    (ownerTotals m.userPubkey m.providerPubkey 0 leaves (0, 0))
  let depositA := m.depositA
  let depositB := m.depositB
  check (userTotal = depositA)
    (.other s!"user leaf total {userTotal} does not match deposit_a {depositA}")
  check (providerTotal = depositB)
    (.other s!"provider leaf total {providerTotal} does not match deposit_b {depositB}")
  let newTree ← buildTree env leaves m.treeDepth
  let newSequence ← nextSequence env m.sequence
  let sigA := signState env m.channelId newSequence newTree.root userKeypair
  let sigB := signState env m.channelId newSequence newTree.root providerKeypair
  StateChannel.update fun c => { c with tree := newTree }
  updateMetadata fun m => { m with
    sequence := newSequence
    currentRoot := newTree.root }
  StateChannel.update fun c => { c with metadata := { c.metadata with leafCount := leafCount c.tree } }
  StateChannel.update fun c => { c with providerCosign := some sigB }
  persistState
  return ⟨m.channelId, newSequence, newTree.root, sigA, sigB⟩

/-- `provider_cosign_state`. -/
def providerCosignState (providerKeypair : Keypair) : Op (Bytes 64) := do
  let state ← channel
  let m := state.metadata
  let sig := signState env m.channelId m.sequence m.currentRoot providerKeypair
  StateChannel.update fun c => { c with providerCosign := some sig }
  persistState
  return sig

/-! ### What they check and leave behind -/

section

variable {env} {l l' : Local} {providerKeypair userKeypair : Keypair}

theorem openChannel_ok {a : OpenArgs} {channelId : Bytes 32} {db db' : Db} {c : ChannelState}
    (h : openChannel env a channelId db = .ok (c, db')) : ∃ tree,
      MerkleTree.new env.sha [.standard a.userPubkey a.depositAmount] a.treeDepth.toNat = some tree ∧
        c = ⟨a.metadata channelId tree, tree, none⟩ ∧ db' = db.persist c := by
  simp only [openChannel, bind_eq_ok, require_eq_ok, orErr_eq_ok, pure, Except.pure,
    Except.ok.injEq, Prod.mk.injEq] at h
  obtain ⟨-, -, tree, htree, rfl, rfl⟩ := h
  exact ⟨tree, htree, rfl, rfl⟩

theorem valid_of_openChannel {a : OpenArgs} {channelId : Bytes 32} {db db' : Db} {c : ChannelState}
    (h : openChannel env a channelId db = .ok (c, db')) : c.Valid env.sha := by
  obtain ⟨tree, htree, rfl, -⟩ := openChannel_ok h
  exact ⟨isTree_of_new htree, treeDepth_of_new htree⟩

/-- What `fund_channel` checks of the channel. -/
structure Funds (c : ChannelState) (providerKeypair : Keypair) (depositB : UInt64) : Prop where
  status_eq : c.metadata.status = .opened
  unfunded : c.metadata.depositB = 0
  provider_eq : providerKeypair.publicKey = c.metadata.providerPubkey
  positive : depositB ≠ 0
  fits : ¬ depositB > saturatingSub (UInt64.ofNat (2 ^ 64 - 1)) c.metadata.totalDeposited

/-- The slot is empty: the one asked for, or the first that is. -/
def FreeSlot (tree : MerkleTree) (requested : Option ℕ) (index : ℕ) : Prop :=
  match requested with
  | some idx => index = idx ∧ ∃ leaf, tree.getLeaf idx = some leaf ∧ leaf.amount = 0
  | none => tree.availableSlots.head? = some index

/-- The channel with the provider's deposit in its tree. -/
def ChannelState.funded (c : ChannelState) (depositB newSequence : UInt64) (tree : MerkleTree) :
    ChannelState where
  tree
  metadata := { c.metadata with
    sequence := newSequence
    currentRoot := tree.root
    leafCount := leafCount tree
    depositB
    totalDeposited := saturatingAdd c.metadata.totalDeposited depositB }
  providerCosign := none

theorem findSlot_returns_bind {α : Type} {tree : MerkleTree} {requested : Option ℕ} {f : ℕ → Op α}
    {a : α} : Returns (findSlot tree requested >>= f) l a l' ↔
      ∃ index, FreeSlot tree requested index ∧ Returns (f index) l a l' := by
  cases requested with
  | none => exact returns_orThrow_bind
  | some idx =>
    simp only [findSlot, bind_assoc, pure_bind, returns_orThrow_bind, returns_check_bind, FreeSlot]
    constructor
    · rintro ⟨leaf, hleaf, hempty, h⟩
      exact ⟨idx, ⟨rfl, leaf, hleaf, hempty⟩, h⟩
    · rintro ⟨_, ⟨rfl, leaf, hleaf, hempty⟩, h⟩
      exact ⟨leaf, hleaf, hempty, h⟩

theorem fundChannel_returns {depositB : UInt64} {providerLeafIndex : Option ℕ} {u : LeafUpdate} :
    Returns (fundChannel env providerKeypair depositB providerLeafIndex) l u l' ↔
      Funds l.channel providerKeypair depositB ∧ ∃ index prevLeaf newSequence tree,
        FreeSlot l.channel.tree providerLeafIndex index ∧
        l.channel.tree.getLeaf index = some prevLeaf ∧
        addU64 env.overflowChecks l.channel.metadata.sequence 1 = some newSequence ∧
        ¬ index ≥ l.channel.tree.maxLeaves ∧
        l.channel.tree.updateLeaf env.sha index
          (.standard providerKeypair.publicKey depositB) = some tree ∧
        u = signLeafUpdate env l.channel.metadata.channelId newSequence (UInt32.ofNat index) prevLeaf
          (.standard providerKeypair.publicKey depositB) providerKeypair ∧
        l' = l.saved (l.channel.funded depositB newSequence tree) := by
  simp only [fundChannel, updateLeaf, bind_assoc, returns_channel_bind, returns_check_bind,
    findSlot_returns_bind, returns_orThrow_bind, nextSequence, returns_update_bind,
    returns_updateMetadata_bind, returns_persistState_bind, returns_pure]
  constructor
  · rintro ⟨hstatus, hzero, hkey, hpos, hfits, index, hslot, prevLeaf, hprev, newSequence, hseq,
      hindex, tree, htree, rfl, rfl⟩
    exact ⟨⟨hstatus, hzero, hkey, hpos, hfits⟩, index, prevLeaf, newSequence, tree, hslot, hprev,
      hseq, hindex, htree, rfl, rfl⟩
  · rintro ⟨h, index, prevLeaf, newSequence, tree, hslot, hprev, hseq, hindex, htree, rfl, rfl⟩
    exact ⟨h.status_eq, h.unfunded, h.provider_eq, h.positive, h.fits, index, hslot, prevLeaf, hprev,
      newSequence, hseq, hindex, tree, htree, rfl, rfl⟩

/-- What `construct_split_tree` checks: sums, and whose the leaves are. -/
structure Splits (c : ChannelState) (leaves : List UTXOLeaf) : Prop where
  total_eq : foldAmounts leaves = c.metadata.totalDeposited
  totals_eq : ownerTotals c.metadata.userPubkey c.metadata.providerPubkey 0 leaves (0, 0)
    = .ok (c.metadata.depositA, c.metadata.depositB)

/-- The channel with another tree, agreed on in a new sequence. -/
def ChannelState.split (c : ChannelState) (newSequence : UInt64) (tree : MerkleTree)
    (sigB : Bytes 64) : ChannelState where
  tree
  metadata := { c.metadata with
    sequence := newSequence
    currentRoot := tree.root
    leafCount := leafCount tree }
  providerCosign := some sigB

theorem constructSplitTree_returns {leaves : List UTXOLeaf} {r : SignedState} :
    Returns (constructSplitTree env leaves userKeypair providerKeypair) l r l' ↔
      Splits l.channel leaves ∧ ∃ tree newSequence,
        MerkleTree.new env.sha leaves l.channel.metadata.treeDepth.toNat = some tree ∧
        addU64 env.overflowChecks l.channel.metadata.sequence 1 = some newSequence ∧
        r = ⟨l.channel.metadata.channelId, newSequence, tree.root,
          signState env l.channel.metadata.channelId newSequence tree.root userKeypair,
          signState env l.channel.metadata.channelId newSequence tree.root providerKeypair⟩ ∧
        l' = l.saved (l.channel.split newSequence tree r.sigB) := by
  simp only [constructSplitTree, returns_channel_bind, returns_check_bind, returns_ofResult_bind,
    buildTree, returns_orThrow_bind, nextSequence, returns_update_bind, returns_updateMetadata_bind,
    returns_persistState_bind, returns_pure]
  constructor
  · rintro ⟨htotal, ⟨userTotal, providerTotal⟩, htotals, rfl, rfl, tree, htree, newSequence, hseq, rfl,
      rfl⟩
    exact ⟨⟨htotal, htotals⟩, tree, newSequence, htree, hseq, rfl, rfl⟩
  · rintro ⟨h, tree, newSequence, htree, hseq, rfl, rfl⟩
    exact ⟨h.total_eq, _, h.totals_eq, rfl, rfl, tree, htree, newSequence, hseq, rfl, rfl⟩

theorem providerCosignState_returns {sig : Bytes 64} :
    Returns (providerCosignState env providerKeypair) l sig l' ↔
      sig = signState env l.channel.metadata.channelId l.channel.metadata.sequence
        l.channel.metadata.currentRoot providerKeypair ∧
      l' = l.saved { l.channel with providerCosign := some sig } := by
  simp only [providerCosignState, returns_channel_bind, returns_update_bind,
    returns_persistState_bind, returns_pure]
  constructor
  · rintro ⟨rfl, rfl⟩
    exact ⟨rfl, rfl⟩
  · rintro ⟨rfl, rfl⟩
    exact ⟨rfl, rfl⟩

end

end

/-! ### Two parties to run it with -/

namespace Sample

/-- Thirty-two bytes as a number, the lowest first. -/
def number (n : ℕ) : Bytes 32 := Bytes.number 32 n

/-- A signature from its two halves. -/
def signature (r s : ℕ) : Bytes 64 :=
  ⟨(number r).val ++ (number s).val, by rw [List.length_append, length_val, length_val]⟩

def payer : Pubkey := number 0x59c52377063aefbb926ce470d796a72d1641463d08593eaa627b0e74824f249d

def seller : Pubkey := number 0xc692104c48aec7872fc9d444da64008ec8d02c9b813ec24e2e7889f2311a1cfa

/-- The signatures that the two make, by key and message. -/
def made : List ((Pubkey × Bytes 32) × Bytes 64) := [
  -- An update: the second leaf, 4 for the seller.
  ((payer, number 0xeb672e1a66191ef98a62700f9489a0b173220806fa23d16f7a321e1482988b27),
    signature 0x87b09bc3738caa4a45069caaf5ed54cd55f66b8b3a1f1d937cbe7125506179a6
      0x0917bab899bf74b8150180102557c588922279d20ef0ae292504328e158d6418),
  -- An update: the first leaf becomes an HTLC.
  ((payer, number 0xe4660efd1eb267844dbff0c8ca79c96c7229b1f20497b95c6e0c9ab7973a3fd8),
    signature 0x837fb68f453d4bc82cb0ddd4f04a6b7796dee8244a6d060c22bf705077a49977
      0x0c27275b588a61694a9b076b00b4a4b7cdac799f852e81703617a2d4f4a66222),
  -- The state that a channel opens with.
  ((payer, number 0x82b7efbe43b16b705a1dcb55a410ee3fe34602fbd2ebb9a9918cf7abaf00e45f),
    signature 0x0664256cdae05ca8dd907dc4d5c3bb4ffd1d2bced23e5c58f4acde092f3ff61a
      0x080262817bd7d88031ba5e87976b306f036574ca80e456c273ace61c36fafe49),
  ((seller, number 0x82b7efbe43b16b705a1dcb55a410ee3fe34602fbd2ebb9a9918cf7abaf00e45f),
    signature 0x8413e8dbad84406fbd72365e365e57161e0ff14505ff3e9ae6646930bcb255b9
      0x04ae72f0fd69e2e8905bba241eff6ad781820d6e21d37beafe8541947ab4a7f4),
  -- A state in sequence 2, with the HTLC in its tree.
  ((payer, number 0x2bee756f14b777a28ea573c4b38a4d8612b86acf3f597001d5e3cca39216e438),
    signature 0x579f6d0e9aab4bc6c6dea552aa69ae5bca896d3cd68785dedcd6816b9cb5fac8
      0x0b7b2956db547e7a4b2e244ab4fe4fc379b1652bc596f506a3e67fe833e855cd),
  -- A state in sequence 3, with the tree of before.
  ((payer, number 0xd40e7f0f9fa14a1cf0608eec51de273621bff9bcb4b2c07ffafb572ca60d5ee2),
    signature 0x36c49c4051801f3c438d369316c4697ac32f1724f5ce2826adda470d1313a950
      0x02389a49d507efadcd07bae31a311669e428d2b36179d77da3d5ff4e32a6c3bd),
  ((seller, number 0xd40e7f0f9fa14a1cf0608eec51de273621bff9bcb4b2c07ffafb572ca60d5ee2),
    signature 0x84593592dc0d0b232892163908f40a0ba094b3bb0e286032ca5f33ae761b41c4
      0x0751c6ab621fa433127bbd919d97d3bdf2e9d9a1d33dbb8f7d96ac970ff4944e),
  -- A claim of the first leaf.
  ((payer, number 0xea0a7bc4de3a35f3f431501b577002fb78a9f9654150b4efba67a969505a8560),
    signature 0xe3d2dfe7022d9313cb3f9b80fcf89a67484000d2dedb94e1b4b909aa58578e1f
      0x098a47d2f1bfe5bd40bd1797494bb0a45cb158ad4ead0aaa89750a97dc03f780),
  ((seller, number 0xea0a7bc4de3a35f3f431501b577002fb78a9f9654150b4efba67a969505a8560),
    signature 0xf880a758ee961cebb6e9b073e3d0d483a7fd85865c64d831f6483f21862aa1b1
      0x022d1f20a1f49e1b899fe3ff280bac2ec6c1534a0146d94d98f91cc55ff9f89c),
  -- A claim of the first leaf, with all there can be.
  ((payer, number 0x669bdd1b4ecb0560ce4f00b5c11748f3934092c1c7dee439a907929aa7468f09),
    signature 0x3a86d8e22c4f976f2bafa0c690253b078cefc52e736a731caae991f7eec1a144
      0x0c3cc83e33ac11d9d00a9a9455e7aa106494148de67a1c2b3e68000754397b07),
  -- A claim of the second leaf.
  ((seller, number 0x302407b8f5ce175aabcae01e1d856cd1cf619beac50d13e1919ae47acce8794d),
    signature 0xdcdf02f6adb679d2eaa7281ed7812951a093a258c50e741e302bae33ad4f7449
      0x0efe914bb71e1a058c7ac29243f6d51911e9ead6e7c5f62a0b82a56dcfab7cb4),
  -- The leaf split in two.
  ((payer, number 0x82fe7e3defbdd08031800a50cfc66f57ccb4c788c63f3bffdcee96bb12cd45cf),
    signature 0xafca0078a9c8fe1b31b1eab36b3f5901ddd62f07e37c04be134ec2837b8d6bf3
      0x06e6da58d8461ab32de5245c815fe1f208c6d4ddc616e0db25fa635102333bf6),
  ((seller, number 0x82fe7e3defbdd08031800a50cfc66f57ccb4c788c63f3bffdcee96bb12cd45cf),
    signature 0x50b6a1b0a6eb29090fcb30c1b563a8e3c91afd3a407ee253bb0d8ad99fb16176
      0x04e4f462ca1e1b62baf5da660de53d090119e421103c6ed7bdaa486c54e8dff2)]

def signWith (pubkey : Pubkey) (message : List UInt8) : Bytes 64 :=
  ((made.find? fun m => m.1.1 = pubkey ∧ m.1.2.val = message).map Prod.snd).getD (fill 64 0)

def env : Env where
  sha := Sha256.sha256
  verifyStrict pubkey message sig :=
    decide ((pubkey = payer ∨ pubkey = seller) ∧ sig = signWith pubkey message)
  overflowChecks := false

def payerKeypair : Keypair := ⟨payer, signWith payer⟩

def sellerKeypair : Keypair := ⟨seller, signWith seller⟩

theorem genuine_seller : sellerKeypair.Genuine env :=
  fun _ => decide_eq_true ⟨.inr rfl, rfl⟩

/-- A channel of two leaves, with the payer's deposit in the first. -/
def openArgs (depositAmount : UInt64) : OpenArgs where
  userPubkey := payer
  providerPubkey := seller
  tokenMint := fill 32 30
  depositAmount
  treeDepth := 1
  openSlot := 0
  vaultA := fill 32 31
  vaultB := fill 32 32
  challengeDuration := 0
  minChallengeDelay := 0
  autoCloseSlot := some 0

def channelId : Bytes 32 := fill 32 7

/-- A new channel, with the records of a compliance manager if there is one. -/
def opened (depositAmount : UInt64) (compliance : Option ComplianceDb) :
    Except StateChannelError Session := do
  let (channel, db) ← openChannel env (openArgs depositAmount) channelId ⟨∅, ∅, ∅⟩
  return ⟨⟨channel, db⟩, compliance⟩

theorem openChannel_of_opened {depositAmount : UInt64} {compliance : Option ComplianceDb} {s : Session}
    (h : opened depositAmount compliance = .ok s) :
    openChannel env (openArgs depositAmount) channelId ⟨∅, ∅, ∅⟩ = .ok (s.channel, s.db) := by
  obtain ⟨⟨channel, db⟩, hopen, h⟩ := bind_eq_ok.mp h
  obtain rfl := Except.ok.inj h
  exact hopen

/-- The payer's update that pays 4 to the seller, in a leaf of its own. -/
def payment : LeafUpdate :=
  signLeafUpdate env channelId 1 1 .empty (.standard seller 4) payerKeypair

def preimage : Bytes 32 := fill 32 8

/-- The payer's deposit as an HTLC to the seller. -/
def htlcLeaf : UTXOLeaf := .htlc payer 10 (env.sha preimage.val) 100 seller

/-- The payer's update that locks the deposit in it. -/
def locking : LeafUpdate :=
  signLeafUpdate env channelId 1 0 (.standard payer 10) htlcLeaf payerKeypair

/-- The root over some leaves. -/
def rootOf (leaves : List UTXOLeaf) : Bytes 32 :=
  ((MerkleTree.new env.sha leaves 1).map MerkleTree.root).getD (fill 32 0)

/-- A state that both have signed. -/
def signedState (sequence : UInt64) (root : Bytes 32) : SignedState :=
  ⟨channelId, sequence, root, signState env channelId sequence root payerKeypair,
    signState env channelId sequence root sellerKeypair⟩

/-- A signature on a claim in slot 5. -/
def signClaim (keypair : Keypair) (leafIndex : UInt32) (amount : UInt64) : Bytes 64 :=
  keypair.sign (claimMessage env.sha channelId leafIndex amount 5).val

end Sample

end StateChannel
