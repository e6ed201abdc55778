/-
The pipeline (`pipeline.rs`): a client edits its tree in place, operation by
operation, and keeps a signed update for every leaf it writes.

The updates are for the other side, which applies them as one batch to the tree
as it was.  `build` gives them out; `abort`, and dropping a pipeline that was not
built, build the tree again from the leaves it started with.

* `Move.returns_iff` — what an operation checks, and the leaves it writes;
* `Move.fails_unchanged` — an operation that fails writes nothing;
* `replays` — the updates, applied as a batch to the channel of before, lead to
  the tree of the pipeline.
-/
import IgnitePay.Lib.Run
import IgnitePay.StateChannel.Batch

namespace StateChannel

open Bytes Machine Solana

/-- `HTLC_SAFETY_MARGIN`. -/
def htlcSafetyMargin : UInt64 := 1000

/-! ### Writing a leaf -/

/-- `LeafIndexOutOfBounds { index, max: tree.num_leaves() }`. -/
def outOfBounds (tree : MerkleTree) (index : ℕ) : Failure :=
  .error (.leafIndexOutOfBounds index tree.maxLeaves)

/-- `update_leaf` on a tree alone. -/
def putLeaf (env : Env) (index : ℕ) (newLeaf : UTXOLeaf) : Method MerkleTree Failure Unit := do
  let tree ← get
  check (¬ index ≥ tree.maxLeaves) (outOfBounds tree index)
  let tree ← orThrow (tree.updateLeaf env.sha index newLeaf) .panic
  modify fun _ => tree

/-- A leaf that is put in the place of another. -/
structure Write where
  index : ℕ
  prevLeaf : UTXOLeaf
  newLeaf : UTXOLeaf

/-- `t'` is `t` with the leaf written. -/
def Put (env : Env) (index : ℕ) (newLeaf : UTXOLeaf) (t t' : MerkleTree) : Prop :=
  ¬ index ≥ t.maxLeaves ∧ t.updateLeaf env.sha index newLeaf = some t'

/-! ### The operations -/

structure Pipeline where
  tree : MerkleTree
  signer : Keypair
  channelId : Bytes 32
  sequence : UInt64
  updates : List LeafUpdate
  /-- The leaves before the first operation. -/
  backupLeaves : List UTXOLeaf
  /-- Built or aborted. -/
  consumed : Bool

abbrev PipelineOp := Method Pipeline Failure

namespace Pipeline

/-- `Pipeline::new`. -/
def new (tree : MerkleTree) (channelId : Bytes 32) (sequence : UInt64) (signer : Keypair) :
    Pipeline where
  tree
  signer
  channelId
  sequence
  updates := []
  backupLeaves := tree.leaves
  consumed := false

section

variable (env : Env)

/-- `get_leaf`, or the error. -/
def leafAt (index : ℕ) : PipelineOp UTXOLeaf := do
  let tree := (← get).tree
  orThrow (tree.getLeaf index) (outOfBounds tree index)

/-- `next_sequence`. -/
def nextSequence : PipelineOp UInt64 := do
  let seq := (← get).sequence
  modify fun p => { p with sequence := saturatingAdd p.sequence 1 }
  return seq

/-- How every operation ends: the update is signed in the next sequence, written
to the tree, and kept. -/
def record (w : Write) : PipelineOp Unit := do
  let seq ← nextSequence
  let p ← get
  let update := signLeafUpdate env p.channelId seq (UInt32.ofNat w.index) w.prevLeaf w.newLeaf p.signer
  (putLeaf env w.index w.newLeaf).on Pipeline.tree fun p tree => { p with tree }
  modify fun p => { p with updates := p.updates ++ [update] }

/-- `transfer_leaf`. -/
def transferLeaf (index : ℕ) (newOwner : Pubkey) : PipelineOp Unit := do
  let prevLeaf ← leafAt index
  check (prevLeaf.amount ≠ 0) (.error .emptyLeaf)
  record env ⟨index, prevLeaf, .standard newOwner prevLeaf.amount⟩

/-- `partial_transfer`. -/
def partialTransfer (srcIndex destIndex : ℕ) (amount : UInt64) (recipient : Pubkey) :
    PipelineOp Unit := do
  let srcLeaf ← leafAt srcIndex
  let destLeaf ← leafAt destIndex
  check (¬ srcLeaf.amount < amount) (.error (.insufficientBalance amount srcLeaf.amount))
  check (destLeaf.amount = 0) (.error .leafSlotOccupied)
  record env ⟨destIndex, destLeaf, .standard recipient amount⟩
  record env ⟨srcIndex, srcLeaf, .standard srcLeaf.owner (saturatingSub srcLeaf.amount amount)⟩

/-- `create_htlc`. -/
def createHtlc (index : ℕ) (hashLock : Bytes 32) (timelockSlot : UInt64) (beneficiary : Pubkey)
    (currentSlot challengeDuration : UInt64) : PipelineOp Unit := do
  let prevLeaf ← leafAt index
  check (prevLeaf.amount ≠ 0) (.error .emptyLeaf)
  let minTimelock := saturatingAdd (saturatingAdd currentSlot challengeDuration) htlcSafetyMargin
  check (¬ timelockSlot ≤ minTimelock)
    (.other s!"timelock_slot {timelockSlot} must be > current_slot({currentSlot}) + challenge_duration({challengeDuration}) + safety_margin({htlcSafetyMargin}) = {minTimelock}")
  record env ⟨index, prevLeaf, .htlc prevLeaf.owner prevLeaf.amount hashLock timelockSlot beneficiary⟩

/-- `resolve_htlc`. -/
def resolveHtlc (index : ℕ) (preimage : Bytes 32) : PipelineOp Unit := do
  let prevLeaf ← leafAt index
  check (prevLeaf.leafType = .htlc) (.other "leaf is not an HTLC")
  let hashLock ← orThrow prevLeaf.hashLock (.other "HTLC has no hash_lock")
  check (env.sha preimage.val = hashLock) (.error .hashLockMismatch)
  let beneficiary ← orThrow prevLeaf.beneficiary (.other "HTLC has no beneficiary")
  record env ⟨index, prevLeaf, .standard beneficiary prevLeaf.amount⟩

/-- `refund_htlc`. -/
def refundHtlc (index : ℕ) (currentSlot : UInt64) : PipelineOp Unit := do
  let prevLeaf ← leafAt index
  check (prevLeaf.leafType = .htlc) (.other "leaf is not an HTLC")
  let timelock ← orThrow prevLeaf.timelockSlot (.other "HTLC has no timelock")
  check (¬ currentSlot ≤ timelock) (.error (.htlcNotExpired timelock currentSlot))
  record env ⟨index, prevLeaf, .standard prevLeaf.owner prevLeaf.amount⟩

/-! The end of a pipeline. -/

/-- `drop`: the tree that is left. -/
def drop (p : Pipeline) : MerkleTree :=
  if p.consumed then p.tree
  else (MerkleTree.new env.sha p.backupLeaves p.tree.treeDepth).getD p.tree

/-- `build`: the updates, the next sequence, and the tree that is left. -/
def build (p : Pipeline) : List LeafUpdate × UInt64 × MerkleTree :=
  let p := { p with consumed := true }
  (p.updates, p.sequence, drop env { p with updates := [] })

/-- `abort`, and the tree that is left; where the leaves do not make a tree they
are gone. -/
def abort (p : Pipeline) : Except StateChannelError Unit × MerkleTree :=
  match MerkleTree.new env.sha p.backupLeaves p.tree.treeDepth with
  | some restored => (.ok (), drop env { p with backupLeaves := [], tree := restored, consumed := true })
  | none => (.error (.leafIndexOutOfBounds p.backupLeaves.length (2 ^ p.tree.treeDepth)),
      drop env { p with backupLeaves := [] })

end

end Pipeline

/-- A call of one of the operations. -/
inductive Move
  | transferLeaf (index : ℕ) (newOwner : Pubkey)
  | partialTransfer (srcIndex destIndex : ℕ) (amount : UInt64) (recipient : Pubkey)
  | createHtlc (index : ℕ) (hashLock : Bytes 32) (timelockSlot : UInt64) (beneficiary : Pubkey)
      (currentSlot challengeDuration : UInt64)
  | resolveHtlc (index : ℕ) (preimage : Bytes 32)
  | refundHtlc (index : ℕ) (currentSlot : UInt64)

def Move.method (env : Env) : Move → PipelineOp Unit
  | transferLeaf index newOwner => Pipeline.transferLeaf env index newOwner
  | partialTransfer srcIndex destIndex amount recipient =>
    Pipeline.partialTransfer env srcIndex destIndex amount recipient
  | createHtlc index hashLock timelockSlot beneficiary currentSlot challengeDuration =>
    Pipeline.createHtlc env index hashLock timelockSlot beneficiary currentSlot challengeDuration
  | resolveHtlc index preimage => Pipeline.resolveHtlc env index preimage
  | refundHtlc index currentSlot => Pipeline.refundHtlc env index currentSlot

/-! ### What an operation checks and writes -/

section

variable {env : Env} {t t' : MerkleTree} {p p' : Pipeline} {u : Unit} {e : Failure} {w : Write}
  {ws : List Write} {move : Move}

theorem putLeaf_returns {index : ℕ} {newLeaf : UTXOLeaf} :
    Returns (putLeaf env index newLeaf) t u t' ↔ Put env index newLeaf t t' := by
  simp only [putLeaf, returns_get_bind, returns_check_bind, returns_orThrow_bind, returns_modify]
  constructor
  · rintro ⟨hindex, tree, htree, rfl⟩
    exact ⟨hindex, htree⟩
  · rintro ⟨hindex, htree⟩
    exact ⟨hindex, t', htree, rfl⟩

theorem Put.leaves_eq {index : ℕ} {newLeaf : UTXOLeaf} (h : Put env index newLeaf t t') :
    t'.leaves = t.leaves.set index newLeaf := leaves_updateLeaf h.2

theorem Put.isTree {index : ℕ} {newLeaf : UTXOLeaf} (h : Put env index newLeaf t t')
    (htree : IsTree env.sha t) : IsTree env.sha t' ∧ t'.treeDepth = t.treeDepth := by
  obtain ⟨htree', -, hdepth⟩ := htree.of_updateLeaf h.2
  exact ⟨htree', hdepth⟩

/-- A leaf that can be read can be written. -/
theorem exists_put (htree : IsTree env.sha t) {index : ℕ} (hindex : index < t.leaves.length)
    (newLeaf : UTXOLeaf) : ∃ t', Put env index newLeaf t t' := by
  rw [htree.length_leaves] at hindex
  obtain ⟨t', hwritten, -⟩ := htree.exists_updateLeaf hindex newLeaf
  refine ⟨t', ?_, hwritten⟩
  rw [htree.maxLeaves_eq]
  exact not_le.mpr hindex

namespace Pipeline

/-- The update that is signed for a leaf. -/
def update (env : Env) (p : Pipeline) (w : Write) : LeafUpdate :=
  signLeafUpdate env p.channelId p.sequence (UInt32.ofNat w.index) w.prevLeaf w.newLeaf p.signer

/-- The pipeline with a leaf written, in `tree`. -/
def recorded (env : Env) (p : Pipeline) (w : Write) (tree : MerkleTree) : Pipeline :=
  { p with
    tree
    sequence := saturatingAdd p.sequence 1
    updates := p.updates ++ [p.update env w] }

/-- `p'` is `p` with the leaves written one after the other. -/
def Records (env : Env) : List Write → Pipeline → Pipeline → Prop
  | [], p, p' => p = p'
  | w :: ws, p, p' => ∃ tree, Put env w.index w.newLeaf p.tree tree ∧
      Records env ws (p.recorded env w tree) p'

theorem record_returns : Returns (record env w) p u p' ↔
    ∃ tree, Put env w.index w.newLeaf p.tree tree ∧ p' = p.recorded env w tree := by
  simp only [record, nextSequence, bind_assoc, pure_bind, returns_get_bind, returns_modify_bind]
  simp only [returns_bind, returns_on, putLeaf_returns, returns_modify]
  constructor
  · rintro ⟨-, p₁, ⟨tree, hput, rfl⟩, rfl⟩
    exact ⟨tree, hput, rfl⟩
  · rintro ⟨tree, hput, rfl⟩
    exact ⟨(), _, ⟨tree, hput, rfl⟩, rfl⟩

theorem records_singleton : Records env [w] p p' ↔ Returns (record env w) p u p' := by
  rw [record_returns]
  constructor
  · rintro ⟨tree, hput, rfl⟩
    exact ⟨tree, hput, rfl⟩
  · rintro ⟨tree, hput, rfl⟩
    exact ⟨tree, hput, rfl⟩

theorem returns_record_bind {f : Unit → PipelineOp Unit} :
    Returns (record env w >>= f) p u p' ↔
      ∃ tree, Put env w.index w.newLeaf p.tree tree ∧
        Returns (f ()) (p.recorded env w tree) u p' := by
  simp only [returns_bind, record_returns]
  constructor
  · rintro ⟨_, p₁, ⟨tree, hput, rfl⟩, h⟩
    exact ⟨tree, hput, h⟩
  · rintro ⟨tree, hput, h⟩
    exact ⟨(), _, ⟨tree, hput, rfl⟩, h⟩

theorem returns_leafAt_bind {index : ℕ} {f : UTXOLeaf → PipelineOp Unit} :
    Returns (leafAt index >>= f) p u p' ↔
      ∃ leaf, p.tree.getLeaf index = some leaf ∧ Returns (f leaf) p u p' := by
  simp only [leafAt, bind_assoc, returns_get_bind, returns_orThrow_bind]

theorem fails_leafAt_bind {index : ℕ} {f : UTXOLeaf → PipelineOp Unit}
    (h : Fails (leafAt index >>= f) p e p') :
    p' = p ∨ ∃ leaf, p.tree.getLeaf index = some leaf ∧ Fails (f leaf) p e p' := by
  simp only [leafAt, bind_assoc, fails_get_bind, fails_orThrow_bind] at h
  rcases h with ⟨-, -, rfl⟩ | h
  · exact .inl rfl
  · exact .inr h

end Pipeline

namespace Move

/-- What a call checks, of a tree, and the leaves that it then writes. -/
inductive Does (env : Env) (t : MerkleTree) : Move → List Write → Prop
  | transferLeaf {index : ℕ} {newOwner : Pubkey} {prevLeaf : UTXOLeaf}
      (leaf_eq : t.getLeaf index = some prevLeaf) (filled : prevLeaf.amount ≠ 0) :
      Does env t (transferLeaf index newOwner)
        [⟨index, prevLeaf, .standard newOwner prevLeaf.amount⟩]
  | partialTransfer {srcIndex destIndex : ℕ} {amount : UInt64} {recipient : Pubkey}
      {srcLeaf destLeaf : UTXOLeaf} (src_eq : t.getLeaf srcIndex = some srcLeaf)
      (dest_eq : t.getLeaf destIndex = some destLeaf) (covered : ¬ srcLeaf.amount < amount)
      (free : destLeaf.amount = 0) :
      Does env t (partialTransfer srcIndex destIndex amount recipient)
        [⟨destIndex, destLeaf, .standard recipient amount⟩,
          ⟨srcIndex, srcLeaf, .standard srcLeaf.owner (saturatingSub srcLeaf.amount amount)⟩]
  | createHtlc {index : ℕ} {hashLock : Bytes 32} {timelockSlot : UInt64} {beneficiary : Pubkey}
      {currentSlot challengeDuration : UInt64} {prevLeaf : UTXOLeaf}
      (leaf_eq : t.getLeaf index = some prevLeaf) (filled : prevLeaf.amount ≠ 0)
      (later : ¬ timelockSlot ≤
        saturatingAdd (saturatingAdd currentSlot challengeDuration) htlcSafetyMargin) :
      Does env t
        (createHtlc index hashLock timelockSlot beneficiary currentSlot challengeDuration)
        [⟨index, prevLeaf,
          .htlc prevLeaf.owner prevLeaf.amount hashLock timelockSlot beneficiary⟩]
  | resolveHtlc {index : ℕ} {preimage : Bytes 32} {prevLeaf : UTXOLeaf} {beneficiary : Pubkey}
      (leaf_eq : t.getLeaf index = some prevLeaf) (isHtlc : prevLeaf.leafType = .htlc)
      (opens : prevLeaf.hashLock = some (env.sha preimage.val))
      (beneficiary_eq : prevLeaf.beneficiary = some beneficiary) :
      Does env t (resolveHtlc index preimage)
        [⟨index, prevLeaf, .standard beneficiary prevLeaf.amount⟩]
  | refundHtlc {index : ℕ} {currentSlot timelock : UInt64} {prevLeaf : UTXOLeaf}
      (leaf_eq : t.getLeaf index = some prevLeaf) (isHtlc : prevLeaf.leafType = .htlc)
      (timelock_eq : prevLeaf.timelockSlot = some timelock) (expired : ¬ currentSlot ≤ timelock) :
      Does env t (refundHtlc index currentSlot)
        [⟨index, prevLeaf, .standard prevLeaf.owner prevLeaf.amount⟩]

theorem returns_iff : Returns (move.method env) p u p' ↔
    ∃ ws, move.Does env p.tree ws ∧ Pipeline.Records env ws p p' := by
  cases move with
  | transferLeaf index newOwner =>
    simp only [method, Pipeline.transferLeaf, Pipeline.returns_leafAt_bind, returns_check_bind]
    constructor
    · rintro ⟨prevLeaf, hleaf, hfilled, h⟩
      exact ⟨_, .transferLeaf hleaf hfilled, Pipeline.records_singleton.mpr h⟩
    · rintro ⟨_, hdoes, h⟩
      cases hdoes with
      | transferLeaf hleaf hfilled => exact ⟨_, hleaf, hfilled, Pipeline.records_singleton.mp h⟩
  | partialTransfer srcIndex destIndex amount recipient =>
    simp only [method, Pipeline.partialTransfer, Pipeline.returns_leafAt_bind, returns_check_bind,
      Pipeline.returns_record_bind, Pipeline.record_returns]
    constructor
    · rintro ⟨srcLeaf, hsrc, destLeaf, hdest, hcovered, hfree, tree, hput, tree', hput', rfl⟩
      exact ⟨_, .partialTransfer hsrc hdest hcovered hfree, tree, hput, tree', hput', rfl⟩
    · rintro ⟨_, hdoes, h⟩
      cases hdoes with
      | partialTransfer hsrc hdest hcovered hfree =>
        obtain ⟨tree, hput, tree', hput', rfl⟩ := h
        exact ⟨_, hsrc, _, hdest, hcovered, hfree, tree, hput, tree', hput', rfl⟩
  | createHtlc index hashLock timelockSlot beneficiary currentSlot challengeDuration =>
    simp only [method, Pipeline.createHtlc, Pipeline.returns_leafAt_bind, returns_check_bind]
    constructor
    · rintro ⟨prevLeaf, hleaf, hfilled, hlater, h⟩
      exact ⟨_, .createHtlc hleaf hfilled hlater, Pipeline.records_singleton.mpr h⟩
    · rintro ⟨_, hdoes, h⟩
      cases hdoes with
      | createHtlc hleaf hfilled hlater =>
        exact ⟨_, hleaf, hfilled, hlater, Pipeline.records_singleton.mp h⟩
  | resolveHtlc index preimage =>
    simp only [method, Pipeline.resolveHtlc, Pipeline.returns_leafAt_bind, returns_check_bind,
      returns_orThrow_bind]
    constructor
    · rintro ⟨prevLeaf, hleaf, htype, hashLock, hlock, hopens, beneficiary, hben, h⟩
      rw [← hopens] at hlock
      exact ⟨_, .resolveHtlc hleaf htype hlock hben, Pipeline.records_singleton.mpr h⟩
    · rintro ⟨_, hdoes, h⟩
      cases hdoes with
      | resolveHtlc hleaf htype hopens hben =>
        exact ⟨_, hleaf, htype, _, hopens, rfl, _, hben, Pipeline.records_singleton.mp h⟩
  | refundHtlc index currentSlot =>
    simp only [method, Pipeline.refundHtlc, Pipeline.returns_leafAt_bind, returns_check_bind,
      returns_orThrow_bind]
    constructor
    · rintro ⟨prevLeaf, hleaf, htype, timelock, htime, hexpired, h⟩
      exact ⟨_, .refundHtlc hleaf htype htime hexpired, Pipeline.records_singleton.mpr h⟩
    · rintro ⟨_, hdoes, h⟩
      cases hdoes with
      | refundHtlc hleaf htype htime hexpired =>
        exact ⟨_, hleaf, htype, _, htime, hexpired, Pipeline.records_singleton.mp h⟩

theorem Does.index_lt (h : move.Does env t ws) : ∀ w ∈ ws, w.index < t.leaves.length := by
  have hread : ∀ {index : ℕ} {leaf : UTXOLeaf}, t.getLeaf index = some leaf →
      index < t.leaves.length := fun h => (List.getElem?_eq_some_iff.mp h).1
  intro w hw
  cases h with
  | transferLeaf hleaf => exact List.mem_singleton.mp hw ▸ hread hleaf
  | partialTransfer hsrc hdest =>
    rcases List.mem_pair.mp hw with rfl | rfl
    · exact hread hdest
    · exact hread hsrc
  | createHtlc hleaf => exact List.mem_singleton.mp hw ▸ hread hleaf
  | resolveHtlc hleaf => exact List.mem_singleton.mp hw ▸ hread hleaf
  | refundHtlc hleaf => exact List.mem_singleton.mp hw ▸ hread hleaf

end Move

namespace Pipeline

/-- On a tree, nothing goes wrong once the checks are passed. -/
theorem exists_records (htree : IsTree env.sha p.tree)
    (hindex : ∀ w ∈ ws, w.index < p.tree.leaves.length) : ∃ p', Records env ws p p' := by
  induction ws generalizing p with
  | nil => exact ⟨p, rfl⟩
  | cons w ws ih =>
    obtain ⟨hw, hws⟩ := List.forall_mem_cons.mp hindex
    obtain ⟨tree, hput⟩ := exists_put htree hw w.newLeaf
    have hlen : tree.leaves.length = p.tree.leaves.length := by
      rw [hput.leaves_eq, List.length_set]
    obtain ⟨p', h⟩ := @ih (p.recorded env w tree) (hput.isTree htree).1 (by
      intro w' hw'
      show w'.index < tree.leaves.length
      rw [hlen]
      exact hws w' hw')
    exact ⟨p', tree, hput, h⟩

end Pipeline

namespace Move

/-- An operation that fails changes nothing. -/
theorem fails_unchanged (htree : IsTree env.sha p.tree) (h : Fails (move.method env) p e p') :
    p' = p := by
  by_cases hdoes : ∃ ws, move.Does env p.tree ws
  · obtain ⟨ws, hdoes⟩ := hdoes
    obtain ⟨p₁, hrecords⟩ := Pipeline.exists_records htree hdoes.index_lt
    have hreturns : Returns (move.method env) p () p₁ := returns_iff.mpr ⟨ws, hdoes, hrecords⟩
    exact absurd h hreturns.not_fails
  · -- Some check is not passed, and nothing is written before the last of them.
    cases move with
    | transferLeaf index newOwner =>
      rcases Pipeline.fails_leafAt_bind h with rfl | ⟨prevLeaf, hleaf, h⟩
      · rfl
      rcases fails_check_bind.mp h with ⟨-, -, rfl⟩ | ⟨hfilled, h⟩
      · rfl
      · exact absurd ⟨_, .transferLeaf hleaf hfilled⟩ hdoes
    | partialTransfer srcIndex destIndex amount recipient =>
      rcases Pipeline.fails_leafAt_bind h with rfl | ⟨srcLeaf, hsrc, h⟩
      · rfl
      rcases Pipeline.fails_leafAt_bind h with rfl | ⟨destLeaf, hdest, h⟩
      · rfl
      rcases fails_check_bind.mp h with ⟨-, -, rfl⟩ | ⟨hcovered, h⟩
      · rfl
      rcases fails_check_bind.mp h with ⟨-, -, rfl⟩ | ⟨hfree, h⟩
      · rfl
      · exact absurd ⟨_, .partialTransfer hsrc hdest hcovered hfree⟩ hdoes
    | createHtlc index hashLock timelockSlot beneficiary currentSlot challengeDuration =>
      rcases Pipeline.fails_leafAt_bind h with rfl | ⟨prevLeaf, hleaf, h⟩
      · rfl
      rcases fails_check_bind.mp h with ⟨-, -, rfl⟩ | ⟨hfilled, h⟩
      · rfl
      rcases fails_check_bind.mp h with ⟨-, -, rfl⟩ | ⟨hlater, h⟩
      · rfl
      · exact absurd ⟨_, .createHtlc hleaf hfilled hlater⟩ hdoes
    | resolveHtlc index preimage =>
      rcases Pipeline.fails_leafAt_bind h with rfl | ⟨prevLeaf, hleaf, h⟩
      · rfl
      rcases fails_check_bind.mp h with ⟨-, -, rfl⟩ | ⟨htype, h⟩
      · rfl
      rcases fails_orThrow_bind.mp h with ⟨-, -, rfl⟩ | ⟨hashLock, hlock, h⟩
      · rfl
      rcases fails_check_bind.mp h with ⟨-, -, rfl⟩ | ⟨hopens, h⟩
      · rfl
      rcases fails_orThrow_bind.mp h with ⟨-, -, rfl⟩ | ⟨beneficiary, hben, h⟩
      · rfl
      · rw [← hopens] at hlock
        exact absurd ⟨_, .resolveHtlc hleaf htype hlock hben⟩ hdoes
    | refundHtlc index currentSlot =>
      rcases Pipeline.fails_leafAt_bind h with rfl | ⟨prevLeaf, hleaf, h⟩
      · rfl
      rcases fails_check_bind.mp h with ⟨-, -, rfl⟩ | ⟨htype, h⟩
      · rfl
      rcases fails_orThrow_bind.mp h with ⟨-, -, rfl⟩ | ⟨timelock, htime, h⟩
      · rfl
      rcases fails_check_bind.mp h with ⟨-, -, rfl⟩ | ⟨hexpired, h⟩
      · rfl
      · exact absurd ⟨_, .refundHtlc hleaf htype htime hexpired⟩ hdoes

end Move

end

/-! ### Runs of a pipeline -/

namespace Pipeline

/-- A call on a pipeline; one that fails leaves no trace. -/
def exec (env : Env) (move : Move) (p : Pipeline) : Except Failure Pipeline :=
  match (move.method env).call p with
  | (.ok _, p') => .ok p'
  | (.error e, _) => .error e

section

variable {env : Env} {s t : Session} {signer : Keypair} {p p' : Pipeline} {move : Move}
  {w : Write} {ws : List Write} {tree : MerkleTree}

theorem exec_eq_ok : exec env move p = .ok p' ↔ Returns (move.method env) p () p' := by
  rw [exec, Returns]
  rcases (move.method env).call p with ⟨e | _, p₁⟩
  · simp
  · simp

/-- What a pipeline on the tree of `c` keeps. -/
structure On (env : Env) (c : ChannelState) (signer : Keypair) (p : Pipeline) : Prop where
  isTree : IsTree env.sha p.tree
  treeDepth_eq : p.tree.treeDepth = c.tree.treeDepth
  signer_eq : p.signer = signer
  channelId_eq : p.channelId = c.metadata.channelId
  backup_eq : p.backupLeaves = c.tree.leaves
  open_eq : p.consumed = false

theorem On.recorded (h : On env s.channel signer p) (hput : Put env w.index w.newLeaf p.tree tree) :
    On env s.channel signer (p.recorded env w tree) := by
  obtain ⟨htree, hdepth⟩ := hput.isTree h.isTree
  exact ⟨htree, hdepth.trans h.treeDepth_eq, h.signer_eq, h.channelId_eq, h.backup_eq, h.open_eq⟩

theorem On.records (h : On env s.channel signer p) (hrecords : Records env ws p p') :
    On env s.channel signer p' := by
  induction ws generalizing p with
  | nil => exact hrecords ▸ h
  | cons w ws ih =>
    obtain ⟨tree, hput, hrecords⟩ := hrecords
    exact ih (h.recorded hput) hrecords

theorem On.exec (h : On env s.channel signer p) (hexec : exec env move p = .ok p') :
    On env s.channel signer p' := by
  obtain ⟨ws, -, hrecords⟩ := Move.returns_iff.mp (exec_eq_ok.mp hexec)
  exact h.records hrecords

theorem on_new (hvalid : s.channel.Valid env.sha) (sequence : UInt64) :
    On env s.channel signer
      (new s.channel.tree s.channel.metadata.channelId sequence signer) :=
  ⟨hvalid.isTree, rfl, rfl, rfl, rfl, rfl⟩

/-- The leaves of before make the tree of before. -/
theorem On.restores (h : On env s.channel signer p) (hvalid : s.channel.Valid env.sha) :
    p.abort env = (.ok (), s.channel.tree) ∧ p.drop env = s.channel.tree := by
  have hnew : MerkleTree.new env.sha p.backupLeaves p.tree.treeDepth = some s.channel.tree := by
    rw [h.backup_eq, h.treeDepth_eq]
    exact hvalid.isTree.new_eq
  constructor
  · rw [abort, hnew]
    rfl
  · rw [drop, h.open_eq, hnew]
    rfl

/-! ### The updates of a pipeline as a batch -/

/-- The last sequence; it is not counted past. -/
def maxSequence : UInt64 := UInt64.ofNat (2 ^ 64 - 1)

theorem toNat_saturatingAdd_one {a : UInt64} (h : saturatingAdd a 1 ≠ maxSequence) :
    a ≠ maxSequence ∧ (saturatingAdd a 1).toNat = a.toNat + 1 := by
  by_cases hfits : a.toNat + (1 : UInt64).toNat < 2 ^ 64
  · refine ⟨?_, toNat_saturatingAdd_of_lt hfits⟩
    rintro rfl
    exact absurd hfits (by decide)
  · rw [saturatingAdd, if_neg hfits] at h
    exact absurd rfl h

theorem Records.sequence (h : Records env ws p p') (hmax : p'.sequence ≠ maxSequence) :
    p.sequence ≠ maxSequence := by
  induction ws generalizing p with
  | nil => exact h ▸ hmax
  | cons w ws ih =>
    obtain ⟨tree, -, h⟩ := h
    exact (toNat_saturatingAdd_one (ih h)).1

/-- A batch of updates by `signer` is only checked for what it replaces. -/
structure Ready (env : Env) (s : Session) (signer : Keypair) : Prop where
  compliance_eq : s.compliance = none
  status_eq : s.channel.metadata.status = .opened
  genuine : signer.Genuine env

/-- The updates go through from `s`, and lead to the tree and the sequence of the pipeline. -/
structure Reached (env : Env) (s : Session) (p : Pipeline) (t : Session) : Prop where
  applied : Returns (applyAllInternal env p.signer.publicKey p.updates) s () t
  tree_eq : t.channel.tree = p.tree
  sequence_eq : t.channel.metadata.sequence.toNat + 1 = p.sequence.toNat

theorem compliance_of_applyAllInternal {signerPubkey : Pubkey} {updates : List LeafUpdate}
    (h : Returns (applyAllInternal env signerPubkey updates) s () t) (hnone : s.compliance = none) :
    t.compliance = none := by
  rcases progress_of_applyAllInternal h with ⟨-, hcompliance, -⟩ | ⟨hsome, -⟩
  · rw [hcompliance, hnone]
  · exact absurd (.inl hnone) hsome

/-- One more leaf is written: its update goes through exactly where the leaf that it is
to replace has the hash of the one that stands there. -/
theorem Reached.recorded (h : Reached env s p t) (hon : On env s.channel signer p)
    (hready : Ready env s signer) (hput : Put env w.index w.newLeaf p.tree tree)
    (hfits : w.index < 2 ^ 32)
    (hmax : (p.recorded env w tree).sequence ≠ maxSequence) :
    (∃ t', Reached env s (p.recorded env w tree) t') ↔
      p.tree.getLeafHash w.index = some (w.prevLeaf.hash env.sha) := by
  have hindex : (UInt32.ofNat w.index).toNat = w.index := UInt32.toNat_ofNat_of_lt' hfits
  obtain ⟨-, hseq⟩ := toNat_saturatingAdd_one hmax
  constructor
  · rintro ⟨t', ht'⟩
    -- The earlier updates lead to `t` again, where the last one is accepted.
    obtain ⟨t₁, hbefore, hlast⟩ := returns_forM_append.mp ht'.applied
    obtain ⟨-, rfl⟩ := h.applied.unique hbefore
    obtain ⟨t₂, hinternal, -⟩ := returns_forM_cons.mp hlast
    have haccepts := (applyLeafUpdateInternal_returns.mp hinternal).1
    have hprev := haccepts.prevLeafHash_eq
    rw [h.tree_eq, show (p.update env w).leafIndex.toNat = w.index from hindex] at hprev
    exact hprev
  · intro hprev
    obtain ⟨-, hchannel⟩ := sameBut_of_applyAllInternal h.applied
    have haccepts : Accepts env t.channel (p.update env w) p.signer.publicKey := by
      refine ⟨?_, ?_, ?_, ?_, ?_⟩
      · rw [hchannel]
        exact hready.status_eq
      · rw [hchannel]
        exact hon.channelId_eq
      · exact addU64_eq_some h.sequence_eq.symm
      · show t.channel.tree.getLeafHash (UInt32.ofNat w.index).toNat = _
        rw [hindex, h.tree_eq]
        exact hprev
      · rw [hon.signer_eq]
        show env.verifyStrict signer.publicKey _ (p.signer.sign _)
        rw [hon.signer_eq]
        exact hready.genuine _
    have hwrites : Writes env t.channel (p.update env w) tree := by
      show ¬ (UInt32.ofNat w.index).toNat ≥ t.channel.tree.maxLeaves ∧
        t.channel.tree.updateLeaf env.sha (UInt32.ofNat w.index).toNat w.newLeaf = some tree
      rw [hindex, h.tree_eq]
      exact hput
    have hcompliance := compliance_of_applyAllInternal h.applied hready.compliance_eq
    have hinternal : Returns (applyLeafUpdateInternal env (p.update env w) p.signer.publicKey) t ()
        ⟨⟨t.channel.written (p.update env w) tree, t.db⟩, t.compliance⟩ :=
      applyLeafUpdateInternal_returns.mpr
        ⟨haccepts, t.compliance, tree, .inl ⟨.inl hcompliance, rfl⟩, hwrites, rfl⟩
    refine ⟨⟨⟨t.channel.written (p.update env w) tree, t.db⟩, t.compliance⟩, ?_, rfl, hseq.symm⟩
    exact returns_forM_append.mpr ⟨t, h.applied, returns_forM_cons.mpr
      ⟨_, hinternal, returns_forM_nil.mpr rfl⟩⟩

/-- The update that replaces a leaf which was just read goes through. -/
theorem Reached.recorded_of_getLeaf (h : Reached env s p t) (hon : On env s.channel signer p)
    (hready : Ready env s signer) (hput : Put env w.index w.newLeaf p.tree tree)
    (hfits : w.index < 2 ^ 32)
    (hmax : (p.recorded env w tree).sequence ≠ maxSequence)
    (hleaf : p.tree.getLeaf w.index = some w.prevLeaf) :
    ∃ t', Reached env s (p.recorded env w tree) t' := by
  refine (h.recorded hon hready hput hfits hmax).mpr ?_
  rw [hon.isTree.getLeafHash_eq, hleaf]
  rfl

end

end Pipeline

namespace Move

/-- The indices of a call fit in the `u32` of an update. -/
def Fits : Move → Prop
  | transferLeaf index _ => index < 2 ^ 32
  | partialTransfer srcIndex destIndex _ _ => srcIndex < 2 ^ 32 ∧ destIndex < 2 ^ 32
  | createHtlc index _ _ _ _ _ => index < 2 ^ 32
  | resolveHtlc index _ => index < 2 ^ 32
  | refundHtlc index _ => index < 2 ^ 32

instance : (move : Move) → Decidable move.Fits
  | transferLeaf .. => inferInstanceAs (Decidable (_ < _))
  | partialTransfer .. => inferInstanceAs (Decidable (_ ∧ _))
  | createHtlc .. => inferInstanceAs (Decidable (_ < _))
  | resolveHtlc .. => inferInstanceAs (Decidable (_ < _))
  | refundHtlc .. => inferInstanceAs (Decidable (_ < _))

/-- A partial transfer from a leaf to itself, which is then an empty one, leaves it with the hash
that it had. -/
def Matches (env : Env) (t : MerkleTree) : Move → Prop
  | partialTransfer srcIndex destIndex amount recipient => srcIndex = destIndex →
      ∀ leaf, t.getLeaf srcIndex = some leaf →
        leaf.hash env.sha = (UTXOLeaf.standard recipient amount).hash env.sha
  | _ => True

end Move

namespace Pipeline

section

variable {env : Env} {s t : Session} {signer : Keypair} {p p' : Pipeline} {move : Move}

/-- What an operation adds to the updates goes through, except where the second leaf of a partial
transfer is no longer the one that its update is to replace. -/
theorem Reached.exec (h : Reached env s p t) (hon : On env s.channel signer p)
    (hready : Ready env s signer) (hexec : exec env move p = .ok p') (hfits : move.Fits)
    (hmax : p'.sequence ≠ maxSequence) :
    (∃ t', Reached env s p' t') ↔ move.Matches env p.tree := by
  obtain ⟨ws, hdoes, hrecords⟩ := Move.returns_iff.mp (exec_eq_ok.mp hexec)
  cases hdoes with
  | transferLeaf hleaf =>
    obtain ⟨tree, hput, rfl⟩ := hrecords
    exact iff_of_true (h.recorded_of_getLeaf hon hready hput hfits hmax hleaf) trivial
  | createHtlc hleaf =>
    obtain ⟨tree, hput, rfl⟩ := hrecords
    exact iff_of_true (h.recorded_of_getLeaf hon hready hput hfits hmax hleaf) trivial
  | resolveHtlc hleaf =>
    obtain ⟨tree, hput, rfl⟩ := hrecords
    exact iff_of_true (h.recorded_of_getLeaf hon hready hput hfits hmax hleaf) trivial
  | refundHtlc hleaf =>
    obtain ⟨tree, hput, rfl⟩ := hrecords
    exact iff_of_true (h.recorded_of_getLeaf hon hready hput hfits hmax hleaf) trivial
  | @partialTransfer srcIndex destIndex amount recipient srcLeaf destLeaf hsrc hdest =>
    obtain ⟨tree, hput, tree', hput', rfl⟩ := hrecords
    obtain ⟨hfitsSrc, hfitsDest⟩ := hfits
    have hmax₁ := (toNat_saturatingAdd_one hmax).1
    obtain ⟨t₁, h₁⟩ := h.recorded_of_getLeaf hon hready hput hfitsDest hmax₁ hdest
    have hon₁ := hon.recorded hput
    -- The second leaf is looked up in the tree that the first one is written to.
    refine (h₁.recorded hon₁ hready hput' hfitsSrc hmax).trans ?_
    have hleaves : tree.leaves = p.tree.leaves.set destIndex (.standard recipient amount) :=
      hput.leaves_eq
    have hlt : destIndex < p.tree.leaves.length := (List.getElem?_eq_some_iff.mp hdest).1
    have htree : IsTree env.sha tree := hon₁.isTree
    show tree.getLeafHash srcIndex = some (srcLeaf.hash env.sha) ↔ _
    rw [htree.getLeafHash_eq]
    by_cases heq : srcIndex = destIndex
    · subst heq
      have hnow : tree.getLeaf srcIndex = some (.standard recipient amount) := by
        rw [MerkleTree.getLeaf, hleaves, List.getElem?_set_self hlt]
      rw [hnow, Option.map_some, Option.some_inj]
      constructor
      · intro hhash _ leaf hleaf
        obtain rfl := Option.some_inj.mp (hsrc.symm.trans hleaf)
        exact hhash.symm
      · intro hmatches
        exact (hmatches rfl srcLeaf hsrc).symm
    · have hnow : tree.getLeaf srcIndex = some srcLeaf := by
        rw [MerkleTree.getLeaf, hleaves, List.getElem?_set_ne (Ne.symm heq)]
        exact hsrc
      refine iff_of_true ?_ fun h => absurd h heq
      rw [hnow]
      rfl

/-- The batch of the updates is accepted in `s`, and leads to the tree and the sequence that the
pipeline leaves. -/
def Replays (env : Env) (s : Session) (p : Pipeline) : Prop :=
  ∃ t, Returns (applyLeafUpdateBatch env (p.build env).1 p.signer.publicKey) s () t ∧
    t.channel.tree = (p.build env).2.2 ∧
    t.channel.metadata.sequence.toNat + 1 = (p.build env).2.1.toNat

theorem replays_iff : Replays env s p ↔ ∃ t, Reached env s p t := by
  by_cases hnil : p.updates = []
  · have hbatch : applyLeafUpdateBatch env (p.build env).1 p.signer.publicKey = pure () := if_pos hnil
    have hall : applyAllInternal env p.signer.publicKey p.updates = pure () := by rw [hnil]; rfl
    constructor
    · rintro ⟨t, ht, htree, hseq⟩
      rw [hbatch] at ht
      exact ⟨t, hall ▸ ht, htree, hseq⟩
    · rintro ⟨t, ht, htree, hseq⟩
      rw [hall] at ht
      exact ⟨t, hbatch ▸ ht, htree, hseq⟩
  · have hbatch := @applyLeafUpdateBatch_returns env s
    constructor
    · rintro ⟨t, ht, htree, hseq⟩
      obtain ⟨t₁, ht₁, rfl⟩ := (hbatch hnil).mp ht
      exact ⟨t₁, ht₁, htree, hseq⟩
    · rintro ⟨t, ht, htree, hseq⟩
      exact ⟨_, (hbatch hnil).mpr ⟨t, ht, rfl⟩, htree, hseq⟩

/-- In a run of operations on an open channel's tree, an operation that fails changes nothing; as
long as the sequence is counted, the updates so far can be applied as a batch throughout exactly
where no partial transfer is from a leaf to itself under another hash; and the tree of before can be
had back. -/
theorem pipeline_replays (env : Env) (s : Session) (hvalid : s.channel.Valid env.sha)
    (hopen : s.channel.metadata.status = .opened) (hnone : s.compliance = none) (signer : Keypair)
    (hsigner : signer.Genuine env) (sequence : UInt64)
    (hseq : sequence.toNat = s.channel.metadata.sequence.toNat + 1) {h : List (Pipeline × Move)}
    {p : Pipeline} (hrun : Run (exec env)
      (new s.channel.tree s.channel.metadata.channelId sequence signer) h p) :
    (∀ (move : Move) e p', Fails (move.method env) p e p' → p' = p) ∧
    (p.sequence ≠ maxSequence → (∀ c ∈ h, c.2.Fits) →
      ((∀ p' ∈ Run.states h p, Replays env s p') ↔ ∀ c ∈ h, c.2.Matches env c.1.tree)) ∧
    p.abort env = (.ok (), s.channel.tree) ∧ p.drop env = s.channel.tree := by
  have hready : Ready env s signer := ⟨hnone, hopen, hsigner⟩
  have hon : ∀ {h p}, Run (exec env)
      (new s.channel.tree s.channel.metadata.channelId sequence signer) h p →
      On env s.channel signer p := fun hrun =>
    hrun.invariant (on_new hvalid sequence) fun _ _ _ h hexec => h.exec hexec
  refine ⟨fun move e p' => Move.fails_unchanged (hon hrun).isTree, ?_, (hon hrun).restores hvalid⟩
  -- On the calls of the run, the latest first.
  intro hmax hfits
  induction hrun with
  | start =>
    refine iff_of_true ?_ fun c hc => absurd hc (by simp)
    intro p' hp'
    obtain rfl := List.mem_singleton.mp hp'
    exact replays_iff.mpr ⟨s, returns_forM_nil.mpr rfl, rfl, hseq.symm⟩
  | @step h p p' move hrun hexec ih =>
    obtain ⟨hlast, hrest⟩ := List.forall_mem_cons.mp hfits
    obtain ⟨ws, -, hrecords⟩ := Move.returns_iff.mp (exec_eq_ok.mp hexec)
    have ih := ih (hrecords.sequence hmax) hrest
    have hcons : Run.states ((p, move) :: h) p' = p' :: Run.states h p := rfl
    rw [hcons, List.forall_mem_cons, List.forall_mem_cons, ih]
    constructor
    · rintro ⟨hp', hall⟩
      obtain ⟨t, ht⟩ := replays_iff.mp (ih.mpr hall p List.mem_cons_self)
      exact ⟨(ht.exec (hon hrun) hready hexec hlast hmax).mp (replays_iff.mp hp'), hall⟩
    · rintro ⟨hmatches, hall⟩
      obtain ⟨t, ht⟩ := replays_iff.mp (ih.mpr hall p List.mem_cons_self)
      exact ⟨replays_iff.mpr ((ht.exec (hon hrun) hready hexec hlast hmax).mpr hmatches), hall⟩

end

end Pipeline

/-! ### A pipeline to run it with -/

namespace Sample

/-- With more signatures than those that are made so far. -/
def signAlso (more : List ((Pubkey × Bytes 32) × Bytes 64)) (pubkey : Pubkey)
    (message : List UInt8) : Bytes 64 :=
  (((made ++ more).find? fun m => m.1.1 = pubkey ∧ m.1.2.val = message).map Prod.snd).getD
    (fill 64 0)

def envWith (more : List ((Pubkey × Bytes 32) × Bytes 64)) : Env where
  sha := Sha256.sha256
  verifyStrict pubkey message sig :=
    decide ((pubkey = payer ∨ pubkey = seller) ∧ sig = signAlso more pubkey message)
  overflowChecks := false

def payerWith (more : List ((Pubkey × Bytes 32) × Bytes 64)) : Keypair := ⟨payer, signAlso more payer⟩

theorem genuine_payerWith (more : List ((Pubkey × Bytes 32) × Bytes 64)) :
    (payerWith more).Genuine (envWith more) := fun _ => decide_eq_true ⟨.inl rfl, rfl⟩

/-- The updates of the payer's pipelines. -/
def piped : List ((Pubkey × Bytes 32) × Bytes 64) := [
  ((payer, number 0x95bb7445ce04f369ed3bb70feb3b5c1b2a255e24dfc543ca735287d290825213),
    signature 0x8947d1938c30916397ce3ebf7ff35589304f9d4ac004ac7ad23b0ba48681017d
      0x0bed1bafde9d8a62ab323bfe58a2f144bc5362fa1f54e08de57457ad6a9726c2),
  ((payer, number 0x9ede061fb4f7df71de56b11579a61906eaf4d7e857a0657b72fa7798a184ff17),
    signature 0x28a0075b4185f2a8ebe8ff6b7ccbac9e2039f635d23b40e7d3d6cb9a89e0fd48
      0x0cbe2ec24de45bfc7aacf0ae133bb8f9b1290d8609931e46bb5304c8eeea2c3c),
  ((payer, number 0x8cdf3c03af57a50a8de7537c6e9130ff016820514b13caf211b4d09581d3139f),
    signature 0x90e7833e99868a08e301ce068aa302455b8f420bee4ab9f7f941b358161b1d36
      0x0b5e2941dc3751ac37d15cd8a86444f85aa86fecaa43b84cd58aef7cb0d81c62),
  ((payer, number 0x85d555c032875c38cbaf237263dd02e1ce4a684490a83aecc494eeaae2202c6e),
    signature 0x41b4b0623769902f7d8b449e8cf6dda81b9652f84bbae2f2a2205513f0a981c4
      0x0251f32326fc71773d2ec15b051b26a4b89d2673067f776dd9b176f2f4e1f0cc),
  ((payer, number 0xe7a017ee55ae929cbe92c1d2374bb72c0c6199b0ca3192565b29f926f5f0330f),
    signature 0x2b820e1121231045ef676e76b4297fbc6a45a2f6ba2db8b9efe0e62c2c417b8e
      0x09038310caf7307b01b7c8e5498aabcda7fde52f1763aa0dda38d8faa948b58b),
  ((payer, number 0x264502cb676aa407951abde7ddadbf6b2be80bc6d57e60c10248879d6b6cd2ea),
    signature 0x68a3e6e0515ac23fb90291f3db8176283f26ae8fb85258d1c74e0ec615a15737
      0x0b3c85f14d5ff37342b81347e069862c831d334a88d91f747a19910c6334d8c9)]

/-- A payment, the rest locked and released, and the payment taken back. -/
def moves : List Move := [
  .partialTransfer 0 1 4 seller, .createHtlc 0 (env.sha preimage.val) 2000 seller 5 100,
  .resolveHtlc 0 preimage, .transferLeaf 1 payer]

/-- The payer's pipeline on a new channel. -/
def pipelineOn (s : Session) : Pipeline :=
  .new s.channel.tree s.channel.metadata.channelId 1 (payerWith piped)

end Sample

namespace Pipeline

/-- Nothing is transferred from an empty leaf to itself: the second update is to replace a leaf that
the first one has replaced. -/
theorem self_transfer_not_replayed : ∃ s h p, Sample.opened 10 none = .ok s ∧
    Run (exec (Sample.envWith Sample.piped)) (Sample.pipelineOn s) h p ∧
    h.map Prod.snd = [.partialTransfer 1 1 0 Sample.seller] ∧ p.sequence ≠ maxSequence ∧
    ¬ Replays (Sample.envWith Sample.piped) s p := by
  have htest : (Sample.opened 10 none).toOption.any fun s =>
      (Run.execAll (exec (Sample.envWith Sample.piped)) [.partialTransfer 1 1 0 Sample.seller]
        (Sample.pipelineOn s)).toOption.any fun p => decide (p.sequence ≠ maxSequence ∧
          (applyLeafUpdateBatch (Sample.envWith Sample.piped) p.updates p.signer.publicKey).stops s
            fun e _ => decide (e = .error .prevHashMismatch)) := by
    decide +kernel
  obtain ⟨s, hs, htest⟩ := exists_of_any htest
  obtain ⟨h, p, hrun, hcalls, hmax, hstops⟩ := Run.exists_of_test htest
  obtain ⟨e, s', hfails, -⟩ := exists_of_stops hstops
  refine ⟨s, h, p, hs, hrun, hcalls, hmax, ?_⟩
  rintro ⟨t, ht, -⟩
  exact ht.not_fails hfails

theorem pipeline_replays_moves : ∃ s h p, Sample.opened 10 none = .ok s ∧
    Run (exec (Sample.envWith Sample.piped)) (Sample.pipelineOn s) h p ∧
    h.map Prod.snd = Sample.moves.reverse ∧ Replays (Sample.envWith Sample.piped) s p := by
  have htest : (Sample.opened 10 none).toOption.any fun s =>
      decide (s.channel.metadata.status = .opened ∧ s.compliance = none ∧
        s.channel.metadata.sequence = 0) &&
      (Run.execAll (exec (Sample.envWith Sample.piped)) Sample.moves
        (Sample.pipelineOn s)).toOption.any fun p => decide (p.sequence ≠ maxSequence) := by
    decide +kernel
  obtain ⟨s, hs, htest⟩ := exists_of_any htest
  obtain ⟨hstart, htest⟩ := Bool.and_eq_true_iff.mp htest
  obtain ⟨hopen, hnone, hzero⟩ := of_decide_eq_true hstart
  obtain ⟨h, p, hrun, hcalls, hmax⟩ := Run.exists_of_test htest
  have hvalid : s.channel.Valid (Sample.envWith Sample.piped).sha :=
    valid_of_openChannel (Sample.openChannel_of_opened hs)
  have hseq : (1 : UInt64).toNat = s.channel.metadata.sequence.toNat + 1 := by
    rw [hzero]
    rfl
  have hfits : ∀ c ∈ h, c.2.Fits := Run.forall_of_calls (A := fun _ m => m.Fits) hcalls (by
    intro m hm p
    fin_cases hm <;> decide)
  have hmatches : ∀ c ∈ h, c.2.Matches (Sample.envWith Sample.piped) c.1.tree :=
    Run.forall_of_calls (A := fun p m => m.Matches (Sample.envWith Sample.piped) p.tree) hcalls (by
      intro m hm p
      fin_cases hm
      · intro heq
        exact absurd heq (by decide)
      · trivial
      · trivial
      · trivial)
  have hreplays := (pipeline_replays _ s hvalid hopen hnone _ (Sample.genuine_payerWith _) 1 hseq
    hrun).2.1 hmax hfits
  exact ⟨s, h, p, hs, hrun, hcalls, hreplays.mpr hmatches p List.mem_cons_self⟩

end Pipeline

end StateChannel
