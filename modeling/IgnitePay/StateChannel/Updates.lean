/-
Leaf updates (`channel.rs`): `apply_leaf_update` and its two batch forms.

An update names a leaf by its index and the hash of what stands there, and puts
a new leaf in its place.  Where a compliance manager is attached, an update that
pays is recorded there before the tree is written.  A batch applies its updates
without persisting, and on a failure puts back the tree, the sequence and the
root that it started from.

* `applyLeafUpdateInternal_returns` — what an update is checked for, and what it
  changes;
* `applyLeafUpdate_returns`, `applyLeafUpdate_fails` — the single form is the
  internal one, finished with two more fields and a write to the database.
-/
import IgnitePay.StateChannel.Channel
import IgnitePay.StateChannel.Compliance

namespace StateChannel

open Bytes Machine Solana

/-! ### Updates and their signatures -/

structure LeafUpdate where
  channelId : Bytes 32
  sequence : UInt64
  leafIndex : UInt32
  prevLeafHash : Bytes 32
  newLeaf : UTXOLeaf
  signature : Bytes 64
deriving DecidableEq

/-- `leaf_update_message`: the hash of
`channel_id || sequence || leaf_index || prev_leaf_hash || new_leaf_hash`. -/
def leafUpdateMessage (sha : List UInt8 → Bytes 32) (channelId : Bytes 32) (sequence : UInt64)
    (leafIndex : UInt32) (prevLeafHash newLeafHash : Bytes 32) : Bytes 32 :=
  sha (channelId.val ++ (u64Le sequence ++ (leBytes 4 leafIndex.toNat ++
    (prevLeafHash.val ++ newLeafHash.val))))

/-- `verify_leaf_update_signature`. -/
def Env.verifyLeafUpdateSignature (env : Env) (update : LeafUpdate) (pubkey : Pubkey) : Bool :=
  env.verifyEd25519Signature
    (leafUpdateMessage env.sha update.channelId update.sequence update.leafIndex
      update.prevLeafHash (update.newLeaf.hash env.sha))
    update.signature pubkey

/-- The update pays: a compliance manager is to record it. -/
def LeafUpdate.IsPayment (update : LeafUpdate) : Prop :=
  update.newLeaf.amount > 0 ∧ update.newLeaf.leafType = .standard

instance (update : LeafUpdate) : Decidable update.IsPayment :=
  inferInstanceAs (Decidable (_ ∧ _))

/-! ### The manager -/

/-- A channel with the database and the records of the attached compliance manager. -/
structure Session extends Local where
  compliance : Option ComplianceDb

abbrev SessionOp := Method Session Failure

/-- A method that has nothing to do with compliance. -/
def onLocal {α : Type} (x : Op α) : SessionOp α := x.on Session.toLocal fun s l => { s with toLocal := l }

section

variable {α β : Type} {s s' : Session} {x : Op α} {a : α} {e : Failure}

theorem onLocal_bind (x : Op α) (f : α → Op β) :
    onLocal (x >>= f) = onLocal x >>= fun a => onLocal (f a) := by
  apply on_bind
  · intro s l
    rfl
  · intro s l l'
    rfl

theorem returns_onLocal :
    Returns (onLocal x) s a s' ↔ ∃ l, Returns x s.toLocal a l ∧ { s with toLocal := l } = s' :=
  returns_on

theorem fails_onLocal :
    Fails (onLocal x) s e s' ↔ ∃ l, Fails x s.toLocal e l ∧ { s with toLocal := l } = s' :=
  fails_on

end

variable (env : Env)

/-- `state.metadata.sequence + 1`. -/
def nextSequence (sequence : UInt64) : Op UInt64 :=
  orThrow (addU64 env.overflowChecks sequence 1) .panic

/-- `update_leaf` on the channel's tree. -/
def updateLeaf (index : ℕ) (newLeaf : UTXOLeaf) : Op Unit := do
  let state ← channel
  check (¬ index ≥ state.tree.maxLeaves)
    (.error (.leafIndexOutOfBounds index state.tree.maxLeaves))
  let tree ← orThrow (state.tree.updateLeaf env.sha index newLeaf) .panic
  update fun c => { c with tree }

/-- `validate_leaf_update`. -/
def validateLeafUpdate (update : LeafUpdate) (signerPubkey : Pubkey) : Op Unit := do
  let state ← channel
  check (state.metadata.status = .opened) (wrongStatus "open" state.metadata.status)
  check (update.channelId = state.metadata.channelId) (.other "channel ID mismatch")
  let expected ← nextSequence env state.metadata.sequence
  check (update.sequence = expected) (.error (.invalidSequence expected update.sequence))
  let currentHash ← orThrow (state.tree.getLeafHash update.leafIndex.toNat)
    (.error (.leafIndexOutOfBounds update.leafIndex.toNat state.tree.maxLeaves))
  check (update.prevLeafHash = currentHash) (.error .prevHashMismatch)
  check (env.verifyLeafUpdateSignature update signerPubkey) (.error .invalidSignature)

/-- The compliance check of an update that pays, with slot 0. -/
def recordUpdate (update : LeafUpdate) : SessionOp Unit := do
  let s ← get
  match s.compliance with
  | none => pure ()
  | some cm =>
    if update.IsPayment then
      let m := s.channel.metadata
      match recordPayment env.sha cm m.channelId update.newLeaf.amount 0 m.userPubkey
          m.providerPubkey with
      | .ok (_, cm') => modify fun s => { s with compliance := some cm' }
      | .error e => throw (.error e)
    else pure ()

/-- The tree, the sequence and the root after an update. -/
def writeUpdate (update : LeafUpdate) : Op Unit := do
  updateLeaf env update.leafIndex.toNat update.newLeaf
  updateMetadata fun m => { m with sequence := update.sequence }
  StateChannel.update fun c => { c with metadata := { c.metadata with currentRoot := c.tree.root } }

/-- `apply_leaf_update_internal`. -/
def applyLeafUpdateInternal (update : LeafUpdate) (signerPubkey : Pubkey) : SessionOp Unit := do
  onLocal (validateLeafUpdate env update signerPubkey)
  recordUpdate env update
  onLocal (writeUpdate env update)

/-- `apply_leaf_update`. -/
def applyLeafUpdate (update : LeafUpdate) (signerPubkey : Pubkey) : SessionOp Unit := do
  onLocal (validateLeafUpdate env update signerPubkey)
  recordUpdate env update
  onLocal do
    writeUpdate env update
    StateChannel.update fun c =>
      { c with metadata := { c.metadata with leafCount := leafCount c.tree } }
    StateChannel.update fun c => { c with providerCosign := none }
    persistState

/-- What `apply_leaf_update_batch` does on a failure: back to the leaves, the
sequence and the root of before. -/
def rollback (backup : ChannelState) : Op Unit := do
  let state ← channel
  let restored ← buildTree env backup.tree.leaves state.metadata.treeDepth
  StateChannel.update fun c => { c with tree := restored }
  updateMetadata fun m => { m with
    sequence := backup.metadata.sequence
    currentRoot := backup.metadata.currentRoot }

/-- A round of the loop of `apply_leaf_update_batch`. -/
def applyOrRollback (backup : ChannelState) (signerPubkey : Pubkey) (update : LeafUpdate) :
    SessionOp Unit :=
  (applyLeafUpdateInternal env update signerPubkey).handle fun
    | .panic => throw .panic
    | .error e => do
      onLocal (rollback env backup)
      throw (.error e)

/-- `apply_leaf_update_batch`. -/
def applyLeafUpdateBatch (updates : List LeafUpdate) (signerPubkey : Pubkey) : SessionOp Unit :=
  if updates = [] then pure ()
  else do
    let s ← get
    updates.forM (applyOrRollback env s.channel signerPubkey)
    onLocal persistState

structure BatchFailureInfo where
  failedIndex : ℕ
  error : StateChannelError
  appliedCount : ℕ
deriving DecidableEq

/-- How `apply_leaf_update_batch_with_info` fails. -/
inductive BatchFailure
  | info (info : BatchFailureInfo)
  | panic
deriving DecidableEq

/-- The rollback of `apply_leaf_update_batch_with_info`, which keeps the tree
where the backup does not build one. -/
def Session.rolledBack (backup : ChannelState) (s : Session) : Session :=
  let c := s.channel
  let restored := MerkleTree.new env.sha backup.tree.leaves c.metadata.treeDepth.toNat
  { s with
    channel := { c with
      tree := restored.getD c.tree
      metadata := { c.metadata with
        sequence := backup.metadata.sequence
        currentRoot := backup.metadata.currentRoot } } }

/-- A round of its loop. -/
def applyOrReport (backup : ChannelState) (signerPubkey : Pubkey) (update : LeafUpdate × ℕ) :
    Method Session BatchFailure Unit :=
  (applyLeafUpdateInternal env update.1 signerPubkey).handle fun
    | .panic => throw .panic
    | .error e => do
      modify (Session.rolledBack env backup)
      throw (.info ⟨update.2, e, update.2⟩)

/-- `apply_leaf_update_batch_with_info`. -/
def applyLeafUpdateBatchWithInfo (updates : List LeafUpdate) (signerPubkey : Pubkey) :
    Method Session BatchFailure Unit :=
  if updates = [] then pure ()
  else do
    let s ← get
    updates.zipIdx.forM (applyOrReport env s.channel signerPubkey)
    modify fun s => { s with db := s.db.persist s.channel }

/-! ### What they check and leave behind -/

section

variable {env} {l l' : Local} {s s' : Session} {u : Unit} {update : LeafUpdate}
  {signerPubkey : Pubkey} {e : Failure}

/-- What `validate_leaf_update` checks. -/
structure Accepts (env : Env) (c : ChannelState) (update : LeafUpdate) (signerPubkey : Pubkey) :
    Prop where
  status_eq : c.metadata.status = .opened
  channelId_eq : update.channelId = c.metadata.channelId
  sequence_eq : addU64 env.overflowChecks c.metadata.sequence 1 = some update.sequence
  prevLeafHash_eq : c.tree.getLeafHash update.leafIndex.toNat = some update.prevLeafHash
  signature : env.verifyLeafUpdateSignature update signerPubkey

theorem validateLeafUpdate_returns :
    Returns (validateLeafUpdate env update signerPubkey) l u l' ↔
      Accepts env l.channel update signerPubkey ∧ l = l' := by
  simp only [validateLeafUpdate, returns_channel_bind, returns_check_bind, nextSequence,
    returns_orThrow_bind, returns_check]
  constructor
  · rintro ⟨hstatus, hid, expected, hexpected, hseq, hash, hhash, hprev, hsig, rfl⟩
    exact ⟨⟨hstatus, hid, hseq ▸ hexpected, hprev ▸ hhash, hsig⟩, rfl⟩
  · rintro ⟨h, rfl⟩
    exact ⟨h.status_eq, h.channelId_eq, _, h.sequence_eq, rfl, _, h.prevLeafHash_eq, rfl,
      h.signature, rfl⟩

theorem validateLeafUpdate_clean {bad : Failure → Prop} :
    Clean bad (validateLeafUpdate env update signerPubkey) := by
  refine clean_channel fun c => ?_
  refine .check (.check (.orThrow fun expected => ?_))
  exact .check (.orThrow fun hash => .check (clean_check _ _))

/-- The records of the compliance manager after an update that it lets pass. -/
def Recorded (s : Session) (update : LeafUpdate) (compliance : Option ComplianceDb) : Prop :=
  ((s.compliance = none ∨ ¬ update.IsPayment) ∧ compliance = s.compliance) ∨
    ∃ cm state, s.compliance = some cm ∧ update.IsPayment ∧
      Payable cm s.channel.metadata.channelId update.newLeaf.amount state ∧
      compliance = some
        (cm.insert s.channel.metadata.channelId (state.paid update.newLeaf.amount 0))

/-- Where there is nothing to record, nothing happens. -/
theorem recordUpdate_skips (hskip : s.compliance = none ∨ ¬ update.IsPayment) :
    Returns (recordUpdate env update) s u s' ↔ s = s' := by
  rw [recordUpdate, returns_get_bind]
  rcases hcm : s.compliance with _ | cm
  · exact returns_pure.trans (and_iff_right rfl)
  · rcases hskip with hnone | hno
    · exact absurd (hcm.symm.trans hnone) (by simp)
    · simp only [if_neg hno]
      exact returns_pure.trans (and_iff_right rfl)

/-- A payment goes into the records of the attached manager. -/
theorem recordUpdate_pays {cm : ComplianceDb} (hcm : s.compliance = some cm)
    (hpays : update.IsPayment) :
    Returns (recordUpdate env update) s u s' ↔
      ∃ state, Payable cm s.channel.metadata.channelId update.newLeaf.amount state ∧
        s' = { s with
          compliance := some (cm.insert s.channel.metadata.channelId
            (state.paid update.newLeaf.amount 0)) } := by
  have hpaid := @recordPayment_eq_ok env.sha cm
  rw [recordUpdate, returns_get_bind, hcm]
  simp only [if_pos hpays]
  rcases hrecord : recordPayment env.sha cm s.channel.metadata.channelId update.newLeaf.amount 0
    s.channel.metadata.userPubkey s.channel.metadata.providerPubkey with e | ⟨action, cm'⟩
  · refine iff_of_false returns_throw ?_
    rintro ⟨state, hpayable, -⟩
    obtain ⟨action, hok⟩ := hpaid.mpr ⟨state, hpayable, rfl⟩
    exact absurd (hrecord.symm.trans hok) (by simp)
  · obtain ⟨state, hpayable, rfl⟩ := hpaid.mp ⟨action, hrecord⟩
    rw [returns_modify]
    constructor
    · rintro rfl
      exact ⟨state, hpayable, rfl⟩
    · rintro ⟨state', hpayable', rfl⟩
      obtain rfl := Option.some_inj.mp (hpayable.1.symm.trans hpayable'.1)
      rfl

theorem recordUpdate_returns :
    Returns (recordUpdate env update) s u s' ↔
      ∃ compliance, Recorded s update compliance ∧ s' = { s with compliance } := by
  by_cases hskip : s.compliance = none ∨ ¬ update.IsPayment
  · rw [recordUpdate_skips hskip]
    constructor
    · rintro rfl
      exact ⟨s.compliance, .inl ⟨hskip, rfl⟩, rfl⟩
    · rintro ⟨compliance, ⟨-, rfl⟩ | ⟨cm, state, hcm, hpays, -⟩, rfl⟩
      · rfl
      · rcases hskip with hnone | hno
        · exact absurd (hcm.symm.trans hnone) (by simp)
        · exact absurd hpays hno
  · obtain ⟨hattached, hpays⟩ := not_or.mp hskip
    obtain ⟨cm, hcm⟩ := Option.ne_none_iff_exists'.mp hattached
    have hpays := not_not.mp hpays
    rw [recordUpdate_pays hcm hpays]
    constructor
    · rintro ⟨state, hpayable, rfl⟩
      exact ⟨_, .inr ⟨cm, state, hcm, hpays, hpayable, rfl⟩, rfl⟩
    · rintro ⟨compliance, ⟨hno, -⟩ | ⟨cm', state, hcm', -, hpayable, rfl⟩, rfl⟩
      · exact absurd hno hskip
      · obtain rfl := Option.some_inj.mp (hcm.symm.trans hcm')
        exact ⟨state, hpayable, rfl⟩

theorem recordUpdate_clean {bad : Failure → Prop} : Clean bad (recordUpdate env update) := by
  refine .get fun s => ?_
  rcases s.compliance with _ | cm
  · exact (total_pure ()).clean
  · by_cases hpays : update.IsPayment
    · simp only [if_pos hpays]
      rcases recordPayment env.sha cm s.channel.metadata.channelId update.newLeaf.amount 0
        s.channel.metadata.userPubkey s.channel.metadata.providerPubkey with e | ⟨action, cm'⟩
      · intro s e' s' _ h
        exact (fails_throw.mp h).2.symm
      · exact (total_modify _).clean
    · simp only [if_neg hpays]
      exact (total_pure ()).clean

/-- The tree with an update written to it. -/
def Writes (env : Env) (c : ChannelState) (update : LeafUpdate) (tree : MerkleTree) : Prop :=
  ¬ update.leafIndex.toNat ≥ c.tree.maxLeaves ∧
    c.tree.updateLeaf env.sha update.leafIndex.toNat update.newLeaf = some tree

/-- The channel with an update, as the batch forms leave it. -/
def ChannelState.written (c : ChannelState) (update : LeafUpdate) (tree : MerkleTree) :
    ChannelState :=
  { c with
    tree
    metadata := { c.metadata with
      sequence := update.sequence
      currentRoot := tree.root } }

theorem writeUpdate_returns :
    Returns (writeUpdate env update) l u l' ↔
      ∃ tree, Writes env l.channel update tree ∧ l' = ⟨l.channel.written update tree, l.db⟩ := by
  simp only [writeUpdate, updateLeaf, bind_assoc, returns_channel_bind, returns_check_bind,
    returns_orThrow_bind, returns_updateMetadata_bind, StateChannel.update, returns_modify_bind,
    returns_modify]
  constructor
  · rintro ⟨hindex, tree, htree, rfl⟩
    exact ⟨tree, ⟨hindex, htree⟩, rfl⟩
  · rintro ⟨tree, ⟨hindex, htree⟩, rfl⟩
    exact ⟨hindex, tree, htree, rfl⟩

theorem writeUpdate_clean {bad : Failure → Prop} : Clean bad (writeUpdate env update) := by
  simp only [writeUpdate, updateLeaf, bind_assoc]
  refine clean_channel fun c => .check (.orThrow fun tree => ?_)
  exact ((total_update _).bind fun _ => (total_updateMetadata _).bind fun _ => total_update _).clean

theorem applyLeafUpdateInternal_returns :
    Returns (applyLeafUpdateInternal env update signerPubkey) s u s' ↔
      Accepts env s.channel update signerPubkey ∧
        ∃ compliance tree, Recorded s update compliance ∧ Writes env s.channel update tree ∧
          s' = ⟨⟨s.channel.written update tree, s.db⟩, compliance⟩ := by
  simp only [applyLeafUpdateInternal, returns_bind, returns_onLocal, validateLeafUpdate_returns,
    recordUpdate_returns, writeUpdate_returns]
  constructor
  · rintro ⟨-, s₁, ⟨l, ⟨haccepts, rfl⟩, rfl⟩, -, s₂, ⟨compliance, hrecorded, rfl⟩, l', ⟨tree, hwrites,
      rfl⟩, rfl⟩
    exact ⟨haccepts, compliance, tree, hrecorded, hwrites, rfl⟩
  · rintro ⟨haccepts, compliance, tree, hrecorded, hwrites, rfl⟩
    exact ⟨(), s, ⟨s.toLocal, ⟨haccepts, rfl⟩, rfl⟩, (), _, ⟨compliance, hrecorded, rfl⟩, _,
      ⟨tree, hwrites, rfl⟩, rfl⟩

/-- An update that passed its checks is written. -/
theorem exists_writes (htree : IsTree env.sha s.channel.tree)
    (h : Accepts env s.channel update signerPubkey) : ∃ tree, Writes env s.channel update tree := by
  have hindex := htree.getLeafHash_eq_some h.prevLeafHash_eq
  obtain ⟨tree, hwritten, -⟩ := htree.exists_updateLeaf hindex update.newLeaf
  refine ⟨tree, ?_, hwritten⟩
  rw [htree.maxLeaves_eq]
  exact not_le.mpr hindex

/-- On a tree, an update that is not applied changes nothing. -/
theorem applyLeafUpdateInternal_fails (htree : IsTree env.sha s.channel.tree)
    (h : Fails (applyLeafUpdateInternal env update signerPubkey) s e s') : s' = s := by
  have hall : True := trivial
  rcases fails_bind.mp h with h | ⟨_, s₁, h₁, h⟩
  · obtain ⟨l, hl, rfl⟩ := fails_onLocal.mp h
    rw [@validateLeafUpdate_clean env update signerPubkey (fun _ => True) _ _ _ hall hl]
  · obtain ⟨l, hl, rfl⟩ := returns_onLocal.mp h₁
    obtain ⟨haccepts, rfl⟩ := validateLeafUpdate_returns.mp hl
    rcases fails_bind.mp h with h | ⟨_, s₂, h₂, h⟩
    · exact @recordUpdate_clean env update (fun _ => True) _ _ _ hall h
    · -- Once the update is recorded nothing is left to go wrong.
      obtain ⟨compliance, -, rfl⟩ := recordUpdate_returns.mp h₂
      obtain ⟨l, h, -⟩ := fails_onLocal.mp h
      obtain ⟨tree, hwrites⟩ := exists_writes htree haccepts
      have hreturns := @writeUpdate_returns env s.toLocal _ () update |>.mpr ⟨tree, hwrites, rfl⟩
      exact absurd h hreturns.not_fails

/-! The tree stays a tree. -/

/-- The channel's tree is one, of the depth that is recorded. -/
structure ChannelState.Valid (sha : List UInt8 → Bytes 32) (c : ChannelState) : Prop where
  isTree : IsTree sha c.tree
  treeDepth_eq : c.tree.treeDepth = c.metadata.treeDepth.toNat

/-- Then its leaves build it again. -/
theorem ChannelState.Valid.new_eq {sha : List UInt8 → Bytes 32} {c : ChannelState}
    (h : c.Valid sha) : MerkleTree.new sha c.tree.leaves c.metadata.treeDepth.toNat = some c.tree := by
  rw [← h.treeDepth_eq]
  exact h.isTree.new_eq

theorem ChannelState.Valid.of_writes {c : ChannelState} {tree : MerkleTree}
    (hvalid : c.Valid env.sha) (hwrites : Writes env c update tree) :
    (c.written update tree).Valid env.sha := by
  obtain ⟨htree, -, hdepth⟩ := hvalid.isTree.of_updateLeaf hwrites.2
  exact ⟨htree, hdepth.trans hvalid.treeDepth_eq⟩

theorem valid_of_internal (h : Returns (applyLeafUpdateInternal env update signerPubkey) s u s')
    (hvalid : s.channel.Valid env.sha) : s'.channel.Valid env.sha := by
  obtain ⟨-, compliance, tree, -, hwrites, rfl⟩ := applyLeafUpdateInternal_returns.mp h
  exact hvalid.of_writes hwrites

/-! The single form. -/

/-- What the single form writes after the update. -/
def Session.finished (s : Session) : Session :=
  let c := { s.channel with
    metadata := { s.channel.metadata with leafCount := leafCount s.channel.tree }
    providerCosign := none }
  { s with channel := c, db := s.db.persist c }

theorem applyLeafUpdate_eq : applyLeafUpdate env update signerPubkey
    = applyLeafUpdateInternal env update signerPubkey >>= fun _ => modify Session.finished := by
  rw [applyLeafUpdate, applyLeafUpdateInternal, bind_assoc]
  congr 1
  funext _
  rw [bind_assoc]
  congr 1
  funext _
  exact onLocal_bind _ _

theorem applyLeafUpdate_returns :
    Returns (applyLeafUpdate env update signerPubkey) s u s' ↔
      ∃ s₁, Returns (applyLeafUpdateInternal env update signerPubkey) s u s₁ ∧ s' = s₁.finished := by
  rw [applyLeafUpdate_eq, returns_bind]
  simp only [returns_modify]
  constructor
  · rintro ⟨_, s₁, h, rfl⟩
    exact ⟨s₁, h, rfl⟩
  · rintro ⟨s₁, h, rfl⟩
    exact ⟨(), s₁, h, rfl⟩

theorem applyLeafUpdate_fails :
    Fails (applyLeafUpdate env update signerPubkey) s e s' ↔
      Fails (applyLeafUpdateInternal env update signerPubkey) s e s' := by
  rw [applyLeafUpdate_eq, fails_bind]
  refine or_iff_left ?_
  rintro ⟨-, s₁, -, h⟩
  exact fails_modify h

end

end StateChannel
