/-
What a call of the manager does to its channel, and what runs of calls keep.

A call that gives the channel back has done one of the things of `Effect`, or
was `load_state` and took the stored channel (`exec_ok`).  The stored channel is
always one that was in memory before (`Saved`), so a property that opening
gives and every effect keeps is had by the channel in memory and by the stored
one alike.

* `exec_ok` — what a call does, to the channel and to the database;
* `reachable` — the rule for runs from `open_channel`;
* `reachable_valid` — the tree is one, with the recorded depth, in every state.
-/
import IgnitePay.Lib.Run
import IgnitePay.StateChannel.Batch
import IgnitePay.StateChannel.Manager

namespace StateChannel

open Bytes Machine Solana

/-! ### What is written -/

namespace ChannelState

variable (c : ChannelState)

/-- What `apply_leaf_update` adds to the internal form. -/
def counted : ChannelState :=
  { c with
    metadata := { c.metadata with leafCount := leafCount c.tree }
    providerCosign := none }

/-- What `provider_cosign_state` writes. -/
def cosigned (env : Env) (providerKeypair : Keypair) : ChannelState :=
  { c with
    providerCosign := some (signState env c.metadata.channelId c.metadata.sequence
      c.metadata.currentRoot providerKeypair) }

/-- What `set_auto_close_slot` writes. -/
def autoClosing (autoCloseSlot : UInt64) : ChannelState :=
  { c with metadata := { c.metadata with autoCloseSlot := some autoCloseSlot } }

/-- What `trigger_challenge` writes; tree and co-signature stay. -/
def triggered (currentSlot : UInt64) (submittedRoot : Bytes 32) (submittedSequence : UInt64) :
    ChannelState :=
  { c with
    metadata := { c.metadata with
      status := .challenged
      challengeSlot := some currentSlot
      currentRoot := submittedRoot
      sequence := submittedSequence } }

/-- What a counter-state with its leaves writes. -/
def rebuilt (s : SignedState) (tree : MerkleTree) : ChannelState :=
  { c.countered s with
    metadata := { (c.countered s).metadata with leafCount := leafCount tree }
    tree := tree }

/-- What `finalize_settlement` writes. -/
def finalized : ChannelState := { c with metadata := { c.metadata with status := .closed } }

end ChannelState

/-! ### What a call does -/

/-- The channel after the updates of a batch. -/
inductive Batched (env : Env) (signerPubkey : Pubkey) : ChannelState → List LeafUpdate →
    ChannelState → Prop
  | nil {c : ChannelState} : Batched env signerPubkey c [] c
  | cons {c c' : ChannelState} {update : LeafUpdate} {updates : List LeafUpdate}
      {tree : MerkleTree} (accepted : Accepts env c update signerPubkey)
      (writes : Writes env c update tree)
      (rest : Batched env signerPubkey (c.written update tree) updates c') :
      Batched env signerPubkey c (update :: updates) c'

/-- What a call that gives the channel `c` back as `c'` has done. -/
inductive Effect (env : Env) (c : ChannelState) : Request → ChannelState → Prop
  /-- Nothing, because it failed or has nothing to do with the channel. -/
  | stays {r : Request} : Effect env c r c
  | funds {providerKeypair : Keypair} {depositB newSequence : UInt64} {requested : Option ℕ}
      {index : ℕ} {tree : MerkleTree} (checked : Funds c providerKeypair depositB)
      (sequence_eq : addU64 env.overflowChecks c.metadata.sequence 1 = some newSequence)
      (tree_eq : c.tree.updateLeaf env.sha index (.standard providerKeypair.publicKey depositB)
        = some tree) :
      Effect env c (.fundChannel providerKeypair depositB requested)
        (c.funded depositB newSequence tree)
  | splits {leaves : List UTXOLeaf} {userKeypair providerKeypair : Keypair} {tree : MerkleTree}
      {newSequence : UInt64} (checked : Splits c leaves)
      (tree_eq : MerkleTree.new env.sha leaves c.metadata.treeDepth.toNat = some tree)
      (sequence_eq : addU64 env.overflowChecks c.metadata.sequence 1 = some newSequence) :
      Effect env c (.constructSplitTree leaves userKeypair providerKeypair)
        (c.split newSequence tree
          (signState env c.metadata.channelId newSequence tree.root providerKeypair))
  | updates {update : LeafUpdate} {signerPubkey : Pubkey} {tree : MerkleTree}
      (accepted : Accepts env c update signerPubkey) (writes : Writes env c update tree) :
      Effect env c (.applyLeafUpdate update signerPubkey) (c.written update tree).counted
  | batch {form : BatchForm} {updates : List LeafUpdate} {signerPubkey : Pubkey}
      {c' : ChannelState} (batched : Batched env signerPubkey c updates c') :
      Effect env c (.applyLeafUpdateBatch form updates signerPubkey) c'
  | closes {signedState : SignedState} {userPubkey providerPubkey : Pubkey}
      {currentSlot settleWindow deadline : UInt64}
      (checked : Closes env c signedState userPubkey providerPubkey) :
      Effect env c (.closeChannel signedState userPubkey providerPubkey currentSlot settleWindow)
        (c.settled deadline)
  | cosigns {providerKeypair : Keypair} :
      Effect env c (.providerCosignState providerKeypair) (c.cosigned env providerKeypair)
  | autoCloses {autoCloseSlot : UInt64} (status_eq : c.metadata.status = .opened) :
      Effect env c (.setAutoCloseSlot autoCloseSlot) (c.autoClosing autoCloseSlot)
  | autoSettles {currentSlot settleWindow deadline : UInt64}
      (status_eq : c.metadata.status = .opened) :
      Effect env c (.autoSettle currentSlot settleWindow) (c.settled deadline)
  | triggers {challengerPubkey : Pubkey} {currentSlot submittedSequence : UInt64}
      {submittedRoot : Bytes 32} {challengerSignature : Bytes 64}
      (checked : Triggers env c challengerPubkey currentSlot submittedRoot submittedSequence
        challengerSignature) :
      Effect env c (.triggerChallenge challengerPubkey currentSlot submittedRoot submittedSequence
        challengerSignature) (c.triggered currentSlot submittedRoot submittedSequence)
  | timesOut {currentSlot settleWindow deadline : UInt64}
      (status_eq : c.metadata.status = .challenged) :
      Effect env c (.settleAfterTimeout currentSlot settleWindow) (c.settled deadline)
  | counters {counterState : SignedState} {userPubkey providerPubkey : Pubkey}
      (checked : Counters env c counterState userPubkey providerPubkey) :
      Effect env c (.submitCounterState counterState none userPubkey providerPubkey)
        (c.countered counterState)
  | rebuilds {counterState : SignedState} {leaves : List UTXOLeaf}
      {userPubkey providerPubkey : Pubkey} {tree : MerkleTree}
      (checked : Counters env c counterState userPubkey providerPubkey)
      (tree_eq : MerkleTree.new env.sha leaves c.metadata.treeDepth.toNat = some tree)
      (root_eq : tree.root = counterState.root) :
      Effect env c (.submitCounterState counterState (some leaves) userPubkey providerPubkey)
        (c.rebuilt counterState tree)
  /-- The call fails, and what it has written by then stays. -/
  | halfCounters {counterState : SignedState} {leaves : List UTXOLeaf}
      {userPubkey providerPubkey : Pubkey}
      (checked : Counters env c counterState userPubkey providerPubkey)
      (unbuilt : Unbuilt env c counterState leaves) :
      Effect env c (.submitCounterState counterState (some leaves) userPubkey providerPubkey)
        (c.countered counterState)
  | pays {call : ClaimCall} {leaf : UTXOLeaf} (checked : Pays c call.leafIndex leaf) :
      Effect env c (.claim call) (c.claimed call.leafIndex leaf.amount)
  | finalizes {currentSlot : UInt64} {callerPubkey : Pubkey} {callerSignature : Bytes 64}
      (checked : Finalizes env c currentSlot callerPubkey callerSignature) :
      Effect env c (.finalizeSettlement currentSlot callerPubkey callerSignature) c.finalized

section

variable {env : Env} {s s' : Session} {r : Request} {c c' : ChannelState} {u : Unit}
  {signerPubkey : Pubkey} {updates : List LeafUpdate}

theorem batched_of_applyAllInternal
    (h : Returns (applyAllInternal env signerPubkey updates) s u s') :
    Batched env signerPubkey s.channel updates s'.channel := by
  unfold applyAllInternal at h
  induction updates generalizing s with
  | nil =>
    obtain rfl := returns_forM_nil.mp h
    exact .nil
  | cons update updates ih =>
    obtain ⟨s₁, h₁, h⟩ := returns_forM_cons.mp h
    obtain ⟨haccepts, compliance, tree, -, hwrites, rfl⟩ := applyLeafUpdateInternal_returns.mp h₁
    exact .cons haccepts hwrites (ih h)

/-- What is in the database after a call: what was there, or the channel in memory. -/
def Stores (s s' : Session) : Prop := s'.db = s.db ∨ s'.db = s.db.persist s'.channel

theorem batched_of_returns (h : Returns (applyLeafUpdateBatch env updates signerPubkey) s u s') :
    Batched env signerPubkey s.channel updates s'.channel ∧ Stores s s' := by
  rcases eq_or_ne updates [] with rfl | hne
  · rw [applyLeafUpdateBatch, if_pos rfl] at h
    obtain ⟨-, rfl⟩ := returns_pure.mp h
    exact ⟨.nil, .inl rfl⟩
  · obtain ⟨t, ht, rfl⟩ := (applyLeafUpdateBatch_returns hne).mp h
    have hbatched := batched_of_applyAllInternal ht
    refine ⟨hbatched, .inr ?_⟩
    show t.db.persist t.channel = s.db.persist t.channel
    rw [(sameBut_of_applyAllInternal ht).1]

theorem batchWithInfo_returns : Returns (batchWithInfo env updates signerPubkey) s u s' ↔
    Returns (applyLeafUpdateBatch env updates signerPubkey) s u s' := by
  rw [batchWithInfo, returns_handle, applyLeafUpdateBatchWithInfo_returns]
  refine or_iff_left ?_
  rintro ⟨e | _, s₁, -, h⟩
  · exact returns_throw h
  · exact returns_throw h

/-- The two forms of a batch return alike. -/
theorem batch_returns {form : BatchForm}
    (h : Returns ((Request.applyLeafUpdateBatch form updates signerPubkey).method env) s u s') :
    Returns (applyLeafUpdateBatch env updates signerPubkey) s u s' := by
  cases form with
  | plain => exact h
  | withInfo => exact batchWithInfo_returns.mp h

/-- What a successful call has done, unless it took the stored channel. -/
theorem effect_of_returns (hload : r ≠ .loadState) (h : Returns (r.method env) s u s') :
    Effect env s.channel r s'.channel ∧ Stores s s' := by
  cases r with
  | fundChannel providerKeypair depositB requested =>
    obtain ⟨_, _, hr, rfl⟩ := returns_quietly.mp h
    obtain ⟨hfunds, index, -, newSequence, tree, -, -, hseq, -, htree, -, rfl⟩ :=
      fundChannel_returns.mp hr
    exact ⟨.funds hfunds hseq htree, .inr rfl⟩
  | constructSplitTree leaves userKeypair providerKeypair =>
    obtain ⟨_, _, hr, rfl⟩ := returns_quietly.mp h
    obtain ⟨hsplits, tree, newSequence, htree, hseq, rfl, rfl⟩ := constructSplitTree_returns.mp hr
    exact ⟨.splits hsplits htree hseq, .inr rfl⟩
  | applyLeafUpdate update signerPubkey =>
    obtain ⟨s₁, h₁, rfl⟩ := applyLeafUpdate_returns.mp h
    obtain ⟨haccepts, compliance, tree, -, hwrites, rfl⟩ := applyLeafUpdateInternal_returns.mp h₁
    exact ⟨.updates haccepts hwrites, .inr rfl⟩
  | applyLeafUpdateBatch form updates signerPubkey =>
    obtain ⟨hbatched, hstores⟩ := batched_of_returns (batch_returns h)
    exact ⟨.batch hbatched, hstores⟩
  | closeChannel =>
    obtain ⟨_, _, hr, rfl⟩ := returns_quietly.mp h
    obtain ⟨hcloses, deadline, -, rfl⟩ := closeChannel_returns.mp hr
    exact ⟨.closes hcloses, .inr rfl⟩
  | providerCosignState =>
    obtain ⟨_, _, hr, rfl⟩ := returns_quietly.mp h
    obtain ⟨rfl, rfl⟩ := providerCosignState_returns.mp hr
    exact ⟨.cosigns, .inr rfl⟩
  | setAutoCloseSlot =>
    obtain ⟨_, _, hr, rfl⟩ := returns_quietly.mp h
    obtain ⟨hstatus, rfl⟩ := setAutoCloseSlot_returns.mp hr
    exact ⟨.autoCloses hstatus, .inr rfl⟩
  | autoSettle =>
    obtain ⟨_, _, hr, rfl⟩ := returns_quietly.mp h
    obtain ⟨hstatus, -, deadline, -, rfl⟩ := autoSettle_returns.mp hr
    exact ⟨.autoSettles hstatus, .inr rfl⟩
  | triggerChallenge =>
    obtain ⟨_, _, hr, rfl⟩ := returns_quietly.mp h
    obtain ⟨htriggers, rfl⟩ := triggerChallenge_returns.mp hr
    exact ⟨.triggers htriggers, .inr rfl⟩
  | settleAfterTimeout =>
    obtain ⟨_, _, hr, rfl⟩ := returns_quietly.mp h
    obtain ⟨hstatus, -, deadline, -, rfl⟩ := settleAfterTimeout_returns.mp hr
    exact ⟨.timesOut hstatus, .inr rfl⟩
  | submitCounterState counterState counterLeaves =>
    obtain ⟨_, _, hr, rfl⟩ := returns_quietly.mp h
    cases counterLeaves with
    | none =>
      obtain ⟨hcounters, rfl⟩ := submitCounterState_returns.mp hr
      exact ⟨.counters hcounters, .inr rfl⟩
    | some leaves =>
      obtain ⟨hcounters, tree, htree, hroot, rfl⟩ := submitCounterState_returns.mp hr
      exact ⟨.rebuilds hcounters htree hroot, .inr rfl⟩
  | claim call =>
    obtain ⟨_, _, hr, rfl⟩ := returns_quietly.mp h
    obtain ⟨leaf, hpays, rfl⟩ := ClaimCall.pays_of_returns hr
    exact ⟨.pays hpays, .inr rfl⟩
  | finalizeSettlement =>
    obtain ⟨_, _, hr, rfl⟩ := returns_quietly.mp h
    obtain ⟨hfinalizes, -, rfl⟩ := finalizeSettlement_returns.mp hr
    exact ⟨.finalizes hfinalizes, .inr rfl⟩
  | persistState =>
    obtain ⟨_, _, hr, rfl⟩ := returns_quietly.mp h
    obtain rfl := returns_persistState.mp hr
    exact ⟨.stays, .inr rfl⟩
  | loadState => exact absurd rfl hload
  | compliance records =>
    obtain rfl := returns_modify.mp h
    exact ⟨.stays, .inl rfl⟩

/-- What a call that returned an error has done: mostly nothing. -/
theorem effect_of_fails (hvalid : s.channel.Valid env.sha) {error : StateChannelError}
    (h : Fails (r.method env) s (.error error) s') :
    Effect env s.channel r s'.channel ∧ s'.db = s.db := by
  by_cases hbatch : r.IsBatch
  · match r, hbatch with
    | .applyLeafUpdateBatch .plain updates signerPubkey, _ =>
      obtain ⟨_, _, _, _, -, -, rfl⟩ := applyLeafUpdateBatch_fails hvalid h
      exact ⟨.stays, rfl⟩
    | .applyLeafUpdateBatch .withInfo updates signerPubkey, _ =>
      obtain ⟨info | _, s₁, hinfo, h⟩ := fails_handle.mp h
      · obtain ⟨_, _, _, _, -, -, -, -, rfl⟩ := applyLeafUpdateBatchWithInfo_fails hvalid hinfo
        obtain ⟨-, rfl⟩ := fails_throw.mp h
        exact ⟨.stays, rfl⟩
      · exact absurd (fails_throw.mp h).1 (by simp)
  · by_cases hhalf : r.HalfCounters env s.channel
    · match r, hhalf with
      | .submitCounterState counterState (some leaves) userPubkey providerPubkey,
        ⟨hcounters, hunbuilt⟩ =>
        obtain ⟨l, hl, rfl⟩ := fails_quietly.mp h
        rcases submitCounterState_fails hl with rfl | ⟨_, -, -, -, rfl⟩
        · exact ⟨.stays, rfl⟩
        · exact ⟨.halfCounters hcounters hunbuilt, rfl⟩
    · have hlocal := fails_toLocal hbatch hhalf h
      rw [hlocal]
      exact ⟨.stays, rfl⟩

/-- The call took the stored channel. -/
def Loads (env : Env) (s s' : Session) : Prop :=
  s.db.load env.sha s.channel.metadata.channelId = .ok s'.channel ∧ s'.db = s.db

theorem exec_ok (hvalid : s.channel.Valid env.sha) (h : exec env r s = .ok s') :
    (Effect env s.channel r s'.channel ∧ Stores s s') ∨ (r = .loadState ∧ Loads env s s') := by
  rw [exec] at h
  rcases hcall : (r.method env).call s with ⟨(e | e) | u, s₁⟩
  · rw [hcall] at h
    obtain rfl := Except.ok.inj h
    obtain ⟨heffect, hdb⟩ := effect_of_fails hvalid hcall
    exact .inl ⟨heffect, .inl hdb⟩
  · rw [hcall] at h
    exact absurd h (by simp)
  · rw [hcall] at h
    obtain rfl := Except.ok.inj h
    by_cases hload : r = .loadState
    · subst hload
      have hreload : Returns (reload env) s u s₁ := hcall
      rw [reload, returns_get_bind] at hreload
      rcases hfound : s.db.load env.sha s.channel.metadata.channelId with e | c
      · rw [hfound] at hreload
        exact absurd hreload returns_throw
      · rw [hfound] at hreload
        obtain rfl := returns_modify.mp hreload
        exact .inr ⟨rfl, hfound, rfl⟩
    · exact .inl (effect_of_returns hload hcall)

/-! ### The tree -/

theorem valid_of_batched (h : Batched env signerPubkey c updates c') (hvalid : c.Valid env.sha) :
    c'.Valid env.sha := by
  induction h with
  | nil => exact hvalid
  | cons _ hwrites _ ih => exact ih (hvalid.of_writes hwrites)

/-- A batch writes the tree, the sequence and the root, and nothing else. -/
theorem batched_eq (h : Batched env signerPubkey c updates c') : c' = { c with
    tree := c'.tree
    metadata := { c.metadata with
      sequence := c'.metadata.sequence
      currentRoot := c'.metadata.currentRoot } } := by
  induction h with
  | nil => rfl
  | cons _ _ _ ih =>
    rw [ih]
    rfl

/-- No effect breaks the tree. -/
theorem valid_of_effect (h : Effect env c r c') (hvalid : c.Valid env.sha) : c'.Valid env.sha := by
  have written : ∀ {index : ℕ} {newLeaf : UTXOLeaf} {tree : MerkleTree},
      c.tree.updateLeaf env.sha index newLeaf = some tree →
        IsTree env.sha tree ∧ tree.treeDepth = c.metadata.treeDepth.toNat := by
    intro index newLeaf tree htree
    obtain ⟨hisTree, -, hdepth⟩ := hvalid.isTree.of_updateLeaf htree
    exact ⟨hisTree, hdepth.trans hvalid.treeDepth_eq⟩
  cases h with
  | stays => exact hvalid
  | funds _ _ htree => exact ⟨(written htree).1, (written htree).2⟩
  | splits _ htree => exact ⟨isTree_of_new htree, treeDepth_of_new htree⟩
  | updates _ hwrites => exact ⟨(written hwrites.2).1, (written hwrites.2).2⟩
  | batch hbatched => exact valid_of_batched hbatched hvalid
  | rebuilds _ htree => exact ⟨isTree_of_new htree, treeDepth_of_new htree⟩
  | closes => exact ⟨hvalid.isTree, hvalid.treeDepth_eq⟩
  | cosigns => exact ⟨hvalid.isTree, hvalid.treeDepth_eq⟩
  | autoCloses => exact ⟨hvalid.isTree, hvalid.treeDepth_eq⟩
  | autoSettles => exact ⟨hvalid.isTree, hvalid.treeDepth_eq⟩
  | triggers => exact ⟨hvalid.isTree, hvalid.treeDepth_eq⟩
  | timesOut => exact ⟨hvalid.isTree, hvalid.treeDepth_eq⟩
  | counters => exact ⟨hvalid.isTree, hvalid.treeDepth_eq⟩
  | halfCounters => exact ⟨hvalid.isTree, hvalid.treeDepth_eq⟩
  | pays => exact ⟨hvalid.isTree, hvalid.treeDepth_eq⟩
  | finalizes => exact ⟨hvalid.isTree, hvalid.treeDepth_eq⟩

theorem channelId_of_effect (h : Effect env c r c') :
    c'.metadata.channelId = c.metadata.channelId := by
  cases h with
  | batch hbatched => rw [batched_eq hbatched]
  | _ => rfl

/-! ### The database -/

/-- The database has the channel's three records. -/
structure Db.Saved (db : Db) (c : ChannelState) : Prop where
  metadata_eq : db.metas.lookup c.metadata.channelId = some c.metadata
  leaves_eq : db.leaves.lookup c.metadata.channelId = some c.tree.leaves
  cosign_eq : db.cosigns.lookup c.metadata.channelId = some c.providerCosign

theorem saved_persist (db : Db) (c : ChannelState) : (db.persist c).Saved c :=
  ⟨AList.lookup_insert _, AList.lookup_insert _, AList.lookup_insert _⟩

/-- What is loaded is what was saved. -/
theorem load_of_saved {db : Db} (h : db.Saved c) (hvalid : c.Valid env.sha) :
    db.load env.sha c.metadata.channelId = .ok c := by
  refine bind_eq_ok.mpr ⟨c.metadata, orErr_eq_ok.mpr h.metadata_eq, ?_⟩
  refine bind_eq_ok.mpr ⟨c.tree.leaves, orErr_eq_ok.mpr h.leaves_eq, ?_⟩
  refine bind_eq_ok.mpr ⟨c.tree, orErr_eq_ok.mpr hvalid.new_eq, ?_⟩
  rw [h.cosign_eq]
  rfl

/-! ### Runs -/

/-- The channel in memory and the one in the database, which need not be the
same, both have the property. -/
structure Holds (env : Env) (P : ChannelState → Prop) (s : Session) : Prop where
  valid : s.channel.Valid env.sha
  memory : P s.channel
  stored : ∃ c, s.db.Saved c ∧ c.metadata.channelId = s.channel.metadata.channelId ∧
    c.Valid env.sha ∧ P c

/-- A load that failed changes nothing. -/
theorem stays_of_loadState (h : Effect env c .loadState c') : c' = c := by
  cases h with
  | stays => rfl

/-- A step keeps what the channel in memory has after it; the stored channel may come back. -/
theorem holds_of_step {P : ChannelState → Prop} (hs : Holds env P s) (h : exec env r s = .ok s')
    (hkeeps : r ≠ .loadState → P s'.channel) : Holds env P s' := by
  obtain ⟨c, hsaved, hid, hvalid, hc⟩ := hs.stored
  rcases exec_ok hs.valid h with ⟨heffect, hdb⟩ | ⟨-, hload, hdb⟩
  · have hvalid' := valid_of_effect heffect hs.valid
    have hmemory : P s'.channel := by
      by_cases hload : r = .loadState
      · have hsame : s'.channel = s.channel := stays_of_loadState (hload ▸ heffect)
        rw [hsame]
        exact hs.memory
      · exact hkeeps hload
    refine ⟨hvalid', hmemory, ?_⟩
    rcases hdb with hdb | hdb
    · refine ⟨c, hdb ▸ hsaved, ?_, hvalid, hc⟩
      rw [hid, channelId_of_effect heffect]
    · exact ⟨s'.channel, hdb ▸ saved_persist _ _, rfl, hvalid', hmemory⟩
  · -- The stored channel comes back as it was saved.
    rw [← hid, load_of_saved hsaved hvalid] at hload
    obtain rfl := Except.ok.inj hload
    exact ⟨hvalid, hc, s'.channel, hdb ▸ hsaved, rfl, hvalid, hc⟩

/-- What a call that is not a load does. -/
theorem effect_of_exec (hvalid : s.channel.Valid env.sha) (h : exec env r s = .ok s')
    (hload : r ≠ .loadState) : Effect env s.channel r s'.channel := by
  rcases exec_ok hvalid h with ⟨heffect, -⟩ | ⟨heq, -⟩
  · exact heffect
  · exact absurd heq hload

/-- A step keeps what its effect keeps. -/
theorem holds_of_exec {P : ChannelState → Prop} (hs : Holds env P s) (h : exec env r s = .ok s')
    (hkeeps : ∀ c', Effect env s.channel r c' → P c') : Holds env P s' :=
  holds_of_step hs h fun hload => hkeeps _ (effect_of_exec hs.valid h hload)

/-- A session with a channel that was just opened, and with any records of the
compliance manager. -/
def Opened (env : Env) (a : OpenArgs) (s : Session) : Prop :=
  ∃ channelId db, openChannel env a channelId db = .ok (s.channel, s.db)

theorem holds_of_opened {P : ChannelState → Prop} {a : OpenArgs} (h : Opened env a s)
    (hP : ∀ channelId tree,
      MerkleTree.new env.sha [.standard a.userPubkey a.depositAmount] a.treeDepth.toNat = some tree →
        P ⟨a.metadata channelId tree, tree, none⟩) : Holds env P s := by
  obtain ⟨channelId, db, h⟩ := h
  have hvalid := valid_of_openChannel h
  obtain ⟨tree, htree, hchannel, hdb⟩ := openChannel_ok h
  have hmemory : P s.channel := hchannel ▸ hP channelId tree htree
  exact ⟨hvalid, hmemory, s.channel, hdb ▸ saved_persist _ _, rfl, hvalid, hmemory⟩

/-- What a new channel has, and the effects of allowed calls keep, the channel has
in memory and in the database throughout a run of such calls. -/
theorem reachable {P : ChannelState → Prop} {a : OpenArgs} {s₀ : Session}
    {h : List (Session × Request)} (allowed : ChannelState → Request → Prop)
    (hopened : Opened env a s₀)
    (hopen : ∀ channelId tree,
      MerkleTree.new env.sha [.standard a.userPubkey a.depositAmount] a.treeDepth.toNat = some tree →
        P ⟨a.metadata channelId tree, tree, none⟩)
    (hkeeps : ∀ c r c', P c → allowed c r → Effect env c r c' → P c')
    (hrun : Run (exec env) s₀ h s) (hall : ∀ p ∈ h, allowed p.1.channel p.2) : Holds env P s := by
  refine hrun.invariant_of (fun s r => allowed s.channel r) (holds_of_opened hopened hopen) ?_ hall
  intro s r s' hs hallowed hexec
  exact holds_of_exec hs hexec fun c' => hkeeps _ _ _ hs.memory hallowed

theorem reachable_valid {a : OpenArgs} {s₀ : Session} {h : List (Session × Request)}
    (hopened : Opened env a s₀) (hrun : Run (exec env) s₀ h s) : s.channel.Valid env.sha :=
  (reachable (fun _ _ => True) (P := fun _ => True) hopened (fun _ _ _ => trivial)
    (fun _ _ _ _ _ _ => trivial) hrun fun _ _ => trivial).valid

end

/-- Calls are tried out on a new channel: where they lead to a state that passes a
test, some run leads there. -/
theorem Sample.exists_run {depositAmount : UInt64} {calls : List Request} {P : Session → Prop}
    [DecidablePred P]
    (htest : (Sample.opened depositAmount none).toOption.any (fun s₀ =>
      (Run.execAll (exec Sample.env) calls s₀).toOption.any fun s => decide (P s)) = true) :
    ∃ s₀ h s, Opened Sample.env (Sample.openArgs depositAmount) s₀ ∧ Run (exec Sample.env) s₀ h s ∧
      h.map Prod.snd = calls.reverse ∧ P s := by
  obtain ⟨s₀, hs₀, htest⟩ := exists_of_any htest
  obtain ⟨h, s, hrun, hcalls, hp⟩ := Run.exists_of_test htest
  exact ⟨s₀, h, s, ⟨_, _, Sample.openChannel_of_opened hs₀⟩, hrun, hcalls, hp⟩

end StateChannel
