/-
The calls of the channel manager, and what an error leaves behind.

A caller holds one `ChannelState` and hands it to the manager again and again
(`Request`); both a call that returns `Ok` and one that returns `Err` give the
state back, and only a panic ends the run (`exec`).

* `closeChannel_clean` and its siblings — a method checks before it writes;
* `submitCounterState_fails` — but for this one;
* `errors_keep_iff` — so an error leaves the channel as it was, unless a
  counter-state was accepted whose leaves then do not fit it.
-/
import IgnitePay.Lib.Run
import IgnitePay.StateChannel.Claims
import IgnitePay.StateChannel.Funding

namespace StateChannel

open Bytes Machine Solana

/-! ### Requests -/

/-- `load_state`. -/
def Db.load (sha : List UInt8 → Bytes 32) (db : Db) (channelId : Bytes 32) :
    Except StateChannelError ChannelState := do
  let metadata ← orErr (db.metas.lookup channelId) (.channelNotFound (hexEncode channelId.val))
  let leaves ← orErr (db.leaves.lookup channelId) (.channelNotFound (hexEncode channelId.val))
  let providerCosign := (db.cosigns.lookup channelId).join
  let tree ← orErr (MerkleTree.new sha leaves metadata.treeDepth.toNat)
    (.leafIndexOutOfBounds leaves.length (2 ^ metadata.treeDepth.toNat))
  return ⟨metadata, tree, providerCosign⟩

/-- The two forms of a batch. -/
inductive BatchForm
  | plain
  | withInfo
deriving DecidableEq

/-- A call of the manager on the channel. -/
inductive Request
  | fundChannel (providerKeypair : Keypair) (depositB : UInt64) (providerLeafIndex : Option ℕ)
  | constructSplitTree (leaves : List UTXOLeaf) (userKeypair providerKeypair : Keypair)
  | applyLeafUpdate (update : LeafUpdate) (signerPubkey : Pubkey)
  | applyLeafUpdateBatch (form : BatchForm) (updates : List LeafUpdate) (signerPubkey : Pubkey)
  | closeChannel (signedState : SignedState) (userPubkey providerPubkey : Pubkey)
      (currentSlot settleWindow : UInt64)
  | providerCosignState (providerKeypair : Keypair)
  | setAutoCloseSlot (autoCloseSlot : UInt64)
  | autoSettle (currentSlot settleWindow : UInt64)
  | triggerChallenge (challengerPubkey : Pubkey) (currentSlot : UInt64) (submittedRoot : Bytes 32)
      (submittedSequence : UInt64) (challengerSignature : Bytes 64)
  | settleAfterTimeout (currentSlot settleWindow : UInt64)
  | submitCounterState (counterState : SignedState) (counterLeaves : Option (List UTXOLeaf))
      (userPubkey providerPubkey : Pubkey)
  | claim (call : ClaimCall)
  | finalizeSettlement (currentSlot : UInt64) (callerPubkey : Pubkey) (callerSignature : Bytes 64)
  | persistState
  /-- The caller goes on with what `load_state` returns for the channel. -/
  | loadState
  /-- A compliance manager is attached, or changes its records by itself. -/
  | compliance (records : Option ComplianceDb)

section

variable (env : Env)

/-- A method on the channel, without what it returns. -/
def quietly {α : Type} (x : Op α) : SessionOp Unit := onLocal (x >>= fun _ => pure ())

/-- The second form of the batch, with the error alone. -/
def batchWithInfo (updates : List LeafUpdate) (signerPubkey : Pubkey) : SessionOp Unit :=
  (applyLeafUpdateBatchWithInfo env updates signerPubkey).handle fun
    | .info info => throw (.error info.error)
    | .panic => throw .panic

/-- The caller takes the stored channel. -/
def reload : SessionOp Unit := do
  let s ← get
  match s.db.load env.sha s.channel.metadata.channelId with
  | .ok c => modify fun s => { s with channel := c }
  | .error e => throw (.error e)

def Request.method : Request → SessionOp Unit
  | fundChannel providerKeypair depositB providerLeafIndex =>
    quietly (StateChannel.fundChannel env providerKeypair depositB providerLeafIndex)
  | constructSplitTree leaves userKeypair providerKeypair =>
    quietly (StateChannel.constructSplitTree env leaves userKeypair providerKeypair)
  | applyLeafUpdate update signerPubkey => StateChannel.applyLeafUpdate env update signerPubkey
  | applyLeafUpdateBatch .plain updates signerPubkey =>
    StateChannel.applyLeafUpdateBatch env updates signerPubkey
  | applyLeafUpdateBatch .withInfo updates signerPubkey => batchWithInfo env updates signerPubkey
  | closeChannel signedState userPubkey providerPubkey currentSlot settleWindow =>
    quietly (StateChannel.closeChannel env signedState userPubkey providerPubkey currentSlot
      settleWindow)
  | providerCosignState providerKeypair =>
    quietly (StateChannel.providerCosignState env providerKeypair)
  | setAutoCloseSlot autoCloseSlot => quietly (StateChannel.setAutoCloseSlot autoCloseSlot)
  | autoSettle currentSlot settleWindow =>
    quietly (StateChannel.autoSettle env currentSlot settleWindow)
  | triggerChallenge challengerPubkey currentSlot submittedRoot submittedSequence
      challengerSignature =>
    quietly (StateChannel.triggerChallenge env challengerPubkey currentSlot submittedRoot
      submittedSequence challengerSignature)
  | settleAfterTimeout currentSlot settleWindow =>
    quietly (StateChannel.settleAfterTimeout env currentSlot settleWindow)
  | submitCounterState counterState counterLeaves userPubkey providerPubkey =>
    quietly (StateChannel.submitCounterState env counterState counterLeaves userPubkey
      providerPubkey)
  | claim call => quietly (call.method env)
  | finalizeSettlement currentSlot callerPubkey callerSignature =>
    quietly (StateChannel.finalizeSettlement env currentSlot callerPubkey callerSignature)
  | persistState => quietly StateChannel.persistState
  | loadState => reload env
  | compliance records => modify fun s => { s with compliance := records }

/-- A call on a session; what is left when it panics is lost. -/
def exec (r : Request) (s : Session) : Except Unit Session :=
  match (r.method env).call s with
  | (.ok _, s') => .ok s'
  | (.error (.error _), s') => .ok s'
  | (.error .panic, _) => .error ()

end

/-! ### Checks come before writes -/

section

variable {env : Env} {bad : Failure → Prop}

theorem fundChannel_clean {providerKeypair : Keypair} {depositB : UInt64}
    {providerLeafIndex : Option ℕ} :
    Clean bad (fundChannel env providerKeypair depositB providerLeafIndex) := by
  have hslot : ∀ (tree : MerkleTree) (f : ℕ → Op LeafUpdate), (∀ index, Clean bad (f index)) →
      Clean bad (findSlot tree providerLeafIndex >>= f) := by
    intro tree f hf
    cases providerLeafIndex with
    | none => exact .orThrow hf
    | some idx =>
      simp only [findSlot, bind_assoc, pure_bind]
      exact .orThrow fun leaf => .check (hf idx)
  simp only [fundChannel, updateLeaf, bind_assoc]
  refine clean_channel fun c => .check (.check (.check (.check (.check ?_))))
  refine hslot _ _ fun index => .orThrow fun prevLeaf => .orThrow fun newSequence => ?_
  refine clean_channel fun c => .check (.orThrow fun tree => Total.clean ?_)
  refine (total_update _).bind fun _ => (total_updateMetadata _).bind fun _ => ?_
  refine (total_update _).bind fun _ => (total_update _).bind fun _ => ?_
  refine (total_updateMetadata _).bind fun _ => (total_update _).bind fun _ => ?_
  exact total_persistState.bind fun _ => total_pure _

theorem constructSplitTree_clean {leaves : List UTXOLeaf} {userKeypair providerKeypair : Keypair} :
    Clean bad (constructSplitTree env leaves userKeypair providerKeypair) := by
  refine clean_channel fun c => .check (.ofResult fun totals => .check (.check ?_))
  refine .orThrow fun tree => .orThrow fun newSequence => Total.clean ?_
  refine (total_update _).bind fun _ => (total_updateMetadata _).bind fun _ => ?_
  refine (total_update _).bind fun _ => (total_update _).bind fun _ => ?_
  exact total_persistState.bind fun _ => total_pure _

theorem closeChannel_clean (hbad : ¬ bad .panic) {signedState : SignedState}
    {userPubkey providerPubkey : Pubkey} {currentSlot settleWindow : UInt64} :
    Clean bad (closeChannel env signedState userPubkey providerPubkey currentSlot settleWindow) := by
  refine clean_channel fun c => .check (.check (.check (.check (.check (.check (.check ?_))))))
  refine ((total_updateMetadata _).bind fun _ => (total_addSlots hbad _ _).bind fun _ => ?_).clean
  exact (total_updateMetadata _).bind fun _ => (total_update _).bind fun _ => total_persistState

theorem providerCosignState_clean {providerKeypair : Keypair} :
    Clean bad (providerCosignState env providerKeypair) := by
  refine clean_channel fun c => Total.clean ?_
  exact (total_update _).bind fun _ => total_persistState.bind fun _ => total_pure _

theorem setAutoCloseSlot_clean {autoCloseSlot : UInt64} :
    Clean bad (setAutoCloseSlot autoCloseSlot) :=
  clean_channel fun _ => .check ((total_updateMetadata _).bind fun _ => total_persistState).clean

theorem autoSettle_clean (hbad : ¬ bad .panic) {currentSlot settleWindow : UInt64} :
    Clean bad (autoSettle env currentSlot settleWindow) := by
  refine clean_channel fun c => .orThrow fun autoClose => .check (.check ?_)
  refine ((total_updateMetadata _).bind fun _ => (total_addSlots hbad _ _).bind fun _ => ?_).clean
  exact (total_updateMetadata _).bind fun _ => (total_update _).bind fun _ => total_persistState

theorem triggerChallenge_clean {challengerPubkey : Pubkey} {currentSlot : UInt64}
    {submittedRoot : Bytes 32} {submittedSequence : UInt64} {challengerSignature : Bytes 64} :
    Clean bad (triggerChallenge env challengerPubkey currentSlot submittedRoot submittedSequence
      challengerSignature) := by
  refine clean_channel fun c => .check (.check (.orThrow fun minSlot => .check (.check (.check ?_))))
  exact ((total_updateMetadata _).bind fun _ => total_persistState).clean

theorem settleAfterTimeout_clean (hbad : ¬ bad .panic) {currentSlot settleWindow : UInt64} :
    Clean bad (settleAfterTimeout env currentSlot settleWindow) := by
  refine clean_channel fun c => .check (.orThrow fun challengeSlot => .orThrow fun challengeEnd => ?_)
  refine .check (Total.clean ?_)
  refine (total_updateMetadata _).bind fun _ => (total_addSlots hbad _ _).bind fun _ => ?_
  exact (total_updateMetadata _).bind fun _ => (total_update _).bind fun _ => total_persistState

theorem payHtlc_clean {leafIndex : UInt32} {leaf : UTXOLeaf} :
    Clean bad (payHtlc env leafIndex leaf) := by
  refine clean_channel fun c => .orThrow fun proof => .check (.check ?_)
  exact ((total_updateMetadata _).bind fun _ => total_persistState).clean

theorem openHtlc_clean {leafIndex : UInt32} {claimerPubkey : Pubkey} {currentSlot : UInt64}
    {claimerSignature : Bytes 64} {f : UTXOLeaf → Op Unit} (hf : ∀ leaf, Clean bad (f leaf)) :
    Clean bad (openHtlc env leafIndex claimerPubkey currentSlot claimerSignature >>= f) := by
  have hdeadline : ∀ (deadline : Option UInt64) (g : Unit → Op Unit), Clean bad (g ()) →
      Clean bad (checkDeadline currentSlot deadline >>= g) := by
    intro deadline g hg
    cases deadline with
    | none =>
      rw [checkDeadline, pure_bind]
      exact hg
    | some d => exact .check hg
  simp only [openHtlc, bind_assoc, pure_bind]
  refine clean_channel fun c => .check (hdeadline _ _ (.check (.check ?_)))
  exact .orThrow fun leaf => .check (.check (hf leaf))

theorem ClaimCall.method_clean (call : ClaimCall) : Clean bad (call.method env) := by
  have hwrites : ∀ g, Clean bad (updateMetadata g >>= fun _ => StateChannel.persistState) :=
    fun g => ((total_updateMetadata g).bind fun _ => total_persistState).clean
  cases call with
  | leaf leafIndex claimAmount claimerPubkey currentSlot claimerSignature =>
    refine clean_channel fun c => .check (.orThrow fun deadline => .check (.check (.check (.check ?_))))
    refine .orThrow fun leaf => .check (.check (.check (.check ?_)))
    exact .orThrow fun proof => .check (.check (hwrites _))
  | leafWithProof leafIndex claimAmount claimerPubkey currentSlot claimerSignature proof =>
    refine clean_channel fun c => .check (.orThrow fun deadline => .check (.check (.check (.check ?_))))
    exact .orThrow fun leaf => .check (.check (.check (.check (.check (hwrites _)))))
  | htlcVerify leafIndex preimage claimerPubkey currentSlot claimerSignature =>
    refine openHtlc_clean fun leaf => .orThrow fun beneficiary => .check ?_
    exact .orThrow fun hashLock => .check (.orThrow fun timelock => .check payHtlc_clean)
  | htlcRefund leafIndex claimerPubkey currentSlot claimerSignature =>
    exact openHtlc_clean fun leaf => .check (.orThrow fun timelock => .check payHtlc_clean)

theorem finalizeSettlement_clean {currentSlot : UInt64} {callerPubkey : Pubkey}
    {callerSignature : Bytes 64} :
    Clean bad (finalizeSettlement env currentSlot callerPubkey callerSignature) := by
  refine clean_channel fun c => .check (.orThrow fun deadline => .check (.check (Total.clean ?_)))
  exact (total_updateMetadata _).bind fun _ => total_persistState.bind fun _ => total_pure _

theorem applyLeafUpdate_fails_channel {update : LeafUpdate} {signerPubkey : Pubkey} {s s' : Session}
    {e : Failure} (h : Fails (applyLeafUpdate env update signerPubkey) s e s') :
    s'.toLocal = s.toLocal := by
  have hall : True := trivial
  rw [applyLeafUpdate_fails, applyLeafUpdateInternal, fails_bind] at h
  rcases h with h | ⟨_, s₁, h₁, h⟩
  · obtain ⟨l, hl, rfl⟩ := fails_onLocal.mp h
    exact @validateLeafUpdate_clean env update signerPubkey (fun _ => True) _ _ _ hall hl
  · obtain ⟨l, hl, rfl⟩ := returns_onLocal.mp h₁
    obtain ⟨-, rfl⟩ := validateLeafUpdate_returns.mp hl
    rcases fails_bind.mp h with h | ⟨_, s₂, h₂, h⟩
    · rw [@recordUpdate_clean env update (fun _ => True) _ _ _ hall h]
    · -- What is recorded by then is no part of the channel.
      obtain ⟨compliance, -, rfl⟩ := recordUpdate_returns.mp h₂
      obtain ⟨l, hl, rfl⟩ := fails_onLocal.mp h
      exact @writeUpdate_clean env update (fun _ => True) _ _ _ hall hl

end

/-! ### The counter-state writes first -/

section

variable {env : Env} {l l' : Local} {counterState : SignedState} {userPubkey providerPubkey : Pubkey}
  {e : Failure}

/-- The leaves that come with a counter-state are not those of its root. -/
def Unbuilt (env : Env) (c : ChannelState) (counterState : SignedState)
    (leaves : List UTXOLeaf) : Prop :=
  ∀ tree, MerkleTree.new env.sha leaves c.metadata.treeDepth.toNat = some tree →
    tree.root ≠ counterState.root

theorem submitCounterState_fails {counterLeaves : Option (List UTXOLeaf)}
    (h : Fails (submitCounterState env counterState counterLeaves userPubkey providerPubkey) l e l') :
    l' = l ∨ ∃ leaves, counterLeaves = some leaves ∧
      Counters env l.channel counterState userPubkey providerPubkey ∧
      Unbuilt env l.channel counterState leaves ∧ l' = ⟨l.channel.countered counterState, l.db⟩ := by
  simp only [submitCounterState, fails_channel_bind, fails_check_bind, fails_updateMetadata_bind,
    fails_update_bind] at h
  rcases h with ⟨-, -, rfl⟩ | ⟨hstatus, ⟨-, -, rfl⟩ | ⟨hid, ⟨-, -, rfl⟩ | ⟨hseq, ⟨-, -, rfl⟩ |
    ⟨hA, ⟨-, -, rfl⟩ | ⟨hB, h⟩⟩⟩⟩⟩
  · exact .inl rfl
  · exact .inl rfl
  · exact .inl rfl
  · exact .inl rfl
  · exact .inl rfl
  · have hcounters : Counters env l.channel counterState userPubkey providerPubkey :=
      ⟨hstatus, hid, hseq, hA, hB⟩
    cases counterLeaves with
    | none => exact absurd h fails_modify
    | some leaves =>
      refine .inr ⟨leaves, rfl, hcounters, ?_⟩
      simp only [buildTree, fails_orThrow_bind, fails_check_bind, fails_update_bind,
        fails_updateMetadata_bind] at h
      rcases h with ⟨hnone, -, rfl⟩ | ⟨tree, htree, ⟨hroot, -, rfl⟩ | ⟨-, h⟩⟩
      · refine ⟨fun tree htree => ?_, rfl⟩
        exact absurd (hnone.symm.trans htree) (by simp)
      · refine ⟨fun tree' htree' => ?_, rfl⟩
        obtain rfl := Option.some_inj.mp (htree.symm.trans htree')
        exact hroot
      · exact absurd h fails_modify

theorem submitCounterState_half {leaves : List UTXOLeaf}
    (h : Counters env l.channel counterState userPubkey providerPubkey)
    (hunbuilt : Unbuilt env l.channel counterState leaves) :
    ∃ error, Fails (submitCounterState env counterState (some leaves) userPubkey providerPubkey) l
      (.error error) ⟨l.channel.countered counterState, l.db⟩ := by
  simp only [submitCounterState, fails_channel_bind, fails_check_bind, fails_updateMetadata_bind,
    fails_update_bind, buildTree, fails_orThrow_bind]
  rcases hnew : MerkleTree.new env.sha leaves l.channel.metadata.treeDepth.toNat with _ | tree
  · refine ⟨_, .inr ⟨h.status_eq, .inr ⟨h.channelId_eq, .inr ⟨h.sequence_lt, .inr ⟨h.signed.sigA,
      .inr ⟨h.signed.sigB, .inl ⟨rfl, rfl, rfl⟩⟩⟩⟩⟩⟩⟩
  · refine ⟨_, .inr ⟨h.status_eq, .inr ⟨h.channelId_eq, .inr ⟨h.sequence_lt, .inr ⟨h.signed.sigA,
      .inr ⟨h.signed.sigB, .inr ⟨tree, rfl, .inl ⟨hunbuilt tree hnew, rfl, rfl⟩⟩⟩⟩⟩⟩⟩⟩

theorem countered_ne {c : ChannelState} (h : Counters env c counterState userPubkey providerPubkey) :
    c.countered counterState ≠ c := by
  intro heq
  have hseq : counterState.sequence = c.metadata.sequence :=
    congrArg (fun c => c.metadata.sequence) heq
  exact h.sequence_lt (hseq ▸ UInt64.le_refl _)

end

/-! ### Errors -/

section

variable {env : Env} {s s' : Session} {e : Failure} {u : Unit}

theorem returns_quietly {α : Type} {x : Op α} : Returns (quietly x) s u s' ↔
    ∃ a l, Returns x s.toLocal a l ∧ s' = { s with toLocal := l } := by
  simp only [quietly, returns_onLocal, returns_bind, returns_pure]
  constructor
  · rintro ⟨_, ⟨a, l, h, -, rfl⟩, rfl⟩
    exact ⟨a, l, h, rfl⟩
  · rintro ⟨a, l, h, rfl⟩
    exact ⟨l, ⟨a, l, h, trivial, rfl⟩, rfl⟩

theorem fails_quietly {α : Type} {x : Op α} : Fails (quietly x) s e s' ↔
    ∃ l, Fails x s.toLocal e l ∧ s' = { s with toLocal := l } := by
  simp only [quietly, fails_onLocal, fails_bind]
  constructor
  · rintro ⟨l, h | ⟨a, l₁, -, h⟩, rfl⟩
    · exact ⟨l, h, rfl⟩
    · exact absurd h fails_pure
  · rintro ⟨l, h, rfl⟩
    exact ⟨l, .inl h, rfl⟩

/-- The failure is an error that is returned. -/
def Failure.Reported : Failure → Prop
  | .error _ => True
  | .panic => False

/-- The call is a batch. -/
def Request.IsBatch : Request → Prop
  | applyLeafUpdateBatch _ _ _ => True
  | _ => False

/-- The call is a counter-state that is accepted, with leaves that are not those
of its root. -/
def Request.HalfCounters (env : Env) (c : ChannelState) : Request → Prop
  | submitCounterState counterState (some leaves) userPubkey providerPubkey =>
    Counters env c counterState userPubkey providerPubkey ∧ Unbuilt env c counterState leaves
  | _ => False

theorem reload_clean {bad : Failure → Prop} : Clean bad (reload env) := by
  refine .get fun s => ?_
  rcases s.db.load env.sha s.channel.metadata.channelId with error | c
  · intro s e s' _ h
    exact (fails_throw.mp h).2.symm
  · exact (total_modify _).clean

/-- Any other call that fails leaves the channel, in memory and in the database, as it was. -/
theorem fails_toLocal {r : Request} (hbatch : ¬ r.IsBatch) (hhalf : ¬ r.HalfCounters env s.channel)
    {error : StateChannelError} (h : Fails (r.method env) s (.error error) s') :
    s'.toLocal = s.toLocal := by
  have hreported : (Failure.error error).Reported := trivial
  have hclean : ∀ {α : Type} {x : Op α}, Clean Failure.Reported x →
      Fails (quietly x) s (.error error) s' → s'.toLocal = s.toLocal := by
    intro α x hx hfails
    obtain ⟨l, hl, rfl⟩ := fails_quietly.mp hfails
    exact hx _ _ _ hreported hl
  cases r with
  | fundChannel => exact hclean fundChannel_clean h
  | constructSplitTree => exact hclean constructSplitTree_clean h
  | applyLeafUpdate => exact applyLeafUpdate_fails_channel h
  | applyLeafUpdateBatch => exact absurd trivial hbatch
  | closeChannel => exact hclean (closeChannel_clean id) h
  | providerCosignState => exact hclean providerCosignState_clean h
  | setAutoCloseSlot => exact hclean setAutoCloseSlot_clean h
  | autoSettle => exact hclean (autoSettle_clean id) h
  | triggerChallenge => exact hclean triggerChallenge_clean h
  | settleAfterTimeout => exact hclean (settleAfterTimeout_clean id) h
  | submitCounterState counterState counterLeaves userPubkey providerPubkey =>
    obtain ⟨l, hl, rfl⟩ := fails_quietly.mp h
    rcases submitCounterState_fails hl with heq | ⟨leaves, rfl, hcounters, hunbuilt, -⟩
    · exact heq
    · exact absurd ⟨hcounters, hunbuilt⟩ hhalf
  | claim call => exact hclean call.method_clean h
  | finalizeSettlement => exact hclean finalizeSettlement_clean h
  | persistState => exact hclean total_persistState.clean h
  | loadState => rw [@reload_clean env Failure.Reported _ _ _ hreported h]
  | compliance => exact absurd h fails_modify

/-- Where the call returns an error, the channel in memory is as before. -/
def KeepsOnError (env : Env) (r : Request) (s : Session) : Prop :=
  ∀ error s', Fails (r.method env) s (.error error) s' → s'.channel = s.channel

/-- Of the calls that are no batch, exactly one keeps what it wrote when it
fails: a counter-state that is accepted before its leaves turn out wrong. -/
theorem errors_keep_iff (env : Env) (s : Session) (r : Request) (hbatch : ¬ r.IsBatch) :
    KeepsOnError env r s ↔ ¬ r.HalfCounters env s.channel := by
  constructor
  · intro hkeeps hhalf
    match r, hhalf with
    | .submitCounterState counterState (some leaves) userPubkey providerPubkey,
      ⟨hcounters, hunbuilt⟩ =>
      obtain ⟨error, hfails⟩ := @submitCounterState_half env s.toLocal counterState userPubkey
        providerPubkey leaves hcounters hunbuilt
      have hkept := hkeeps error _ (fails_quietly.mpr ⟨_, hfails, rfl⟩)
      exact countered_ne hcounters hkept
  · intro hhalf error s' h
    exact congrArg Local.channel (fails_toLocal hbatch hhalf h)

end

namespace Sample

/-- The payer locks the deposit in an HTLC. -/
def lock : Request := .applyLeafUpdate locking payer

/-- And challenges with the root of the tree. -/
def challenge : Request :=
  .triggerChallenge payer 1 (rootOf [htlcLeaf]) 2
    (signState env channelId 2 (rootOf [htlcLeaf]) payerKeypair)

/-- A state that both have signed, with the first tree. -/
def counter (leaves : Option (List UTXOLeaf)) : Request :=
  .submitCounterState (signedState 3 (rootOf [.standard payer 10])) leaves payer seller

end Sample

theorem errors_keep_challenge : ∃ s, Sample.opened 10 none = .ok s ∧
    (KeepsOnError Sample.env Sample.challenge s ↔
      ¬ Sample.challenge.HalfCounters Sample.env s.channel) := by
  obtain ⟨s, hs⟩ := exists_of_isOk (show (Sample.opened 10 none).isOk = true by decide +kernel)
  exact ⟨s, hs, errors_keep_iff Sample.env s Sample.challenge id⟩

/-- A counter-state that comes without the leaves of its tree: it is refused, and
its sequence, its root and a co-signature stay. -/
theorem errors_keep_half : ∃ s₀ s s' error, Sample.opened 10 none = .ok s₀ ∧
    Run.execAll (exec Sample.env) [Sample.lock, Sample.challenge] s₀ = .ok s ∧
    Fails ((Sample.counter (some [])).method Sample.env) s (.error error) s' ∧
    s.channel.metadata.sequence = 2 ∧ s'.channel.metadata.sequence = 3 ∧
    s'.channel ≠ s.channel := by
  have htest : (Sample.opened 10 none).toOption.any fun s₀ =>
      (Run.execAll (exec Sample.env) [Sample.lock, Sample.challenge] s₀).toOption.any fun s =>
        ((Sample.counter (some [])).method Sample.env).stops s fun e s' =>
          decide (e ≠ .panic ∧ s.channel.metadata.sequence = 2 ∧
            s'.channel.metadata.sequence = 3) := by
    decide +kernel
  obtain ⟨s₀, hs₀, htest⟩ := exists_of_any htest
  obtain ⟨s, hs, htest⟩ := exists_of_any htest
  obtain ⟨e, s', hfails, htest⟩ := exists_of_stops htest
  obtain ⟨herror, hbefore, hafter⟩ := of_decide_eq_true htest
  cases e with
  | error error =>
    refine ⟨s₀, s, s', error, hs₀, hs, hfails, hbefore, hafter, fun heq => ?_⟩
    rw [heq, hbefore] at hafter
    exact absurd hafter (by decide)
  | panic => exact absurd rfl herror

end StateChannel
