/-
The dispute handlers of the service (`settlement.rs`, `htlc.rs`).

Five of them sign a message themselves: the channel's id, the slot and a root, on 72
bytes.  The manager verifies the signature for a hash of 32 bytes, of a state or of a
claim.  `submit_counter` takes two signatures and makes up the state that they are
for.

* `request_of_returns` — what a handler calls the manager with;
* `submitCounter_returns` — which state `submit_counter` submits;
* `disputes_usable_iff` — if a signature verifies for the message that was signed and no
  other, the five never succeed, and the sixth does for the next state with the same root.
-/
import IgnitePay.Program.Builders
import IgnitePay.Service.Payment
import IgnitePay.StateChannel.Messages

namespace Service

open Bytes Machine Solana StateChannel

/-! ### The handlers -/

/-- The message that the handlers sign: `channel_id || slot || root`. -/
def slotMessage (channelId : Bytes 32) (slot : UInt64) (root : Bytes 32) : List UInt8 :=
  channelId.val ++ (u64Le slot ++ root.val)

/-- What `trigger_challenge` answers. -/
structure ChallengeResponse where
  channelId : Bytes 32
  challengeSlot : UInt64
  ed25519Instructions : List Instruction
  onChainInstruction : Instruction

/-- What `submit_counter` answers. -/
structure CounterResponse where
  channelId : Bytes 32
  sequence : UInt64
  ed25519Instructions : List Instruction
  onChainInstruction : Instruction

/-- What `claim` answers. -/
structure ClaimResponse where
  channelId : Bytes 32
  leafIndex : UInt32
  claimed : UInt64
  totalClaimed : UInt64

/-- What `resolve_htlc` and `refund_htlc` answer. -/
structure HtlcResponse where
  channelId : Bytes 32
  leafIndex : UInt32
  sequence : UInt64

/-- What `finalize` answers. -/
structure FinalizeResponse where
  channelId : Bytes 32
  ed25519Instructions : List Instruction
  onChainInstruction : Instruction

section

variable (env : Env) (app : AppState) (channelId : Bytes 32)

/-- `trigger_challenge`. -/
def triggerChallenge (submittedRoot : Bytes 32) (submittedSequence : UInt64) :
    Handler ChallengeResponse := do
  let slot ← currentSlot app
  let msg := slotMessage channelId slot submittedRoot
  let sig := app.keypair.sign msg
  let channelState ← loadState env channelId
  let _ ← onManager channelState (quietly
    (StateChannel.triggerChallenge env app.pubkey slot submittedRoot submittedSequence sig))
  return {
    channelId
    challengeSlot := slot
    ed25519Instructions := [Program.buildTriggerChallengeEd25519Ix app.pubkey msg sig]
    onChainInstruction := Program.buildTriggerChallengeIx env.sha app.programId
      (app.channelPda channelId) app.pubkey submittedRoot submittedSequence }

/-- `submit_counter`; the state is the next one, with the root that is stored. -/
def submitCounter (sigA sigB : Bytes 64) : Handler CounterResponse := do
  let channelState ← loadState env channelId
  let m := channelState.metadata
  let counterSequence ← orThrow (addU64 env.overflowChecks m.sequence 1) .panic
  let counterRoot := m.currentRoot
  let counterState : SignedState := ⟨channelId, counterSequence, counterRoot, sigA, sigB⟩
  let _ ← onManager channelState (quietly
    (submitCounterState env counterState none m.userPubkey m.providerPubkey))
  let counterMsg := slotMessage channelId counterSequence counterRoot
  return {
    channelId
    sequence := counterSequence
    ed25519Instructions := Program.buildSubmitCounterStateEd25519Ixs m.userPubkey m.providerPubkey
      counterMsg sigA sigB
    onChainInstruction := Program.buildSubmitCounterStateIx env.sha app.programId
      (app.channelPda channelId) counterSequence counterRoot }

/-- `claim`; the channel is loaded for its root first, and then again. -/
def claim (leafIndex : UInt32) (claimAmount : UInt64) (proof : List (Bytes 32)) :
    Handler ClaimResponse := do
  let slot ← currentSlot app
  let before ← loadState env channelId
  let sig := app.keypair.sign (slotMessage channelId slot before.metadata.currentRoot)
  let channelState ← loadState env channelId
  let (_, s) ← onManager channelState (quietly
    (claimLeafWithProof env leafIndex claimAmount app.pubkey slot sig proof))
  return ⟨channelId, leafIndex, claimAmount, s.channel.metadata.totalClaimed⟩

/-- `resolve_htlc`. -/
def resolveHtlc (leafIndex : UInt32) (preimage : Bytes 32) : Handler HtlcResponse := do
  let slot ← currentSlot app
  let channelState ← loadState env channelId
  let sig := app.keypair.sign (slotMessage channelId slot channelState.metadata.currentRoot)
  let (_, s) ← onManager channelState (quietly
    (claimHtlcVerify env leafIndex preimage app.pubkey slot sig))
  return ⟨channelId, leafIndex, s.channel.metadata.sequence⟩

/-- `refund_htlc`. -/
def refundHtlc (leafIndex : UInt32) : Handler HtlcResponse := do
  let slot ← currentSlot app
  let channelState ← loadState env channelId
  let sig := app.keypair.sign (slotMessage channelId slot channelState.metadata.currentRoot)
  let (_, s) ← onManager channelState (quietly
    (claimHtlcRefund env leafIndex app.pubkey slot sig))
  return ⟨channelId, leafIndex, s.channel.metadata.sequence⟩

/-- `finalize`. -/
def finalize : Handler FinalizeResponse := do
  let slot ← currentSlot app
  let channelState ← loadState env channelId
  let msg := slotMessage channelId slot channelState.metadata.currentRoot
  let sig := app.keypair.sign msg
  let (_, s) ← onManager channelState (quietly
    (finalizeSettlement env slot app.pubkey sig))
  return {
    channelId
    ed25519Instructions := [Program.buildFinalizeSettlementEd25519Ix app.pubkey msg sig]
    onChainInstruction := Program.buildFinalizeSettlementIx env.sha app.programId
      (app.channelPda channelId) app.pubkey s.channel.metadata.vaultA s.channel.metadata.vaultB
      (app.escrowPda channelId) }

end

/-- A call of a handler that signs by itself. -/
inductive DisputeCall
  | triggerChallenge (submittedRoot : Bytes 32) (submittedSequence : UInt64)
  | claim (leafIndex : UInt32) (claimAmount : UInt64) (proof : List (Bytes 32))
  | resolveHtlc (leafIndex : UInt32) (preimage : Bytes 32)
  | refundHtlc (leafIndex : UInt32)
  | finalize

namespace DisputeCall

/-- The handler, without its answer. -/
def handler (env : Env) (app : AppState) (channelId : Bytes 32) : DisputeCall → Handler Unit
  | triggerChallenge submittedRoot submittedSequence =>
    Service.triggerChallenge env app channelId submittedRoot submittedSequence >>= fun _ => pure ()
  | claim leafIndex claimAmount proof =>
    Service.claim env app channelId leafIndex claimAmount proof >>= fun _ => pure ()
  | resolveHtlc leafIndex preimage =>
    Service.resolveHtlc env app channelId leafIndex preimage >>= fun _ => pure ()
  | refundHtlc leafIndex => Service.refundHtlc env app channelId leafIndex >>= fun _ => pure ()
  | finalize => Service.finalize env app channelId >>= fun _ => pure ()

/-- The call of the manager that it is for, with a signature. -/
def request (app : AppState) (slot : UInt64) (sig : Bytes 64) : DisputeCall → Request
  | triggerChallenge submittedRoot submittedSequence =>
    .triggerChallenge app.pubkey slot submittedRoot submittedSequence sig
  | claim leafIndex claimAmount proof =>
    .claim (.leafWithProof leafIndex claimAmount app.pubkey slot sig proof)
  | resolveHtlc leafIndex preimage => .claim (.htlcVerify leafIndex preimage app.pubkey slot sig)
  | refundHtlc leafIndex => .claim (.htlcRefund leafIndex app.pubkey slot sig)
  | finalize => .finalizeSettlement slot app.pubkey sig

end DisputeCall

/-! ### What they do -/

section

variable {env : Env} {app : AppState} {channelId : Bytes 32} {db db' : Db} {call : DisputeCall}
  {u : Unit}

/-- Each handler calls the manager with its signature on the slot and some root. -/
theorem request_of_returns (h : Returns (call.handler env app channelId) db u db') :
    ∃ slot root c s, db.load env.sha channelId = .ok c ∧
      Returns ((call.request app slot
        (app.keypair.sign (slotMessage channelId slot root))).method env) (session c db) () s := by
  cases call with
  | triggerChallenge submittedRoot submittedSequence =>
    simp only [DisputeCall.handler, triggerChallenge, bind_assoc, pure_bind,
      returns_currentSlot_bind, returns_loadState_bind, returns_onManager_bind, returns_pure] at h
    obtain ⟨slot, -, c, hload, _, s, hs, -⟩ := h
    exact ⟨slot, submittedRoot, c, s, hload, hs⟩
  | claim leafIndex claimAmount proof =>
    simp only [DisputeCall.handler, claim, bind_assoc, pure_bind, returns_currentSlot_bind,
      returns_loadState_bind, returns_onManager_bind, returns_pure] at h
    obtain ⟨slot, -, before, -, c, hload, _, s, hs, -⟩ := h
    exact ⟨slot, before.metadata.currentRoot, c, s, hload, hs⟩
  | resolveHtlc leafIndex preimage =>
    simp only [DisputeCall.handler, resolveHtlc, bind_assoc, pure_bind, returns_currentSlot_bind,
      returns_loadState_bind, returns_onManager_bind, returns_pure] at h
    obtain ⟨slot, -, c, hload, _, s, hs, -⟩ := h
    exact ⟨slot, c.metadata.currentRoot, c, s, hload, hs⟩
  | refundHtlc leafIndex =>
    simp only [DisputeCall.handler, refundHtlc, bind_assoc, pure_bind, returns_currentSlot_bind,
      returns_loadState_bind, returns_onManager_bind, returns_pure] at h
    obtain ⟨slot, -, c, hload, _, s, hs, -⟩ := h
    exact ⟨slot, c.metadata.currentRoot, c, s, hload, hs⟩
  | finalize =>
    simp only [DisputeCall.handler, finalize, bind_assoc, pure_bind, returns_currentSlot_bind,
      returns_loadState_bind, returns_onManager_bind, returns_pure] at h
    obtain ⟨slot, -, c, hload, _, s, hs, -⟩ := h
    exact ⟨slot, c.metadata.currentRoot, c, s, hload, hs⟩

/-- The manager has verified the signature for some hash. -/
theorem verified_of_request {slot : UInt64} {sig : Bytes 64} {s s' : Session}
    (h : Returns ((call.request app slot sig).method env) s u s') :
    ∃ message : Bytes 32, env.verifyEd25519Signature message sig app.pubkey := by
  cases call with
  | triggerChallenge submittedRoot submittedSequence =>
    obtain ⟨_, _, hr, -⟩ := returns_quietly.mp h
    exact ⟨_, (triggerChallenge_returns.mp hr).1.signature⟩
  | claim leafIndex claimAmount proof =>
    obtain ⟨_, _, hr, -⟩ := returns_quietly.mp h
    exact ⟨_, (claimLeafWithProof_returns.mp hr).1.signature⟩
  | resolveHtlc leafIndex preimage =>
    obtain ⟨_, _, hr, -⟩ := returns_quietly.mp h
    obtain ⟨leaf, hopens, -⟩ := claimHtlcVerify_returns.mp hr
    exact ⟨_, hopens.signature⟩
  | refundHtlc leafIndex =>
    obtain ⟨_, _, hr, -⟩ := returns_quietly.mp h
    obtain ⟨leaf, hopens, -⟩ := claimHtlcRefund_returns.mp hr
    exact ⟨_, hopens.signature⟩
  | finalize =>
    obtain ⟨_, _, hr, -⟩ := returns_quietly.mp h
    exact ⟨_, (finalizeSettlement_returns.mp hr).1.signature⟩

/-- The state that `submit_counter` submits. -/
def counterState (c : ChannelState) (channelId : Bytes 32) (sigA sigB : Bytes 64) : SignedState :=
  ⟨channelId, c.metadata.sequence + 1, c.metadata.currentRoot, sigA, sigB⟩

theorem submitCounter_returns {sigA sigB : Bytes 64} {c : ChannelState}
    (hload : db.load env.sha channelId = .ok c) (hfits : c.metadata.sequence.toNat + 1 < 2 ^ 64) :
    (∃ r, Returns (submitCounter env app channelId sigA sigB) db r db') ↔
      Counters env c (counterState c channelId sigA sigB) c.metadata.userPubkey
        c.metadata.providerPubkey ∧
      db' = db.persist (c.countered (counterState c channelId sigA sigB)) := by
  have hsequence : addU64 env.overflowChecks c.metadata.sequence 1 = some (c.metadata.sequence + 1) :=
    addU64_eq_some (toNat_add_of_lt hfits)
  simp only [submitCounter, returns_loadState_bind, returns_orThrow_bind, returns_onManager_bind,
    returns_quietly, submitCounterState_returns, returns_pure]
  constructor
  · rintro ⟨r, c₁, hload₁, sequence, hsequence₁, _, s, ⟨_, l, ⟨hcounters, rfl⟩, rfl⟩, -, rfl⟩
    obtain rfl := Except.ok.inj (hload.symm.trans hload₁)
    obtain rfl := Option.some_inj.mp (hsequence.symm.trans hsequence₁)
    exact ⟨hcounters, rfl⟩
  · rintro ⟨hcounters, rfl⟩
    exact ⟨_, c, hload, _, hsequence, (), _, ⟨(), _, ⟨hcounters, rfl⟩, rfl⟩, rfl, rfl⟩

end

/-! ### Ideal signatures -/

/-- A signature verifies for the message that was signed, and for no other. -/
structure Ideal (env : Env) (keypair : Keypair) : Prop where
  own : ∀ message message', env.verifyStrict keypair.publicKey message' (keypair.sign message) →
    message' = message
  once : ∀ pubkey sig message message', env.verifyStrict pubkey message sig →
    env.verifyStrict pubkey message' sig → message' = message

section

variable {env : Env} {app : AppState} {channelId : Bytes 32} {db db' : Db}

/-- No hash is the message of a handler. -/
theorem not_verified (hideal : Ideal env app.keypair) {message root : Bytes 32} {slot : UInt64} :
    ¬ env.verifyEd25519Signature message (app.keypair.sign (slotMessage channelId slot root))
      app.pubkey := by
  intro h
  have heq : message.val = (Statement.state channelId slot root).preimage := hideal.own _ _ h
  have hlength := congrArg List.length heq
  rw [length_val, Statement.length_preimage, Statement.width] at hlength
  omega

theorem handler_fails (hideal : Ideal env app.keypair) {call : DisputeCall} {u : Unit} :
    ¬ Returns (call.handler env app channelId) db u db' := by
  intro h
  obtain ⟨slot, root, c, s, -, hs⟩ := request_of_returns h
  obtain ⟨message, hverified⟩ := verified_of_request hs
  exact not_verified hideal hverified

/-- The two states that the same signature is for are the same. -/
theorem state_of_signed {known : Set (List UInt8)} {pubkey : Pubkey} {sig : Bytes 64}
    {sequence sequence' : UInt64} {root root' : Bytes 32} (hideal : Ideal env app.keypair)
    (hfree : Sha256.CollisionFree env.sha known)
    (h : env.verifyStateSignature channelId sequence root sig pubkey)
    (h' : env.verifyStateSignature channelId sequence' root' sig pubkey)
    (hmem : (Statement.state channelId sequence root).preimage ∈ known)
    (hmem' : (Statement.state channelId sequence' root').preimage ∈ known) :
    sequence' = sequence ∧ root' = root := by
  have hmessage : stateMessage env.sha channelId sequence' root'
      = stateMessage env.sha channelId sequence root := Subtype.ext (hideal.once _ _ _ _ h h')
  have hstate := (Statement.message_inj hfree hmem' hmem).mp hmessage
  rw [Statement.state.injEq] at hstate
  exact hstate.2

end

/-- If signatures are ideal, none of the five handlers ever succeeds; and with the two signatures on a
state above the challenged one `submit_counter` stores its root exactly if it is the next state and
its root is the one that was challenged with. -/
theorem disputes_usable_iff (env : Env) (app : AppState) (channelId : Bytes 32) (db : Db)
    (known : Set (List UInt8)) (hideal : Ideal env app.keypair)
    (hfree : Sha256.CollisionFree env.sha known) :
    (∀ (call : DisputeCall) u db', ¬ Returns (call.handler env app channelId) db u db') ∧
    ∀ (c : ChannelState) (signed : SignedState), db.load env.sha channelId = .ok c →
      c.metadata.channelId = channelId → c.metadata.status = .challenged →
      signed.channelId = channelId →
      SignedBy env signed c.metadata.userPubkey c.metadata.providerPubkey →
      signed.sequence > c.metadata.sequence →
      (Statement.state channelId signed.sequence signed.root).preimage ∈ known →
      (Statement.state channelId (c.metadata.sequence + 1) c.metadata.currentRoot).preimage ∈ known →
      ((∃ r db', Returns (submitCounter env app channelId signed.sigA signed.sigB) db r db' ∧
          ∃ c', db'.load env.sha channelId = .ok c' ∧ c'.metadata.currentRoot = signed.root) ↔
        signed.sequence = c.metadata.sequence + 1 ∧ signed.root = c.metadata.currentRoot) := by
  refine ⟨fun call u db' => handler_fails hideal, ?_⟩
  intro c signed hload hid hstatus hsigned hby hlater hmem hmem'
  have hfits : c.metadata.sequence.toNat + 1 < 2 ^ 64 := by
    have hlt := UInt64.lt_iff_toNat_lt.mp hlater
    have hbound := signed.sequence.toNat_lt
    omega
  subst hsigned
  constructor
  · rintro ⟨r, db', hr, -⟩
    obtain ⟨hcounters, -⟩ := (submitCounter_returns hload hfits).mp ⟨r, hr⟩
    exact state_of_signed hideal hfree hcounters.signed.sigA hby.sigA hmem' hmem
  · rintro ⟨hsequence, hroot⟩
    have hstate : counterState c signed.channelId signed.sigA signed.sigB = signed := by
      rw [counterState, ← hsequence, ← hroot]
    have hcounters : Counters env c (counterState c signed.channelId signed.sigA signed.sigB)
        c.metadata.userPubkey c.metadata.providerPubkey := by
      rw [hstate]
      exact ⟨hstatus, hid.symm, UInt64.not_le.mpr hlater, hby⟩
    obtain ⟨r, hr⟩ := (@submitCounter_returns env app signed.channelId db _ signed.sigA signed.sigB c
      hload hfits).mpr ⟨hcounters, rfl⟩
    have hvalid := valid_of_load hload
    have hstored := @load_of_saved env _ _ (saved_persist db (c.countered
      (counterState c signed.channelId signed.sigA signed.sigB))) ⟨hvalid.isTree, hvalid.treeDepth_eq⟩
    have hkey : (c.countered (counterState c signed.channelId signed.sigA signed.sigB)).metadata.channelId
        = signed.channelId := hid
    rw [hkey] at hstored
    exact ⟨r, _, hr, _, hstored, hroot.symm⟩

/-! ### A challenge that cannot be made, and one that is answered -/

namespace Sample

open StateChannel.Sample

/-- The root that the channel opens with. -/
def openRoot : Bytes 32 := rootOf [.standard payer 10]

/-- The signatures of the two: on what the handler of `trigger_challenge` signs in slot 5, and on the
states of sequence 1 and 2 with that root. -/
def disputing : List (Pubkey × List UInt8 × Bytes 64) := [
  (payer, slotMessage channelId 5 openRoot,
    signature 0xae119b0a067831cfad97cf0e9488abb3564ef1e9ff20487455ce54b50990e834
      0x077ce02c10949069e2de420f419ca4b69e046e39158abc166a85eeed4bb15a17),
  (payer, (stateMessage Sha256.sha256 channelId 1 openRoot).val,
    signature 0xb1f7c081c7c17c3ee3f1d0ddf1ebf25cbce977251be392fa6b7ea00a457ae3a4
      0x07a8d0a5625703c6b72940f1c5507b843d3737de8900100009891cb464faa9ed),
  (payer, (stateMessage Sha256.sha256 channelId 2 openRoot).val,
    signature 0xec037d545a2db6c98f4f080109aea8c15634d55f2587655ca3844255d3a988c6
      0x0d050752670646855de7069891046a45efc582d8842b049ce04682765a93d80c),
  (seller, (stateMessage Sha256.sha256 channelId 2 openRoot).val,
    signature 0x48618ad5c8b833fe7da2e52a47f93a31bc24066da6b8ee08435a046fb8d3eb7b
      0x0815a0275fd6acf71d93d69c258a7705ad146aba854d2a05a4610ecc4137087a)]

def disputeEnv : Env where
  sha := Sha256.sha256
  verifyStrict pubkey message sig :=
    disputing.any fun m => m.1 = pubkey ∧ m.2.1 = message ∧ m.2.2 = sig
  overflowChecks := true

def disputeKeypair (pubkey : Pubkey) : Keypair where
  publicKey := pubkey
  sign message := ((disputing.find? fun m => m.1 = pubkey ∧ m.2.1 = message).map
    fun m => m.2.2).getD (fill 64 0)

theorem mem_disputing {pubkey : Pubkey} {message : List UInt8} {sig : Bytes 64}
    (h : disputeEnv.verifyStrict pubkey message sig) : (pubkey, message, sig) ∈ disputing := by
  obtain ⟨m, hm, htest⟩ := List.any_eq_true.mp h
  obtain ⟨rfl, rfl, rfl⟩ := of_decide_eq_true htest
  exact hm

theorem ideal_disputeEnv (pubkey : Pubkey) : Ideal disputeEnv (disputeKeypair pubkey) := by
  have honce : ∀ m ∈ disputing, ∀ m' ∈ disputing, m.2.2 = m'.2.2 → m'.2.1 = m.2.1 := by
    decide +kernel
  have hzero : ∀ m ∈ disputing, m.2.2 ≠ fill 64 0 := by
    decide
  constructor
  · intro message message' h
    have hmem := mem_disputing h
    rcases hfind : disputing.find? (fun m => m.1 = pubkey ∧ m.2.1 = message) with _ | m
    · have hnone : (disputeKeypair pubkey).sign message = fill 64 0 := by
        simp only [disputeKeypair, hfind, Option.map_none, Option.getD_none]
      exact absurd hnone (hzero _ hmem)
    · have hsome : (disputeKeypair pubkey).sign message = m.2.2 := by
        simp only [disputeKeypair, hfind, Option.map_some, Option.getD_some]
      have hfound : m.1 = pubkey ∧ m.2.1 = message := by simpa using List.find?_some hfind
      obtain ⟨-, hmessage⟩ := hfound
      exact (honce m (List.mem_of_find?_eq_some hfind) _ hmem hsome.symm).trans hmessage
  · intro pubkey' sig message message' h h'
    exact honce _ (mem_disputing h) _ (mem_disputing h') rfl

/-- The payer challenges in slot 5 with the root that the channel opened with. -/
def challengeCall : DisputeCall := .triggerChallenge openRoot 1

/-- The manager's call, with the signature that it asks for. -/
def challengeRequest : Request :=
  challengeCall.request (appOf (disputeKeypair payer)) 5
    ((disputeKeypair payer).sign (stateMessage Sha256.sha256 channelId 1 openRoot).val)

/-- The state that both sign next. -/
def nextState : SignedState :=
  ⟨channelId, 2, openRoot,
    signState disputeEnv channelId 2 openRoot (disputeKeypair payer),
    signState disputeEnv channelId 2 openRoot (disputeKeypair seller)⟩

end Sample

/-- The manager takes the payer's challenge, and the handler is refused its own. -/
theorem challenge_unusable : ∃ s₀ s e db,
    Opened Sample.disputeEnv (Sample.openArgs 10) s₀ ∧
    Returns (Sample.challengeRequest.method Sample.disputeEnv) (session s₀.channel s₀.db) () s ∧
    Ideal Sample.disputeEnv (Sample.disputeKeypair Sample.payer) ∧
    Fails (Sample.challengeCall.handler Sample.disputeEnv
      (Sample.appOf (Sample.disputeKeypair Sample.payer)) Sample.channelId) s₀.db e db ∧
    e = .error (.stateChannel .invalidSignature) := by
  have htest : (Sample.opened 10 none).toOption.any fun s₀ =>
      ((Sample.challengeRequest.method Sample.disputeEnv).passes (session s₀.channel s₀.db)
        fun _ => true) &&
      (Sample.challengeCall.handler Sample.disputeEnv
        (Sample.appOf (Sample.disputeKeypair Sample.payer)) Sample.channelId).stops s₀.db
          fun e _ => decide (e = .error (.stateChannel .invalidSignature)) := by
    decide +kernel
  obtain ⟨s₀, hs₀, htest⟩ := exists_of_any htest
  obtain ⟨hpasses, hstops⟩ := Bool.and_eq_true_iff.mp htest
  obtain ⟨_, s, hs, -⟩ := exists_of_passes hpasses
  obtain ⟨e, db, hfails, he⟩ := exists_of_stops hstops
  exact ⟨s₀, s, e, db, ⟨_, _, Sample.openChannel_of_opened hs₀⟩, hs, Sample.ideal_disputeEnv _, hfails,
    of_decide_eq_true he⟩

/-- The challenge made with the manager is answered with the next state through the handler. -/
theorem disputes_usable_next : ∃ s₀ s r db c,
    Opened Sample.disputeEnv (Sample.openArgs 10) s₀ ∧
    Returns (Sample.challengeRequest.method Sample.disputeEnv) s₀ () s ∧
    Returns (submitCounter Sample.disputeEnv (Sample.appOf (Sample.disputeKeypair Sample.seller))
      Sample.channelId Sample.nextState.sigA Sample.nextState.sigB) s.db r db ∧
    db.load Sample.disputeEnv.sha Sample.channelId = .ok c ∧
    c.metadata.currentRoot = Sample.nextState.root := by
  have htest : (Sample.opened 10 none).toOption.any fun s₀ =>
      (Sample.challengeRequest.method Sample.disputeEnv).passes s₀ fun s =>
        (s.db.load Sample.disputeEnv.sha Sample.channelId).toOption.any fun c =>
          decide (c.metadata.channelId = Sample.channelId ∧ c.metadata.status = .challenged ∧
            c.metadata.userPubkey = Sample.payer ∧ c.metadata.providerPubkey = Sample.seller ∧
            c.metadata.sequence = 1 ∧ c.metadata.currentRoot = Sample.openRoot) := by
    decide +kernel
  have hsigned : SignedBy Sample.disputeEnv Sample.nextState Sample.payer Sample.seller :=
    ⟨by decide +kernel, by decide +kernel⟩
  obtain ⟨s₀, hs₀, htest⟩ := exists_of_any htest
  obtain ⟨_, s, hs, htest⟩ := exists_of_passes htest
  obtain ⟨c, hload, htest⟩ := exists_of_any htest
  obtain ⟨hid, hstatus, huser, hprovider, hsequence, hroot⟩ := of_decide_eq_true htest
  have husable := (disputes_usable_iff Sample.disputeEnv
    (Sample.appOf (Sample.disputeKeypair Sample.seller)) Sample.channelId s.db
    {(Statement.state Sample.channelId 2 Sample.openRoot).preimage} (Sample.ideal_disputeEnv _)
    (Set.injOn_singleton _ _)).2 c Sample.nextState hload hid hstatus rfl
    (by rw [huser, hprovider]; exact hsigned) (by rw [hsequence]; decide) rfl
    (by rw [hsequence, hroot]; rfl)
  obtain ⟨r, db, hr, c', hload', hroot'⟩ := husable.mpr
    ⟨by rw [hsequence]; rfl, by rw [hroot]; rfl⟩
  exact ⟨s₀, s, r, db, c', ⟨_, _, Sample.openChannel_of_opened hs₀⟩, hs, hr, hload', hroot'⟩

end Service
