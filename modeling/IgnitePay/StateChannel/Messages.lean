/-
What the signatures of a channel are on.

Every signature that the manager asks for is on the hash of one of three byte
strings: of a state, of a claim or of an update of a leaf (`Statement`).  They
have three lengths, so that none of them is one of another kind.  But a challenge
is signed as the state that it submits, and a finalization as if the current slot
were a sequence.

* `Statement.preimage_inj` — the bytes say what is signed;
* `checks_of_returns` — the signatures that a call has passed that goes through;
* `messagesApart` — which calls of a dispute sign the message of a state.
-/
import IgnitePay.StateChannel.Effect

namespace StateChannel

open Bytes Machine Solana

/-! ### Statements -/

/-- What is signed. -/
inductive Statement
  | state (channelId : Bytes 32) (number : UInt64) (root : Bytes 32)
  | claim (channelId : Bytes 32) (leafIndex : UInt32) (amount currentSlot : UInt64)
  | leafUpdate (channelId : Bytes 32) (sequence : UInt64) (leafIndex : UInt32)
      (prevLeafHash newLeafHash : Bytes 32)

namespace Statement

/-- The bytes that are hashed for it. -/
def preimage : Statement → List UInt8
  | state channelId number root => channelId.val ++ (u64Le number ++ root.val)
  | claim channelId leafIndex amount currentSlot =>
    ofLiteral "claim" ++ (channelId.val ++ (leBytes 4 leafIndex.toNat ++
      (u64Le amount ++ u64Le currentSlot)))
  | leafUpdate channelId sequence leafIndex prevLeafHash newLeafHash =>
    channelId.val ++ (u64Le sequence ++ (leBytes 4 leafIndex.toNat ++
      (prevLeafHash.val ++ newLeafHash.val)))

/-- The message, by the function that makes it. -/
def message (sha : List UInt8 → Bytes 32) : Statement → Bytes 32
  | state channelId number root => stateMessage sha channelId number root
  | claim channelId leafIndex amount currentSlot =>
    claimMessage sha channelId leafIndex amount currentSlot
  | leafUpdate channelId sequence leafIndex prevLeafHash newLeafHash =>
    leafUpdateMessage sha channelId sequence leafIndex prevLeafHash newLeafHash

theorem message_eq (sha : List UInt8 → Bytes 32) (x : Statement) : x.message sha = sha x.preimage := by
  cases x <;> rfl

/-- Their number. -/
def width : Statement → ℕ
  | state _ _ _ => 72
  | claim _ _ _ _ => 57
  | leafUpdate _ _ _ _ _ => 108

theorem length_preimage (x : Statement) : x.preimage.length = x.width := by
  cases x with
  | state => simp [preimage, width]
  | claim =>
    have hprefix : (ofLiteral "claim").length = 5 := by decide
    simp [preimage, width, hprefix]
  | leafUpdate => simp [preimage, width]

theorem leBytes_uint32_inj {i j : UInt32} (h : leBytes 4 i.toNat = leBytes 4 j.toNat) : i = j :=
  UInt32.toNat_inj.mp (leBytes_inj i.toNat_lt j.toNat_lt h)

/-- The bytes say what is signed. -/
theorem preimage_inj {x y : Statement} (h : x.preimage = y.preimage) : x = y := by
  have hlength := congrArg List.length h
  rw [length_preimage, length_preimage] at hlength
  -- Of one kind they are, and then they agree field by field.
  cases x with
  | state channelId number root =>
    cases y with
    | state =>
      obtain ⟨hid, h⟩ := List.append_inj h (by simp)
      obtain ⟨hnumber, hroot⟩ := List.append_inj h (by simp)
      rw [Subtype.ext hid, u64Le_inj hnumber, Subtype.ext hroot]
    | claim => exact absurd hlength (by simp [width])
    | leafUpdate => exact absurd hlength (by simp [width])
  | claim =>
    cases y with
    | state => exact absurd hlength (by simp [width])
    | claim =>
      obtain ⟨hid, h⟩ := List.append_inj (List.append_cancel_left h) (by simp)
      obtain ⟨hindex, h⟩ := List.append_inj h (by simp)
      obtain ⟨hamount, hslot⟩ := List.append_inj h (by simp)
      rw [Subtype.ext hid, leBytes_uint32_inj hindex, u64Le_inj hamount, u64Le_inj hslot]
    | leafUpdate => exact absurd hlength (by simp [width])
  | leafUpdate =>
    cases y with
    | state => exact absurd hlength (by simp [width])
    | claim => exact absurd hlength (by simp [width])
    | leafUpdate =>
      obtain ⟨hid, h⟩ := List.append_inj h (by simp)
      obtain ⟨hsequence, h⟩ := List.append_inj h (by simp)
      obtain ⟨hindex, h⟩ := List.append_inj h (by simp)
      obtain ⟨hprev, hnew⟩ := List.append_inj h (by simp)
      rw [Subtype.ext hid, u64Le_inj hsequence, leBytes_uint32_inj hindex, Subtype.ext hprev,
        Subtype.ext hnew]

theorem message_inj {sha : List UInt8 → Bytes 32} {known : Set (List UInt8)}
    (hfree : Sha256.CollisionFree sha known) {x y : Statement} (hx : x.preimage ∈ known)
    (hy : y.preimage ∈ known) : x.message sha = y.message sha ↔ x = y := by
  constructor
  · intro h
    rw [message_eq, message_eq] at h
    exact preimage_inj (hfree hx hy h)
  · exact congrArg _

end Statement

/-! ### What a call asks for -/

/-- A signature of a key on a statement. -/
structure Check where
  statement : Statement
  signature : Bytes 64
  publicKey : Pubkey

/-- It passes. -/
def Check.Passes (env : Env) (k : Check) : Prop :=
  env.verifyEd25519Signature (k.statement.message env.sha) k.signature k.publicKey

/-- Both signatures on a state. -/
def SignedState.checks (s : SignedState) (userPubkey providerPubkey : Pubkey) : List Check :=
  [⟨.state s.channelId s.sequence s.root, s.sigA, userPubkey⟩,
    ⟨.state s.channelId s.sequence s.root, s.sigB, providerPubkey⟩]

/-- The signature on an update. -/
def LeafUpdate.check (env : Env) (signerPubkey : Pubkey) (update : LeafUpdate) : Check :=
  ⟨.leafUpdate update.channelId update.sequence update.leafIndex update.prevLeafHash
    (update.newLeaf.hash env.sha), update.signature, signerPubkey⟩

/-- The signature on a claim of an HTLC, whose amount is that of the leaf. -/
def htlcCheck (c : ChannelState) (leafIndex : UInt32) (claimerPubkey : Pubkey)
    (currentSlot : UInt64) (claimerSignature : Bytes 64) : Option Check :=
  (c.tree.getLeaf leafIndex.toNat).map fun leaf =>
    ⟨.claim c.metadata.channelId leafIndex leaf.amount currentSlot, claimerSignature, claimerPubkey⟩

/-- The signature on a claim. -/
def ClaimCall.checks (c : ChannelState) : ClaimCall → List Check
  | leaf leafIndex claimAmount claimerPubkey currentSlot claimerSignature =>
    [⟨.claim c.metadata.channelId leafIndex claimAmount currentSlot, claimerSignature,
      claimerPubkey⟩]
  | leafWithProof leafIndex claimAmount claimerPubkey currentSlot claimerSignature _ =>
    [⟨.claim c.metadata.channelId leafIndex claimAmount currentSlot, claimerSignature,
      claimerPubkey⟩]
  | htlcVerify leafIndex _ claimerPubkey currentSlot claimerSignature =>
    (htlcCheck c leafIndex claimerPubkey currentSlot claimerSignature).toList
  | htlcRefund leafIndex claimerPubkey currentSlot claimerSignature =>
    (htlcCheck c leafIndex claimerPubkey currentSlot claimerSignature).toList

namespace Request

/-- The signatures that a call on the channel asks for. -/
def checks (env : Env) (c : ChannelState) : Request → List Check
  | applyLeafUpdate update signerPubkey => [update.check env signerPubkey]
  | applyLeafUpdateBatch _ updates signerPubkey => updates.map (·.check env signerPubkey)
  | closeChannel signedState userPubkey providerPubkey _ _ =>
    signedState.checks userPubkey providerPubkey
  | submitCounterState counterState _ userPubkey providerPubkey =>
    counterState.checks userPubkey providerPubkey
  | triggerChallenge challengerPubkey _ submittedRoot submittedSequence challengerSignature =>
    [⟨.state c.metadata.channelId submittedSequence submittedRoot, challengerSignature,
      challengerPubkey⟩]
  | claim call => call.checks c
  | finalizeSettlement currentSlot callerPubkey callerSignature =>
    [⟨.state c.metadata.channelId currentSlot c.metadata.currentRoot, callerSignature,
      callerPubkey⟩]
  | _ => []

end Request

section

variable {env : Env} {s s' : Session} {r : Request} {c c' : ChannelState} {u : Unit}

theorem checks_of_signed {signed : SignedState} {userPubkey providerPubkey : Pubkey}
    (h : SignedBy env signed userPubkey providerPubkey) :
    ∀ k ∈ signed.checks userPubkey providerPubkey, k.Passes env :=
  List.forall_mem_cons.mpr ⟨h.sigA, List.forall_mem_singleton.mpr h.sigB⟩

theorem checks_of_batched {signerPubkey : Pubkey} {updates : List LeafUpdate}
    (h : Batched env signerPubkey c updates c') :
    ∀ k ∈ updates.map (·.check env signerPubkey), k.Passes env := by
  induction h with
  | nil => exact fun k hk => absurd hk (by simp)
  | cons haccepts _ _ ih => exact List.forall_mem_cons.mpr ⟨haccepts.signature, ih⟩

theorem checks_of_opensHtlc {leafIndex : UInt32} {claimerPubkey : Pubkey} {currentSlot : UInt64}
    {claimerSignature : Bytes 64} {leaf : UTXOLeaf}
    (h : OpensHtlc env c leafIndex claimerPubkey currentSlot claimerSignature leaf) :
    ∀ k ∈ (htlcCheck c leafIndex claimerPubkey currentSlot claimerSignature).toList,
      k.Passes env := by
  rw [htlcCheck, h.leaf_eq]
  exact List.forall_mem_singleton.mpr h.signature

theorem checks_of_claim {call : ClaimCall} {l l' : Local} (h : Returns (call.method env) l u l') :
    ∀ k ∈ call.checks l.channel, k.Passes env := by
  cases call with
  | leaf => exact List.forall_mem_singleton.mpr (claimLeaf_returns.mp h).1.signature
  | leafWithProof => exact List.forall_mem_singleton.mpr (claimLeafWithProof_returns.mp h).1.signature
  | htlcVerify =>
    obtain ⟨leaf, hopens, -⟩ := claimHtlcVerify_returns.mp h
    exact checks_of_opensHtlc hopens
  | htlcRefund =>
    obtain ⟨leaf, hopens, -⟩ := claimHtlcRefund_returns.mp h
    exact checks_of_opensHtlc hopens

/-- A call that goes through has passed every signature that it asks for. -/
theorem checks_of_returns (h : Returns (r.method env) s u s') :
    ∀ k ∈ r.checks env s.channel, k.Passes env := by
  have hnone : ∀ k ∈ ([] : List Check), k.Passes env := fun k hk => absurd hk (by simp)
  cases r with
  | applyLeafUpdate =>
    obtain ⟨s₁, h₁, -⟩ := applyLeafUpdate_returns.mp h
    obtain ⟨haccepts, -⟩ := applyLeafUpdateInternal_returns.mp h₁
    exact List.forall_mem_singleton.mpr haccepts.signature
  | applyLeafUpdateBatch => exact checks_of_batched (batched_of_returns (batch_returns h)).1
  | closeChannel =>
    obtain ⟨_, _, hr, -⟩ := returns_quietly.mp h
    exact checks_of_signed (closeChannel_returns.mp hr).1.signed
  | submitCounterState =>
    obtain ⟨_, _, hr, -⟩ := returns_quietly.mp h
    exact checks_of_signed (submitCounterState_returns.mp hr).1.signed
  | triggerChallenge =>
    obtain ⟨_, _, hr, -⟩ := returns_quietly.mp h
    exact List.forall_mem_singleton.mpr (triggerChallenge_returns.mp hr).1.signature
  | claim =>
    obtain ⟨_, _, hr, -⟩ := returns_quietly.mp h
    exact checks_of_claim hr
  | finalizeSettlement =>
    obtain ⟨_, _, hr, -⟩ := returns_quietly.mp h
    exact List.forall_mem_singleton.mpr (finalizeSettlement_returns.mp hr).1.signature
  | fundChannel => exact hnone
  | constructSplitTree => exact hnone
  | providerCosignState => exact hnone
  | setAutoCloseSlot => exact hnone
  | autoSettle => exact hnone
  | settleAfterTimeout => exact hnone
  | persistState => exact hnone
  | loadState => exact hnone
  | compliance => exact hnone

end

/-! ### States and disputes -/

namespace Request

/-- The state that a call takes with both parties' signatures. -/
def state : Request → Option SignedState
  | closeChannel signedState _ _ _ _ => some signedState
  | submitCounterState counterState _ _ _ => some counterState
  | _ => none

/-- The call challenges the channel, claims a leaf or finalizes. -/
def IsDispute : Request → Prop
  | triggerChallenge _ _ _ _ _ => True
  | claim _ => True
  | finalizeSettlement _ _ _ => True
  | _ => False

/-- The channel, number and root that such a call signs in the way of a state. -/
def numbered (c : ChannelState) : Request → Option (Bytes 32 × UInt64 × Bytes 32)
  | triggerChallenge _ _ submittedRoot submittedSequence _ =>
    some (c.metadata.channelId, submittedSequence, submittedRoot)
  | finalizeSettlement currentSlot _ _ =>
    some (c.metadata.channelId, currentSlot, c.metadata.currentRoot)
  | _ => none

end Request

section

variable {env : Env} {r : Request} {c : ChannelState} {channelId root : Bytes 32} {number : UInt64}

theorem checks_of_state {signed : SignedState} (h : r.state = some signed) :
    ∃ userPubkey providerPubkey, r.checks env c = signed.checks userPubkey providerPubkey := by
  cases r with
  | closeChannel _ userPubkey providerPubkey _ _ =>
    obtain rfl := Option.some_inj.mp h
    exact ⟨userPubkey, providerPubkey, rfl⟩
  | submitCounterState _ _ userPubkey providerPubkey =>
    obtain rfl := Option.some_inj.mp h
    exact ⟨userPubkey, providerPubkey, rfl⟩
  | _ => exact absurd h (by simp [Request.state])

theorem statement_of_mem_checks {signed : SignedState} {userPubkey providerPubkey : Pubkey} {k : Check}
    (h : k ∈ signed.checks userPubkey providerPubkey) :
    k.statement = .state signed.channelId signed.sequence signed.root := by
  rcases List.mem_cons.mp h with rfl | h
  · rfl
  · rw [List.mem_singleton.mp h]

theorem statement_of_mem_claim {call : ClaimCall} {k : Check} (h : k ∈ call.checks c) :
    ∃ leafIndex amount currentSlot,
      k.statement = .claim c.metadata.channelId leafIndex amount currentSlot := by
  have hhtlc : ∀ {leafIndex : UInt32} {claimerPubkey : Pubkey} {currentSlot : UInt64}
      {signature : Bytes 64}, k ∈ (htlcCheck c leafIndex claimerPubkey currentSlot signature).toList →
      ∃ leafIndex amount currentSlot,
        k.statement = .claim c.metadata.channelId leafIndex amount currentSlot := by
    intro leafIndex claimerPubkey currentSlot signature hk
    obtain ⟨leaf, -, rfl⟩ := Option.map_eq_some_iff.mp (Option.mem_toList.mp hk)
    exact ⟨_, _, _, rfl⟩
  cases call with
  | leaf => exact ⟨_, _, _, congrArg Check.statement (List.mem_singleton.mp h)⟩
  | leafWithProof => exact ⟨_, _, _, congrArg Check.statement (List.mem_singleton.mp h)⟩
  | htlcVerify => exact hhtlc h
  | htlcRefund => exact hhtlc h

/-- What a call in a dispute signs is a state only for a challenge and a finalization. -/
theorem statement_of_dispute (h : r.IsDispute) {k : Check} (hk : k ∈ r.checks env c) :
    k.statement = .state channelId number root ↔
      r.numbered c = some (channelId, number, root) := by
  cases r with
  | triggerChallenge => simp [List.mem_singleton.mp hk, Request.numbered]
  | finalizeSettlement => simp [List.mem_singleton.mp hk, Request.numbered]
  | claim call =>
    obtain ⟨_, _, _, hclaim⟩ := statement_of_mem_claim hk
    simp [hclaim, Request.numbered]
  | _ => exact absurd h id

theorem exists_check_of_numbered (h : r.numbered c = some (channelId, number, root)) :
    ∃ k, k ∈ r.checks env c := by
  cases r with
  | triggerChallenge => exact ⟨_, List.mem_singleton_self _⟩
  | finalizeSettlement => exact ⟨_, List.mem_singleton_self _⟩
  | _ => exact absurd h (by simp [Request.numbered])

end

/-- When a signature for a dispute is one on a state; `known` are the byte strings
that are hashed. -/
structure MessagesApart (env : Env) (known : Set (List UInt8)) : Prop where
  /-- The messages of a state and of a dispute differ, unless the call in the
  dispute signs just this number and root. -/
  differ : ∀ (c c' : ChannelState) (r r' : Request) (signed : SignedState), r.state = some signed →
    r'.IsDispute → (∀ k ∈ r.checks env c ++ r'.checks env c', k.statement.preimage ∈ known) →
    ((∀ k ∈ r.checks env c, ∀ k' ∈ r'.checks env c',
        k'.statement.message env.sha ≠ k.statement.message env.sha) ↔
      r'.numbered c' ≠ some (signed.channelId, signed.sequence, signed.root))
  /-- A key that signs for disputes alone has signed the states that they sign
  so, and no others. -/
  signed : ∀ (made : Set (ChannelState × Request)) (publicKey : Pubkey) (channelId root : Bytes 32)
    (number : UInt64), (∀ x ∈ made, x.2.IsDispute) →
    (∀ x ∈ made, ∀ k ∈ x.2.checks env x.1, k.statement.preimage ∈ known) →
    (Statement.state channelId number root).preimage ∈ known →
    ((∃ x ∈ made, ∃ k ∈ x.2.checks env x.1, k.publicKey = publicKey ∧
        k.statement.message env.sha = stateMessage env.sha channelId number root) ↔
      ∃ x ∈ made, x.2.numbered x.1 = some (channelId, number, root) ∧
        ∃ k ∈ x.2.checks env x.1, k.publicKey = publicKey)

theorem messagesApart (env : Env) {known : Set (List UInt8)}
    (hfree : Sha256.CollisionFree env.sha known) : MessagesApart env known := by
  constructor
  · intro c c' r r' signed hstate hdispute hknown
    obtain ⟨userPubkey, providerPubkey, hchecks⟩ := @checks_of_state env r c signed hstate
    rw [hchecks] at hknown ⊢
    constructor
    · intro hdiffer hnumbered
      obtain ⟨k', hk'⟩ := @exists_check_of_numbered env r' c' _ _ _ hnumbered
      refine hdiffer _ List.mem_cons_self k' hk' ?_
      rw [(statement_of_dispute hdispute hk').mpr hnumbered]
    · intro hnumbered k hk k' hk' hsame
      have hx := hknown k (List.mem_append_left _ hk)
      have hy := hknown k' (List.mem_append_right _ hk')
      have heq := (Statement.message_inj hfree hy hx).mp hsame
      rw [statement_of_mem_checks hk] at heq
      exact hnumbered ((statement_of_dispute hdispute hk').mp heq)
  · intro made publicKey channelId root number hdisputes hknown hstate
    constructor
    · rintro ⟨x, hx, k, hk, hkey, hsame⟩
      have heq := (Statement.message_inj hfree (hknown x hx k hk) hstate).mp hsame
      exact ⟨x, hx, (statement_of_dispute (hdisputes x hx) hk).mp heq, k, hk, hkey⟩
    · rintro ⟨x, hx, hnumbered, k, hk, hkey⟩
      have heq := (statement_of_dispute (hdisputes x hx) hk).mpr hnumbered
      refine ⟨x, hx, k, hk, hkey, ?_⟩
      rw [heq, Statement.message]

end StateChannel
