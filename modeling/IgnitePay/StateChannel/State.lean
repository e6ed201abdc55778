/-
The off-chain channel: its records (`types.rs`), its errors (`error.rs`), its
signed messages (`signing.rs`) and what a method of the manager works on.

The manager changes a `ChannelState` in memory and writes it to a database in
three records, under keys made of the channel's id.  The records are kept
decoded, in one table for each kind of key; the calls to the database are taken
to succeed.  SHA-256, the strict verification of Ed25519 and the overflow checks
of the build come from outside (`Env`).
-/
import IgnitePay.Lib.Machine
import IgnitePay.Lib.Store
import IgnitePay.StateChannel.MerkleTree

namespace StateChannel

open Bytes Machine Solana

/-! ### Errors -/

inductive StateChannelError
  | invalidSequence (expected actual : UInt64)
  | prevHashMismatch
  | invalidSignature
  | insufficientBalance (required available : UInt64)
  | leafIndexOutOfBounds (index max : ℕ)
  | proofVerificationFailed
  | channelNotFound (channelId : String)
  | htlcExpired (expiry current : UInt64)
  | htlcNotExpired (expiry current : UInt64)
  | hashLockMismatch
  | invalidOwner
  | amountConservation (expected actual : UInt64)
  | emptyLeaf
  | leafSlotOccupied
  | noAvailableSlots
  | other (text : String)
deriving DecidableEq, Repr

/-- How a method fails: with an error it returns, or by a panic. -/
inductive Failure
  | error (e : StateChannelError)
  | panic
deriving DecidableEq, Repr

/-- `StateChannelError::Other(anyhow!(text))`. -/
def Failure.other (text : String) : Failure := .error (.other text)

/-! ### Records -/

inductive ChannelStatus
  | opened
  | challenged
  | settling
  | closed
deriving DecidableEq, Repr

/-- `{:?}` of a status. -/
def ChannelStatus.debug : ChannelStatus → String
  | .opened => "Open"
  | .challenged => "Challenged"
  | .settling => "Settling"
  | .closed => "Closed"

instance : ToString ChannelStatus := ⟨ChannelStatus.debug⟩

/-- A root that both parties agreed on. -/
structure SignedState where
  channelId : Bytes 32
  sequence : UInt64
  root : Bytes 32
  sigA : Bytes 64
  sigB : Bytes 64
deriving DecidableEq

structure ChannelMetadata where
  channelId : Bytes 32
  userPubkey : Pubkey
  providerPubkey : Pubkey
  tokenMint : Pubkey
  treeDepth : UInt32
  status : ChannelStatus
  sequence : UInt64
  currentRoot : Bytes 32
  totalDeposited : UInt64
  openSlot : UInt64
  challengeSlot : Option UInt64
  vaultA : Pubkey
  vaultB : Pubkey
  depositA : UInt64
  depositB : UInt64
  challengeDuration : UInt64
  minChallengeDelay : UInt64
  autoCloseSlot : Option UInt64
  totalClaimed : UInt64
  settleDeadline : Option UInt64
  leafCount : UInt32
  claimedLeaves : Finset UInt32
deriving DecidableEq

/-- `pubkey` is one of the two parties. -/
def ChannelMetadata.isParticipant (m : ChannelMetadata) (pubkey : Pubkey) : Prop :=
  pubkey = m.userPubkey ∨ pubkey = m.providerPubkey

instance (m : ChannelMetadata) (pubkey : Pubkey) : Decidable (m.isParticipant pubkey) :=
  inferInstanceAs (Decidable (_ ∨ _))

structure ChannelState where
  metadata : ChannelMetadata
  tree : MerkleTree
  /-- Pending co-signature of the provider on the current root. -/
  providerCosign : Option (Bytes 64)
deriving DecidableEq

/-- `leaves.iter().filter(|l| !l.is_empty()).count() as u32`. -/
def leafCount (tree : MerkleTree) : UInt32 :=
  UInt32.ofNat (tree.leaves.countP fun l => l.amount ≠ 0)

/-! ### The database -/

/-- The records under `channel:{id}:meta`, `:leaves` and `:cosign`. -/
structure Db where
  metas : Store.Map (Bytes 32) ChannelMetadata
  leaves : Store.Map (Bytes 32) (List UTXOLeaf)
  cosigns : Store.Map (Bytes 32) (Option (Bytes 64))

/-- The three inserts of `persist_state`. -/
def Db.persist (db : Db) (c : ChannelState) : Db where
  metas := db.metas.insert c.metadata.channelId c.metadata
  leaves := db.leaves.insert c.metadata.channelId c.tree.leaves
  cosigns := db.cosigns.insert c.metadata.channelId c.providerCosign

/-! ### Methods of the manager -/

/-- What the crate takes from outside. -/
structure Env where
  sha : List UInt8 → Bytes 32
  /-- `verify_strict`; false where the key or the signature does not parse. -/
  verifyStrict : Pubkey → List UInt8 → Bytes 64 → Bool
  overflowChecks : Bool

/-- What a method can change: the channel in memory, and the database. -/
structure Local where
  channel : ChannelState
  db : Db

/-- A method of `ChannelManager` on a channel. -/
abbrev Op := Method Local Failure

/-- The channel as it is. -/
def channel : Op ChannelState := do return (← get).channel

/-- Change the channel in memory. -/
def update (f : ChannelState → ChannelState) : Op Unit :=
  modify fun l => { l with channel := f l.channel }

/-- Change its metadata in memory. -/
def updateMetadata (f : ChannelMetadata → ChannelMetadata) : Op Unit :=
  update fun c => { c with metadata := f c.metadata }

/-- `persist_state`. -/
def persistState : Op Unit := modify fun l => { l with db := l.db.persist l.channel }

/-- `a + b` on slots. -/
def addSlots (env : Env) (a b : UInt64) : Op UInt64 :=
  orThrow (addU64 env.overflowChecks a b) .panic

section

variable {α : Type} {l l' : Local} {f : Unit → Op α} {a : α}

theorem returns_channel_bind {f : ChannelState → Op α} :
    Returns (channel >>= f) l a l' ↔ Returns (f l.channel) l a l' := by
  simp only [channel, bind_assoc, pure_bind, returns_get_bind]

theorem returns_update_bind {g : ChannelState → ChannelState} :
    Returns (update g >>= f) l a l' ↔ Returns (f ()) ⟨g l.channel, l.db⟩ a l' :=
  returns_modify_bind

theorem returns_updateMetadata_bind {g : ChannelMetadata → ChannelMetadata} :
    Returns (updateMetadata g >>= f) l a l' ↔
      Returns (f ()) ⟨{ l.channel with metadata := g l.channel.metadata }, l.db⟩ a l' :=
  returns_modify_bind

theorem returns_addSlots_bind {env : Env} {f : UInt64 → Op α} {x y : UInt64} :
    Returns (addSlots env x y >>= f) l a l' ↔
      ∃ z, addU64 env.overflowChecks x y = some z ∧ Returns (f z) l a l' :=
  returns_orThrow_bind

theorem returns_persistState_bind :
    Returns (persistState >>= f) l a l' ↔
      Returns (f ()) ⟨l.channel, l.db.persist l.channel⟩ a l' :=
  returns_modify_bind

theorem returns_persistState {u : Unit} :
    Returns persistState l u l' ↔ ⟨l.channel, l.db.persist l.channel⟩ = l' :=
  returns_modify

theorem fails_channel_bind {f : ChannelState → Op α} {e : Failure} :
    Fails (channel >>= f) l e l' ↔ Fails (f l.channel) l e l' := Iff.rfl

theorem fails_update_bind {g : ChannelState → ChannelState} {e : Failure} :
    Fails (update g >>= f) l e l' ↔ Fails (f ()) ⟨g l.channel, l.db⟩ e l' := Iff.rfl

theorem fails_updateMetadata_bind {g : ChannelMetadata → ChannelMetadata} {e : Failure} :
    Fails (updateMetadata g >>= f) l e l' ↔
      Fails (f ()) ⟨{ l.channel with metadata := g l.channel.metadata }, l.db⟩ e l' := Iff.rfl

theorem commutes_channel {g : Local → Local} {f : ChannelState → Op α}
    (hread : ∀ l, f (g l).channel = f l.channel) (hf : ∀ c, Commutes g (f c)) :
    Commutes g (channel >>= f) := by
  rw [channel, bind_assoc]
  simp only [pure_bind]
  exact .get hread fun l => hf l.channel

/-! Reading changes nothing; writing does not fail. -/

variable {bad : Failure → Prop}

theorem clean_channel {f : ChannelState → Op α} (hf : ∀ c, Clean bad (f c)) :
    Clean bad (channel >>= f) := by
  rw [channel, bind_assoc]
  refine .get fun l => ?_
  rw [pure_bind]
  exact hf l.channel

theorem total_update (g : ChannelState → ChannelState) : Total bad (update g) := total_modify _

theorem total_updateMetadata (g : ChannelMetadata → ChannelMetadata) :
    Total bad (updateMetadata g) := total_update _

theorem total_persistState : Total bad persistState := total_modify _

theorem total_addSlots {env : Env} (hbad : ¬ bad .panic) (a b : UInt64) :
    Total bad (addSlots env a b) := total_orThrow _ hbad

end

/-! ### Signed messages -/

/-- `state_message`: the hash of `channel_id || sequence || root`. -/
def stateMessage (sha : List UInt8 → Bytes 32) (channelId : Bytes 32) (sequence : UInt64)
    (root : Bytes 32) : Bytes 32 :=
  sha (channelId.val ++ (u64Le sequence ++ root.val))

/-- `claim_message`: the hash of
`"claim" || channel_id || leaf_index || amount || current_slot`. -/
def claimMessage (sha : List UInt8 → Bytes 32) (channelId : Bytes 32) (leafIndex : UInt32)
    (amount currentSlot : UInt64) : Bytes 32 :=
  sha (ofLiteral "claim" ++ (channelId.val ++ (leBytes 4 leafIndex.toNat ++
    (u64Le amount ++ u64Le currentSlot))))

namespace Env

variable (env : Env)

/-- `verify_ed25519_signature`. -/
def verifyEd25519Signature (message : Bytes 32) (sig : Bytes 64) (pubkey : Pubkey) : Bool :=
  env.verifyStrict pubkey message.val sig

/-- `verify_state_signature`. -/
def verifyStateSignature (channelId : Bytes 32) (sequence : UInt64) (root : Bytes 32)
    (sig : Bytes 64) (pubkey : Pubkey) : Bool :=
  env.verifyEd25519Signature (stateMessage env.sha channelId sequence root) sig pubkey

end Env

end StateChannel
