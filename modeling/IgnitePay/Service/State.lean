/-
The channel service: its state (`state.rs`), its errors (`error.rs`), and how its
handlers come to a channel.

A handler loads the channel from the database, lets the manager work on it, and drops
it: what stays is what the manager has persisted.  One handler runs at a time.  The
manager has no compliance manager attached.  Requests come decoded here; a string that
is no hexadecimal number, or no key, is refused with a `BadRequest`.

* `returns_onManager_bind` — a handler returns where the manager's method does;
* `valid_of_load` — the tree that is loaded is one;
* `exists_applied` — an update that passes its checks is applied and stored.
-/
import IgnitePay.StateChannel.Effect

namespace Service

open Bytes Machine Solana StateChannel

inductive ChannelServiceError
  | channelNotFound (channelId : String)
  | stateChannel (error : StateChannelError)
  | onChain (text : String)
  | solanaRpc (text : String)
  | storage (text : String)
  | badRequest (text : String)
  | unauthorized (text : String)
  | peerUnreachable (text : String)
  | complianceHold
  | internal (text : String)
deriving DecidableEq, Repr

/-- How a handler fails: with an error that is sent back, or by a panic. -/
inductive HandlerFailure
  | error (e : ChannelServiceError)
  | panic
deriving DecidableEq, Repr

def HandlerFailure.badRequest (text : String) : HandlerFailure := .error (.badRequest text)

/-- What the handlers use of the service's state. -/
structure AppState where
  keypair : Keypair
  /-- What the RPC node answers when it is asked for the slot. -/
  getSlot : Except String UInt64
  defaultChallengeDuration : UInt64
  programId : Pubkey
  /-- `derive_channel_pda` and `derive_escrow_pda`, for the program. -/
  channelPda : Bytes 32 → Pubkey
  escrowPda : Bytes 32 → Pubkey

/-- `state.pubkey()`. -/
def AppState.pubkey (app : AppState) : Pubkey := app.keypair.publicKey

/-- A handler works on the database. -/
abbrev Handler := Method Db HandlerFailure

/-- `load_state`, with its error passed on. -/
def loadState (env : Env) (channelId : Bytes 32) : Handler ChannelState := do
  let db ← get
  match db.load env.sha channelId with
  | .ok c => pure c
  | .error e => throw (.error (.stateChannel e))

/-- `rpc_client.get_slot()`, with its error passed on. -/
def currentSlot (app : AppState) : Handler UInt64 :=
  match app.getSlot with
  | .ok slot => pure slot
  | .error e => throw (.error (.solanaRpc e))

/-- The session of a handler that has loaded a channel. -/
def session (channel : ChannelState) (db : Db) : Session := ⟨⟨channel, db⟩, none⟩

/-- A method of the manager on the channel that was loaded, with its error passed on.  It comes back
with the session that the method left. -/
def onManager {α : Type} (channel : ChannelState) (x : SessionOp α) : Handler (α × Session) :=
  (x.within (session channel) fun s => s.db).handle fun
    | .error e => throw (.error (.stateChannel e))
    | .panic => throw .panic

section

variable {α β : Type} {env : Env} {app : AppState} {channelId : Bytes 32} {db db' : Db}
  {c : ChannelState} {b : β}

theorem returns_loadState_bind {f : ChannelState → Handler β} :
    Returns (loadState env channelId >>= f) db b db' ↔
      ∃ c, db.load env.sha channelId = .ok c ∧ Returns (f c) db b db' := by
  rw [loadState, bind_assoc, returns_get_bind]
  rcases db.load env.sha channelId with e | c
  · refine iff_of_false (fun h => ?_) (by simp)
    obtain ⟨_, _, h, -⟩ := returns_bind.mp h
    exact returns_throw h
  · simp only [Except.ok.injEq, exists_eq_left', pure_bind]

theorem returns_currentSlot_bind {f : UInt64 → Handler β} :
    Returns (currentSlot app >>= f) db b db' ↔
      ∃ slot, app.getSlot = .ok slot ∧ Returns (f slot) db b db' := by
  rw [currentSlot]
  rcases app.getSlot with e | slot
  · refine iff_of_false (fun h => ?_) (by simp)
    obtain ⟨_, _, h, -⟩ := returns_bind.mp h
    exact returns_throw h
  · simp only [Except.ok.injEq, exists_eq_left', pure_bind]

theorem returns_onManager_bind {x : SessionOp α} {f : α × Session → Handler β} :
    Returns (onManager c x >>= f) db b db' ↔
      ∃ a s, Returns x (session c db) a s ∧ Returns (f (a, s)) s.db b db' := by
  rw [returns_bind]
  constructor
  · rintro ⟨⟨a, s⟩, db₁, h, hf⟩
    rcases returns_handle.mp h with h | ⟨e, _, -, h⟩
    · obtain ⟨hx, rfl⟩ := returns_within.mp h
      exact ⟨a, s, hx, hf⟩
    · cases e with
      | error => exact absurd h returns_throw
      | panic => exact absurd h returns_throw
  · rintro ⟨a, s, h, hf⟩
    exact ⟨(a, s), s.db, returns_handle.mpr (.inl (returns_within.mpr ⟨h, rfl⟩)), hf⟩

/-- What is loaded has a tree. -/
theorem valid_of_load (h : db.load env.sha channelId = .ok c) : c.Valid env.sha := by
  obtain ⟨metadata, -, h⟩ := bind_eq_ok.mp h
  obtain ⟨leaves, -, h⟩ := bind_eq_ok.mp h
  obtain ⟨tree, htree, h⟩ := bind_eq_ok.mp h
  obtain rfl := Except.ok.inj h
  have htree := orErr_eq_ok.mp htree
  exact ⟨isTree_of_new htree, treeDepth_of_new htree⟩

/-- On a stored channel an update that passes its checks is applied, and the channel stored again. -/
theorem exists_applied {update : LeafUpdate} {signerPubkey : Pubkey} (hvalid : c.Valid env.sha)
    (haccepts : Accepts env c update signerPubkey) : ∃ tree, Writes env c update tree ∧
      let c' := (c.written update tree).counted
      c'.Valid env.sha ∧
        Returns (applyLeafUpdate env update signerPubkey) (session c db) ()
          (session c' (db.persist c')) := by
  obtain ⟨tree, hwrites⟩ := @exists_writes env (session c db) update signerPubkey hvalid.isTree haccepts
  have hvalid' := hvalid.of_writes hwrites
  refine ⟨tree, hwrites, ⟨hvalid'.isTree, hvalid'.treeDepth_eq⟩, applyLeafUpdate_returns.mpr ?_⟩
  refine ⟨⟨⟨c.written update tree, db⟩, none⟩, applyLeafUpdateInternal_returns.mpr ?_, rfl⟩
  exact ⟨haccepts, none, tree, .inl ⟨.inl rfl, rfl⟩, hwrites, rfl⟩

end

end Service
