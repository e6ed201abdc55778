/-
Which signatures in the channel program can be used for something else.

All its instructions but the first are signed on a channel id, a number of eight
bytes and a root.  A settlement and a counter-state put a sequence in the place
of the number, a challenge, a claim and a finalization the current slot.  Nothing
in the bytes says which of the two it is.

* `message_of_state`, `message_of_dispute` — what a call is signed on;
* `messages_apart_iff` — when a signature of a dispute is one on a state, here and
  in the manager;
* `challenge_signs_state` — a run where a challenge is one half of a counter-state,
  and a challenge of the manager, which is signed as the state that it submits.
-/
import IgnitePay.Program.Challenge
import IgnitePay.StateChannel.Messages

namespace Program

open Bytes Machine Solana

namespace Call

/-- The channel, sequence and root that a call takes with both parties' signatures. -/
def state (c : ChannelAccount) : Call → Option (Bytes 32 × UInt64 × Bytes 32)
  | cooperativeSettle _ sequence root _ => some (c.channelId, sequence, root)
  | submitCounterState _ sequence root => some (c.channelId, sequence, root)
  | _ => none

/-- The call challenges the channel, claims a leaf or finalizes. -/
def IsDispute : Call → Prop
  | triggerChallenge _ _ _ => True
  | payout _ _ => True
  | finalizeSettlement _ => True
  | _ => False

/-- The channel, slot and root that such a call is signed on. -/
def numbered (c : ChannelAccount) (slot : UInt64) : Call → Option (Bytes 32 × UInt64 × Bytes 32)
  | triggerChallenge _ submittedRoot _ => some (c.channelId, slot, submittedRoot)
  | payout _ _ => some (c.channelId, slot, c.currentRoot)
  | finalizeSettlement _ => some (c.channelId, slot, c.currentRoot)
  | _ => none

end Call

section

variable {call : Call} {c : ChannelAccount} {slot : UInt64} {channelId root : Bytes 32}
  {number : UInt64}

theorem message_of_state (h : call.state c = some (channelId, number, root)) {r : Check}
    (hr : r ∈ call.checks c slot) : r.message = channelMessage channelId number root := by
  have hboth : ∀ {data : List UInt8} {msg : List UInt8},
      r ∈ [Check.mk data c.userPubkey msg, Check.mk data c.providerPubkey msg] → r.message = msg := by
    intro data msg hmem
    rcases List.mem_cons.mp hmem with rfl | hmem
    · rfl
    · rw [List.mem_singleton.mp hmem]
  cases call with
  | cooperativeSettle =>
    obtain ⟨rfl, rfl, rfl⟩ : c.channelId = channelId ∧ _ = number ∧ _ = root := by
      simpa [Call.state] using h
    exact hboth hr
  | submitCounterState =>
    obtain ⟨rfl, rfl, rfl⟩ : c.channelId = channelId ∧ _ = number ∧ _ = root := by
      simpa [Call.state] using h
    exact hboth hr
  | _ => exact absurd h (by simp [Call.state])

theorem message_of_dispute (h : call.IsDispute) {r : Check} (hr : r ∈ call.checks c slot) :
    r.message = channelMessage channelId number root ↔
      call.numbered c slot = some (channelId, number, root) := by
  cases call with
  | triggerChallenge =>
    rw [List.mem_singleton.mp hr, Call.numbered, Option.some_inj]
    exact channelMessage_eq_iff
  | payout =>
    rw [List.mem_singleton.mp hr, Call.numbered, Option.some_inj]
    exact channelMessage_eq_iff
  | finalizeSettlement =>
    rw [List.mem_singleton.mp hr, Call.numbered, Option.some_inj]
    exact channelMessage_eq_iff
  | _ => exact absurd h id

theorem exists_check_of_state (h : call.state c = some (channelId, number, root)) :
    ∃ r, r ∈ call.checks c slot := by
  cases call with
  | cooperativeSettle => exact ⟨_, List.mem_cons_self⟩
  | submitCounterState => exact ⟨_, List.mem_cons_self⟩
  | _ => exact absurd h (by simp [Call.state])

theorem exists_check_of_dispute (h : call.IsDispute) : ∃ r, r ∈ call.checks c slot := by
  cases call with
  | triggerChallenge => exact ⟨_, List.mem_cons_self⟩
  | payout => exact ⟨_, List.mem_cons_self⟩
  | finalizeSettlement => exact ⟨_, List.mem_cons_self⟩
  | _ => exact absurd h id

end

/-- When a signature for a dispute is one on a state. -/
structure MessagesApart : Prop where
  /-- The messages of a state and of a dispute differ, unless the slot is the
  sequence and the roots are the same. -/
  differ : ∀ (c c' : ChannelAccount) (slot slot' : UInt64) (call call' : Call)
    (p : Bytes 32 × UInt64 × Bytes 32), call.state c = some p → call'.IsDispute →
    ((∀ r ∈ call.checks c slot, ∀ r' ∈ call'.checks c' slot', r'.message ≠ r.message) ↔
      call'.numbered c' slot' ≠ some p)
  /-- A key that signs for disputes alone has signed the slots and roots of these
  as states, and no others. -/
  signed : ∀ (made : Set (ChannelAccount × UInt64 × Call)) (publicKey : Pubkey)
    (channelId root : Bytes 32) (number : UInt64), (∀ x ∈ made, x.2.2.IsDispute) →
    ((∃ x ∈ made, ∃ r ∈ x.2.2.checks x.1 x.2.1, r.publicKey = publicKey ∧
        r.message = channelMessage channelId number root) ↔
      ∃ x ∈ made, x.2.2.numbered x.1 x.2.1 = some (channelId, number, root) ∧
        ∃ r ∈ x.2.2.checks x.1 x.2.1, r.publicKey = publicKey)

theorem messagesApart : MessagesApart := by
  constructor
  · rintro c c' slot slot' call call' ⟨channelId, number, root⟩ hstate hdispute
    constructor
    · intro hdiffer hnumbered
      obtain ⟨r, hr⟩ := @exists_check_of_state call c slot _ _ _ hstate
      obtain ⟨r', hr'⟩ := @exists_check_of_dispute call' c' slot' hdispute
      refine hdiffer r hr r' hr' ?_
      rw [(message_of_dispute hdispute hr').mpr hnumbered, message_of_state hstate hr]
    · intro hnumbered r hr r' hr' hsame
      rw [message_of_state hstate hr] at hsame
      exact hnumbered ((message_of_dispute hdispute hr').mp hsame)
  · intro made publicKey channelId root number hdisputes
    constructor
    · rintro ⟨x, hx, r, hr, hkey, hsame⟩
      exact ⟨x, hx, (message_of_dispute (hdisputes x hx) hr).mp hsame, r, hr, hkey⟩
    · rintro ⟨x, hx, hnumbered, r, hr, hkey⟩
      exact ⟨x, hx, r, hr, hkey, (message_of_dispute (hdisputes x hx) hr).mpr hnumbered⟩

/-- On both sides, a dispute signs a state exactly when the number and the root
that it is signed on are that state's. -/
theorem messages_apart_iff (env : StateChannel.Env) (known : Set (List UInt8))
    (hfree : Sha256.CollisionFree env.sha known) :
    MessagesApart ∧ StateChannel.MessagesApart env known :=
  ⟨messagesApart, StateChannel.messagesApart env hfree⟩

namespace Reused

open Stolen Alone

def message : List UInt8 := channelMessage channelId 10 otherRoot

/-- The user challenges in slot 10 .. -/
def challenge : Call :=
  .triggerChallenge ⟨.channel channelId, user, sysvarBytes [(user, message)]⟩ otherRoot 1

/-- .. and with the provider's signature this is a state of sequence 10. -/
def counter : Call :=
  .submitCounterState ⟨.channel channelId, sysvarBytes [(user, message), (provider, message)]⟩ 10
    otherRoot

/-- Both calls go through on the channel that the user opens, in slot 10. -/
theorem reached : ∃ w₁ w₂ w₃ c₁ c₂,
    exec Sha256.sha256 (.openChannel openContext openArgs) start = .ok w₁ ∧
    exec Sha256.sha256 challenge w₁ = .ok w₂ ∧ exec Sha256.sha256 counter w₂ = .ok w₃ ∧
    w₁.channelAt (.channel channelId) = some c₁ ∧ w₂.channelAt (.channel channelId) = some c₂ ∧
    w₁.slot = 10 ∧ c₁.channelId = channelId ∧ c₂.channelId = channelId ∧ c₂.userPubkey = user := by
  have htest : (exec Sha256.sha256 (.openChannel openContext openArgs) start).toOption.any fun w₁ =>
      (exec Sha256.sha256 challenge w₁).toOption.any fun w₂ =>
        (exec Sha256.sha256 counter w₂).isOk ∧ w₁.slot = 10 ∧
        (w₁.channelAt (.channel channelId)).map ChannelAccount.channelId = some channelId ∧
        (w₂.channelAt (.channel channelId)).map (fun c => (c.channelId, c.userPubkey))
          = some (channelId, user) := by
    decide +kernel
  obtain ⟨w₁, h₁, htest⟩ := exists_of_any htest
  obtain ⟨w₂, h₂, htest⟩ := exists_of_any htest
  obtain ⟨h₃, hslot, hc₁, hc₂⟩ := of_decide_eq_true htest
  obtain ⟨w₃, h₃⟩ := exists_of_isOk h₃
  obtain ⟨c₁, hc₁, hid₁⟩ := Option.map_eq_some_iff.mp hc₁
  obtain ⟨c₂, hc₂, hfields⟩ := Option.map_eq_some_iff.mp hc₂
  obtain ⟨hid₂, huser⟩ := Prod.mk.inj hfields
  exact ⟨w₁, w₂, w₃, c₁, c₂, h₁, h₂, h₃, hc₁, hc₂, hslot, hid₁, hid₂, huser⟩

/-- A settlement on sequence 10 and the root that the channel was opened with. -/
def settle : Call := .cooperativeSettle ⟨.channel channelId, []⟩ 10 root 50

/-- The bytes that the manager's users hash for a state and for a challenge. -/
def hashed : List (List UInt8) :=
  [(StateChannel.Statement.state StateChannel.Sample.channelId 3
      (StateChannel.Sample.rootOf [.standard StateChannel.Sample.payer 10])).preimage,
    (StateChannel.Statement.state StateChannel.Sample.channelId 2
      (StateChannel.Sample.rootOf [StateChannel.Sample.htlcLeaf])).preimage]

theorem collisionFree : Sha256.CollisionFree Sha256.sha256 {x | x ∈ hashed} := by
  have hnodup : (hashed.map Sha256.sha256).Nodup := by decide +kernel
  intro x hx y hy hxy
  exact List.inj_on_of_nodup_map hnodup hx hy hxy

/-- The manager's new channel has the id that its parties sign with. -/
theorem opened : ∃ s, StateChannel.Sample.opened 10 none = .ok s ∧
    s.channel.metadata.channelId = StateChannel.Sample.channelId := by
  have htest : (StateChannel.Sample.opened 10 none).toOption.any fun s =>
      decide (s.channel.metadata.channelId = StateChannel.Sample.channelId) := by
    decide
  obtain ⟨s, hs, hid⟩ := exists_of_any htest
  exact ⟨s, hs, of_decide_eq_true hid⟩

end Reused

/-- The challenge does not sign the settlement, and the manager's challenge does not
sign its counter-state. -/
theorem messages_apart_settle :
    (∀ r ∈ Reused.settle.checks (channelOf Stolen.channelId Stolen.user) 10,
      ∀ r' ∈ Reused.challenge.checks (channelOf Stolen.channelId Stolen.user) 10,
        r'.message ≠ r.message) ∧
    ∃ s, StateChannel.Sample.opened 10 none = .ok s ∧
      ∀ k ∈ (StateChannel.Sample.counter none).checks StateChannel.Sample.env s.channel,
        ∀ k' ∈ StateChannel.Sample.challenge.checks StateChannel.Sample.env s.channel,
          k'.statement.message Sha256.sha256 ≠ k.statement.message Sha256.sha256 := by
  obtain ⟨hprogram, hmanager⟩ :=
    messages_apart_iff StateChannel.Sample.env {x | x ∈ Reused.hashed} Reused.collisionFree
  constructor
  · refine (hprogram.differ _ _ 10 10 Reused.settle Reused.challenge _ rfl trivial).mpr ?_
    decide
  · obtain ⟨s, hs, hid⟩ := Reused.opened
    refine ⟨s, hs, (hmanager.differ s.channel s.channel (StateChannel.Sample.counter none)
      StateChannel.Sample.challenge _ rfl trivial ?_).mpr ?_⟩
    · intro k hk
      rcases List.mem_append.mp hk with hk | hk
      · rw [StateChannel.statement_of_mem_checks hk]
        exact List.mem_cons_self
      · rw [List.mem_singleton.mp hk, hid]
        exact List.mem_cons_of_mem _ List.mem_cons_self
    · intro hnumbered
      have hsequence : some (2 : UInt64) = some 3 := congrArg
        (Option.map fun p : Bytes 32 × UInt64 × Bytes 32 => p.2.1) hnumbered
      exact absurd hsequence (by decide)

/-- A user who signs for a challenge alone has signed the counter-state that answers
it; and the payer's signature on a challenge of the manager's channel is its
signature on the state that the challenge submits. -/
theorem challenge_signs_state : (∃ w₁ w₂ w₃ c₁ c₂,
    exec Sha256.sha256 (.openChannel Alone.openContext Stolen.openArgs) Stolen.start = .ok w₁ ∧
    exec Sha256.sha256 Reused.challenge w₁ = .ok w₂ ∧
    exec Sha256.sha256 Reused.counter w₂ = .ok w₃ ∧
    w₁.channelAt (.channel Stolen.channelId) = some c₁ ∧
    w₂.channelAt (.channel Stolen.channelId) = some c₂ ∧
    ∃ r ∈ Reused.challenge.checks c₁ w₁.slot, ∃ r' ∈ Reused.counter.checks c₂ w₂.slot,
      r'.publicKey = r.publicKey ∧ r'.message = r.message) ∧
    ∃ s, StateChannel.Sample.opened 10 none = .ok s ∧
      ∃ k ∈ StateChannel.Sample.challenge.checks StateChannel.Sample.env s.channel,
        k ∈ (StateChannel.Sample.signedState 2 (StateChannel.Sample.rootOf
          [StateChannel.Sample.htlcLeaf])).checks StateChannel.Sample.payer
            StateChannel.Sample.seller := by
  constructor
  · obtain ⟨w₁, w₂, w₃, c₁, c₂, h₁, h₂, h₃, hc₁, hc₂, hslot, hid₁, hid₂, huser⟩ := Reused.reached
    refine ⟨w₁, w₂, w₃, c₁, c₂, h₁, h₂, h₃, hc₁, hc₂, _, List.mem_cons_self, _,
      List.mem_cons_self, huser, ?_⟩
    rw [hid₁, hid₂, hslot]
  · obtain ⟨s, hs, hid⟩ := Reused.opened
    refine ⟨s, hs, ?_⟩
    rw [StateChannel.Sample.challenge, StateChannel.Request.checks, hid,
      StateChannel.SignedState.checks, StateChannel.Sample.signedState]
    refine ⟨_, List.mem_cons_self, ?_⟩
    dsimp only
    exact List.mem_cons_self

end Program
