/-
The co-signature that a channel stores.

Whoever takes the channel up later relies on the stored co-signature being the
provider's, on the sequence and the root that the channel is at.  Most calls
that move either of them drop it or put a new one in its place.  Three rely on
the keys they are given, and two forget it: a challenge and a batch.

* `cosignValid_of_effect` — which calls keep the co-signature right;
* `reachable_cosignValid` — so it is right after any run of such calls.
-/
import IgnitePay.StateChannel.Effect

namespace StateChannel

open Bytes Machine Solana

/-- A stored co-signature is the provider's, on the state that the channel is in. -/
def CosignValid (env : Env) (c : ChannelState) : Prop :=
  ∀ sig ∈ c.providerCosign, env.verifyStateSignature c.metadata.channelId c.metadata.sequence
    c.metadata.currentRoot sig c.metadata.providerPubkey

instance (env : Env) (c : ChannelState) : Decidable (CosignValid env c) :=
  inferInstanceAs (Decidable (∀ sig ∈ c.providerCosign, _))

/-- Where the call is given keys, it is given the provider's; where it forgets a
co-signature, there is none.  Calls that do not go through need neither. -/
def Request.CosignsRight (env : Env) (c : ChannelState) : Request → Prop
  | constructSplitTree leaves _ providerKeypair =>
    Splits c leaves → providerKeypair.publicKey = c.metadata.providerPubkey
  | providerCosignState providerKeypair =>
    providerKeypair.publicKey = c.metadata.providerPubkey
  | submitCounterState counterState _ userPubkey providerPubkey =>
    Counters env c counterState userPubkey providerPubkey →
      providerPubkey = c.metadata.providerPubkey
  | triggerChallenge challengerPubkey currentSlot submittedRoot submittedSequence
      challengerSignature =>
    Triggers env c challengerPubkey currentSlot submittedRoot submittedSequence
      challengerSignature → c.providerCosign = none
  | applyLeafUpdateBatch _ updates signerPubkey =>
    (∃ c', Batched env signerPubkey c updates c') → updates = [] ∨ c.providerCosign = none
  | _ => True

/-- The keypairs that sign in the call are keypairs. -/
def Request.Genuine (env : Env) : Request → Prop
  | constructSplitTree _ _ providerKeypair => providerKeypair.Genuine env
  | providerCosignState providerKeypair => providerKeypair.Genuine env
  | _ => True

section

variable {env : Env} {c c' : ChannelState} {r : Request}

theorem cosignValid_of_none (h : c.providerCosign = none) : CosignValid env c := by
  intro sig hsig
  rw [h] at hsig
  exact absurd hsig (by simp)

/-- What the provider's keypair signs is a co-signature. -/
theorem cosignValid_of_signState {providerKeypair : Keypair} (hkey : providerKeypair.Genuine env)
    (hprovider : providerKeypair.publicKey = c.metadata.providerPubkey)
    (hcosign : c.providerCosign = some (signState env c.metadata.channelId c.metadata.sequence
      c.metadata.currentRoot providerKeypair)) : CosignValid env c := by
  intro sig hsig
  obtain rfl := Option.some_inj.mp (hcosign.symm.trans hsig)
  rw [← hprovider]
  exact verify_signState hkey _ _ _

/-- And so is what comes with a counter-state. -/
theorem cosignValid_of_counters {counterState : SignedState} {userPubkey providerPubkey : Pubkey}
    (h : Counters env c counterState userPubkey providerPubkey)
    (hprovider : providerPubkey = c.metadata.providerPubkey) :
    CosignValid env (c.countered counterState) := by
  intro sig hsig
  obtain rfl := Option.some_inj.mp hsig
  have hsigned := h.signed.sigB
  rw [h.channelId_eq, hprovider] at hsigned
  exact hsigned

theorem cosignValid_of_effect (h : Effect env c r c') (hgenuine : r.Genuine env)
    (hright : r.CosignsRight env c) (hvalid : CosignValid env c) : CosignValid env c' := by
  cases h with
  | stays => exact hvalid
  | splits hsplits => exact cosignValid_of_signState hgenuine (hright hsplits) rfl
  | cosigns => exact cosignValid_of_signState hgenuine hright rfl
  | counters hcounters => exact cosignValid_of_counters hcounters (hright hcounters)
  | rebuilds hcounters =>
    have hcountered := cosignValid_of_counters hcounters (hright hcounters)
    exact hcountered
  | halfCounters hcounters => exact cosignValid_of_counters hcounters (hright hcounters)
  | triggers htriggers => exact cosignValid_of_none (hright htriggers)
  | batch hbatched =>
    rcases hright ⟨_, hbatched⟩ with rfl | hnone
    · cases hbatched
      exact hvalid
    · -- The batch leaves the co-signature alone, and there is none.
      rw [batched_eq hbatched]
      exact cosignValid_of_none hnone
  -- These drop it ..
  | funds => exact cosignValid_of_none rfl
  | updates => exact cosignValid_of_none rfl
  | closes => exact cosignValid_of_none rfl
  | autoSettles => exact cosignValid_of_none rfl
  | timesOut => exact cosignValid_of_none rfl
  -- .. and these change nothing that it is about.
  | autoCloses => exact hvalid
  | pays => exact hvalid
  | finalizes => exact hvalid

end

/-- From a new channel on, the co-signature is right, in memory and in the database. -/
theorem reachable_cosignValid (env : Env) (a : OpenArgs) (s₀ s : Session)
    (h : List (Session × Request)) (hopened : Opened env a s₀) (hrun : Run (exec env) s₀ h s)
    (hgenuine : ∀ p ∈ h, p.2.Genuine env)
    (hright : ∀ p ∈ h, p.2.CosignsRight env p.1.channel) : Holds env (CosignValid env) s := by
  refine reachable (fun c r => r.Genuine env ∧ r.CosignsRight env c) hopened ?_ ?_ hrun ?_
  · intro channelId tree _
    exact cosignValid_of_none rfl
  · intro c r c' hvalid ⟨hgenuine, hright⟩ heffect
    exact cosignValid_of_effect heffect hgenuine hright hvalid
  · intro p hp
    exact ⟨hgenuine p hp, hright p hp⟩

/-- The provider signs on the new channel. -/
theorem reachable_cosignValid_signed : ∃ s₀ h s, Opened Sample.env (Sample.openArgs 10) s₀ ∧
    Run (exec Sample.env) s₀ h s ∧ s.channel.providerCosign ≠ none ∧
    Holds Sample.env (CosignValid Sample.env) s := by
  have htest : (Sample.opened 10 none).toOption.any fun s₀ =>
      (exec Sample.env (.providerCosignState Sample.sellerKeypair) s₀).toOption.any fun s =>
        decide (s.channel.providerCosign ≠ none) := by
    decide
  obtain ⟨s₀, hs₀, htest⟩ := exists_of_any htest
  obtain ⟨s, hs, htest⟩ := exists_of_any htest
  have hopen := Sample.openChannel_of_opened hs₀
  have hprovider : s₀.channel.metadata.providerPubkey = Sample.seller := by
    obtain ⟨tree, -, hchannel, -⟩ := openChannel_ok hopen
    rw [hchannel]
    rfl
  refine ⟨s₀, _, s, ⟨_, _, hopen⟩, .step .start hs, of_decide_eq_true htest, ?_⟩
  refine reachable_cosignValid Sample.env (Sample.openArgs 10) s₀ s _ ⟨_, _, hopen⟩
    (.step .start hs) ?_ ?_
  · intro p hp
    obtain rfl := List.mem_singleton.mp hp
    exact Sample.genuine_seller
  · intro p hp
    obtain rfl := List.mem_singleton.mp hp
    exact hprovider.symm

/-- The provider signs, and a batch with a payment leaves the signature standing. -/
theorem stale_cosign : ∃ s₀ h s, Opened Sample.env (Sample.openArgs 10) s₀ ∧
    Run (exec Sample.env) s₀ h s ∧
    h.map Prod.snd = [.applyLeafUpdateBatch .plain [Sample.payment] Sample.payer,
      .providerCosignState Sample.sellerKeypair] ∧
    ¬ CosignValid Sample.env s.channel := by
  exact @Sample.exists_run 10 [.providerCosignState Sample.sellerKeypair,
    .applyLeafUpdateBatch .plain [Sample.payment] Sample.payer]
    (fun s => ¬ CosignValid Sample.env s.channel) _ (by decide +kernel)

end StateChannel
