/-
The root of a channel and the tree that the manager keeps.

The tree is always the one over its leaves.  The root is the tree's own until
somebody challenges: `trigger_challenge` and `submit_counter_state` take a root
from outside, the latter with leaves that build a tree for it or without.  Where
root and tree agree, the settlement window lets the owner of a standard leaf
claim it.

* `agrees_of_effect` — which calls keep root and tree together;
* `claimable_of_agrees` — what that is good for;
* `tree_and_root` — all of it in every reachable state.
-/
import IgnitePay.StateChannel.LifeCycle

namespace StateChannel

open Bytes Machine Solana

/-- The root is the tree's. -/
def ChannelState.Agrees (c : ChannelState) : Prop := c.metadata.currentRoot = c.tree.root

instance (c : ChannelState) : Decidable c.Agrees := inferInstanceAs (Decidable (_ = _))

/-! ### Before the first challenge -/

/-- What the status says of the slot of the challenge and of the deadline; and
without a challenge the root is the tree's. -/
structure ChannelState.Undisputed (c : ChannelState) : Prop where
  opened : c.metadata.status = .opened → c.metadata.challengeSlot = none
  challenged : c.metadata.status = .challenged → c.metadata.challengeSlot ≠ none
  settling : c.metadata.status = .settling → c.metadata.settleDeadline ≠ none
  agrees : c.metadata.challengeSlot = none → c.Agrees

section

variable {env : Env} {c c' : ChannelState} {s s' : Session} {r : Request} {signerPubkey : Pubkey}
  {updates : List LeafUpdate}

/-- A call that changes tree and root together, and neither status nor slots. -/
theorem ChannelState.Undisputed.of_agrees (h : c.Undisputed)
    (hstatus : c'.metadata.status = c.metadata.status)
    (hslot : c'.metadata.challengeSlot = c.metadata.challengeSlot)
    (hdeadline : c'.metadata.settleDeadline = c.metadata.settleDeadline)
    (hagrees : c.Agrees → c'.Agrees) : c'.Undisputed := by
  refine ⟨?_, ?_, ?_, ?_⟩
  · rw [hstatus, hslot]
    exact h.opened
  · rw [hstatus, hslot]
    exact h.challenged
  · rw [hstatus, hdeadline]
    exact h.settling
  · rw [hslot]
    exact fun hnone => hagrees (h.agrees hnone)

theorem undisputed_settled (h : c.Undisputed) (deadline : UInt64) :
    (c.settled deadline).Undisputed := by
  refine ⟨?_, ?_, ?_, h.agrees⟩
  · intro hopened
    exact absurd hopened (by simp [ChannelState.settled])
  · intro hchallenged
    exact absurd hchallenged (by simp [ChannelState.settled])
  · intro _
    exact Option.some_ne_none _

/-- While the channel is challenged nothing is promised of its root. -/
theorem ChannelState.Undisputed.of_challenged (hstatus : c'.metadata.status = .challenged)
    (hslot : c'.metadata.challengeSlot ≠ none) : c'.Undisputed := by
  refine ⟨?_, fun _ => hslot, ?_, fun hnone => absurd hnone hslot⟩
  · intro hopened
    exact absurd (hstatus.symm.trans hopened) (by simp)
  · intro hsettling
    exact absurd (hstatus.symm.trans hsettling) (by simp)

theorem agrees_of_batched (h : Batched env signerPubkey c updates c') (hagrees : c.Agrees) :
    c'.Agrees := by
  induction h with
  | nil => exact hagrees
  | cons _ _ _ ih => exact ih rfl

theorem undisputed_of_effect (h : Effect env c r c') (hc : c.Undisputed) : c'.Undisputed := by
  cases h with
  | stays => exact hc
  | funds => exact hc.of_agrees rfl rfl rfl fun _ => rfl
  | splits => exact hc.of_agrees rfl rfl rfl fun _ => rfl
  | updates => exact hc.of_agrees rfl rfl rfl fun _ => rfl
  | batch hbatched =>
    have hagrees := agrees_of_batched hbatched
    rw [batched_eq hbatched] at hagrees ⊢
    exact hc.of_agrees rfl rfl rfl hagrees
  | cosigns => exact hc.of_agrees rfl rfl rfl id
  | autoCloses => exact hc.of_agrees rfl rfl rfl id
  | pays => exact hc.of_agrees rfl rfl rfl id
  | closes => exact undisputed_settled hc _
  | autoSettles => exact undisputed_settled hc _
  | timesOut => exact undisputed_settled hc _
  | triggers => exact .of_challenged rfl (Option.some_ne_none _)
  | counters hcounters =>
    exact .of_challenged hcounters.status_eq (hc.challenged hcounters.status_eq)
  | rebuilds hcounters =>
    exact .of_challenged hcounters.status_eq (hc.challenged hcounters.status_eq)
  | halfCounters hcounters =>
    exact .of_challenged hcounters.status_eq (hc.challenged hcounters.status_eq)
  | finalizes =>
    refine ⟨?_, ?_, ?_, hc.agrees⟩
    · intro hopened
      exact absurd hopened (by simp [ChannelState.finalized])
    · intro hchallenged
      exact absurd hchallenged (by simp [ChannelState.finalized])
    · intro hsettling
      exact absurd hsettling (by simp [ChannelState.finalized])

/-! ### Roots from outside -/

/-- A root that is taken from outside is the tree's; the stored channel is only
taken up where it is the one in memory. -/
def Request.RootFits (env : Env) (s : Session) : Request → Prop
  | triggerChallenge challengerPubkey currentSlot submittedRoot submittedSequence
      challengerSignature =>
    Triggers env s.channel challengerPubkey currentSlot submittedRoot submittedSequence
      challengerSignature → submittedRoot = s.channel.tree.root
  | submitCounterState counterState none userPubkey providerPubkey =>
    Counters env s.channel counterState userPubkey providerPubkey →
      counterState.root = s.channel.tree.root
  | submitCounterState counterState (some leaves) userPubkey providerPubkey =>
    Counters env s.channel counterState userPubkey providerPubkey →
      Unbuilt env s.channel counterState leaves → counterState.root = s.channel.tree.root
  | loadState => s.db.load env.sha s.channel.metadata.channelId = .ok s.channel
  | _ => True

theorem agrees_of_effect (h : Effect env s.channel r c') (hfits : r.RootFits env s)
    (hagrees : s.channel.Agrees) : c'.Agrees := by
  cases h with
  | stays => exact hagrees
  -- Where a new tree is written, its root is written with it ..
  | funds => exact rfl
  | splits => exact rfl
  | updates => exact rfl
  | batch hbatched => exact agrees_of_batched hbatched hagrees
  | rebuilds _ _ hroot => exact hroot.symm
  -- .. and where a root is written without a tree, it is that of the old one.
  | triggers htriggers => exact hfits htriggers
  | counters hcounters => exact hfits hcounters
  | halfCounters hcounters hunbuilt => exact hfits hcounters hunbuilt
  | closes => exact hagrees
  | cosigns => exact hagrees
  | autoCloses => exact hagrees
  | autoSettles => exact hagrees
  | timesOut => exact hagrees
  | pays => exact hagrees
  | finalizes => exact hagrees

theorem agrees_of_exec (hvalid : s.channel.Valid env.sha) (hfits : r.RootFits env s)
    (hagrees : s.channel.Agrees) (h : exec env r s = .ok s') : s'.channel.Agrees := by
  rcases exec_ok hvalid h with ⟨heffect, -⟩ | ⟨rfl, hload, -⟩
  · exact agrees_of_effect heffect hfits hagrees
  · have hsame : s'.channel = s.channel := Except.ok.inj (hload.symm.trans hfits)
    rw [hsame]
    exact hagrees

/-- A counter-state that goes through with its leaves brings them together again. -/
theorem agrees_of_rebuilt {counterState : SignedState} {leaves : List UTXOLeaf}
    {userPubkey providerPubkey : Pubkey} {u : Unit}
    (h : Returns ((Request.submitCounterState counterState (some leaves) userPubkey
      providerPubkey).method env) s u s') : s'.channel.Agrees := by
  obtain ⟨_, _, hr, rfl⟩ := returns_quietly.mp h
  obtain ⟨-, tree, -, hroot, rfl⟩ := submitCounterState_returns.mp hr
  exact hroot.symm

/-! ### Claims -/

/-- In the settlement window, a participant's leaf that is not empty, not claimed
and covered by the deposits; with a signature on the claim. -/
structure Claimable (env : Env) (c : ChannelState) (leafIndex : UInt32) (leaf : UTXOLeaf)
    (currentSlot : UInt64) (signature : Bytes 64) : Prop where
  leaf_eq : c.tree.getLeaf leafIndex.toNat = some leaf
  nonempty : leaf.amount ≠ 0
  type_eq : leaf.leafType = .standard
  participant : c.metadata.isParticipant leaf.owner
  window : ∀ deadline, c.metadata.settleDeadline = some deadline → ¬ currentSlot > deadline
  unclaimed : leafIndex ∉ c.metadata.claimedLeaves
  covered : Covered c leaf.amount
  signed : env.verifyEd25519Signature
    (claimMessage env.sha c.metadata.channelId leafIndex leaf.amount currentSlot) signature leaf.owner

theorem claimable_of_agrees {l : Local} {leafIndex : UInt32} {leaf : UTXOLeaf} {currentSlot : UInt64}
    {signature : Bytes 64} (htree : IsTree env.sha l.channel.tree)
    (hsettling : l.channel.metadata.status = .settling)
    (hdeadline : l.channel.metadata.settleDeadline ≠ none) (hagrees : l.channel.Agrees)
    (h : Claimable env l.channel leafIndex leaf currentSlot signature) :
    Returns (claimLeaf env leafIndex leaf.amount leaf.owner currentSlot signature) l ()
      (l.saved (l.channel.claimed leafIndex leaf.amount)) := by
  obtain ⟨deadline, hdeadline⟩ := Option.ne_none_iff_exists'.mp hdeadline
  obtain ⟨proof, hproof⟩ := htree.exists_getProof h.leaf_eq
  have hverified : verifyProof env.sha (leaf.hash env.sha) proof l.channel.metadata.currentRoot := by
    rw [hagrees]
    exact decide_eq_true (htree.climb_getProof hproof h.leaf_eq)
  refine claimLeaf_returns.mpr ⟨?_, ⟨leaf, proof, ?_⟩, h.covered, rfl⟩
  · exact ⟨hsettling, ⟨deadline, hdeadline, h.window deadline hdeadline⟩, h.unclaimed,
      h.participant, h.signed⟩
  · exact ⟨h.leaf_eq, h.nonempty, h.type_eq, rfl, rfl, hproof, hverified⟩

end

/-- What can be said of root and tree in any state. -/
structure RootKept (env : Env) (s : Session) : Prop where
  /-- The tree is the one over its leaves. -/
  tree : MerkleTree.new env.sha s.channel.tree.leaves s.channel.metadata.treeDepth.toNat
    = some s.channel.tree
  /-- An open channel was not challenged .. -/
  opened : s.channel.metadata.status = .opened → s.channel.metadata.challengeSlot = none
  /-- .. and without a challenge the root is the tree's. -/
  agrees : s.channel.metadata.challengeSlot = none → s.channel.Agrees
  /-- It stays so through all calls but those that take another root from outside. -/
  kept : s.channel.Agrees → ∀ r s', r.RootFits env s → exec env r s = .ok s' → s'.channel.Agrees
  /-- It is so again after a counter-state with its leaves. -/
  rebuilt : ∀ counterState leaves userPubkey providerPubkey s',
    Returns ((Request.submitCounterState counterState (some leaves) userPubkey
      providerPubkey).method env) s () s' → s'.channel.Agrees
  /-- While it is so, a settling channel pays the owners of its leaves. -/
  claimable : s.channel.metadata.status = .settling → s.channel.Agrees →
    ∀ leafIndex leaf currentSlot signature,
      Claimable env s.channel leafIndex leaf currentSlot signature →
      Returns (claimLeaf env leafIndex leaf.amount leaf.owner currentSlot signature) s.toLocal ()
        (s.toLocal.saved (s.channel.claimed leafIndex leaf.amount))

/-- In every state that a run from a new channel reaches. -/
theorem tree_and_root (env : Env) (a : OpenArgs) (s₀ s : Session) (h : List (Session × Request))
    (hopened : Opened env a s₀) (hrun : Run (exec env) s₀ h s) : RootKept env s := by
  have hholds : Holds env ChannelState.Undisputed s := by
    refine reachable (fun _ _ => True) hopened ?_ ?_ hrun fun _ _ => trivial
    · intro channelId tree _
      exact ⟨fun _ => rfl, fun hstatus => absurd hstatus (by simp [OpenArgs.metadata]),
        fun hstatus => absurd hstatus (by simp [OpenArgs.metadata]), fun _ => rfl⟩
    · intro c r c' hc _ heffect
      exact undisputed_of_effect heffect hc
  refine ⟨hholds.valid.new_eq, hholds.memory.opened, hholds.memory.agrees, ?_, ?_, ?_⟩
  · intro hagrees r s' hfits hexec
    exact agrees_of_exec hholds.valid hfits hagrees hexec
  · intro counterState leaves userPubkey providerPubkey s' hreturns
    exact agrees_of_rebuilt hreturns
  · intro hsettling hagrees leafIndex leaf currentSlot signature hclaimable
    exact claimable_of_agrees hholds.valid.isTree hsettling (hholds.memory.settling hsettling) hagrees
      hclaimable

namespace Sample

/-- The channel closes by itself. -/
def closeByItself : Request := .autoSettle 5 10

/-- The seller claims the second leaf. -/
def claimSecond : Request := .claim (.leaf 1 4 seller 5 (signClaim sellerKeypair 1 4))

end Sample

theorem tree_and_root_settling : ∃ s₀ h s, Opened Sample.env (Sample.openArgs 10) s₀ ∧
    Run (exec Sample.env) s₀ h s ∧ s.channel.metadata.status = .settling ∧
    s.channel.Agrees ∧ RootKept Sample.env s := by
  obtain ⟨s₀, h, s, hopened, hrun, -, hsettling, hagrees⟩ :=
    @Sample.exists_run 10 [Sample.closeByItself]
      (fun s => s.channel.metadata.status = .settling ∧ s.channel.Agrees) _ (by decide +kernel)
  exact ⟨s₀, h, s, hopened, hrun, hsettling, hagrees,
    tree_and_root Sample.env (Sample.openArgs 10) s₀ s h hopened hrun⟩

/-- After a challenge with another root the payer cannot claim the leaf; and on a
channel that closed by itself the seller cannot claim a leaf whose amount was
never deposited. -/
theorem leaf_not_claimable :
    (∃ s₀ h s e s', Opened Sample.env (Sample.openArgs 10) s₀ ∧ Run (exec Sample.env) s₀ h s ∧
      h.map Prod.snd = [.settleAfterTimeout 2 10, Sample.challenge] ∧
      s.channel.metadata.status = .settling ∧ ¬ s.channel.Agrees ∧
      Fails (Sample.claimFirst.method Sample.env) s e s') ∧
    ∃ s₀ h s e s', Opened Sample.env (Sample.openArgs 10) s₀ ∧ Run (exec Sample.env) s₀ h s ∧
      h.map Prod.snd = [Sample.claimFirst, Sample.closeByItself,
        .applyLeafUpdate Sample.payment Sample.payer] ∧
      s.channel.metadata.status = .settling ∧ s.channel.Agrees ∧
      Fails (Sample.claimSecond.method Sample.env) s e s' := by
  constructor
  · obtain ⟨s₀, h, s, hopened, hrun, hcalls, hsettling, hdiffers, hstops⟩ :=
      @Sample.exists_run 10 [Sample.challenge, .settleAfterTimeout 2 10]
        (fun s => s.channel.metadata.status = .settling ∧ ¬ s.channel.Agrees ∧
          (Sample.claimFirst.method Sample.env).stops s fun _ _ => true) _ (by decide +kernel)
    obtain ⟨e, s', hfails, -⟩ := exists_of_stops hstops
    exact ⟨s₀, h, s, e, s', hopened, hrun, hcalls, hsettling, hdiffers, hfails⟩
  · obtain ⟨s₀, h, s, hopened, hrun, hcalls, hsettling, hagrees, hstops⟩ :=
      @Sample.exists_run 10 [.applyLeafUpdate Sample.payment Sample.payer, Sample.closeByItself,
        Sample.claimFirst] (fun s => s.channel.metadata.status = .settling ∧ s.channel.Agrees ∧
          (Sample.claimSecond.method Sample.env).stops s fun _ _ => true) _ (by decide +kernel)
    obtain ⟨e, s', hfails, -⟩ := exists_of_stops hstops
    exact ⟨s₀, h, s, e, s', hopened, hrun, hcalls, hsettling, hagrees, hfails⟩

end StateChannel
