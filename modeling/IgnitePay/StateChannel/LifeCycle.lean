/-
The life cycle of a channel.

A channel opens, may be challenged, settles and is closed, in this order; its
sequence counts up; and from the time it settles on, its tree, its root and its
sequence stand still.  All methods but one look at the status before they act;
`construct_split_tree` does not.  In a build without overflow checks the
sequence starts again after `u64::MAX`.

* `advances_of_effect` — which calls keep the order;
* `run_ordered` — so any run of such calls keeps it, from each state to all
  later ones;
* `split_after_close` — a run with a call that does not.
-/
import IgnitePay.StateChannel.Effect

namespace StateChannel

open Bytes Machine Solana

/-! ### The order -/

/-- The moves between statuses. -/
inductive ChannelStatus.Moves : ChannelStatus → ChannelStatus → Prop
  | challenge : Moves .opened .challenged
  | timeout : Moves .challenged .settling
  | cooperate : Moves .opened .settling
  | finalize : Moves .settling .closed

/-- What is settled on stands still. -/
def ChannelState.Frozen (c : ChannelState) : Prop :=
  c.metadata.status = .settling ∨ c.metadata.status = .closed

/-- From `c` to `c'` at most one move was made, and what must stand still did. -/
structure Advances (c c' : ChannelState) : Prop where
  status : c'.metadata.status = c.metadata.status ∨ c.metadata.status.Moves c'.metadata.status
  sequence_le : c.metadata.sequence.toNat ≤ c'.metadata.sequence.toNat
  frozen : c.Frozen → c'.tree = c.tree ∧ c'.metadata.currentRoot = c.metadata.currentRoot ∧
    c'.metadata.sequence = c.metadata.sequence

/-- The same over any number of moves. -/
structure Ordered (c c' : ChannelState) : Prop where
  status : Relation.ReflTransGen ChannelStatus.Moves c.metadata.status c'.metadata.status
  sequence_le : c.metadata.sequence.toNat ≤ c'.metadata.sequence.toNat
  frozen : c.Frozen → c'.Frozen ∧ c'.tree = c.tree ∧
    c'.metadata.currentRoot = c.metadata.currentRoot ∧
    c'.metadata.sequence = c.metadata.sequence

section

variable {c c' c'' : ChannelState}

theorem Advances.refl (c : ChannelState) : Advances c c :=
  ⟨.inl rfl, le_refl _, fun _ => ⟨rfl, rfl, rfl⟩⟩

/-- A call that leaves tree, root and sequence alone. -/
theorem Advances.of_same
    (hstatus : c'.metadata.status = c.metadata.status ∨ c.metadata.status.Moves c'.metadata.status)
    (htree : c'.tree = c.tree) (hroot : c'.metadata.currentRoot = c.metadata.currentRoot)
    (hsequence : c'.metadata.sequence = c.metadata.sequence) : Advances c c' :=
  ⟨hstatus, hsequence ▸ le_refl _, fun _ => ⟨htree, hroot, hsequence⟩⟩

/-- A call that may change them, because they need not stand still yet. -/
theorem Advances.of_moving
    (hstatus : c'.metadata.status = c.metadata.status ∨ c.metadata.status.Moves c'.metadata.status)
    (hsequence : c.metadata.sequence.toNat ≤ c'.metadata.sequence.toNat) (hmoving : ¬ c.Frozen) :
    Advances c c' :=
  ⟨hstatus, hsequence, fun hfrozen => absurd hfrozen hmoving⟩

theorem not_frozen_of_opened (h : c.metadata.status = .opened) : ¬ c.Frozen := by
  rw [ChannelState.Frozen, h]
  decide

theorem not_frozen_of_challenged (h : c.metadata.status = .challenged) : ¬ c.Frozen := by
  rw [ChannelState.Frozen, h]
  decide

theorem Advances.ordered (h : Advances c c') : Ordered c c' := by
  refine ⟨?_, h.sequence_le, fun hfrozen => ⟨?_, h.frozen hfrozen⟩⟩
  · rcases h.status with heq | hmoves
    · rw [heq]
    · exact .single hmoves
  · rcases h.status with heq | hmoves
    · rwa [ChannelState.Frozen, heq]
    · -- From `settling` it goes on to `closed`, and from there nowhere.
      rcases hfrozen with hstatus | hstatus
      · rw [hstatus] at hmoves
        cases hc' : c'.metadata.status with
        | closed => exact .inr hc'
        | opened => exact absurd (hc' ▸ hmoves) (by rintro ⟨⟩)
        | challenged => exact absurd (hc' ▸ hmoves) (by rintro ⟨⟩)
        | settling => exact absurd (hc' ▸ hmoves) (by rintro ⟨⟩)
      · rw [hstatus] at hmoves
        exact absurd hmoves (by rintro ⟨⟩)

theorem Ordered.trans (h : Ordered c c') (h' : Ordered c' c'') : Ordered c c'' := by
  refine ⟨h.status.trans h'.status, h.sequence_le.trans h'.sequence_le, fun hfrozen => ?_⟩
  obtain ⟨hfrozen', htree, hroot, hsequence⟩ := h.frozen hfrozen
  obtain ⟨hfrozen'', htree', hroot', hsequence'⟩ := h'.frozen hfrozen'
  exact ⟨hfrozen'', htree'.trans htree, hroot'.trans hroot, hsequence'.trans hsequence⟩

end

/-! ### The calls that keep it -/

/-- The next `n` sequences are above the last. -/
def Climbs (env : Env) (c : ChannelState) (n : ℕ) : Prop :=
  env.overflowChecks = true ∨ c.metadata.sequence.toNat + n < 2 ^ 64

/-- A call that goes through counts up within `u64`, and `construct_split_tree`
comes before settlement; the stored channel is only taken up where it is the one
in memory. -/
def Request.KeepsOrder (env : Env) (s : Session) : Request → Prop
  | fundChannel providerKeypair depositB _ =>
    Funds s.channel providerKeypair depositB → Climbs env s.channel 1
  | constructSplitTree leaves _ _ =>
    Splits s.channel leaves → ¬ s.channel.Frozen ∧ Climbs env s.channel 1
  | applyLeafUpdate update signerPubkey =>
    Accepts env s.channel update signerPubkey → Climbs env s.channel 1
  | applyLeafUpdateBatch _ updates signerPubkey =>
    (∃ c', Batched env signerPubkey s.channel updates c') → Climbs env s.channel updates.length
  | loadState => s.db.load env.sha s.channel.metadata.channelId = .ok s.channel
  | _ => True

section

variable {env : Env} {c c' : ChannelState} {s s' : Session} {r : Request} {signerPubkey : Pubkey}
  {updates : List LeafUpdate}

theorem toNat_newSequence {sequence newSequence : UInt64}
    (h : addU64 env.overflowChecks sequence 1 = some newSequence)
    (hclimbs : env.overflowChecks = true ∨ sequence.toNat + 1 < 2 ^ 64) :
    newSequence.toNat = sequence.toNat + 1 :=
  toNat_of_addU64 h hclimbs

theorem le_newSequence {newSequence : UInt64}
    (h : addU64 env.overflowChecks c.metadata.sequence 1 = some newSequence)
    (hclimbs : Climbs env c 1) : c.metadata.sequence.toNat ≤ newSequence.toNat := by
  rw [toNat_newSequence h hclimbs]
  exact Nat.le_succ _

/-- A batch counts up once for each update, and needs the channel open for the first. -/
theorem sequence_of_batched (h : Batched env signerPubkey c updates c')
    (hclimbs : Climbs env c updates.length) : c'.metadata.status = c.metadata.status ∧
      c'.metadata.sequence.toNat = c.metadata.sequence.toNat + updates.length := by
  induction h with
  | nil => exact ⟨rfl, rfl⟩
  | @cons c c' update updates tree haccepted hwrites hrest ih =>
    have hnext : update.sequence.toNat = c.metadata.sequence.toNat + 1 := by
      refine toNat_newSequence haccepted.sequence_eq (hclimbs.imp_right fun hlt => ?_)
      rw [List.length_cons] at hlt
      omega
    have hwritten : (c.written update tree).metadata.sequence = update.sequence := rfl
    obtain ⟨hstatus, hsequence⟩ := ih (hclimbs.imp_right fun hlt => by
      rw [hwritten, hnext]
      rw [List.length_cons] at hlt
      omega)
    refine ⟨hstatus, ?_⟩
    rw [hsequence, hwritten, hnext, List.length_cons]
    omega

theorem advances_of_batched (h : Batched env signerPubkey c updates c')
    (hclimbs : Climbs env c updates.length) : Advances c c' := by
  obtain ⟨hstatus, hsequence⟩ := sequence_of_batched h hclimbs
  cases h with
  | nil => exact .refl c
  | cons haccepted =>
    refine .of_moving (.inl hstatus) ?_ (not_frozen_of_opened haccepted.status_eq)
    rw [hsequence]
    exact Nat.le_add_right _ _

theorem le_of_not_ge {a b : UInt64} (h : ¬ b ≤ a) : a.toNat ≤ b.toNat :=
  (UInt64.lt_iff_toNat_lt.mp (UInt64.not_le.mp h)).le

theorem advances_of_effect (h : Effect env s.channel r c') (hkeeps : r.KeepsOrder env s) :
    Advances s.channel c' := by
  cases h with
  | stays => exact .refl _
  | funds hfunds hsequence =>
    exact .of_moving (.inl rfl) (le_newSequence hsequence (hkeeps hfunds))
      (not_frozen_of_opened hfunds.status_eq)
  | splits hsplits _ hsequence =>
    obtain ⟨hmoving, hclimbs⟩ := hkeeps hsplits
    exact .of_moving (.inl rfl) (le_newSequence hsequence hclimbs) hmoving
  | updates haccepted =>
    exact .of_moving (.inl rfl) (le_newSequence haccepted.sequence_eq (hkeeps haccepted))
      (not_frozen_of_opened haccepted.status_eq)
  | batch hbatched => exact advances_of_batched hbatched (hkeeps ⟨_, hbatched⟩)
  | closes hcloses => exact .of_same (.inr (hcloses.status_eq ▸ .cooperate)) rfl rfl rfl
  | cosigns => exact .of_same (.inl rfl) rfl rfl rfl
  | autoCloses => exact .of_same (.inl rfl) rfl rfl rfl
  | autoSettles hstatus => exact .of_same (.inr (hstatus ▸ .cooperate)) rfl rfl rfl
  | triggers htriggers =>
    exact .of_moving (.inr (htriggers.status_eq ▸ .challenge)) (le_of_not_ge htriggers.sequence_lt)
      (not_frozen_of_opened htriggers.status_eq)
  | timesOut hstatus => exact .of_same (.inr (hstatus ▸ .timeout)) rfl rfl rfl
  | counters hcounters =>
    exact .of_moving (.inl rfl) (le_of_not_ge hcounters.sequence_lt)
      (not_frozen_of_challenged hcounters.status_eq)
  | rebuilds hcounters =>
    exact .of_moving (.inl rfl) (le_of_not_ge hcounters.sequence_lt)
      (not_frozen_of_challenged hcounters.status_eq)
  | halfCounters hcounters =>
    exact .of_moving (.inl rfl) (le_of_not_ge hcounters.sequence_lt)
      (not_frozen_of_challenged hcounters.status_eq)
  | pays => exact .of_same (.inl rfl) rfl rfl rfl
  | finalizes hfinalizes => exact .of_same (.inr (hfinalizes.status_eq ▸ .finalize)) rfl rfl rfl

theorem advances_of_exec (hvalid : s.channel.Valid env.sha) (hkeeps : r.KeepsOrder env s)
    (h : exec env r s = .ok s') : Advances s.channel s'.channel := by
  rcases exec_ok hvalid h with ⟨heffect, -⟩ | ⟨rfl, hload, -⟩
  · exact advances_of_effect heffect hkeeps
  · have hsame : s'.channel = s.channel := Except.ok.inj (hload.symm.trans hkeeps)
    rw [hsame]
    exact .refl _

end

/-- From a new channel on: each state of the run is at most one move from the one
before it, and in order with all that were before. -/
theorem run_ordered (env : Env) (a : OpenArgs) (s₀ s : Session) (h : List (Session × Request))
    (hopened : Opened env a s₀) (hrun : Run (exec env) s₀ h s)
    (hkeeps : ∀ p ∈ h, p.2.KeepsOrder env p.1) :
    ((Run.states h s).IsChain fun s' s => Advances s.channel s'.channel) ∧
      (Run.states h s).Pairwise fun s' s => Ordered s.channel s'.channel := by
  have hchain : (Run.states h s).IsChain fun s' s => Advances s.channel s'.channel := by
    refine Run.isChain_of (R := fun s s' => Advances s.channel s'.channel)
      (fun s r => r.KeepsOrder env s) ?_ hrun hkeeps
    intro h s r s' hbefore hr hexec
    exact advances_of_exec (reachable_valid hopened hbefore) hr hexec
  refine ⟨hchain, ?_⟩
  have htrans : ∀ a b c : Session, Ordered a.channel b.channel → Ordered b.channel c.channel →
      Ordered a.channel c.channel := fun _ _ _ hab hbc => hab.trans hbc
  exact Run.pairwise_of_isChain (R := fun s s' => Ordered s.channel s'.channel) htrans
    (hchain.imp fun _ _ hadvances => hadvances.ordered)

namespace Sample

/-- Both close the channel in the state it opened with. -/
def close : Request :=
  .closeChannel (signedState 0 (rootOf [.standard payer 10])) payer seller 5 10

/-- They split the payer's leaf in two. -/
def split : Request :=
  .constructSplitTree [.standard payer 6, .standard payer 4] payerKeypair sellerKeypair

/-- The payer claims the first leaf. -/
def claimFirst : Request := .claim (.leaf 0 10 payer 5 (signClaim payerKeypair 0 10))

end Sample

theorem run_ordered_close : ∃ s₀ h s, Opened Sample.env (Sample.openArgs 10) s₀ ∧
    Run (exec Sample.env) s₀ h s ∧ h.map Prod.snd = [Sample.claimFirst, Sample.close] ∧
    s.channel.metadata.claimedLeaves = {0} ∧
    ((Run.states h s).IsChain fun s' s => Advances s.channel s'.channel) ∧
      (Run.states h s).Pairwise fun s' s => Ordered s.channel s'.channel := by
  obtain ⟨s₀, h, s, hopened, hrun, hcalls, hclaimed⟩ :=
    @Sample.exists_run 10 [Sample.close, Sample.claimFirst]
      (fun s => s.channel.metadata.claimedLeaves = {0}) _ (by decide +kernel)
  have hkeeps : ∀ p ∈ h, p.2.KeepsOrder Sample.env p.1 := by
    refine Run.forall_of_calls (A := fun s r => r.KeepsOrder Sample.env s) hcalls ?_
    intro r hr s
    rcases List.mem_pair.mp hr with rfl | rfl
    · exact trivial
    · exact trivial
  exact ⟨s₀, h, s, hopened, hrun, hcalls, hclaimed,
    run_ordered Sample.env (Sample.openArgs 10) s₀ s h hopened hrun hkeeps⟩

/-- The channel is closed in one state, and then split into another. -/
theorem split_after_close : ∃ s₀ h s s', Opened Sample.env (Sample.openArgs 10) s₀ ∧
    Run (exec Sample.env) s₀ h s ∧ h.map Prod.snd = [Sample.close] ∧
    exec Sample.env Sample.split s = .ok s' ∧
    s.channel.metadata.status = .settling ∧ s'.channel.metadata.status = .settling ∧
    s'.channel.tree ≠ s.channel.tree ∧
    s'.channel.metadata.currentRoot ≠ s.channel.metadata.currentRoot ∧
    s'.channel.metadata.sequence ≠ s.channel.metadata.sequence := by
  have htest : (Sample.opened 10 none).toOption.any fun s₀ =>
      (exec Sample.env Sample.close s₀).toOption.any fun s =>
        (exec Sample.env Sample.split s).toOption.any fun s' =>
          decide (s.channel.metadata.status = .settling ∧ s'.channel.metadata.status = .settling ∧
            s'.channel.tree ≠ s.channel.tree ∧
            s'.channel.metadata.currentRoot ≠ s.channel.metadata.currentRoot ∧
            s'.channel.metadata.sequence ≠ s.channel.metadata.sequence) := by
    decide +kernel
  obtain ⟨s₀, hs₀, htest⟩ := exists_of_any htest
  obtain ⟨s, hs, htest⟩ := exists_of_any htest
  obtain ⟨s', hs', htest⟩ := exists_of_any htest
  exact ⟨s₀, _, s, s', ⟨_, _, Sample.openChannel_of_opened hs₀⟩, .step .start hs, rfl, hs',
    of_decide_eq_true htest⟩

end StateChannel
