/-
Roots that are replaced after leaves were claimed.

Claims start while a channel is still challenged: both sides let HTLC leaves be
claimed and refunded there.  A channel with claims is never open again, so no
challenge comes after them; but in the same phase `submit_counter_state` puts
another root in the place of the one that was paid from.

* `root_of_update`, `root_of_effect` — only a counter-state replaces the root,
  on either side;
* `roots_stay` — so it is in every reachable state with a claim;
* `root_replaced` — a run where one does.
-/
import IgnitePay.Program.ClaimedLeaves
import IgnitePay.StateChannel.Roots

/-! ### The manager -/

namespace StateChannel

open Bytes Machine Solana

/-- Nothing was claimed while the channel was open. -/
def ChannelState.ClaimedLate (c : ChannelState) : Prop :=
  c.metadata.claimedLeaves ≠ ∅ → c.metadata.status ≠ .opened

/-- The call builds a new tree without looking at the status. -/
def Request.IsSplit : Request → Prop
  | constructSplitTree _ _ _ => True
  | _ => False

section

variable {env : Env} {c c' : ChannelState} {s s' : Session} {r : Request}

theorem claimedLate_of_effect (h : Effect env c r c') (hc : c.ClaimedLate) : c'.ClaimedLate := by
  cases h with
  | batch hbatched =>
    rw [batched_eq hbatched]
    exact hc
  | pays hpays =>
    intro _ hopened
    rcases hpays.status_eq with hstatus | hstatus
    · exact absurd (hstatus.symm.trans hopened) (by simp)
    · exact absurd (hstatus.symm.trans hopened) (by simp)
  -- These leave the channel in another status ..
  | closes => exact fun _ hopened => absurd hopened (by simp [ChannelState.settled])
  | autoSettles => exact fun _ hopened => absurd hopened (by simp [ChannelState.settled])
  | timesOut => exact fun _ hopened => absurd hopened (by simp [ChannelState.settled])
  | triggers => exact fun _ hopened => absurd hopened (by simp [ChannelState.triggered])
  | finalizes => exact fun _ hopened => absurd hopened (by simp [ChannelState.finalized])
  -- .. and these change neither status nor claims.
  | stays => exact hc
  | funds => exact hc
  | splits => exact hc
  | updates => exact hc
  | cosigns => exact hc
  | autoCloses => exact hc
  | counters => exact hc
  | rebuilds => exact hc
  | halfCounters => exact hc

/-- On a channel that is no longer open the root stays, or is a counter-state's. -/
theorem root_of_effect (h : Effect env c r c') (hopened : c.metadata.status ≠ .opened)
    (hsplit : ¬ r.IsSplit) : c'.metadata.currentRoot = c.metadata.currentRoot ∨
      ∃ counterState leaves userPubkey providerPubkey,
        r = .submitCounterState counterState leaves userPubkey providerPubkey ∧
        Counters env c counterState userPubkey providerPubkey ∧
        c'.metadata.currentRoot = counterState.root := by
  cases h with
  | stays => exact .inl rfl
  | splits => exact absurd trivial hsplit
  | funds hfunds => exact absurd hfunds.status_eq hopened
  | updates haccepted => exact absurd haccepted.status_eq hopened
  | triggers htriggers => exact absurd htriggers.status_eq hopened
  | batch hbatched =>
    cases hbatched with
    | nil => exact .inl rfl
    | cons haccepted => exact absurd haccepted.status_eq hopened
  | counters hcounters => exact .inr ⟨_, _, _, _, rfl, hcounters, rfl⟩
  | rebuilds hcounters => exact .inr ⟨_, _, _, _, rfl, hcounters, rfl⟩
  | halfCounters hcounters => exact .inr ⟨_, _, _, _, rfl, hcounters, rfl⟩
  | closes => exact .inl rfl
  | cosigns => exact .inl rfl
  | autoCloses => exact .inl rfl
  | autoSettles => exact .inl rfl
  | timesOut => exact .inl rfl
  | pays => exact .inl rfl
  | finalizes => exact .inl rfl

end

/-- In every reachable state with a claimed leaf, a call that goes through leaves
the root, unless it is a counter-state in a challenge.  Splits of the tree are
left out, and the stored channel is taken up only where it is the one in memory. -/
def RootStays (env : Env) : Prop :=
  ∀ (a : OpenArgs) (s₀ s : Session) (h : List (Session × Request)), Opened env a s₀ →
    Run (exec env) s₀ h s → s.channel.metadata.claimedLeaves ≠ ∅ →
    s.channel.metadata.status ≠ .opened ∧ ∀ (r : Request) (s' : Session), ¬ r.IsSplit →
      (r = .loadState → s.db.load env.sha s.channel.metadata.channelId = .ok s.channel) →
      Returns (r.method env) s () s' →
        s'.channel.metadata.currentRoot = s.channel.metadata.currentRoot ∨
        ∃ counterState leaves userPubkey providerPubkey,
          r = .submitCounterState counterState leaves userPubkey providerPubkey ∧
          Counters env s.channel counterState userPubkey providerPubkey ∧
          s'.channel.metadata.currentRoot = counterState.root

theorem rootStays (env : Env) : RootStays env := by
  intro a s₀ s h hopened hrun hclaimed
  have hholds : Holds env ChannelState.ClaimedLate s := by
    refine reachable (fun _ _ => True) hopened ?_ ?_ hrun fun _ _ => trivial
    · intro channelId tree _ hclaimed
      exact absurd rfl hclaimed
    · intro c r c' hc _ heffect
      exact claimedLate_of_effect heffect hc
  have hstatus := hholds.memory hclaimed
  refine ⟨hstatus, fun r s' hsplit hload hreturns => ?_⟩
  have hexec : exec env r s = .ok s' := by
    rw [exec, show (r.method env).call s = (.ok (), s') from hreturns]
  rcases exec_ok hholds.valid hexec with ⟨heffect, -⟩ | ⟨rfl, hfound, -⟩
  · exact root_of_effect heffect hstatus hsplit
  · have hsame : s'.channel = s.channel := Except.ok.inj (hfound.symm.trans (hload rfl))
    exact .inl (by rw [hsame])

/-- The seller claims the HTLC with the preimage. -/
def Sample.claimHtlc : Request :=
  .claim (.htlcVerify 0 preimage seller 5 (signClaim sellerKeypair 0 10))

end StateChannel

/-! ### The program -/

namespace Program

open Bytes Machine Solana

section

variable {sha : List UInt8 → Bytes 32} {w w' : World} {c c' : ChannelAccount} {call : Call}

/-- Nothing was claimed while the channel was open. -/
def ChannelAccount.ClaimedLate (c : ChannelAccount) : Prop :=
  c.claimedLeaves ≠ [] → c.status ≠ .opened

theorem claimedLate_of_update (h : Update sha w w' c call c') (hc : c.ClaimedLate) :
    c'.ClaimedLate := by
  cases h with
  | fund => exact hc
  | counter => exact hc
  | agree => exact fun _ hopened => absurd hopened (by simp [ChannelAccount.settledUntil])
  | timeout => exact fun _ hopened => absurd hopened (by simp [ChannelAccount.settledUntil])
  | trigger => exact fun _ hopened => absurd hopened (by simp [ChannelAccount.triggered])
  | finalize => exact fun _ hopened => absurd hopened (by simp [ChannelAccount.finalized])
  | pay hpays =>
    intro _ hopened
    rcases hpays.admitted with hstatus | hstatus
    · exact absurd (hstatus.symm.trans hopened) (by simp)
    · exact absurd (hstatus.symm.trans hopened) (by simp)

theorem root_of_update (h : Update sha w w' c call c') (hopened : c.status ≠ .opened) :
    c'.currentRoot = c.currentRoot ∨ ∃ ctx sequence root,
      call = .submitCounterState ctx sequence root ∧ Countered w ctx sequence root c ∧
        c'.currentRoot = root := by
  cases h with
  | fund hfunds => exact absurd hfunds.status_eq hopened
  | trigger htriggered => exact absurd htriggered.status_eq hopened
  | counter hcountered => exact .inr ⟨_, _, _, rfl, hcountered, rfl⟩
  | agree => exact .inl rfl
  | timeout => exact .inl rfl
  | pay => exact .inl rfl
  | finalize => exact .inl rfl

end

/-- The same of the channel at an address of a reachable world. -/
def RootStays (sha : List UInt8 → Bytes 32) : Prop :=
  ∀ (w₀ w : World) (h : List (World × Call)) (a : Address) (n : ℕ) (c : ChannelAccount),
    w₀.channels = ∅ → Run (exec sha) w₀ h w → w.channels.lookup a = some ⟨n, c⟩ →
    c.claimedLeaves ≠ [] → c.status ≠ .opened ∧
    ∀ call w', exec sha call w = .ok w' → ∃ c', w'.channels.lookup a = some ⟨n, c'⟩ ∧
      (c'.currentRoot = c.currentRoot ∨ ∃ ctx sequence root,
        call = .submitCounterState ctx sequence root ∧ Countered w ctx sequence root c ∧
          c'.currentRoot = root)

theorem rootStays (sha : List UInt8 → Bytes 32) : RootStays sha := by
  intro w₀ w h a n c hempty hrun hc hclaimed
  have hlate : c.ClaimedLate := by
    refine reachable_channels (P := fun _ c => c.ClaimedLate) hempty ?_ ?_ hrun hc
    · intro w w' ctx args _ hclaimed
      exact absurd rfl hclaimed
    · intro n w w' c call c' hc hu _
      exact claimedLate_of_update hu hc
  have hstatus := hlate hclaimed
  refine ⟨hstatus, fun call w' hexec => ?_⟩
  rcases exec_entry hexec hc with hsame | ⟨c', -, hu, -, hafter⟩
  · exact ⟨c, hsame, .inl rfl⟩
  · exact ⟨c', hafter, root_of_update hu hstatus⟩

/-- On both sides, from the first claim on only a counter-state replaces the root. -/
theorem roots_stay (sha : List UInt8 → Bytes 32) (env : StateChannel.Env) :
    RootStays sha ∧ StateChannel.RootStays env :=
  ⟨rootStays sha, StateChannel.rootStays env⟩

/-- A leaf of the program's channel was claimed, and another claim goes through;
the payer's leaf was claimed from the manager, and the provider co-signs. -/
theorem roots_stay_claimed :
    (∃ h w a n c c' w', Run (exec Sha256.sha256) Stolen.start h w ∧
      w.channels.lookup a = some ⟨n, c⟩ ∧ c.claimedLeaves ≠ [] ∧
      exec Sha256.sha256 (Twice.claimAt 2) w = .ok w' ∧ w'.channels.lookup a = some ⟨n, c'⟩ ∧
      (c'.currentRoot = c.currentRoot ∨ ∃ ctx sequence root,
        Twice.claimAt 2 = .submitCounterState ctx sequence root ∧
          Countered w ctx sequence root c ∧ c'.currentRoot = root)) ∧
    ∃ s₀ h s, StateChannel.Opened StateChannel.Sample.env (StateChannel.Sample.openArgs 10) s₀ ∧
      Run (StateChannel.exec StateChannel.Sample.env) s₀ h s ∧
      s.channel.metadata.claimedLeaves = {0} ∧ s.channel.metadata.status ≠ .opened := by
  constructor
  · obtain ⟨h, w, hrun, -, c, hc, hclaimed, hok⟩ :=
      @Run.exists_of_test _ _ _ (exec Sha256.sha256) Stolen.start
        (Twice.settled ++ [Twice.claimAt 0])
        (fun w => ∃ c ∈ w.channelAt (.channel Stolen.channelId), c.claimedLeaves ≠ [] ∧
          (exec Sha256.sha256 (Twice.claimAt 2) w).isOk = true) _ (by decide +kernel)
    obtain ⟨n, hn⟩ := World.channelAt_eq_some.mp hc
    obtain ⟨w', hw'⟩ := exists_of_isOk hok
    obtain ⟨-, hroot⟩ := (roots_stay Sha256.sha256 StateChannel.Sample.env).1 _ w h _ n c rfl hrun hn
      hclaimed
    obtain ⟨c', hc', hroot⟩ := hroot _ w' hw'
    exact ⟨h, w, _, n, c, c', w', hrun, hn, hclaimed, hw', hc', hroot⟩
  · obtain ⟨s₀, h, s, hopened, hrun, -, hclaimed⟩ :=
      @StateChannel.Sample.exists_run 10 [StateChannel.Sample.closeByItself,
        StateChannel.Sample.claimFirst] (fun s => s.channel.metadata.claimedLeaves = {0}) _
          (by decide +kernel)
    have hne : s.channel.metadata.claimedLeaves ≠ ∅ := by
      rw [hclaimed]
      exact Finset.singleton_ne_empty _
    exact ⟨s₀, h, s, hopened, hrun, hclaimed,
      ((roots_stay Sha256.sha256 StateChannel.Sample.env).2 _ s₀ s h hopened hrun hne).1⟩

/-- The seller is paid from the HTLC in the challenged tree, and then both put the
tree of before in its place. -/
theorem root_replaced : ∃ s₀ h s s',
    StateChannel.Opened StateChannel.Sample.env (StateChannel.Sample.openArgs 10) s₀ ∧
    Run (StateChannel.exec StateChannel.Sample.env) s₀ h s ∧
    h.map Prod.snd = [StateChannel.Sample.claimHtlc, StateChannel.Sample.challenge,
      StateChannel.Sample.lock] ∧
    s.channel.metadata.claimedLeaves = {0} ∧
    Returns ((StateChannel.Sample.counter
      (some [.standard StateChannel.Sample.payer 10])).method StateChannel.Sample.env) s () s' ∧
    s'.channel.metadata.currentRoot ≠ s.channel.metadata.currentRoot := by
  obtain ⟨s₀, h, s, hopened, hrun, hcalls, hclaimed, htest⟩ :=
    @StateChannel.Sample.exists_run 10 [StateChannel.Sample.lock, StateChannel.Sample.challenge,
      StateChannel.Sample.claimHtlc] (fun s => s.channel.metadata.claimedLeaves = {0} ∧
        ((StateChannel.Sample.counter (some [.standard StateChannel.Sample.payer 10])).method
          StateChannel.Sample.env).passes s fun s' =>
            decide (s'.channel.metadata.currentRoot ≠ s.channel.metadata.currentRoot)) _
      (by decide +kernel)
  obtain ⟨_, s', hreturns, htest⟩ := exists_of_passes htest
  exact ⟨s₀, h, s, s', hopened, hrun, hcalls, hclaimed, hreturns, of_decide_eq_true htest⟩

end Program
