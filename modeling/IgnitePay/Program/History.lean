/-
A channel account and the calls that made it.

The account says nothing that the history of its channel does not say: which
stage it is in, what was put in and taken out, which leaves were paid, which
state was submitted last and when, all of it can be read off the calls that
went through.  The stages follow one another in a fixed order, and a channel
is funded at most once.

* `recorded_of_update` — what a call writes is what the history then says;
* `account_of_history` — so in every run, from the call that opened the channel;
* `finalized_in_full` — finalization is the last call on a channel, and what
  it refunds makes up, with what was claimed, all that was put in.
-/
import IgnitePay.Program.Settlement

namespace Program

open Bytes Machine Solana Token

/-! ### What a history says -/

/-- The stage a call takes a channel to, from a stage in which the program lets it through. -/
def ChannelStatus.next : ChannelStatus → Call → Option ChannelStatus
  | .opened, .fundChannel _ _ => some .opened
  | .opened, .cooperativeSettle _ _ _ _ => some .settling
  | .opened, .triggerChallenge _ _ _ => some .challenged
  | .challenged, .submitCounterState _ _ _ => some .challenged
  | .challenged, .settleAfterTimeout _ _ => some .settling
  | .challenged, .payout _ (.verifyHtlc _) => some .challenged
  | .challenged, .payout _ (.htlcRefund _) => some .challenged
  | .settling, .payout _ _ => some .settling
  | .settling, .finalizeSettlement _ => some .closed
  | _, _ => none

namespace Call

/-- What party B puts in. -/
def funding : Call → List ℕ
  | .fundChannel _ depositB => [depositB.toNat]
  | _ => []

/-- The leaf that is paid, and how much. -/
def payment : Call → List (UInt32 × ℕ)
  | .payout _ p => [(p.opening.leafIndex, p.amount.toNat)]
  | _ => []

/-- The sequence number and the root that are submitted. -/
def submission : Call → Option (UInt64 × Bytes 32)
  | .triggerChallenge _ root sequence => some (sequence, root)
  | .submitCounterState _ sequence root => some (sequence, root)
  | _ => none

/-- The slot the challenge starts in. -/
def challengeStart (slot : UInt64) : Call → Option UInt64
  | .triggerChallenge _ _ _ => some slot
  | _ => none

/-- The slot the claim window ends in. -/
def windowEnd (slot : UInt64) : Call → Option ℕ
  | .cooperativeSettle _ _ _ window => some (slot.toNat + window.toNat)
  | .settleAfterTimeout _ window => some (slot.toNat + window.toNat)
  | _ => none

end Call

/-- The calls on the channel at an address, each with the state it was made in. -/
def callsOn (a : Address) (h : List (World × Call)) : List (World × Call) :=
  h.filter fun p => p.2.channel = some a

/-- The stage that the calls lead to, one after the other. -/
def stageAfter : List (World × Call) → Option ChannelStatus
  | [] => some .opened
  | p :: l => (stageAfter l).bind fun stage => stage.next p.2

def fundings (l : List (World × Call)) : List ℕ := l.flatMap fun p => p.2.funding

def payments (l : List (World × Call)) : List (UInt32 × ℕ) := l.flatMap fun p => p.2.payment

def submissions (l : List (World × Call)) : List (UInt64 × Bytes 32) :=
  l.filterMap fun p => p.2.submission

def Newer (later earlier : UInt64 × Bytes 32) : Prop := earlier.1 < later.1

/-- What a channel is opened with for good. -/
structure Terms where
  channelId : Bytes 32
  userPubkey : Pubkey
  providerPubkey : Pubkey
  tokenMint : Pubkey
  openSlot : UInt64
  vaultA : Address
  vaultB : Address
  depositA : UInt64
  challengeDuration : UInt64
  minChallengeDelay : UInt64
  treeDepth : UInt32
  autoCloseSlot : Option UInt64

def ChannelAccount.terms (c : ChannelAccount) : Terms :=
  { c with }

/-- The account of a channel that was opened with `ctx` and `args` says what the calls `l` on it
say, the latest first. -/
structure Recorded (ctx : OpenChannel) (args : OpenChannelArgs) (l : List (World × Call))
    (c : ChannelAccount) : Prop where
  terms_eq : c.terms = (ChannelAccount.opened ctx args).terms
  stage_eq : stageAfter l = some c.status
  depositB_eq : c.depositB.toNat = (fundings l).sum
  totalDeposited_eq : c.totalDeposited.toNat = args.depositA.toNat + (fundings l).sum
  /-- At most one funding, of more than nothing. -/
  funded_once : fundings l = [] ∨ 0 < c.depositB.toNat ∧ (fundings l).length = 1
  leafCount_eq : c.leafCount.toNat = 1 + (fundings l).length
  claimedLeaves_eq : c.claimedLeaves = (payments l).reverse.map Prod.fst
  totalClaimed_eq : c.totalClaimed.toNat = ((payments l).map Prod.snd).sum
  totalClaimed_le : c.totalClaimed.toNat ≤ c.totalDeposited.toNat
  paid_once : c.claimedLeaves.Nodup
  submitted_eq : (c.sequence, c.currentRoot) = (submissions l).headD (0, args.initialRoot)
  /-- Every submission is newer than those before it. -/
  newer : (submissions l ++ [(0, args.initialRoot)]).Pairwise Newer
  challengeSlot_eq : c.challengeSlot = l.findSome? fun p => p.2.challengeStart p.1.slot
  settleDeadline_eq : c.settleDeadline.map UInt64.toNat = l.findSome? fun p => p.2.windowEnd p.1.slot

section

variable {sha : List UInt8 → Bytes 32} {w₀ w w' : World} {c c' : ChannelAccount} {a : Address}
  {h l : List (World × Call)} {ctx : OpenChannel} {args : OpenChannelArgs} {call : Call}

theorem callsOn_cons_self {p : World × Call} (hp : p.2.channel = some a) :
    callsOn a (p :: h) = p :: callsOn a h :=
  List.filter_cons_of_pos (decide_eq_true hp)

theorem callsOn_cons_ne {p : World × Call} (hp : p.2.channel ≠ some a) :
    callsOn a (p :: h) = callsOn a h :=
  List.filter_cons_of_neg fun hdec => hp (of_decide_eq_true hdec)

/-! ### The call that opens the channel -/

theorem recorded_opened (ctx : OpenChannel) (args : OpenChannelArgs) :
    Recorded ctx args [] (.opened ctx args) where
  terms_eq := rfl
  stage_eq := rfl
  depositB_eq := rfl
  totalDeposited_eq := rfl
  funded_once := .inl rfl
  leafCount_eq := rfl
  claimedLeaves_eq := rfl
  totalClaimed_eq := rfl
  totalClaimed_le := Nat.zero_le _
  paid_once := .nil
  submitted_eq := rfl
  newer := List.pairwise_singleton _ _
  challengeSlot_eq := rfl
  settleDeadline_eq := rfl

/-! ### The calls after it -/

/-- Only a settling channel pays a plain claim. -/
theorem settling_of_claim {ctx : PayoutAccounts} {p : ClaimArgs}
    (h : exec sha (.payout ctx (.claim p)) w = .ok w') (hc : w.channelAt ctx.channel = some c) :
    c.status = .settling := by
  simp only [exec, payout, claim, bind_eq_ok] at h
  obtain ⟨c', hload, -⟩ := h
  obtain ⟨hc', hadmitted, -⟩ := loadPayout_ok hload
  obtain rfl : c' = c := Option.some_inj.mp (hc'.symm.trans hc)
  exact of_decide_eq_true hadmitted

/-- The stage after a call is the next one. -/
theorem next_of_update (hr : Recorded ctx args l c) (hok : exec sha call w = .ok w')
    (hc : w.channelAt a = some c) (ha : call.channel = some a) (hu : Update sha w w' c call c') :
    c.status.next call = some c'.status := by
  cases hu with
  | fund checked _ _ =>
    show c.status.next _ = some c.status
    rw [checked.status_eq]
    rfl
  | agree checked _ _ =>
    rw [checked.status_eq]
    rfl
  | trigger checked _ =>
    rw [checked.status_eq]
    rfl
  | counter checked _ =>
    show c.status.next _ = some c.status
    rw [checked.status_eq]
    rfl
  | timeout checked _ _ =>
    rcases checked.due with ⟨hstatus, -⟩ | ⟨-, s, hauto, -⟩
    · rw [hstatus]
      rfl
    · -- No channel closes by itself: nothing sets the slot for that.
      have hnone : c.autoCloseSlot = none := congrArg Terms.autoCloseSlot hr.terms_eq
      rw [hnone] at hauto
      exact absurd hauto (by simp)
  | @pay ctx p _ checked _ _ =>
    show c.status.next _ = some c.status
    obtain rfl : ctx.channel = a := Option.some_inj.mp ha
    cases p with
    | claim p =>
      rw [settling_of_claim hok hc]
      rfl
    | verifyHtlc p => rcases checked.admitted with hstatus | hstatus <;> rw [hstatus] <;> rfl
    | htlcRefund p => rcases checked.admitted with hstatus | hstatus <;> rw [hstatus] <;> rfl
  | finalize checked _ _ =>
    rw [checked.status_eq]
    rfl

/-- No submission is newer than the account. -/
theorem Recorded.le_sequence (hr : Recorded ctx args l c) :
    ∀ s ∈ submissions l ++ [(0, args.initialRoot)], s.1 ≤ c.sequence := by
  have hnewer := hr.newer
  have hhead := congrArg Prod.fst hr.submitted_eq
  revert hnewer hhead
  cases submissions l with
  | nil =>
    intro _ hhead s hs
    rw [List.mem_singleton.mp hs]
    exact (show c.sequence = 0 from hhead) ▸ UInt64.le_refl _
  | cons latest earlier =>
    intro hnewer hhead s hs
    have hlatest : c.sequence = latest.1 := hhead
    rcases List.mem_cons.mp hs with rfl | hs
    · exact hlatest ▸ UInt64.le_refl _
    · exact hlatest ▸ UInt64.le_of_lt (List.rel_of_pairwise_cons hnewer hs)

/-- A newer submission becomes the latest. -/
theorem Recorded.newer_cons (hr : Recorded ctx args l c) {sequence : UInt64} {root : Bytes 32}
    (hlt : c.sequence < sequence) :
    ((sequence, root) :: submissions l ++ [(0, args.initialRoot)]).Pairwise Newer :=
  List.pairwise_cons.mpr ⟨fun s hs => UInt64.lt_of_le_of_lt (hr.le_sequence s hs) hlt, hr.newer⟩

/-- Party B had put in nothing before. -/
theorem Recorded.fundings_eq_nil (hr : Recorded ctx args l c) (hzero : c.depositB = 0) :
    fundings l = [] := by
  rcases hr.funded_once with hnil | ⟨hpos, -⟩
  · exact hnil
  · rw [hzero] at hpos
    exact absurd hpos (Nat.lt_irrefl 0)

/-- What a call writes is what the history then says. -/
theorem recorded_of_update (hr : Recorded ctx args l c) (hu : Update sha w w' c call c')
    (hnext : c.status.next call = some c'.status) : Recorded ctx args ((w, call) :: l) c' := by
  have hstage : stageAfter ((w, call) :: l) = some c'.status := by
    rw [stageAfter, hr.stage_eq]
    exact hnext
  cases hu with
  | @fund fund depositB total checked total_eq _ =>
    have hnil := hr.fundings_eq_nil checked.unfunded
    have hfundings : fundings ((w, .fundChannel fund depositB) :: l) = [depositB.toNat] :=
      congrArg (depositB.toNat :: ·) hnil
    have htotal := hr.totalDeposited_eq
    have hcount := hr.leafCount_eq
    have hle := hr.totalClaimed_le
    rw [hnil] at htotal hcount
    exact {
      terms_eq := hr.terms_eq
      stage_eq := hstage
      depositB_eq := by rw [hfundings]; rfl
      totalDeposited_eq := by
        rw [hfundings]
        show total.toNat = _
        rw [total_eq, htotal]
        rfl
      funded_once := by
        rw [hfundings]
        exact .inr ⟨checked.deposit_pos, rfl⟩
      leafCount_eq := by
        rw [hfundings]
        show (c.leafCount + 1).toNat = 2
        rw [UInt32.toNat_add, hcount]
        rfl
      claimedLeaves_eq := hr.claimedLeaves_eq
      totalClaimed_eq := hr.totalClaimed_eq
      totalClaimed_le := by
        show c.totalClaimed.toNat ≤ total.toNat
        omega
      paid_once := hr.paid_once
      submitted_eq := hr.submitted_eq
      newer := hr.newer
      challengeSlot_eq := hr.challengeSlot_eq
      settleDeadline_eq := hr.settleDeadline_eq }
  | agree checked deadline_eq _ =>
    exact {
      hr with
      stage_eq := hstage
      settleDeadline_eq := congrArg some deadline_eq }
  | trigger checked _ =>
    exact {
      hr with
      stage_eq := hstage
      submitted_eq := rfl
      newer := hr.newer_cons checked.sequence_lt
      challengeSlot_eq := rfl }
  | counter checked _ =>
    exact {
      hr with
      stage_eq := hstage
      submitted_eq := rfl
      newer := hr.newer_cons checked.sequence_lt }
  | timeout checked deadline_eq _ =>
    exact {
      hr with
      stage_eq := hstage
      settleDeadline_eq := congrArg some deadline_eq }
  | @pay payout p total checked total_eq _ =>
    have hpayments : payments ((w, .payout payout p) :: l) =
        (p.opening.leafIndex, p.amount.toNat) :: payments l := rfl
    exact {
      hr with
      stage_eq := hstage
      claimedLeaves_eq := by
        rw [hpayments, List.reverse_cons, List.map_append, ← hr.claimedLeaves_eq]
        rfl
      totalClaimed_eq := by
        rw [hpayments, List.map_cons, List.sum_cons, ← hr.totalClaimed_eq]
        show total.toNat = _
        omega
      totalClaimed_le := by
        show total.toNat ≤ c.totalDeposited.toNat
        have hle := checked.amount_le
        omega
      paid_once := by
        refine List.nodup_append.mpr ⟨hr.paid_once, List.nodup_singleton _, ?_⟩
        intro i hi j hj hij
        rw [List.mem_singleton.mp hj] at hij
        exact checked.claimable.fresh (hij ▸ hi) }
  | finalize checked _ _ =>
    exact {
      hr with
      stage_eq := hstage }

/-! ### Any call -/

/-- The calls on a channel are the one that opened it and those that its account records; a channel
that is not there saw none. -/
def History (a : Address) (h : List (World × Call)) : Option ChannelAccount → Prop
  | none => callsOn a h = []
  | some c => ∃ ctx args l w₁, callsOn a h = l ++ [(w₁, .openChannel ctx args)] ∧
      0 < args.depositA.toNat ∧ Recorded ctx args l c

/-- A call on a channel that is not there opens it. -/
theorem history_absent (hh : callsOn a h = []) (hnone : w.channels.lookup a = none)
    (hok : exec sha call w = .ok w') : History a ((w, call) :: h) (w'.channelAt a) := by
  rcases he : w'.channels.lookup a with _ | e
  · have hne : call.channel ≠ some a := by
      intro ha
      cases exec_ok hok with
      | @opens ctx args hcall ho =>
        obtain rfl : ctx.channel = a := Option.some_inj.mp ((congrArg Call.channel hcall).symm.trans ha)
        rw [ho.channels_eq, AList.lookup_insert] at he
        exact absurd he (by simp)
      | updates ha' _ hs =>
        obtain rfl := Option.some_inj.mp (ha'.symm.trans ha)
        obtain ⟨n, hn, -⟩ := hs.stored
        rw [hnone] at hn
        exact absurd hn (by simp)
      | outside ha' _ _ => exact absurd (ha'.symm.trans ha) (by simp)
    rw [World.channelAt, he]
    exact (callsOn_cons_ne hne).trans hh
  · obtain ⟨ctx, args, rfl, hctx, ho, rfl⟩ := exec_new hok hnone he
    rw [World.channelAt, he]
    have ha : (Call.openChannel ctx args).channel = some a := congrArg some hctx
    refine ⟨ctx, args, [], w, ?_, ho.deposit_pos, recorded_opened ctx args⟩
    rw [callsOn_cons_self ha, hh]
    rfl

/-- A call leaves a channel alone, or is recorded in it. -/
theorem history_present (hh : History a h (some c)) (hc : w.channelAt a = some c)
    (hok : exec sha call w = .ok w') : History a ((w, call) :: h) (w'.channelAt a) := by
  obtain ⟨ctx, args, l, w₁, hcalls, hpos, hr⟩ := hh
  by_cases ha : call.channel = some a
  · obtain ⟨n, hn⟩ := World.channelAt_eq_some.mp hc
    have hupdate : ∃ c', Update sha w w' c call c' ∧ w'.channelAt a = some c' := by
      cases exec_ok hok with
      | @opens ctx args hcall ho =>
        obtain rfl : ctx.channel = a := Option.some_inj.mp ((congrArg Call.channel hcall).symm.trans ha)
        have hfresh := ho.fresh
        rw [hn] at hfresh
        exact absurd hfresh (by simp)
      | @updates a' c₀ c' ha' hu hs =>
        obtain rfl := Option.some_inj.mp (ha'.symm.trans ha)
        obtain ⟨n', hn', -, hch⟩ := hs.stored
        rw [hn', Option.some_inj, ChannelEntry.mk.injEq] at hn
        obtain ⟨rfl, rfl⟩ := hn
        exact ⟨c', hu, World.channelAt_eq_some.mpr ⟨_, by rw [hch, AList.lookup_insert]⟩⟩
      | outside ha' _ _ => exact absurd (ha'.symm.trans ha) (by simp)
    obtain ⟨c', hu, hc'⟩ := hupdate
    rw [hc']
    refine ⟨ctx, args, (w, call) :: l, w₁, ?_, hpos,
      recorded_of_update hr hu (next_of_update hr hok hc ha hu)⟩
    rw [callsOn_cons_self ha, hcalls]
    rfl
  · obtain ⟨n, hn⟩ := World.channelAt_eq_some.mp hc
    have hsame : w'.channelAt a = some c := by
      rcases exec_entry hok hn with hsame | ⟨c', ha', -⟩
      · exact World.channelAt_eq_some.mpr ⟨n, hsame⟩
      · exact absurd ha' ha
    rw [hsame]
    exact ⟨ctx, args, l, w₁, (callsOn_cons_ne ha).trans hcalls, hpos, hr⟩

/-! ### Runs -/

theorem history_of_run (hnew : w₀.channelAt a = none) (hrun : Run (exec sha) w₀ h w) :
    History a h (w.channelAt a) := by
  induction hrun with
  | start =>
    rw [hnew]
    rfl
  | @step h w w' call _ hok ih =>
    rcases hc : w.channelAt a with _ | c
    · rw [hc] at ih
      exact history_absent ih (Option.map_eq_none_iff.mp hc) hok
    · rw [hc] at ih
      exact history_present ih hc hok

/-- An account says what the calls on its channel say, the first of which opened it. -/
theorem account_of_history (hnew : w₀.channelAt a = none) (hrun : Run (exec sha) w₀ h w)
    (hc : w.channelAt a = some c) : ∃ ctx args l w₁,
      callsOn a h = l ++ [(w₁, .openChannel ctx args)] ∧ Recorded ctx args l c := by
  have hh := history_of_run hnew hrun
  rw [hc] at hh
  obtain ⟨ctx, args, l, w₁, hcalls, -, hr⟩ := hh
  exact ⟨ctx, args, l, w₁, hcalls, hr⟩

/-- A channel that was opened and settled, and paid two claims. -/
theorem account_of_history_claimed : ∃ h w c, Run (exec Sha256.sha256) Stolen.start h w ∧
    w.channelAt (.channel Stolen.channelId) = some c ∧ ∃ ctx args l w₁,
      callsOn (.channel Stolen.channelId) h = l ++ [(w₁, .openChannel ctx args)] ∧
      Recorded ctx args l c := by
  obtain ⟨h, w, hrun, -, hc⟩ := Twice.reached
  obtain ⟨c, hc, -⟩ := Option.map_eq_some_iff.mp hc
  exact ⟨h, w, c, hrun, hc, account_of_history rfl hrun hc⟩

/-! ### The last call -/

theorem next_closed (call : Call) : ChannelStatus.closed.next call = none := by
  cases call <;> rfl

/-- Nothing is done on a channel after it was closed. -/
theorem eq_nil_of_closed {l₂ l₁ : List (World × Call)} {stage : ChannelStatus}
    (hclosed : stageAfter l₁ = some .closed) (hafter : stageAfter (l₂ ++ l₁) = some stage) :
    l₂ = [] := by
  induction l₂ generalizing stage with
  | nil => rfl
  | cons p l₂ ih =>
    rw [List.cons_append, stageAfter] at hafter
    obtain ⟨before, hbefore, hnext⟩ := Option.bind_eq_some_iff.mp hafter
    obtain rfl := ih hbefore
    rw [List.nil_append, hclosed] at hbefore
    rw [← Option.some_inj.mp hbefore, next_closed] at hnext
    exact absurd hnext (by simp)

/-- What party A and party B put in is what the account counts. -/
theorem Recorded.deposits (hr : Recorded ctx args l c) (hpos : 0 < args.depositA.toNat) :
    Deposits c := by
  have hA : c.depositA = args.depositA := congrArg Terms.depositA hr.terms_eq
  refine ⟨?_, hA ▸ hpos⟩
  rw [hA, hr.depositB_eq, hr.totalDeposited_eq]

/-- The refunds make up, with what was claimed, all that was put in. -/
theorem Recorded.claims_add_refunds (hr : Recorded ctx args l c) (hpos : 0 < args.depositA.toNat) :
    ((payments l).map Prod.snd).sum + (c.refundA + c.refundB) =
      args.depositA.toNat + (fundings l).sum := by
  have hle := hr.totalClaimed_le
  rw [(hr.deposits hpos).refunds_eq, ← hr.totalClaimed_eq, ← hr.totalDeposited_eq,
    ChannelAccount.unclaimed]
  omega

/-- A finalization after the calls `h` moves two refunds out of the escrow that, with what was claimed
before, are all that was put in. -/
def PaysInFull (sha : List UInt8 → Bytes 32) (fin : FinalizeSettlement) (h : List (World × Call))
    (w : World) : Prop :=
  ∃ ctx args l w_o refundA refundB mid w',
    callsOn fin.channel h = l ++ [(w_o, .openChannel ctx args)] ∧
    ((payments l).map Prod.snd).sum + (refundA + refundB) =
      args.depositA.toNat + (fundings l).sum ∧
    exec sha (.finalizeSettlement fin) w = .ok w' ∧
    Moved w.tokens mid (.escrow args.channelId) fin.vaultA refundA ∧
    Moved mid w'.tokens (.escrow args.channelId) fin.vaultB refundB

/-- Finalization pays in full, and is the last call on a channel. -/
theorem finalized_in_full {fin : FinalizeSettlement} {h₁ h₂ : List (World × Call)} {w₁ : World}
    (hnew : w₀.channelAt fin.channel = none)
    (hrun : Run (exec sha) w₀ (h₂ ++ (w₁, .finalizeSettlement fin) :: h₁) w) :
    PaysInFull sha fin h₁ w₁ ∧ callsOn fin.channel h₂ = [] := by
  obtain ⟨w₂, hbefore, hok, -⟩ := hrun.split
  obtain ⟨c, c', hu, hs⟩ := @finalizeSettlement_update sha _ _ _ hok
  obtain ⟨n, hn, -⟩ := hs.stored
  have hc : w₁.channelAt fin.channel = some c := World.channelAt_eq_some.mpr ⟨n, hn⟩
  have hh := history_of_run hnew hbefore
  rw [hc] at hh
  obtain ⟨ctx, args, l, w_o, hcalls, hpos, hr⟩ := hh
  have hid : c.channelId = args.channelId := congrArg Terms.channelId hr.terms_eq
  cases hu with
  | finalize checked _ moved =>
    obtain ⟨mid, hA, hB⟩ := moved
    rw [hid] at hA hB
    refine ⟨⟨ctx, args, l, w_o, c.refundA, c.refundB, mid, w₂, hcalls, hr.claims_add_refunds hpos,
      hok, hA, hB⟩, ?_⟩
    -- The account at the end of the run has a stage, so nothing came after the last one.
    have hall := history_of_run hnew hrun
    have hsplit : callsOn fin.channel (h₂ ++ (w₁, .finalizeSettlement fin) :: h₁) =
        (callsOn fin.channel h₂ ++ (w₁, .finalizeSettlement fin) :: l) ++
          [(w_o, .openChannel ctx args)] := by
      rw [callsOn, List.filter_append, List.append_assoc, List.cons_append, ← hcalls]
      exact congrArg (_ ++ ·) (callsOn_cons_self rfl)
    have hclosed : stageAfter ((w₁, .finalizeSettlement fin) :: l) = some .closed := by
      rw [stageAfter, hr.stage_eq, checked.status_eq]
      rfl
    rcases hend : w.channelAt fin.channel with _ | last
    · rw [hend] at hall
      have hnil : callsOn fin.channel (h₂ ++ (w₁, .finalizeSettlement fin) :: h₁) = [] := hall
      rw [hsplit] at hnil
      exact absurd hnil (by simp)
    · rw [hend] at hall
      obtain ⟨_, _, l', _, hcalls', -, hr'⟩ := hall
      obtain ⟨rfl, -⟩ := List.append_inj' (hsplit.symm.trans hcalls') rfl
      exact eq_nil_of_closed hclosed hr'.stage_eq

/-- The user finalizes a channel without claims. -/
theorem finalized_in_full_honest : ∃ h w w',
    Run (exec Sha256.sha256) Stolen.start ((w, .finalizeSettlement Redirected.honest) :: h) w' ∧
    PaysInFull Sha256.sha256 Redirected.honest h w ∧
    callsOn (.channel Stolen.channelId) [] = [] := by
  obtain ⟨h, w, hrun, -, hok, -⟩ := Redirected.reached_honest
  obtain ⟨w', hok⟩ := exists_of_isOk hok
  have hrun' : Run (exec Sha256.sha256) Stolen.start
      ([] ++ (w, .finalizeSettlement Redirected.honest) :: h) w' := .step hrun hok
  exact ⟨h, w, w', hrun', finalized_in_full rfl hrun'⟩

end

end Program
