/-
The money of a channel, from its opening to its finalization.

The account counts what was deposited and what was claimed, and pays from the
token account at the escrow address.  But `open_channel` moves no tokens,
`fund_channel` moves them to the recorded `vault_b`, and `finalize_settlement`
pays to the two accounts its caller passes.  So whether the counters describe
the escrow, and whether the refunds reach the parties, is up to the arguments.

* `escrow_backed_iff` — when the escrow holds what the counters say;
* `pays_parties_iff` — when the refunds go to the recorded vaults;
* `window_iff` — when a settling channel has a slot for its claims.
-/
import IgnitePay.Program.ClaimedLeaves
import IgnitePay.Program.Challenge

namespace Program

open Bytes Machine Solana Token

/-! ### The escrow and the counters -/

/-- The calls of the life of the channel at `a` before its finalization, and the
passing of slots. -/
def OfLife (a : Address) (call : Call) : Prop :=
  match call with
  | .tick _ => True
  | .tokenTransfer .. => False
  | .finalizeSettlement _ => False
  | call => call.channel = some a

/-- The escrow of the channel holds what was deposited and not yet claimed. -/
def Backed (a : Address) (w : World) : Prop :=
  ∀ c, w.channelAt a = some c →
    balance w.tokens (.escrow c.channelId) + c.totalClaimed.toNat = c.totalDeposited.toNat

/-- The deposit of a new channel is in the escrow already, the one that funds it
goes from elsewhere to the escrow, and what is paid out leaves the escrow. -/
def KeepsBacked (a : Address) (w : World) (call : Call) : Prop :=
  match call with
  | .openChannel _ args => balance w.tokens (.escrow args.channelId) = args.depositA.toNat
  | .fundChannel ctx _ => ∀ c, w.channelAt a = some c →
      ctx.vaultB = .escrow c.channelId ∧ ctx.sourceVault ≠ .escrow c.channelId
  | .payout ctx p => ∀ c, w.channelAt a = some c → p.amount = 0 ∨ ctx.vault ≠ .escrow c.channelId
  | _ => True

section

variable {sha : List UInt8 → Bytes 32} {w₀ w w' : World} {c c' : ChannelAccount} {a : Address}
  {h : List (World × Call)}

theorem backed_iff (hc : w.channelAt a = some c) :
    Backed a w ↔
      balance w.tokens (.escrow c.channelId) + c.totalClaimed.toNat = c.totalDeposited.toNat := by
  constructor
  · intro hb
    exact hb c hc
  · intro hb c' hc'
    obtain rfl : c' = c := Option.some_inj.mp (hc'.symm.trans hc)
    exact hb

theorem forall_channelAt_iff {P : ChannelAccount → Prop} (hc : w.channelAt a = some c) :
    (∀ c', w.channelAt a = some c' → P c') ↔ P c := by
  constructor
  · intro h
    exact h c hc
  · intro h c' hc'
    obtain rfl : c' = c := Option.some_inj.mp (hc'.symm.trans hc)
    exact h

theorem amount_eq_zero_iff {n : UInt64} : n = 0 ↔ n.toNat = 0 :=
  UInt64.toNat_inj.symm

/-- What one update does to the escrow and the counters. -/
theorem backed_update_iff {call : Call} (hc : w.channelAt a = some c)
    (hc' : w'.channelAt a = some c') (hlife : OfLife a call) (hb : Backed a w)
    (hu : Update sha w w' c call c') : Backed a w' ↔ KeepsBacked a w call := by
  have hbefore := (backed_iff hc).mp hb
  rw [backed_iff hc']
  cases hu with
  | @fund ctx depositB total hf htotal hmoved =>
    rw [KeepsBacked, forall_channelAt_iff hc]
    have hescrow := hmoved (.escrow c.channelId)
    have hpos := hf.deposit_pos
    show balance w'.tokens (.escrow c.channelId) + c.totalClaimed.toNat = total.toNat ↔ _
    -- The escrow gains the deposit if the deposit goes there, unless it comes from there.
    by_cases hto : ctx.vaultB = .escrow c.channelId
    · rw [hto, amountAt_self] at hescrow
      by_cases hfrom : ctx.sourceVault = .escrow c.channelId
      · rw [hfrom, amountAt_self] at hescrow
        refine iff_of_false (by omega) fun hk => hk.2 hfrom
      · rw [amountAt_of_ne (Ne.symm hfrom)] at hescrow
        exact iff_of_true (by omega) ⟨hto, hfrom⟩
    · rw [amountAt_of_ne (Ne.symm hto)] at hescrow
      exact iff_of_false (by omega) fun hk => hto hk.1
  | @pay ctx p total hp htotal hmoved =>
    rw [KeepsBacked, forall_channelAt_iff hc, amount_eq_zero_iff]
    have hescrow := hmoved (.escrow c.channelId)
    rw [amountAt_self] at hescrow
    show balance w'.tokens (.escrow c.channelId) + total.toNat = c.totalDeposited.toNat ↔ _
    -- The amount leaves the escrow unless the vault is the escrow itself.
    rw [← amountAt_eq_zero]
    omega
  -- The others move no tokens and leave the counters as they are.
  | agree _ _ htokens => exact iff_of_true (htokens ▸ hbefore) trivial
  | trigger _ htokens => exact iff_of_true (htokens ▸ hbefore) trivial
  | counter _ htokens => exact iff_of_true (htokens ▸ hbefore) trivial
  | timeout _ _ htokens => exact iff_of_true (htokens ▸ hbefore) trivial
  | finalize _ _ _ => exact absurd hlife (by simp [OfLife])

theorem ofLife_channel {call : Call} {a' : Address} (hlife : OfLife a call)
    (hch : call.channel = some a') : a' = a := by
  cases call with
  | tick _ => exact absurd hch (by simp [Call.channel])
  | tokenTransfer _ _ _ _ => exact absurd hlife (by simp [OfLife])
  | finalizeSettlement _ => exact absurd hlife (by simp [OfLife])
  | _ => exact Option.some_inj.mp (hch.symm.trans hlife)

theorem backed_step_iff {call : Call} (hb : Backed a w) (hlife : OfLife a call)
    (hok : exec sha call w = .ok w') : Backed a w' ↔ KeepsBacked a w call := by
  cases exec_ok hok with
  | @opens ctx args hcall ho =>
    subst hcall
    have ha : ctx.channel = a := ofLife_channel hlife rfl
    have hc' : w'.channelAt a = some (.opened ctx args) := by
      refine World.channelAt_eq_some.mpr ⟨ChannelAccount.space args.treeDepth, ?_⟩
      rw [ho.channels_eq, ha, AList.lookup_insert]
    rw [backed_iff hc', ho.tokens_eq]
    exact Iff.rfl
  | @updates a' c c' hch hu hs =>
    obtain rfl := ofLife_channel hlife hch
    obtain ⟨n, hn, -, hchannels⟩ := hs.stored
    have hc' : w'.channels.lookup a' = some ⟨n, c'⟩ := by rw [hchannels, AList.lookup_insert]
    exact backed_update_iff (World.channelAt_eq_some.mpr ⟨n, hn⟩)
      (World.channelAt_eq_some.mpr ⟨n, hc'⟩) hlife hb hu
  | outside hch _ _ =>
    cases call with
    | tick slot =>
      simp only [exec, tick, bind_eq_ok, require_eq_ok, exists_const, pure, Except.pure,
        Except.ok.injEq] at hok
      obtain ⟨-, rfl⟩ := hok
      exact iff_of_true hb trivial
    | tokenTransfer _ _ _ _ => exact absurd hlife (by simp [OfLife])
    | _ => exact absurd hch (by simp [Call.channel])

/-- From the opening on, the escrow holds what the counters say exactly as long
as every call brings the tokens it counts. -/
theorem escrow_backed_iff (hnew : w₀.channelAt a = none) (hrun : Run (exec sha) w₀ h w)
    (hlife : ∀ p ∈ h, OfLife a p.2) :
    (∀ s ∈ Run.states h w, Backed a s) ↔ ∀ p ∈ h, KeepsBacked a p.1 p.2 := by
  refine Run.forall_states_iff (fun _ call => OfLife a call) ?_ ?_ hrun hlife
  · intro c hc
    rw [hnew] at hc
    exact absurd hc (by simp)
  · intro h w call w' _ hb hl hok
    exact backed_step_iff hb hl hok

end

namespace Unbacked

open Stolen

/-- The vaults, and no token in the escrow. -/
def start : World :=
  { Stolen.start with
    tokens := Stolen.start.tokens.insert (.escrow channelId)
      (tokenAccount (.escrow channelId) 0) }

theorem reached : ∃ h w, Run (exec Sha256.sha256) start h w ∧
    h.map Prod.snd = Outbid.opened.reverse ∧
    (w.channelAt (.channel channelId)).map (fun c => (c.channelId, c.totalClaimed,
      c.totalDeposited)) = some (channelId, 0, 1000) ∧
    balance w.tokens (.escrow channelId) = 0 :=
  Run.exists_of_test (by decide +kernel)

end Unbacked

/-- A channel with a deposit of 1000 and an empty escrow. -/
theorem escrow_unbacked :
    ¬ ∀ (sha : List UInt8 → Bytes 32) (a : Address) (w₀ w : World) (h : List (World × Call)),
      w₀.channelAt a = none → Run (exec sha) w₀ h w → (∀ p ∈ h, OfLife a p.2) → Backed a w := by
  intro hbacked
  obtain ⟨h, w, hrun, hcalls, hc, hzero⟩ := Unbacked.reached
  obtain ⟨c, hc, hfields⟩ := Option.map_eq_some_iff.mp hc
  obtain ⟨hid, hclaimed, hdeposited⟩ : c.channelId = Stolen.channelId ∧ c.totalClaimed = 0 ∧
      c.totalDeposited = 1000 := by simpa using hfields
  have hlife : ∀ p ∈ h, OfLife (.channel Stolen.channelId) p.2 := by
    refine Run.forall_of_calls (A := fun _ call => OfLife (.channel Stolen.channelId) call) hcalls
      fun call hcall _ => ?_
    rw [List.mem_singleton.mp hcall]
    rfl
  have hb := (backed_iff hc).mp (hbacked _ _ _ w h rfl hrun hlife)
  rw [hid, hzero, hclaimed, hdeposited] at hb
  exact absurd hb (by decide)

/-- A life with a claim, from an escrow that held the deposit before. -/
theorem escrow_backed_iff_claim : ∃ h w, Run (exec Sha256.sha256) Stolen.start h w ∧
    h.map Prod.snd = (Twice.settled ++ [Twice.claimAt 0]).reverse ∧
    ((∀ s ∈ Run.states h w, Backed (.channel Stolen.channelId) s) ↔
      ∀ p ∈ h, KeepsBacked (.channel Stolen.channelId) p.1 p.2) := by
  obtain ⟨h, w, hrun, hcalls, -⟩ := Twice.reached_once
  refine ⟨h, w, hrun, hcalls, escrow_backed_iff rfl hrun ?_⟩
  refine Run.forall_of_calls (A := fun _ call => OfLife (.channel Stolen.channelId) call) hcalls
    fun call hcall _ => ?_
  simp only [Twice.settled, List.cons_append, List.nil_append, List.mem_cons, List.not_mem_nil,
    or_false] at hcall
  rcases hcall with rfl | rfl | rfl <;> rfl

/-! ### The refunds -/

/-- What party A and party B put in is what the channel counts, and A put in
something. -/
structure Deposits (c : ChannelAccount) : Prop where
  sum_eq : c.depositA.toNat + c.depositB.toNat = c.totalDeposited.toNat
  pos : 0 < c.depositA.toNat

/-- The escrow pays the two refunds to the recorded vaults and nothing to any
other account, the refunds are all that is unclaimed, and an escrow that held
just that is left empty. -/
structure PaysParties (c : ChannelAccount) (w w' : World) : Prop where
  paid : ∀ x, balance w'.tokens x + amountAt (.escrow c.channelId) x c.unclaimed =
    balance w.tokens x + (amountAt c.vaultA x c.refundA + amountAt c.vaultB x c.refundB)
  complete : c.refundA + c.refundB + c.totalClaimed.toNat = c.totalDeposited.toNat
  emptied : balance w.tokens (.escrow c.channelId) = c.unclaimed →
    balance w'.tokens (.escrow c.channelId) = 0

/-- The caller passes the recorded vaults, as far as there is something for
them, or exchanges two equal refunds; and where the escrow is to be left empty,
no refund goes to a vault that is the escrow. -/
structure RightVaults (ctx : FinalizeSettlement) (c : ChannelAccount) (w : World) : Prop where
  vaults : ((c.refundA = 0 ∨ ctx.vaultA = c.vaultA) ∧ (c.refundB = 0 ∨ ctx.vaultB = c.vaultB)) ∨
    (ctx.vaultA = c.vaultB ∧ ctx.vaultB = c.vaultA ∧ c.refundA = c.refundB)
  outside : balance w.tokens (.escrow c.channelId) = c.unclaimed →
    (c.refundA = 0 ∨ c.vaultA ≠ .escrow c.channelId) ∧
      (c.refundB = 0 ∨ c.vaultB ≠ .escrow c.channelId)

section

variable {sha : List UInt8 → Bytes 32} {w₀ w w' : World} {c c' : ChannelAccount} {a : Address}
  {h : List (World × Call)} {n : ℕ} {ctx : FinalizeSettlement}

theorem deposits_of_run (hempty : w₀.channels = ∅) (hrun : Run (exec sha) w₀ h w)
    (hc : w.channels.lookup a = some ⟨n, c⟩) : Deposits c := by
  refine reachable_channels (P := fun _ c => Deposits c) hempty ?_ ?_ hrun hc
  · intro w w' ctx args ho
    exact ⟨Nat.add_zero _, ho.deposit_pos⟩
  · intro n w w' c call c' hd hu _
    cases hu with
    | @fund ctx depositB total hf htotal _ =>
      -- Party B had put in nothing.
      have hzero : c.depositB.toNat = 0 := amount_eq_zero_iff.mp hf.unfunded
      have hsum := hd.sum_eq
      refine ⟨?_, hd.pos⟩
      rw [hzero] at hsum
      show c.depositA.toNat + depositB.toNat = total.toNat
      omega
    | agree _ _ _ => exact ⟨hd.sum_eq, hd.pos⟩
    | trigger _ _ => exact ⟨hd.sum_eq, hd.pos⟩
    | counter _ _ => exact ⟨hd.sum_eq, hd.pos⟩
    | timeout _ _ _ => exact ⟨hd.sum_eq, hd.pos⟩
    | pay _ _ _ => exact ⟨hd.sum_eq, hd.pos⟩
    | finalize _ _ _ => exact ⟨hd.sum_eq, hd.pos⟩

/-- The refunds are all that is unclaimed. -/
theorem Deposits.refunds_eq (hd : Deposits c) : c.refundA + c.refundB = c.unclaimed := by
  have hle := refundA_le_unclaimed c
  have hpos := hd.pos
  rw [ChannelAccount.refundB, if_neg (by omega)]
  omega

/-- The two transfers of a finalization, seen from any account. -/
theorem balance_of_refunds {mid l l' : Ledger Address} {escrow vaultA vaultB : Address} {m n : ℕ}
    (hA : Moved l mid escrow vaultA m) (hB : Moved mid l' escrow vaultB n) (x : Address) :
    balance l' x + amountAt escrow x (m + n) =
      balance l x + (amountAt vaultA x m + amountAt vaultB x n) := by
  have h1 := hA x
  have h2 := hB x
  rw [amountAt_add]
  omega

/-- The refunds reach the recorded vaults exactly if those were passed. -/
theorem paid_iff (hd : Deposits c)
    (hactual : ∀ x, balance w'.tokens x + amountAt (.escrow c.channelId) x c.unclaimed =
      balance w.tokens x + (amountAt ctx.vaultA x c.refundA + amountAt ctx.vaultB x c.refundB))
    (hle : c.totalClaimed.toNat ≤ c.totalDeposited.toNat) :
    PaysParties c w w' ↔ RightVaults ctx c w := by
  have hrefunds := hd.refunds_eq
  -- What each account got is what it should have got, exactly if the vaults are right.
  have hvaults : (∀ x, balance w'.tokens x + amountAt (.escrow c.channelId) x c.unclaimed =
      balance w.tokens x + (amountAt c.vaultA x c.refundA + amountAt c.vaultB x c.refundB)) ↔
      ((c.refundA = 0 ∨ ctx.vaultA = c.vaultA) ∧ (c.refundB = 0 ∨ ctx.vaultB = c.vaultB)) ∨
        (ctx.vaultA = c.vaultB ∧ ctx.vaultB = c.vaultA ∧ c.refundA = c.refundB) := by
    rw [← amountAt_pair_iff]
    refine forall_congr' fun x => ?_
    have := hactual x
    omega
  -- An escrow that held just the refunds keeps what was sent back to it.
  have hkept : ∀ {l : ℕ}, l + c.unclaimed = c.unclaimed +
      (amountAt c.vaultA (.escrow c.channelId) c.refundA
        + amountAt c.vaultB (.escrow c.channelId) c.refundB) →
      (l = 0 ↔ (c.refundA = 0 ∨ c.vaultA ≠ .escrow c.channelId) ∧
        (c.refundB = 0 ∨ c.vaultB ≠ .escrow c.channelId)) := by
    intro l hl
    rw [← amountAt_eq_zero, ← amountAt_eq_zero]
    omega
  constructor
  · intro hp
    refine ⟨hvaults.mp hp.paid, fun hfull => ?_⟩
    have hat := hp.paid (.escrow c.channelId)
    rw [amountAt_self, hfull] at hat
    exact (hkept hat).mp (hp.emptied hfull)
  · intro hr
    have hpaid := hvaults.mpr hr.vaults
    refine ⟨hpaid, ?_, fun hfull => ?_⟩
    · rw [hrefunds, ChannelAccount.unclaimed]
      omega
    · have hat := hpaid (.escrow c.channelId)
      rw [amountAt_self, hfull] at hat
      exact (hkept hat).mpr (hr.outside hfull)

end

namespace Redirected

open Stolen

/-- The channel settles at once, with all of the deposit unclaimed. -/
def settled : List Call := Outbid.opened ++
  [.cooperativeSettle ⟨.channel channelId, Twice.agreement⟩ 0 root 0]

/-- The provider finalizes, with a vault of its own in both places. -/
def context : FinalizeSettlement :=
  ⟨.channel channelId, provider, .key (fill 32 21), .key (fill 32 21), .escrow channelId,
    sysvarBytes [(provider, channelMessage channelId 10 root)]⟩

theorem reached : ∃ h w, Run (exec Sha256.sha256) start h w ∧ h.map Prod.snd = settled.reverse ∧
    (w.channelAt (.channel channelId)).map (fun c => (c.vaultA, c.vaultB, c.refundA, c.refundB))
      = some (.key (fill 32 20), .key (fill 32 21), 1000, 0) ∧
    balance w.tokens (.key (fill 32 20)) = 0 ∧
    ((exec Sha256.sha256 (.finalizeSettlement context) w).toOption.any
      fun w' => decide (balance w'.tokens (.key (fill 32 20)) = 0)) = true :=
  Run.exists_of_test (by decide +kernel)

/-- The user finalizes, with the recorded vaults. -/
def honest : FinalizeSettlement :=
  ⟨.channel channelId, user, .key (fill 32 20), .key (fill 32 21), .escrow channelId, data⟩

theorem reached_honest : ∃ h w, Run (exec Sha256.sha256) start h w ∧
    h.map Prod.snd = settled.reverse ∧
    (exec Sha256.sha256 (.finalizeSettlement honest) w).isOk = true ∧
    (w.channelAt (.channel channelId)).isSome = true :=
  Run.exists_of_test (by decide +kernel)

end Redirected

/-- The window that a call passes for the claims, if it can start them. -/
def Call.settleWindow : Call → Option UInt64
  | .cooperativeSettle _ _ _ window => some window
  | .settleAfterTimeout _ window => some window
  | _ => none

/-- In slot `s` claims on the channel at `a` are not too late, and it cannot be
finalized yet. -/
def ClaimSlot (sha : List UInt8 → Bytes 32) (a : Address) (w : World) (s : UInt64) : Prop :=
  (∀ ctx args, ctx.channel = a →
    claim sha ctx args { w with slot := s } ≠ .error (.code .settlementExpired)) ∧
  ∀ ctx w', ctx.channel = a → finalizeSettlement ctx { w with slot := s } ≠ .ok w'

/-- The deadline of the channel is the slot in which it started to settle, plus
the window, without wrapping around; it is a later slot, and there is a slot
for the claims. -/
def HasWindow (sha : List UInt8 → Bytes 32) (a : Address) (w w' : World) (window : UInt64) : Prop :=
  ∃ c deadline, w'.channelAt a = some c ∧ c.settleDeadline = some deadline ∧
    deadline.toNat = w.slot.toNat + window.toNat ∧ w.slot < deadline ∧
      ∃ s, w.slot ≤ s ∧ ClaimSlot sha a w' s

section

variable {sha : List UInt8 → Bytes 32} {w w' : World} {c c' : ChannelAccount} {a : Address}

/-- Only a settlement makes a channel settle, and its deadline is the end of the
window. -/
theorem Update.settling {call : Call} (hu : Update sha w w' c call c')
    (hbefore : c.status ≠ .settling) (hafter : c'.status = .settling) :
    ∃ window deadline, call.settleWindow = some window ∧ c'.settleDeadline = some deadline ∧
      deadline.toNat = w.slot.toNat + window.toNat := by
  cases hu with
  | fund _ _ _ => exact absurd hafter hbefore
  | @agree _ _ window deadline _ _ hdeadline _ => exact ⟨window, deadline, rfl, rfl, hdeadline⟩
  | trigger _ _ => exact absurd hafter (by simp [ChannelAccount.triggered])
  | counter _ _ => exact absurd hafter hbefore
  | @timeout _ window deadline _ hdeadline _ => exact ⟨window, deadline, rfl, rfl, hdeadline⟩
  | pay _ _ _ => exact absurd hafter hbefore
  | finalize _ _ _ => exact absurd hafter (by simp [ChannelAccount.finalized])

theorem payOut_ne_expired (ctx : PayoutAccounts) (c : ChannelAccount) (i : UInt32)
    (amount : UInt64) (w : World) : payOut ctx c i amount w ≠ .error (.code .settlementExpired) := by
  intro h
  simp only [payOut, bind_eq_error, require_eq_error, orErr_eq_error, reduceCtorEq,
    Error.code.injEq, and_false, false_or] at h
  obtain ⟨total, -, _, -, h⟩ := h
  by_cases hpos : amount > 0
  · rw [if_pos hpos, bind_eq_error] at h
    rcases h with h | ⟨w₁, -, h⟩
    · exact transferTokens_ne (by simp) h
    · exact saveChannel_ne (by simp) h
  · rw [if_neg hpos] at h
    exact saveChannel_ne (by simp) h

/-- A claim is too late after the deadline only. -/
theorem claim_expired {ctx : PayoutAccounts} {args : ClaimArgs}
    (h : claim sha ctx args w = .error (.code .settlementExpired)) :
    ∃ c deadline, w.channelAt ctx.channel = some c ∧ c.settleDeadline = some deadline ∧
      deadline < w.slot := by
  simp (disch := simp) only [claim, bind_eq_error, require_eq_error, orErr_eq_error, orErr_eq_ok,
    loadPayout_ne, checkSignature_ne, payOut_ne_expired, reduceCtorEq,
    Error.code.injEq, and_false, false_or, or_false, exists_const, and_true] at h
  obtain ⟨c, hload, deadline, hdeadline, hlate⟩ := h
  exact ⟨c, deadline, (loadPayout_ok hload).1, hdeadline, UInt64.not_le.mp hlate⟩

/-- Before the deadline, a slot is for claims and not for the finalization. -/
theorem claimSlot_of_lt {s deadline : UInt64} (hc : w.channelAt a = some c)
    (hdeadline : c.settleDeadline = some deadline) (hlt : s < deadline) : ClaimSlot sha a w s := by
  have same : ∀ {c' : ChannelAccount} {deadline' : UInt64},
      World.channelAt { w with slot := s } a = some c' → c'.settleDeadline = some deadline' →
      deadline' = deadline := by
    intro c' deadline' hc' hdeadline'
    obtain rfl : c' = c := Option.some_inj.mp (hc'.symm.trans hc)
    exact Option.some_inj.mp (hdeadline'.symm.trans hdeadline)
  constructor
  · rintro ctx args rfl hexpired
    obtain ⟨c', deadline', hc', hdeadline', hlate⟩ := claim_expired hexpired
    obtain rfl := same hc' hdeadline'
    exact UInt64.lt_irrefl _ (UInt64.lt_trans hlt hlate)
  · rintro ctx w' rfl hok
    obtain ⟨c', hf⟩ := finalizeSettlement_ok hok
    obtain ⟨deadline', hdeadline', hle⟩ := hf.elapsed
    obtain rfl := same hf.channel_eq hdeadline'
    exact UInt64.lt_irrefl _ (UInt64.lt_of_lt_of_le hlt hle)

/-- An empty window is none. -/
theorem pos_of_hasWindow {window : UInt64} (h : HasWindow sha a w w' window) : 0 < window := by
  obtain ⟨_, deadline, -, -, hdeadline, hlt, -⟩ := h
  have hlt : w.slot.toNat < deadline.toNat := UInt64.lt_iff_toNat_lt.mp hlt
  exact UInt64.lt_iff_toNat_lt.mpr (show 0 < window.toNat by omega)

/-- However a channel starts to settle, it has a window for its claims exactly
if the window that was passed is not empty. -/
theorem window_iff {call : Call} (hok : exec sha call w = .ok w') (hc : w.channelAt a = some c)
    (hbefore : c.status ≠ .settling) (hc' : w'.channelAt a = some c')
    (hafter : c'.status = .settling) :
    ∃ window, call.settleWindow = some window ∧ (HasWindow sha a w w' window ↔ 0 < window) := by
  obtain ⟨n, hn⟩ := World.channelAt_eq_some.mp hc
  rcases exec_entry hok hn with hsame | ⟨c₁, -, hu, -, hafter'⟩
  · -- The call left the channel alone.
    obtain rfl : c = c' :=
      Option.some_inj.mp ((World.channelAt_eq_some.mpr ⟨n, hsame⟩).symm.trans hc')
    exact absurd hafter hbefore
  obtain rfl : c₁ = c' :=
    Option.some_inj.mp ((World.channelAt_eq_some.mpr ⟨n, hafter'⟩).symm.trans hc')
  obtain ⟨window, deadline, hwindow, hdeadline, heq⟩ := hu.settling hbefore hafter
  refine ⟨window, hwindow, pos_of_hasWindow, fun hpos => ?_⟩
  have hpos : 0 < window.toNat := UInt64.lt_iff_toNat_lt.mp hpos
  have hlt : w.slot < deadline := UInt64.lt_iff_toNat_lt.mpr (by omega)
  exact ⟨c₁, deadline, hc', hdeadline, heq, hlt, w.slot, UInt64.le_refl _,
    claimSlot_of_lt hc' hdeadline hlt⟩

end

namespace NoWindow

open Stolen

/-- The agreed settlement of the channel, with a window of choice. -/
def settle (window : UInt64) : Call :=
  .cooperativeSettle ⟨.channel channelId, Twice.agreement⟩ 0 root window

/-- It goes through and leaves the channel settling. -/
def settles (window : UInt64) (w : World) : Bool :=
  (exec Sha256.sha256 (settle window) w).toOption.any fun w' =>
    decide ((w'.channelAt (.channel channelId)).map ChannelAccount.status = some .settling)

theorem reached : ∃ h w, Run (exec Sha256.sha256) start h w ∧
    h.map Prod.snd = Outbid.opened.reverse ∧
    (w.channelAt (.channel channelId)).map ChannelAccount.status = some .opened ∧
    settles 0 w = true ∧ settles 100 w = true :=
  Run.exists_of_test (by decide +kernel)

theorem settling_of_settles {window : UInt64} {w : World} (h : settles window w = true) :
    ∃ w' c', exec Sha256.sha256 (settle window) w = .ok w' ∧
      w'.channelAt (.channel channelId) = some c' ∧ c'.status = .settling := by
  obtain ⟨w', hok, hafter⟩ := exists_of_any h
  obtain ⟨c', hc', hstatus⟩ := Option.map_eq_some_iff.mp (of_decide_eq_true hafter)
  exact ⟨w', c', hok, hc', hstatus⟩

end NoWindow

/-- A channel settles with an empty window. -/
theorem window_empty :
    ¬ ∀ (sha : List UInt8 → Bytes 32) (w w' : World) (call : Call) (a : Address)
      (c c' : ChannelAccount), exec sha call w = .ok w' → w.channelAt a = some c →
        c.status ≠ .settling → w'.channelAt a = some c' → c'.status = .settling →
          ∃ window, call.settleWindow = some window ∧ HasWindow sha a w w' window := by
  intro hall
  obtain ⟨h, w, -, -, hbefore, hsettles, -⟩ := NoWindow.reached
  obtain ⟨c, hc, hopen⟩ := Option.map_eq_some_iff.mp hbefore
  obtain ⟨w', c', hok, hc', hafter⟩ := NoWindow.settling_of_settles hsettles
  have hbefore : c.status ≠ .settling := by simp [hopen]
  obtain ⟨window, hwindow, hhas⟩ := hall _ w w' _ _ c c' hok hc hbefore hc' hafter
  obtain rfl : 0 = window := Option.some_inj.mp hwindow
  exact absurd (pos_of_hasWindow hhas) (by decide)

/-- A settlement with a window of 100 slots. -/
theorem window_iff_agreed : ∃ w w', exec Sha256.sha256 (NoWindow.settle 100) w = .ok w' ∧
    ∃ window, (NoWindow.settle 100).settleWindow = some window ∧
      (HasWindow Sha256.sha256 (.channel Stolen.channelId) w w' window ↔ 0 < window) := by
  obtain ⟨h, w, -, -, hbefore, -, hsettles⟩ := NoWindow.reached
  obtain ⟨c, hc, hopen⟩ := Option.map_eq_some_iff.mp hbefore
  obtain ⟨w', c', hok, hc', hafter⟩ := NoWindow.settling_of_settles hsettles
  have hbefore : c.status ≠ .settling := by simp [hopen]
  exact ⟨w, w', hok, window_iff hok hc hbefore hc' hafter⟩

end Program
