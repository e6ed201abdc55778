/-
What is recorded of a session.

A transaction that goes out from a session is recorded by the client that sends it, and once more by
`execute_payment_atomic`, which records a voucher against the session as well.  And a transaction that
the client has given up may still land.

* `Exactly.transfer`, `Exactly.record`, `Exactly.tick` — a record that says what was paid goes on to do
  so, with one record for each payment;
* `flown_of_turn` — where nothing was paid from a session, nothing is on the way;
* `session_recorded_exactly` — the records are exact in every run in which each payment is recorded
  once and no voucher is;
* `recorded_inexactly` — one payment of 60 after which 120 are spent.
-/
import IgnitePay.Agent.SessionLimits

namespace Agent

open Bytes Machine Solana

/-! ### The agent and the chain -/

structure Chain where
  world : World
  /-- The transactions that the client sent and took for failed. -/
  givenUp : List Payment
  /-- Those of them that landed. -/
  late : List Payment

/-- What was paid. -/
def Chain.paid (s : Chain) : List Payment := s.late ++ s.world.shared.payments

/-- The payment that a section would have made, had its transaction been confirmed. -/
def attempted (server : Server) (s : World) : Event → Option Payment
  | .runs i a =>
    let t := s.tasks i
    match t.stage with
    | .executing e =>
      match executePaymentAuto server a e t.amount s.shared.now with
      | some _ => none
      | none =>
        match executePaymentAuto server { a with confirmed := true } e t.amount s.shared.now with
        | some (.transfer k) => some (paymentOf i e (some k) t s.shared)
        | _ => none
    | _ => none
  | .ticks _ => none

inductive ChainEvent
  | agent (ev : Event)
  /-- A transaction lands that was given up. -/
  | lands (n : ℕ)

def Chain.step (server : Server) : ChainEvent → Chain → Except Unit Chain
  | .agent ev, s => do
    let world ← exec server ev s.world
    pure { s with world, givenUp := (attempted server s.world ev).toList ++ s.givenUp }
  | .lands n, s =>
    match s.givenUp[n]? with
    | some p => .ok { s with givenUp := s.givenUp.eraseIdx n, late := p :: s.late }
    | none => .error ()

/-! ### Exact records -/

/-- The stored sessions are charged with what was paid from them, and their counters with the payments
of the day, but for a payment that is not yet recorded. -/
def Chain.RecordedExactly (s : Chain) : Prop :=
  ∀ k d, s.world.shared.sessions.lookup k = some d → flying s.world k = none →
    d.currentSpent.toNat = total (paidFrom k s.paid) ∧
      d.counted s.world.shared.now = countOn (day s.world.shared.now) (paidFrom k s.paid)

/-- A payment has been made and the client has not recorded it. -/
def Stage.unrecorded : Stage → Bool
  | .clientReads _ _ | .clientWrites _ _ _ => true
  | _ => false

/-- The client's record goes through and adds up, that of `execute_payment_atomic` does not; and a session
is only stored under a key that nothing has been paid from. -/
def Task.once (server : Server) (a : Answer) (x : Shared) (t : Task) : Bool :=
  match t.stage with
  | .clientWrites _ _ d => a.stored && decide (d.currentSpent.toNat + t.amount.toNat < 2 ^ 64 ∧
      d.currentDailyCount.toNat + 1 < 2 ^ 32)
  | .agentWrites _ _ _ _ => !a.stored
  | .executing _ => true
  | _ => t.careful server a x

/-- The clock does not go back, and not to another day while a payment is not recorded; and no
transaction lands that was given up. -/
def recordsOnce (server : Server) (s : Chain) : ChainEvent → Bool
  | .agent (.runs i a) => (s.world.tasks i).once server a s.world.shared
  | .agent (.ticks now) => decide (s.world.shared.now ≤ now) &&
      s.world.shared.mutex.all fun i =>
        !(s.world.tasks i).stage.unrecorded || decide (day now = day s.world.shared.now)
  | .lands _ => false

/-! ### A record and the payments -/

/-- A record says what was paid from the session, but for a payment that is not yet recorded. -/
structure Exactly (paid : List Payment) (now : ℕ) (d : SessionTokenData) (flying : Option UInt64) :
    Prop where
  spent : total paid = d.currentSpent.toNat + flying.elim 0 UInt64.toNat
  today : countOn (day now) paid = d.counted now + flying.elim 0 fun _ => 1
  reset : d.lastDailyReset ≤ todayStart now

section

variable {paid : List Payment} {p : Payment} {now now' : ℕ} {d : SessionTokenData}
  {flying : Option UInt64} {amount : UInt64}

theorem Exactly.unspent (hspent : d.currentSpent = 0) (hcount : d.currentDailyCount = 0)
    (hreset : d.lastDailyReset ≤ todayStart now) : Exactly [] now d none := by
  refine ⟨?_, ?_, hreset⟩
  · rw [hspent]
    rfl
  · have hzero : d.counted now = 0 := by
      rw [SessionTokenData.counted, hcount]
      split
      · rfl
      · rfl
    rw [hzero]
    rfl

theorem Exactly.transfer (h : Exactly paid p.paidAt d none) :
    Exactly (p :: paid) p.paidAt d (some p.amount) := by
  have hspent : total paid = d.currentSpent.toNat := h.spent
  have htoday : countOn (day p.paidAt) paid = d.counted p.paidAt := h.today
  refine ⟨?_, ?_, h.reset⟩
  · rw [total_cons, hspent]
    exact Nat.add_comm _ _
  · rw [countOn_cons, if_pos rfl, htoday]
    rfl

/-- The payment is recorded, and the numbers fit. -/
theorem Exactly.record (h : Exactly paid now d (some amount))
    (hsum : d.currentSpent.toNat + amount.toNat < 2 ^ 64) (hcount : d.currentDailyCount.toNat + 1 < 2 ^ 32) :
    Exactly paid now (d.recordSpent amount now) none := by
  have hspent : total paid = d.currentSpent.toNat + amount.toNat := h.spent
  have htoday : countOn (day now) paid = d.counted now + 1 := h.today
  constructor
  · show total paid = (saturatingAdd d.currentSpent amount).toNat + 0
    rw [toNat_saturatingAdd, hspent]
    omega
  · rw [htoday]
    show d.counted now + 1 = (d.recordSpent amount now).counted now + 0
    by_cases hreset : d.lastDailyReset < todayStart now
    · simp only [SessionTokenData.counted, SessionTokenData.recordSpent, if_pos hreset, lt_irrefl,
        if_false]
      rfl
    · simp only [SessionTokenData.counted, SessionTokenData.recordSpent, if_neg hreset]
      rw [toNat_saturatingAddU32]
      show _ = min (d.currentDailyCount.toNat + 1) (2 ^ 32 - 1) + 0
      omega
  · show (if d.lastDailyReset < todayStart now then todayStart now else d.lastDailyReset) ≤ todayStart now
    split
    · exact le_rfl
    · exact h.reset

/-- The clock goes on. -/
theorem Exactly.tick (h : Exactly paid now d flying) (hle : now ≤ now')
    (hpast : ∀ p ∈ paid, p.paidAt ≤ now) (hday : flying = none ∨ day now' = day now) :
    Exactly paid now' d flying := by
  have hreset := h.reset
  rw [todayStart_eq] at hreset
  by_cases hsame : day now' = day now
  · refine ⟨h.spent, ?_, ?_⟩
    · rw [hsame, counted_eq_of_day hsame]
      exact h.today
    · rw [todayStart_eq, hsame]
      exact hreset
  · -- A new day: nothing was paid on it, and the counter starts anew.
    have hlater : day now < day now' := by
      rw [day, day] at hsame ⊢
      omega
    have hnone : countOn (day now') paid = 0 := by
      refine List.countP_eq_zero.mpr fun p hp => ?_
      have := hpast p hp
      rw [decide_eq_true_eq]
      rw [day, day] at hlater
      rw [day, day]
      omega
    have hanew : d.lastDailyReset < todayStart now' := by
      rw [todayStart_eq]
      omega
    obtain rfl := hday.resolve_right hsame
    refine ⟨h.spent, ?_, hanew.le⟩
    rw [hnone, SessionTokenData.counted, if_pos hanew]
    rfl

end

/-! ### One section -/

section

variable {server : Server} {i : ℕ} {a : Answer} {t t' : Task} {x x' : Shared} {stage' : Stage}
  {flying : Pubkey → Option UInt64} {k : Pubkey}

theorem unrecorded_of_flying (h : t.flying k ≠ none) : t.stage.unrecorded = true := by
  rw [Task.flying] at h
  split at h
  · next here => rw [here]; rfl
  · next here => rw [here]; rfl
  · exact absurd rfl h

theorem careful_of_once (h : t.once server a x = true) (hunlocked : t.stage.locked = false) :
    t.careful server a x = true := by
  rw [Task.once] at h
  split at h
  · next here => exact absurd hunlocked (by rw [here]; simp [Stage.locked])
  · next here => exact absurd hunlocked (by rw [here]; simp [Stage.locked])
  · next here => exact absurd hunlocked (by rw [here]; simp [Stage.locked])
  · exact h

/-- The record of `execute_payment_atomic` does not go through. -/
theorem unchanged_of_once {e : Execution} {proof : PaymentProof} {d : SessionTokenData}
    (h : t.once server a x = true) (here : t.stage = .agentWrites e proof k d)
    (hnext : t.next server i a x = .ok (t', x')) : x' = x := by
  rw [Task.once, here] at h
  have hstored : a.stored = false := by simpa using h
  rw [Task.next, here] at hnext
  obtain ⟨-, rfl⟩ := Prod.mk.inj (Except.ok.inj hnext)
  rw [hstored]
  exact if_neg Bool.false_ne_true

theorem upkeep_exactly (honce : t.once server a x = true)
    (hflown : ∀ k, paidFrom k x.payments = [] → flying k = none)
    (hnext : t.next server i a x = .ok (t', x')) : Upkeep Exactly server i a t x x' flying where
  opens k d hk hfresh := by
    have hunlocked : t.stage.locked = false := by
      rw [Task.opening] at hk
      split at hk
      · next here => rw [here]; rfl
      · next here => rw [here]; rfl
      · exact hk.elim
    have hnone := paidFrom_opening (careful_of_once honce hunlocked) hk
    rw [hflown k hnone, hnone]
    exact .unspent hfresh.spent hfresh.count hfresh.reset.le
  transfers e k d _ _ _ hbefore := @Exactly.transfer _ (paymentOf i e (some k) t x) d hbefore
  stores e k here := by
    rcases here with here | ⟨d, here⟩
    · rw [Task.once, here] at honce
      have hcareful : t.careful server a x = true := honce
      exact stored_of_careful hcareful (.inl here)
    · rw [Task.once, here] at honce
      exact (Bool.and_eq_true_iff.mp honce).1
  writes e k d here hbefore := by
    rw [Task.once, here] at honce
    obtain ⟨hsum, hcount⟩ := of_decide_eq_true (Bool.and_eq_true_iff.mp honce).2
    exact hbefore.record hsum hcount
  rewrites e proof k d here hchanged := absurd (unchanged_of_once honce here hnext) hchanged

end

/-! ### Runs -/

section

variable {server : Server} {i : ℕ} {a : Answer} {x' : Shared} {stage' : Stage}
  {s s' : World} {k : Pubkey}

/-- A payment that is on the way from a session was made. -/
theorem flown_of_turn (hs : Exclusive s)
    (effect : Effect server i a (s.tasks i) s.shared stage' x')
    (hflown : ∀ k, paidFrom k s.shared.payments = [] → flying s k = none)
    (hnone : paidFrom k x'.payments = []) :
    flying ⟨x', Function.update s.tasks i ((s.tasks i).to stage')⟩ k = none := by
  rcases heldBy_of_turn (fun _ => flying_of_unlocked) hs effect with ⟨hbefore, hafter⟩ | hother
  · -- The task that holds the mutex, now or after the section.
    have hbefore : flying s = (s.tasks i).flying := hbefore
    have hafter : flying ⟨x', Function.update s.tasks i ((s.tasks i).to stage')⟩
        = ((s.tasks i).to stage').flying := hafter
    rw [hafter]
    by_contra hsome
    have hstage := unrecorded_of_flying hsome
    cases effect with
    | @transfers e k' here paid =>
      have hk : k' = k := by
        by_contra hne
        exact hsome (if_neg hne)
      rw [hk, paidFrom_pay, if_pos rfl] at hnone
      exact absurd hnone (by simp)
    | @clientReads e k' d here read =>
      have hsame : (s.tasks i).flying k = ((s.tasks i).to (.clientWrites e k' d)).flying k := by
        rw [flying_of_stage here]
        rfl
      rw [← hsame, ← hbefore] at hsome
      exact hsome (hflown k hnone)
    | locks here free next =>
      rcases next with rfl | ⟨rfl, -⟩ <;> exact absurd hstage (by simp [Task.to, Stage.unrecorded])
    | clientSkips here absent ends | clientWrites here ends =>
      cases ends <;> exact absurd hstage (by simp [Task.to, Stage.unrecorded])
    | records here ends =>
      rcases ends with ⟨r, rfl⟩ | ⟨action, resp, rfl⟩ <;>
        exact absurd hstage (by simp [Task.to, Stage.unrecorded])
    | _ => exact absurd hstage (by simp [Task.to, Stage.unrecorded])
  · obtain ⟨hunlocked, -, hsame⟩ := hother
    have hsame : flying ⟨x', Function.update s.tasks i ((s.tasks i).to stage')⟩ = flying s := hsame
    rw [hsame]
    rw [effect.payments_eq hunlocked] at hnone
    exact hflown k hnone

end

/-- What holds in every state of a run in which each payment is recorded once. -/
structure Chain.Matches (s : Chain) : Prop where
  exclusive : Exclusive s.world
  past : ∀ p ∈ s.world.shared.payments, p.paidAt ≤ s.world.shared.now
  flown : ∀ k, paidFrom k s.world.shared.payments = [] → flying s.world k = none
  recorded : RecordedBy Exactly s.world.shared (flying s.world)
  holds : ∀ i, (s.world.tasks i).HoldsBy Exactly s.world.shared
  onTime : s.late = []

/-- At the start nothing is paid, and nothing spent. -/
structure Chain.Starts (s : Chain) : Prop where
  idle : Idle s.world
  unspent : ∀ k d, s.world.shared.sessions.lookup k = some d →
    d.currentSpent = 0 ∧ d.currentDailyCount = 0 ∧ d.lastDailyReset ≤ todayStart s.world.shared.now
  givenUp : s.givenUp = []
  late : s.late = []

namespace Chain

variable {server : Server} {s₀ s s' : Chain} {ev : ChainEvent} {h : List (Chain × ChainEvent)}

theorem Starts.matches (hs : s₀.Starts) : s₀.Matches where
  exclusive := hs.idle.exclusive
  past := by
    rw [hs.idle.payments_eq]
    simp
  flown k _ := congrFun (heldBy_of_free hs.idle.free) k
  recorded k d hlookup := by
    obtain ⟨hspent, hcount, hreset⟩ := hs.unspent k d hlookup
    have hfree : flying s₀.world = fun _ => none := heldBy_of_free hs.idle.free
    rw [hs.idle.payments_eq, hfree]
    exact .unspent hspent hcount hreset
  holds i := holds_of_unlocked (hs.idle.outside i)
  onTime := hs.late

theorem Matches.of_ticks {now : ℕ} {givenUp : List Payment} (hs : s.Matches)
    (honce : recordsOnce server s (.agent (.ticks now)) = true) :
    Matches ⟨⟨{ s.world.shared with now }, s.world.tasks⟩, givenUp, s.late⟩ := by
  obtain ⟨hle, hholder⟩ := Bool.and_eq_true_iff.mp honce
  have hle := of_decide_eq_true hle
  have hpast : ∀ k, ∀ p ∈ paidFrom k s.world.shared.payments, p.paidAt ≤ s.world.shared.now :=
    fun k p hp => hs.past p (List.mem_of_mem_filter hp)
  -- The day can only change while no payment waits to be recorded.
  have hday : ∀ i, (s.world.tasks i).stage.unrecorded = true →
      s.world.shared.mutex = some i → day now = day s.world.shared.now := by
    intro i hstage hmutex
    rw [hmutex, Option.all_some, hstage] at hholder
    exact of_decide_eq_true (by simpa using hholder)
  refine ⟨hs.exclusive, fun p hp => (hs.past p hp).trans hle, hs.flown, ?_, ?_, hs.onTime⟩
  · intro k d hlookup
    refine (hs.recorded k d hlookup).tick hle (hpast k) ?_
    rcases hmutex : s.world.shared.mutex with - | i
    · exact .inl (congrFun (heldBy_of_free hmutex) k)
    · by_cases hflying : (s.world.tasks i).flying k = none
      · left
        show flying s.world k = none
        rw [flying, heldBy_of_holder hmutex]
        exact hflying
      · exact .inr (hday i (unrecorded_of_flying hflying) hmutex)
  · intro i
    have hholds := hs.holds i
    show (s.world.tasks i).HoldsBy Exactly _
    rw [Task.HoldsBy] at hholds ⊢
    split at hholds
    · next here =>
      have hmutex := (hs.exclusive i).mp (by rw [here]; rfl)
      exact hholds.tick hle (hpast _) (.inr (hday i (by rw [here]; rfl) hmutex))
    · exact hholds.tick hle (hpast _) (.inl rfl)
    · trivial

theorem Matches.of_step (hs : s.Matches) (honce : recordsOnce server s ev = true)
    (hstep : Chain.step server ev s = .ok s') : s'.Matches := by
  cases ev with
  | lands n => exact absurd honce Bool.false_ne_true
  | agent ev =>
    obtain ⟨world, hexec, hs'⟩ := bind_eq_ok.mp hstep
    obtain rfl := Except.ok.inj hs'
    have hexclusive := hs.exclusive.of_exec hexec
    cases ev with
    | ticks now =>
      obtain rfl := Except.ok.inj hexec
      exact hs.of_ticks honce
    | runs i a =>
      obtain ⟨t', x', hnext, rfl⟩ := System.turn_eq_ok.mp hexec
      obtain ⟨stage', rfl, effect⟩ := effect_of_next hnext
      obtain ⟨hrecorded, hholds⟩ :=
        kept_of_turn hs.exclusive (upkeep_exactly honce hs.flown hnext) effect hs.recorded hs.holds
      exact ⟨hexclusive, fun p hp => past_of_effect effect hs.past hp,
        fun k hnone => flown_of_turn hs.exclusive effect hs.flown hnone, hrecorded, hholds, hs.onTime⟩

end Chain

/-- Every stored session is charged with exactly what was paid from it, and with nothing else, in every
run in which each payment is recorded once. -/
theorem session_recorded_exactly {server : Server} {s₀ s : Chain} {h : List (Chain × ChainEvent)}
    (hstart : s₀.Starts) (hrun : Run (Chain.step server) s₀ h s)
    (honce : ∀ c ∈ h, recordsOnce server c.1 c.2 = true) : s.RecordedExactly := by
  have hmatches : s.Matches :=
    Run.invariant_of (P := Chain.Matches) (fun s ev => recordsOnce server s ev = true) hstart.matches
      (fun _ _ _ hs hall hstep => hs.of_step hall hstep) hrun honce
  intro k d hlookup hflying
  have hexactly := hmatches.recorded k d hlookup
  rw [hflying] at hexactly
  rw [Chain.paid, hmatches.onTime]
  exact ⟨hexactly.spent.symm, hexactly.today.symm⟩

namespace Sample

/-- One session with 1000, and challenges for 60. -/
def recording : Chain := ⟨sharing 1000, [], []⟩

theorem starts_recording : recording.Starts where
  idle := idle_challenges _ _ _
  unspent k d hlookup := by
    have hlookup : ((∅ : SessionStore).insert sessionKey (session 1000)).lookup k = some d := hlookup
    rw [Store.lookup_insert_eq] at hlookup
    split at hlookup
    · obtain rfl := Option.some.inj hlookup
      exact ⟨rfl, rfl, by decide⟩
    · exact absurd hlookup (by simp)
  givenUp := rfl
  late := rfl

/-- What was spent from the session, and what was paid from it. -/
def spentAndPaid (s : Chain) : Option ℕ × ℕ :=
  ((s.world.shared.sessions.lookup sessionKey).map fun d => d.currentSpent.toNat,
    total (paidFrom sessionKey s.paid))

end Sample

/-- A payment whose second record does not go through. -/
theorem recorded_once : ∃ h s, Run (Chain.step Sample.server) Sample.recording h s ∧
    Sample.spentAndPaid s = (some 60, 60) ∧ s.RecordedExactly := by
  have ht : (Run.record (Chain.step Sample.server)
      ((List.replicate 6 Sample.transacting ++
        [{ Sample.transacting with stored := false }, Sample.transacting]).map fun a =>
          .agent (.runs 0 a)) [] Sample.recording).toOption.any (fun r =>
      decide (Sample.spentAndPaid r.2 = (some 60, 60)) &&
        r.1.all fun c => recordsOnce Sample.server c.1 c.2) = true := by
    decide +kernel
  obtain ⟨h, s, hrun, ht⟩ := Run.exists_of_record ht
  obtain ⟨hspent, honce⟩ := Bool.and_eq_true_iff.mp ht
  exact ⟨h, s, hrun, of_decide_eq_true hspent,
    session_recorded_exactly Sample.starts_recording hrun (List.all_eq_true.mp honce)⟩

/-- A payment of 60 as it should be: it is recorded twice. -/
theorem recorded_inexactly : ¬ ∀ (server : Server) (s₀ s : Chain) (h : List (Chain × ChainEvent)),
    s₀.Starts → Run (Chain.step server) s₀ h s → s.RecordedExactly := by
  intro hall
  have ht : (Run.record (Chain.step Sample.server)
      ((List.replicate 9 Sample.transacting).map fun a => .agent (.runs 0 a)) []
      Sample.recording).toOption.any (fun r =>
      decide (Sample.spentAndPaid r.2 = (some 120, 60)) && decide (r.2.world.shared.mutex = none)) = true := by
    decide +kernel
  obtain ⟨h, s, hrun, ht⟩ := Run.exists_of_record ht
  obtain ⟨hspent, hfree⟩ := Bool.and_eq_true_iff.mp ht
  obtain ⟨hspent, hpaid⟩ := Prod.mk.inj (of_decide_eq_true hspent)
  obtain ⟨d, hlookup, hd⟩ := Option.map_eq_some_iff.mp hspent
  have hflying : flying s.world Sample.sessionKey = none :=
    congrFun (heldBy_of_free (of_decide_eq_true hfree)) _
  obtain ⟨hexactly, -⟩ := hall Sample.server Sample.recording s h Sample.starts_recording hrun
    Sample.sessionKey d hlookup hflying
  have hd : d.currentSpent.toNat = 120 := hd
  rw [hd, hpaid] at hexactly
  exact absurd hexactly (by omega)

end Agent
