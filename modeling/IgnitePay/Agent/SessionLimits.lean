/-
The limits of a session.

A payment is tested against the record of its session as that was when the session was read, before
the mutex was taken.  So two payments that are tested one after the other can both be made, and a
session that the phone sends again starts with nothing spent.  Where each payment is within the
limits by the record as it is when the payment is executed, the limits are kept.

* `Covered.transfer`, `Covered.record`, `Covered.tick` — a record that covers what was paid goes on to
  cover it;
* `Effect.kept` — every section keeps such a relation between the records and what was paid, as long as
  it sees to what it has to;
* `session_limits` — the limits are kept in every run in which each step is careful;
* `limits_exceeded` — two challenges that read the session one after the other, and then both pay.
-/
import IgnitePay.Agent.Spec

namespace Agent

open Bytes Machine Solana

/-! ### What the limits say -/

/-- The payments that were made from the session. -/
def paidFrom (k : Pubkey) (payments : List Payment) : List Payment :=
  payments.filter fun p => decide (p.session = some k)

def total (paid : List Payment) : ℕ := (paid.map fun p => p.amount.toNat).sum

/-- The day that is counted, from 1970 on. -/
def day (now : ℕ) : ℕ := now / 86400

def countOn (on : ℕ) (paid : List Payment) : ℕ := paid.countP fun p => decide (day p.paidAt = on)

/-- What was paid from a session is within its limits. -/
structure WithinLimits (d : SessionTokenData) (paid : List Payment) : Prop where
  total_le : total paid ≤ d.spendingLimit.toNat
  perTx : d.perTxLimit ≠ 0 → ∀ p ∈ paid, p.amount ≤ d.perTxLimit
  daily : d.dailyTxCountLimit ≠ 0 → ∀ on, countOn on paid ≤ d.dailyTxCountLimit.toNat

/-- The limits of every stored session are kept. -/
def LimitsKept (s : World) : Prop :=
  ∀ k d, s.shared.sessions.lookup k = some d → WithinLimits d (paidFrom k s.shared.payments)

/-- A session is only stored under a key that nothing has been paid from; a payment is executed within
the limits of the record as it is then; and the record of the payment goes through. -/
def Task.careful (server : Server) (a : Answer) (x : Shared) (t : Task) : Bool :=
  match t.stage with
  | .requesting _ => (paidFrom a.newKey x.payments).isEmpty
  | .awaiting _ _ =>
    match a.phone with
    | .responds resp => !resp.authorized ||
        resp.session.all fun session => (paidFrom session.pubkey x.payments).isEmpty
    | _ => true
  | .executing e =>
    match executePaymentAuto server a e t.amount x.now with
    | some (.transfer k) => (x.sessions.lookup k).all fun d => d.withinLimits t.amount x.now
    | _ => true
  | .clientReads _ _ | .clientWrites _ _ _ => a.stored
  | _ => true

/-- The clock does not go back. -/
def careful (server : Server) (s : World) : Event → Bool
  | .runs i a => (s.tasks i).careful server a s.shared
  | .ticks now => decide (s.shared.now ≤ now)

/-! ### A record and the payments -/

/-- The payments of the day that a record has counted. -/
def SessionTokenData.counted (d : SessionTokenData) (now : ℕ) : ℕ :=
  if d.lastDailyReset < todayStart now then 0 else d.currentDailyCount.toNat

/-- A record covers what was paid from the session, but for a payment that is not yet recorded. -/
structure Covered (paid : List Payment) (now : ℕ) (d : SessionTokenData) (flying : Option UInt64) :
    Prop where
  within : WithinLimits d paid
  recorded : total paid ≤ d.currentSpent.toNat + flying.elim 0 UInt64.toNat
  today : d.dailyTxCountLimit ≠ 0 →
    countOn (day now) paid ≤ d.counted now + flying.elim 0 fun _ => 1

section

variable {paid : List Payment} {p : Payment} {now now' : ℕ} {d : SessionTokenData}
  {flying : Option UInt64} {amount : UInt64}

@[simp] theorem total_cons : total (p :: paid) = p.amount.toNat + total paid := by
  simp [total]

theorem countOn_cons (on : ℕ) :
    countOn on (p :: paid) = countOn on paid + if day p.paidAt = on then 1 else 0 := by
  simp [countOn, List.countP_cons]

theorem todayStart_eq (now : ℕ) : todayStart now = 86400 * (day now : ℤ) := by
  rw [todayStart, day]
  omega

theorem counted_eq_of_day (h : day now' = day now) : d.counted now' = d.counted now := by
  rw [SessionTokenData.counted, SessionTokenData.counted, todayStart_eq, todayStart_eq, h]

/-- Nothing has been paid. -/
theorem Covered.empty (now : ℕ) (d : SessionTokenData) (flying : Option UInt64) :
    Covered [] now d flying :=
  ⟨⟨Nat.zero_le _, fun _ p hp => absurd hp (by simp), fun _ _ => Nat.zero_le _⟩, Nat.zero_le _,
    fun _ => Nat.zero_le _⟩

/-- A payment within the limits of the record. -/
theorem Covered.transfer (h : Covered paid p.paidAt d none)
    (hwithin : d.withinLimits p.amount p.paidAt = true) :
    Covered (p :: paid) p.paidAt d (some p.amount) := by
  obtain ⟨hboth, hdaily⟩ := Bool.and_eq_true_iff.mp hwithin
  obtain ⟨hremaining, hperTx⟩ := Bool.and_eq_true_iff.mp hboth
  have hrecorded : total paid ≤ d.currentSpent.toNat := h.recorded
  have htotal : total (p :: paid) = p.amount.toNat + total paid := total_cons
  have hroom : p.amount.toNat ≤ d.spendingLimit.toNat - d.currentSpent.toNat := by
    have hle := UInt64.le_iff_toNat_le.mp (of_decide_eq_true hremaining)
    rwa [SessionTokenData.remaining, toNat_saturatingSub] at hle
  have hlimit := h.within.total_le
  refine ⟨⟨?_, fun hpos q hq => ?_, fun hpos on => ?_⟩, ?_, fun hpos => ?_⟩
  · omega
  · rcases List.mem_cons.mp hq with rfl | hq
    · exact (of_decide_eq_true hperTx).resolve_left hpos
    · exact h.within.perTx hpos q hq
  · rw [countOn_cons]
    split
    · next hon =>
      -- The day that is counted: there is room in the record, or it starts anew.
      have htoday : countOn (day p.paidAt) paid ≤ d.counted p.paidAt := h.today hpos
      rw [← hon]
      rw [SessionTokenData.counted] at htoday
      have hpos' : 0 < d.dailyTxCountLimit.toNat := by
        have := mt UInt32.toNat_inj.mp hpos
        exact Nat.pos_of_ne_zero this
      rcases of_decide_eq_true hdaily with hzero | hreset | hbelow
      · exact absurd hzero hpos
      · rw [if_pos hreset] at htoday
        omega
      · have hbelow := UInt32.lt_iff_toNat_lt.mp hbelow
        split at htoday <;> omega
    · exact h.within.daily hpos on
  · show total (p :: paid) ≤ d.currentSpent.toNat + p.amount.toNat
    omega
  · have htoday : countOn (day p.paidAt) paid ≤ d.counted p.paidAt := h.today hpos
    rw [countOn_cons, if_pos rfl]
    show _ ≤ d.counted p.paidAt + 1
    omega

/-- The payment is recorded, or recorded once more. -/
theorem Covered.record (h : Covered paid now d flying) (hflying : flying = none ∨ flying = some amount) :
    Covered paid now (d.recordSpent amount now) none := by
  have hlimit := UInt64.toNat_lt d.spendingLimit
  have htotal := h.within.total_le
  refine ⟨⟨htotal, h.within.perTx, h.within.daily⟩, ?_, fun hpos => ?_⟩
  · show total paid ≤ (saturatingAdd d.currentSpent amount).toNat + 0
    have hrecorded := h.recorded
    rw [toNat_saturatingAdd]
    rcases hflying with rfl | rfl
    · have : total paid ≤ d.currentSpent.toNat + 0 := hrecorded
      omega
    · have : total paid ≤ d.currentSpent.toNat + amount.toNat := hrecorded
      omega
  · show countOn (day now) paid ≤ (d.recordSpent amount now).counted now + 0
    have htoday : countOn (day now) paid ≤ d.counted now + 1 := by
      have := h.today hpos
      rcases hflying with rfl | rfl
      · exact this.trans (Nat.le_succ _)
      · exact this
    rw [SessionTokenData.counted] at htoday
    by_cases hreset : d.lastDailyReset < todayStart now
    · rw [if_pos hreset] at htoday
      simp only [SessionTokenData.counted, SessionTokenData.recordSpent, if_pos hreset, lt_irrefl,
        if_false]
      exact htoday
    · rw [if_neg hreset] at htoday
      simp only [SessionTokenData.counted, SessionTokenData.recordSpent, if_neg hreset]
      rw [toNat_saturatingAddU32]
      have hday := h.within.daily hpos (day now)
      have hdaily := UInt32.toNat_lt d.dailyTxCountLimit
      show _ ≤ min (d.currentDailyCount.toNat + 1) (2 ^ 32 - 1) + 0
      omega

/-- The clock goes on. -/
theorem Covered.tick (h : Covered paid now d flying) (hle : now ≤ now')
    (hpast : ∀ p ∈ paid, p.paidAt ≤ now) : Covered paid now' d flying := by
  refine ⟨h.within, h.recorded, fun hpos => ?_⟩
  by_cases hday : day now' = day now
  · rw [hday, counted_eq_of_day hday]
    exact h.today hpos
  · have hnone : countOn (day now') paid = 0 := by
      refine List.countP_eq_zero.mpr fun p hp => ?_
      have := hpast p hp
      rw [decide_eq_true_eq]
      rw [day, day] at hday
      rw [day, day]
      omega
    omega

end

/-! ### One section -/

/-- The payment that a task has made from the session and not yet recorded. -/
def Task.flying (t : Task) (k : Pubkey) : Option UInt64 :=
  match t.stage with
  | .clientReads _ k' | .clientWrites _ k' _ => if k' = k then some t.amount else none
  | _ => none

section

variable (C : List Payment → ℕ → SessionTokenData → Option UInt64 → Prop)

/-- The record of every session stands in a relation to what was paid from it, and to the payment that
is on the way. -/
def RecordedBy (x : Shared) (flying : Pubkey → Option UInt64) : Prop :=
  ∀ k d, x.sessions.lookup k = some d → C (paidFrom k x.payments) x.now d (flying k)

/-- So does the record that a task has read and is going to write back. -/
def Task.HoldsBy (t : Task) (x : Shared) : Prop :=
  match t.stage with
  | .clientWrites _ k d => C (paidFrom k x.payments) x.now d (some t.amount)
  | .agentWrites _ _ k d => C (paidFrom k x.payments) x.now d none
  | _ => True

end

/-- The record of every session covers what was paid from it. -/
def Recorded (x : Shared) (flying : Pubkey → Option UInt64) : Prop :=
  ∀ k d, x.sessions.lookup k = some d → Covered (paidFrom k x.payments) x.now d (flying k)

/-- So does the record that a task has read and is going to write back. -/
def Task.Holds (t : Task) (x : Shared) : Prop :=
  match t.stage with
  | .clientWrites _ k d => Covered (paidFrom k x.payments) x.now d (some t.amount)
  | .agentWrites _ _ k d => Covered (paidFrom k x.payments) x.now d none
  | _ => True

/-- The keys under which a section of the task may store a session. -/
def Task.opening (a : Answer) (t : Task) (k : Pubkey) : Prop :=
  match t.stage with
  | .requesting _ => k = a.newKey
  | .awaiting _ _ => ∃ resp session, a.phone = .responds resp ∧ resp.authorized = true ∧
      resp.session = some session ∧ session.pubkey = k
  | _ => False

/-- What a section has to see to for the relation to be kept: for a session that is stored, a payment
that goes out, and the two records of it. -/
structure Upkeep (C : List Payment → ℕ → SessionTokenData → Option UInt64 → Prop) (server : Server)
    (i : ℕ) (a : Answer) (t : Task) (x x' : Shared) (flying : Pubkey → Option UInt64) : Prop where
  opens : ∀ k d, t.opening a k → d.Fresh x.now → C (paidFrom k x.payments) x.now d (flying k)
  transfers : ∀ e k d, t.stage = .executing e →
    executePaymentAuto server a e t.amount x.now = some (.transfer k) →
    x.sessions.lookup k = some d → C (paidFrom k x.payments) x.now d none →
    C (paymentOf i e (some k) t x :: paidFrom k x.payments) x.now d (some t.amount)
  stores : ∀ e k, (t.stage = .clientReads e k ∨ ∃ d, t.stage = .clientWrites e k d) → a.stored = true
  writes : ∀ e k d, t.stage = .clientWrites e k d →
    C (paidFrom k x.payments) x.now d (some t.amount) →
    C (paidFrom k x.payments) x.now (d.recordSpent t.amount x.now) none
  rewrites : ∀ e proof k d, t.stage = .agentWrites e proof k d → x' ≠ x →
    C (paidFrom k x.payments) x.now d none →
    C (paidFrom k x.payments) x.now (d.recordSpent t.amount x.now) none

section

variable {C : List Payment → ℕ → SessionTokenData → Option UInt64 → Prop}
  {server : Server} {i : ℕ} {a : Answer} {t : Task} {x x' : Shared} {stage' : Stage}
  {flying flying' : Pubkey → Option UInt64} {k : Pubkey} {d : SessionTokenData}

theorem flying_of_unlocked (h : t.stage.locked = false) : t.flying = fun _ => none := by
  funext k
  rw [Task.flying]
  split
  · next here => exact absurd h (by rw [here]; simp [Stage.locked])
  · next here => exact absurd h (by rw [here]; simp [Stage.locked])
  · rfl

theorem holds_of_unlocked (h : t.stage.locked = false) : t.HoldsBy C x := by
  rw [Task.HoldsBy]
  split
  · next here => exact absurd h (by rw [here]; simp [Stage.locked])
  · next here => exact absurd h (by rw [here]; simp [Stage.locked])
  · trivial

theorem holds_congr (hpayments : x'.payments = x.payments) (hnow : x'.now = x.now)
    (h : t.HoldsBy C x) : t.HoldsBy C x' := by
  rw [Task.HoldsBy] at h ⊢
  rw [hpayments, hnow]
  exact h

theorem RecordedBy.congr (hsessions : x'.sessions = x.sessions)
    (hpayments : x'.payments = x.payments) (hnow : x'.now = x.now) (h : RecordedBy C x flying) :
    RecordedBy C x' flying := by
  rw [RecordedBy, hsessions, hpayments, hnow]
  exact h

/-- A record is written, of the session that a payment may be on the way from. -/
theorem RecordedBy.write (h : RecordedBy C x flying) (hother : ∀ k', k' ≠ k → flying' k' = flying k')
    (hkept : C (paidFrom k x.payments) x.now d (flying' k)) :
    RecordedBy C (x.setSession k d) flying' := by
  intro k' d' hstored
  have hlookup : (x.sessions.insert k d).lookup k' = some d' := hstored
  rw [Store.lookup_insert_eq] at hlookup
  by_cases heq : k' = k
  · rw [if_pos heq] at hlookup
    obtain rfl := Option.some.inj hlookup
    rw [heq]
    exact hkept
  · rw [if_neg heq] at hlookup
    rw [hother k' heq]
    exact h k' d' hlookup

/-- A session is stored. -/
theorem RecordedBy.opened {keys : Pubkey → Prop} (h : RecordedBy C x flying)
    (hopened : Opened keys x x')
    (hnew : ∀ k d, keys k → d.Fresh x.now → C (paidFrom k x.payments) x.now d (flying k)) :
    RecordedBy C x' flying := by
  rcases hopened with rfl | ⟨k, d, hk, hfresh, rfl⟩
  · exact h
  · exact h.write (fun _ _ => rfl) (hnew k d hk hfresh)

theorem RecordedBy.closed (h : RecordedBy C x flying) (hclosed : Closed x x') :
    RecordedBy C x' flying := by
  rcases hclosed with rfl | ⟨k, rfl⟩
  · exact h
  · intro k' d hlookup
    have hlookup : (x.sessions.erase k).lookup k' = some d := hlookup
    by_cases heq : k' = k
    · rw [heq, AList.lookup_erase] at hlookup
      exact absurd hlookup (by simp)
    · rw [AList.lookup_erase_ne heq] at hlookup
      exact h k' d hlookup

theorem paidFrom_pay (e : Execution) (session : Option Pubkey) (k : Pubkey) :
    paidFrom k (pay i e session t x).payments
      = if session = some k then paymentOf i e session t x :: paidFrom k x.payments
        else paidFrom k x.payments := by
  by_cases h : session = some k
  · rw [if_pos h]
    exact List.filter_cons_of_pos (decide_eq_true h)
  · rw [if_neg h]
    exact List.filter_cons_of_neg fun hpaid => h (of_decide_eq_true hpaid)

/-- The clock stands still in a section. -/
theorem Effect.now_eq (h : Effect server i a t x stage' x') : x'.now = x.now := by
  cases h with
  | requests _ opened | notRequested _ opened | authorized _ _ _ opened => exact opened.same.2.2.2
  | declined _ closed => exact closed.same.2.2.2
  | clientSkips _ _ ends | clientWrites _ ends => cases ends <;> rfl
  | agentWrites _ left => rcases left with rfl | rfl <;> rfl
  | _ => rfl

/-- Only `execute_payment_atomic` pays. -/
theorem Effect.payments_eq (h : Effect server i a t x stage' x') (hlocked : t.stage.locked = false) :
    x'.payments = x.payments := by
  cases h with
  | requests _ opened | notRequested _ opened | authorized _ _ _ opened => exact opened.same.2.1
  | declined _ closed => exact closed.same.2.1
  | clientSkips _ _ ends | clientWrites _ ends => cases ends <;> rfl
  | agentWrites _ left => rcases left with rfl | rfl <;> rfl
  | pays here | transfers here =>
    rw [here] at hlocked
    exact absurd hlocked (by simp [Stage.locked])
  | _ => rfl

theorem flying_of_stage {stage : Stage} (here : t.stage = stage) : t.flying = (t.to stage).flying := by
  rw [← here]
  rfl

/-- What is on the way from the sessions before and after a section: it is the task's own, unless the
task is outside the mutex. -/
def Flies (t : Task) (stage' : Stage) (flying flying' : Pubkey → Option UInt64) : Prop :=
  (flying = t.flying ∧ flying' = (t.to stage').flying) ∨
  (t.stage.locked = false ∧ stage'.locked = false ∧ flying' = flying)

theorem Flies.same {stage : Stage} (h : Flies t stage' flying flying') (here : t.stage = stage)
    (hsame : (t.to stage).flying = (t.to stage').flying) : flying' = flying := by
  rcases h with ⟨rfl, rfl⟩ | ⟨-, -, h⟩
  · exact ((flying_of_stage here).trans hsame).symm
  · exact h

theorem Flies.own (h : Flies t stage' flying flying') (hlocked : t.stage.locked = true) :
    flying = t.flying ∧ flying' = (t.to stage').flying := by
  rcases h with h | ⟨hunlocked, -⟩
  · exact h
  · rw [hlocked] at hunlocked
    exact absurd hunlocked (by simp)

/-- A transaction of a session. -/
theorem RecordedBy.transfer {e : Execution} (h : RecordedBy C x fun _ => none)
    (hpaid : ∀ d, x.sessions.lookup k = some d → C (paidFrom k x.payments) x.now d none →
      C (paymentOf i e (some k) t x :: paidFrom k x.payments) x.now d (some t.amount)) :
    RecordedBy C (pay i e (some k) t x) (t.to (.clientReads e k)).flying := by
  intro k' d hlookup
  have hbefore := h k' d hlookup
  rw [paidFrom_pay]
  show C _ x.now d (if k = k' then some t.amount else none)
  by_cases hk : k = k'
  · subst hk
    rw [if_pos rfl, if_pos rfl]
    exact hpaid d hlookup hbefore
  · rw [if_neg fun heq => hk (Option.some.inj heq), if_neg hk]
    exact hbefore

/-- A payment that is no transaction of a session. -/
theorem RecordedBy.pay {e : Execution} (h : RecordedBy C x flying) :
    RecordedBy C (pay i e none t x) flying := by
  intro k d hlookup
  rw [paidFrom_pay, if_neg (by simp)]
  exact h k d hlookup

/-- The payment from a session is not on the way any more, as the session is not stored or its record
is written. -/
theorem RecordedBy.landed (h : RecordedBy C x fun k' => if k = k' then some t.amount else none)
    (hlanded : ∀ d, x.sessions.lookup k = some d → C (paidFrom k x.payments) x.now d none) :
    RecordedBy C x fun _ => none := by
  intro k' d hlookup
  by_cases hk : k = k'
  · subst hk
    exact hlanded d hlookup
  · have hbefore : C _ x.now d (if k = k' then some t.amount else none) := h k' d hlookup
    rwa [if_neg hk] at hbefore

/-- Every section keeps the relation, as long as it sees to what it has to. -/
theorem Effect.kept (h : Effect server i a t x stage' x')
    (hup : Upkeep C server i a t x x' flying) (hflies : Flies t stage' flying flying')
    (hrecorded : RecordedBy C x flying) (hholds : t.HoldsBy C x) :
    RecordedBy C x' flying' ∧ (t.to stage').HoldsBy C x' := by
  cases h with
  | blocks here | checks here | approves here | bypasses here | asks here | scans here | funded here
  | agentSkips here =>
    rw [hflies.same here rfl]
    exact ⟨hrecorded, trivial⟩
  | listed here =>
    rw [hflies.same here rfl]
    exact ⟨hrecorded.congr rfl rfl rfl, trivial⟩
  | requests here opened | notRequested here opened =>
    rw [hflies.same here rfl]
    refine ⟨hrecorded.opened opened fun k d hk hfresh => hup.opens k d ?_ hfresh, trivial⟩
    rw [Task.opening, here]
    exact hk
  | @authorized _ _ resp _ _ here phone granted opened =>
    rw [hflies.same here rfl]
    refine ⟨hrecorded.opened opened fun k d hk hfresh => hup.opens k d ?_ hfresh, trivial⟩
    rw [Task.opening, here]
    obtain ⟨session, hsession, hkey⟩ := hk
    exact ⟨resp, session, phone, granted, hsession, hkey⟩
  | declined here closed =>
    rw [hflies.same here rfl]
    exact ⟨hrecorded.closed closed, trivial⟩
  | locks here free next =>
    rcases next with rfl | ⟨rfl, -⟩ <;> rw [hflies.same here rfl] <;>
      exact ⟨hrecorded.congr rfl rfl rfl, trivial⟩
  | stops here =>
    rcases here with here | here <;> rw [hflies.same here rfl] <;>
      exact ⟨hrecorded.congr rfl rfl rfl, trivial⟩
  | pays here =>
    rw [hflies.same here rfl]
    exact ⟨hrecorded.pay, trivial⟩
  | @transfers e k here paid =>
    obtain ⟨rfl, rfl⟩ := hflies.own (by rw [here]; rfl)
    rw [flying_of_stage here] at hrecorded
    exact ⟨RecordedBy.transfer hrecorded fun d => hup.transfers e k d here paid, trivial⟩
  | @clientFails e k here unstored =>
    -- The payment would not be recorded.
    have hstored : a.stored = true := hup.stores e k here
    rw [unstored] at hstored
    exact absurd hstored (by simp)
  | @clientReads e k d here read =>
    obtain ⟨rfl, -⟩ := hflies.own (by rw [here]; rfl)
    rw [hflies.same here rfl]
    refine ⟨hrecorded, ?_⟩
    have hbefore := hrecorded k d read
    rw [flying_of_stage here] at hbefore
    show C _ x.now d (some t.amount)
    rwa [show (t.to (.clientReads e k)).flying k = some t.amount from if_pos rfl] at hbefore
  | @clientSkips e k stage' x' here absent ends =>
    obtain ⟨rfl, rfl⟩ := hflies.own (by rw [here]; rfl)
    rw [flying_of_stage here] at hrecorded
    have hlanded := RecordedBy.landed hrecorded fun d hlookup => by
      rw [absent] at hlookup
      exact absurd hlookup (by simp)
    cases ends with
    | goesOn => exact ⟨hlanded, trivial⟩
    | stops => exact ⟨hlanded.congr rfl rfl rfl, trivial⟩
  | @clientWrites e k d stage' x' here ends =>
    obtain ⟨rfl, rfl⟩ := hflies.own (by rw [here]; rfl)
    rw [flying_of_stage here] at hrecorded
    rw [Task.HoldsBy, here] at hholds
    have hwritten : RecordedBy C (x.setSession k (d.recordSpent t.amount x.now)) fun _ => none := by
      refine hrecorded.write (fun k' hk => ?_) (hup.writes e k d here hholds)
      exact (if_neg hk.symm).symm
    cases ends with
    | goesOn => exact ⟨hwritten, trivial⟩
    | stops => exact ⟨hwritten.congr rfl rfl rfl, trivial⟩
  | @agentReads e proof k d here read =>
    obtain ⟨rfl, -⟩ := hflies.own (by rw [here]; rfl)
    rw [hflies.same here rfl]
    refine ⟨hrecorded, ?_⟩
    have hbefore := hrecorded k d read
    rw [flying_of_stage here] at hbefore
    exact hbefore
  | @agentWrites e proof k d x' here left =>
    obtain ⟨rfl, rfl⟩ := hflies.own (by rw [here]; rfl)
    rw [flying_of_stage here] at hrecorded
    rw [Task.HoldsBy, here] at hholds
    by_cases hsame : x' = x
    · rw [hsame]
      exact ⟨hrecorded, trivial⟩
    · obtain rfl := left.resolve_left hsame
      exact ⟨hrecorded.write (fun _ _ => rfl) (hup.rewrites e proof k d here hsame hholds), trivial⟩
  | records here ends =>
    rcases ends with ⟨r, rfl⟩ | ⟨action, resp, rfl⟩ <;> rw [hflies.same here rfl] <;>
      exact ⟨hrecorded.congr rfl rfl rfl, trivial⟩

/-- A careful section opens sessions only under keys that nothing has been paid from. -/
theorem paidFrom_opening (hcareful : t.careful server a x = true) (hk : t.opening a k) :
    paidFrom k x.payments = [] := by
  rw [Task.opening] at hk
  split at hk
  · next here =>
    rw [Task.careful, here] at hcareful
    rw [hk]
    exact List.isEmpty_iff.mp hcareful
  · next here =>
    obtain ⟨resp, session, hphone, hgranted, hsession, rfl⟩ := hk
    rw [Task.careful, here] at hcareful
    simp only [hphone, hgranted, hsession, Bool.not_true, Bool.false_or, Option.all_some] at hcareful
    exact List.isEmpty_iff.mp hcareful
  · exact hk.elim

theorem stored_of_careful {e : Execution} (hcareful : t.careful server a x = true)
    (here : t.stage = .clientReads e k ∨ ∃ d, t.stage = .clientWrites e k d) : a.stored = true := by
  rcases here with here | ⟨d, here⟩
  · rw [Task.careful, here] at hcareful
    exact hcareful
  · rw [Task.careful, here] at hcareful
    exact hcareful

theorem upkeep_covered (hcareful : t.careful server a x = true) :
    Upkeep Covered server i a t x x' flying where
  opens k d hk _ := by
    rw [paidFrom_opening hcareful hk]
    exact .empty ..
  transfers e k d here paid hlookup hbefore := by
    rw [Task.careful, here] at hcareful
    simp only [paid, hlookup, Option.all_some] at hcareful
    exact @Covered.transfer _ (paymentOf i e (some k) t x) d hbefore hcareful
  stores _ _ here := stored_of_careful hcareful here
  writes _ _ _ _ h := h.record (.inr rfl)
  rewrites _ _ _ _ _ _ h := h.record (.inl rfl)

end

/-! ### Runs -/

/-- The payment that is on the way from each session. -/
def flying (s : World) : Pubkey → Option UInt64 := heldBy (fun _ => none) Task.flying s

/-- What holds in every state of a careful run. -/
structure Bounded (s : World) : Prop where
  exclusive : Exclusive s
  past : ∀ p ∈ s.shared.payments, p.paidAt ≤ s.shared.now
  recorded : Recorded s.shared (flying s)
  holds : ∀ i, (s.tasks i).Holds s.shared

section

variable {C : List Payment → ℕ → SessionTokenData → Option UInt64 → Prop}
  {server : Server} {i : ℕ} {a : Answer} {t : Task} {x x' : Shared} {stage' : Stage}
  {s₀ s s' : World} {ev : Event} {h : List (World × Event)}

theorem past_of_effect (h : Effect server i a t x stage' x') (hpast : ∀ p ∈ x.payments, p.paidAt ≤ x.now)
    {p : Payment} (hp : p ∈ x'.payments) : p.paidAt ≤ x'.now := by
  have hsame : x'.payments = x.payments → p.paidAt ≤ x'.now := by
    intro heq
    rw [heq] at hp
    rw [h.now_eq]
    exact hpast p hp
  cases h with
  | requests _ opened | notRequested _ opened | authorized _ _ _ opened => exact hsame opened.same.2.1
  | declined _ closed => exact hsame closed.same.2.1
  | clientSkips _ _ ends | clientWrites _ ends => cases ends <;> exact hsame rfl
  | agentWrites _ left => rcases left with rfl | rfl <;> exact hsame rfl
  | pays | transfers =>
    rcases List.mem_cons.mp hp with rfl | hp
    · exact le_rfl
    · exact hpast p hp
  | _ => exact hsame rfl

/-- The turn of a task keeps the relation, for all that is stored and for all that is read. -/
theorem kept_of_turn (hs : Exclusive s) (hup : Upkeep C server i a (s.tasks i) s.shared x' (flying s))
    (effect : Effect server i a (s.tasks i) s.shared stage' x')
    (hrecorded : RecordedBy C s.shared (flying s)) (hholds : ∀ j, (s.tasks j).HoldsBy C s.shared) :
    RecordedBy C x' (flying ⟨x', Function.update s.tasks i ((s.tasks i).to stage')⟩) ∧
      ∀ j, (Function.update s.tasks i ((s.tasks i).to stage') j).HoldsBy C x' := by
  have hflies := heldBy_of_turn (fun _ => flying_of_unlocked) hs effect
  obtain ⟨hrecorded', hown⟩ := effect.kept hup hflies hrecorded (hholds i)
  refine ⟨hrecorded', fun j => ?_⟩
  by_cases hji : j = i
  · rw [hji, Function.update_self]
    exact hown
  · rw [Function.update_of_ne hji]
    -- Another task that is going to write a record has the mutex, so nothing is paid now.
    by_cases hlocked : (s.tasks j).stage.locked = true
    · have hunlocked : (s.tasks i).stage.locked = false := by
        by_contra h
        have hi := (hs i).mp (by simpa using h)
        rw [(hs j).mp hlocked] at hi
        exact hji (Option.some.inj hi)
      exact holds_congr (effect.payments_eq hunlocked) effect.now_eq (hholds j)
    · exact holds_of_unlocked (by simpa using hlocked)

theorem Bounded.of_runs (hs : Bounded s) (hcareful : (s.tasks i).careful server a s.shared = true)
    (effect : Effect server i a (s.tasks i) s.shared stage' x')
    (hexclusive : Exclusive ⟨x', Function.update s.tasks i ((s.tasks i).to stage')⟩) :
    Bounded ⟨x', Function.update s.tasks i ((s.tasks i).to stage')⟩ := by
  obtain ⟨hrecorded, hholds⟩ :=
    kept_of_turn hs.exclusive (upkeep_covered hcareful) effect hs.recorded hs.holds
  exact ⟨hexclusive, fun p hp => past_of_effect effect hs.past hp, hrecorded, hholds⟩

theorem Bounded.of_ticks {now : ℕ} (hs : Bounded s) (hle : s.shared.now ≤ now) :
    Bounded ⟨{ s.shared with now }, s.tasks⟩ := by
  have hpast : ∀ k, ∀ p ∈ paidFrom k s.shared.payments, p.paidAt ≤ s.shared.now :=
    fun k p hp => hs.past p (List.mem_of_mem_filter hp)
  refine ⟨hs.exclusive, fun p hp => (hs.past p hp).trans hle, fun k d hlookup => ?_, fun i => ?_⟩
  · exact (hs.recorded k d hlookup).tick hle (hpast k)
  · have hholds := hs.holds i
    show (s.tasks i).Holds _
    rw [Task.Holds] at hholds ⊢
    split at hholds
    · exact hholds.tick hle (hpast _)
    · exact hholds.tick hle (hpast _)
    · trivial

theorem Bounded.of_exec (hs : Bounded s) (hcareful : careful server s ev = true)
    (hexec : exec server ev s = .ok s') : Bounded s' := by
  have hexclusive := hs.exclusive.of_exec hexec
  cases turned_of_exec hexec with
  | runs effect => exact hs.of_runs hcareful effect hexclusive
  | ticks => exact hs.of_ticks (of_decide_eq_true hcareful)

theorem Idle.bounded (h : Idle s₀) : Bounded s₀ := by
  refine ⟨h.exclusive, ?_, fun k d _ => ?_, fun i =>
    @holds_of_unlocked Covered _ _ (h.outside i)⟩
  · rw [h.payments_eq]
    simp
  · rw [h.payments_eq]
    exact .empty ..

end

namespace Sample

/-- Payments go out as transactions of the session. -/
def transacting : Answer := { answer with voucher := false }

def sessionKey : Pubkey := fill 32 3

def session (spendingLimit : UInt64) : SessionTokenData where
  owner := server.defaultOwner
  expiresAt := 90000
  spendingLimit := spendingLimit
  currentSpent := 0
  perTxLimit := 60
  dailyTxCountLimit := 4
  currentDailyCount := 0
  lastDailyReset := 0

/-- There is one session; the merchant is over its cap, and every challenge asks for 60. -/
def sharing (spendingLimit : UInt64) : World :=
  challenges ((∅ : Store.Map String UInt64).insert merchant 100)
    ((∅ : SessionStore).insert sessionKey (session spendingLimit)) 60

end Sample

end Agent
