/-
The agent's limits and the session program's, of one session.

A session is registered on the chain and stored by the agent with the same terms.  Every payment is
made through the agent: it is executed by the program, and recorded by the agent once.  Both sides
test the expiry, the limit of one payment, what is left, and the number of payments in a day.

The first three agree in every state.  The days are different: the agent counts from midnight UTC
on, the program from its last reset, which a payment moves that comes a day later or more.

* `recorded_spent`, `recorded_counted` — what the agent's record says of the payments;
* `daily_iff` — when the program has room for one more payment;
* `limits_agree` — what each side accepts, in every state of every run;
* `midnight` — a payment that the agent accepts and the program does not.
-/
import IgnitePay.Agent.SessionLimits
import IgnitePay.SessionKey.Window

namespace Agent

open Bytes Machine Solana
open SessionKey (Address Call Counted Paid RegisterSessionKey Runtime SessionKeyAccount
  SessionTerms Turn Within checkDailyCount countSince payments resetWindow)

/-! ### The program's side -/

/-- The four limits, as the program tests them. -/
structure ProgramAccepts (session : SessionKeyAccount) (now : Int64) (amount : UInt64) : Prop where
  unexpired : now < session.expiresAt
  perTx : session.perTxLimit > 0 → amount ≤ session.perTxLimit
  daily : (resetWindow session now >>= checkDailyCount) = .ok ()
  spending : SessionKey.checkSpendingLimit session amount = .ok ()

section

variable {session session' : SessionKeyAccount} {now : Int64} {amount : UInt64}

theorem spendingLimit_of_reset (h : resetWindow session now = .ok session') :
    session'.currentSpent = session.currentSpent ∧ session'.spendingLimit = session.spendingLimit := by
  obtain ⟨elapsed, -, h⟩ := bind_eq_ok.mp h
  split at h <;> (obtain rfl := Except.ok.inj h; exact ⟨rfl, rfl⟩)

/-- What the program goes through before a transfer are these limits, and what is not a limit. -/
theorem programAccepts_iff {asset : Except SessionKey.Error Unit} {scope : String} :
    (SessionKey.validatePayment session asset now amount scope = .ok () ∧
        ∃ opened, SessionKey.openWindow session now amount = .ok opened) ↔
      ProgramAccepts session now amount ∧ session.revoked = false ∧ scope ∈ session.scopes ∧
        asset = .ok () := by
  simp only [SessionKey.validatePayment, SessionKey.openWindow, bind_eq_ok, require_eq_ok, exists_const,
    pure, Except.pure, Except.ok.injEq]
  have hspending : ∀ opened, resetWindow session now = .ok opened →
      SessionKey.checkSpendingLimit opened amount = SessionKey.checkSpendingLimit session amount := by
    intro opened hreset
    obtain ⟨hspent, hlimit⟩ := spendingLimit_of_reset hreset
    rw [SessionKey.checkSpendingLimit, SessionKey.checkSpendingLimit, hspent, hlimit]
  constructor
  · rintro ⟨⟨hexpires, hrevoked, hscope, ⟨⟩, hasset, hperTx⟩, _, opened, hreset, ⟨⟩, hdaily, ⟨⟩, hspent, -⟩
    refine ⟨⟨hexpires, hperTx, ?_, ?_⟩, hrevoked, hscope, hasset⟩
    · rw [hreset]
      exact hdaily
    · rw [← hspending opened hreset]
      exact hspent
  · rintro ⟨⟨hexpires, hperTx, hdaily, hspent⟩, hrevoked, hscope, hasset⟩
    obtain ⟨opened, hreset, hcount⟩ := bind_eq_ok.mp hdaily
    exact ⟨⟨hexpires, hrevoked, hscope, (), hasset, hperTx⟩, opened, opened, hreset, (), hcount, (),
      by rw [hspending opened hreset, hspent], rfl⟩

end

/-! ### The agent's record -/

/-- A time of the program as the agent's clock gives it. -/
def seconds (t : Int64) : ℕ := t.toInt.toNat

/-- `create_session` at `t`, with the terms of the registration. -/
structure StoredFor (terms : SessionTerms) (t : ℕ) (d : SessionTokenData) : Prop where
  expiresAt : d.expiresAt = terms.expiresAt.toInt
  spendingLimit : d.spendingLimit = terms.spendingLimit
  perTxLimit : d.perTxLimit = terms.perTxLimit
  dailyTxCountLimit : d.dailyTxCountLimit = terms.dailyTxCountLimit
  currentSpent : d.currentSpent = 0
  currentDailyCount : d.currentDailyCount = 0
  lastDailyReset : d.lastDailyReset = todayStart t

/-- Every payment is recorded once, the latest last. -/
def recorded (d : SessionTokenData) (l : List SessionKey.Payment) : SessionTokenData :=
  l.foldr (fun p d => d.recordSpent p.amount (seconds p.time)) d

/-- The payments of a day that begins at midnight UTC. -/
def paidOn (on : ℕ) (l : List SessionKey.Payment) : ℕ := l.countP fun p => decide (day (seconds p.time) = on)

section

variable {d : SessionTokenData} {terms : SessionTerms} {t now : ℕ} {l : List SessionKey.Payment}

theorem paidOn_cons (p : SessionKey.Payment) (l : List SessionKey.Payment) (on : ℕ) :
    paidOn on (p :: l) = paidOn on l + if day (seconds p.time) = on then 1 else 0 := by
  simp [paidOn, List.countP_cons]

/-- The terms of the record are those it was stored with. -/
theorem recorded_terms (d : SessionTokenData) (l : List SessionKey.Payment) :
    (recorded d l).expiresAt = d.expiresAt ∧ (recorded d l).spendingLimit = d.spendingLimit ∧
      (recorded d l).perTxLimit = d.perTxLimit ∧
        (recorded d l).dailyTxCountLimit = d.dailyTxCountLimit := by
  induction l with
  | nil => exact ⟨rfl, rfl, rfl, rfl⟩
  | cons p l ih => exact ih

/-- As long as a `u64` holds it, what is recorded as spent is what was paid. -/
theorem recorded_spent (h : d.currentSpent = 0) (hfits : SessionKey.total l < 2 ^ 64) :
    (recorded d l).currentSpent.toNat = SessionKey.total l := by
  induction l with
  | nil =>
    rw [recorded, List.foldr_nil, h]
    rfl
  | cons p l ih =>
    rw [SessionKey.total_cons] at hfits ⊢
    have hspent := ih (by omega)
    show (saturatingAdd (recorded d l).currentSpent p.amount).toNat = _
    rw [toNat_saturatingAdd, hspent]
    omega

/-- The record counts the payments since midnight, up to what a `u32` holds; its day is over at the
latest when today begins. -/
theorem recorded_counted (hreset : d.lastDailyReset = todayStart t) (hcount : d.currentDailyCount = 0)
    (hafter : ∀ p ∈ l, t ≤ seconds p.time) (hnow : t ≤ now) (hpast : ∀ p ∈ l, seconds p.time ≤ now)
    (hordered : l.Pairwise fun p q => seconds q.time ≤ seconds p.time) :
    (recorded d l).lastDailyReset ≤ todayStart now ∧
      (recorded d l).counted now = min (paidOn (day now) l) (2 ^ 32 - 1) := by
  induction l generalizing now with
  | nil =>
    have hle : todayStart t ≤ todayStart now := by
      rw [todayStart, todayStart]
      omega
    refine ⟨by rw [recorded, List.foldr_nil, hreset]; exact hle, ?_⟩
    rw [recorded, List.foldr_nil, SessionTokenData.counted, hcount]
    split <;> rfl
  | cons p l ih =>
    obtain ⟨hfirst, hafter⟩ := List.forall_mem_cons.mp hafter
    obtain ⟨hlast, -⟩ := List.forall_mem_cons.mp hpast
    obtain ⟨hbefore, hordered⟩ := List.pairwise_cons.mp hordered
    obtain ⟨hle, hcounted⟩ := ih hafter hfirst hbefore hordered
    set r := recorded d l with hr
    set tp := seconds p.time with htp
    -- The day that is counted afterwards is the day of the payment.
    have hday : (recorded d (p :: l)).lastDailyReset = todayStart tp := by
      show (if r.lastDailyReset < todayStart tp then todayStart tp else r.lastDailyReset) = todayStart tp
      split
      · rfl
      · omega
    have hone : (recorded d (p :: l)).currentDailyCount.toNat = min (r.counted tp + 1) (2 ^ 32 - 1) := by
      show (if r.lastDailyReset < todayStart tp then 1 else saturatingAddU32 r.currentDailyCount 1).toNat
        = _
      rw [SessionTokenData.counted]
      split
      · rfl
      · rw [toNat_saturatingAddU32]
        rfl
    rw [hcounted] at hone
    have htoday : todayStart tp ≤ todayStart now := by
      rw [todayStart, todayStart]
      omega
    refine ⟨by rw [hday]; exact htoday, ?_⟩
    rw [SessionTokenData.counted, hday, hone, paidOn_cons, ← htp]
    rw [todayStart_eq, todayStart_eq] at htoday ⊢
    by_cases hsame : day tp = day now
    · rw [if_neg (by omega), if_pos hsame, hsame]
      exact SessionKey.min_add_one_min _ _
    · -- A later day: nothing was paid in it.
      have hnone : paidOn (day now) l = 0 := by
        refine List.countP_eq_zero.mpr fun q hq => ?_
        have hq := hbefore q hq
        rw [decide_eq_true_eq]
        rw [day, day] at hsame
        rw [day, day]
        omega
      rw [if_pos (by omega), hnone, if_neg hsame]
      omega

end

/-! ### The program's counters -/

section

variable {session : SessionKeyAccount} {now : Int64} {amount : UInt64}

theorem checkDailyCount_iff : checkDailyCount session = .ok () ↔
    session.dailyTxCountLimit = 0 ∨
      session.currentDailyCount.toNat + 1 ≤ session.dailyTxCountLimit.toNat := by
  by_cases hzero : session.dailyTxCountLimit = 0
  · rw [checkDailyCount, hzero]
    exact iff_of_true rfl (.inl rfl)
  · have hpos : 0 < session.dailyTxCountLimit.toNat :=
      Nat.pos_of_ne_zero fun h => hzero (UInt32.toNat_inj.mp h)
    rw [or_iff_right hzero]
    refine ⟨fun h => SessionKey.of_checkDailyCount h hpos, fun h => ?_⟩
    have hlimit : session.dailyTxCountLimit > 0 := UInt32.lt_iff_toNat_lt.mpr hpos
    have hbound := session.dailyTxCountLimit.toNat_lt
    have hone : (1 : UInt32).toNat = 1 := rfl
    have hfits : session.currentDailyCount.toNat + (1 : UInt32).toNat < 2 ^ 32 := by omega
    have hadd : addU32 session.currentDailyCount 1 = some (session.currentDailyCount + 1) :=
      if_pos hfits
    rw [checkDailyCount, if_pos hlimit, hadd]
    refine require_eq_ok.mpr (UInt32.le_iff_toNat_le.mpr ?_)
    rw [toNat_addU32 hadd]
    exact h

theorem checkSpendingLimit_iff : SessionKey.checkSpendingLimit session amount = .ok () ↔
    session.currentSpent.toNat + amount.toNat ≤ session.spendingLimit.toNat := by
  refine ⟨SessionKey.of_checkSpendingLimit, fun h => ?_⟩
  have hbound := session.spendingLimit.toNat_lt
  have hadd : checkedAdd session.currentSpent amount = some (session.currentSpent + amount) := by
    rw [checkedAdd_eq_some, UInt64.toNat_add, Nat.mod_eq_of_lt (by omega)]
  rw [SessionKey.checkSpendingLimit, hadd]
  refine require_eq_ok.mpr (UInt64.le_iff_toNat_le.mpr ?_)
  rw [checkedAdd_eq_some.mp hadd]
  exact h

/-- With no limit, after a day since the last reset, or with room in the window. -/
theorem daily_iff {n : ℕ} (hreset : 0 ≤ session.lastDailyReset.toInt) (hnow : 0 ≤ now.toInt)
    (hcount : session.currentDailyCount.toNat = min n (2 ^ 32 - 1)) :
    (resetWindow session now >>= checkDailyCount) = .ok () ↔
      session.dailyTxCountLimit = 0 ∨ session.lastDailyReset.toInt + 86400 ≤ now.toInt ∨
        n < session.dailyTxCountLimit.toNat := by
  have hlimit := session.dailyTxCountLimit.toNat_lt
  have hopens : ∃ opened, resetWindow session now = .ok opened := by
    have hmax := now.toInt_lt
    have hmax' := session.lastDailyReset.toInt_lt
    have hin : InI64 (now.toInt - session.lastDailyReset.toInt) := by
      constructor <;> omega
    have hsub : subI64 now session.lastDailyReset = some (now - session.lastDailyReset) := if_pos hin
    rw [resetWindow, hsub]
    exact ⟨_, rfl⟩
  obtain ⟨opened, hopened⟩ := hopens
  rw [hopened]
  show checkDailyCount opened = .ok () ↔ _
  rw [checkDailyCount_iff]
  rcases SessionKey.of_resetWindow hopened with ⟨hover, rfl⟩ | ⟨hwithin, rfl⟩
  · refine iff_of_true ?_ (.inr (.inl hover))
    by_cases hzero : session.dailyTxCountLimit = 0
    · exact .inl hzero
    · exact .inr (Nat.pos_of_ne_zero fun h => hzero (UInt32.toNat_inj.mp h))
  · have hover : ¬ opened.lastDailyReset.toInt + 86400 ≤ now.toInt := by omega
    rw [hcount]
    simp only [hover, false_or]
    exact or_congr_right (by omega)

end

/-! ### Runs -/

section

theorem now_le_of_run {rt : Runtime} {w₀ s : SessionKey.World} {h : List (SessionKey.World × Call)}
    (hrun : Run (SessionKey.exec rt) w₀ h s) : w₀.now.toInt ≤ s.now.toInt := by
  induction hrun with
  | start => exact le_refl _
  | step _ hexec ih => exact ih.trans (SessionKey.now_le_of_exec hexec)

variable {rt : Runtime} {w w₀ s : SessionKey.World} {start : SessionKeyAccount} {a : Address}
  {h : List (SessionKey.World × Call)}

/-- The payments of a run are in order of time, and the window does not start before the session. -/
theorem ordered_of_run (hfresh : SessionKey.Fresh a start w₀) (hrun : Run (SessionKey.exec rt) w₀ h s)
    (hlife : ∀ c ∈ h, ¬ c.2.Registers a) :
    ((payments a h).Pairwise fun p q => q.time.toInt ≤ p.time.toInt) ∧
      ∀ session ∈ s.sessions.lookup a, w₀.now.toInt ≤ session.lastDailyReset.toInt := by
  induction hrun with
  | start =>
    refine ⟨.nil, fun session hs => ?_⟩
    obtain rfl := Option.some_inj.mp (hfresh.stored.symm.trans hs)
    rw [hfresh.reset_eq]
  | @step h s s' c hrun hexec ih =>
    obtain ⟨hnew, hlife⟩ := List.forall_mem_cons.mp hlife
    obtain ⟨hordered, hreset⟩ := ih hlife
    obtain ⟨hwithin, -⟩ := SessionKey.envelope_of_run hfresh hrun hlife
    have hstart : w₀.now.toInt ≤ s.now.toInt := now_le_of_run hrun
    rw [SessionKey.payments_cons]
    cases hs : s.sessions.lookup a with
    | none =>
      obtain ⟨hnone, hpaidFrom⟩ := SessionKey.none_of_exec hexec hs hnew
      rw [hpaidFrom]
      exact ⟨hordered, fun session hs => absurd (hnone.symm.trans hs) (by simp)⟩
    | some session =>
      have hturn := SessionKey.turn_of_exec hexec hs
      generalize s'.sessions.lookup a = session₁ at hturn ⊢
      cases hturn with
      | pays hpaidFrom hpaid =>
        rw [hpaidFrom]
        refine ⟨List.pairwise_cons.mpr ⟨hwithin.past, hordered⟩, fun session' hs' => ?_⟩
        obtain rfl := Option.mem_some_iff.mp hs'
        rcases hpaid.window with ⟨-, heq, -⟩ | ⟨-, heq, -⟩
        · rw [heq]
          exact hstart
        · rw [heq]
          exact hreset session hs
      | revokes _ hpaidFrom =>
        rw [hpaidFrom]
        refine ⟨hordered, fun session' hs' => ?_⟩
        obtain rfl := Option.mem_some_iff.mp hs'
        exact hreset session hs
      | closes hpaidFrom =>
        rw [hpaidFrom]
        exact ⟨hordered, fun session' hs' => absurd hs' (by simp)⟩
      | stays hpaidFrom =>
        rw [hpaidFrom]
        refine ⟨hordered, fun session' hs' => ?_⟩
        obtain rfl := Option.mem_some_iff.mp hs'
        exact hreset session hs

end

/-! ### What the two sides accept -/

/-- A payment is in time, not too much at once, and not too much in all. -/
structure WithinTerms (terms : SessionTerms) (spent now : ℕ) (amount : UInt64) : Prop where
  unexpired : (now : ℤ) < terms.expiresAt.toInt
  perTx : terms.perTxLimit = 0 ∨ amount ≤ terms.perTxLimit
  spending : spent + amount.toNat ≤ terms.spendingLimit.toNat

section

variable {terms : SessionTerms} {l : List SessionKey.Payment} (amount : UInt64)

/-- The agent's test, of a record that holds what was paid. -/
theorem paysDirectly_iff {d : SessionTokenData} {now : ℕ} (k : Pubkey)
    (hterms : d.expiresAt = terms.expiresAt.toInt ∧ d.spendingLimit = terms.spendingLimit ∧
      d.perTxLimit = terms.perTxLimit ∧ d.dailyTxCountLimit = terms.dailyTxCountLimit)
    (hpos : 0 < terms.expiresAt.toInt) (hspent : d.currentSpent.toNat = SessionKey.total l)
    (hlimit : SessionKey.total l ≤ terms.spendingLimit.toNat)
    (hcounted : d.counted now = min (paidOn (day now) l) (2 ^ 32 - 1)) :
    paysDirectly amount now ⟨k, d⟩ = true ↔ WithinTerms terms (SessionKey.total l) now amount ∧
      (terms.dailyTxCountLimit = 0 ∨ paidOn (day now) l < terms.dailyTxCountLimit.toNat) := by
  obtain ⟨hexpires, hspending, hperTx, hdaily⟩ := hterms
  have hbound := terms.dailyTxCountLimit.toNat_lt
  have hexpired : (d.expiresAt = 0 ∨ d.expiresAt > now) ↔ (now : ℤ) < terms.expiresAt.toInt := by
    rw [hexpires]
    omega
  have hremaining : amount ≤ d.remaining ↔
      SessionKey.total l + amount.toNat ≤ terms.spendingLimit.toNat := by
    rw [UInt64.le_iff_toNat_le, SessionTokenData.remaining, toNat_saturatingSub, hspending, hspent]
    omega
  have hcount : d.withinDailyCount now = true ↔
      terms.dailyTxCountLimit = 0 ∨ paidOn (day now) l < terms.dailyTxCountLimit.toNat := by
    rw [SessionTokenData.withinDailyCount, decide_eq_true_eq, hdaily]
    by_cases hzero : terms.dailyTxCountLimit = 0
    · exact iff_of_true (.inl hzero) (.inl hzero)
    · have hsome : 0 < terms.dailyTxCountLimit.toNat :=
        Nat.pos_of_ne_zero fun h => hzero (UInt32.toNat_inj.mp h)
      rw [or_iff_right hzero, or_iff_right hzero, UInt32.lt_iff_toNat_lt]
      rw [SessionTokenData.counted] at hcounted
      split at hcounted
      · next hover => exact iff_of_true (.inl hover) (by omega)
      · next hover =>
        rw [or_iff_right hover, hcounted]
        omega
  simp only [paysDirectly, SessionTokenData.withinLimits, SessionTokenData.withinPerTx, Bool.and_eq_true,
    decide_eq_true_eq, hexpired, hremaining, hcount, hperTx]
  constructor
  · rintro ⟨hexpired, ⟨hremaining, hperTx⟩, hcount⟩
    exact ⟨⟨hexpired, hperTx, hremaining⟩, hcount⟩
  · rintro ⟨⟨hexpired, hperTx, hremaining⟩, hcount⟩
    exact ⟨hexpired, ⟨hremaining, hperTx⟩, hcount⟩

/-- The program's test, of a session that holds what was paid. -/
theorem accepts_iff {session start : SessionKeyAccount} {owner ephemeral : Address} {now registered : Int64}
    (hstart : start = terms.account owner ephemeral registered) (hcounted : Counted start l session now)
    (hreset : 0 ≤ session.lastDailyReset.toInt) (hnow : 0 ≤ now.toInt) :
    ProgramAccepts session now amount ↔
      WithinTerms terms (SessionKey.total l) (seconds now) amount ∧
        (terms.dailyTxCountLimit = 0 ∨ session.lastDailyReset.toInt + 86400 ≤ now.toInt ∨
          countSince session.lastDailyReset l < terms.dailyTxCountLimit.toNat) := by
  subst hstart
  have hterms := hcounted.terms_eq
  have hexpires : session.expiresAt = terms.expiresAt := by
    rw [hterms]
    rfl
  have hspending : session.spendingLimit = terms.spendingLimit := by
    rw [hterms]
    rfl
  have hperTx : session.perTxLimit = terms.perTxLimit := by
    rw [hterms]
    rfl
  have hlimit : session.dailyTxCountLimit = terms.dailyTxCountLimit := by
    rw [hterms]
    rfl
  have hdaily := daily_iff hreset hnow hcounted.count_eq
  rw [hlimit] at hdaily
  have hspent : SessionKey.checkSpendingLimit session amount = .ok () ↔ _ := checkSpendingLimit_iff
  rw [hcounted.spent_eq, hspending] at hspent
  have hseconds : ((seconds now : ℕ) : ℤ) = now.toInt := Int.toNat_of_nonneg hnow
  have htime : now < session.expiresAt ↔ (seconds now : ℤ) < terms.expiresAt.toInt := by
    rw [Int64.lt_iff_toInt_lt, hexpires, hseconds]
  have honce : (session.perTxLimit > 0 → amount ≤ session.perTxLimit) ↔
      terms.perTxLimit = 0 ∨ amount ≤ terms.perTxLimit := by
    rw [hperTx, gt_iff_lt, UInt64.lt_iff_toNat_lt, ← UInt64.toNat_inj]
    show (0 < terms.perTxLimit.toNat → _) ↔ terms.perTxLimit.toNat = 0 ∨ _
    by_cases hle : amount ≤ terms.perTxLimit
    · exact iff_of_true (fun _ => hle) (.inr hle)
    · simp only [hle, or_false]
      exact ⟨Nat.eq_zero_of_not_pos, fun hzero hpos => by omega⟩
  constructor
  · rintro ⟨hunexpired, hperTx, hday, hspending⟩
    exact ⟨⟨htime.mp hunexpired, honce.mp hperTx, hspent.mp hspending⟩, hdaily.mp hday⟩
  · rintro ⟨⟨hunexpired, hperTx, hspending⟩, hday⟩
    exact ⟨htime.mpr hunexpired, honce.mpr hperTx, hdaily.mpr hday, hspent.mpr hspending⟩

end

/-- In every state of every run the agent and the program test the expiry, the limit of one payment and
what is left alike.  The agent has room as long as fewer payments than the limit were made since
midnight, the program as long as fewer were made since its last reset, or a day after it. -/
theorem limits_agree (rt : Runtime) (ctx : RegisterSessionKey) (terms : SessionTerms)
    (w w₀ : SessionKey.World) (hreg : SessionKey.registerSessionKey rt ctx terms w = .ok w₀)
    (hclock : 0 ≤ w₀.now.toInt) (h : List (SessionKey.World × Call)) (s : SessionKey.World)
    (hrun : Run (SessionKey.exec rt) w₀ h s) (hlife : ∀ c ∈ h, ¬ c.2.Registers ctx.session)
    (t : ℕ) (d : SessionTokenData) (hstored : StoredFor terms t d)
    (hafter : ∀ p ∈ payments ctx.session h, t ≤ seconds p.time) (hnow : t ≤ seconds s.now)
    (session : SessionKeyAccount) (hs : session ∈ s.sessions.lookup ctx.session) (k : Pubkey)
    (amount : UInt64) :
    (paysDirectly amount (seconds s.now) ⟨k, recorded d (payments ctx.session h)⟩ = true ↔
      WithinTerms terms (SessionKey.total (payments ctx.session h)) (seconds s.now) amount ∧
        (terms.dailyTxCountLimit = 0 ∨ paidOn (day (seconds s.now)) (payments ctx.session h)
          < terms.dailyTxCountLimit.toNat)) ∧
    (ProgramAccepts session s.now amount ↔
      WithinTerms terms (SessionKey.total (payments ctx.session h)) (seconds s.now) amount ∧
        (terms.dailyTxCountLimit = 0 ∨ session.lastDailyReset.toInt + 86400 ≤ s.now.toInt ∨
          countSince session.lastDailyReset (payments ctx.session h)
            < terms.dailyTxCountLimit.toNat)) ∧
    (terms.dailyTxCountLimit = 0 →
      (paysDirectly amount (seconds s.now) ⟨k, recorded d (payments ctx.session h)⟩ = true ↔
        ProgramAccepts session s.now amount)) := by
  have hfresh := SessionKey.fresh_of_register hreg
  have hregistered := SessionKey.registered_of_exec hreg
  obtain ⟨hwithin, hcounted⟩ := SessionKey.envelope_of_run hfresh hrun hlife
  obtain ⟨hordered, hreset⟩ := ordered_of_run hfresh hrun hlife
  have hstart : w₀.now.toInt ≤ s.now.toInt := now_le_of_run hrun
  have hpos : 0 < terms.expiresAt.toInt := by
    have := hregistered.unexpired
    rw [← hregistered.now_eq] at this
    omega
  set l := payments ctx.session h with hl
  have hlimit : SessionKey.total l ≤ terms.spendingLimit.toNat := hwithin.total_le
  have hfits : SessionKey.total l < 2 ^ 64 := hlimit.trans_lt terms.spendingLimit.toNat_lt
  have hpast : ∀ p ∈ l, seconds p.time ≤ seconds s.now := fun p hp =>
    Int.toNat_le_toNat (hwithin.past p hp)
  have htimes : l.Pairwise fun p q => seconds q.time ≤ seconds p.time :=
    hordered.imp fun hle => Int.toNat_le_toNat hle
  obtain ⟨-, hrecord⟩ := recorded_counted hstored.lastDailyReset hstored.currentDailyCount hafter hnow
    hpast htimes
  obtain ⟨hexpires, hspending, hperTx, hdaily⟩ := recorded_terms d l
  have hagent := paysDirectly_iff amount k
    ⟨hexpires.trans hstored.expiresAt, hspending.trans hstored.spendingLimit,
      hperTx.trans hstored.perTxLimit, hdaily.trans hstored.dailyTxCountLimit⟩ hpos
    (recorded_spent hstored.currentSpent hfits) hlimit hrecord
  have hprogram := accepts_iff amount rfl (hcounted session hs)
    (hclock.trans (hreset session hs)) (hclock.trans hstart)
  refine ⟨hagent, hprogram, fun hnone => ?_⟩
  rw [hagent, hprogram]
  exact and_congr_right fun _ => iff_of_true (.inl hnone) (.inl hnone)

/-! ### One payment a day -/

namespace Midnight

open SessionKey.Sample (dailyTerms register wallets)

/-- What the agent stores when the session is registered. -/
def stored : SessionTokenData where
  owner := fill 32 1
  expiresAt := 1000000
  spendingLimit := 1000
  currentSpent := 0
  perTxLimit := 0
  dailyTxCountLimit := 1
  currentDailyCount := 0
  lastDailyReset := 0

/-- A payment in the last second of the day, and the first second of the next. -/
def calls : List Call := [.tick 86399, SessionKey.Sample.pay 1, .tick 86400]

theorem stored_for : StoredFor dailyTerms 1000 stored :=
  ⟨rfl, rfl, rfl, rfl, rfl, rfl, by rw [todayStart]; rfl⟩

/-- The agent has room for a second payment, the program has not. -/
theorem parted : ∃ w₀ h s, SessionKey.registerSessionKey Runtime.cluster register dailyTerms wallets
      = .ok w₀ ∧ w₀.now = 1000 ∧ Run (SessionKey.exec Runtime.cluster) w₀ h s ∧
    (∀ c ∈ h, ¬ c.2.Registers register.session) ∧
    (∀ p ∈ payments register.session h, 1000 ≤ seconds p.time) ∧ 1000 ≤ seconds s.now ∧
    ∃ session ∈ s.sessions.lookup register.session,
      paysDirectly 1 (seconds s.now) ⟨fill 32 2, recorded stored (payments register.session h)⟩ = true ∧
        (resetWindow session s.now >>= checkDailyCount) ≠ .ok () := by
  have htest : (SessionKey.registerSessionKey Runtime.cluster register dailyTerms wallets).toOption.any
      fun w₀ => decide (w₀.now = 1000) &&
        (Run.record (SessionKey.exec Runtime.cluster) calls [] w₀).toOption.any fun r =>
          (r.1.all fun c => decide (¬ c.2.Registers register.session)) &&
          ((payments register.session r.1).all fun p => decide (1000 ≤ seconds p.time)) &&
          decide (1000 ≤ seconds r.2.now) &&
          (r.2.sessions.lookup register.session).any fun session =>
            paysDirectly 1 (seconds r.2.now)
                ⟨fill 32 2, recorded stored (payments register.session r.1)⟩ &&
              (resetWindow session r.2.now >>= checkDailyCount).toOption.isNone := by
    decide
  obtain ⟨w₀, hreg, htest⟩ := exists_of_any htest
  obtain ⟨hnow, htest⟩ := Bool.and_eq_true_iff.mp htest
  obtain ⟨h, s, hrun, htest⟩ := Run.exists_of_record htest
  simp only [Bool.and_eq_true, List.all_eq_true, decide_eq_true_eq, Option.any_eq_true] at htest
  obtain ⟨⟨⟨hlife, hafter⟩, hlater⟩, session, hs, hagent, hnone⟩ := htest
  refine ⟨w₀, h, s, hreg, of_decide_eq_true hnow, hrun, hlife, hafter, hlater, session, hs, hagent, ?_⟩
  intro hok
  rw [hok] at hnone
  exact absurd hnone (by simp [Except.toOption])

end Midnight

/-- A payment just after midnight, which the agent accepts and the program does not. -/
theorem midnight : ¬∀ (rt : Runtime) (ctx : RegisterSessionKey) (terms : SessionTerms)
    (w w₀ : SessionKey.World), SessionKey.registerSessionKey rt ctx terms w = .ok w₀ →
    0 ≤ w₀.now.toInt → ∀ (h : List (SessionKey.World × Call)) (s : SessionKey.World),
    Run (SessionKey.exec rt) w₀ h s → (∀ c ∈ h, ¬ c.2.Registers ctx.session) →
    ∀ (t : ℕ) (d : SessionTokenData), StoredFor terms t d →
    (∀ p ∈ payments ctx.session h, t ≤ seconds p.time) → t ≤ seconds s.now →
    ∀ session ∈ s.sessions.lookup ctx.session, ∀ (k : Pubkey) (amount : UInt64),
      paysDirectly amount (seconds s.now) ⟨k, recorded d (payments ctx.session h)⟩ = true ↔
        ProgramAccepts session s.now amount := by
  intro hall
  obtain ⟨w₀, h, s, hreg, hnow, hrun, hlife, hafter, hlater, session, hs, hagent, hdaily⟩ := Midnight.parted
  have haccepts := (hall _ _ _ _ _ hreg (by rw [hnow]; decide) h s hrun hlife _ _ Midnight.stored_for
    hafter hlater session hs _ _).mp hagent
  exact hdaily haccepts.daily

/-- There the agent has seen no payment today. -/
theorem midnight_room : ∃ w₀ h s,
    SessionKey.registerSessionKey Runtime.cluster SessionKey.Sample.register SessionKey.Sample.dailyTerms
      SessionKey.Sample.wallets = .ok w₀ ∧ Run (SessionKey.exec Runtime.cluster) w₀ h s ∧
    paidOn (day (seconds s.now)) (payments SessionKey.Sample.register.session h) < 1 := by
  obtain ⟨w₀, h, s, hreg, hnow, hrun, hlife, hafter, hlater, session, hs, hagent, -⟩ := Midnight.parted
  obtain ⟨-, hroom⟩ := (limits_agree _ _ _ _ _ hreg (by rw [hnow]; decide) h s hrun hlife _ _
    Midnight.stored_for hafter hlater session hs _ _).1.mp hagent
  exact ⟨w₀, h, s, hreg, hrun, hroom.resolve_left (by decide)⟩

end Agent
