/-
The daily limit of a session.

The program counts the payments since the last reset, and resets when a payment comes a day
or more after the last reset.  So the limit holds within each such window; around a reset a
day can see the end of one window and the beginning of the next.

* `Turn.spread` — what one call does to the times of the payments;
* `daily_window` — at most the limit in a window, at most twice the limit in a day;
* `two_in_a_day` — more than the limit in a day.
-/
import IgnitePay.Lib.FixedWindow
import IgnitePay.SessionKey.Spending

namespace SessionKey

open Bytes Machine Solana FixedWindow

/-- When the payments were made, the latest first. -/
def times (l : List Payment) : List ℤ := l.map fun p => p.time.toInt

/-- The payments in the day that begins at `t`. -/
def countDay (t : ℤ) (l : List Payment) : ℕ := countIn t (t + 86400) (times l)

section

variable {rt : Runtime} {w s w₀ : World} {start session session' : SessionKeyAccount} {a : Address}
  {c : Call} {amount : UInt64} {l : List Payment} {now : Int64} {h : List (World × Call)} {limit : ℕ}

theorem countSince_eq (start : Int64) (l : List Payment) :
    countSince start l = countFrom start.toInt (times l) := by
  rw [countSince, countFrom, times, List.countP_map]
  rfl

theorem Paid.spread (h : Paid session session' now amount)
    (hspread : Spread 86400 limit session.lastDailyReset.toInt (times l))
    (hcounted : Counted start l session now)
    (hroom : countSince session'.lastDailyReset (⟨now, amount⟩ :: l) ≤ limit) :
    Spread 86400 limit session'.lastDailyReset.toInt (times (⟨now, amount⟩ :: l)) := by
  rw [countSince_eq] at hroom
  rcases h.window with ⟨hover, hreset, -⟩ | ⟨-, hreset, -⟩
  · rw [hreset] at hroom ⊢
    refine (hspread.restart hover fun x hx => ?_).add (le_refl _) hroom
    obtain ⟨p, hp, rfl⟩ := List.mem_map.mp hx
    exact (hcounted.recent p hp).trans_le hover
  · rw [hreset] at hroom ⊢
    exact hspread.add hcounted.reset_le hroom

/-- One call keeps the payments spread, as long as there is a session to count them. -/
theorem Turn.spread {session₁ : Option SessionKeyAccount} (h : Turn a w session c session₁)
    (hpos : 0 < start.dailyTxCountLimit.toNat) (hwithin : Within start l w.now)
    (hcounted : Counted start l session w.now)
    (hspread : Spread 86400 start.dailyTxCountLimit.toNat session.lastDailyReset.toInt (times l)) :
    (∀ t, countDay t ((c.paidFrom a).elim l fun amount => ⟨w.now, amount⟩ :: l)
      ≤ 2 * start.dailyTxCountLimit.toNat) ∧
    ∀ session' ∈ session₁, Spread 86400 start.dailyTxCountLimit.toNat session'.lastDailyReset.toInt
      (times ((c.paidFrom a).elim l fun amount => ⟨w.now, amount⟩ :: l)) := by
  cases h with
  | pays hpaidFrom hpaid =>
    rw [hpaidFrom]
    have hroom := (hpaid.counted hwithin hcounted).count_le hpos
    have hspread' := hpaid.spread hspread hcounted hroom
    exact ⟨hspread'.anywhere, fun session' hs => Option.mem_some_iff.mp hs ▸ hspread'⟩
  | revokes _ hpaidFrom =>
    rw [hpaidFrom]
    exact ⟨hspread.anywhere, fun session' hs => Option.mem_some_iff.mp hs ▸ hspread⟩
  | closes hpaidFrom =>
    rw [hpaidFrom]
    exact ⟨hspread.anywhere, fun session' hs => absurd hs (by simp)⟩
  | stays hpaidFrom =>
    rw [hpaidFrom]
    exact ⟨hspread.anywhere, fun session' hs => Option.mem_some_iff.mp hs ▸ hspread⟩

theorem spread_of_run (hfresh : Fresh a start w₀) (hpos : 0 < start.dailyTxCountLimit.toNat)
    (hrun : Run (exec rt) w₀ h s) (hlife : ∀ c ∈ h, ¬ c.2.Registers a) :
    (∀ t, countDay t (payments a h) ≤ 2 * start.dailyTxCountLimit.toNat) ∧
    ∀ session ∈ s.sessions.lookup a, Spread 86400 start.dailyTxCountLimit.toNat
      session.lastDailyReset.toInt (times (payments a h)) := by
  induction hrun with
  | start => exact ⟨fun _ => Nat.zero_le _, fun _ _ => .empty _ _ _⟩
  | @step h s s' c hrun hexec ih =>
    obtain ⟨hnew, hlife⟩ := List.forall_mem_cons.mp hlife
    obtain ⟨hday, hspread⟩ := ih hlife
    rw [payments_cons]
    cases hs : s.sessions.lookup a with
    | none =>
      obtain ⟨hnone, hpaidFrom⟩ := none_of_exec hexec hs hnew
      rw [hpaidFrom]
      exact ⟨hday, fun session hs => absurd (hnone.symm.trans hs) (by simp)⟩
    | some session =>
      obtain ⟨hwithin, hcounted⟩ := envelope_of_run hfresh hrun hlife
      exact (turn_of_exec hexec hs).spread hpos hwithin (hcounted session hs) (hspread session hs)

/-- For every session with a daily limit and every run from its registration on: at most the limit of
payments in the window since the last reset, in every state, and at most twice the limit in any day. -/
theorem daily_window (rt : Runtime) (ctx : RegisterSessionKey) (terms : SessionTerms)
    (hlimit : 0 < terms.dailyTxCountLimit.toNat) (w w₀ : World)
    (hreg : registerSessionKey rt ctx terms w = .ok w₀) (h : List (World × Call)) (s : World)
    (hrun : Run (exec rt) w₀ h s) (hlife : ∀ c ∈ h, ¬ c.2.Registers ctx.session) :
    (∀ session ∈ s.sessions.lookup ctx.session,
      countSince session.lastDailyReset (payments ctx.session h) ≤ terms.dailyTxCountLimit.toNat) ∧
    ∀ t, countDay t (payments ctx.session h) ≤ 2 * terms.dailyTxCountLimit.toNat := by
  obtain ⟨hday, hspread⟩ := spread_of_run (fresh_of_register hreg) hlimit hrun hlife
  refine ⟨fun session hs => ?_, hday⟩
  rw [countSince_eq]
  exact (hspread session hs).current

end

/-! ### Two payments around a reset -/

namespace Sample

/-- One payment a day. -/
def dailyTerms : SessionTerms := { terms with dailyTxCountLimit := 1 }

/-- The last second of the first window, and the first second after it. -/
def nightCalls : List Call := [.tick 87399, pay 1, .tick 87400, pay 1]

end Sample

theorem daily_window_night : ∃ w₀ h s, registerSessionKey Runtime.cluster Sample.register
      Sample.dailyTerms Sample.wallets = .ok w₀ ∧ Run (exec Runtime.cluster) w₀ h s ∧
    times (payments Sample.register.session h) = [87400, 87399] ∧
    ∀ t, countDay t (payments Sample.register.session h) ≤ 2 := by
  have htest : (registerSessionKey Runtime.cluster Sample.register Sample.dailyTerms
      Sample.wallets).toOption.any fun w₀ => (Run.record (exec Runtime.cluster) Sample.nightCalls []
        w₀).toOption.any fun r => decide (times (payments Sample.register.session r.1) = [87400, 87399]) &&
          r.1.all fun c => decide (¬ c.2.Registers Sample.register.session) := by
    decide
  obtain ⟨w₀, hreg, htest⟩ := exists_of_any htest
  obtain ⟨h, s, hrun, htest⟩ := Run.exists_of_record htest
  obtain ⟨htimes, hlife⟩ := Bool.and_eq_true_iff.mp htest
  have hpos : 0 < Sample.dailyTerms.dailyTxCountLimit.toNat := by decide
  exact ⟨w₀, h, s, hreg, hrun, of_decide_eq_true htimes,
    (daily_window Runtime.cluster Sample.register Sample.dailyTerms hpos Sample.wallets w₀ hreg h s hrun
      fun c hc => of_decide_eq_true (List.all_eq_true.mp hlife c hc)).2⟩

/-- With a limit of one payment, a day sees two. -/
theorem two_in_a_day : ∃ w₀ h s, registerSessionKey Runtime.cluster Sample.register
      Sample.dailyTerms Sample.wallets = .ok w₀ ∧ Run (exec Runtime.cluster) w₀ h s ∧
    (∀ c ∈ h, ¬ c.2.Registers Sample.register.session) ∧
    ¬ countDay 87399 (payments Sample.register.session h)
      ≤ Sample.dailyTerms.dailyTxCountLimit.toNat := by
  have htest : (registerSessionKey Runtime.cluster Sample.register Sample.dailyTerms
      Sample.wallets).toOption.any fun w₀ => (Run.record (exec Runtime.cluster) Sample.nightCalls []
        w₀).toOption.any fun r => decide (countDay 87399 (payments Sample.register.session r.1) = 2) &&
          r.1.all fun c => decide (¬ c.2.Registers Sample.register.session) := by
    decide
  obtain ⟨w₀, hreg, htest⟩ := exists_of_any htest
  obtain ⟨h, s, hrun, htest⟩ := Run.exists_of_record htest
  obtain ⟨htwo, hlife⟩ := Bool.and_eq_true_iff.mp htest
  refine ⟨w₀, h, s, hreg, hrun, fun c hc => of_decide_eq_true (List.all_eq_true.mp hlife c hc), ?_⟩
  rw [of_decide_eq_true htwo]
  decide

end SessionKey
