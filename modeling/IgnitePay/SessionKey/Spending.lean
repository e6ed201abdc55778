/-
The spending envelope of a session.

A run starts with the registration of a session, and goes on with any calls by anybody, as long as
the address is not registered anew; the payments from the session are read off its history.

* `Turn.within`, `Turn.counted` — what one call keeps;
* `within_of_run`, `counted_of_run` — what is so after every run;
* `spending_envelope` — the envelope.

The daily count is the number of payments since the last reset as long as a `u32` holds it; with a
daily limit it always does.  Without one it stays at the highest value (`count_stays_behind`).
-/
import IgnitePay.Lib.Run
import IgnitePay.SessionKey.Spec

namespace SessionKey

open Bytes Machine Solana

/-! ### Payments -/

structure Payment where
  time : Int64
  amount : UInt64
deriving DecidableEq

/-- The payments of a run from the session at an address, the latest first. -/
def payments (a : Address) (h : List (World × Call)) : List Payment :=
  h.filterMap fun c => (c.2.paidFrom a).map fun amount => ⟨c.1.now, amount⟩

def total (l : List Payment) : ℕ := (l.map fun p => p.amount.toNat).sum

/-- The number of payments since a time. -/
def countSince (start : Int64) (l : List Payment) : ℕ :=
  l.countP fun p => decide (start.toInt ≤ p.time.toInt)

/-- What the payments keep to, of a session that was registered as `start`. -/
structure Within (start : SessionKeyAccount) (l : List Payment) (now : Int64) : Prop where
  total_le : total l ≤ start.spendingLimit.toNat
  perTx_le : ∀ p ∈ l, 0 < start.perTxLimit.toNat → p.amount.toNat ≤ start.perTxLimit.toNat
  unexpired : ∀ p ∈ l, p.time.toInt < start.expiresAt.toInt
  past : ∀ p ∈ l, p.time.toInt ≤ now.toInt

/-- What the session that was registered as `start` has recorded of the payments. -/
structure Counted (start : SessionKeyAccount) (l : List Payment) (session : SessionKeyAccount)
    (now : Int64) : Prop where
  spent_eq : session.currentSpent.toNat = total l
  count_eq : session.currentDailyCount.toNat
    = min (countSince session.lastDailyReset l) (2 ^ 32 - 1)
  count_le : 0 < start.dailyTxCountLimit.toNat →
    countSince session.lastDailyReset l ≤ start.dailyTxCountLimit.toNat
  reset_le : session.lastDailyReset.toInt ≤ now.toInt
  recent : ∀ p ∈ l, p.time.toInt < session.lastDailyReset.toInt + 86400
  /-- The terms of the session are those of its registration. -/
  terms_eq : session = { start with
    currentSpent := session.currentSpent
    currentDailyCount := session.currentDailyCount
    lastDailyReset := session.lastDailyReset
    revoked := session.revoked }

/-! ### One call -/

section

variable {rt : Runtime} {w w' : World} {start session session' : SessionKeyAccount} {a : Address}
  {c : Call} {amount : UInt64} {l : List Payment} {now now' : Int64}

theorem min_add_one_min (n m : ℕ) : min (min n m + 1) m = min (n + 1) m := by
  omega

theorem total_cons (p : Payment) (l : List Payment) : total (p :: l) = p.amount.toNat + total l := by
  rw [total, List.map_cons, List.sum_cons, total]

theorem Within.later (h : Within start l now) (hlater : now.toInt ≤ now'.toInt) :
    Within start l now' :=
  ⟨h.total_le, h.perTx_le, h.unexpired, fun p hp => (h.past p hp).trans hlater⟩

theorem Counted.later (h : Counted start l session now) (hlater : now.toInt ≤ now'.toInt) :
    Counted start l session now' :=
  ⟨h.spent_eq, h.count_eq, h.count_le, h.reset_le.trans hlater, h.recent, h.terms_eq⟩

theorem Paid.within (h : Paid session session' now amount) (hwithin : Within start l now)
    (hcounted : Counted start l session now) : Within start (⟨now, amount⟩ :: l) now := by
  have hterms := hcounted.terms_eq
  have hperTx : session.perTxLimit = start.perTxLimit := by rw [hterms]
  have hexpires : session.expiresAt = start.expiresAt := by rw [hterms]
  have hlimit : session.spendingLimit = start.spendingLimit := by rw [hterms]
  refine ⟨?_, List.forall_mem_cons.mpr ⟨?_, hwithin.perTx_le⟩,
    List.forall_mem_cons.mpr ⟨?_, hwithin.unexpired⟩,
    List.forall_mem_cons.mpr ⟨le_refl _, hwithin.past⟩⟩
  · have hle := h.spent_le
    rw [h.spent_eq, hcounted.spent_eq, hlimit] at hle
    rw [total_cons]
    exact (Nat.add_comm _ _).trans_le hle
  · rw [← hperTx]
    exact h.perTx_le
  · rw [← hexpires]
    exact h.unexpired

theorem Paid.counted (h : Paid session session' now amount) (hwithin : Within start l now)
    (hcounted : Counted start l session now) : Counted start (⟨now, amount⟩ :: l) session' now := by
  have hterms := hcounted.terms_eq
  have hlimit : session.dailyTxCountLimit = start.dailyTxCountLimit := by rw [hterms]
  have hspent : session'.currentSpent.toNat = total (⟨now, amount⟩ :: l) := by
    rw [h.spent_eq, hcounted.spent_eq, total_cons]
    exact Nat.add_comm _ _
  have hsame : session' = { start with
      currentSpent := session'.currentSpent
      currentDailyCount := session'.currentDailyCount
      lastDailyReset := session'.lastDailyReset
      revoked := session'.revoked } := by
    rw [h.same, hterms]
  have hcons : ∀ start' : Int64, start'.toInt ≤ now.toInt →
      countSince start' (⟨now, amount⟩ :: l) = countSince start' l + 1 := fun start' hle => by
    rw [countSince, List.countP_cons_of_pos (by simpa using hle), countSince]
  rcases h.window with ⟨hover, hreset, hcount⟩ | ⟨hwithinDay, hreset, hcount, hlt⟩
  · -- A new window: the payments so far were all before it.
    have hnone : countSince now l = 0 := by
      refine List.countP_eq_zero.mpr fun p hp => ?_
      have := hcounted.recent p hp
      simp only [decide_eq_true_eq]
      omega
    have hone : countSince session'.lastDailyReset (⟨now, amount⟩ :: l) = 1 := by
      rw [hreset, hcons now (le_refl _), hnone]
    refine ⟨hspent, by rw [hone, hcount]; rfl, fun hpos => by rw [hone]; exact hpos,
      by rw [hreset], fun p hp => ?_, hsame⟩
    rw [hreset]
    rcases List.mem_cons.mp hp with rfl | hp
    · show now.toInt < _
      omega
    · have := hwithin.past p hp
      omega
  · have hmore : countSince session'.lastDailyReset (⟨now, amount⟩ :: l)
        = countSince session.lastDailyReset l + 1 := by
      rw [hreset]
      exact hcons _ hcounted.reset_le
    have heq := hcounted.count_eq
    refine ⟨hspent, by rw [hmore, hcount, heq, min_add_one_min], fun hpos => ?_, by rw [hreset]; exact hcounted.reset_le,
      List.forall_mem_cons.mpr ⟨by rw [hreset]; exact hwithinDay, by rw [hreset]; exact hcounted.recent⟩,
      hsame⟩
    -- The number so far is within the limit, so the recorded count is the number.
    have hle := hcounted.count_le hpos
    have hlt := hlt (by rw [hlimit]; exact hpos)
    have hbound := start.dailyTxCountLimit.toNat_lt
    rw [hlimit] at hlt
    rw [hmore]
    omega

/-- What one call keeps. -/
theorem Turn.envelope {session₁ : Option SessionKeyAccount} (h : Turn a w session c session₁)
    (hwithin : Within start l w.now) (hcounted : Counted start l session w.now) :
    Within start ((c.paidFrom a).elim l fun amount => ⟨w.now, amount⟩ :: l) w.now ∧
    ∀ session' ∈ session₁,
      Counted start ((c.paidFrom a).elim l fun amount => ⟨w.now, amount⟩ :: l) session' w.now := by
  cases h with
  | pays hpaidFrom hpaid =>
    rw [hpaidFrom]
    refine ⟨hpaid.within hwithin hcounted, fun session' hs => ?_⟩
    obtain rfl := Option.mem_some_iff.mp hs
    exact hpaid.counted hwithin hcounted
  | revokes _ hpaidFrom =>
    rw [hpaidFrom]
    refine ⟨hwithin, fun session' hs => ?_⟩
    obtain rfl := Option.mem_some_iff.mp hs
    have hterms := hcounted.terms_eq
    exact ⟨hcounted.spent_eq, hcounted.count_eq, hcounted.count_le, hcounted.reset_le, hcounted.recent,
      by conv_lhs => rw [hterms]⟩
  | closes hpaidFrom =>
    rw [hpaidFrom]
    exact ⟨hwithin, fun session' hs => absurd hs (by simp)⟩
  | stays hpaidFrom =>
    rw [hpaidFrom]
    refine ⟨hwithin, fun session' hs => ?_⟩
    obtain rfl := Option.mem_some_iff.mp hs
    exact hcounted

end

/-! ### Runs -/

/-- A session that has just been registered. -/
structure Fresh (a : Address) (start : SessionKeyAccount) (w : World) : Prop where
  stored : w.sessions.lookup a = some start
  spent_eq : start.currentSpent = 0
  count_eq : start.currentDailyCount = 0
  reset_eq : start.lastDailyReset = w.now
  unrevoked : start.revoked = false

section

variable {rt : Runtime} {w w₀ s : World} {start : SessionKeyAccount} {a : Address}
  {h : List (World × Call)}

theorem fresh_of_register {ctx : RegisterSessionKey} {terms : SessionTerms}
    (hreg : registerSessionKey rt ctx terms w = .ok w₀) :
    Fresh ctx.session (terms.account ctx.owner ctx.ephemeralSigner w.now) w₀ := by
  have h := registered_of_exec hreg
  refine ⟨?_, rfl, rfl, h.now_eq.symm, rfl⟩
  rw [h.sessions_eq, AList.lookup_insert]

theorem payments_cons (a : Address) (w : World) (c : Call) (h : List (World × Call)) :
    payments a ((w, c) :: h)
      = (c.paidFrom a).elim (payments a h) fun amount => ⟨w.now, amount⟩ :: payments a h := by
  rw [payments, List.filterMap_cons]
  cases c.paidFrom a with
  | none => rfl
  | some amount => rfl

/-- What the payments of a run keep to, and what the session has recorded of them. -/
theorem envelope_of_run (hfresh : Fresh a start w₀) (hrun : Run (exec rt) w₀ h s)
    (hlife : ∀ c ∈ h, ¬ c.2.Registers a) :
    Within start (payments a h) s.now ∧
    ∀ session ∈ s.sessions.lookup a, Counted start (payments a h) session s.now := by
  induction hrun with
  | start =>
    refine ⟨⟨Nat.zero_le _, by simp [payments], by simp [payments], by simp [payments]⟩, ?_⟩
    intro session hs
    obtain rfl := Option.some_inj.mp (hfresh.stored.symm.trans hs)
    refine ⟨by rw [hfresh.spent_eq]; rfl, by rw [hfresh.count_eq]; rfl, fun _ => Nat.zero_le _,
      by rw [hfresh.reset_eq], by simp [payments], rfl⟩
  | @step h s s' c hrun hexec ih =>
    obtain ⟨hnew, hlife⟩ := List.forall_mem_cons.mp hlife
    obtain ⟨hwithin, hcounted⟩ := ih hlife
    have hlater := now_le_of_exec hexec
    rw [payments_cons]
    cases hs : s.sessions.lookup a with
    | none =>
      obtain ⟨hnone, hpaidFrom⟩ := none_of_exec hexec hs hnew
      rw [hpaidFrom]
      exact ⟨hwithin.later hlater, fun session hs => absurd (hnone.symm.trans hs) (by simp)⟩
    | some session =>
      obtain ⟨hwithin', hcounted'⟩ :=
        (turn_of_exec hexec hs).envelope hwithin (hcounted session hs)
      exact ⟨hwithin'.later hlater, fun session' hs' => (hcounted' session' hs').later hlater⟩

/-- After a revocation nothing is paid. -/
theorem revoked_of_run (hrun : Run (exec rt) w₀ h s) (hlife : ∀ c ∈ h, ¬ c.2.Registers a) :
    ((∃ c ∈ h, c.2.Revokes a) → ∀ session ∈ s.sessions.lookup a, session.revoked = true) ∧
    h.Pairwise fun later earlier => earlier.2.Revokes a → later.2.paidFrom a = none := by
  induction hrun with
  | start => exact ⟨fun ⟨c, hc, _⟩ => absurd hc (by simp), .nil⟩
  | @step h s s' c hrun hexec ih =>
    obtain ⟨hnew, hlife⟩ := List.forall_mem_cons.mp hlife
    obtain ⟨hrevoked, hpairs⟩ := ih hlife
    cases hs : s.sessions.lookup a with
    | none =>
      obtain ⟨hnone, hpaidFrom⟩ := none_of_exec hexec hs hnew
      exact ⟨fun _ session hs => absurd (hnone.symm.trans hs) (by simp),
        List.pairwise_cons.mpr ⟨fun _ _ _ => hpaidFrom, hpairs⟩⟩
    | some session =>
      have hbefore : (∃ c ∈ h, c.2.Revokes a) → session.revoked = true :=
        fun hex => hrevoked hex session hs
      have hturn := turn_of_exec hexec hs
      generalize s'.sessions.lookup a = session₁ at hturn
      cases hturn with
      | pays hpaidFrom hpaid =>
        have hnever : ¬ ∃ c ∈ h, c.2.Revokes a := fun hex =>
          absurd (hpaid.unrevoked.symm.trans (hbefore hex)) (by simp)
        have hc : ¬ c.Revokes a := by
          cases c with
          | revokeSession => exact absurd hpaidFrom (by simp [Call.paidFrom])
          | _ => exact id
        refine ⟨?_, List.pairwise_cons.mpr ⟨fun c' hc' hrev => absurd ⟨c', hc', hrev⟩ hnever, hpairs⟩⟩
        rintro ⟨c', hc', hrev⟩
        rcases List.mem_cons.mp hc' with rfl | hc'
        · exact absurd hrev hc
        · exact absurd ⟨c', hc', hrev⟩ hnever
      | revokes _ hpaidFrom =>
        refine ⟨fun _ session' hs' => ?_, List.pairwise_cons.mpr ⟨fun _ _ _ => hpaidFrom, hpairs⟩⟩
        obtain rfl := Option.mem_some_iff.mp hs'
        rfl
      | closes hpaidFrom =>
        exact ⟨fun _ _ hs' => absurd hs' (by simp),
          List.pairwise_cons.mpr ⟨fun _ _ _ => hpaidFrom, hpairs⟩⟩
      | stays hpaidFrom hunrevokes =>
        refine ⟨?_, List.pairwise_cons.mpr ⟨fun _ _ _ => hpaidFrom, hpairs⟩⟩
        rintro ⟨c', hc', hrev⟩ session' hs'
        obtain rfl := Option.mem_some_iff.mp hs'
        rcases List.mem_cons.mp hc' with rfl | hc'
        · exact absurd hrev hunrevokes
        · exact hbefore ⟨c', hc', hrev⟩

/-- A payment moves its amount, out of the session's account or out of a token account. -/
def Call.Moves (w w' : World) : Call → Prop
  | .executePayment ctx amount _ =>
    Moved w.lamports w'.lamports ctx.payer.session ctx.recipient amount ∧ w'.tokens = w.tokens
  | .executeSplPayment ctx amount _ =>
    Token.Moved w.tokens w'.tokens ctx.sourceAta ctx.destAta amount.toNat ∧ w'.lamports = w.lamports
  | _ => True

theorem moves_of_exec {c : Call} {w' : World} (h : exec rt c w = .ok w') : c.Moves w w' := by
  cases effect_of_exec h with
  | executePayment hvia =>
    obtain ⟨_, _, -, -, -, w₁, -, -, ⟨htokens, hmoved⟩, rfl⟩ := hvia.paid
    exact ⟨hmoved, htokens⟩
  | executeSplPayment hvia =>
    obtain ⟨_, _, -, -, -, w₁, -, -, ⟨hlamports, -, htokens⟩, rfl⟩ := hvia.paid
    exact ⟨Token.transfer_moved htokens, hlamports⟩
  | _ => trivial

/-- For every session and every run from its registration on: what was spent is the sum of what the
payments moved and within the limit, each payment is within its limit and before the expiry, none
comes after a revocation, and the daily count is the number of payments since the last reset, up to
what a `u32` holds; a daily limit is kept, and a failed call changes nothing. -/
theorem spending_envelope (rt : Runtime) (ctx : RegisterSessionKey) (terms : SessionTerms)
    (w w₀ : World) (hreg : registerSessionKey rt ctx terms w = .ok w₀)
    (h : List (World × Call)) (s : World) (hrun : Run (exec rt) w₀ h s)
    (hlife : ∀ c ∈ h, ¬ c.2.Registers ctx.session) :
    Within (terms.account ctx.owner ctx.ephemeralSigner w.now) (payments ctx.session h) s.now ∧
    (∀ session ∈ s.sessions.lookup ctx.session,
      Counted (terms.account ctx.owner ctx.ephemeralSigner w.now) (payments ctx.session h) session
        s.now) ∧
    h.Pairwise (fun later earlier =>
      earlier.2.Revokes ctx.session → later.2.paidFrom ctx.session = none) ∧
    (∀ c ∈ h, ∀ w', exec rt c.2 c.1 = .ok w' → c.2.Moves c.1 w') ∧
    (∀ c w e, exec rt c w = .error e → submit rt c w = w) := by
  obtain ⟨hwithin, hcounted⟩ := envelope_of_run (fresh_of_register hreg) hrun hlife
  refine ⟨hwithin, hcounted, (revoked_of_run hrun hlife).2, fun _ _ _ hexec => moves_of_exec hexec,
    fun c w e he => ?_⟩
  rw [submit, he]

end

/-! ### A session without a daily limit -/

namespace Sample

def owner : Address := .key (fill 32 1)
def agent : Address := .key (fill 32 2)
def merchant : Address := .key (fill 32 3)

def register : RegisterSessionKey := ⟨.session owner agent, owner, agent⟩

/-- A SOL session for 1000 lamports. -/
def terms : SessionTerms where
  targetProgram := fill 32 7
  expiresAt := 1000000
  spendingLimit := 1000
  scopes := ["sol:transfer"]
  tokenMint := defaultPubkey
  perTxLimit := 0
  dailyTxCountLimit := 0

/-- The owner's wallet has ten SOL, the session's address a few more lamports than its rent. -/
def wallets : World where
  sessions := ∅
  lamports a := if a = owner then 10000000000 else if a = register.session then 5000000 else 0
  tokens := ∅
  now := 1000

def payer : Payer := ⟨register.session, agent⟩

def pay (amount : UInt64) : Call := .executePayment ⟨payer, merchant⟩ amount "sol:transfer"

end Sample

section

variable {rt : Runtime} {w : World} {a ephemeralSigner recipient : Address} {scope : String}
  {session : SessionKeyAccount}

/-- What a payment of nothing needs of a session without a daily limit, in its window. -/
structure Idle (a ephemeralSigner : Address) (scope : String) (session : SessionKeyAccount)
    (w : World) : Prop where
  stored : w.sessions.lookup a = some session
  signer : ephemeralSigner.isKey
  ephemeral_eq : session.ephemeralSigner = ephemeralSigner
  unrevoked : session.revoked = false
  unexpired : w.now < session.expiresAt
  permitted : scope ∈ session.scopes
  unlimited : session.dailyTxCountLimit = 0
  spent_le : session.currentSpent ≤ session.spendingLimit
  window : session.lastDailyReset = w.now

/-- The session with one more payment of nothing. -/
def SessionKeyAccount.idled (session : SessionKeyAccount) : SessionKeyAccount :=
  { session with currentDailyCount := saturatingAddU32 session.currentDailyCount 1 }

/-- Such a payment goes through. -/
theorem exec_idle (h : Idle a ephemeralSigner scope session w) :
    exec rt (.executePayment ⟨⟨a, ephemeralSigner⟩, recipient⟩ 0 scope) w
      = .ok (w.setSession a session.idled) := by
  have hadd : checkedAdd session.currentSpent 0 = some session.currentSpent :=
    checkedAdd_eq_some.mpr (Nat.add_zero _).symm
  have helapsed : subI64 w.now session.lastDailyReset = some 0 := by
    rw [subI64_eq_some, h.window]
    exact (sub_self _).symm
  have hvalid : validatePayment session (.ok ()) w.now 0 scope = .ok () := by
    rw [validatePayment, require_bind h.unexpired, require_bind h.unrevoked,
      require_bind h.permitted]
    exact require_eq_ok.mpr fun _ => UInt64.zero_le
  have hopen : openWindow session w.now 0 = .ok session := by
    have hreset : resetWindow session w.now = .ok session := by
      rw [resetWindow, helapsed]
      rfl
    have hcount : checkDailyCount session = .ok () := by
      rw [checkDailyCount, h.unlimited]
      rfl
    have hspent : checkSpendingLimit session 0 = .ok () := by
      rw [checkSpendingLimit, hadd]
      exact require_eq_ok.mpr h.spent_le
    rw [openWindow, hreset]
    show (checkDailyCount session >>= fun _ => _) = _
    rw [hcount]
    show (checkSpendingLimit session 0 >>= fun _ => _) = _
    rw [hspent]
    rfl
  have hmove : moveLamports w a recipient 0 .panic = .ok w := by
    rw [moveLamports, Lamports.move_zero]
    rfl
  have hrecord : recordPayment session 0 = .ok session.idled := by
    rw [recordPayment, hadd]
    rfl
  have htransfer : (require (¬ w.lamports a < 0) (.code .insufficientVaultBalance)
      >>= fun _ => moveLamports w a recipient 0 .panic) = .ok w := by
    rw [require_bind (by simp), hmove]
  rw [exec, executePayment]
  exact payWith_eq_ok h.stored h.signer h.unrevoked h.ephemeral_eq hvalid hopen htransfer hrecord

theorem Idle.next (h : Idle a ephemeralSigner scope session w) :
    Idle a ephemeralSigner scope session.idled (w.setSession a session.idled) :=
  ⟨by rw [World.lookup_setSession, if_pos rfl], h.signer, h.ephemeral_eq, h.unrevoked, h.unexpired,
    h.permitted, h.unlimited, h.spent_le, h.window⟩

/-- Any number of them in one window, of which the count records what it can. -/
theorem exists_idle_run (recipient : Address) (h₀ : Idle a ephemeralSigner scope session w)
    (hcount : session.currentDailyCount = 0) (n : ℕ) : ∃ h s session', Run (exec rt) w h s ∧
      s.now = w.now ∧ Idle a ephemeralSigner scope session' s ∧
      session'.currentDailyCount.toNat = min n (2 ^ 32 - 1) ∧
      payments a h = List.replicate n ⟨w.now, 0⟩ ∧ ∀ c ∈ h, ¬ c.2.Registers a := by
  induction n with
  | zero =>
    refine ⟨[], w, session, .start, rfl, h₀, ?_, rfl, fun c hc => absurd hc (by simp)⟩
    rw [hcount, Nat.zero_min]
    rfl
  | succ n ih =>
    obtain ⟨h, s, session', hrun, hnow, hidle, hn, hpayments, hlife⟩ := ih
    refine ⟨_, _, _, .step hrun (@exec_idle rt s a ephemeralSigner recipient scope session' hidle), hnow,
      hidle.next, ?_, ?_, List.forall_mem_cons.mpr ⟨id, hlife⟩⟩
    · have hsat := toNat_saturatingAddU32 session'.currentDailyCount 1
      rw [hn, show (1 : UInt32).toNat = 1 from rfl, min_add_one_min] at hsat
      exact hsat
    · rw [payments_cons, Call.paidFrom, if_pos rfl, hpayments, hnow]
      rfl

end

/-- After 2^32 payments in one window the count is one behind their number. -/
theorem count_stays_behind : ∃ w₀ h s session,
    registerSessionKey Runtime.cluster Sample.register Sample.terms Sample.wallets = .ok w₀ ∧
    Run (exec Runtime.cluster) w₀ h s ∧ (∀ c ∈ h, ¬ c.2.Registers Sample.register.session) ∧
    s.sessions.lookup Sample.register.session = some session ∧
    session.currentDailyCount.toNat
      ≠ countSince session.lastDailyReset (payments Sample.register.session h) := by
  have htest : (registerSessionKey Runtime.cluster Sample.register Sample.terms
      Sample.wallets).toOption.any fun _ => true := by
    decide
  obtain ⟨w₀, hreg, -⟩ := exists_of_any htest
  have hfresh := fresh_of_register hreg
  have hnow := (registered_of_exec hreg).now_eq
  have hidle : Idle Sample.register.session Sample.agent "sol:transfer"
      (Sample.terms.account Sample.owner Sample.agent Sample.wallets.now) w₀ := by
    refine ⟨hfresh.stored, rfl, rfl, rfl, ?_, ?_, rfl, UInt64.zero_le, hfresh.reset_eq⟩
    · rw [hnow]
      decide
    · decide
  obtain ⟨h, s, session, hrun, hnow', hidle', hcount, hpayments, hlife⟩ :=
    @exists_idle_run Runtime.cluster w₀ _ _ _ _ Sample.merchant hidle rfl (2 ^ 32)
  refine ⟨w₀, h, s, session, hreg, hrun, hlife, hidle'.stored, ?_⟩
  -- All of them are since the last reset.
  have hsince : countSince session.lastDailyReset (payments Sample.register.session h) = 2 ^ 32 := by
    rw [hpayments, countSince, hidle'.window, hnow', List.countP_replicate, if_pos (by simp)]
  rw [hcount, hsince]
  omega

/-- Two payments, and a third one that is too much. -/
theorem spending_envelope_sol : ∃ w₀ h s, registerSessionKey Runtime.cluster Sample.register Sample.terms
      Sample.wallets = .ok w₀ ∧ Run (exec Runtime.cluster) w₀ h s ∧
    (payments Sample.register.session h).map Payment.amount = [600, 300] ∧
    (∃ e, exec Runtime.cluster (Sample.pay 101) s = .error e) ∧
    Within (Sample.terms.account Sample.owner Sample.agent Sample.wallets.now)
      (payments Sample.register.session h) s.now := by
  have htest : (registerSessionKey Runtime.cluster Sample.register Sample.terms
      Sample.wallets).toOption.any fun w₀ => (Run.record (exec Runtime.cluster)
        [Sample.pay 300, .tick 2000, Sample.pay 600] [] w₀).toOption.any fun r =>
          decide ((payments Sample.register.session r.1).map Payment.amount = [600, 300]) &&
          (exec Runtime.cluster (Sample.pay 101) r.2).toOption.isNone &&
          r.1.all fun c => decide (¬ c.2.Registers Sample.register.session) := by
    decide
  obtain ⟨w₀, hreg, htest⟩ := exists_of_any htest
  obtain ⟨h, s, hrun, htest⟩ := Run.exists_of_record htest
  obtain ⟨htest, hlife⟩ := Bool.and_eq_true_iff.mp htest
  obtain ⟨hamounts, hmore⟩ := Bool.and_eq_true_iff.mp htest
  have hmore : ∃ e, exec Runtime.cluster (Sample.pay 101) s = .error e := by
    rcases he : exec Runtime.cluster (Sample.pay 101) s with e | s'
    · exact ⟨e, rfl⟩
    · rw [he] at hmore
      exact absurd hmore (by simp [Except.toOption])
  exact ⟨w₀, h, s, hreg, hrun, of_decide_eq_true hamounts, hmore,
    (spending_envelope Runtime.cluster Sample.register Sample.terms Sample.wallets w₀ hreg h s hrun
      fun c hc => of_decide_eq_true (List.all_eq_true.mp hlife c hc)).1⟩

end SessionKey
