/-
What each instruction of the session program can do.

`Effect` lists, call by call, the facts that a success establishes: the session it loaded, the
checks that passed, and the ledger it left.  The invariants are proved from it, or from `Turn`, which
says no more than what became of one session; nothing else unfolds an instruction.

* `paid_of_payWith` — the facts behind a payment, whichever of the two it is;
* `effect_of_exec` — every successful call has the effect that is listed for it;
* `turn_of_exec` — what it does to a given session.
-/
import IgnitePay.SessionKey.Program

namespace SessionKey

open Bytes Machine Solana

/-- `amount` lamports go from `src` to `dst`, and nothing else changes. -/
def Moved (l l' : Address → UInt64) (src dst : Address) (amount : UInt64) : Prop :=
  ∀ a, (l' a).toNat + (if a = src then amount.toNat else 0)
    = (l a).toNat + (if a = dst then amount.toNat else 0)

/-! ### The facts behind each success -/

/-- A payment of `amount` at `now`: what it checks of the session, and what it makes of it. -/
structure Paid (session session' : SessionKeyAccount) (now : Int64) (amount : UInt64) : Prop where
  unexpired : now.toInt < session.expiresAt.toInt
  unrevoked : session.revoked = false
  perTx_le : 0 < session.perTxLimit.toNat → amount.toNat ≤ session.perTxLimit.toNat
  spent_eq : session'.currentSpent.toNat = session.currentSpent.toNat + amount.toNat
  spent_le : session'.currentSpent.toNat ≤ session.spendingLimit.toNat
  window : (session.lastDailyReset.toInt + 86400 ≤ now.toInt ∧
      session'.lastDailyReset = now ∧ session'.currentDailyCount.toNat = 1) ∨
    (now.toInt < session.lastDailyReset.toInt + 86400 ∧
      session'.lastDailyReset = session.lastDailyReset ∧
      session'.currentDailyCount.toNat = min (session.currentDailyCount.toNat + 1) (2 ^ 32 - 1) ∧
      (0 < session.dailyTxCountLimit.toNat →
        session.currentDailyCount.toNat + 1 ≤ session.dailyTxCountLimit.toNat))
  /-- Nothing else of the session changes. -/
  same : session' = { session with
    currentSpent := session'.currentSpent
    currentDailyCount := session'.currentDailyCount
    lastDailyReset := session'.lastDailyReset }

/-- What the two paths do on their own between the session's checks and its new counters. -/
structure PaidVia (payer : Payer) (amount : UInt64) (w w' : World)
    (transferred : SessionKeyAccount → World → Prop) : Prop where
  signer : payer.ephemeralSigner.isKey
  paid : ∃ session session', w.sessions.lookup payer.session = some session ∧
    session.ephemeralSigner = payer.ephemeralSigner ∧ Paid session session' w.now amount ∧
    ∃ w₁, w₁.sessions = w.sessions ∧ w₁.now = w.now ∧ transferred session w₁ ∧
      w' = w₁.setSession payer.session session'

/-- A session of the signing owner. -/
structure Owned (ctx : OwnerAccess) (w : World) (session : SessionKeyAccount) : Prop where
  stored : w.sessions.lookup ctx.session = some session
  signer : ctx.owner.isKey
  owner_eq : session.owner = ctx.owner

structure Registered (rt : Runtime) (ctx : RegisterSessionKey) (terms : SessionTerms) (w w' : World) :
    Prop where
  signer : ctx.owner.isKey
  place : ctx.session = .session ctx.owner ctx.ephemeralSigner
  fresh : w.sessions.lookup ctx.session = none
  unexpired : w.now.toInt < terms.expiresAt.toInt
  ephemeral_ne : ctx.ephemeralSigner ≠ defaultAddress
  sessions_eq : w'.sessions
    = w.sessions.insert ctx.session (terms.account ctx.owner ctx.ephemeralSigner w.now)
  lamports : ∃ topUp, Moved w.lamports w'.lamports ctx.owner ctx.session topUp
  rent_le : rt.rentExempt.toNat ≤ (w'.lamports ctx.session).toNat
  tokens_eq : w'.tokens = w.tokens
  now_eq : w'.now = w.now

/-- What a successful call does to the ledger. -/
inductive Effect (rt : Runtime) (w w' : World) : Call → Prop
  | registerSessionKey {ctx : RegisterSessionKey} {terms : SessionTerms}
      (h : Registered rt ctx terms w w') : Effect rt w w' (.registerSessionKey ctx terms)
  | executePayment {ctx : ExecutePayment} {amount : UInt64} {scope : String}
      (h : PaidVia ctx.payer amount w w' fun _ w₁ => w₁.tokens = w.tokens ∧
        Moved w.lamports w₁.lamports ctx.payer.session ctx.recipient amount) :
      Effect rt w w' (.executePayment ctx amount scope)
  | executeSplPayment {ctx : ExecuteSplPayment} {amount : UInt64} {scope : String}
      (h : PaidVia ctx.payer amount w w' fun session w₁ => w₁.lamports = w.lamports ∧
        session.tokenMint ≠ defaultPubkey ∧
        Token.transfer w.tokens ctx.sourceAta ctx.destAta ctx.payer.session amount = .ok w₁.tokens) :
      Effect rt w w' (.executeSplPayment ctx amount scope)
  | withdrawRemaining {ctx : OwnerAccess} {recipient : Address} {session : SessionKeyAccount}
      (owned : Owned ctx w session) (sessions_eq : w'.sessions = w.sessions)
      (lamports : Moved w.lamports w'.lamports ctx.session recipient
        (saturatingSub (w.lamports ctx.session) rt.rentExempt))
      (tokens_eq : w'.tokens = w.tokens) (now_eq : w'.now = w.now) :
      Effect rt w w' (.withdrawRemaining ctx recipient)
  | withdrawSplRemaining {ctx : OwnerAccess} {src dst : Address} {amount : UInt64}
      {session : SessionKeyAccount} (owned : Owned ctx w session)
      (sessions_eq : w'.sessions = w.sessions) (lamports_eq : w'.lamports = w.lamports)
      (now_eq : w'.now = w.now) : Effect rt w w' (.withdrawSplRemaining ctx src dst amount)
  | revokeSession {ctx : OwnerAccess} {session : SessionKeyAccount} (owned : Owned ctx w session)
      (unrevoked : session.revoked = false)
      (left : w' = w.setSession ctx.session { session with revoked := true }) :
      Effect rt w w' (.revokeSession ctx)
  | closeSession {ctx : OwnerAccess} {session : SessionKeyAccount} (owned : Owned ctx w session)
      (ended : session.revoked = true ∨ session.expiresAt.toInt ≤ w.now.toInt)
      (sessions_eq : w'.sessions = w.sessions.erase ctx.session)
      (lamports : Moved w.lamports w'.lamports ctx.session ctx.owner (w.lamports ctx.session))
      (now_eq : w'.now = w.now) : Effect rt w w' (.closeSession ctx)
  | transfer {src dst : Address} {amount : UInt64} (signer : src.isKey)
      (sessions_eq : w'.sessions = w.sessions) (lamports : Moved w.lamports w'.lamports src dst amount)
      (now_eq : w'.now = w.now) : Effect rt w w' (.transfer src dst amount)
  | useTokens {tokens : Token.Ledger Address} (left : w' = { w with tokens }) :
      Effect rt w w' (.useTokens tokens)
  | tick {now : Int64} (later : w.now.toInt ≤ now.toInt) (left : w' = { w with now }) :
      Effect rt w w' (.tick now)

/-! ### Every success has its effect -/

section

variable {rt : Runtime} {w w' : World} {session session' : SessionKeyAccount} {a : Address}
  {now : Int64} {amount : UInt64} {scope : String}

theorem loadSession_eq_ok : loadSession w a = .ok session ↔ w.sessions.lookup a = some session :=
  orErr_eq_ok

theorem of_moveLamports {src dst : Address} {e : Error} (h : moveLamports w src dst amount e = .ok w') :
    w'.sessions = w.sessions ∧ w'.tokens = w.tokens ∧ w'.now = w.now ∧
      Moved w.lamports w'.lamports src dst amount := by
  simp only [moveLamports, bind_eq_ok, orErr_eq_ok, pure, Except.pure, Except.ok.injEq] at h
  obtain ⟨lamports, hmove, rfl⟩ := h
  exact ⟨rfl, rfl, rfl, fun x => Lamports.of_move hmove x⟩

theorem of_transferTokens {src dst authority : Address}
    (h : transferTokens w src dst authority amount = .ok w') :
    w'.sessions = w.sessions ∧ w'.lamports = w.lamports ∧ w'.now = w.now ∧
      Token.transfer w.tokens src dst authority amount = .ok w'.tokens := by
  rw [transferTokens, bind_eq_ok] at h
  obtain ⟨tokens, ht, h⟩ := h
  obtain rfl := Except.ok.inj h
  refine ⟨rfl, rfl, rfl, ?_⟩
  rcases hx : Token.transfer w.tokens src dst authority amount with e | l
  · rw [hx] at ht
    exact absurd ht (by simp [Except.mapError])
  · rw [hx] at ht
    rw [Except.ok.inj ht]

theorem of_validatePayment {asset : Except Error Unit}
    (h : validatePayment session asset now amount scope = .ok ()) :
    now.toInt < session.expiresAt.toInt ∧ asset = .ok () ∧
      (0 < session.perTxLimit.toNat → amount.toNat ≤ session.perTxLimit.toNat) := by
  simp only [validatePayment, bind_eq_ok, require_eq_ok, exists_const] at h
  obtain ⟨hexpires, -, -, _, hasset, hperTx⟩ := h
  refine ⟨Int64.lt_iff_toInt_lt.mp hexpires, hasset, fun hpos => ?_⟩
  exact UInt64.le_iff_toNat_le.mp (hperTx (UInt64.lt_iff_toNat_lt.mpr hpos))

theorem of_resetWindow {opened : SessionKeyAccount} (h : resetWindow session now = .ok opened) :
    (session.lastDailyReset.toInt + 86400 ≤ now.toInt ∧
      opened = { session with currentDailyCount := 0, lastDailyReset := now }) ∨
    (now.toInt < session.lastDailyReset.toInt + 86400 ∧ opened = session) := by
  rw [resetWindow, bind_eq_ok] at h
  obtain ⟨elapsed, helapsed, h⟩ := h
  obtain rfl := Except.ok.inj h
  have helapsed := subI64_eq_some.mp (orErr_eq_ok.mp helapsed)
  have hday : (86400 : Int64).toInt = 86400 := rfl
  by_cases hover : elapsed ≥ 86400
  · have hint := Int64.le_iff_toInt_le.mp hover
    exact .inl ⟨by omega, if_pos hover⟩
  · have hint : ¬ (86400 : Int64).toInt ≤ elapsed.toInt := fun hle =>
      hover (Int64.le_iff_toInt_le.mpr hle)
    exact .inr ⟨by omega, if_neg hover⟩

theorem of_checkDailyCount (h : checkDailyCount session = .ok ())
    (hpos : 0 < session.dailyTxCountLimit.toNat) :
    session.currentDailyCount.toNat + 1 ≤ session.dailyTxCountLimit.toNat := by
  have hlimit : session.dailyTxCountLimit > 0 := UInt32.lt_iff_toNat_lt.mpr (by simpa using hpos)
  rw [checkDailyCount, if_pos hlimit, bind_eq_ok] at h
  obtain ⟨count, hadd, hle⟩ := h
  have hadd := toNat_addU32 (orErr_eq_ok.mp hadd)
  have hle := UInt32.le_iff_toNat_le.mp (require_eq_ok.mp hle)
  have hone : (1 : UInt32).toNat = 1 := rfl
  omega

theorem of_checkSpendingLimit (h : checkSpendingLimit session amount = .ok ()) :
    session.currentSpent.toNat + amount.toNat ≤ session.spendingLimit.toNat := by
  rw [checkSpendingLimit, bind_eq_ok] at h
  obtain ⟨newSpent, hspent, hlimit⟩ := h
  have hspent := checkedAdd_eq_some.mp (orErr_eq_ok.mp hspent)
  have hlimit := UInt64.le_iff_toNat_le.mp (require_eq_ok.mp hlimit)
  omega

/-- The counters that a payment leaves are those of its window and of the limits. -/
theorem paid_of_counted {opened : SessionKeyAccount}
    (hexpires : now.toInt < session.expiresAt.toInt) (hrevoked : session.revoked = false)
    (hperTx : 0 < session.perTxLimit.toNat → amount.toNat ≤ session.perTxLimit.toNat)
    (hopen : openWindow session now amount = .ok opened)
    (hrecord : recordPayment opened amount = .ok session') : Paid session session' now amount := by
  simp only [openWindow, bind_eq_ok, pure, Except.pure, Except.ok.injEq] at hopen
  obtain ⟨fresh, hreset, _, hcount, _, hspent, hfresh⟩ := hopen
  subst hfresh
  simp only [recordPayment, bind_eq_ok, orErr_eq_ok, checkedAdd_eq_some, pure, Except.pure,
    Except.ok.injEq] at hrecord
  obtain ⟨currentSpent, hadd, rfl⟩ := hrecord
  replace hcount := of_checkDailyCount hcount
  replace hspent := of_checkSpendingLimit hspent
  have hsat := toNat_saturatingAddU32 fresh.currentDailyCount 1
  have hone : (1 : UInt32).toNat = 1 := rfl
  rw [hone] at hsat
  have hwindow := of_resetWindow hreset
  have hterms : fresh.spendingLimit = session.spendingLimit ∧
      fresh.currentSpent = session.currentSpent := by
    rcases hwindow with ⟨-, rfl⟩ | ⟨-, rfl⟩
    · exact ⟨rfl, rfl⟩
    · exact ⟨rfl, rfl⟩
  rw [hterms.1, hterms.2] at hspent
  rw [hterms.2] at hadd
  rcases hwindow with ⟨hover, rfl⟩ | ⟨hwithin, rfl⟩
  · exact ⟨hexpires, hrevoked, hperTx, hadd, hadd ▸ hspent, .inl ⟨hover, rfl, rfl⟩, rfl⟩
  · exact ⟨hexpires, hrevoked, hperTx, hadd, hadd ▸ hspent,
      .inr ⟨hwithin, rfl, hsat, hcount⟩, rfl⟩

theorem paidVia_of_payWith {payer : Payer} {asset : SessionKeyAccount → Except Error Unit}
    {transfer : SessionKeyAccount → World → Except Error World}
    {transferred : SessionKeyAccount → World → Prop}
    (h : payWith payer asset transfer amount scope w = .ok w')
    (htransfer : ∀ session opened w₁, asset session = .ok () → transfer opened w = .ok w₁ →
      w₁.sessions = w.sessions ∧ w₁.now = w.now ∧ transferred session w₁) :
    PaidVia payer amount w w' transferred := by
  simp only [payWith, bind_eq_ok, loadSession_eq_ok, require_eq_ok, exists_const, pure, Except.pure,
    Except.ok.injEq] at h
  obtain ⟨session, hload, hsigner, hrevoked, hephemeral, _, hvalid, opened, hopen, w₁, ht, session',
    hrecord, rfl⟩ := h
  obtain ⟨hexpires, hasset, hperTx⟩ := of_validatePayment hvalid
  obtain ⟨hsessions, hnow, hp⟩ := htransfer session opened w₁ hasset ht
  have hpaid := paid_of_counted hexpires hrevoked hperTx hopen hrecord
  exact ⟨hsigner, session, session', hload, hephemeral, hpaid, w₁, hsessions, hnow, hp, rfl⟩

/-- A payment goes through where its parts do. -/
theorem payWith_eq_ok {payer : Payer} {asset : SessionKeyAccount → Except Error Unit}
    {transfer : SessionKeyAccount → World → Except Error World} {opened : SessionKeyAccount}
    {w₁ : World} (hload : w.sessions.lookup payer.session = some session)
    (hsigner : payer.ephemeralSigner.isKey) (hrevoked : session.revoked = false)
    (hephemeral : session.ephemeralSigner = payer.ephemeralSigner)
    (hvalid : validatePayment session (asset session) w.now amount scope = .ok ())
    (hopen : openWindow session w.now amount = .ok opened)
    (htransfer : transfer opened w = .ok w₁) (hrecord : recordPayment opened amount = .ok session') :
    payWith payer asset transfer amount scope w = .ok (w₁.setSession payer.session session') := by
  simp only [payWith, bind_eq_ok, loadSession_eq_ok, require_eq_ok, exists_const, pure, Except.pure,
    Except.ok.injEq]
  exact ⟨session, hload, hsigner, hrevoked, hephemeral, (), hvalid, opened, hopen, w₁, htransfer,
    session', hrecord, rfl⟩

theorem loadOwned_eq_ok {ctx : OwnerAccess} :
    loadOwned ctx w = .ok session ↔ Owned ctx w session := by
  simp only [loadOwned, bind_eq_ok, loadSession_eq_ok, require_eq_ok, exists_const, pure, Except.pure,
    Except.ok.injEq]
  constructor
  · rintro ⟨session, hload, hsigner, howner, rfl⟩
    exact ⟨hload, hsigner, howner⟩
  · rintro ⟨hload, hsigner, howner⟩
    exact ⟨session, hload, hsigner, howner, rfl⟩

/-- The rent is there after `init`. -/
theorem of_initSession {payer : Address} (h : initSession rt w a payer = .ok w') (ha : a ≠ payer) :
    w.sessions.lookup a = none ∧ w'.sessions = w.sessions ∧ w'.tokens = w.tokens ∧ w'.now = w.now ∧
      (∃ topUp, Moved w.lamports w'.lamports payer a topUp) ∧
      rt.rentExempt.toNat ≤ (w'.lamports a).toNat := by
  simp only [initSession, bind_eq_ok, require_eq_ok, exists_const] at h
  obtain ⟨hfresh, hmove⟩ := h
  obtain ⟨hsessions, htokens, hnow, hmoved⟩ := of_moveLamports hmove
  refine ⟨hfresh, hsessions, htokens, hnow, ⟨_, hmoved⟩, ?_⟩
  have hgain := hmoved a
  rw [if_neg ha, if_pos rfl] at hgain
  split at hgain
  · next hle =>
    rw [UInt64.toNat_sub_of_le _ _ hle] at hgain
    have hle := UInt64.le_iff_toNat_le.mp hle
    omega
  · next hlt =>
    have hlt : ¬ (w.lamports a).toNat ≤ rt.rentExempt.toNat := fun hle =>
      hlt (UInt64.le_iff_toNat_le.mpr hle)
    omega

theorem registered_of_exec {ctx : RegisterSessionKey} {terms : SessionTerms}
    (h : registerSessionKey rt ctx terms w = .ok w') : Registered rt ctx terms w w' := by
  simp only [registerSessionKey, bind_eq_ok, require_eq_ok, exists_const, pure, Except.pure,
    Except.ok.injEq] at h
  obtain ⟨hsigner, hplace, w₁, hinit, hephemeral, hexpires, -, -, -, rfl⟩ := h
  have hne : ctx.session ≠ ctx.owner := by
    intro heq
    rw [← heq, hplace] at hsigner
    exact absurd hsigner (by simp [Address.isKey])
  obtain ⟨hfresh, hsessions, htokens, hnow, hmoved, hrent⟩ := of_initSession hinit hne
  refine ⟨hsigner, hplace, hfresh, ?_, hephemeral, ?_, hmoved, hrent, htokens, hnow⟩
  · rw [← hnow]
    exact Int64.lt_iff_toInt_lt.mp hexpires
  · show w₁.sessions.insert _ _ = _
    rw [hsessions, hnow]

theorem effect_of_exec {c : Call} (h : exec rt c w = .ok w') : Effect rt w w' c := by
  cases c with
  | registerSessionKey ctx terms => exact .registerSessionKey (registered_of_exec h)
  | executePayment ctx amount scope =>
    rw [exec, executePayment] at h
    refine .executePayment (paidVia_of_payWith h fun session opened w₁ _ ht => ?_)
    simp only [bind_eq_ok, require_eq_ok, exists_const] at ht
    obtain ⟨hsessions, htokens, hnow, hmoved⟩ := of_moveLamports ht.2
    exact ⟨hsessions, hnow, htokens, hmoved⟩
  | executeSplPayment ctx amount scope =>
    rw [exec, executeSplPayment] at h
    refine .executeSplPayment (paidVia_of_payWith h fun session opened w₁ hasset ht => ?_)
    simp only [bind_eq_ok, require_eq_ok, exists_const] at hasset
    simp only [transferFromSession, bind_eq_ok, require_eq_ok, exists_const] at ht
    obtain ⟨hsessions, hlamports, hnow, htokens⟩ := of_transferTokens ht.2
    exact ⟨hsessions, hnow, hlamports, hasset.2, htokens⟩
  | withdrawRemaining ctx recipient =>
    simp only [exec, withdrawRemaining, bind_eq_ok, loadOwned_eq_ok, require_eq_ok,
      exists_const] at h
    obtain ⟨session, howned, -, h⟩ := h
    split at h
    · next hzero =>
      obtain rfl := Except.ok.inj h
      refine .withdrawRemaining howned rfl (fun a => ?_) rfl rfl
      rw [hzero]
      simp
    · obtain ⟨hsessions, htokens, hnow, hmoved⟩ := of_moveLamports h
      exact .withdrawRemaining howned hsessions hmoved htokens hnow
  | withdrawSplRemaining ctx src dst amount =>
    simp only [exec, withdrawSplRemaining, transferFromSession, bind_eq_ok, loadOwned_eq_ok,
      require_eq_ok, exists_const] at h
    obtain ⟨session, howned, -, h⟩ := h
    obtain ⟨hsessions, hlamports, hnow, -⟩ := of_transferTokens h
    exact .withdrawSplRemaining howned hsessions hlamports hnow
  | revokeSession ctx =>
    simp only [exec, revokeSession, bind_eq_ok, loadOwned_eq_ok, require_eq_ok, exists_const, pure,
      Except.pure, Except.ok.injEq] at h
    obtain ⟨session, howned, hrevoked, rfl⟩ := h
    exact .revokeSession howned hrevoked rfl
  | closeSession ctx =>
    simp only [exec, closeSession, bind_eq_ok, loadOwned_eq_ok, require_eq_ok, exists_const, pure,
      Except.pure, Except.ok.injEq] at h
    obtain ⟨session, howned, hended, w₁, hmove, rfl⟩ := h
    obtain ⟨hsessions, -, hnow, hmoved⟩ := of_moveLamports hmove
    refine .closeSession howned (hended.imp_right Int64.le_iff_toInt_le.mp) ?_ hmoved hnow
    show w₁.sessions.erase _ = _
    rw [hsessions]
  | transfer src dst amount =>
    simp only [exec, transfer, bind_eq_ok, require_eq_ok, exists_const] at h
    obtain ⟨hsessions, -, hnow, hmoved⟩ := of_moveLamports h.2
    exact .transfer h.1 hsessions hmoved hnow
  | useTokens tokens => exact .useTokens (Except.ok.inj h).symm
  | tick now =>
    simp only [exec, tick, bind_eq_ok, require_eq_ok, exists_const, pure, Except.pure,
      Except.ok.injEq] at h
    exact .tick (Int64.le_iff_toInt_le.mp h.1) h.2.symm

end

/-! ### What becomes of one session -/

/-- What a call pays from the session at an address. -/
def Call.paidFrom (a : Address) : Call → Option UInt64
  | .executePayment ctx amount _ => if ctx.payer.session = a then some amount else none
  | .executeSplPayment ctx amount _ => if ctx.payer.session = a then some amount else none
  | _ => none

/-- The call revokes the session at an address. -/
def Call.Revokes (a : Address) : Call → Prop
  | .revokeSession ctx => ctx.session = a
  | _ => False

/-- The call registers a session at an address. -/
def Call.Registers (a : Address) : Call → Prop
  | .registerSessionKey ctx _ => ctx.session = a
  | _ => False

instance Call.decidableRegisters (a : Address) : (c : Call) → Decidable (c.Registers a)
  | .registerSessionKey _ _ => inferInstanceAs (Decidable (_ = _))
  | .executePayment _ _ _ => inferInstanceAs (Decidable False)
  | .executeSplPayment _ _ _ => inferInstanceAs (Decidable False)
  | .withdrawRemaining _ _ => inferInstanceAs (Decidable False)
  | .withdrawSplRemaining _ _ _ _ => inferInstanceAs (Decidable False)
  | .revokeSession _ => inferInstanceAs (Decidable False)
  | .closeSession _ => inferInstanceAs (Decidable False)
  | .transfer _ _ _ => inferInstanceAs (Decidable False)
  | .useTokens _ => inferInstanceAs (Decidable False)
  | .tick _ => inferInstanceAs (Decidable False)

/-- What a call leaves of the session at an address: it is paid from, revoked, closed, or left
alone. -/
inductive Turn (a : Address) (w : World) (session : SessionKeyAccount) :
    Call → Option SessionKeyAccount → Prop
  | pays {c : Call} {amount : UInt64} {session' : SessionKeyAccount}
      (paidFrom : c.paidFrom a = some amount) (paid : Paid session session' w.now amount) :
      Turn a w session c (some session')
  | revokes {c : Call} (revokes : c.Revokes a) (paidFrom : c.paidFrom a = none) :
      Turn a w session c (some { session with revoked := true })
  | closes {c : Call} (paidFrom : c.paidFrom a = none) (unrevokes : ¬ c.Revokes a) :
      Turn a w session c none
  | stays {c : Call} (paidFrom : c.paidFrom a = none) (unrevokes : ¬ c.Revokes a) :
      Turn a w session c (some session)

section

variable {rt : Runtime} {w w' : World} {session : SessionKeyAccount} {a : Address} {c : Call}

theorem now_le_of_exec (h : exec rt c w = .ok w') : w.now.toInt ≤ w'.now.toInt := by
  cases effect_of_exec h with
  | registerSessionKey hregistered => rw [hregistered.now_eq]
  | executePayment hvia =>
    obtain ⟨_, _, -, -, -, w₁, -, hnow, -, rfl⟩ := hvia.paid
    rw [World.now_setSession, hnow]
  | executeSplPayment hvia =>
    obtain ⟨_, _, -, -, -, w₁, -, hnow, -, rfl⟩ := hvia.paid
    rw [World.now_setSession, hnow]
  | withdrawRemaining _ _ _ _ hnow => rw [hnow]
  | withdrawSplRemaining _ _ _ hnow => rw [hnow]
  | revokeSession _ _ hleft =>
    subst hleft
    exact le_refl _
  | closeSession _ _ _ _ hnow => rw [hnow]
  | transfer _ _ _ hnow => rw [hnow]
  | useTokens hleft =>
    subst hleft
    exact le_refl _
  | tick hlater hleft =>
    subst hleft
    exact hlater

theorem turn_of_paidVia {payer : Payer} {amount : UInt64}
    {transferred : SessionKeyAccount → World → Prop} (h : PaidVia payer amount w w' transferred)
    (hs : w.sessions.lookup a = some session)
    (hpaidFrom : c.paidFrom a = if payer.session = a then some amount else none)
    (hrevokes : ¬ c.Revokes a) : Turn a w session c (w'.sessions.lookup a) := by
  obtain ⟨session₁, session', hload, -, hpaid, w₁, hsessions, hnow, -, rfl⟩ := h.paid
  rw [World.lookup_setSession]
  by_cases ha : payer.session = a
  · rw [if_pos ha.symm]
    rw [if_pos ha] at hpaidFrom
    obtain rfl := Option.some_inj.mp (hs.symm.trans (ha ▸ hload))
    exact .pays hpaidFrom hpaid
  · rw [if_neg (Ne.symm ha), hsessions, hs]
    rw [if_neg ha] at hpaidFrom
    exact .stays hpaidFrom hrevokes

theorem turn_of_exec (h : exec rt c w = .ok w') (hs : w.sessions.lookup a = some session) :
    Turn a w session c (w'.sessions.lookup a) := by
  cases effect_of_exec h with
  | @registerSessionKey ctx terms hregistered =>
    have hne : a ≠ ctx.session := by
      rintro rfl
      exact absurd (hs.symm.trans hregistered.fresh) (by simp)
    rw [hregistered.sessions_eq, Store.lookup_insert_eq, if_neg hne, hs]
    exact .stays rfl id
  | executePayment hvia => exact turn_of_paidVia hvia hs rfl id
  | executeSplPayment hvia => exact turn_of_paidVia hvia hs rfl id
  | withdrawRemaining _ hsessions =>
    rw [hsessions, hs]
    exact .stays rfl id
  | withdrawSplRemaining _ hsessions =>
    rw [hsessions, hs]
    exact .stays rfl id
  | @revokeSession ctx session₁ howned _ hleft =>
    rw [hleft, World.lookup_setSession]
    by_cases ha : a = ctx.session
    · subst ha
      obtain rfl := Option.some_inj.mp (hs.symm.trans howned.stored)
      rw [if_pos rfl]
      exact .revokes rfl rfl
    · rw [if_neg ha, hs]
      exact .stays rfl (Ne.symm ha)
  | @closeSession ctx session₁ howned _ hsessions =>
    rw [hsessions]
    by_cases ha : a = ctx.session
    · subst ha
      rw [AList.lookup_erase]
      exact .closes rfl id
    · rw [AList.lookup_erase_ne ha, hs]
      exact .stays rfl id
  | transfer _ hsessions =>
    rw [hsessions, hs]
    exact .stays rfl id
  | useTokens hleft =>
    subst hleft
    rw [hs]
    exact .stays rfl id
  | tick _ hleft =>
    subst hleft
    rw [hs]
    exact .stays rfl id

/-- Without a session at the address nothing is paid from it, and only a registration makes one. -/
theorem none_of_exec (h : exec rt c w = .ok w') (hs : w.sessions.lookup a = none)
    (hregisters : ¬ c.Registers a) : w'.sessions.lookup a = none ∧ c.paidFrom a = none := by
  cases effect_of_exec h with
  | @registerSessionKey ctx terms hregistered =>
    rw [hregistered.sessions_eq, Store.lookup_insert_eq, if_neg (Ne.symm hregisters)]
    exact ⟨hs, rfl⟩
  | @executePayment ctx amount scope hvia =>
    obtain ⟨_, session', hload, -, -, w₁, hsessions, -, -, rfl⟩ := hvia.paid
    have hne := Store.ne_of_lookup hs hload
    rw [World.lookup_setSession, if_neg hne, hsessions]
    exact ⟨hs, if_neg (Ne.symm hne)⟩
  | @executeSplPayment ctx amount scope hvia =>
    obtain ⟨_, session', hload, -, -, w₁, hsessions, -, -, rfl⟩ := hvia.paid
    have hne := Store.ne_of_lookup hs hload
    rw [World.lookup_setSession, if_neg hne, hsessions]
    exact ⟨hs, if_neg (Ne.symm hne)⟩
  | withdrawRemaining _ hsessions => exact ⟨hsessions ▸ hs, rfl⟩
  | withdrawSplRemaining _ hsessions => exact ⟨hsessions ▸ hs, rfl⟩
  | @revokeSession ctx session₁ howned _ hleft =>
    have hne := Store.ne_of_lookup hs howned.stored
    rw [hleft, World.lookup_setSession, if_neg hne]
    exact ⟨hs, rfl⟩
  | @closeSession ctx session₁ howned _ hsessions =>
    have hne := Store.ne_of_lookup hs howned.stored
    rw [hsessions, AList.lookup_erase_ne hne]
    exact ⟨hs, rfl⟩
  | transfer _ hsessions => exact ⟨hsessions ▸ hs, rfl⟩
  | useTokens hleft => exact ⟨by rw [hleft]; exact hs, rfl⟩
  | tick _ hleft => exact ⟨by rw [hleft]; exact hs, rfl⟩

end

end SessionKey
