/-
One asset for a session, and the rent of its account.

A session is registered for SOL or for a mint.  The payment in tokens compares the mint, though
not with the token account it pays from; the payment in lamports compares nothing, and does not
look at the rent, which `withdraw_remaining` leaves in the account.

* `live_of_exec` — which calls leave the account its rent;
* `one_asset_iff` — the session pays in its own asset and keeps its rent exactly if every payment
  in lamports from a session for a mint is of nothing, every payment in tokens comes from an
  account of the mint, and every payment in lamports leaves the rent.
-/
import IgnitePay.SessionKey.Spending

namespace SessionKey

open Bytes Machine Solana

/-- The payment is made in the asset of a session for the mint. -/
def Call.InAsset (mint : Pubkey) (w : World) : Call → Prop
  | .executePayment _ _ _ => mint = defaultPubkey
  | .executeSplPayment ctx _ _ => ∃ t ∈ w.tokens.lookup ctx.sourceAta, t.mint = mint
  | _ => True

instance Call.decidableInAsset (mint : Pubkey) (w : World) : (c : Call) → Decidable (c.InAsset mint w)
  | .registerSessionKey _ _ => inferInstanceAs (Decidable True)
  | .executePayment _ _ _ => inferInstanceAs (Decidable (_ = _))
  | .executeSplPayment _ _ _ => inferInstanceAs (Decidable (∃ _ ∈ (_ : Option _), _))
  | .withdrawRemaining _ _ => inferInstanceAs (Decidable True)
  | .withdrawSplRemaining _ _ _ _ => inferInstanceAs (Decidable True)
  | .revokeSession _ => inferInstanceAs (Decidable True)
  | .closeSession _ => inferInstanceAs (Decidable True)
  | .transfer _ _ _ => inferInstanceAs (Decidable True)
  | .useTokens _ => inferInstanceAs (Decidable True)
  | .tick _ => inferInstanceAs (Decidable True)

/-- What the calls of a run paid from the session in the asset of the mint. -/
def paidInAsset (a : Address) (mint : Pubkey) (h : List (World × Call)) : ℕ :=
  (h.map fun c => if c.2.InAsset mint c.1 then (c.2.paidFrom a).elim 0 UInt64.toNat else 0).sum

/-- A run from the registration of a session for the mint: a session for a mint pays no lamports, one
for SOL no tokens, what was spent is what was paid in the one asset, and the rent is always there. -/
structure OneAsset (rt : Runtime) (a : Address) (mint : Pubkey) (session : SessionKeyAccount)
    (h : List (World × Call)) (s : World) : Prop where
  lamports_kept : mint ≠ defaultPubkey → ∀ c ∈ h, c.2.paidFrom a ≠ none →
    ∀ w', exec rt c.2 c.1 = .ok w' → (c.1.lamports a).toNat ≤ (w'.lamports a).toNat
  tokens_kept : mint = defaultPubkey → ∀ c ∈ h, c.2.paidFrom a ≠ none →
    ∀ w', exec rt c.2 c.1 = .ok w' → w'.tokens = c.1.tokens
  one_unit : session.currentSpent.toNat = paidInAsset a mint h
  live : ∀ w ∈ Run.states h s, rt.rentExempt.toNat ≤ (w.lamports a).toNat

/-- Whom a call pays lamports of the session at an address, and how many. -/
def Call.lamportsTo (a : Address) : Call → Option (Address × UInt64)
  | .executePayment ctx amount _ => if ctx.payer.session = a then some (ctx.recipient, amount) else none
  | _ => none

/-- The condition on a call in a state: a payment of something is made in the asset of the mint, and
one in lamports to somebody else leaves the rent. -/
structure Call.Keeps (rt : Runtime) (a : Address) (mint : Pubkey) (w : World) (c : Call) : Prop where
  asset : ∀ amount ∈ c.paidFrom a, amount = 0 ∨ c.InAsset mint w
  rent : ∀ p ∈ c.lamportsTo a,
    p.1 = a ∨ p.2.toNat + rt.rentExempt.toNat ≤ (w.lamports a).toNat

-- Decided on the one amount there is: an instance for all amounts would try every `u64`.
instance (rt : Runtime) (a : Address) (mint : Pubkey) (w : World) (c : Call) :
    Decidable (c.Keeps rt a mint w) :=
  have : Decidable (∀ amount ∈ c.paidFrom a, amount = 0 ∨ c.InAsset mint w) :=
    Option.decidableForallMem _
  have : Decidable (∀ p ∈ c.lamportsTo a,
      p.1 = a ∨ p.2.toNat + rt.rentExempt.toNat ≤ (w.lamports a).toNat) :=
    Option.decidableForallMem _
  decidable_of_iff ((∀ amount ∈ c.paidFrom a, amount = 0 ∨ c.InAsset mint w) ∧
      ∀ p ∈ c.lamportsTo a, p.1 = a ∨ p.2.toNat + rt.rentExempt.toNat ≤ (w.lamports a).toNat)
    ⟨fun h => ⟨h.1, h.2⟩, fun h => ⟨h.asset, h.rent⟩⟩

section

variable {rt : Runtime} {w w' w₀ s : World} {a : Address} {mint : Pubkey} {c : Call}
  {session start : SessionKeyAccount} {h : List (World × Call)}

/-- A call that meets the condition leaves the session its rent, if it leaves the session. -/
theorem live_of_exec (hexec : exec rt c w = .ok w') (hplace : a.isKey = false)
    (hs : w.sessions.lookup a = some session) (hs' : w'.sessions.lookup a ≠ none)
    (hlive : rt.rentExempt.toNat ≤ (w.lamports a).toNat) (hkeeps : c.Keeps rt a mint w) :
    rt.rentExempt.toNat ≤ (w'.lamports a).toNat := by
  cases effect_of_exec hexec with
  | @registerSessionKey ctx terms hregistered =>
    obtain ⟨topUp, hmoved⟩ := hregistered.lamports
    have hne : a ≠ ctx.owner := by
      rintro rfl
      exact absurd (hplace.symm.trans hregistered.signer) (by simp)
    have := hmoved a
    rw [if_neg hne] at this
    omega
  | @executePayment ctx amount scope hvia =>
    obtain ⟨_, session', -, -, -, w₁, -, -, ⟨-, hmoved⟩, rfl⟩ := hvia.paid
    have := hmoved a
    show _ ≤ (w₁.lamports a).toNat
    by_cases ha : ctx.payer.session = a
    · have hleft : ctx.recipient = a ∨ amount.toNat + rt.rentExempt.toNat ≤ (w.lamports a).toNat :=
        hkeeps.rent (ctx.recipient, amount) (if_pos ha)
      rw [if_pos ha.symm] at this
      rcases hleft with hself | hleft
      · rw [if_pos hself.symm] at this
        omega
      · omega
    · rw [if_neg (Ne.symm ha)] at this
      omega
  | executeSplPayment hvia =>
    obtain ⟨_, session', -, -, -, w₁, -, -, ⟨hlamports, -⟩, rfl⟩ := hvia.paid
    rw [World.lamports_setSession, hlamports]
    exact hlive
  | @withdrawRemaining ctx recipient session₁ howned _ hmoved =>
    have := hmoved a
    have hsub := toNat_saturatingSub (w.lamports ctx.session) rt.rentExempt
    by_cases ha : a = ctx.session
    · rw [if_pos ha, hsub, ← ha] at this
      omega
    · rw [if_neg ha] at this
      omega
  | withdrawSplRemaining _ _ hlamports =>
    rw [hlamports]
    exact hlive
  | revokeSession _ _ hleft =>
    rw [hleft]
    exact hlive
  | @closeSession ctx session₁ howned _ hsessions hmoved =>
    have ha : a ≠ ctx.session := by
      rintro rfl
      rw [hsessions, AList.lookup_erase] at hs'
      exact hs' rfl
    have := hmoved a
    rw [if_neg ha] at this
    omega
  | @transfer src dst amount hsigner _ hmoved =>
    have hne : a ≠ src := by
      rintro rfl
      exact absurd (hplace.symm.trans hsigner) (by simp)
    have := hmoved a
    rw [if_neg hne] at this
    omega
  | useTokens hleft =>
    rw [hleft]
    exact hlive
  | tick _ hleft =>
    rw [hleft]
    exact hlive

/-- A session that is there at the end of a run was there in every state of it. -/
theorem stored_of_run (hrun : Run (exec rt) w₀ h s) (hlife : ∀ c ∈ h, ¬ c.2.Registers a)
    (hs : s.sessions.lookup a ≠ none) : ∀ c ∈ h, c.1.sessions.lookup a ≠ none := by
  induction hrun with
  | start => exact fun c hc => absurd hc (by simp)
  | @step h s s' c hrun hexec ih =>
    obtain ⟨hnew, hlife⟩ := List.forall_mem_cons.mp hlife
    have hbefore : s.sessions.lookup a ≠ none := fun hnone => hs (none_of_exec hexec hnone hnew).1
    exact List.forall_mem_cons.mpr ⟨hbefore, ih hlife hbefore⟩

theorem live_of_run (hrun : Run (exec rt) w₀ h s) (hplace : a.isKey = false)
    (hlife : ∀ c ∈ h, ¬ c.2.Registers a) (hs : s.sessions.lookup a ≠ none)
    (hlive : rt.rentExempt.toNat ≤ (w₀.lamports a).toNat)
    (hkeeps : ∀ c ∈ h, c.2.Keeps rt a mint c.1) :
    ∀ w ∈ Run.states h s, rt.rentExempt.toNat ≤ (w.lamports a).toNat := by
  induction hrun with
  | start => exact fun w hw => List.mem_singleton.mp hw ▸ hlive
  | @step h s s' c hrun hexec ih =>
    have hbefore := stored_of_run (.step hrun hexec) hlife hs (s, c) List.mem_cons_self
    obtain ⟨hlast, hkeeps⟩ := List.forall_mem_cons.mp hkeeps
    have ih := ih (List.forall_mem_cons.mp hlife).2 hbefore hkeeps
    obtain ⟨session, hsession⟩ := Option.ne_none_iff_exists'.mp hbefore
    refine List.forall_mem_cons.mpr ⟨?_, ih⟩
    exact live_of_exec hexec hplace hsession hs (ih s List.mem_cons_self) hlast

/-- What was spent was paid in the asset exactly if every payment of something was. -/
theorem total_eq_paidInAsset_iff : total (payments a h) = paidInAsset a mint h ↔
    ∀ c ∈ h, ∀ amount, c.2.paidFrom a = some amount → amount = 0 ∨ c.2.InAsset mint c.1 := by
  have hle : ∀ h : List (World × Call), paidInAsset a mint h ≤ total (payments a h) := by
    intro h
    induction h with
    | nil => exact le_refl _
    | cons c h ih =>
      rw [paidInAsset, List.map_cons, List.sum_cons, payments_cons]
      rw [paidInAsset] at ih
      rcases c.2.paidFrom a with _ | amount
      · simpa using ih
      · show _ ≤ total (⟨c.1.now, amount⟩ :: payments a h)
        rw [total_cons]
        show _ ≤ amount.toNat + _
        split
        · exact Nat.add_le_add_left ih _
        · omega
  induction h with
  | nil => exact iff_of_true rfl fun c hc => absurd hc (by simp)
  | cons c h ih =>
    rw [List.forall_mem_cons, paidInAsset, List.map_cons, List.sum_cons, payments_cons]
    refine Iff.trans ?_ (and_congr_right fun _ => ih)
    have hrest := hle h
    rw [paidInAsset] at hrest ⊢
    rcases hpaid : c.2.paidFrom a with _ | amount
    · simp
    · show total (⟨c.1.now, amount⟩ :: payments a h) = _ ↔ _
      rw [total_cons]
      show amount.toNat + _ = _ ↔ _
      by_cases hin : c.2.InAsset mint c.1
      · rw [if_pos hin]
        show amount.toNat + _ = amount.toNat + _ ↔ _
        rw [Nat.add_left_cancel_iff]
        exact (and_iff_right fun _ _ => .inr hin).symm
      · rw [if_neg hin]
        constructor
        · intro heq
          have hzero : amount = 0 := UInt64.toNat_inj.mp (show amount.toNat = 0 by omega)
          refine ⟨fun amount' h' => .inl ?_, by omega⟩
          rw [← Option.some_inj.mp h', hzero]
        · rintro ⟨hzero, heq⟩
          obtain rfl := (hzero amount rfl).resolve_right hin
          rw [heq]
          rfl

/-- A payment in the asset of the mint leaves the lamports of a session for a mint alone. -/
theorem lamports_le_of_pays {amount : UInt64} (hexec : exec rt c w = .ok w')
    (hmint : mint ≠ defaultPubkey) (hpaidFrom : c.paidFrom a = some amount)
    (hin : amount = 0 ∨ c.InAsset mint w) : (w.lamports a).toNat ≤ (w'.lamports a).toNat := by
  cases effect_of_exec hexec with
  | @executePayment ctx amount' scope hvia =>
    obtain ⟨_, session', -, -, -, w₁, -, -, ⟨-, hmoved⟩, rfl⟩ := hvia.paid
    obtain rfl := hin.resolve_right hmint
    have hamount : amount' = 0 := by
      by_cases ha : ctx.payer.session = a
      · exact Option.some_inj.mp ((if_pos ha).symm.trans hpaidFrom)
      · exact absurd ((if_neg ha).symm.trans hpaidFrom) (by simp)
    have := hmoved a
    rw [hamount] at this
    simpa using this.ge
  | executeSplPayment hvia =>
    obtain ⟨_, session', -, -, -, w₁, -, -, ⟨hlamports, -⟩, rfl⟩ := hvia.paid
    rw [World.lamports_setSession, hlamports]
  | _ => exact absurd hpaidFrom (by simp [Call.paidFrom])

/-- No payment from a session for SOL touches a token. -/
theorem tokens_eq_of_pays (hexec : exec rt c w = .ok w') (hs : w.sessions.lookup a = some session)
    (hmint : session.tokenMint = defaultPubkey) (hpaidFrom : c.paidFrom a ≠ none) :
    w'.tokens = w.tokens := by
  cases effect_of_exec hexec with
  | executePayment hvia =>
    obtain ⟨_, session', -, -, -, w₁, -, -, ⟨htokens, -⟩, rfl⟩ := hvia.paid
    exact htokens
  | @executeSplPayment ctx amount scope hvia =>
    obtain ⟨session₁, session', hload, -, -, w₁, -, -, ⟨-, hne, -⟩, rfl⟩ := hvia.paid
    have ha : ctx.payer.session = a := by
      by_contra ha
      exact hpaidFrom (if_neg ha)
    obtain rfl := Option.some_inj.mp (hs.symm.trans (ha ▸ hload))
    exact absurd hmint hne
  | _ => exact absurd rfl hpaidFrom

/-- Of a payment in lamports to somebody else, the rent was left exactly if it is there afterwards. -/
theorem rent_left_of_live {ctx : ExecutePayment} {amount : UInt64} {scope : String}
    (hexec : exec rt (.executePayment ctx amount scope) w = .ok w') (ha : ctx.payer.session = a)
    (hlive : rt.rentExempt.toNat ≤ (w'.lamports a).toNat) :
    ctx.recipient = a ∨ amount.toNat + rt.rentExempt.toNat ≤ (w.lamports a).toNat := by
  have hvia : PaidVia ctx.payer amount w w' fun _ w₁ => w₁.tokens = w.tokens ∧
      Moved w.lamports w₁.lamports ctx.payer.session ctx.recipient amount := by
    cases effect_of_exec hexec with
    | executePayment hvia => exact hvia
  obtain ⟨_, session', -, -, -, w₁, -, -, ⟨-, hmoved⟩, rfl⟩ := hvia.paid
  have hmoved := hmoved a
  have hlive : _ ≤ (w₁.lamports a).toNat := hlive
  rw [if_pos ha.symm] at hmoved
  by_cases hself : a = ctx.recipient
  · exact .inl hself.symm
  · rw [if_neg hself] at hmoved
    exact .inr (by omega)

/-- For every session and every run from its registration on in which it is not closed: it pays in one
asset and keeps its rent exactly if every call of the run meets the condition. -/
theorem one_asset_iff (rt : Runtime) (ctx : RegisterSessionKey) (terms : SessionTerms) (w w₀ : World)
    (hreg : registerSessionKey rt ctx terms w = .ok w₀) (h : List (World × Call)) (s : World)
    (hrun : Run (exec rt) w₀ h s) (hlife : ∀ c ∈ h, ¬ c.2.Registers ctx.session)
    (session : SessionKeyAccount) (hs : s.sessions.lookup ctx.session = some session) :
    OneAsset rt ctx.session terms.tokenMint session h s ↔
      ∀ c ∈ h, c.2.Keeps rt ctx.session terms.tokenMint c.1 := by
  have hregistered := registered_of_exec hreg
  have hfresh := fresh_of_register hreg
  have hplace : ctx.session.isKey = false := by rw [hregistered.place]; rfl
  have hpresent : s.sessions.lookup ctx.session ≠ none := by simp [hs]
  have hspent := ((envelope_of_run hfresh hrun hlife).2 session hs).spent_eq
  constructor
  · intro hone c hc
    have hall := total_eq_paidInAsset_iff.mp (hspent.symm.trans hone.one_unit) c hc
    obtain ⟨w', hw', hexec⟩ := hrun.next_mem_states hc
    refine ⟨hall, fun p hp => ?_⟩
    rcases c with ⟨w, c⟩
    cases c with
    | executePayment ctx' amount scope =>
      obtain ⟨ha, hp⟩ := Option.ite_none_right_eq_some.mp hp
      obtain rfl := Option.some_inj.mp hp
      exact rent_left_of_live hexec ha (hone.live w' hw')
    | _ => exact absurd hp (by simp [Call.lamportsTo])
  · intro hkeeps
    refine ⟨fun hmint c hc hpaid w' hexec => ?_, fun hmint c hc hpaid w' hexec => ?_, ?_, ?_⟩
    · obtain ⟨amount, hamount⟩ := Option.ne_none_iff_exists'.mp hpaid
      exact lamports_le_of_pays hexec hmint hamount ((hkeeps c hc).asset amount hamount)
    · -- The session has the mint that it was registered with.
      obtain ⟨session', hsession⟩ :=
        Option.ne_none_iff_exists'.mp (stored_of_run hrun hlife hpresent c hc)
      obtain ⟨h₁, s₁, hbefore, hsub, -⟩ := hrun.of_mem hc
      have hcounted := (envelope_of_run hfresh hbefore fun c hc => hlife c (hsub hc)).2
      have hterms := (hcounted session' hsession).terms_eq
      have hmint' : session'.tokenMint = defaultPubkey := by
        rw [hterms]
        exact hmint
      exact tokens_eq_of_pays hexec hsession hmint' hpaid
    · rw [hspent]
      exact total_eq_paidInAsset_iff.mpr fun c hc => (hkeeps c hc).asset
    · exact live_of_run hrun hplace hlife hpresent hregistered.rent_le hkeeps

end

/-! ### A session for a mint that pays its lamports away -/

namespace Sample

/-- A session for some mint. -/
def tokenTerms : SessionTerms := { terms with tokenMint := fill 32 8, spendingLimit := 10000000 }

end Sample

/-- The ephemeral key takes all lamports out of the account of a session for a mint. -/
theorem lamports_from_token_session : ∃ w₀ h s session, registerSessionKey Runtime.cluster
      Sample.register Sample.tokenTerms Sample.wallets = .ok w₀ ∧ Run (exec Runtime.cluster) w₀ h s ∧
    (∀ c ∈ h, ¬ c.2.Registers Sample.register.session) ∧
    s.sessions.lookup Sample.register.session = some session ∧
    s.lamports Sample.register.session = 0 ∧ session.currentSpent = 5000000 ∧
    ¬ OneAsset Runtime.cluster Sample.register.session Sample.tokenTerms.tokenMint session h s := by
  have htest : (registerSessionKey Runtime.cluster Sample.register Sample.tokenTerms
      Sample.wallets).toOption.any fun w₀ => (Run.record (exec Runtime.cluster) [Sample.pay 5000000] []
        w₀).toOption.any fun r => decide (r.2.lamports Sample.register.session = 0) &&
          (r.1.all fun c => decide (¬ c.2.Registers Sample.register.session)) &&
          (r.2.sessions.lookup Sample.register.session).any fun session =>
            decide (session.currentSpent = 5000000) := by
    decide
  obtain ⟨w₀, hreg, htest⟩ := exists_of_any htest
  obtain ⟨h, s, hrun, htest⟩ := Run.exists_of_record htest
  obtain ⟨htest, hsession⟩ := Bool.and_eq_true_iff.mp htest
  obtain ⟨hlamports, hlife⟩ := Bool.and_eq_true_iff.mp htest
  obtain ⟨session, hs, hspent⟩ := (Option.any_eq_true _ _).mp hsession
  have hlamports := of_decide_eq_true hlamports
  refine ⟨w₀, h, s, session, hreg, hrun,
    fun c hc => of_decide_eq_true (List.all_eq_true.mp hlife c hc), hs, hlamports,
    of_decide_eq_true hspent, fun hone => ?_⟩
  have hlive : Runtime.cluster.rentExempt.toNat ≤ (s.lamports Sample.register.session).toNat :=
    hone.live s List.mem_cons_self
  rw [hlamports] at hlive
  exact absurd hlive (by decide)

theorem one_asset_sol : ∃ w₀ h s session, registerSessionKey Runtime.cluster
      Sample.register Sample.terms Sample.wallets = .ok w₀ ∧ Run (exec Runtime.cluster) w₀ h s ∧
    (payments Sample.register.session h).map Payment.amount = [600, 300] ∧
    s.sessions.lookup Sample.register.session = some session ∧
    OneAsset Runtime.cluster Sample.register.session Sample.terms.tokenMint session h s := by
  have htest : (registerSessionKey Runtime.cluster Sample.register Sample.terms
      Sample.wallets).toOption.any fun w₀ => (Run.record (exec Runtime.cluster)
        [Sample.pay 300, Sample.pay 600] [] w₀).toOption.any fun r =>
          decide ((payments Sample.register.session r.1).map Payment.amount = [600, 300]) &&
          (r.1.all fun c => decide (¬ c.2.Registers Sample.register.session)) &&
          (r.1.all fun c => decide (c.2.Keeps Runtime.cluster Sample.register.session
            Sample.terms.tokenMint c.1)) &&
          (r.2.sessions.lookup Sample.register.session).any fun _ => true := by
    decide
  obtain ⟨w₀, hreg, htest⟩ := exists_of_any htest
  obtain ⟨h, s, hrun, htest⟩ := Run.exists_of_record htest
  obtain ⟨htest, hsession⟩ := Bool.and_eq_true_iff.mp htest
  obtain ⟨htest, hkeeps⟩ := Bool.and_eq_true_iff.mp htest
  obtain ⟨hamounts, hlife⟩ := Bool.and_eq_true_iff.mp htest
  obtain ⟨session, hs, -⟩ := (Option.any_eq_true _ _).mp hsession
  have hiff := one_asset_iff Runtime.cluster Sample.register Sample.terms Sample.wallets w₀ hreg h s hrun
    (fun c hc => of_decide_eq_true (List.all_eq_true.mp hlife c hc)) session hs
  exact ⟨w₀, h, s, session, hreg, hrun, of_decide_eq_true hamounts, hs,
    hiff.mpr fun c hc => of_decide_eq_true (List.all_eq_true.mp hkeeps c hc)⟩

end SessionKey
