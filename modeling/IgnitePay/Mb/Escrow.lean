/-
The life of an escrow.

A settlement creates an escrow and moves its amount from the vault; a release
or a resolved dispute pays it out, once, to the merchant or to the buyer.  What
has been paid to whom is not in the state (both `force_release` and
`resolve_dispute` leave a claimed, disputed escrow), so these facts are about
the history of a run.

* `conserves_of_effect` — no call creates or destroys lamports;
* `escrow_effect` — an escrow loses lamports only when it is paid out in full;
* `books_of_run` — one payout per escrow, one escrow per nonce, and a settled
  amount that is the sum of the escrows not returned to the buyer;
* `refundable_of_run` — so a resolved dispute can always be paid.
-/
import IgnitePay.Mb.Accounting
import IgnitePay.Mb.FraudProof

namespace Mb

open Bytes Machine

/-! ### Conservation -/

/-- The lamports of all accounts: from some finite set of accounts on, no set
sees a difference. -/
def Conserves (w w' : World) : Prop :=
  ∃ T : Finset Address, ∀ S, T ⊆ S →
    ∑ a ∈ S, (w'.lamports a).toNat = ∑ a ∈ S, (w.lamports a).toNat

theorem Conserves.refl {w w' : World} (h : w'.lamports = w.lamports) : Conserves w w' :=
  ⟨∅, fun S _ => by rw [h]⟩

theorem Conserves.trans {w₁ w₂ w₃ : World} (h : Conserves w₁ w₂) (h' : Conserves w₂ w₃) :
    Conserves w₁ w₃ := by
  obtain ⟨T, hT⟩ := h
  obtain ⟨T', hT'⟩ := h'
  refine ⟨T ∪ T', fun S hS => ?_⟩
  rw [hT' S (Finset.union_subset_right hS), hT S (Finset.union_subset_left hS)]

theorem Moved.conserves {w w' : World} {src dst : Address} {amount : UInt64}
    (h : Moved w.lamports w'.lamports src dst amount) : Conserves w w' :=
  ⟨{src, dst}, fun S hS => h.sum_eq (hS (by simp)) (hS (by simp))⟩

theorem conserves_of_effect {w w' : World} {call : Call} (h : Effect w call w') :
    Conserves w w' := by
  cases h with
  | initializeGlobal hf => exact hf.lamports.conserves
  | initializeChannel hf => exact hf.lamports.conserves
  | updateSpendingCap _ _ hf => exact .refl hf.lamports
  | deposit hf => exact hf.lamports.conserves
  | withdraw hf => exact hf.lamports.conserves
  | @settle _ _ _ _ _ _ _ _ _ _ l _ hf =>
    have hrent : Conserves w { w with lamports := l } := Moved.conserves hf.rent
    exact hrent.trans (Moved.conserves (w := { w with lamports := l }) hf.lamports)
  | release _ hf => exact hf.lamports.conserves
  | dispute hf => exact .refl hf.lamports
  | resolveDispute hf => exact hf.lamports.conserves
  | transfer _ _ hl _ => exact hl.conserves
  | tick _ => exact .refl rfl

/-- The supply fits a `u64`, whichever accounts are counted. -/
def Supply (w : World) : Prop := ∀ S : Finset Address, ∑ a ∈ S, (w.lamports a).toNat < 2 ^ 64

theorem Supply.of_conserves {w w' : World} (h : Supply w) (hc : Conserves w w') : Supply w' := by
  obtain ⟨T, hT⟩ := hc
  intro S
  have hle : ∑ a ∈ S, (w'.lamports a).toNat ≤ ∑ a ∈ S ∪ T, (w'.lamports a).toNat :=
    Finset.sum_le_sum_of_subset Finset.subset_union_left
  rw [hT _ Finset.subset_union_right] at hle
  exact hle.trans_lt (h _)

/-! ### Payouts -/

/-- The escrow a call pays out. -/
def Call.paysFrom : Call → Option Address
  | .releaseSettlement ctx => some ctx.settlementEscrow
  | .forceRelease ctx => some ctx.settlementEscrow
  | .resolveDispute ctx _ => some ctx.settlementEscrow
  | _ => none

/-- The escrow a call returns to the buyer. -/
def Call.refunds : Call → Option Address
  | .resolveDispute ctx _ => some ctx.settlementEscrow
  | _ => none

theorem Call.paysFrom_of_release {call : Call} {ctx : EscrowAccess} {d : Bool}
    {period : Channel → Int64} (h : call.release = some (ctx, d, period)) :
    call.paysFrom = some ctx.settlementEscrow ∧ call.refunds = none := by
  cases call <;> simp_all [Call.release, Call.paysFrom, Call.refunds]

theorem Call.paysFrom_of_settlement {call : Call} {o : Bool} {ctx : BatchSettle} {r : Bytes 32}
    {t : UInt64} (h : call.settlement = some (o, ctx, r, t)) :
    call.paysFrom = none ∧ call.refunds = none := by
  cases call <;> simp_all [Call.settlement, Call.paysFrom, Call.refunds]

/-- `call` pays the escrow `e` at `a` out: its whole amount goes to the channel's
merchant or to the channel's buyer, and it is marked. -/
structure PaidOut (w w' : World) (call : Call) (a : Address) (e : SettlementEscrow) : Prop where
  pays : call.paysFrom = some a
  unclaimed : e.claimed = false
  payee : ∃ c payee, w.channelAt e.channel = some c ∧ (payee = c.merchant ∨ payee = c.buyer) ∧
    Moved w.lamports w'.lamports a payee e.amount
  claimed : w'.escrowAt a = some { e with claimed := true }

/-- Lamports that go from some other account leave an escrow at least as full. -/
theorem escrow_le_of_ne {l l' : Address → UInt64} {src dst ch : Address} {n amount : UInt64}
    (h : Moved l l' src dst amount) (hsrc : src ≠ .settlement ch n) :
    (l (.settlement ch n)).toNat ≤ (l' (.settlement ch n)).toNat :=
  h.le hsrc.symm

theorem ne_settlement_of_isKey {a ch : Address} {n : UInt64} (h : a.isKey) :
    a ≠ .settlement ch n := by
  rintro rfl
  exact absurd h (by simp [Address.isKey])

/-- A payout of one escrow, seen from any escrow. -/
theorem paidOut_of_loaded {w w' : World} {call : Call} {ctx : EscrowAccess} {d : Bool}
    {c : Channel} {e' : SettlementEscrow} {s : Accounts} (hw : WellPlaced w.accounts)
    (hload : Loaded w ctx d c e') (hpays : call.paysFrom = some ctx.settlementEscrow)
    (hpayee : ctx.party = c.merchant ∨ ctx.party = c.buyer)
    (hmoved : Moved w.lamports w'.lamports ctx.settlementEscrow ctx.party e'.amount)
    (hacc : w'.accounts =
      s.insert ctx.settlementEscrow (.settlementEscrow { e' with claimed := true }))
    {a : Address} {e : SettlementEscrow} (he : w.escrowAt a = some e) :
    PaidOut w w' call a e ∨
      (call.paysFrom ≠ some a ∧ (w.lamports a).toNat ≤ (w'.lamports a).toNat) := by
  by_cases hsame : ctx.settlementEscrow = a
  · subst hsame
    have hee : e' = e := Option.some_inj.mp (hload.escrow.symm.trans he)
    subst hee
    refine .inl ⟨hpays, hload.claimed, ⟨c, ctx.party, ?_, hpayee, hmoved⟩, ?_⟩
    · rw [hload.escrow_channel hw]
      exact hload.channel
    · rw [World.escrowAt_eq_some, hacc, Store.lookup_insert_eq, if_pos rfl]
  · exact .inr ⟨by simpa [hpays] using hsame, hmoved.le (Ne.symm hsame)⟩

/-- A call either pays an escrow out in full or takes nothing from it. -/
theorem escrow_effect {w w' : World} {call : Call} (hw : WellPlaced w.accounts)
    (h : Effect w call w') {a : Address} {e : SettlementEscrow} (he : w.escrowAt a = some e) :
    PaidOut w w' call a e ∨
      (call.paysFrom ≠ some a ∧ (w.lamports a).toNat ≤ (w'.lamports a).toNat) := by
  have hlook := World.escrowAt_eq_some.mp he
  have ha := (hw.escrow hlook).1
  -- Only a payout debits a settlement address: no key signs for one, and no vault is one.
  cases h with
  | initializeGlobal hf =>
    refine .inr ⟨by simp [Call.paysFrom], ?_⟩
    rw [ha]
    exact escrow_le_of_ne hf.lamports (ne_settlement_of_isKey hf.signer)
  | initializeChannel hf =>
    refine .inr ⟨by simp [Call.paysFrom], ?_⟩
    rw [ha]
    exact escrow_le_of_ne hf.lamports (ne_settlement_of_isKey hf.global.signer)
  | updateSpendingCap _ _ hf =>
    refine .inr ⟨by simp [Call.paysFrom], ?_⟩
    rw [hf.lamports]
  | deposit hf =>
    refine .inr ⟨by simp [Call.paysFrom], ?_⟩
    rw [ha]
    exact escrow_le_of_ne hf.lamports (ne_settlement_of_isKey hf.global.signer)
  | withdraw hf =>
    refine .inr ⟨by simp [Call.paysFrom], ?_⟩
    rw [ha]
    exact escrow_le_of_ne hf.lamports (by simp)
  | settle hcall hf =>
    refine .inr ⟨by simp [(Call.paysFrom_of_settlement hcall).1], ?_⟩
    rw [ha]
    exact (escrow_le_of_ne hf.rent (ne_settlement_of_isKey hf.signer)).trans
      (escrow_le_of_ne hf.lamports (by simp))
  | release hcall hf =>
    exact paidOut_of_loaded hw hf.loaded (Call.paysFrom_of_release hcall).1
      (.inl hf.merchant.symm) hf.lamports hf.accounts he
  | dispute hf =>
    refine .inr ⟨by simp [Call.paysFrom], ?_⟩
    rw [hf.lamports]
  | resolveDispute hf =>
    exact paidOut_of_loaded hw hf.loaded rfl (.inr hf.buyer) hf.lamports hf.accounts he
  | transfer hkey _ hl _ =>
    refine .inr ⟨by simp [Call.paysFrom], ?_⟩
    rw [ha]
    exact escrow_le_of_ne hl (ne_settlement_of_isKey hkey)
  | tick _ => exact .inr ⟨by simp [Call.paysFrom], le_rfl⟩

/-! ### What the history says -/

/-- The calls of `h` that pay the escrow at `a` out. -/
def payouts (a : Address) (h : List (World × Call)) : List (World × Call) :=
  h.filter fun p => decide (p.2.paysFrom = some a)

/-- Whether the escrow at `a` was returned to the buyer. -/
def refunded (h : List (World × Call)) (a : Address) : Bool :=
  h.any fun p => decide (p.2.refunds = some a)

/-- The channels and nonces that escrows were created for. -/
def created (h : List (World × Call)) : List (Address × UInt64) :=
  h.filterMap fun p => p.2.settlement.bind fun s =>
    (p.1.channelAt s.2.1.channel).map fun c => (s.2.1.channel, c.nonce)

/-- What an account contributes to the sum of the escrows of channel `ch` that
were not returned to the buyer. -/
def keptTerm (h : List (World × Call)) (ch a : Address) : AccountData → ℕ
  | .settlementEscrow e => if e.channel = ch ∧ refunded h a = false then e.amount.toNat else 0
  | _ => 0

def keptSum (h : List (World × Call)) (s : Accounts) (ch : Address) : ℕ :=
  Store.weight (keptTerm h ch) s

/-- What the history `h` and the state `w` it led to have to do with each other. -/
structure Books (h : List (World × Call)) (w : World) : Prop where
  paid : ∀ a, payouts a h ≠ [] → (payouts a h).length = 1 ∧
    ∃ e, w.escrowAt a = some e ∧ e.claimed = true
  exist : ∀ p ∈ created h, w.accounts.lookup (.settlement p.1 p.2) ≠ none
  once : (created h).Nodup
  settled : ∀ ch c, w.accounts.lookup ch = some (.channel c) →
    c.settledAmount.toNat = keptSum h w.accounts ch

section History

variable {w w' : World} {call : Call} {h : List (World × Call)}

theorem payouts_ne_nil_of_refunded {a : Address} (hr : refunded h a = true) :
    payouts a h ≠ [] := by
  obtain ⟨p, hp, hpr⟩ := List.any_eq_true.mp hr
  have hpays : p.2.paysFrom = some a := by
    have hrefunds := of_decide_eq_true hpr
    rcases p with ⟨wp, cp⟩
    cases cp <;> simp_all [Call.refunds, Call.paysFrom]
  exact List.ne_nil_of_mem (List.mem_filter.mpr ⟨hp, decide_eq_true hpays⟩)

/-- What is not a claimed escrow was not returned to the buyer. -/
theorem Books.refunded_eq_false (hb : Books h w) {a : Address}
    (ha : ∀ e, w.escrowAt a = some e → e.claimed = false) : refunded h a = false := by
  by_contra hne
  have hr : refunded h a = true := by simpa using hne
  obtain ⟨-, e, he, hclaimed⟩ := hb.paid a (payouts_ne_nil_of_refunded hr)
  rw [ha e he] at hclaimed
  exact absurd hclaimed (by decide)

/-! #### Payouts -/

theorem exists_escrow_of_pays (he : Effect w call w') {a : Address}
    (hpays : call.paysFrom = some a) : ∃ e, w.escrowAt a = some e := by
  cases he with
  | release hcall hf =>
    rw [(Call.paysFrom_of_release hcall).1, Option.some_inj] at hpays
    exact ⟨_, hpays ▸ hf.loaded.escrow⟩
  | resolveDispute hf =>
    rw [Call.paysFrom, Option.some_inj] at hpays
    exact ⟨_, hpays ▸ hf.loaded.escrow⟩
  | settle hcall _ =>
    rw [(Call.paysFrom_of_settlement hcall).1] at hpays
    exact absurd hpays (by simp)
  | _ => exact absurd hpays (by simp [Call.paysFrom])

theorem Books.paid_step (hw : WellPlaced w.accounts) (hb : Books h w) (he : Effect w call w')
    (a : Address) (hne : payouts a ((w, call) :: h) ≠ []) :
    (payouts a ((w, call) :: h)).length = 1 ∧ ∃ e, w'.escrowAt a = some e ∧ e.claimed = true := by
  by_cases hpays : call.paysFrom = some a
  · obtain ⟨e, hesc⟩ := exists_escrow_of_pays he hpays
    obtain hout | ⟨hnot, -⟩ := escrow_effect hw he hesc
    · -- The escrow was unclaimed, so this is its first payout.
      have hnil : payouts a h = [] := by
        by_contra hsome
        obtain ⟨-, e', he', hclaimed⟩ := hb.paid a hsome
        rw [hesc, Option.some_inj] at he'
        rw [← he', hout.unclaimed] at hclaimed
        exact absurd hclaimed (by decide)
      have hcons : payouts a ((w, call) :: h) = (w, call) :: payouts a h :=
        List.filter_cons_of_pos (decide_eq_true hpays)
      rw [hcons, hnil]
      exact ⟨rfl, _, hout.claimed, rfl⟩
    · exact absurd hpays hnot
  · have hcons : payouts a ((w, call) :: h) = payouts a h :=
      List.filter_cons_of_neg (by simpa using hpays)
    rw [hcons] at hne ⊢
    obtain ⟨hlen, e, hesc, hclaimed⟩ := hb.paid a hne
    obtain ⟨e', he', hk⟩ := (wellPlaced_of_effect hw he).1.escrow (World.escrowAt_eq_some.mp hesc)
    cases hk with
    | settlementEscrow _ hc _ => exact ⟨hlen, e', World.escrowAt_eq_some.mpr he', hc hclaimed⟩

/-! #### Nonces -/

theorem exists_settled (he : Effect w call w') {o : Bool} {ctx : BatchSettle} {r : Bytes 32}
    {t : UInt64} (hcall : call.settlement = some (o, ctx, r, t)) :
    ∃ c sa n u l, Settled w w' o ctx.channel c r t sa n u l := by
  cases he with
  | settle hcall' hf =>
    rw [hcall', Option.some_inj] at hcall
    cases hcall
    exact ⟨_, _, _, _, _, hf⟩
  | @release call _ _ _ _ _ _ hrel _ =>
    cases call <;> simp_all [Call.settlement, Call.release]
  | _ => exact absurd hcall (by simp [Call.settlement])

/-- A call creates no escrow, or one for the nonce the channel has. -/
theorem created_cons (he : Effect w call w') :
    created ((w, call) :: h) = created h ∨
      ∃ (ch : Address) (c : Channel), created ((w, call) :: h) = (ch, c.nonce) :: created h ∧
        w.accounts.lookup (.settlement ch c.nonce) = none ∧
        w'.accounts.lookup (.settlement ch c.nonce) ≠ none := by
  rcases hcall : call.settlement with _ | ⟨o, ctx, r, t⟩
  · left
    simp [created, hcall]
  · right
    obtain ⟨c, sa, n, u, l, hf⟩ := exists_settled he hcall
    refine ⟨ctx.channel, c, ?_, hf.fresh, ?_⟩
    · simp [created, hcall, hf.channel]
    · rw [hf.accounts, Store.lookup_insert_eq, if_pos rfl]
      simp

/-- Only a settlement creates an escrow. -/
theorem new_escrow (he : Effect w call w') {a : Address} {e : SettlementEscrow}
    (hfresh : w.accounts.lookup a = none) (ha : w'.escrowAt a = some e) :
    ∃ o ctx r c sa n u l, call.settlement = some (o, ctx, r, e.amount) ∧
      Settled w w' o ctx.channel c r e.amount sa n u l ∧ a = .settlement ctx.channel c.nonce ∧
      e = newEscrow w ctx.channel c r e.amount o := by
  cases creates_of_effect he hfresh (World.escrowAt_eq_some.mp ha) with
  | settlementEscrow hcall hf => exact ⟨_, _, _, _, _, _, _, _, hcall, hf, rfl, rfl⟩

theorem Books.created_step (hw : WellPlaced w.accounts) (hb : Books h w) (he : Effect w call w') :
    (∀ p ∈ created ((w, call) :: h), w'.accounts.lookup (.settlement p.1 p.2) ≠ none) ∧
      (created ((w, call) :: h)).Nodup := by
  have hold : ∀ p ∈ created h, w'.accounts.lookup (.settlement p.1 p.2) ≠ none := by
    intro p hp
    obtain ⟨d, hd⟩ := Option.ne_none_iff_exists'.mp (hb.exist p hp)
    obtain ⟨d', hd', -⟩ := (wellPlaced_of_effect hw he).1 _ _ hd
    rw [hd']
    simp
  obtain hsame | ⟨ch, c, hcons, hfresh, hnew⟩ := created_cons (h := h) he
  · rw [hsame]
    exact ⟨hold, hb.once⟩
  · rw [hcons]
    refine ⟨fun p hp => ?_, List.nodup_cons.mpr ⟨fun hp => hb.exist _ hp hfresh, hb.once⟩⟩
    rcases List.mem_cons.mp hp with rfl | hp
    · exact hnew
    · exact hold p hp

/-! #### Settled amounts -/

theorem refunded_cons (a : Address) :
    refunded ((w, call) :: h) a = (decide (call.refunds = some a) || refunded h a) := rfl

theorem keptTerm_cons (hcall : call.refunds = none) :
    keptTerm ((w, call) :: h) = keptTerm h := by
  funext ch a d
  have hsame : refunded ((w, call) :: h) a = refunded h a := by
    rw [refunded_cons, hcall]
    rfl
  cases d with
  | settlementEscrow e => simp only [keptTerm, hsame]
  | channel c => rfl
  | globalState g => rfl

theorem keptSum_cons (hcall : call.refunds = none) (s : Accounts) (ch : Address) :
    keptSum ((w, call) :: h) s ch = keptSum h s ch := by
  rw [keptSum, keptTerm_cons hcall]
  rfl

section Writes

variable {s : Accounts} {a ch : Address}

theorem keptTerm_eq_zero {d : AccountData} (hd : ∀ e, d ≠ .settlementEscrow e) :
    keptTerm h ch a d = 0 := by
  cases d with
  | settlementEscrow e => exact absurd rfl (hd e)
  | channel c => rfl
  | globalState g => rfl

/-- Writing anything but an escrow, where there was none, changes no sum. -/
theorem keptSum_insert_other {d : AccountData} (hd : ∀ e, d ≠ .settlementEscrow e)
    (ha : ∀ e, s.lookup a ≠ some (.settlementEscrow e)) :
    keptSum h (s.insert a d) ch = keptSum h s ch := by
  refine Store.weight_insert_of_eq_zero (keptTerm_eq_zero hd) fun d₀ hd₀ => ?_
  exact keptTerm_eq_zero fun e he => ha e (he ▸ hd₀)

/-- So does setting the flags of an escrow. -/
theorem keptSum_insert_flags {e : SettlementEscrow} {claimed disputed : Bool}
    (ha : s.lookup a = some (.settlementEscrow e)) :
    keptSum h (s.insert a (.settlementEscrow { e with claimed, disputed })) ch
      = keptSum h s ch := by
  refine Store.weight_insert_of_eq ?_
  rw [Store.contribution_of_lookup ha]
  rfl

theorem keptSum_insert_new {e : SettlementEscrow} (ha : s.lookup a = none)
    (hr : refunded h a = false) :
    keptSum h (s.insert a (.settlementEscrow e)) ch
      = keptSum h s ch + if e.channel = ch then e.amount.toNat else 0 := by
  have hins := Store.weight_insert (keptTerm h ch) s a (.settlementEscrow e)
  rw [Store.contribution_of_none ha] at hins
  simp only [keptTerm, hr, and_true, add_zero] at hins
  exact hins

/-- A refund takes the escrow out of its channel's sum. -/
theorem keptSum_refund (w : World) (ch : Address) {ctx : EscrowAccess} (proof : FraudProof)
    {e : SettlementEscrow} (e' : SettlementEscrow)
    (ha : s.lookup ctx.settlementEscrow = some (.settlementEscrow e))
    (hr : refunded h ctx.settlementEscrow = false) :
    keptSum ((w, .resolveDispute ctx proof) :: h)
        (s.insert ctx.settlementEscrow (.settlementEscrow e')) ch
        + (if e.channel = ch then e.amount.toNat else 0)
      = keptSum h s ch := by
  -- The history grows by a refund of this escrow, which no other address counts.
  have hoff : ∀ a', a' ≠ ctx.settlementEscrow → ∀ d,
      keptTerm ((w, .resolveDispute ctx proof) :: h) ch a' d = keptTerm h ch a' d := by
    intro a' hne d
    have hother : refunded ((w, .resolveDispute ctx proof) :: h) a' = refunded h a' := by
      rw [refunded_cons, decide_eq_false (by simpa [Call.refunds] using Ne.symm hne)]
      rfl
    cases d with
    | settlementEscrow e => simp only [keptTerm, hother]
    | channel c => rfl
    | globalState g => rfl
  have hins := Store.weight_insert_congr s (.settlementEscrow e') hoff
  rw [Store.contribution_of_lookup ha] at hins
  have hnow : refunded ((w, .resolveDispute ctx proof) :: h) ctx.settlementEscrow = true := by
    have hthis : (Call.resolveDispute ctx proof).refunds = some ctx.settlementEscrow := rfl
    rw [refunded_cons, decide_eq_true hthis]
    rfl
  simp only [keptTerm, hr, hnow, and_true, Bool.true_eq_false, and_false, if_false, add_zero]
    at hins
  exact hins

end Writes

/-- A channel that does not exist yet has no escrow. -/
theorem keptSum_eq_zero {s : Accounts} (hw : WellPlaced s) {ch : Address}
    (hfresh : s.lookup ch = none) : keptSum h s ch = 0 := by
  refine Store.weight_eq_zero fun a d hd => ?_
  cases d with
  | settlementEscrow e =>
    obtain ⟨-, c, hc, -⟩ := hw.escrow hd
    simp [keptTerm, (Store.ne_of_lookup hfresh hc).symm]
  | channel c => rfl
  | globalState g => rfl

/-- Every settled amount in `s` is the sum of the channel's escrows that were not
returned. -/
def SettledKept (h : List (World × Call)) (s : Accounts) : Prop :=
  ∀ ch c, s.lookup ch = some (.channel c) → c.settledAmount.toNat = keptSum h s ch

theorem SettledKept.cons {s : Accounts} (hs : SettledKept h s) (hcall : call.refunds = none) :
    SettledKept ((w, call) :: h) s := by
  intro ch c hc
  rw [keptSum_cons hcall]
  exact hs ch c hc

/-! One write at a time, for the calls that settle and return nothing. -/

section Writes

variable {s : Accounts} {a : Address}

theorem SettledKept.insert_global {g : GlobalState} (hs : SettledKept h s)
    (ha : ∀ e, s.lookup a ≠ some (.settlementEscrow e)) :
    SettledKept h (s.insert a (.globalState g)) := by
  intro ch c hc
  rw [keptSum_insert_other (by simp) ha]
  exact hs ch c (Store.lookup_of_insert (by simp) hc)

theorem SettledKept.insert_flags {e : SettlementEscrow} {claimed disputed : Bool}
    (hs : SettledKept h s) (ha : s.lookup a = some (.settlementEscrow e)) :
    SettledKept h (s.insert a (.settlementEscrow { e with claimed, disputed })) := by
  intro ch c hc
  rw [keptSum_insert_flags ha]
  exact hs ch c (Store.lookup_of_insert (by simp) hc)

/-- A channel is written with the settled amount that its escrows add up to. -/
theorem SettledKept.insert_channel {c : Channel} (hs : SettledKept h s)
    (ha : ∀ e, s.lookup a ≠ some (.settlementEscrow e))
    (hc : c.settledAmount.toNat = keptSum h s a) : SettledKept h (s.insert a (.channel c)) := by
  intro ch c' hc'
  rw [keptSum_insert_other (by simp) ha]
  rw [Store.lookup_insert_eq] at hc'
  split at hc'
  · next hch =>
    cases hc'
    exact hch ▸ hc
  · exact hs ch c' hc'

end Writes

/-- A settlement adds its amount to the channel and to the escrows. -/
theorem SettledKept.settle {o : Bool} {a : Address} {c : Channel} {r : Bytes 32}
    {t sa n u : UInt64} {l : Address → UInt64} (hs : SettledKept h w.accounts)
    (hf : Settled w w' o a c r t sa n u l) (hr : refunded h (.settlement a c.nonce) = false) :
    SettledKept h w'.accounts := by
  intro ch c' hc'
  have hsettled := hf.settledAmount_eq
  rw [hf.accounts] at hc' ⊢
  rw [keptSum_insert_new (hf.lookup_second _) hr,
    keptSum_insert_other (by simp) (by simp [hf.lookup])]
  have hc' := Store.lookup_of_insert (by simp) hc'
  rw [Store.lookup_insert_eq] at hc'
  have hown : (newEscrow w a c r t o).channel = a := rfl
  split at hc'
  · next hch =>
    cases hc'
    rw [hch, if_pos hown, ← hs _ c hf.lookup]
    exact hsettled
  · next hch =>
    rw [if_neg fun heq => hch (heq.symm.trans hown)]
    exact hs ch c' hc'

/-- A resolved dispute takes the amount from the channel, and the escrow counts
as returned from here on. -/
theorem SettledKept.refund {ctx : EscrowAccess} {c : Channel} {e : SettlementEscrow}
    {sa : UInt64} (proof : FraudProof) (hw : WellPlaced w.accounts)
    (hs : SettledKept h w.accounts) (hf : Refunded w w' ctx c e sa)
    (hr : refunded h ctx.settlementEscrow = false) :
    SettledKept ((w, .resolveDispute ctx proof) :: h) w'.accounts := by
  intro ch c' hc'
  have hsettled := hf.settledAmount_eq
  have hown := hf.loaded.escrow_channel hw
  rw [hf.accounts] at hc' ⊢
  have hsum := keptSum_refund w ch proof { e with claimed := true }
    (hf.loaded.lookup_second (.channel { c with settledAmount := sa })) hr
  rw [keptSum_insert_other (s := w.accounts) (by simp) (by simp [hf.loaded.lookup_channel])]
    at hsum
  have hc' := Store.lookup_of_insert (by simp) hc'
  rw [Store.lookup_insert_eq] at hc'
  split at hc'
  · next hch =>
    cases hc'
    have hold := hs _ c hf.loaded.lookup_channel
    rw [if_pos (hown.trans hch.symm)] at hsum
    rw [← hch] at hold
    show sa.toNat = _
    omega
  · next hch =>
    rw [if_neg fun heq => hch (heq.symm.trans hown)] at hsum
    have hold := hs ch c' hc'
    omega

theorem Books.settled_step (hw : WellPlaced w.accounts) (hb : Books h w)
    (he : Effect w call w') : SettledKept ((w, call) :: h) w'.accounts := by
  have hs : SettledKept h w.accounts := hb.settled
  cases he with
  | initializeGlobal hf =>
    rw [hf.accounts]
    exact (hs.insert_global (by simp [hf.fresh])).cons rfl
  | initializeChannel hf =>
    -- A new channel has settled nothing, and no escrow was created for it.
    rw [hf.accounts]
    refine ((hs.insert_global (by simp [hf.global.lookup])).insert_channel
      (by simp [hf.lookup_second]) ?_).cons rfl
    rw [keptSum_insert_other (by simp) (by simp [hf.global.lookup]), keptSum_eq_zero hw hf.fresh]
    rfl
  | @updateSpendingCap ctx w' g c cap total _ _ hf =>
    have hs₁ : SettledKept h (w.accounts.insert (.globalState g.buyer g.tokenMint)
        (.globalState { g with totalAllocated := total })) :=
      hs.insert_global (by simp [hf.global.lookup])
    have hsettled := hs₁ _ c (hf.lookup_second _)
    rw [hf.accounts]
    exact (hs₁.insert_channel (c := { c with spendingCap := cap })
      (by simp [hf.lookup_second]) hsettled).cons rfl
  | deposit hf =>
    rw [hf.accounts]
    exact (hs.insert_global (by simp [hf.global.lookup])).cons rfl
  | withdraw hf =>
    rw [hf.accounts]
    exact (hs.insert_global (by simp [hf.global.lookup])).cons rfl
  | settle hcall hf =>
    have hr : refunded h _ = false := hb.refunded_eq_false fun e he' => by
      rw [World.escrowAt_eq_some, hf.fresh] at he'
      exact absurd he' (by simp)
    exact (hs.settle hf hr).cons (Call.paysFrom_of_settlement hcall).2
  | release hcall hf =>
    rw [hf.accounts]
    exact (hs.insert_flags hf.loaded.lookup_escrow).cons (Call.paysFrom_of_release hcall).2
  | dispute hf =>
    rw [hf.accounts]
    exact (hs.insert_flags hf.loaded.lookup_escrow).cons rfl
  | resolveDispute hf =>
    have hr : refunded h _ = false := hb.refunded_eq_false fun e' he' => by
      rw [hf.loaded.escrow, Option.some_inj] at he'
      exact he' ▸ hf.loaded.claimed
    exact hs.refund _ hw hf hr
  | transfer _ hacc _ _ =>
    rw [hacc]
    exact hs.cons rfl
  | tick _ => exact hs.cons rfl

end History

/-! ### Runs -/

section Runs

variable {rt : Runtime} {w₀ w : World} {h : List (World × Call)}

theorem books_of_run (hw₀ : Genesis w₀) (hrun : Run (exec rt) w₀ h w) : Books h w := by
  induction hrun with
  | start =>
    refine ⟨fun a hne => absurd rfl hne, fun p hp => absurd hp (by simp [created]),
      List.nodup_nil, fun ch c hc => ?_⟩
    rw [hw₀.empty, AList.lookup_empty] at hc
    exact absurd hc (by simp)
  | step hr he ih =>
    have hw := wellPlaced_of_run hw₀ hr
    have heffect := exec_effect he
    obtain ⟨hexist, honce⟩ := ih.created_step hw heffect
    exact ⟨ih.paid_step hw heffect, hexist, honce, ih.settled_step hw heffect⟩

/-- An unclaimed escrow is part of its channel's settled amount. -/
theorem Books.le_settledAmount (hb : Books h w) {a : Address} {e : SettlementEscrow} {c : Channel}
    (he : w.escrowAt a = some e) (hunclaimed : e.claimed = false)
    (hc : w.accounts.lookup e.channel = some (.channel c)) :
    e.amount.toNat ≤ c.settledAmount.toNat := by
  have hr : refunded h a = false := hb.refunded_eq_false fun e' he' => by
    rw [he, Option.some_inj] at he'
    exact he' ▸ hunclaimed
  have hle := Store.contribution_le_weight (keptTerm h e.channel) w.accounts a
  rw [Store.contribution_of_lookup (World.escrowAt_eq_some.mp he)] at hle
  simp only [keptTerm, hr, and_self, if_true] at hle
  rw [hb.settled _ c hc]
  exact hle

theorem conserves_of_run (hrun : Run (exec rt) w₀ h w) : Conserves w₀ w :=
  hrun.invariant (P := Conserves w₀) (.refl rfl) fun _ _ _ hs he =>
    hs.trans (conserves_of_effect (exec_effect he))

theorem supply_of_run (hw₀ : Genesis w₀) (hrun : Run (exec rt) w₀ h w) : Supply w :=
  Supply.of_conserves hw₀.supply (conserves_of_run hrun)

/-- Every unclaimed escrow holds its amount. -/
def Funded (w : World) : Prop :=
  ∀ a e, w.escrowAt a = some e → e.claimed = false → e.amount.toNat ≤ (w.lamports a).toNat

theorem funded_of_effect {w w' : World} {call : Call} (hw : WellPlaced w.accounts)
    (he : Effect w call w') (hf : Funded w) : Funded w' := by
  intro a e' he' hunclaimed
  rcases hd : w.accounts.lookup a with _ | d
  · obtain ⟨o, ctx, r, c, sa, n, u, l, -, hs, rfl, hnew⟩ := new_escrow he hd he'
    -- A new escrow receives its amount from the vault.
    have hmoved := hs.lamports (.settlement ctx.channel c.nonce)
    rw [if_neg (by simp), if_pos rfl] at hmoved
    omega
  · obtain ⟨d', hd', hk⟩ := (wellPlaced_of_effect hw he).1 a d hd
    rw [World.escrowAt_eq_some.mp he', Option.some_inj] at hd'
    subst hd'
    cases hk with
    | @settlementEscrow e _ hsame hclaimed _ =>
      have hesc := World.escrowAt_eq_some.mpr hd
      have hamount : e'.amount = e.amount := by rw [hsame]
      obtain hout | ⟨-, hle⟩ := escrow_effect hw he hesc
      · have hnow := hout.claimed
        rw [he', Option.some_inj] at hnow
        rw [hnow] at hunclaimed
        exact absurd hunclaimed (by simp)
      · have hbefore : e.claimed = false := by
          by_contra hne
          rw [hclaimed (by simpa using hne)] at hunclaimed
          exact absurd hunclaimed (by decide)
        rw [hamount]
        exact (hf a e hesc hbefore).trans hle

theorem funded_of_run (hw₀ : Genesis w₀) (hrun : Run (exec rt) w₀ h w) : Funded w := by
  refine run_invariant hw₀ (fun a e he => ?_) (fun w call w' hw he hf =>
    funded_of_effect hw he hf) hrun
  rw [World.escrowAt_eq_some, hw₀.empty, AList.lookup_empty] at he
  exact absurd he (by simp)

/-- In every state reached, a disputed escrow can be returned to the buyer. -/
theorem refundable_of_run (hw₀ : Genesis w₀) (hrun : Run (exec rt) w₀ h w) {ctx : EscrowAccess}
    {c : Channel} {e : SettlementEscrow} (hload : Loaded w ctx true c e)
    (hbuyer : ctx.party = c.buyer) : Refundable w ctx c e := by
  have hw := wellPlaced_of_run hw₀ hrun
  have hfunds := funded_of_run hw₀ hrun _ e hload.escrow hload.claimed
  have hch : w.accounts.lookup e.channel = some (.channel c) := by
    rw [hload.escrow_channel hw]
    exact hload.lookup_channel
  refine ⟨hbuyer, (books_of_run hw₀ hrun).le_settledAmount hload.escrow hload.claimed hch,
    hfunds, ?_⟩
  have hsupply := supply_of_run hw₀ hrun {ctx.party, ctx.settlementEscrow}
  rw [Finset.sum_pair hload.party_ne] at hsupply
  omega

/-- Every escrow is paid out at most once, in full, to the merchant or to the
buyer, and loses nothing else; no nonce is used twice; the settled amount is
the sum of the escrows not returned, so a refund can always be rolled back; and
no call creates or destroys lamports. -/
theorem escrow_pays_once (hw₀ : Genesis w₀) (hrun : Run (exec rt) w₀ h w) :
    (∀ a, (payouts a h).length ≤ 1) ∧
    (∀ call w', exec rt call w = .ok w' → Conserves w w' ∧ ∀ a e, w.escrowAt a = some e →
      PaidOut w w' call a e ∨
        (call.paysFrom ≠ some a ∧ (w.lamports a).toNat ≤ (w'.lamports a).toNat)) ∧
    (created h).Nodup ∧
    (∀ ch c, w.channelAt ch = some c → c.settledAmount.toNat = keptSum h w.accounts ch) ∧
    ∀ ctx c e, Loaded w ctx true c e →
      ∃ settledAmount, checkedSub c.settledAmount e.amount = some settledAmount := by
  have hw := wellPlaced_of_run hw₀ hrun
  have hb := books_of_run hw₀ hrun
  refine ⟨fun a => ?_, fun call w' he => ?_, hb.once, fun ch c hc => ?_, fun ctx c e hload => ?_⟩
  · by_cases hnil : payouts a h = []
    · rw [hnil]
      exact Nat.zero_le _
    · exact (hb.paid a hnil).1.le
  · have heffect := exec_effect he
    exact ⟨conserves_of_effect heffect, fun a e ha => escrow_effect hw heffect ha⟩
  · exact hb.settled ch c (World.channelAt_eq_some.mp hc)
  · have hch : w.accounts.lookup e.channel = some (.channel c) := by
      rw [hload.escrow_channel hw]
      exact hload.lookup_channel
    obtain ⟨settledAmount, hsub, -⟩ :=
      exists_checkedSub (hb.le_settledAmount hload.escrow hload.claimed hch)
    exact ⟨settledAmount, hsub⟩

end Runs

/-- A run in which the escrow is returned to the buyer. -/
theorem escrow_pays_once_refunded : ∃ h w, Run (exec Runtime.cluster) Sample.start h w ∧
    h.map Prod.snd = Sample.refunded.reverse ∧ (payouts Sample.escrow h).length ≤ 1 ∧
    (created h).Nodup := by
  obtain ⟨h, w, hrun, hcalls, -⟩ : ∃ h w, Run (exec Runtime.cluster) Sample.start h w ∧
      h.map Prod.snd = Sample.refunded.reverse ∧ True :=
    Run.exists_of_test (by decide +kernel)
  obtain ⟨hpaid, -, honce, -⟩ := escrow_pays_once Sample.genesis hrun
  exact ⟨h, w, hrun, hcalls, hpaid _, honce⟩

end Mb
