/-
What a buyer can still make settleable.

Of the deposit of a (buyer, mint) pair, what is not allocated can still go to a channel, and a
channel can still settle what its cap is above what it has settled.  The two together are what
vouchers in that mint can be paid from.

* `settleable_of_exec` — what every call makes of it: a deposit and a refund add to it, a withdrawal
  and a settlement take from it, a cap only if it is lowered, or raised from the state of another mint;
* `settleable_eq_zero` — before there is a global state there is nothing;
* `CapsCover.le_settleable` — where no cap is below what its channel has settled, what is not allocated
  is a part of it.
-/
import IgnitePay.Mb.Accounting

namespace Mb

open Bytes Machine Solana

/-- `total_deposited - total_allocated`, and `spending_cap - settled_amount` of every channel. -/
def settleable (s : Accounts) (b m : Address) : ℤ :=
  (deposited s b m : ℤ) - allocated s b m + capSum s b m - settledSum s b m

/-- The channel of a merchant, for `b` and `m`. -/
def Address.isChannelOf (a b m : Address) : Bool :=
  match a with
  | .channel b' _ m' => decide (b' = b) && decide (m' = m)
  | _ => false

/-- What a cap adds to what is settleable of `b` and `m`. -/
def capChange (b m : Address) (ctx : UpdateSpendingCap) (cap : UInt64) (c : Channel) : ℤ :=
  (if ctx.channel.isChannelOf b m then (cap.toNat : ℤ) - c.spendingCap.toNat else 0)
    - if ctx.globalState = .globalState b m then ((capRaise c cap).toNat : ℤ) else 0

/-- What a call adds to what is settleable of `b` and `m`. -/
def settleableChange (b m : Address) (w : World) : Call → ℤ
  | .deposit ctx amount => if ctx.globalState = .globalState b m then (amount.toNat : ℤ) else 0
  | .withdraw ctx amount => if ctx.globalState = .globalState b m then -(amount.toNat : ℤ) else 0
  | .updateSpendingCap ctx cap => (w.channelAt ctx.channel).elim 0 (capChange b m ctx cap)
  | .settleBatch _ ctx _ totalAmount _ _ | .optimisticSettle _ ctx _ totalAmount _ =>
    if ctx.channel.isChannelOf b m then -(totalAmount.toNat : ℤ) else 0
  | .resolveDispute ctx _ =>
    if ctx.channel.isChannelOf b m then
      (w.escrowAt ctx.settlementEscrow).elim 0 fun e => (e.amount.toNat : ℤ)
    else 0
  | _ => 0

section Step

variable {rt : Runtime} {w w' : World} {call : Call} {b m : Address}

theorem isChannelOf_place (c : Channel) :
    (Address.channel c.buyer c.merchant c.tokenMint).isChannelOf b m = true ↔
      c.buyer = b ∧ c.tokenMint = m := by
  simp only [Address.isChannelOf, Bool.and_eq_true, decide_eq_true_eq]

theorem globalState_eq_iff (g : GlobalState) :
    Address.globalState g.buyer g.tokenMint = .globalState b m ↔ g.buyer = b ∧ g.tokenMint = m := by
  rw [Address.globalState.injEq]

/-- A call that changes neither a counter of the pair nor a sum over its channels. -/
theorem settleable_congr (hsum : ∀ f, channelSum w'.accounts b m f = channelSum w.accounts b m f)
    (htotal : ∀ f, globalTotal w'.accounts b m f = globalTotal w.accounts b m f) :
    settleable w'.accounts b m = settleable w.accounts b m + 0 := by
  rw [settleable, settleable, deposited, deposited, allocated, allocated, capSum, capSum, settledSum,
    settledSum, hsum, hsum, htotal, htotal, add_zero]

/-- `deposit` and `withdraw` change the deposit, and nothing else. -/
theorem settleable_of_deposit {g : GlobalState} {total : UInt64} (hg : BuyerGlobal w g)
    (hacc : w'.accounts = w.accounts.insert (.globalState g.buyer g.tokenMint)
      (.globalState { g with totalDeposited := total })) :
    settleable w'.accounts b m = settleable w.accounts b m
      + if Address.globalState g.buyer g.tokenMint = .globalState b m
        then (total.toNat : ℤ) - g.totalDeposited.toNat else 0 := by
  obtain ⟨hsum, htotal⟩ := depositedBooks b m hg hacc
  rw [settleable, settleable, deposited, deposited, allocated, allocated, capSum, capSum, settledSum,
    settledSum, hsum, hsum, hg.total_eq (htotal (·.totalAllocated.toNat)) rfl, htotal]
  by_cases hbm : g.buyer = b ∧ g.tokenMint = m
  · rw [if_pos hbm, if_pos ((globalState_eq_iff g).mpr hbm)]
    obtain ⟨rfl, rfl⟩ := hbm
    rw [hg.total (·.totalDeposited.toNat)]
    dsimp only
    omega
  · rw [if_neg hbm, if_neg fun heq => hbm ((globalState_eq_iff g).mp heq)]
    omega

theorem ChannelInitialized.settleable_eq {g : GlobalState} {r : Address} {cap total u : UInt64}
    {cp dp : Int64} (h : ChannelInitialized w w' g r cap cp dp total u) :
    settleable w'.accounts b m = settleable w.accounts b m + 0 := by
  obtain ⟨hsum, htotal⟩ := h.books b m
  have hcap := hsum (·.spendingCap.toNat)
  have hsettled := hsum (·.settledAmount.toNat)
  have hdeposited := h.global.total_eq (htotal (·.totalDeposited.toNat)) rfl
  have hallocated := htotal (·.totalAllocated.toNat)
  have heq := h.allocates.eq
  rw [settleable, settleable, deposited, deposited, allocated, allocated, capSum, capSum, settledSum,
    settledSum, hcap, hsettled, hdeposited, hallocated]
  -- What the channel may settle is what was allocated for it.
  by_cases hbm : g.buyer = b ∧ g.tokenMint = m
  · rw [if_pos hbm, if_pos hbm, if_pos hbm]
    obtain ⟨rfl, rfl⟩ := hbm
    have hold := h.global.total (·.totalAllocated.toNat)
    have hzero : (0 : UInt64).toNat = 0 := rfl
    dsimp only at hold ⊢
    omega
  · rw [if_neg hbm, if_neg hbm, if_neg hbm]
    omega

theorem CapUpdated.settleable_eq {g : GlobalState} {c : Channel} {cap total : UInt64}
    {ctx : UpdateSpendingCap} (h : CapUpdated w w' g c cap total)
    (hglobal : ctx.globalState = .globalState g.buyer g.tokenMint)
    (hchannel : ctx.channel = .channel c.buyer c.merchant c.tokenMint) :
    settleable w'.accounts b m = settleable w.accounts b m + capChange b m ctx cap c := by
  obtain ⟨hsum, htotal⟩ := h.books b m
  have hcap := hsum (·.spendingCap.toNat)
  have hsettled := hsum (·.settledAmount.toNat)
  have hdeposited := h.global.total_eq (htotal (·.totalDeposited.toNat)) rfl
  have hallocated := htotal (·.totalAllocated.toNat)
  have heq := h.allocates.eq
  have hold : g.buyer = b ∧ g.tokenMint = m → globalTotal w.accounts b m (·.totalAllocated.toNat)
      = g.totalAllocated.toNat := by
    rintro ⟨rfl, rfl⟩
    exact h.global.total _
  rw [settleable, settleable, capChange, hglobal, hchannel, deposited, deposited, allocated, allocated,
    capSum, capSum, settledSum, settledSum]
  simp only [isChannelOf_place, globalState_eq_iff]
  by_cases hc : c.buyer = b ∧ c.tokenMint = m
  all_goals by_cases hg : g.buyer = b ∧ g.tokenMint = m
  all_goals simp only [hc, hg, if_true, if_false, true_implies, and_self] at *
  all_goals omega

/-- A settlement and a refund write the settled amount of one channel. -/
theorem settleable_of_settledAmount {c : Channel} {sa n : UInt64}
    (hsum : ∀ f, channelSum w'.accounts b m f + (if c.buyer = b ∧ c.tokenMint = m then f c else 0)
      = channelSum w.accounts b m f + if c.buyer = b ∧ c.tokenMint = m
        then f { c with settledAmount := sa, nonce := n } else 0)
    (htotal : ∀ f, globalTotal w'.accounts b m f = globalTotal w.accounts b m f) :
    settleable w'.accounts b m = settleable w.accounts b m
      + if c.buyer = b ∧ c.tokenMint = m then (c.settledAmount.toNat : ℤ) - sa.toNat else 0 := by
  have hcap := hsum (·.spendingCap.toNat)
  have hsettled := hsum (·.settledAmount.toNat)
  rw [settleable, settleable, deposited, deposited, allocated, allocated, capSum, capSum, settledSum,
    settledSum, htotal, htotal]
  by_cases hc : c.buyer = b ∧ c.tokenMint = m
  · simp only [if_pos hc] at hcap hsettled ⊢
    omega
  · simp only [if_neg hc] at hcap hsettled ⊢
    omega

theorem Settled.settleable_eq {o : Bool} {c : Channel} {r : Bytes 32} {ctx : BatchSettle}
    {t sa n u : UInt64} {l : Address → UInt64} (h : Settled w w' o ctx.channel c r t sa n u l) :
    settleable w'.accounts b m = settleable w.accounts b m
      + if ctx.channel.isChannelOf b m then -(t.toNat : ℤ) else 0 := by
  obtain ⟨hsum, htotal⟩ := h.books b m
  have htaken : (c.settledAmount.toNat : ℤ) - sa.toNat = -(t.toNat : ℤ) := by
    have := h.settledAmount_eq
    omega
  rw [settleable_of_settledAmount hsum htotal, htaken, h.place]
  simp only [isChannelOf_place]

theorem Refunded.settleable_eq (hw : WellPlaced w.accounts) {ctx : EscrowAccess} {c : Channel}
    {e : SettlementEscrow} {sa : UInt64} (h : Refunded w w' ctx c e sa) :
    settleable w'.accounts b m = settleable w.accounts b m
      + if ctx.channel.isChannelOf b m then (e.amount.toNat : ℤ) else 0 := by
  obtain ⟨hsum, htotal⟩ := h.books b m hw
  have hgiven : (c.settledAmount.toNat : ℤ) - sa.toNat = e.amount.toNat := by
    have := h.settledAmount_eq
    omega
  rw [settleable_of_settledAmount hsum htotal, hgiven, (hw.channel h.loaded.lookup_channel).1]
  simp only [isChannelOf_place]

theorem accounts_of_transfer {src dst : Address} {amount : UInt64}
    (h : exec rt (.transfer src dst amount) w = .ok w') : w'.accounts = w.accounts := by
  simp only [exec, transfer, bind_eq_ok, orErr_eq_ok] at h
  obtain ⟨-, -, hmove⟩ := h
  exact (World.of_moveLamports hmove).1

theorem accounts_of_tick {now : Int64} (h : exec rt (.tick now) w = .ok w') :
    w'.accounts = w.accounts := by
  simp only [exec, tick, bind_eq_ok] at h
  obtain ⟨-, -, h⟩ := h
  obtain rfl := Except.ok.inj h
  rfl

theorem settleable_of_exec (hw : WellPlaced w.accounts) (h : exec rt call w = .ok w') :
    settleable w'.accounts b m = settleable w.accounts b m + settleableChange b m w call := by
  cases call with
  | initializeGlobal ctx =>
    -- Both counters start at zero, which is what they counted as before.
    obtain ⟨topUp, hf⟩ := initializeGlobal_ok h
    obtain ⟨hsum, htotal⟩ := hf.books b m
    have hnone : ctx.buyer = b ∧ ctx.tokenMint = m → ∀ f, globalTotal w.accounts b m f = 0 := by
      rintro ⟨rfl, rfl⟩ f
      rw [globalTotal, hf.fresh]
    rw [settleable, settleable, deposited, deposited, allocated, allocated, capSum, capSum, settledSum,
      settledSum, hsum, hsum, htotal, htotal]
    by_cases hbm : ctx.buyer = b ∧ ctx.tokenMint = m
    · rw [if_pos hbm, if_pos hbm, hnone hbm, hnone hbm]
      exact (add_zero _).symm
    · rw [if_neg hbm, if_neg hbm]
      exact (add_zero _).symm
  | initializeChannel ctx cap cp dp =>
    obtain ⟨g, total, topUp, hf⟩ := initializeChannel_ok h
    exact hf.settleable_eq
  | updateSpendingCap ctx cap =>
    obtain ⟨g, c, total, hglobal, hchannel, hf⟩ := updateSpendingCap_ok h
    rw [hf.settleable_eq hglobal hchannel, settleableChange, hchannel, hf.channel]
    rfl
  | deposit ctx amount =>
    obtain ⟨g, total, hplace, hf⟩ := deposit_ok h
    have hadd : (total.toNat : ℤ) - g.totalDeposited.toNat = amount.toNat := by
      have := hf.total_eq
      omega
    rw [settleable_of_deposit hf.global hf.accounts, settleableChange, hplace, hadd]
  | withdraw ctx amount =>
    obtain ⟨g, total, hplace, hf⟩ := withdraw_ok h
    have hsub : (total.toNat : ℤ) - g.totalDeposited.toNat = -(amount.toNat : ℤ) := by
      have := hf.total_eq
      omega
    rw [settleable_of_deposit hf.global hf.accounts, settleableChange, hplace, hsub]
  | settleBatch ixs ctx root amount bsig msig =>
    obtain ⟨c, sa, n, u, l, hf⟩ := settleBatch_ok h
    exact hf.settleable_eq
  | optimisticSettle ixs ctx root amount msig =>
    obtain ⟨c, sa, n, u, l, hf⟩ := optimisticSettle_ok h
    exact hf.settleable_eq
  | releaseSettlement ctx =>
    obtain ⟨c, e, hf⟩ := releaseSettlement_ok h
    obtain ⟨hsum, htotal⟩ := hf.loaded.books b m hf.accounts
    exact settleable_congr hsum htotal
  | dispute ctx =>
    obtain ⟨c, e, hf⟩ := dispute_ok h
    obtain ⟨hsum, htotal⟩ := hf.loaded.books b m hf.accounts
    exact settleable_congr hsum htotal
  | forceRelease ctx =>
    obtain ⟨c, e, hf⟩ := forceRelease_ok h
    obtain ⟨hsum, htotal⟩ := hf.loaded.books b m hf.accounts
    exact settleable_congr hsum htotal
  | resolveDispute ctx proof =>
    obtain ⟨c, e, sa, hf⟩ := resolveDispute_ok h
    rw [hf.settleable_eq hw, settleableChange, hf.loaded.escrow]
    rfl
  | transfer src dst amount =>
    have hacc := accounts_of_transfer h
    rw [hacc]
    exact (add_zero _).symm
  | tick now =>
    have hacc := accounts_of_tick h
    rw [hacc]
    exact (add_zero _).symm

end Step

section Bounds

variable {s : Accounts} {b m : Address}

/-- Without a global state there is no channel either. -/
theorem settleable_eq_zero (hw : WellPlaced s)
    (hnone : ∀ g, s.lookup (.globalState b m) ≠ some (.globalState g)) : settleable s b m = 0 := by
  have htotal : ∀ f, globalTotal s b m f = 0 := by
    intro f
    rw [globalTotal]
    split
    · next g hg => exact absurd hg (hnone g)
    · rfl
  have hsum : ∀ f, channelSum s b m f = 0 := by
    intro f
    refine Store.weight_eq_zero fun a d hd => ?_
    cases d with
    | channel c =>
      refine if_neg ?_
      rintro ⟨rfl, rfl⟩
      obtain ⟨-, -, g, hg⟩ := hw.channel hd
      exact hnone g hg
    | globalState g => rfl
    | settlementEscrow e => rfl
  rw [settleable, deposited, allocated, capSum, settledSum, htotal, htotal, hsum, hsum]
  rfl

/-- No channel of `b` has settled more than its cap. -/
def CapsCover (s : Accounts) (b : Address) : Prop :=
  ∀ a c, s.lookup a = some (.channel c) → c.buyer = b →
    c.settledAmount.toNat ≤ c.spendingCap.toNat

theorem CapsCover.settledSum_le (h : CapsCover s b) : settledSum s b m ≤ capSum s b m := by
  refine Store.weight_mono fun a d hd => ?_
  cases d with
  | channel c =>
    simp only [ofChannel]
    split
    · next hbm => exact h a c hd hbm.1
    · exact le_rfl
  | globalState g => exact le_rfl
  | settlementEscrow e => exact le_rfl

/-- What is not allocated is settleable. -/
theorem CapsCover.le_settleable (h : CapsCover s b) :
    (deposited s b m : ℤ) - allocated s b m ≤ settleable s b m := by
  have := h.settledSum_le (m := m)
  rw [settleable]
  omega

theorem CapsCover.insert_other {a : Address} {d : AccountData} (h : CapsCover s b)
    (hd : ∀ c, d ≠ .channel c) : CapsCover (s.insert a d) b := by
  intro a' c hc hb
  exact h a' c (Store.lookup_of_insert (hd c) hc) hb

theorem CapsCover.insert_channel {a : Address} {c : Channel} (h : CapsCover s b)
    (hc : c.buyer = b → c.settledAmount.toNat ≤ c.spendingCap.toNat) :
    CapsCover (s.insert a (.channel c)) b := by
  intro a' c' hc' hb
  rw [Store.lookup_insert_eq] at hc'
  split at hc'
  · obtain rfl := AccountData.channel.inj (Option.some.inj hc')
    exact hc hb
  · exact h a' c' hc' hb

/-- Only a cap that is lowered below what is settled breaks it. -/
theorem CapsCover.of_effect {w w' : World} {call : Call} (hs : CapsCover w.accounts b)
    (h : Effect w call w')
    (hcap : ∀ ctx cap, call = .updateSpendingCap ctx cap → ∀ c, w.channelAt ctx.channel = some c →
      c.buyer = b → c.settledAmount.toNat ≤ cap.toNat) : CapsCover w'.accounts b := by
  cases h with
  | initializeGlobal hf =>
    rw [hf.accounts]
    exact hs.insert_other (by simp)
  | initializeChannel hf =>
    rw [hf.accounts]
    exact (hs.insert_other (by simp)).insert_channel fun _ => Nat.zero_le _
  | @updateSpendingCap ctx w' g c cap total _ hchannel hf =>
    rw [hf.accounts]
    refine (hs.insert_other (by simp)).insert_channel fun hb => ?_
    exact hcap ctx cap rfl c (hchannel ▸ hf.channel) hb
  | deposit hf =>
    rw [hf.accounts]
    exact hs.insert_other (by simp)
  | withdraw hf =>
    rw [hf.accounts]
    exact hs.insert_other (by simp)
  | settle _ hf =>
    rw [hf.accounts]
    exact (hs.insert_channel fun _ => hf.cap).insert_other (by simp)
  | release _ hf =>
    rw [hf.accounts]
    exact hs.insert_other (by simp)
  | dispute hf =>
    rw [hf.accounts]
    exact hs.insert_other (by simp)
  | @resolveDispute ctx w' c e proof sa hf =>
    rw [hf.accounts]
    refine (hs.insert_channel fun hb => ?_).insert_other (by simp)
    have hold := hs _ _ hf.loaded.lookup_channel hb
    have hback := hf.settledAmount_eq
    show sa.toNat ≤ c.spendingCap.toNat
    omega
  | transfer _ hacc _ _ =>
    rw [hacc]
    exact hs
  | tick _ => exact hs

end Bounds

end Mb
