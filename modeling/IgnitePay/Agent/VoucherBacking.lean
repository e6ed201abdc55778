/-
Whether the vouchers that the agent signs are backed.

Nothing that is signed is taken from the store again, so the check of a payment counts vouchers that
are settled, and leaves out what the channels can still settle.

* `within_of_checkOutstanding` — what the check of a payment says of what is stored;
* `BackedBooks.of_exec` — a call that meets `keepsBacked` keeps the vouchers stored and backed;
* `vouchers_backed` — in a run of such calls what is signed and not settled is never more than what is
  settleable, and no payment that would fit is refused;
* `vouchers_unbacked` — a voucher with nothing deposited, and a refusal with a channel full of room.
-/
import IgnitePay.Agent.VoucherLedger

namespace Agent

open Bytes Machine Solana
open Mb (Address Runtime Genesis WellPlaced CapsCover settleable settleableChange allocated
  deposited)

/-! ### The check -/

section

variable {b : Buyer} {store : VoucherStore} {s : VoucherLedger} {amount available : UInt64}

theorem toNat_saturatingSum (vouchers : List StoredVoucher) (total : UInt64) :
    (vouchers.foldl (fun total v => saturatingAdd total v.amount) total).toNat
      = min (total.toNat + amountOf vouchers) (2 ^ 64 - 1) := by
  induction vouchers generalizing total with
  | nil =>
    have := UInt64.toNat_lt total
    show total.toNat = min (total.toNat + 0) _
    omega
  | cons v vouchers ih =>
    have hcons : amountOf (v :: vouchers) = v.amount.toNat + amountOf vouchers := rfl
    rw [List.foldl_cons, ih, toNat_saturatingAdd, hcons]
    omega

theorem toNat_totalOutstanding (store : VoucherStore) :
    store.totalOutstanding.toNat = min (storedSum store) (2 ^ 64 - 1) := by
  rw [VoucherStore.totalOutstanding, toNat_saturatingSum, UInt64.toNat_zero, Nat.zero_add]
  rfl

/-- Both sums stop at the highest number. -/
theorem toNat_checkedSum (reads : Bool) (amount : UInt64) (store : VoucherStore) :
    (saturatingAdd (if reads then store.totalOutstanding else 0) amount).toNat
      = min (countedSum reads store + amount.toNat) (2 ^ 64 - 1) := by
  rw [toNat_saturatingAdd, countedSum]
  cases reads with
  | true =>
    show min (store.totalOutstanding.toNat + _) _ = _
    rw [toNat_totalOutstanding, if_pos rfl]
    omega
  | false => rfl

theorem checkOutstanding_eq_ok_iff {reads : Bool} :
    checkOutstanding reads available amount store = .ok () ↔
      min (countedSum reads store + amount.toNat) (2 ^ 64 - 1) ≤ available.toNat := by
  rw [checkOutstanding, require_eq_ok, UInt64.le_iff_toNat_le, toNat_checkedSum]

theorem checkOutstanding_refuses_iff {reads : Bool} :
    (checkOutstanding reads available amount store).toOption.isNone = true ↔
      available.toNat < min (countedSum reads store + amount.toNat) (2 ^ 64 - 1) := by
  rw [← not_le, ← checkOutstanding_eq_ok_iff]
  rcases checkOutstanding reads available amount store with e | ⟨⟨⟩⟩
  · simp [Except.toOption]
  · simp [Except.toOption]

/-- Where the store can be read and the vault does not hold the highest number, the check says that
what is stored and the amount are within what is not allocated. -/
theorem within_of_checkOutstanding {gs : GlobalAmounts} (hgs : globalAmounts b s.world = some gs)
    (hallocated : allocated s.world.accounts b.address (.key defaultPubkey)
      ≤ deposited s.world.accounts b.address (.key defaultPubkey))
    (hroom : gs.totalDeposited.toNat - gs.totalAllocated.toNat < 2 ^ 64 - 1)
    (hcheck : checkOutstanding true (saturatingSub gs.totalDeposited gs.totalAllocated) amount s.store
      = .ok ()) :
    (storedSum s.store : ℤ) + amount.toNat ≤
      (deposited s.world.accounts b.address (.key defaultPubkey) : ℤ)
        - allocated s.world.accounts b.address (.key defaultPubkey) := by
  obtain ⟨g, hg, rfl⟩ := Option.map_eq_some_iff.mp hgs
  have hlookup := Mb.World.globalStateAt_eq_some.mp hg
  have hdeposited : deposited s.world.accounts b.address (.key defaultPubkey)
      = g.totalDeposited.toNat := Mb.globalTotal_of_lookup hlookup
  have hallocated' : allocated s.world.accounts b.address (.key defaultPubkey)
      = g.totalAllocated.toNat := Mb.globalTotal_of_lookup hlookup
  have hle := checkOutstanding_eq_ok_iff.mp hcheck
  rw [toNat_saturatingSub] at hle
  have hcounted : countedSum true s.store = storedSum s.store := rfl
  dsimp only at hroom hle
  omega

end

/-! ### What is owed -/

section

variable {b : Buyer} {s : VoucherLedger} {i : Issued} {m : Pubkey}

theorem mem_unpaid : i ∈ unpaid b s m ↔
    i ∈ s.issued ∧ i.tokenMint = m ∧ ∀ x ∈ s.counted, x.pays b i = false := by
  rw [unpaid, Finset.mem_filter, List.mem_toFinset, Bool.and_eq_true, decide_eq_true_eq,
    List.all_eq_true]
  refine and_congr_right fun _ => and_congr_right fun _ => forall₂_congr fun x _ => ?_
  exact iff_of_eq (Bool.not_eq_true' _)

theorem amountSum_mono {v w : Finset Issued} (h : v ⊆ w) : amountSum v ≤ amountSum w :=
  Finset.sum_le_sum_of_subset h

theorem amountSum_insert_le (i : Issued) (v : Finset Issued) :
    amountSum (insert i v) ≤ amountSum v + i.voucher.amount.toNat := by
  by_cases hi : i ∈ v
  · rw [Finset.insert_eq_of_mem hi]
    exact Nat.le_add_right _ _
  · rw [amountSum, Finset.sum_insert hi]
    exact (Nat.add_comm _ _).le

theorem owed_issued_le {s' : VoucherLedger} (hissued : s'.issued = i :: s.issued)
    (hcounted : s'.counted = s.counted) :
    owed b s' m ≤ owed b s m + if i.tokenMint = m then i.voucher.amount.toNat else 0 := by
  have hsub : ∀ j ∈ unpaid b s' m, j = i ∧ i.tokenMint = m ∨ j ∈ unpaid b s m := by
    intro j hj
    obtain ⟨hj, hm, hpaid⟩ := mem_unpaid.mp hj
    rw [hissued] at hj
    rw [hcounted] at hpaid
    rcases List.mem_cons.mp hj with rfl | hj
    · exact .inl ⟨rfl, hm⟩
    · exact .inr (mem_unpaid.mpr ⟨hj, hm, hpaid⟩)
  by_cases hm : i.tokenMint = m
  · rw [if_pos hm]
    refine (amountSum_mono fun j hj => ?_).trans (amountSum_insert_le i (unpaid b s m))
    rcases hsub j hj with ⟨rfl, -⟩ | hj
    · exact Finset.mem_insert_self _ _
    · exact Finset.mem_insert_of_mem hj
  · rw [if_neg hm, Nat.add_zero]
    refine amountSum_mono fun j hj => ?_
    rcases hsub j hj with ⟨-, hmint⟩ | hj
    · exact absurd hmint hm
    · exact hj

/-- The same voucher once more is the same debt. -/
theorem owed_issued_again {s' : VoucherLedger} (hi : i ∈ s.issued) (hissued : s'.issued = i :: s.issued)
    (hcounted : s'.counted = s.counted) : owed b s' m = owed b s m := by
  have hset : s'.issued.toFinset = s.issued.toFinset := by
    rw [hissued, List.toFinset_cons, Finset.insert_eq_of_mem (List.mem_toFinset.mpr hi)]
  rw [owed, owed, unpaid, unpaid, hset, hcounted]

theorem owed_counted {s' : VoucherLedger} {x : CountedBatch} (hissued : s'.issued = s.issued)
    (hcounted : s'.counted = x :: s.counted) :
    owed b s' m + amountSum ((unpaid b s m).filter fun i => x.pays b i = true) = owed b s m := by
  have hsplit : unpaid b s' m = (unpaid b s m).filter fun i => ¬ x.pays b i = true := by
    ext j
    rw [Finset.mem_filter, mem_unpaid, mem_unpaid, hissued, hcounted, List.forall_mem_cons,
      Bool.not_eq_true]
    tauto
  rw [owed, hsplit, Nat.add_comm]
  exact Finset.sum_filter_add_sum_filter_not _ _ _

theorem mintOf_globalState : b.mintOf (.globalState b.address (.key m)) = some m := if_pos rfl

theorem mintOf_channel {r : Address} : b.mintOf (.channel b.address r (.key m)) = some m := if_pos rfl

theorem mintOf_channel_inv {buyer r mint : Address}
    (h : b.mintOf (.channel buyer r mint) = some m) : buyer = b.address ∧ mint = .key m := by
  cases mint with
  | key k =>
    rw [Buyer.mintOf] at h
    split at h
    · next hbuyer => exact ⟨hbuyer, congrArg Address.key (Option.some.inj h)⟩
    · exact absurd h (by simp)
  | globalState b m => exact absurd h (by simp [Buyer.mintOf])
  | vault b m => exact absurd h (by simp [Buyer.mintOf])
  | channel b r m => exact absurd h (by simp [Buyer.mintOf])
  | settlement c n => exact absurd h (by simp [Buyer.mintOf])

theorem mintOf_of_isChannelOf {a : Address} (h : a.isChannelOf b.address (.key m) = true) :
    b.mintOf a = some m := by
  cases a with
  | channel buyer r mint =>
    simp only [Address.isChannelOf, Bool.and_eq_true, decide_eq_true_eq] at h
    obtain ⟨rfl, rfl⟩ := h
    exact mintOf_channel
  | key k => exact absurd h (by simp [Address.isChannelOf])
  | globalState b m => exact absurd h (by simp [Address.isChannelOf])
  | vault b m => exact absurd h (by simp [Address.isChannelOf])
  | settlement c n => exact absurd h (by simp [Address.isChannelOf])

/-- A settlement pays vouchers of its own channel. -/
theorem mintOf_of_pays {x : CountedBatch} {channel : Address} {n : UInt64} (h : x.pays b i = true)
    (hescrow : x.escrow = .settlement channel n) : b.mintOf channel = some i.tokenMint := by
  rw [CountedBatch.pays, hescrow] at h
  simp only [Bool.and_eq_true, decide_eq_true_eq] at h
  rw [h.1]
  exact mintOf_channel

theorem owed_returned_of_ne {channel : Address} {n : UInt64} (hm : b.mintOf channel ≠ some m) :
    owed b (s.returned (.settlement channel n)) m = owed b s m := by
  have hsame : unpaid b (s.returned (.settlement channel n)) m = unpaid b s m := by
    ext j
    rw [mem_unpaid, mem_unpaid]
    refine and_congr_right fun _ => and_congr_right fun hmint => ?_
    constructor
    · intro hpaid x hx
      by_cases hescrow : x.escrow = .settlement channel n
      · by_contra hpays
        exact hm (hmint ▸ mintOf_of_pays (Bool.not_eq_false _ ▸ hpays) hescrow)
      · exact hpaid x (List.mem_filter.mpr ⟨hx, decide_eq_true hescrow⟩)
    · intro hpaid x hx
      exact hpaid x (List.mem_of_mem_filter hx)
  rw [owed, owed, hsame]

end

/-! ### The invariant -/

/-- What is signed is stored, no cap is below what is settled, and the vouchers are backed. -/
structure BackedBooks (b : Buyer) (s : VoucherLedger) : Prop where
  placed : WellPlaced s.world.accounts
  caps : CapsCover s.world.accounts b.address
  filed : s.store.Filed
  kept : ∀ i ∈ s.issued, s.store.lookup (i.voucher.channelId, i.voucher.seq) = some i.voucher
  backed : Backed b s

section

variable {b : Buyer} {rt : Runtime} {s s' : VoucherLedger} {m : Pubkey} {batch : List StoredVoucher}

/-- Vouchers in one mint stand under different numbers, so what is stored is no less than what is
owed. -/
theorem BackedBooks.owed_le_storedSum (h : BackedBooks b s) (m : Pubkey) :
    owed b s m ≤ storedSum s.store := by
  let key := fun i : Issued => (i.voucher.channelId, i.voucher.seq)
  let amount := fun (_ : Pubkey × UInt64) (v : StoredVoucher) => v.amount.toNat
  have hkey : Set.InjOn key (unpaid b s m) := by
    intro i hi j hj heq
    obtain ⟨hi, him, -⟩ := mem_unpaid.mp hi
    obtain ⟨hj, hjm, -⟩ := mem_unpaid.mp hj
    have hi' : s.store.lookup (key i) = some i.voucher := h.kept i hi
    have hj' : s.store.lookup (key j) = some j.voucher := h.kept j hj
    rw [heq, hj'] at hi'
    cases i
    cases j
    rw [Issued.mk.injEq]
    exact ⟨him.trans hjm.symm, (Option.some.inj hi').symm⟩
  have hsum : owed b s m = ∑ a ∈ (unpaid b s m).image key, Store.contribution amount s.store a := by
    rw [Finset.sum_image hkey, owed, amountSum]
    refine Finset.sum_congr rfl fun i hi => ?_
    have hlookup : s.store.lookup (key i) = some i.voucher := h.kept i (mem_unpaid.mp hi).1
    exact (Store.contribution_of_lookup (f := amount) hlookup).symm
  have hstored : storedSum s.store = Store.weight amount s.store := by
    rw [storedSum, amountOf, Store.values, List.map_map]
    rfl
  rw [hsum, hstored]
  exact Store.sum_contribution_le_weight _ _ _

theorem issue_of_unstored {a : VoucherAccess} {v : StoredVoucher} (h : a.stored = false) :
    s.issue a m v = s := by
  rw [VoucherLedger.issue, Agent.issue, if_pos h]
  rfl

theorem issue_of_stored {a : VoucherAccess} {v : StoredVoucher} (h : a.stored = true) :
    s.issue a m v = { s with
      store := s.store.storeVoucher v
      issued := ⟨m, v⟩ :: s.issued } := by
  rw [VoucherLedger.issue, Agent.issue, if_neg (by simp [h])]
  rfl

/-- A voucher that replaces no other and fits, if it is new. -/
theorem BackedBooks.issue (h : BackedBooks b s) {v : StoredVoucher}
    (hfree : ∀ w ∈ s.store.lookup (v.channelId, v.seq), w = v)
    (hfits : ⟨m, v⟩ ∈ s.issued ∨ Fits b s m v.amount) :
    BackedBooks b { s with
      store := s.store.storeVoucher v
      issued := ⟨m, v⟩ :: s.issued } := by
  refine ⟨h.placed, h.caps, fun c q w hw => ?_, List.forall_mem_cons.mpr
    ⟨AList.lookup_insert _, fun j hj => ?_⟩, fun m' => ?_⟩
  · rw [VoucherStore.storeVoucher, Store.lookup_insert_eq] at hw
    split at hw
    · next hkey =>
      obtain rfl := Option.some.inj hw
      obtain ⟨rfl, rfl⟩ := Prod.mk.inj hkey
      exact ⟨rfl, rfl⟩
    · exact h.filed c q w hw
  · -- Where a voucher was, it is the same.
    have hj' := h.kept j hj
    show (s.store.storeVoucher v).lookup _ = _
    rw [VoucherStore.storeVoucher, Store.lookup_insert_eq]
    split
    · next hkey =>
      rw [hkey] at hj'
      rw [hfree _ hj']
    · exact hj'
  · have hbacked := h.backed m'
    rcases hfits with hagain | hfits
    · have hsame : owed b { s with
          store := s.store.storeVoucher v
          issued := ⟨m, v⟩ :: s.issued } m' = owed b s m' := owed_issued_again hagain rfl rfl
      rw [hsame]
      exact hbacked
    · have hle : owed b { s with
          store := s.store.storeVoucher v
          issued := ⟨m, v⟩ :: s.issued } m' ≤ _ := owed_issued_le (s := s) (i := ⟨m, v⟩) rfl rfl
      by_cases hm : m = m'
      · subst hm
        rw [if_pos rfl] at hle
        unfold Fits at hfits
        dsimp only at hle ⊢
        omega
      · rw [if_neg hm] at hle
        dsimp only at hle ⊢
        omega

/-- A payment is signed under a free number while the check holds. -/
theorem BackedBooks.fits_of_within (h : BackedBooks b s) {amount : UInt64}
    (hwithin : (storedSum s.store : ℤ) + amount.toNat ≤
      (deposited s.world.accounts b.address (.key defaultPubkey) : ℤ)
        - allocated s.world.accounts b.address (.key defaultPubkey)) :
    Fits b s defaultPubkey amount := by
  have howed := h.owed_le_storedSum defaultPubkey
  have hsettleable := h.caps.le_settleable (m := .key defaultPubkey)
  unfold Fits
  omega

/-! ### What a call on the chain keeps -/

/-- A settlement takes its amount, and pays its vouchers. -/
theorem backed_of_settle (h : Backed b s) {ctx : Mb.BatchSettle} {batch : List StoredVoucher}
    {totalAmount : UInt64} {world : Mb.World} (hsettles : settlesOwed b s ctx batch totalAmount)
    (hchange : settleable world.accounts b.address (.key m)
      = settleable s.world.accounts b.address (.key m)
        + if ctx.channel.isChannelOf b.address (.key m) then -(totalAmount.toNat : ℤ) else 0) :
    (owed b { s with world, counted := ⟨ctx.settlementEscrow, batch⟩ :: s.counted } m : ℤ)
      ≤ settleable world.accounts b.address (.key m) := by
  have hbacked := h m
  have hpaid : owed b { s with
      world
      counted := ⟨ctx.settlementEscrow, batch⟩ :: s.counted } m + _ = _ :=
    owed_counted (s := s) rfl rfl
  by_cases hchannel : ctx.channel.isChannelOf b.address (.key m) = true
  · have hle := hsettles m (mintOf_of_isChannelOf hchannel)
    rw [if_pos hchannel] at hchange
    omega
  · rw [if_neg hchannel] at hchange
    omega

/-- A cap that is raised from its own mint changes nothing, one that is lowered leaves enough. -/
theorem backed_of_cap (h : Backed b s) {ctx : Mb.UpdateSpendingCap} {cap : UInt64} {world : Mb.World}
    {g : Mb.GlobalState} {c : Mb.Channel} {total : UInt64}
    (hglobal : ctx.globalState = .globalState g.buyer g.tokenMint)
    (hchannel : ctx.channel = .channel c.buyer c.merchant c.tokenMint)
    (hf : Mb.CapUpdated s.world world g c cap total)
    (hkeeps : keepsSettleable b s batch (.updateSpendingCap ctx cap)) :
    (owed b s m : ℤ) ≤ settleable s.world.accounts b.address (.key m)
      + Mb.capChange b.address (.key m) ctx cap c := by
  have hbacked := h m
  have hraise := Mb.toNat_capRaise c cap
  rw [Mb.capChange, hchannel, hglobal]
  simp only [Mb.isChannelOf_place, Mb.globalState_eq_iff]
  by_cases hbuyer : c.buyer = b.address
  · obtain ⟨-, hmint, hlower⟩ := hkeeps c (hchannel ▸ hf.channel) hbuyer
    have hown : c.spendingCap.toNat < cap.toNat → g.tokenMint = c.tokenMint := by
      intro hlt
      have heq := hmint hlt
      rw [hglobal, Address.globalState.injEq] at heq
      exact heq.2
    by_cases hm : c.tokenMint = .key m
    · have hmintOf : b.mintOf ctx.channel = some m := by
        rw [hchannel, hbuyer, hm]
        exact mintOf_channel
      have hle := hlower m hmintOf
      rw [if_pos ⟨hbuyer, hm⟩]
      split
      · omega
      · omega
    · rw [if_neg fun h => hm h.2]
      split
      · next hpair =>
        -- What is allocated from the global state of this mint is for a channel in this mint.
        have hnot : ¬ c.spendingCap.toNat < cap.toNat := fun hlt => hm ((hown hlt).symm.trans hpair.2)
        omega
      · omega
  · rw [if_neg fun h => hbuyer h.1, if_neg fun h => hbuyer (hf.buyer.trans h.1)]
    omega

/-- A settlement that is returned gives its amount back, and leaves its vouchers unpaid. -/
theorem backed_of_return (h : BackedBooks b s) {ctx : Mb.EscrowAccess} {proof : Mb.FraudProof}
    {c : Mb.Channel} {e : Mb.SettlementEscrow} (hloaded : Mb.Loaded s.world ctx true c e)
    (hkeeps : keepsSettleable b s batch (.resolveDispute ctx proof)) :
    (owed b (s.returned ctx.settlementEscrow) m : ℤ)
      ≤ settleable s.world.accounts b.address (.key m)
        + if ctx.channel.isChannelOf b.address (.key m) then (e.amount.toNat : ℤ) else 0 := by
  by_cases hm : b.mintOf ctx.channel = some m
  · have hchannel : ctx.channel.isChannelOf b.address (.key m) = true := by
      have hown := (h.placed.channel hloaded.lookup_channel).1
      rw [hown] at hm ⊢
      rw [Mb.isChannelOf_place]
      exact mintOf_channel_inv hm
    rw [if_pos hchannel]
    exact hkeeps e hloaded.escrow m hm
  · have hbacked := h.backed m
    rw [hloaded.place, owed_returned_of_ne hm]
    split
    · omega
    · omega

theorem backed_of_onChain (h : BackedBooks b s) {call : Mb.Call} {world : Mb.World}
    (hexec : Mb.exec rt call s.world = .ok world) (hkeeps : keepsSettleable b s batch call) :
    Backed b { s with world, counted := recordBatch batch s.counted call } := by
  intro m
  have hbacked := h.backed m
  have hchange : settleable world.accounts b.address (.key m)
      = settleable s.world.accounts b.address (.key m)
        + settleableChange b.address (.key m) s.world call := Mb.settleable_of_exec h.placed hexec
  show _ ≤ settleable world.accounts b.address (.key m)
  -- Where nothing is counted and nothing is taken, what was backed still is.
  have hsame : 0 ≤ settleableChange b.address (.key m) s.world call →
      (owed b s m : ℤ) ≤ settleable world.accounts b.address (.key m) := by
    intro hle
    omega
  cases call with
  | settleBatch _ ctx _ totalAmount _ _ => exact backed_of_settle h.backed hkeeps hchange
  | optimisticSettle _ ctx _ totalAmount _ => exact backed_of_settle h.backed hkeeps hchange
  | initializeGlobal ctx => exact hsame le_rfl
  | initializeChannel ctx cap cp dp => exact hsame le_rfl
  | releaseSettlement ctx => exact hsame le_rfl
  | dispute ctx => exact hsame le_rfl
  | forceRelease ctx => exact hsame le_rfl
  | transfer src dst amount => exact hsame le_rfl
  | tick now => exact hsame le_rfl
  | deposit ctx amount =>
    refine hsame ?_
    rw [settleableChange]
    split
    · exact Int.natCast_nonneg _
    · exact le_rfl
  | withdraw ctx amount =>
    rw [hchange, settleableChange]
    show (owed b s m : ℤ) ≤ _
    split
    · next hglobal =>
      have hfits := hkeeps m (hglobal ▸ mintOf_globalState)
      unfold Fits at hfits
      omega
    · omega
  | updateSpendingCap ctx cap =>
    obtain ⟨g, c, total, hglobal, hchannel, hf⟩ := Mb.updateSpendingCap_ok hexec
    rw [hchange, settleableChange, hchannel, hf.channel]
    exact backed_of_cap h.backed hglobal hchannel hf hkeeps
  | resolveDispute ctx proof =>
    obtain ⟨c, e, sa, hf⟩ := Mb.resolveDispute_ok hexec
    rw [hchange, settleableChange, hf.loaded.escrow]
    exact backed_of_return h hf.loaded hkeeps

/-! ### Runs -/

/-- The payments under way do not count. -/
theorem BackedBooks.payments (h : BackedBooks b s) (payments : List PaymentStage) :
    BackedBooks b { s with payments } :=
  ⟨h.placed, h.caps, h.filed, h.kept, h.backed⟩

theorem BackedBooks.onChain (h : BackedBooks b s) {call : Mb.Call} {world : Mb.World}
    (hexec : Mb.exec rt call s.world = .ok world) (hkeeps : keepsSettleable b s batch call) :
    BackedBooks b { s with world, counted := recordBatch batch s.counted call } := by
  have heffect := Mb.exec_effect hexec
  refine ⟨(Mb.wellPlaced_of_effect h.placed heffect).2, h.caps.of_effect heffect ?_, h.filed, h.kept,
    backed_of_onChain h hexec hkeeps⟩
  rintro ctx cap rfl c hc hbuyer
  exact (hkeeps c hc hbuyer).1

theorem BackedBooks.of_exec (h : BackedBooks b s) {call : LedgerCall} (hkeeps : keepsBacked b s call)
    (hexec : execLedger b rt call s = .ok s') : BackedBooks b s' := by
  cases call with
  | readVault reads merchantDid amount =>
    rw [execLedger] at hexec
    split at hexec
    · obtain rfl := Except.ok.inj hexec
      exact h
    · obtain rfl := Except.ok.inj hexec
      exact h.payments _
  | checkOutstanding reads merchant available amount =>
    rw [execLedger, bind_eq_ok] at hexec
    obtain ⟨-, -, hexec⟩ := hexec
    split at hexec
    · obtain rfl := Except.ok.inj hexec
      exact h.payments _
    · obtain rfl := Except.ok.inj hexec
      exact h.payments _
  | signPayment a merchant amount =>
    rw [execLedger, bind_eq_ok] at hexec
    obtain ⟨-, -, hexec⟩ := hexec
    have h' := h.payments (s.payments.erase (.cleared merchant amount))
    dsimp only at hexec
    split at hexec
    · obtain rfl := Except.ok.inj hexec
      exact h'
    · next v hv =>
      obtain rfl := Except.ok.inj hexec
      by_cases hstored : a.stored = true
      · obtain ⟨hfresh, hwithin⟩ := hkeeps hstored
        simp only [nextVoucher, bind_eq_ok, orErr_eq_ok] at hv
        obtain ⟨seq, hseq, hv⟩ := hv
        obtain rfl := Except.ok.inj hv
        rw [issue_of_stored hstored]
        refine h'.issue (fun w hw => ?_) (.inr (h'.fits_of_within hwithin))
        -- The number is free, so there is nothing that the voucher replaces.
        have htaken := (nextSeq_taken_iff h.filed hseq).mp (Option.isSome_iff_exists.mpr ⟨w, hw⟩)
        exact absurd htaken (by simp [hfresh])
      · rw [issue_of_unstored (by simpa using hstored)]
        exact h'
  | mbSignVoucher a input =>
    rw [execLedger] at hexec
    split at hexec
    · obtain rfl := Except.ok.inj hexec
      exact h
    · next v hv =>
      obtain rfl := Except.ok.inj hexec
      by_cases hstored : a.stored = true
      · obtain ⟨hfree, hfits⟩ := hkeeps hstored v (by rw [hv]; rfl)
        rw [issue_of_stored hstored]
        refine h.issue hfree (hfits.imp_left fun hagain => ?_)
        obtain ⟨i, hi, heq⟩ := List.any_eq_true.mp hagain
        exact of_decide_eq_true heq ▸ hi
      · rw [issue_of_unstored (by simpa using hstored)]
        exact h
  | onChain call batch =>
    rw [execLedger, bind_eq_ok] at hexec
    obtain ⟨-, -, hexec⟩ := hexec
    split at hexec
    · exact absurd hexec (by simp)
    · next world hworld =>
      obtain rfl := Except.ok.inj hexec
      exact h.onChain hworld hkeeps

/-- Without a global state nothing fits but zero. -/
theorem BackedBooks.not_refuses (h : BackedBooks b s) {call : LedgerCall}
    (hkeeps : keepsBacked b s call) : ¬ RefusesFitting b s call := by
  cases call with
  | readVault reads merchantDid amount =>
    rintro ⟨-, -, hnone, hfits⟩
    rcases hkeeps with hne | hsome
    · have hnone' : ∀ g, s.world.accounts.lookup (.globalState b.address (.key defaultPubkey))
          ≠ some (.globalState g) := by
        intro g hg
        rw [globalAmounts, Mb.World.globalStateAt_eq_some.mpr hg] at hnone
        exact absurd hnone (by simp)
      unfold Fits at hfits
      rw [Mb.settleable_eq_zero h.placed hnone'] at hfits
      exact hne (UInt64.toNat_inj.mp (by
        have hzero : (0 : UInt64).toNat = 0 := rfl
        omega))
    · rw [Option.isNone_iff_eq_none.mp hnone] at hsome
      exact absurd hsome (by simp)
  | checkOutstanding reads merchant available amount =>
    rintro ⟨hrefused, hfits⟩
    exact hkeeps ⟨checkOutstanding_refuses_iff.mp hrefused, hfits⟩
  | signPayment a merchant amount => exact id
  | mbSignVoucher a input => exact id
  | onChain call batch => exact id

theorem backedBooks_start {w : Mb.World} (hw : Genesis w) : BackedBooks b (.start w) := by
  have hnone : ∀ m, settleable w.accounts b.address (.key m) = 0 := by
    refine fun m => Mb.settleable_eq_zero hw.wellPlaced fun g hg => ?_
    rw [hw.empty] at hg
    exact absurd hg (by simp)
  refine ⟨hw.wellPlaced, fun a c hc => ?_, fun c q v hv => ?_, by simp [VoucherLedger.start],
    fun m => ?_⟩
  · have hc' : w.accounts.lookup a = some (.channel c) := hc
    rw [hw.empty] at hc'
    exact absurd hc' (by simp)
  · exact absurd hv (by simp [VoucherLedger.start])
  · have hzero : settleable (VoucherLedger.start w).world.accounts b.address (.key m) = 0 := hnone m
    rw [hzero]
    exact le_rfl

end

namespace Sample

theorem length_twice (m : Bytes 32) : (m.val ++ m.val).length = 64 := by
  rw [List.length_append, m.property]

/-- The buyer of the program's runs. -/
def mbBuyer : Buyer where
  sha := Sha256.sha256
  findProgramAddress seeds _ := Runtime.cluster.findProgramAddress seeds
  sign := fun m => ⟨m.val ++ m.val, length_twice m⟩
  pubkey := fill 32 9
  programId := Mb.programId
  overflowChecks := false

def mbMerchant : Pubkey := fill 32 12

/-- The key is `mbMerchant`. -/
def mbMerchantDid : String := "did:ignite:z6MkfGHbJrqZS84Bnaqnv9ssLbp9kUoGVeVCPuuoXqWCtDes"

def onChain (call : Mb.Call) : LedgerCall := .onChain call []

/-- A deposit, and a channel with a cap of 100. -/
def funded (amount : UInt64) : List LedgerCall :=
  [onChain (.initializeGlobal ⟨Mb.Sample.globalState, Mb.Sample.vault, Mb.Sample.buyer, Mb.Sample.sol⟩),
   onChain (.deposit ⟨Mb.Sample.globalState, Mb.Sample.vault, Mb.Sample.buyer⟩ amount),
   onChain (.initializeChannel ⟨Mb.Sample.globalState, Mb.Sample.channel, Mb.Sample.buyer,
     Mb.Sample.merchant⟩ 100 100 200)]

/-- A payment, where nothing happens in between. -/
def payment (available amount : UInt64) : List LedgerCall :=
  [.readVault true mbMerchantDid amount, .checkOutstanding true mbMerchant available amount,
   .signPayment accessible mbMerchant amount]

def mbSign (seq amount : UInt64) : LedgerCall :=
  .mbSignVoucher accessible ⟨debugPubkey mbMerchant, seq, amount, none⟩

/-- The voucher of the first payment, of 50. -/
def paid : StoredVoucher := signVoucher mbBuyer Mb.Sample.channelKey mbMerchant 1 50

def paidRoot : Bytes 32 := ((sumRoot mbBuyer [paid]).map (·.hash)).getD (fill 32 0)

/-- The merchant settles it. -/
def settlePaid : LedgerCall :=
  let message := Mb.settlementMessage Runtime.cluster Mb.Sample.channelKey paidRoot 50 0
  let signed : Instruction := {
    programId := ed25519ProgramId
    accounts := []
    data := [1, 0] ++ u16Le 48 ++ u16Le 0xffff ++ u16Le 16 ++ u16Le 0xffff ++ u16Le 112 ++ u16Le 32
      ++ u16Le 0xffff ++ mbMerchant.val ++ Mb.Sample.merchantSig.val ++ message.val }
  .onChain (.optimisticSettle ⟨[signed], 1⟩ ⟨Mb.Sample.globalState, Mb.Sample.vault,
    Mb.Sample.channel, Mb.Sample.escrow, Mb.Sample.merchant⟩ paidRoot 50 Mb.Sample.merchantSig) [paid]

end Sample

end Agent
