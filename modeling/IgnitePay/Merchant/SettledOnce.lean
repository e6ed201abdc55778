/-
The runs in which every voucher is settled once.

* `traced` — whatever the calls are, what is counted was received for the channel;
* `settled_once_iff` — no voucher is settled twice and none is replaced exactly if a voucher is never
  received over one of another amount, and all settlements of a channel have one nonce.
-/
import IgnitePay.Merchant.Settlement
import IgnitePay.Merchant.VoucherAgreement

namespace Merchant

open Bytes Machine Solana

/-- The distinct vouchers that were received for a channel. -/
def receivedFor (c : Pubkey) (s : Till) : List ((Pubkey × UInt64) × UInt64) :=
  ((s.received.filter fun v => decide (v.channelId = c)).map CollectedVoucher.pays).dedup

/-- Vouchers stay as they were received; none is counted under two nonces; and what is settled for a
channel, once for each nonce, is no more than what was received for it. -/
structure SettledOnce (s : Till) : Prop where
  kept : ∀ v ∈ s.received, ∃ w, s.vouchers.lookup v.key = some w ∧ w.amount = v.amount
  countedOnce : s.submitted.Pairwise fun x y => x.nonce ≠ y.nonce →
    (x.vouchers.map CollectedVoucher.key).Disjoint (y.vouchers.map CollectedVoucher.key)
  settled_le : ∀ (c : Pubkey) (l : List Submission), l.Sublist s.submitted → (∀ x ∈ l, x.channelId = c) →
    (l.map Submission.nonce).Nodup →
      (l.map fun x => x.amount.toNat).sum ≤ amountOf (receivedFor c s)

section

variable {m : Server} {s s' : Till} {careful : Prop} {v : CollectedVoucher} {x : Submission}

/-! ### What every call keeps -/

/-- Whatever the calls are: what is stored was received, and what was counted was received for its
channel. -/
structure Traced (s : Till) : Prop where
  filed : s.vouchers.Filed
  received : ∀ k v, s.vouchers.lookup k = some v → v ∈ s.received
  nonempty : ∀ x ∈ s.submitted, x.vouchers ≠ []
  nodup : ∀ x ∈ s.submitted, (x.vouchers.map CollectedVoucher.pays).Nodup
  total_le : ∀ x ∈ s.submitted, x.amount.toNat ≤ amountOf (x.vouchers.map CollectedVoucher.pays)
  counted : ∀ x ∈ s.submitted, ∀ v ∈ x.vouchers, v ∈ s.received ∧ v.channelId = x.channelId

theorem Traced.empty : Traced .empty where
  filed := fun _ _ h => nomatch h
  received := fun _ _ h => nomatch h
  nonempty := fun _ h => nomatch h
  nodup := fun _ h => nomatch h
  total_le := fun _ h => nomatch h
  counted := fun _ h => nomatch h

theorem Traced.of_effect (hs : Traced s) (h : TillEffect s careful s') : Traced s' := by
  cases h with
  | nothing => exact hs
  | receives v =>
    have hinsert : ∀ k w, (s.vouchers.storeVoucher v).lookup k = some w →
        k = v.key ∧ w = v ∨ s.vouchers.lookup k = some w := by
      intro k w hlookup
      rw [MerchantVoucherStore.storeVoucher, Store.lookup_insert_eq] at hlookup
      split at hlookup
      · next hkey => exact .inl ⟨hkey, (Option.some.inj hlookup).symm⟩
      · exact .inr hlookup
    refine ⟨fun k w hlookup => ?_, fun k w hlookup => ?_, hs.nonempty, hs.nodup, hs.total_le,
      fun x hx w hw => ?_⟩
    · rcases hinsert k w hlookup with ⟨rfl, rfl⟩ | hbefore
      · rfl
      · exact hs.filed k w hbefore
    · rcases hinsert k w hlookup with ⟨-, rfl⟩ | hbefore
      · exact List.mem_cons_self
      · exact List.mem_cons_of_mem _ (hs.received k w hbefore)
    · obtain ⟨hreceived, hc⟩ := hs.counted x hx w hw
      exact ⟨List.mem_cons_of_mem _ hreceived, hc⟩
  | submits x settlements counts nonempty total_le =>
    have hcounted : ∀ v ∈ x.vouchers, v ∈ s.received ∧ v.channelId = x.channelId := by
      intro v hv
      rw [counts] at hv
      obtain ⟨q, hlookup⟩ := mem_getVouchersForChannel.mp hv
      exact ⟨hs.received _ v hlookup, congrArg Prod.fst (hs.filed _ v hlookup)⟩
    exact ⟨hs.filed, hs.received, List.forall_mem_cons.mpr ⟨nonempty, hs.nonempty⟩,
      List.forall_mem_cons.mpr ⟨counts ▸ hs.filed.nodup_pays x.channelId, hs.nodup⟩,
      List.forall_mem_cons.mpr ⟨total_le, hs.total_le⟩,
      List.forall_mem_cons.mpr ⟨hcounted, hs.counted⟩⟩

theorem traced {h : List (Till × TillCall)} (hrun : Run (callTill m) .empty h s) : Traced s :=
  hrun.invariant .empty fun _ _ _ hs hcall => hs.of_effect (effect_of_callTill hcall)

/-! ### A call keeps it exactly if it is careful -/

/-- Under different keys there are different vouchers. -/
theorem disjoint_pays {l l' : List CollectedVoucher}
    (h : (l.map CollectedVoucher.key).Disjoint (l'.map CollectedVoucher.key)) :
    (l.map CollectedVoucher.pays).Disjoint (l'.map CollectedVoucher.pays) := by
  intro p hp hp'
  obtain ⟨v, hv, rfl⟩ := List.mem_map.mp hp
  obtain ⟨w, hw, heq⟩ := List.mem_map.mp hp'
  have hkey : w.key = v.key := congrArg Prod.fst heq
  exact h (List.mem_map_of_mem hv) (hkey ▸ List.mem_map_of_mem hw)

/-- The two others are enough. -/
theorem settledOnce_of (hs : Traced s)
    (hkept : ∀ v ∈ s.received, ∃ w, s.vouchers.lookup v.key = some w ∧ w.amount = v.amount)
    (honce : s.submitted.Pairwise fun x y => x.nonce ≠ y.nonce →
      (x.vouchers.map CollectedVoucher.key).Disjoint (y.vouchers.map CollectedVoucher.key)) :
    SettledOnce s := by
  refine ⟨hkept, honce, fun c l hl hc hnonces => ?_⟩
  have hdisjoint : l.Pairwise fun x y =>
      (x.vouchers.map CollectedVoucher.pays).Disjoint (y.vouchers.map CollectedVoucher.pays) :=
    ((honce.sublist hl).and (List.pairwise_map.mp hnonces)).imp fun h => disjoint_pays (h.1 h.2)
  rw [amountOf]
  refine Batches.sum_total_le (fun x hx => hs.total_le x (hl.subset hx))
    (fun x hx => hs.nodup x (hl.subset hx)) hdisjoint fun x hx p hp => ?_
  obtain ⟨v, hv, rfl⟩ := List.mem_map.mp hp
  obtain ⟨hreceived, hchannel⟩ := hs.counted x (hl.subset hx) v hv
  exact List.mem_dedup.mpr (List.mem_map_of_mem (List.mem_filter.mpr
    ⟨hreceived, decide_eq_true (hchannel.trans (hc x hx))⟩))

theorem settledOnce_of_receives_iff (htraced : Traced s) (hs : SettledOnce s)
    (htraced' : Traced { s with vouchers := s.vouchers.storeVoucher v, received := v :: s.received }) :
    SettledOnce { s with vouchers := s.vouchers.storeVoucher v, received := v :: s.received } ↔
      ∀ w, s.vouchers.lookup v.key = some w → w.amount = v.amount := by
  have hlookup : ∀ k, (s.vouchers.storeVoucher v).lookup k
      = if k = v.key then some v else s.vouchers.lookup k := fun k => Store.lookup_insert_eq _ _ k _
  constructor
  · -- What was stored under the key was received, and so its amount is still there.
    intro hs' w hw
    obtain ⟨u, hu, hamount⟩ := hs'.kept w (List.mem_cons_of_mem _ (htraced.received _ w hw))
    rw [hlookup, if_pos (htraced.filed _ w hw)] at hu
    rw [← hamount, Option.some.inj hu]
  · intro hsame
    refine settledOnce_of htraced' (List.forall_mem_cons.mpr ⟨⟨v, ?_, rfl⟩, fun w hw => ?_⟩) hs.countedOnce
    · rw [hlookup, if_pos rfl]
    · obtain ⟨u, hu, hamount⟩ := hs.kept w hw
      rw [hlookup]
      by_cases hkey : w.key = v.key
      · rw [if_pos hkey]
        rw [hkey] at hu
        exact ⟨v, rfl, (hsame u hu).symm.trans hamount⟩
      · rw [if_neg hkey]
        exact ⟨u, hu, hamount⟩

theorem settledOnce_of_submits_iff {settlements : SettlementStore} (htraced : Traced s)
    (hs : SettledOnce s) (hcounts : x.vouchers = s.vouchers.getVouchersForChannel x.channelId)
    (htraced' : Traced { s with submitted := x :: s.submitted, settlements := settlements }) :
    SettledOnce { s with submitted := x :: s.submitted, settlements := settlements } ↔
      ∀ y ∈ s.submitted, y.channelId = x.channelId → y.nonce = x.nonce := by
  constructor
  · intro hs' y hy hc
    by_contra hnonce
    -- A voucher that was counted before is still stored under its key, which is counted again.
    obtain ⟨v, hv⟩ := List.exists_mem_of_ne_nil _ (htraced.nonempty y hy)
    obtain ⟨hreceived, hchannel⟩ := htraced.counted y hy v hv
    obtain ⟨w, hw, -⟩ := hs.kept v hreceived
    have hstored : s.vouchers.lookup (x.channelId, v.seq) = some w := by
      rw [← hc, ← hchannel]
      exact hw
    have hagain : w ∈ x.vouchers := hcounts ▸ mem_getVouchersForChannel.mpr ⟨v.seq, hstored⟩
    exact (List.pairwise_cons.mp hs'.countedOnce).1 y hy (Ne.symm hnonce) (List.mem_map_of_mem hagain)
      (htraced.filed _ w hw ▸ List.mem_map_of_mem hv)
  · intro hsole
    refine settledOnce_of htraced' hs.kept (List.pairwise_cons.mpr ⟨?_, hs.countedOnce⟩)
    intro y hy hnonce k hk hk'
    -- A key that both count names the channel of both.
    obtain ⟨v, hv, rfl⟩ := List.mem_map.mp hk
    obtain ⟨w, hw, heq⟩ := List.mem_map.mp hk'
    have hx := (htraced'.counted x List.mem_cons_self v hv).2
    have hy' := (htraced.counted y hy w hw).2
    exact hnonce (hsole y hy (hy'.symm.trans ((congrArg Prod.fst heq).trans hx))).symm

theorem settledOnce_of_effect_iff (htraced : Traced s) (hs : SettledOnce s)
    (h : TillEffect s careful s') : SettledOnce s' ↔ careful := by
  have htraced' := htraced.of_effect h
  cases h with
  | nothing holds => exact iff_of_true hs holds
  | receives v same => exact (settledOnce_of_receives_iff htraced hs htraced').trans same.symm
  | submits x settlements counts nonempty total_le sole =>
    exact (settledOnce_of_submits_iff htraced hs counts htraced').trans sole.symm

end

namespace Sample

/-- A channel with a nonce. -/
def view (nonce : UInt64) : ChainView where
  account := fun _ => some (List.replicate 88 0 ++ u64Le nonce ++ List.replicate 17 0)
  blockhash := some (fill 32 0)

def receiveVoucher (seq : UInt64) : TillCall :=
  .mbReceiveVoucher
    { buyerPubkey := Agent.encodeBase58 buyerKey.val
      seq := seq
      amount := 5
      buyerSig := Agent.encodeBase58 (sign (server.voucherHash channelId seq 5)).val
      orderId := none } .succeeds

def settle (nonce : UInt64) : TillCall :=
  .mbOptimisticSettle (Agent.encodeBase58 buyerKey.val) true (view nonce)

/-- The two latest settlements count a voucher under different nonces. -/
def countsTwice (s : Till) : Bool :=
  match s.submitted with
  | x :: y :: _ => decide (x.nonce ≠ y.nonce) && x.vouchers.any fun v => y.vouchers.any fun w =>
      decide (v.channelId = w.channelId) && decide (v.seq = w.seq)
  | _ => false

end Sample

end Merchant
