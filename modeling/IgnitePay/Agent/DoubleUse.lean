/-
Whether a voucher is used twice.

`mb_sign_voucher` takes any number, also one that is stored already, and then the voucher that was
there is lost; a settlement counts all vouchers of its channel, also those that a settlement with
another nonce has counted.  Nothing else goes wrong.

* `effect_of_call` — what a call does, and when it does so carefully;
* `settledOf_le` — if no voucher is counted twice, no more is settled than was issued;
* `never_reused_iff` — no voucher is used twice in a run exactly if all its calls are careful;
* `used_twice` — two settlements over one voucher, and a second voucher of its number.
-/
import IgnitePay.Agent.Vouchers
import IgnitePay.Lib.Batches

namespace Agent

open Bytes Machine Solana
open Mb (leafNode)

/-! ### What is to hold -/

def settledOf (settlements : List BatchSettlement) : ℕ :=
  (settlements.map fun x => x.totalAmount.toNat).sum

/-- The vouchers that were signed for a channel. -/
def signedFor (c : Pubkey) (s : Vouchers) : List StoredVoucher :=
  s.signed.filter fun v => decide (v.channelId = c)

/-- Not counted in both, unless it is the same batch. -/
def CountedOnce (settlements : List BatchSettlement) : Prop :=
  settlements.Pairwise fun x y => x.channelId = y.channelId → x.batchNonce ≠ y.batchNonce →
    x.vouchers.Disjoint y.vouchers

/-- No voucher is used twice: its number is its own, it stays in the store, and it is settled once. -/
structure NeverReused (s : Vouchers) : Prop where
  numbered : s.signed.Pairwise fun v w => v.channelId = w.channelId → v.seq ≠ w.seq
  kept : ∀ v ∈ s.signed, s.store.lookup (v.channelId, v.seq) = some v
  countedOnce : CountedOnce s.settlements
  settled_le : ∀ c l, l.Sublist s.settlements → (∀ x ∈ l, x.channelId = c) →
    (l.map BatchSettlement.batchNonce).Nodup → settledOf l ≤ amountOf (signedFor c s)

/-- A voucher is only stored under a number that is free, and all settlements that are signed for a
channel have one nonce. -/
def carefulCall (b : Buyer) (s : Vouchers) : VoucherCall → Bool
  | .tryMbVoucherPayment a getAccount merchantDid amount =>
    !a.stored || (paymentVoucher b a getAccount merchantDid amount s.store).toOption.all fun v =>
      !reuses b a s.store v.channelId
  | .mbSignVoucher a input =>
    !a.stored || (inputVoucher b input).toOption.all fun v =>
      (s.store.lookup (v.channelId, v.seq)).isNone
  | .mbSignSettlement a input =>
    (inputSettlement b a input s.store).toOption.all fun x => s.settlements.all fun y =>
      decide (y.channelId = x.channelId → y.batchNonce = x.batchNonce)

/-- Before the first call. -/
def Vouchers.none : Vouchers := ⟨∅, [], []⟩

/-! ### One call -/

section

variable {b : Buyer} {s s' : Vouchers} {call : VoucherCall} {careful : Prop} {v w : StoredVoucher}
  {x : BatchSettlement} {c : Pubkey}

/-- What a call does, and when it is careful. -/
inductive CallEffect (s : Vouchers) (careful : Prop) : Vouchers → Prop
  | nothing (holds : careful) : CallEffect s careful s
  | signs (v : StoredVoucher) (free : careful ↔ s.store.lookup (v.channelId, v.seq) = none) :
      CallEffect s careful { s with store := s.store.storeVoucher v, signed := v :: s.signed }
  | settles (x : BatchSettlement)
      (counts : x.vouchers = s.store.getVouchersForChannel x.channelId) (nonempty : x.vouchers ≠ [])
      (total_le : x.totalAmount.toNat ≤ amountOf x.vouchers)
      (sole : careful ↔ ∀ y ∈ s.settlements, y.channelId = x.channelId → y.batchNonce = x.batchNonce) :
      CallEffect s careful { s with settlements := x :: s.settlements }

theorem effect_of_issue {a : VoucherAccess} (hunstored : a.stored = false → careful)
    (hfree : a.stored = true → (careful ↔ s.store.lookup (v.channelId, v.seq) = none)) :
    CallEffect s careful (issue a v s).2 := by
  rw [issue]
  by_cases hstored : a.stored = false
  · rw [if_pos hstored]
    exact .nothing (hunstored hstored)
  · rw [if_neg hstored]
    exact .signs v (hfree (by simpa using hstored))

theorem nextSeq_of_paymentVoucher {a : VoucherAccess} {getAccount : Pubkey → Option GlobalAmounts}
    {merchantDid : String} {amount : UInt64} {store : VoucherStore}
    (h : paymentVoucher b a getAccount merchantDid amount store = .ok v) :
    nextSeq b a store v.channelId = some v.seq := by
  simp only [paymentVoucher, bind_eq_ok, orErr_eq_ok, require_eq_ok] at h
  obtain ⟨merchant, -, gs, -, -, -, seq, hseq, hv⟩ := h
  obtain rfl := Except.ok.inj hv
  exact hseq

theorem of_inputSettlement {a : VoucherAccess} {input : MbSignSettlementInput} {store : VoucherStore}
    (h : inputSettlement b a input store = .ok x) :
    x.vouchers = store.getVouchersForChannel x.channelId ∧ x.vouchers ≠ [] ∧
      x.totalAmount.toNat ≤ amountOf x.vouchers := by
  simp only [inputSettlement, bind_eq_ok, orErr_eq_ok, require_eq_ok] at h
  obtain ⟨merchant, -, merkleRoot, -, -, -, -, hne, root, hroot, -, -, -, htotal, hx⟩ := h
  obtain rfl := Except.ok.inj hx
  exact ⟨rfl, hne, htotal ▸ le_of_sumRoot hroot⟩

theorem effect_of_call (hfiled : s.store.Filed) (h : callVouchers b call s = .ok s') :
    CallEffect s (carefulCall b s call = true) s' := by
  cases call with
  | tryMbVoucherPayment a getAccount merchantDid amount =>
    obtain rfl := Except.ok.inj h
    rw [tryMbVoucherPayment, carefulCall]
    rcases hv : paymentVoucher b a getAccount merchantDid amount s.store with e | v
    · exact .nothing (Bool.or_true _)
    · refine effect_of_issue (fun hunstored => by rw [hunstored]; rfl) fun hstored => ?_
      have htaken := nextSeq_taken_iff hfiled (nextSeq_of_paymentVoucher hv)
      rw [hstored, ← Option.isNone_iff_eq_none, ← Option.not_isSome]
      show (!reuses b a s.store v.channelId) = true ↔ _
      rw [Bool.not_eq_true', Bool.not_eq_true', ← Bool.not_eq_true, ← Bool.not_eq_true, htaken]
  | mbSignVoucher a input =>
    obtain rfl := Except.ok.inj h
    rw [mbSignVoucher, carefulCall]
    rcases inputVoucher b input with e | v
    · exact .nothing (Bool.or_true _)
    · refine effect_of_issue (fun hunstored => by rw [hunstored]; rfl) fun hstored => ?_
      rw [hstored]
      exact Option.isNone_iff_eq_none
  | mbSignSettlement a input =>
    obtain rfl := Except.ok.inj h
    rw [mbSignSettlement, carefulCall]
    rcases hx : inputSettlement b a input s.store with e | x
    · exact .nothing rfl
    · obtain ⟨hcounts, hne, hle⟩ := of_inputSettlement hx
      refine .settles x hcounts hne hle ?_
      show (s.settlements.all fun y => decide _) = true ↔ _
      rw [List.all_eq_true]
      exact forall₂_congr fun y _ => decide_eq_true_iff

/-! ### What every call keeps -/

/-- Whatever the calls are: what is stored was signed, and what was counted was signed for its channel. -/
structure Traced (s : Vouchers) : Prop where
  filed : s.store.Filed
  signed : ∀ c q v, s.store.lookup (c, q) = some v → v ∈ s.signed
  nonempty : ∀ x ∈ s.settlements, x.vouchers ≠ []
  nodup : ∀ x ∈ s.settlements, x.vouchers.Nodup
  total_le : ∀ x ∈ s.settlements, x.totalAmount.toNat ≤ amountOf x.vouchers
  counted : ∀ x ∈ s.settlements, ∀ v ∈ x.vouchers, v ∈ s.signed ∧ v.channelId = x.channelId

theorem Traced.of_effect (hs : Traced s) (h : CallEffect s careful s') : Traced s' := by
  cases h with
  | nothing => exact hs
  | signs v =>
    have hinsert : ∀ c q w, (s.store.storeVoucher v).lookup (c, q) = some w →
        (c, q) = (v.channelId, v.seq) ∧ w = v ∨ s.store.lookup (c, q) = some w := by
      intro c q w hlookup
      rw [VoucherStore.storeVoucher, Store.lookup_insert_eq] at hlookup
      split at hlookup
      · next hkey => exact .inl ⟨hkey, (Option.some.inj hlookup).symm⟩
      · exact .inr hlookup
    refine ⟨fun c q w hlookup => ?_, fun c q w hlookup => ?_, hs.nonempty, hs.nodup, hs.total_le,
      fun x hx w hw => ?_⟩
    · rcases hinsert c q w hlookup with ⟨hkey, rfl⟩ | hbefore
      · obtain ⟨rfl, rfl⟩ := Prod.mk.inj hkey
        exact ⟨rfl, rfl⟩
      · exact hs.filed c q w hbefore
    · rcases hinsert c q w hlookup with ⟨-, rfl⟩ | hbefore
      · exact List.mem_cons_self
      · exact List.mem_cons_of_mem _ (hs.signed c q w hbefore)
    · obtain ⟨hsigned, hc⟩ := hs.counted x hx w hw
      exact ⟨List.mem_cons_of_mem _ hsigned, hc⟩
  | settles x counts nonempty total_le =>
    have hcounted : ∀ v ∈ x.vouchers, v ∈ s.signed ∧ v.channelId = x.channelId := by
      intro v hv
      rw [counts] at hv
      obtain ⟨q, hlookup⟩ := mem_getVouchersForChannel.mp hv
      exact ⟨hs.signed _ q v hlookup, (hs.filed _ q v hlookup).1⟩
    exact ⟨hs.filed, hs.signed, List.forall_mem_cons.mpr ⟨nonempty, hs.nonempty⟩,
      List.forall_mem_cons.mpr ⟨counts ▸ hs.filed.nodup x.channelId, hs.nodup⟩,
      List.forall_mem_cons.mpr ⟨total_le, hs.total_le⟩,
      List.forall_mem_cons.mpr ⟨hcounted, hs.counted⟩⟩

/-- If no voucher is counted twice, no more is settled than was issued. -/
theorem settledOf_le (hs : Traced s) (honce : CountedOnce s.settlements) {l : List BatchSettlement}
    (hl : l.Sublist s.settlements) (hc : ∀ x ∈ l, x.channelId = c)
    (hnonces : (l.map BatchSettlement.batchNonce).Nodup) :
    settledOf l ≤ amountOf (signedFor c s) := by
  have hdisjoint : l.Pairwise fun x y => x.vouchers.Disjoint y.vouchers := by
    have hboth := (honce.sublist hl).and (List.pairwise_map.mp hnonces)
    refine hboth.imp_of_mem fun {x y} hx hy hxy => ?_
    exact hxy.1 ((hc x hx).trans (hc y hy).symm) hxy.2
  rw [settledOf, amountOf]
  refine Batches.sum_total_le (fun x hx => hs.total_le x (hl.subset hx))
    (fun x hx => hs.nodup x (hl.subset hx)) hdisjoint fun x hx v hv => ?_
  obtain ⟨hsigned, hchannel⟩ := hs.counted x (hl.subset hx) v hv
  exact List.mem_filter.mpr ⟨hsigned, decide_eq_true (hchannel.trans (hc x hx))⟩

/-- The three others are enough. -/
theorem neverReused_of (hs : Traced s)
    (hnumbered : s.signed.Pairwise fun v w => v.channelId = w.channelId → v.seq ≠ w.seq)
    (hkept : ∀ v ∈ s.signed, s.store.lookup (v.channelId, v.seq) = some v)
    (honce : CountedOnce s.settlements) : NeverReused s :=
  ⟨hnumbered, hkept, honce, fun _ _ hl hc hnonces => settledOf_le hs honce hl hc hnonces⟩

/-! ### A call keeps it exactly if it is careful -/

theorem neverReused_of_signs_iff (htraced : Traced s) (hs : NeverReused s)
    (htraced' : Traced { s with store := s.store.storeVoucher v, signed := v :: s.signed }) :
    NeverReused { s with store := s.store.storeVoucher v, signed := v :: s.signed } ↔
      s.store.lookup (v.channelId, v.seq) = none := by
  constructor
  · intro hs'
    by_contra hsome
    obtain ⟨w, hw⟩ := Option.ne_none_iff_exists'.mp hsome
    obtain ⟨hc, hq⟩ := htraced.filed _ _ w hw
    exact (List.pairwise_cons.mp hs'.numbered).1 w (htraced.signed _ _ w hw) hc.symm hq.symm
  · intro hfree
    -- Whatever was signed before has another key.
    have hother : ∀ w ∈ s.signed, (w.channelId, w.seq) ≠ (v.channelId, v.seq) := by
      intro w hw hkey
      have hlookup := hs.kept w hw
      rw [hkey, hfree] at hlookup
      exact absurd hlookup (by simp)
    refine neverReused_of htraced' (List.pairwise_cons.mpr ⟨fun w hw hc hq => ?_, hs.numbered⟩)
      (List.forall_mem_cons.mpr ⟨AList.lookup_insert _, fun w hw => ?_⟩) hs.countedOnce
    · exact hother w hw (by rw [hc, hq])
    · exact (AList.lookup_insert_ne (hother w hw)).trans (hs.kept w hw)

theorem neverReused_of_settles_iff (htraced : Traced s) (hs : NeverReused s)
    (hcounts : x.vouchers = s.store.getVouchersForChannel x.channelId)
    (htraced' : Traced { s with settlements := x :: s.settlements }) :
    NeverReused { s with settlements := x :: s.settlements } ↔
      ∀ y ∈ s.settlements, y.channelId = x.channelId → y.batchNonce = x.batchNonce := by
  constructor
  · intro hs' y hy hc
    by_contra hnonce
    -- A voucher that was counted before is still stored, and so it is counted again.
    obtain ⟨v, hv⟩ := List.exists_mem_of_ne_nil _ (htraced.nonempty y hy)
    obtain ⟨hsigned, hchannel⟩ := htraced.counted y hy v hv
    have hagain : v ∈ x.vouchers := by
      rw [hcounts, ← hc, ← hchannel]
      exact mem_getVouchersForChannel.mpr ⟨v.seq, hs.kept v hsigned⟩
    exact (List.pairwise_cons.mp hs'.countedOnce).1 y hy hc.symm (Ne.symm hnonce) hagain hv
  · intro hsole
    refine neverReused_of htraced' hs.numbered hs.kept (List.pairwise_cons.mpr ⟨?_, hs.countedOnce⟩)
    intro y hy hc hnonce
    exact absurd (hsole y hy hc.symm).symm hnonce

theorem neverReused_of_effect_iff (htraced : Traced s) (hs : NeverReused s)
    (h : CallEffect s careful s') : NeverReused s' ↔ careful := by
  have htraced' := htraced.of_effect h
  cases h with
  | nothing holds => exact iff_of_true hs holds
  | signs v free => exact (neverReused_of_signs_iff htraced hs htraced').trans free.symm
  | settles x counts nonempty total_le sole =>
    exact (neverReused_of_settles_iff htraced hs counts htraced').trans sole.symm

theorem traced_none : Traced .none := by
  refine ⟨fun c q v h => ?_, fun c q v h => ?_, ?_, ?_, ?_, ?_⟩
  · exact absurd h (by simp [Vouchers.none])
  · exact absurd h (by simp [Vouchers.none])
  all_goals simp [Vouchers.none]

theorem traced_of_run {h : List (Vouchers × VoucherCall)} (hrun : Run (callVouchers b) .none h s) :
    Traced s :=
  hrun.invariant traced_none fun _ _ _ hs hcall => hs.of_effect (effect_of_call hs.filed hcall)

end

/-- No voucher is used twice in a run exactly if all its calls are careful. -/
theorem never_reused_iff (b : Buyer) {h : List (Vouchers × VoucherCall)} {s : Vouchers}
    (hrun : Run (callVouchers b) .none h s) :
    (∀ s' ∈ Run.states h s, NeverReused s') ↔ ∀ c ∈ h, carefulCall b c.1 c.2 = true := by
  refine @Run.forall_states_iff _ _ _ _ _ _ _ NeverReused (fun s call => carefulCall b s call = true)
    (fun _ _ => True) ?_ ?_ hrun fun _ _ => trivial
  · exact neverReused_of traced_none List.Pairwise.nil (by simp [Vouchers.none]) List.Pairwise.nil
  · intro h s call s' hr hs _ hcall
    have htraced := traced_of_run hr
    exact neverReused_of_effect_iff htraced hs (effect_of_call htraced.filed hcall)

namespace Sample

def buyer : Buyer where
  sha := Sha256.sha256
  findProgramAddress := fun seeds program => Sha256.sha256 (seeds.flatten ++ program.val)
  sign := fun m => ⟨m.val ++ m.val, by rw [List.length_append, m.property]⟩
  pubkey := fill 32 7
  programId := fill 32 8
  overflowChecks := false

/-- The key is the one of `merchantDid`. -/
def merchantKey : Pubkey := fill 32 9

def merchantDid : String := "did:ignite:z6Mkf4XhsxSXfEAWNK6GcFu7TyVs21AfUTRjiguqMhNQeDgk"

example : extractPubkeyFromDid merchantDid = some merchantKey := by decide +kernel

def channel : Pubkey := deriveChannelPda buyer merchantKey defaultPubkey

/-- The store is there, and there is room in the vault. -/
def accessible : VoucherAccess := ⟨true, true, true, true⟩

def payVoucher (amount : UInt64) : VoucherCall :=
  .tryMbVoucherPayment accessible (fun _ => some ⟨1000, 0⟩) merchantDid amount

def sign (seq amount : UInt64) : VoucherCall :=
  .mbSignVoucher accessible ⟨debugPubkey merchantKey, seq, amount, none⟩

/-- A settlement over the voucher of 5 with number 1. -/
def settle (nonce : UInt64) : VoucherCall :=
  let v := signVoucher buyer channel merchantKey 1 5
  let leaf := leafNode buyer.sha ⟨v.channelId, v.seq, v.amount, buyer.pubkey, v.buyerSig⟩
  .mbSignSettlement accessible ⟨debugPubkey merchantKey, debugPubkey leaf.hash, 5, nonce, none⟩

end Sample

/-- After a payment of 5, two settlements of 5 with different nonces; and then a voucher of 7 with the
number of the first, which is lost. -/
theorem used_twice : ∃ h s, Run (callVouchers Sample.buyer) .none h s ∧
    h.map Prod.snd
      = [Sample.payVoucher 5, Sample.settle 1, Sample.settle 2, Sample.sign 1 7].reverse ∧
    s.settlements.map (fun x => (x.channelId, x.batchNonce, x.totalAmount))
      = [(Sample.channel, 2, 5), (Sample.channel, 1, 5)] ∧
    s.signed.map (fun v => (v.channelId, v.seq, v.amount))
      = [(Sample.channel, 1, 7), (Sample.channel, 1, 5)] ∧
    (s.store.lookup (Sample.channel, 1)).map StoredVoucher.amount = some 7 :=
  Run.exists_of_test (by decide +kernel)

/-- The same with a number that is free, and with the nonce of the first settlement. -/
theorem never_reused_renewed : ∃ h s, Run (callVouchers Sample.buyer) .none h s ∧
    s.signed.map (fun v => (v.seq, v.amount)) = [(9, 7), (1, 5)] ∧
    s.settlements.map BatchSettlement.batchNonce = [1, 1] ∧
    ∀ s' ∈ Run.states h s, NeverReused s' := by
  have ht : (Run.record (callVouchers Sample.buyer)
      [Sample.payVoucher 5, Sample.settle 1, Sample.settle 1, Sample.sign 9 7] [] .none).toOption.any
      (fun r => (decide (r.2.signed.map (fun v => (v.seq, v.amount)) = [(9, 7), (1, 5)]) &&
        decide (r.2.settlements.map BatchSettlement.batchNonce = [1, 1])) &&
        r.1.all fun c => carefulCall Sample.buyer c.1 c.2) = true := by
    decide +kernel
  obtain ⟨h, s, hrun, ht⟩ := Run.exists_of_record ht
  obtain ⟨ht, hcareful⟩ := Bool.and_eq_true_iff.mp ht
  obtain ⟨hsigned, hnonces⟩ := Bool.and_eq_true_iff.mp ht
  exact ⟨h, s, hrun, of_decide_eq_true hsigned, of_decide_eq_true hnonces,
    (never_reused_iff Sample.buyer hrun).mpr (List.all_eq_true.mp hcareful)⟩

end Agent
