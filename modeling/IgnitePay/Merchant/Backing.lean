/-
What stands behind a confirmed order.

Against a chain whose transactions an RPC reports as they are: a transaction that is accepted credited
the wallet with at least the amount, unless it failed with an error that is no object.  Of a voucher
in a proof only the form is checked, of a voucher that is received not the amount; and nothing
remembers what an order was confirmed with.

* `credited_of_verifyOnChainTx` — what the check of a transaction shows;
* `confirmations_backed` — the runs in which every confirmed order is backed, and no payment confirms two.
-/
import IgnitePay.Merchant.ConfirmedOrders

namespace Merchant

open Bytes Machine Solana
open Agent (decodeBase58 encodeBase58 exactly parsePubkey)

/-! ### The chain -/

/-- A transaction on the chain: whether it succeeded, its accounts, and their balances. -/
structure ChainTx where
  succeeded : Bool
  accounts : List String
  preBalances : List UInt64
  postBalances : List UInt64

/-- The transaction adds an amount to the balance of an account. -/
def ChainTx.Credits (tx : ChainTx) (account : String) (amount : ℕ) : Prop :=
  ∃ (i : ℕ) (pre post : UInt64), tx.accounts[i]? = some account ∧ tx.preBalances[i]? = some pre ∧
    tx.postBalances[i]? = some post ∧ amount = post.toNat - pre.toNat

def balancesJson (balances : List UInt64) : List Json := balances.map fun n => .integer n.toNat

/-- An answer of a correct RPC about a signature: none at all, that the transaction is not known, the
transaction without what it did, or all of it.  An account may be named by its text, or by an object
that holds it. -/
inductive Faithful (chain : String → Option ChainTx) (signature : String) : Option Json → Prop
  | unreachable : Faithful chain signature none
  | unknown {result : Json} (h : (result.get "result").all Json.isNull = true) :
      Faithful chain signature (some result)
  | noMeta {result txInfo : Json} (hresult : result.get "result" = some txInfo)
      (hmeta : txInfo.index "meta" = .null) : Faithful chain signature (some result)
  | reports {result txInfo : Json} {tx : ChainTx} (hresult : result.get "result" = some txInfo)
      (htx : chain signature = some tx)
      (herr : ((txInfo.index "meta").index "err").isNull = tx.succeeded)
      (hkeys : ∀ keys : List Json,
        (((txInfo.index "transaction").index "message").index "accountKeys").asArray = some keys →
          ∀ (i : ℕ) (k : String), keys[i]?.bind Json.asString = some k → tx.accounts[i]? = some k)
      (hpre : ((txInfo.index "meta").index "preBalances").asArray = some (balancesJson tx.preBalances))
      (hpost : ((txInfo.index "meta").index "postBalances").asArray
        = some (balancesJson tx.postBalances)) :
      Faithful chain signature (some result)

/-- An error of a transaction is missing, or an object. -/
def errorIsObject (answer : Option Json) : Bool :=
  let err := ((answer.getD .null).index "result").index "meta" |>.index "err"
  err.isNull || err.isObject

/-- The signature that a proof names. -/
def proofSignature (paymentProof : String) : String :=
  let proof := Text.trim paymentProof.toList
  match "Tx: ".toList.isPrefixOf? proof with
  | some sig => String.ofList (Text.trim sig)
  | none => String.ofList proof

section

variable {m : Server} {chain : String → Option ChainTx} {signature : String} {answer : Option Json}

theorem of_getElem?_balancesJson {balances : List UInt64} {i : ℕ} {v : Json}
    (h : (balancesJson balances)[i]? = some v) :
    ∃ n : UInt64, balances[i]? = some n ∧ v.asU64.getD 0 = n.toNat := by
  rw [balancesJson, List.getElem?_map] at h
  obtain ⟨n, hn, rfl⟩ := Option.map_eq_some_iff.mp h
  refine ⟨n, hn, ?_⟩
  have hlt := n.toNat_lt
  rw [Json.asU64, if_pos (by omega), Option.getD_some]
  omega

theorem credited_of_verifyOnChainTx {expected : UInt64} {received : ℕ}
    (hfaithful : Faithful chain signature answer) (herror : errorIsObject answer = true)
    (h : m.verifyOnChainTx expected answer = .ok received) :
    expected.toNat ≤ received ∧
      ∃ tx, chain signature = some tx ∧ tx.succeeded = true ∧ tx.Credits m.merchantWallet received := by
  simp only [Server.verifyOnChainTx, bind_eq_ok, orErr_eq_ok, require_eq_ok, exists_const] at h
  obtain ⟨result, hanswer, txInfo, htxInfo, hnoObject, keys, hkeys, pres, hpres, posts, hposts, idx, hidx,
    pre, hpre, post, hpost, hle, h⟩ := h
  obtain rfl := Except.ok.inj h
  refine ⟨hle, ?_⟩
  obtain ⟨hget, hnotNull⟩ := Option.filter_eq_some_iff.mp htxInfo
  subst hanswer
  cases hfaithful with
  | unknown hnull =>
    rw [hget, Option.all_some] at hnull
    rw [hnull] at hnotNull
    exact absurd hnotNull (by decide)
  | noMeta hresult hmeta =>
    obtain rfl := Option.some.inj (hget.symm.trans hresult)
    rw [hmeta] at hpres
    cases hpres
  | reports hresult htx herr hkeys' hpres' hposts' =>
    obtain rfl := Option.some.inj (hget.symm.trans hresult)
    refine ⟨_, htx, ?_, ?_⟩
    · -- The error is no object, so there is none.
      have hindex : result.index "result" = txInfo := by rw [Json.index, hget, Option.getD_some]
      rw [errorIsObject, Option.getD_some, hindex, hnoObject, Bool.or_false] at herror
      rw [← herr, herror]
    · obtain rfl := Option.some.inj (hpres.symm.trans hpres')
      obtain rfl := Option.some.inj (hposts.symm.trans hposts')
      obtain ⟨preBalance, hpreBalance, hpreValue⟩ := of_getElem?_balancesJson hpre
      obtain ⟨postBalance, hpostBalance, hpostValue⟩ := of_getElem?_balancesJson hpost
      obtain ⟨hlt, hkey, -⟩ := List.findIdx?_eq_some_iff_getElem.mp hidx
      refine ⟨idx, preBalance, postBalance, ?_, hpreBalance, hpostBalance, by
        rw [hpreValue, hpostValue]⟩
      refine hkeys' keys hkeys idx _ ?_
      rw [List.getElem?_eq_getElem hlt, Option.bind_some]
      simpa using hkey

/-! ### What backs a payment -/

/-- The signature of a voucher is one of the buyer of its channel. -/
def Server.Signed (m : Server) (v : ProvenVoucher) : Prop :=
  ∃ buyer sig, (decodeBase58 v.signature).bind (exactly 64) = some sig ∧
    v.channelId = m.channelPda buyer ∧
    m.verifySignature buyer (m.voucherHash v.channelId v.seq v.amount) sig = true

/-- A payment is real: a transaction on the chain that succeeded and credited the wallet with what was
received, or a voucher that a buyer has signed for a channel with this merchant. -/
def Real (m : Server) (chain : String → Option ChainTx) : Payment → Prop
  | .transaction signature received =>
    ∃ tx, chain signature = some tx ∧ tx.succeeded = true ∧ tx.Credits m.merchantWallet received
  | .voucher v => m.Signed v

theorem real_of_receivedVoucher {input : MbReceiveVoucherInput} {v : CollectedVoucher}
    (h : m.receivedVoucher input = .ok v) : Real m chain (.voucher (receivedProof input v)) := by
  obtain ⟨-, hsig, hchannel, -, -, hverified⟩ := m.receivedVoucher_eq_ok.mp h
  exact ⟨v.buyer, v.buyerSig, hsig, hchannel, hverified⟩

/-- A proof by voucher. -/
def isVoucherProof (paymentProof : String) : Bool :=
  let proof := Text.trim paymentProof.toList
  ("Tx: ".toList.isPrefixOf? proof).isNone && "Voucher payment.".toList.isPrefixOf proof

/-- The signature that a proof by voucher gives is one of the buyer of the channel that it names. -/
def SignedProof (m : Server) (paymentProof : String) : Prop :=
  let f := proofFields (String.ofList (Text.trim paymentProof.toList))
  ∀ channelId amount, parsePubkey f.channel = some channelId → f.amount = some amount →
    m.Signed ⟨f.channel, channelId, f.seq.getD 0, amount, f.signature⟩

theorem signed_of_verifyVoucherProof {paymentProof : String} {order : PaymentOrder} {v : ProvenVoucher}
    (hsigned : SignedProof m paymentProof)
    (h : m.verifyVoucherProof (String.ofList (Text.trim paymentProof.toList)) order = .ok v) :
    m.Signed v := by
  simp only [Server.verifyVoucherProof, bind_eq_ok, orErr_eq_ok, require_eq_ok, exists_const] at h
  obtain ⟨amount, hamount, -, channelId, hchannel, -, -, h⟩ := h
  obtain rfl := Except.ok.inj h
  exact hsigned channelId amount hchannel hamount

theorem real_of_verifyPayment {paymentProof : String} {order : PaymentOrder} {payment : Payment}
    (hfaithful : Faithful chain (proofSignature paymentProof) answer)
    (hvoucher : isVoucherProof paymentProof = true → SignedProof m paymentProof)
    (htx : isVoucherProof paymentProof = false → errorIsObject answer = true)
    (h : m.verifyPayment paymentProof answer order = .ok payment) : Real m chain payment := by
  simp only [Server.verifyPayment, bind_eq_ok, require_eq_ok, exists_const] at h
  obtain ⟨-, h⟩ := h
  rw [proofSignature] at hfaithful
  rw [isVoucherProof] at hvoucher htx
  rcases hsig : "Tx: ".toList.isPrefixOf? (Text.trim paymentProof.toList) with _ | sig
  · rw [hsig] at h hfaithful hvoucher htx
    dsimp only at h hfaithful hvoucher htx
    split at h
    · next hprefixed =>
      split at h
      · exact nomatch h
      · next v hv =>
        obtain rfl := Except.ok.inj h
        exact signed_of_verifyVoucherProof (hvoucher (by rw [hprefixed]; rfl)) hv
    · next hprefixed =>
      obtain ⟨received, hreceived, h⟩ := bind_eq_ok.mp h
      obtain rfl := Except.ok.inj h
      exact (credited_of_verifyOnChainTx hfaithful
        (htx (by rw [Bool.eq_false_iff.mpr hprefixed]; rfl)) hreceived).2
  · rw [hsig] at h hfaithful htx
    obtain ⟨received, hreceived, h⟩ := bind_eq_ok.mp h
    obtain rfl := Except.ok.inj h
    exact (credited_of_verifyOnChainTx hfaithful (htx rfl) hreceived).2

/-- Every order that is confirmed was confirmed with a real payment of at least its amount, and no
payment confirmed two orders. -/
structure Backed (m : Server) (chain : String → Option ChainTx) (shop : Shop) : Prop where
  orders : ∀ orderId order, shop.orders.lookup orderId = some order → order.status = .confirmed →
    ∃ c ∈ shop.confirmations, c.orderId = orderId ∧ c.amount = order.amount
  confirmations : ∀ c ∈ shop.confirmations, Real m chain c.payment ∧ c.amount.toNat ≤ c.payment.paid
  once : ∀ c ∈ shop.confirmations, ∀ c' ∈ shop.confirmations, c.payment.key = c'.payment.key →
    c.orderId = c'.orderId

theorem Backed.empty : Backed m chain .empty where
  orders := fun _ _ h => nomatch h
  confirmations := fun _ h => nomatch h
  once := fun _ h => nomatch h

/-! ### The accesses that keep this -/

/-- Whether an access keeps orders backed.  A proof by voucher must be signed, and a transaction must
not have failed with an error that is no object; the order that is to be confirmed has at most the
amount that was paid; and the payment has confirmed no other order. -/
def meets (m : Server) (s : System Shop Task) (t : Turn) : Prop :=
  t.access = .fails ∨
    match s.tasks t.task with
    | .asks (.verifyPayment input answer) =>
      (isVoucherProof input.paymentProof = true → SignedProof m input.paymentProof) ∧
        (isVoucherProof input.paymentProof = false → errorIsObject answer = true)
    | .confirms orderId payment =>
      ∀ order, s.shared.orders.lookup orderId = some order → order.amount.toNat ≤ payment.paid
    | .writes order payment =>
      ∀ c ∈ s.shared.confirmations, c.payment.key = payment.key → c.orderId = order.orderId
    | _ => True

/-- What is known of a task. -/
def Credible (m : Server) (chain : String → Option ChainTx) : Task → Prop
  | .asks (.verifyPayment input answer) => Faithful chain (proofSignature input.paymentProof) answer
  | .confirms _ payment => Real m chain payment
  | .writes order payment => Real m chain payment ∧ order.amount.toNat ≤ payment.paid
  | _ => True

variable {s s' : System Shop Task} {t : Turn} {shop : Shop} {task : Task}

theorem credible_next (hcredible : Credible m chain (s.tasks t.task)) (hmeets : meets m s t)
    (haccess : t.access ≠ .fails) :
    Credible m chain (next m t.access t.now (s.tasks t.task) s.shared).1 := by
  have hmeets := hmeets.resolve_left haccess
  rcases hnext : (next m t.access t.now (s.tasks t.task) s.shared).1 with r | ⟨orderId, payment⟩ |
    ⟨order, payment⟩ | _
  · exact absurd hnext next_ne_asks
  · rcases confirms_of_next hnext with ⟨input, answer, order, htask, -, -, hverified⟩ |
      ⟨input, v, -, -, hv, rfl⟩
    · rw [htask] at hcredible hmeets
      exact real_of_verifyPayment hcredible hmeets.1 hmeets.2 hverified
    · exact (real_of_receivedVoucher hv : Real m chain _)
  · obtain ⟨orderId, old, htask, hold, rfl⟩ := writes_of_next hnext
    rw [htask] at hcredible hmeets
    exact ⟨hcredible, by rw [confirmedWith_amount]; exact hmeets old hold⟩
  · trivial

theorem Backed.opens {order : PaymentOrder} (hbacked : Backed m chain shop)
    (hpending : order.status = .pending) :
    Backed m chain { shop with orders := shop.orders.saveOrder order } where
  orders := by
    intro orderId order' hlookup hstatus
    by_cases hid : orderId = order.orderId
    · subst hid
      obtain rfl : order = order' := Option.some.inj ((AList.lookup_insert _).symm.trans hlookup)
      rw [hpending] at hstatus
      exact absurd hstatus (by decide)
    · exact hbacked.orders orderId order' ((AList.lookup_insert_ne hid).symm.trans hlookup) hstatus
  confirmations := hbacked.confirmations
  once := hbacked.once

theorem Backed.confirms {order : PaymentOrder} {payment : Payment} (hbacked : Backed m chain shop)
    (hreal : Real m chain payment) (hpaid : order.amount.toNat ≤ payment.paid)
    (hunused : ∀ c ∈ shop.confirmations, c.payment.key = payment.key → c.orderId = order.orderId) :
    Backed m chain { shop with
      orders := shop.orders.saveOrder order
      confirmations := ⟨order.orderId, order.amount, payment⟩ :: shop.confirmations } where
  orders := by
    intro orderId order' hlookup hstatus
    by_cases hid : orderId = order.orderId
    · subst hid
      obtain rfl : order = order' := Option.some.inj ((AList.lookup_insert _).symm.trans hlookup)
      exact ⟨_, List.mem_cons_self, rfl, rfl⟩
    · obtain ⟨c, hc, hrest⟩ :=
        hbacked.orders orderId order' ((AList.lookup_insert_ne hid).symm.trans hlookup) hstatus
      exact ⟨c, List.mem_cons_of_mem _ hc, hrest⟩
  confirmations := by
    intro c hc
    rcases List.mem_cons.mp hc with rfl | hc
    · exact ⟨hreal, hpaid⟩
    · exact hbacked.confirmations c hc
  once := by
    intro c hc c' hc' hkey
    rcases List.mem_cons.mp hc with rfl | hc
    · rcases List.mem_cons.mp hc' with rfl | hc'
      · rfl
      · exact (hunused c' hc' hkey.symm).symm
    · rcases List.mem_cons.mp hc' with rfl | hc'
      · exact hunused c hc hkey
      · exact hbacked.once c hc c' hc' hkey

theorem backed_serve (hbacked : Backed m chain s.shared) (hcredible : Credible m chain (s.tasks t.task))
    (hmeets : meets m s t) (hserve : serve m t s = .ok s') : Backed m chain s'.shared := by
  have hshared : s'.shared = (next m t.access t.now (s.tasks t.task) s.shared).2 := by
    rw [serve_eq_ok.mp hserve]
  rw [hshared]
  by_cases haccess : t.access = .fails
  · rw [haccess, next_of_fails]
    exact hbacked
  · replace hmeets := hmeets.resolve_left haccess
    have heffect := @next_effect m t.access t.now (s.tasks t.task) s.shared haccess
    generalize (next m t.access t.now (s.tasks t.task) s.shared).2 = shop' at heffect
    revert hmeets hcredible
    generalize s.tasks t.task = task at heffect
    intro hcredible hmeets
    cases heffect with
    | nothing _ _ horders hconfirmations =>
      exact
        { orders := by rw [horders, hconfirmations]; exact hbacked.orders
          confirmations := by rw [hconfirmations]; exact hbacked.confirmations
          once := by rw [hconfirmations]; exact hbacked.once }
    | opens hopens => exact hbacked.opens hopens.pending
    | confirms order payment => exact hbacked.confirms hcredible.1 hcredible.2 hmeets

variable {requests : ℕ → Request} {h : List (System Shop Task × Turn)}

end

namespace Sample

def transfer : ChainTx where
  succeeded := true
  accounts := ["payer", "wallet"]
  preBalances := [100, 7]
  postBalances := [90, 17]

def chain (signature : String) : Option ChainTx := if signature = "sig" then some transfer else none

/-- The answer about it, with the accounts as objects. -/
def transferAnswer : Json :=
  .object [("result", .object
    [("meta", .object [("err", .null), ("preBalances", .array (balancesJson [100, 7])),
        ("postBalances", .array (balancesJson [90, 17]))]),
      ("transaction", .object [("message", .object [("accountKeys",
        .array [.object [("pubkey", .string "payer")], .object [("pubkey", .string "wallet")]])])])])]

/-- Two orders of 5: one is paid by a voucher, and a transaction is shown for the other. -/
def paying : ℕ → Request
  | 0 => openOrder "order" 5
  | 1 => receive 1 "order"
  | 2 => openOrder "second" 5
  | _ => .verifyPayment ⟨"second", "Tx: sig"⟩ (some transferAnswer)

theorem faithful : Faithful chain (proofSignature "Tx: sig") (some transferAnswer) := by
  have hsignature : proofSignature "Tx: sig" = "sig" := by decide
  rw [hsignature]
  refine @Faithful.reports chain "sig" transferAnswer _ transfer rfl rfl rfl ?_ rfl rfl
  intro keys hkeys i k hk
  obtain rfl := Option.some.inj hkeys
  -- No account is named by its text.
  match i with
  | 0 => exact nomatch hk
  | 1 => exact nomatch hk
  | i + 2 => exact nomatch hk

/-- The condition on the accesses of these requests. -/
def quick (s : System Shop Task) (t : Turn) : Bool :=
  match s.tasks t.task with
  | .asks (.verifyPayment input answer) => !isVoucherProof input.paymentProof && errorIsObject answer
  | .confirms orderId payment =>
    (s.shared.orders.lookup orderId).all fun order => decide (order.amount.toNat ≤ payment.paid)
  | .writes order payment => s.shared.confirmations.all fun c =>
      decide (c.payment.key ≠ payment.key) || decide (c.orderId = order.orderId)
  | _ => true

theorem meets_of_quick {s : System Shop Task} {t : Turn} (h : quick s t = true) :
    meets server s t := by
  refine .inr ?_
  rw [quick] at h
  split at h
  · next htask =>
    obtain ⟨hvoucher, herror⟩ := Bool.and_eq_true_iff.mp h
    refine ⟨fun h => ?_, fun _ => herror⟩
    rw [h] at hvoucher
    exact absurd hvoucher (by decide)
  · next htask =>
    intro order horder
    rw [horder] at h
    exact of_decide_eq_true h
  · next htask =>
    intro c hc hkey
    rcases Bool.or_eq_true_iff.mp (List.all_eq_true.mp h c hc) with hne | hid
    · exact absurd hkey (of_decide_eq_true hne)
    · exact of_decide_eq_true hid
  · trivial

end Sample

/-- An order of 7 that a voucher of 5 confirms. -/
def Sample.underpaying : ℕ → Request
  | 0 => Sample.openOrder "order" 7
  | _ => Sample.receive 1 "order"

end Merchant
