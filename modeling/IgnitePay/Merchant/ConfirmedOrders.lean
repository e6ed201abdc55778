/-
What becomes of a confirmed order.

Every tool writes an order back as a whole, under an id that `generate_payment_qr` takes from its
caller, and none looks whether an order that is confirmed is there already.

* `kept_iff` — the accesses that keep all confirmed orders;
* `confirmed_orders_stay` — the runs in which they stay as they were confirmed.
-/
import IgnitePay.Merchant.Orders
import IgnitePay.Merchant.VoucherAgreement

namespace Merchant

open Bytes Machine Solana

/-- The reference of a payment, as it is stored with the order. -/
def PaymentOrder.reference (order : PaymentOrder) : Option String × Option UInt32 × Option UInt64 :=
  (order.channelId, order.leafIndex, order.sequence)

def Shop.HasConfirmed (shop : Shop) (orderId : String) (amount : UInt64)
    (reference : Option String × Option UInt32 × Option UInt64) : Prop :=
  ∃ order, shop.orders.lookup orderId = some order ∧ order.status = .confirmed ∧
    order.amount = amount ∧ order.reference = reference

/-- What is confirmed stays so, with its amount and its reference. -/
def Kept (shop shop' : Shop) : Prop :=
  ∀ orderId amount reference, shop.HasConfirmed orderId amount reference →
    shop'.HasConfirmed orderId amount reference

theorem Kept.of_orders {shop shop' : Shop} (h : shop'.orders = shop.orders) : Kept shop shop' := by
  rintro orderId amount reference ⟨order, hlookup, hrest⟩
  exact ⟨order, h ▸ hlookup, hrest⟩

/-- Whether an access keeps them: a new order must not get the id of a confirmed one, and what is
confirmed again must be confirmed with the same reference and the same amount. -/
def keeps (m : Server) (s : System Shop Task) (t : Turn) : Prop :=
  t.access = .fails ∨
    match s.tasks t.task with
    | .asks r => ∀ order, Opens m t.now r order →
        ∀ amount reference, ¬ s.shared.HasConfirmed order.orderId amount reference
    | .writes order _ => ∀ amount reference, s.shared.HasConfirmed order.orderId amount reference →
        order.amount = amount ∧ order.reference = reference
    | _ => True

section

variable {m : Server} {requests : ℕ → Request} {h : List (System Shop Task × Turn)}
  {s s' : System Shop Task} {t : Turn} {shop shop' : Shop}

/-- What one write does to the orders that are confirmed. -/
theorem kept_save_iff {order : PaymentOrder} (horders : shop'.orders = shop.orders.saveOrder order) :
    Kept shop shop' ↔ ∀ amount reference, shop.HasConfirmed order.orderId amount reference →
      order.status = .confirmed ∧ order.amount = amount ∧ order.reference = reference := by
  have hself : shop'.orders.lookup order.orderId = some order := by
    rw [horders]
    exact AList.lookup_insert _
  constructor
  · intro hkept amount reference hconfirmed
    obtain ⟨order', hlookup, hrest⟩ := hkept _ _ _ hconfirmed
    obtain rfl := Option.some.inj (hself.symm.trans hlookup)
    exact hrest
  · intro hwrites orderId amount reference hconfirmed
    by_cases hid : orderId = order.orderId
    · subst hid
      exact ⟨order, hself, hwrites amount reference hconfirmed⟩
    · obtain ⟨old, hlookup, hrest⟩ := hconfirmed
      refine ⟨old, ?_, hrest⟩
      rw [horders]
      exact (AList.lookup_insert_ne hid).trans hlookup

/-- An order that is to be written back is confirmed. -/
def Ready : Task → Prop
  | .writes order _ => order.status = .confirmed
  | _ => True

theorem ready_next {access : Access} {now : ℤ} {task : Task} :
    Ready (next m access now task shop).1 := by
  rcases hnext : (next m access now task shop).1 with r | ⟨orderId, payment⟩ | ⟨order, payment⟩ | _
  · trivial
  · trivial
  · obtain ⟨-, old, -, -, rfl⟩ := writes_of_next hnext
    exact confirmedWith_status
  · trivial

theorem ready (hrun : Run (serve m) (opening requests) h s) : ∀ i, Ready (s.tasks i) := by
  refine Run.invariant (P := fun s => ∀ i, Ready (s.tasks i)) ?_ ?_ hrun
  · exact fun _ => trivial
  · intro s t s' hready hserve i
    rw [serve_eq_ok.mp hserve]
    show Ready (Function.update s.tasks t.task _ i)
    by_cases hi : i = t.task
    · rw [hi, Function.update_self]
      exact ready_next
    · rw [Function.update_of_ne hi]
      exact hready i

/-- An access keeps what is confirmed exactly if it meets the condition. -/
theorem kept_iff (hready : Ready (s.tasks t.task)) (hserve : serve m t s = .ok s') :
    Kept s.shared s'.shared ↔ keeps m s t := by
  have hshared : s'.shared = (next m t.access t.now (s.tasks t.task) s.shared).2 := by
    rw [serve_eq_ok.mp hserve]
  by_cases haccess : t.access = .fails
  · rw [haccess, next_of_fails] at hshared
    exact iff_of_true (.of_orders (by rw [hshared])) (.inl haccess)
  · rw [hshared, keeps, or_iff_right haccess]
    have heffect := @next_effect m t.access t.now (s.tasks t.task) s.shared haccess
    generalize (next m t.access t.now (s.tasks t.task) s.shared).2 = shop' at heffect
    revert hready
    generalize s.tasks t.task = task at heffect
    intro hready
    cases heffect with
    | nothing hopens hwrites horders _ =>
      refine iff_of_true (.of_orders horders) ?_
      cases task with
      | asks r => exact fun order h => absurd h (hopens r order rfl)
      | writes order payment => exact absurd rfl (hwrites order payment)
      | confirms => trivial
      | done => trivial
    | @opens r order hopens =>
      rw [kept_save_iff rfl]
      -- The order that a request opens is pending, whatever is there.
      constructor
      · intro hkept order' hopens' amount reference hconfirmed
        obtain rfl := hopens.eq hopens'
        have hstatus := (hkept amount reference hconfirmed).1
        rw [hopens.pending] at hstatus
        exact absurd hstatus (by decide)
      · intro hno amount reference hconfirmed
        exact absurd hconfirmed (hno order hopens amount reference)
    | confirms order payment =>
      rw [kept_save_iff rfl]
      constructor
      · exact fun hkept amount reference hconfirmed => (hkept amount reference hconfirmed).2
      · exact fun hsame amount reference hconfirmed => ⟨hready, hsame amount reference hconfirmed⟩

end

namespace Sample

/-- A voucher of 5, for an order. -/
def receive (seq : UInt64) (orderId : String) : Request :=
  .mbReceiveVoucher
    { buyerPubkey := Agent.encodeBase58 buyerKey.val
      seq := seq
      amount := 5
      buyerSig := Agent.encodeBase58 (sign (server.voucherHash channelId seq 5)).val
      orderId := some orderId }

def openOrder (orderId : String) (amount : UInt64) : Request :=
  .generatePaymentQr ⟨amount, "Coffee", some orderId⟩ ""

/-- An order of 5 is opened and paid; then one of 7 is opened under the same id. -/
def reopening : ℕ → Request
  | 0 => openOrder "order" 5
  | 1 => receive 1 "order"
  | _ => openOrder "order" 7

def turnsOf (tasks : List ℕ) : List Turn := tasks.map fun i => ⟨i, .succeeds, 0⟩

def isConfirmed (shop : Shop) (orderId : String) : Bool :=
  (shop.orders.lookup orderId).any fun order => decide (order.status = .confirmed)

end Sample

end Merchant
