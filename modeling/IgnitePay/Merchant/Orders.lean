/-
Orders and how they are confirmed (`src/main.rs`, `src/payment.rs`).

A request runs up to its next access to the store, and any number of them run at a time.  Checking a
payment reads the order; confirming it reads the order again, and writes it back as a whole.

* `next_effect` — what one access does to the orders: nothing, a new order, or a confirmation;
* `confirms_of_next`, `writes_of_next` — where a confirmation comes from.
-/
import IgnitePay.Lib.Json
import IgnitePay.Lib.Tasks
import IgnitePay.Merchant.State

namespace Merchant

open Bytes Machine Solana
open Agent (decodeBase58 encodeBase58 exactly parsePubkey)

/-! ### New orders -/

structure GeneratePaymentQrInput where
  amount : UInt64
  description : String
  orderId : Option String

structure CreateOrderInput where
  productId : Option String
  amount : Option UInt64
  description : Option String

inductive OrderError
  | productNotFound (productId : String)
  | noAmount
deriving DecidableEq

def Server.newOrder (m : Server) (orderId : String) (amount : UInt64) (description : String) (now : ℤ) :
    PaymentOrder where
  orderId := orderId
  merchantDid := m.did
  amount := amount
  description := description
  hubEndpoint := encodeBase58 m.keypair.pubkey.val
  status := .pending
  createdAt := now
  confirmedAt := none
  channelId := none
  leafIndex := none
  sequence := none

/-- The order of `generate_payment_qr`: its id may come from the caller. -/
def Server.generatePaymentQr (m : Server) (input : GeneratePaymentQrInput) (uuid : String) (now : ℤ) :
    PaymentOrder :=
  m.newOrder (input.orderId.getD uuid) input.amount input.description now

/-- Amount and description: those of a product, or the caller's. -/
def Server.orderTerms (m : Server) (input : CreateOrderInput) :
    Except OrderError (UInt64 × Option String) :=
  match input.productId with
  | some pid => do
    let product ← orErr (m.products.find? fun p => p.id = pid) (.productNotFound pid)
    pure (product.price, some (input.description.getD product.name))
  | none => do
    let amount ← orErr input.amount .noAmount
    pure (amount, input.description)

/-- The order of `create_order`. -/
def Server.createOrder (m : Server) (input : CreateOrderInput) (uuid : String) (now : ℤ) :
    Except OrderError PaymentOrder := do
  let terms ← m.orderTerms input
  pure (m.newOrder uuid terms.1 (terms.2.getD "x402 payment") now)

/-! ### Payments -/

/-- What an order is confirmed with: a transaction, with what the wallet received by it, or a voucher. -/
inductive Payment
  | transaction (signature : String) (received : ℕ)
  | voucher (v : ProvenVoucher)
deriving DecidableEq

/-- A transaction is known by its signature, a voucher by its channel and number. -/
def Payment.key : Payment → String ⊕ (Pubkey × UInt64)
  | .transaction signature _ => .inl signature
  | .voucher v => .inr (v.channelId, v.seq)

/-- How much was paid. -/
def Payment.paid : Payment → ℕ
  | .transaction _ received => received
  | .voucher v => v.amount.toNat

inductive PaymentError
  | notPending (status : OrderStatus)
  | rpc
  | notFound
  | failed
  | noAccountKeys
  | noPreBalances
  | noPostBalances
  | walletNotFound
  | panic
  | amountMismatch (expected : UInt64) (received : ℕ)
  | voucher (e : ProofError)
deriving DecidableEq

section

variable (m : Server)

/-- The checks of `verify_on_chain_tx` on the answer of the RPC, and what the wallet received. -/
def Server.verifyOnChainTx (expectedAmount : UInt64) (answer : Option Json) :
    Except PaymentError ℕ := do
  let result ← orErr answer .rpc
  let txInfo ← orErr ((result.get "result").filter fun v => !v.isNull) .notFound
  -- An error that is not an object passes.
  require (((txInfo.index "meta").index "err").isObject = false) .failed
  let accountKeys ← orErr (((txInfo.index "transaction").index "message").index "accountKeys").asArray
    .noAccountKeys
  let walletIdx := accountKeys.findIdx? fun k => k.asString == some m.merchantWallet
  let preBalances ← orErr ((txInfo.index "meta").index "preBalances").asArray .noPreBalances
  let postBalances ← orErr ((txInfo.index "meta").index "postBalances").asArray .noPostBalances
  let idx ← orErr walletIdx .walletNotFound
  let pre ← orErr preBalances[idx]? .panic
  let post ← orErr postBalances[idx]? .panic
  let received := post.asU64.getD 0 - pre.asU64.getD 0
  require (expectedAmount.toNat ≤ received) (.amountMismatch expectedAmount received)
  pure received

/-- What `verify_payment` checks of an order that it has read. -/
def Server.verifyPayment (paymentProof : String) (answer : Option Json) (order : PaymentOrder) :
    Except PaymentError Payment := do
  require (order.status = .pending) (.notPending order.status)
  let proof := Text.trim paymentProof.toList
  match "Tx: ".toList.isPrefixOf? proof with
  | some sig =>
    let received ← m.verifyOnChainTx order.amount answer
    pure (.transaction (String.ofList (Text.trim sig)) received)
  | none =>
    if "Voucher payment.".toList.isPrefixOf proof then
      match m.verifyVoucherProof (String.ofList proof) order with
      | .error e => .error (.voucher e)
      | .ok v => pure (.voucher v)
    else
      let received ← m.verifyOnChainTx order.amount answer
      pure (.transaction (String.ofList proof) received)

end

/-- What `update_status` and `confirm_order` make of the order that they have read. -/
def PaymentOrder.confirmedWith (order : PaymentOrder) (now : ℤ) : Payment → PaymentOrder
  | .transaction _ _ => { order with status := .confirmed, confirmedAt := some now }
  | .voucher v =>
    { order with
      status := .confirmed
      confirmedAt := some now
      channelId := some v.channel
      leafIndex := some 0
      sequence := some v.seq }

/-! ### Requests -/

structure VerifyPaymentInput where
  orderId : String
  paymentProof : String

/-- A request, with the id that is drawn for it, or what the RPC answers to it. -/
inductive Request
  | createOrder (input : CreateOrderInput) (uuid : String)
  | generatePaymentQr (input : GeneratePaymentQrInput) (uuid : String)
  | verifyPayment (input : VerifyPaymentInput) (answer : Option Json)
  | mbReceiveVoucher (input : MbReceiveVoucherInput)

/-- A request before an access to the store: its first; the order is to be read that it confirms; or
this order is to be written back. -/
inductive Task
  | asks (r : Request)
  | confirms (orderId : String) (payment : Payment)
  | writes (order : PaymentOrder) (payment : Payment)
  | done

structure Confirmation where
  orderId : String
  amount : UInt64
  payment : Payment
deriving DecidableEq

/-- What is stored, and the confirmations that were written so far, the latest first. -/
structure Shop where
  orders : PaymentOrderStore
  vouchers : MerchantVoucherStore
  confirmations : List Confirmation

def Shop.empty : Shop := ⟨∅, ∅, []⟩

/-- Whether an access goes through.  What is written may fail to be flushed. -/
inductive Access
  | fails
  | unflushed
  | succeeds
deriving DecidableEq

def Shop.save (shop : Shop) (access : Access) (order : PaymentOrder) : Shop :=
  if access = .fails then shop else { shop with orders := shop.orders.saveOrder order }

section

variable (m : Server) (access : Access) (now : ℤ)

/-- The voucher with which `mb_receive_voucher` confirms an order. -/
def receivedProof (input : MbReceiveVoucherInput) (v : CollectedVoucher) : ProvenVoucher where
  channel := encodeBase58 v.channelId.val
  channelId := v.channelId
  seq := v.seq
  amount := v.amount
  signature := input.buyerSig

/-- A request up to its first access to the store. -/
def ask : Request → Shop → Task × Shop
  | .createOrder input uuid, shop =>
    match m.createOrder input uuid now with
    | .error _ => (.done, shop)
    | .ok order => (.done, shop.save access order)
  | .generatePaymentQr input uuid, shop =>
    (.done, shop.save access (m.generatePaymentQr input uuid now))
  | .verifyPayment input answer, shop =>
    if access = .fails then (.done, shop)
    else match shop.orders.lookup input.orderId with
      | none => (.done, shop)
      | some order =>
        match m.verifyPayment input.paymentProof answer order with
        | .error _ => (.done, shop)
        | .ok payment => (.confirms input.orderId payment, shop)
  | .mbReceiveVoucher input, shop =>
    match m.receivedVoucher input with
    | .error _ => (.done, shop)
    | .ok v =>
      if access = .fails then (.done, shop)
      else
        let shop := { shop with vouchers := shop.vouchers.storeVoucher v }
        match access, input.orderId with
        | .succeeds, some orderId => (.confirms orderId (.voucher (receivedProof input v)), shop)
        | _, _ => (.done, shop)

/-- A task up to its next access. -/
def next : Task → Shop → Task × Shop
  | .asks r, shop => ask m access now r shop
  | .confirms orderId payment, shop =>
    if access = .fails then (.done, shop)
    else match shop.orders.lookup orderId with
      | none => (.done, shop)
      | some order => (.writes (order.confirmedWith now payment) payment, shop)
  | .writes order payment, shop =>
    if access = .fails then (.done, shop)
    else (.done,
      { shop.save access order with
        confirmations := ⟨order.orderId, order.amount, payment⟩ :: shop.confirmations })
  | .done, shop => (.done, shop)

end

/-- The next access of a task. -/
structure Turn where
  task : ℕ
  access : Access
  now : ℤ
deriving DecidableEq

def serve (m : Server) (t : Turn) (s : System Shop Task) : Except Empty (System Shop Task) :=
  System.turn (fun task shop => .ok (next m t.access t.now task shop)) t.task s

/-- Before any of the requests. -/
def opening (requests : ℕ → Request) : System Shop Task := ⟨.empty, fun i => .asks (requests i)⟩

/-! ### What an access does -/

/-- The new order that a request writes. -/
inductive Opens (m : Server) (now : ℤ) : Request → PaymentOrder → Prop
  | generated (input : GeneratePaymentQrInput) (uuid : String) :
      Opens m now (.generatePaymentQr input uuid) (m.generatePaymentQr input uuid now)
  | created {input : CreateOrderInput} {uuid : String} {order : PaymentOrder}
      (h : m.createOrder input uuid now = .ok order) : Opens m now (.createOrder input uuid) order

/-- What an access that goes through does to the orders: nothing; a new order is written; or an order
is confirmed. -/
inductive Effect (m : Server) (now : ℤ) (shop : Shop) : Task → Shop → Prop
  | nothing {task : Task} {shop' : Shop} (hopens : ∀ r order, task = .asks r → ¬ Opens m now r order)
      (hwrites : ∀ order payment, task ≠ .writes order payment) (horders : shop'.orders = shop.orders)
      (hconfirmations : shop'.confirmations = shop.confirmations) : Effect m now shop task shop'
  | opens {r : Request} {order : PaymentOrder} (hopens : Opens m now r order) :
      Effect m now shop (.asks r) { shop with orders := shop.orders.saveOrder order }
  | confirms (order : PaymentOrder) (payment : Payment) :
      Effect m now shop (.writes order payment)
        { shop with
          orders := shop.orders.saveOrder order
          confirmations := ⟨order.orderId, order.amount, payment⟩ :: shop.confirmations }

section

variable {m : Server} {access : Access} {now : ℤ} {r : Request} {task : Task} {shop : Shop}
  {order : PaymentOrder} {payment : Payment}

theorem Opens.pending (h : Opens m now r order) : order.status = .pending := by
  cases h with
  | generated input uuid => rfl
  | created h =>
    simp only [Server.createOrder, bind_eq_ok] at h
    obtain ⟨terms, -, h⟩ := h
    obtain rfl := Except.ok.inj h
    rfl

theorem Opens.eq {order' : PaymentOrder} (h : Opens m now r order) (h' : Opens m now r order') :
    order = order' := by
  cases h with
  | generated input uuid =>
    cases h'
    rfl
  | created h =>
    cases h' with
    | created h' => exact Except.ok.inj (h.symm.trans h')

theorem confirmedWith_status : (order.confirmedWith now payment).status = .confirmed := by
  cases payment <;> rfl

theorem confirmedWith_orderId : (order.confirmedWith now payment).orderId = order.orderId := by
  cases payment <;> rfl

theorem confirmedWith_amount : (order.confirmedWith now payment).amount = order.amount := by
  cases payment <;> rfl

/-- An access that fails changes nothing, and ends the request. -/
theorem next_of_fails : next m .fails now task shop = (.done, shop) := by
  cases task with
  | asks r =>
    cases r with
    | createOrder input uuid =>
      rw [next, ask]
      split <;> rfl
    | generatePaymentQr input uuid => rfl
    | verifyPayment input answer => rfl
    | mbReceiveVoucher input =>
      rw [next, ask]
      split <;> rfl
  | confirms orderId payment => rfl
  | writes order payment => rfl
  | done => rfl

theorem save_of_ne_fails (haccess : access ≠ .fails) :
    shop.save access order = { shop with orders := shop.orders.saveOrder order } := if_neg haccess

theorem next_effect (haccess : access ≠ .fails) :
    Effect m now shop task (next m access now task shop).2 := by
  cases task with
  | asks r =>
    cases r with
    | createOrder input uuid =>
      rw [next, ask]
      rcases horder : m.createOrder input uuid now with e | order
      · refine .nothing (fun r order hr hopens => ?_) (fun _ _ h => nomatch h) rfl rfl
        obtain rfl := Task.asks.inj hr
        cases hopens with
        | created h => exact nomatch horder.symm.trans h
      · dsimp only
        rw [save_of_ne_fails haccess]
        exact .opens (.created horder)
    | generatePaymentQr input uuid =>
      rw [next, ask, save_of_ne_fails haccess]
      exact .opens (.generated input uuid)
    | verifyPayment input answer =>
      have hopens : ∀ r order, Task.asks (.verifyPayment input answer) = .asks r → ¬ Opens m now r order := by
        rintro r order hr hopens
        obtain rfl := Task.asks.inj hr
        cases hopens
      refine .nothing hopens (fun _ _ h => nomatch h) ?_ ?_
      all_goals
        rw [next, ask, if_neg haccess]
        split
        · rfl
        · split <;> rfl
    | mbReceiveVoucher input =>
      have hopens : ∀ r order, Task.asks (.mbReceiveVoucher input) = .asks r → ¬ Opens m now r order := by
        rintro r order hr hopens
        obtain rfl := Task.asks.inj hr
        cases hopens
      refine .nothing hopens (fun _ _ h => nomatch h) ?_ ?_
      all_goals
        rw [next, ask]
        split
        · rfl
        · rw [if_neg haccess]
          dsimp only
          split <;> rfl
  | confirms orderId payment =>
    refine .nothing (fun _ _ h => nomatch h) (fun _ _ h => nomatch h) ?_ ?_
    all_goals
      rw [next, if_neg haccess]
      split <;> rfl
  | writes order payment =>
    rw [next, if_neg haccess, save_of_ne_fails haccess]
    exact .confirms order payment
  | done =>
    exact .nothing (fun _ _ h => nomatch h) (fun _ _ h => nomatch h) rfl rfl

/-! ### What a task may become -/

theorem next_ne_asks : (next m access now task shop).1 ≠ .asks r := by
  intro h
  cases task with
  | asks r' =>
    cases r' with
    | createOrder input uuid =>
      rw [next, ask] at h
      split at h <;> exact nomatch h
    | generatePaymentQr input uuid => exact nomatch h
    | verifyPayment input answer =>
      rw [next, ask] at h
      split at h
      · exact nomatch h
      · split at h
        · exact nomatch h
        · split at h <;> exact nomatch h
    | mbReceiveVoucher input =>
      rw [next, ask] at h
      split at h
      · exact nomatch h
      · split at h
        · exact nomatch h
        · dsimp only at h
          split at h <;> exact nomatch h
  | confirms orderId payment =>
    rw [next] at h
    split at h
    · exact nomatch h
    · split at h <;> exact nomatch h
  | writes order payment =>
    rw [next] at h
    split at h <;> exact nomatch h
  | done => exact nomatch h

/-- An order is to be confirmed with what a request has shown. -/
theorem confirms_of_next {orderId : String} (h : (next m access now task shop).1 = .confirms orderId payment) :
    (∃ input answer order, task = .asks (.verifyPayment input answer) ∧ input.orderId = orderId ∧
      shop.orders.lookup orderId = some order ∧
      m.verifyPayment input.paymentProof answer order = .ok payment) ∨
    ∃ input v, task = .asks (.mbReceiveVoucher input) ∧ input.orderId = some orderId ∧
      m.receivedVoucher input = .ok v ∧ payment = .voucher (receivedProof input v) := by
  cases task with
  | asks r =>
    cases r with
    | createOrder input uuid =>
      rw [next, ask] at h
      split at h <;> exact nomatch h
    | generatePaymentQr input uuid => exact nomatch h
    | verifyPayment input answer =>
      rw [next, ask] at h
      split at h
      · exact nomatch h
      · split at h
        · exact nomatch h
        · next order horder =>
          split at h
          · exact nomatch h
          · next payment' hpayment =>
            obtain ⟨rfl, rfl⟩ := Task.confirms.inj h
            exact .inl ⟨input, answer, order, rfl, rfl, horder, hpayment⟩
    | mbReceiveVoucher input =>
      rw [next, ask] at h
      split at h
      · exact nomatch h
      · next v hv =>
        split at h
        · exact nomatch h
        · dsimp only at h
          split at h
          · next orderId' horderId _ =>
            obtain ⟨rfl, rfl⟩ := Task.confirms.inj h
            exact .inr ⟨input, v, rfl, horderId, hv, rfl⟩
          · exact nomatch h
  | confirms orderId' payment' =>
    rw [next] at h
    split at h
    · exact nomatch h
    · split at h <;> exact nomatch h
  | writes order payment' =>
    rw [next] at h
    split at h <;> exact nomatch h
  | done => exact nomatch h

/-- An order is written back as it was read, but confirmed. -/
theorem writes_of_next (h : (next m access now task shop).1 = .writes order payment) :
    ∃ orderId old, task = .confirms orderId payment ∧ shop.orders.lookup orderId = some old ∧
      order = old.confirmedWith now payment := by
  cases task with
  | asks r =>
    cases r with
    | createOrder input uuid =>
      rw [next, ask] at h
      split at h <;> exact nomatch h
    | generatePaymentQr input uuid => exact nomatch h
    | verifyPayment input answer =>
      rw [next, ask] at h
      split at h
      · exact nomatch h
      · split at h
        · exact nomatch h
        · split at h <;> exact nomatch h
    | mbReceiveVoucher input =>
      rw [next, ask] at h
      split at h
      · exact nomatch h
      · split at h
        · exact nomatch h
        · dsimp only at h
          split at h <;> exact nomatch h
  | confirms orderId payment' =>
    rw [next] at h
    split at h
    · exact nomatch h
    · split at h
      · exact nomatch h
      · next old hold =>
        obtain ⟨rfl, rfl⟩ := Task.writes.inj h
        exact ⟨orderId, old, rfl, hold, rfl⟩
  | writes order' payment' =>
    rw [next] at h
    split at h <;> exact nomatch h
  | done => exact nomatch h

end

theorem serve_eq_ok {m : Server} {t : Turn} {s s' : System Shop Task} : serve m t s = .ok s' ↔
    s' = ⟨(next m t.access t.now (s.tasks t.task) s.shared).2,
      Function.update s.tasks t.task (next m t.access t.now (s.tasks t.task) s.shared).1⟩ := by
  rw [serve, System.turn_eq_ok]
  constructor
  · rintro ⟨task, shop, hnext, rfl⟩
    rw [Except.ok.inj hnext]
  · rintro rfl
    exact ⟨_, _, rfl, rfl⟩

end Merchant
