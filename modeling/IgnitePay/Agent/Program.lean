/-
How the payer's agent pays (`ignite-pay-mcp/src/main.rs`).

Every x402 challenge and every scanned QR code is a task of its own.  A task is cut into sections: it
accesses at most one store in a section, and another task may run wherever it takes or releases the
payment mutex, accesses a store, or waits for the phone or the chain.  What it has read it keeps, and
that may be out of date when it is used.

What comes from outside in a section is an `Answer`: which accesses to a store go through, whether the
MagicBlock voucher is signed and the transaction confirmed, and what the phone says.

A challenge that is refused before the risk check has no task.
-/
import IgnitePay.Agent.State
import IgnitePay.Lib.Tasks

namespace Agent

open Machine Solana

/-- What the agent is configured with. -/
structure Server where
  autoApproveMax : UInt64
  defaultOwner : Pubkey
  /-- Whether there is a Solana client; the sessions are its own. -/
  hasClient : Bool

/-! ### What the phone answers -/

/-- `preferred_method`, where it is one of those known. -/
inductive PaymentMethod
  | magicblock
  | sessionKey
  | relayer
deriving DecidableEq

inductive ListAction
  | addWhitelist
  | addBlacklist
  | removeWhitelist
  | removeBlacklist
deriving DecidableEq

/-- A session in an authorization, where all of it is there and its key decodes. -/
structure AuthSession where
  pubkey : Pubkey
  expiresAt : ℤ
  spendingLimit : UInt64
  perTxLimit : Option UInt64
  dailyTxCountLimit : Option UInt32
deriving DecidableEq

structure AuthResponse where
  authorized : Bool
  session : Option AuthSession
  paymentMethod : Option PaymentMethod
  listAction : Option ListAction
  listLabel : Option String
  listMaxAmount : Option UInt64
deriving DecidableEq

inductive PhoneAnswer
  | responds (resp : AuthResponse)
  | channelError
  | timeout
deriving DecidableEq

/-- What comes from outside in one section. -/
structure Answer where
  /-- Which reads of the lists go through. -/
  lists : ListAccess
  /-- Whether the access to a store goes through. -/
  stored : Bool
  /-- Whether a phone is known, and can be sent to. -/
  phoneDid : Bool
  sent : Bool
  /-- A new session key. -/
  newKey : Pubkey
  phone : PhoneAnswer
  funded : Bool
  /-- Whether a MagicBlock voucher can be signed. -/
  voucher : Bool
  /-- Whether the transaction can be built, and is confirmed. -/
  confirmed : Bool
  /-- Whether there is a signature in the relayer's reply, where there is a relayer. -/
  replied : Bool

/-! ### Tasks -/

/-- On what ground a payment is executed. -/
inductive Path
  | whitelist
  | autoApprove
  | activeSession
  | phone
  | qr
deriving DecidableEq

inductive PaymentProof
  | voucher
  | txSignature
  /-- Without a Solana client nothing is paid. -/
  | mock
deriving DecidableEq

abbrev Verdict := Except StoreError RiskControlDecision

/-- A payment that `execute_payment_atomic` is called for. -/
structure Execution where
  /-- The outcome of the risk check; there is none for a QR code. -/
  verdict : Option Verdict
  path : Path
  /-- The session, as it was when it was read. -/
  session : Option SessionKeypair
  method : Option PaymentMethod
  /-- The phone's answer, where it was asked. -/
  response : Option AuthResponse

inductive Rejection
  | blacklisted
  | byUser
deriving DecidableEq

inductive Failure
  | noPhoneDid
  | requestNotSent
  | authorizationFailed
  | authorizationTimedOut
  | notFunded
  | insufficientBalance
  | notPaid
  /-- The payment went through, but what comes after it did not. -/
  | notRecorded
  | noSignature
deriving DecidableEq

inductive X402Result
  | success (proof : PaymentProof)
  | rejected (reason : Rejection)
  | error (failure : Failure)
deriving DecidableEq

/-- How far a task has come.  From `executing` to `recordingMerchant` it holds the mutex. -/
inductive Stage
  | arrived
  | checked (verdict : Verdict)
  | scanned (method : Option PaymentMethod)
  | requesting (verdict : Verdict)
  /-- With the session key that was made for the request. -/
  | awaiting (verdict : Verdict) (created : Option Pubkey)
  | ready (e : Execution)
  | funding (e : Execution)
  | executing (e : Execution)
  /-- `record_spent` of the client, on the way out of a transaction. -/
  | clientReads (e : Execution) (k : Pubkey)
  | clientWrites (e : Execution) (k : Pubkey) (read : SessionTokenData)
  /-- `record_spent` of `execute_payment_atomic`. -/
  | agentReads (e : Execution) (proof : PaymentProof)
  | agentWrites (e : Execution) (proof : PaymentProof) (k : Pubkey) (read : SessionTokenData)
  | recordingMerchant (e : Execution) (proof : PaymentProof)
  | listing (proof : PaymentProof) (action : ListAction) (resp : AuthResponse)
  | done (result : X402Result)

structure Task where
  merchantDid : String
  amount : UInt64
  stage : Stage

/-- The task goes on to a stage. -/
def Task.to (t : Task) (stage : Stage) : Task := { t with stage }

/-! ### The shared state -/

/-- A payment that was made. -/
structure Payment where
  /-- The task that made it. -/
  task : ℕ
  merchantDid : String
  amount : UInt64
  verdict : Option Verdict
  path : Path
  /-- The session that it was made from, unless it was a voucher or a mock. -/
  session : Option Pubkey
  paidAt : ℕ

structure Shared where
  lists : ListStore
  sessions : SessionStore
  now : ℕ
  /-- The task that holds `payment_mutex`. -/
  mutex : Option ℕ
  /-- The payments that were made, the latest first. -/
  payments : List Payment

namespace Shared

def release (x : Shared) : Shared := { x with mutex := none }

def setSession (x : Shared) (k : Pubkey) (d : SessionTokenData) : Shared :=
  { x with sessions := x.sessions.insert k d }

end Shared

variable (server : Server)

/-- `get_active_session`: an error counts as none. -/
def getActiveSession (a : Answer) (x : Shared) : Option SessionKeypair :=
  if server.hasClient ∧ a.stored then x.sessions.getActiveSession server.defaultOwner x.now else none

/-! ### The sections before the mutex -/

/-- Step C: risk control check (blacklist first). -/
def checkRisk (a : Answer) (t : Task) (x : Shared) : Task :=
  match x.lists.riskCheck a.lists x.now t.merchantDid t.amount with
  | .ok .blocked => t.to (.done (.rejected .blacklisted))
  | verdict => t.to (.checked verdict)

/-- 4. The global threshold. -/
def autoApproves (amount : UInt64) : Bool :=
  decide (server.autoApproveMax > 0 ∧ amount ≤ server.autoApproveMax)

/-- 4b. An active session that has not expired and has the payment within its limits. -/
def paysDirectly (amount : UInt64) (now : ℕ) (session : SessionKeypair) : Bool :=
  decide (session.sessionData.expiresAt = 0 ∨ session.sessionData.expiresAt > now) &&
    session.sessionData.withinLimits amount now

/-- What follows the risk check.  The session is read in either case. -/
def choosePath (a : Answer) (verdict : Verdict) (t : Task) (x : Shared) : Task :=
  let session := getActiveSession server a x
  match verdict with
  | .ok (.autoApproved _ _) => t.to (.ready ⟨some verdict, .whitelist, session, none, none⟩)
  | _ =>
    if autoApproves server t.amount then
      t.to (.ready ⟨some verdict, .autoApprove, session, none, none⟩)
    else if session.any (paysDirectly t.amount x.now) then
      t.to (.ready ⟨some verdict, .activeSession, session, none, none⟩)
    else t.to (.requesting verdict)

/-- A QR code has no risk check: the phone has scanned it. -/
def readForQr (a : Answer) (method : Option PaymentMethod) (t : Task) (x : Shared) : Task :=
  t.to (.ready ⟨none, .qr, getActiveSession server a x, method, none⟩)

/-- `create_session_key_for_request`: ten times the amount, for an hour. -/
def createSessionKey (amount : UInt64) (now : ℕ) : SessionTokenData where
  owner := server.defaultOwner
  expiresAt := now + 3600
  spendingLimit := UInt64.ofNat (min (amount.toNat * 10) (2 ^ 64 - 1))
  currentSpent := 0
  perTxLimit := 0
  dailyTxCountLimit := 0
  currentDailyCount := 0
  lastDailyReset := todayStart now

/-- 5. Register the pending authorization and send the request.  Without an active session there is
to be a new one. -/
def requestAuthorization (a : Answer) (verdict : Verdict) (t : Task) (x : Shared) : Task × Shared :=
  if a.phoneDid = false then (t.to (.done (.error .noPhoneDid)), x)
  else
    let creates := (getActiveSession server a x).isNone && server.hasClient && a.stored
    let x' := if creates then x.setSession a.newKey (createSessionKey server t.amount x.now) else x
    if a.sent = false then (t.to (.done (.error .requestNotSent)), x')
    else (t.to (.awaiting verdict (if creates then some a.newKey else none)), x')

/-- The session data that an authorization makes. -/
def AuthSession.data (session : AuthSession) (owner : Pubkey) (now : ℕ) : SessionTokenData where
  owner := owner
  expiresAt := session.expiresAt
  spendingLimit := session.spendingLimit
  currentSpent := 0
  perTxLimit := session.perTxLimit.getD 0
  dailyTxCountLimit := session.dailyTxCountLimit.getD 0
  currentDailyCount := 0
  lastDailyReset := todayStart now

/-- `get_session_from_auth_response`: the session is stored under its key, whatever is there. -/
def storeAuthSession (a : Answer) (session : AuthSession) (x : Shared) : SessionKeypair × Shared :=
  let d := session.data server.defaultOwner x.now
  (⟨session.pubkey, d⟩, if server.hasClient ∧ a.stored then x.setSession session.pubkey d else x)

/-- 6. The phone has authorized the payment. -/
def startAuthorized (a : Answer) (verdict : Verdict) (resp : AuthResponse) (t : Task) (x : Shared) :
    Task × Shared :=
  let ready session := t.to (.ready ⟨some verdict, .phone, session, resp.paymentMethod, some resp⟩)
  match resp.session with
  | some session =>
    let (keypair, x') := storeAuthSession server a session x
    (ready (some keypair), x')
  | none => (ready (getActiveSession server a x), x)

/-- The session key of the request is cleared. -/
def clearCreated (a : Answer) (created : Option Pubkey) (x : Shared) : Shared :=
  match created with
  | some k => if a.stored then { x with sessions := x.sessions.erase k } else x
  | none => x

/-- 6. What the phone answers, or that it does not in time. -/
def receiveAuthorization (a : Answer) (verdict : Verdict) (created : Option Pubkey) (t : Task)
    (x : Shared) : Task × Shared :=
  match a.phone with
  | .responds resp =>
    if resp.authorized then startAuthorized server a verdict resp t x
    else (t.to (.done (.rejected .byUser)), clearCreated a created x)
  | .channelError => (t.to (.done (.error .authorizationFailed)), x)
  | .timeout => (t.to (.done (.error .authorizationTimedOut)), clearCreated a created x)

/-! ### `execute_payment_atomic` -/

/-- `check_session_balance`, on the session as it was read. -/
def checkSessionBalance (session : Option SessionKeypair) (amount : UInt64) : Bool :=
  session.all fun sk => decide (amount ≤ sk.sessionData.remaining)

/-- The mutex is taken.  Where the balance does not suffice, the phone is asked for funds. -/
def lockPayment (i : ℕ) (e : Execution) (t : Task) (x : Shared) : Task × Shared :=
  if checkSessionBalance e.session t.amount then (t.to (.executing e), { x with mutex := some i })
  else (t.to (.funding e), { x with mutex := some i })

/-- The funds arrive, or not; the balance is then checked on the session that was read before. -/
def receiveFunds (a : Answer) (e : Execution) (t : Task) (x : Shared) : Task × Shared :=
  if a.funded = false then (t.to (.done (.error .notFunded)), x.release)
  else if checkSessionBalance e.session t.amount then (t.to (.executing e), x)
  else (t.to (.done (.error .insufficientBalance)), x.release)

/-- How a payment goes out. -/
inductive Paid
  | voucher
  | mock
  | transfer (k : Pubkey)

/-- A transaction of the session key; the client makes checks of its own before. -/
def transferFrom (a : Answer) (amount : UInt64) (now : ℕ) (sk : SessionKeypair) : Option Paid :=
  if ¬ sk.sessionData.isExpired now ∧ sk.sessionData.checkSpendingLimit amount ∧ a.confirmed then
    some (.transfer sk.pubkey)
  else none

/-- `execute_payment`. -/
def executePayment (a : Answer) (session : Option SessionKeypair) (amount : UInt64) (now : ℕ) :
    Option Paid :=
  if server.hasClient then session.bind (transferFrom a amount now) else some .mock

/-- `execute_payment_auto`. -/
def executePaymentAuto (a : Answer) (e : Execution) (amount : UInt64) (now : ℕ) : Option Paid :=
  match e.method with
  | some .magicblock => if a.voucher then some .voucher else none
  | some .sessionKey => executePayment server a e.session amount now
  | some .relayer => if server.hasClient then e.session.bind (transferFrom a amount now) else none
  | none => if a.voucher then some .voucher else executePayment server a e.session amount now

/-- The payment that is made. -/
def paymentOf (i : ℕ) (e : Execution) (session : Option Pubkey) (t : Task) (x : Shared) : Payment where
  task := i
  merchantDid := t.merchantDid
  amount := t.amount
  verdict := e.verdict
  path := e.path
  session := session
  paidAt := x.now

def pay (i : ℕ) (e : Execution) (session : Option Pubkey) (t : Task) (x : Shared) : Shared :=
  { x with payments := paymentOf i e session t x :: x.payments }

/-- The payment is executed. -/
def execute (i : ℕ) (a : Answer) (e : Execution) (t : Task) (x : Shared) : Task × Shared :=
  match executePaymentAuto server a e t.amount x.now with
  | none => (t.to (.done (.error .notPaid)), x.release)
  | some .voucher => (t.to (.agentReads e .voucher), pay i e none t x)
  | some .mock => (t.to (.agentReads e .mock), pay i e none t x)
  | some (.transfer k) => (t.to (.clientReads e k), pay i e (some k) t x)

/-- The client is done, unless a relayer's reply turns out to have no signature. -/
def clientDone (a : Answer) (e : Execution) (t : Task) (x : Shared) : Task × Shared :=
  if a.replied = false then (t.to (.done (.error .noSignature)), x.release)
  else (t.to (.agentReads e .txSignature), x)

/-- `record_spent` of the client reads the session. -/
def clientRead (a : Answer) (e : Execution) (k : Pubkey) (t : Task) (x : Shared) : Task × Shared :=
  if a.stored = false then (t.to (.done (.error .notRecorded)), x.release)
  else match x.sessions.lookup k with
    | some d => (t.to (.clientWrites e k d), x)
    | none => clientDone a e t x

/-- It writes what it makes of that. -/
def clientWrite (a : Answer) (e : Execution) (k : Pubkey) (d : SessionTokenData) (t : Task)
    (x : Shared) : Task × Shared :=
  if a.stored = false then (t.to (.done (.error .notRecorded)), x.release)
  else clientDone a e t (x.setSession k (d.recordSpent t.amount x.now))

/-- The agent records the payment once more; here a failure is passed over. -/
def agentRead (a : Answer) (e : Execution) (proof : PaymentProof) (t : Task) (x : Shared) : Task :=
  let read := if server.hasClient ∧ a.stored then
    e.session.bind fun sk => (x.sessions.lookup sk.pubkey).map fun d => (sk.pubkey, d) else none
  match read with
  | some (k, d) => t.to (.agentWrites e proof k d)
  | none => t.to (.recordingMerchant e proof)

def agentWrite (a : Answer) (e : Execution) (proof : PaymentProof) (k : Pubkey)
    (d : SessionTokenData) (t : Task) (x : Shared) : Task × Shared :=
  (t.to (.recordingMerchant e proof),
    if a.stored then x.setSession k (d.recordSpent t.amount x.now) else x)

/-- What is left to do after the payment: the phone may have asked for a change of the lists. -/
def afterPayment (e : Execution) (proof : PaymentProof) (t : Task) : Task :=
  match e.response with
  | some resp =>
    match resp.listAction with
    | some action =>
      if t.merchantDid = "" then t.to (.done (.success proof)) else t.to (.listing proof action resp)
    | none => t.to (.done (.success proof))
  | none => t.to (.done (.success proof))

/-- The last record, and the mutex is released. -/
def recordMerchant (a : Answer) (e : Execution) (proof : PaymentProof) (t : Task) (x : Shared) :
    Task × Shared :=
  let lists := if t.merchantDid ≠ "" ∧ a.stored then
    x.lists.recordMerchantSpent t.merchantDid t.amount else x.lists
  (afterPayment e proof t, { x with lists, mutex := none })

/-- `handle_list_action`. -/
def handleListAction (action : ListAction) (resp : AuthResponse) (did : String) (l : ListStore) :
    ListStore :=
  let entry : MerchantListEntry := ⟨resp.listMaxAmount, resp.listLabel, none⟩
  match action with
  | .addWhitelist => { l with whitelist := l.whitelist.insert did entry }
  | .addBlacklist => { l with blacklist := l.blacklist.insert did entry }
  | .removeWhitelist => { l with whitelist := l.whitelist.erase did }
  | .removeBlacklist => { l with blacklist := l.blacklist.erase did }

def updateLists (a : Answer) (proof : PaymentProof) (action : ListAction) (resp : AuthResponse)
    (t : Task) (x : Shared) : Task × Shared :=
  (t.to (.done (.success proof)),
    if a.stored then { x with lists := handleListAction action resp t.merchantDid x.lists } else x)

/-! ### Turns -/

/-- The next section of task `i`.  There is none after the last, and none for a task that waits for
the mutex while another has it. -/
def Task.next (i : ℕ) (a : Answer) (t : Task) (x : Shared) : Except Unit (Task × Shared) :=
  match t.stage with
  | .arrived => .ok (checkRisk a t x, x)
  | .checked verdict => .ok (choosePath server a verdict t x, x)
  | .scanned method => .ok (readForQr server a method t x, x)
  | .requesting verdict => .ok (requestAuthorization server a verdict t x)
  | .awaiting verdict created => .ok (receiveAuthorization server a verdict created t x)
  | .ready e => if x.mutex = none then .ok (lockPayment i e t x) else .error ()
  | .funding e => .ok (receiveFunds a e t x)
  | .executing e => .ok (execute server i a e t x)
  | .clientReads e k => .ok (clientRead a e k t x)
  | .clientWrites e k d => .ok (clientWrite a e k d t x)
  | .agentReads e proof => .ok (agentRead server a e proof t x, x)
  | .agentWrites e proof k d => .ok (agentWrite a e proof k d t x)
  | .recordingMerchant e proof => .ok (recordMerchant a e proof t x)
  | .listing proof action resp => .ok (updateLists a proof action resp t x)
  | .done _ => .error ()

abbrev World := System Shared Task

/-- What happens next. -/
inductive Event
  | runs (i : ℕ) (a : Answer)
  /-- The clock is at `now`. -/
  | ticks (now : ℕ)

def exec : Event → World → Except Unit World
  | .runs i a => System.turn (Task.next server i a) i
  | .ticks now => fun s => .ok { s with shared := { s.shared with now } }

end Agent
