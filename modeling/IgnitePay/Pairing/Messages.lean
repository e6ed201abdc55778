/-
The messages that an agent takes from its mediator (`mediator.rs`).

A text is either one that is encrypted for the agent, and then it is unpacked, or JSON in
the clear.  What is asked for in it depends on its type: the first of a list of words that
the type contains.  The two lists are not in the same order, and in the clear a message
that has a payment id is an answer to a payment whatever its type is.
-/
import IgnitePay.Lib.Text
import IgnitePay.Router.Auth

namespace Pairing

open Router (Primitives ResolvedIdentity)

/-- An unpacked message; `sender` is its `from`. -/
structure Message where
  typ : String
  sender : Option String
  body : Json

/-- What `DIDCommAgent::unpack` gives: the message, and the DID with whose key it was made, if
it was made with one. -/
structure Unpacked where
  message : Message
  authenticatedBy : Option String

abbrev Peers := Store.Map String ResolvedIdentity

structure Libraries extends Primitives where
  /-- `DIDCommAgent::unpack`, of an agent that knows these peers. -/
  unpack : Peers → String → Option Unpacked

/-! ### What a message asks for -/

structure AuthResponse where
  authorized : Bool
  listAction : String
  merchantDid : String
  sessionKeyPubkey : Option String
  sessionKeySecretKey : Option String
  sessionKeyTxSignature : Option String
  sessionExpiresAt : Option ℤ
  spendingLimit : Option UInt64
  scopes : Option (List String)
  listLabel : Option String
  listMaxAmount : Option UInt64
  tokenMint : Option String
  paymentMethod : Option String
  perTxLimit : Option UInt64
  dailyTxCountLimit : Option UInt32
deriving DecidableEq

structure FundResponse where
  funded : Bool
  newBalance : UInt64
  txSignature : Option String
deriving DecidableEq

structure RenewResponse where
  renewed : Bool
  newSessionKeyPubkey : String
  txSignature : Option String
deriving DecidableEq

structure MbDepositCommand where
  phoneDid : String
  amount : UInt64
  token : String
deriving DecidableEq

structure QrPaymentCommand where
  phoneDid : String
  merchantDid : String
  amount : UInt64
  description : String
  orderId : String
  paymentMethod : String
  token : String
  merchantMediatorUrl : String
deriving DecidableEq

structure SessionRotateTriggerCommand where
  phoneDid : String
  oldSessionKeyPubkey : String
deriving DecidableEq

/-- The commands that are handed to the tasks of `main`. -/
inductive Command
  | mbDeposit (cmd : MbDepositCommand)
  | qrPayment (cmd : QrPaymentCommand)
  | sessionRotate (cmd : SessionRotateTriggerCommand)
deriving DecidableEq

inductive Request
  | connect (phone : String) (httpUrl : Option String) (document : Option Json)
  | confirm (phone nonce signature : String)
  | mediatorUpdate (phone : String) (httpUrl : Option String)
  | authResponse (paymentId : String) (response : AuthResponse)
  | fundResponse (sessionKey : String) (response : FundResponse)
  | renewResponse (oldSessionKey : String) (response : RenewResponse)
  | command (cmd : Command)

/-! ### Reading it -/

def text (name : String) (body : Json) : Option String := (body.get name).bind Json.asString

def textOr (default name : String) (body : Json) : String := (text name body).getD default

def u64 (name : String) (body : Json) : Option UInt64 :=
  ((body.get name).bind Json.asU64).map UInt64.ofNat

def flag (name : String) (body : Json) : Bool := ((body.get name).bind Json.asBool).getD false

def connectionRequest (phone : String) (body : Json) : Request :=
  .connect phone (text "mediator_http_url" body) (body.get "did_document")

def connectionConfirm (phone : String) (body : Json) : Request :=
  .confirm phone (textOr "" "phone_nonce" body) (textOr "" "phone_signature" body)

def mediatorUpdate (phone : String) (body : Json) : Request :=
  .mediatorUpdate phone (text "mediator_http_url" body)

def readAuthResponse (body : Json) : AuthResponse where
  authorized := flag "authorized" body
  listAction := textOr "none" "list_action" body
  merchantDid := textOr "" "merchant_did" body
  sessionKeyPubkey := text "session_key_pubkey" body
  sessionKeySecretKey := text "session_key_secret_key" body
  sessionKeyTxSignature := text "session_key_tx_signature" body
  sessionExpiresAt := (body.get "session_expires_at").bind Json.asI64
  spendingLimit := u64 "spending_limit" body
  scopes := ((body.get "scopes").bind Json.asArray).map fun arr => arr.filterMap Json.asString
  listLabel := text "list_label" body
  listMaxAmount := u64 "list_max_amount" body
  tokenMint := text "token_mint" body
  paymentMethod := text "payment_method" body
  perTxLimit := u64 "per_tx_limit" body
  dailyTxCountLimit := (u64 "daily_tx_count_limit" body).map UInt64.toUInt32

/-- An answer to a payment, if the message says to which one. -/
def authResponse (body : Json) : Option Request :=
  (text "payment_id" body).map fun paymentId => .authResponse paymentId (readAuthResponse body)

def mbDepositRequest (phone : String) (body : Json) : Request :=
  .command (.mbDeposit ⟨phone, (u64 "amount" body).getD 0, textOr "SOL" "token" body⟩)

def qrPaymentRequest (phone : String) (body : Json) : Request :=
  .command (.qrPayment {
    phoneDid := phone
    merchantDid := textOr "" "merchant_did" body
    amount := (u64 "amount" body).getD 0
    description := textOr "" "description" body
    orderId := textOr "" "order_id" body
    paymentMethod := textOr "session_key" "payment_method" body
    token := textOr "SOL" "token" body
    merchantMediatorUrl := textOr "" "merchant_mediator_url" body })

def sessionFundResponse (body : Json) : Request :=
  .fundResponse (textOr "" "session_key_pubkey" body)
    ⟨flag "funded" body, (u64 "new_balance" body).getD 0, text "tx_signature" body⟩

def sessionRenewResponse (body : Json) : Request :=
  .renewResponse (textOr "" "old_session_key_pubkey" body)
    ⟨flag "renewed" body, textOr "" "new_session_key_pubkey" body, text "tx_signature" body⟩

def sessionKeyRotateTrigger (phone : String) (body : Json) : Request :=
  .command (.sessionRotate ⟨phone, textOr "" "old_session_key_pubkey" body⟩)

/-! ### The two lists -/

/-- The agents that are paired with a phone, the one that pays and the one that is paid. -/
inductive Role
  | payer
  | merchant
deriving DecidableEq

/-- What an encrypted message asks of the payer's agent besides its pairing.  A request for a channel
is dropped, as `main` gives no one to take it. -/
def payerRequest (m : Message) : Option Request :=
  let phone := m.sender.getD ""
  if Text.contains "payment-auth-response" m.typ then authResponse m.body
  else if Text.contains "create-channel-request" m.typ then none
  else if Text.contains "mb-deposit-request" m.typ then some (mbDepositRequest phone m.body)
  else if Text.contains "qr-payment-request" m.typ then some (qrPaymentRequest phone m.body)
  else if Text.contains "session-fund-response" m.typ then some (sessionFundResponse m.body)
  else if Text.contains "session-renew-response" m.typ then some (sessionRenewResponse m.body)
  else if Text.contains "session-key-rotate-trigger" m.typ then
    some (sessionKeyRotateTrigger phone m.body)
  else none

/-- What `process_inner_message` takes a message for. -/
def innerRequest (role : Role) (m : Message) : Option Request :=
  let phone := m.sender.getD ""
  if Text.contains "connection-request" m.typ then some (connectionRequest phone m.body)
  else if Text.contains "connection-confirm" m.typ then some (connectionConfirm phone m.body)
  else if Text.contains "mediator-update" m.typ then some (mediatorUpdate phone m.body)
  else match role with
    | .payer => payerRequest m
    | .merchant => none

/-- What a message in the clear is taken for. -/
def plainRequest (role : Role) (v : Json) : Option Request :=
  let typ := textOr "" "type" v
  let phone := ((v.index "from").asString).getD ""
  let body := v.index "body"
  if Text.contains "mediator-update" typ then some (mediatorUpdate phone body)
  else if Text.contains "connection-request" typ then some (connectionRequest phone body)
  else if Text.contains "connection-confirm" typ then some (connectionConfirm phone body)
  else match role with
    | .payer => authResponse body
    | .merchant => none

namespace Libraries

variable (c : Libraries)

/-- Whether a text looks like a JWE (has ciphertext and recipients). -/
def isJwe (t : String) : Bool :=
  match c.parseJson t with
  | .ok v => (v.get "ciphertext").isSome && (v.get "recipients").isSome
  | .error _ => false

/-- A text that looks encrypted and can be unpacked. -/
def unpackText (peers : Peers) (t : String) : Option Unpacked :=
  if c.isJwe t then c.unpack peers t else none

/-- What `handle_incoming_message` takes a text for. -/
def request (role : Role) (peers : Peers) (t : String) : Option Request :=
  match c.unpackText peers t with
  | some u => innerRequest role u.message
  | none => (c.parseJson t).toOption.bind (plainRequest role)

/-- The DID with whose key a text was made; none for a text in the clear. -/
def authenticatedBy (peers : Peers) (t : String) : Option String :=
  (c.unpackText peers t).bind Unpacked.authenticatedBy

end Libraries

end Pairing
