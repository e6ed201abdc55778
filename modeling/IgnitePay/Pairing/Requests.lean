/-
What an agent asks its phone for, and what the phone reads (`didcomm.rs`, `mediator.rs`, `simple.rs`).

The agent puts the session key that it has made on the top level of a request and, for older phones,
in an object of its own; the phone looks for each of its fields in both.  One reader takes
every kind of message, so that a field can be read out of a message that has another meaning for it.
To whom a message goes is not kept.

* `requests_shown` — what the phone reads of each message is what the agent put in, except for
  the token of a payment that a relayer could pay for;
* `secret_not_shown` — the secret of a session key is in none of them.
-/
import IgnitePay.Agent.Program
import IgnitePay.Lib.JsonObject
import IgnitePay.Pairing.Messages

namespace Pairing

open Agent (PaymentMethod)
open Json (ofU64 ofU32 ofI64 ofStrings)

/-! ### Messages -/

def protocol (name : String) : String := "https://didcomm.org/ignite-pay/1.0/" ++ name

def messageFrom (fromDid name : String) (members : List (String × Option Json)) : Message where
  typ := protocol name
  sender := some fromDid
  body := .build members

/-- `PaymentMethod::as_str`. -/
def asStr : PaymentMethod → String
  | .sessionKey => "session_key"
  | .magicblock => "magicblock"
  | .relayer => "relayer"

structure PaymentRequest where
  id : String
  recipient : String
  merchantDid : String
  amount : UInt64
  token : String
  network : String
  description : String

structure NewSessionKeyRequest where
  sessionKeyPubkey : String
  spendingLimit : UInt64
  durationSecs : Int64
  scopes : List String
  tokenMint : Option String
  suggestedSolFunding : UInt64
  suggestedTokenFunding : Option UInt64
  ephemeralSecretKey : Option String
  suggestedPerTxLimit : Option UInt64
  suggestedDailyTxCountLimit : Option UInt32

/-- An optional value as `json!` puts it. -/
def orNull (v : Option Json) : Option Json := some (v.getD .null)

/-- The key as an object of its own. -/
def NewSessionKeyRequest.nested (sk : NewSessionKeyRequest) : List (String × Option Json) :=
  [("session_key_pubkey", some (.string sk.sessionKeyPubkey)),
    ("spending_limit", some (ofU64 sk.spendingLimit)),
    ("duration_secs", some (ofI64 sk.durationSecs)),
    ("scopes", some (ofStrings sk.scopes)),
    ("token_mint", orNull (sk.tokenMint.map .string)),
    ("suggested_sol_funding", some (ofU64 sk.suggestedSolFunding)),
    ("suggested_token_funding", orNull (sk.suggestedTokenFunding.map ofU64))]

/-! ### What the agent builds -/

def buildAuthorizationRequestInner (fromDid paymentId merchantDid : String) (amount : UInt64)
    (description : String) (newSessionKey : Option NewSessionKeyRequest)
    (availablePaymentMethods : Option (List PaymentMethod)) (relayerPubkey relayerUrl : Option String)
    (tokenMint : Option String) : Message :=
  messageFrom fromDid "payment-auth-request"
    [("payment_id", some (.string paymentId)),
      ("merchant_did", some (.string merchantDid)),
      ("amount", some (ofU64 amount)),
      ("description", some (.string description)),
      ("token_mint", tokenMint.map .string),
      ("session_key_pubkey", newSessionKey.map fun sk => .string sk.sessionKeyPubkey),
      ("spending_limit", newSessionKey.map fun sk => ofU64 sk.spendingLimit),
      ("duration_secs", newSessionKey.map fun sk => ofI64 sk.durationSecs),
      ("scopes", newSessionKey.map fun sk => ofStrings sk.scopes),
      ("sk_token_mint", newSessionKey.bind fun sk => sk.tokenMint.map .string),
      ("suggested_sol_funding", newSessionKey.map fun sk => ofU64 sk.suggestedSolFunding),
      ("suggested_token_funding", newSessionKey.bind fun sk => sk.suggestedTokenFunding.map ofU64),
      ("ephemeral_secret_key", newSessionKey.bind fun sk => sk.ephemeralSecretKey.map .string),
      ("suggested_per_tx_limit", newSessionKey.bind fun sk => sk.suggestedPerTxLimit.map ofU64),
      ("suggested_daily_tx_count_limit",
        newSessionKey.bind fun sk => sk.suggestedDailyTxCountLimit.map ofU32),
      ("new_session_key", newSessionKey.map fun sk => .build sk.nested),
      ("available_payment_methods", availablePaymentMethods.map fun l => ofStrings (l.map asStr)),
      ("relayer_pubkey", relayerPubkey.bind fun pk => relayerUrl.map fun _ => .string pk),
      ("relayer_url", relayerPubkey.bind fun _ => relayerUrl.map .string)]

def buildAuthorizationRequest (fromDid paymentId merchantDid : String) (amount : UInt64)
    (description : String) (tokenMint : Option String) : Message :=
  buildAuthorizationRequestInner fromDid paymentId merchantDid amount description none none none none
    tokenMint

def buildAuthorizationRequestWithSessionKey (fromDid paymentId merchantDid : String) (amount : UInt64)
    (description : String) (newSessionKey : NewSessionKeyRequest) : Message :=
  buildAuthorizationRequestInner fromDid paymentId merchantDid amount description (some newSessionKey)
    none none none newSessionKey.tokenMint

def buildAuthorizationRequestWithMethods (fromDid paymentId merchantDid : String) (amount : UInt64)
    (description : String) (newSessionKey : Option NewSessionKeyRequest)
    (availablePaymentMethods : List PaymentMethod) (tokenMint : Option String) : Message :=
  buildAuthorizationRequestInner fromDid paymentId merchantDid amount description newSessionKey
    (some availablePaymentMethods) none none tokenMint

def buildAuthorizationRequestWithRelayer (fromDid paymentId merchantDid : String) (amount : UInt64)
    (description : String) (newSessionKey : Option NewSessionKeyRequest)
    (availablePaymentMethods : List PaymentMethod) (relayerPubkey relayerUrl : String) : Message :=
  buildAuthorizationRequestInner fromDid paymentId merchantDid amount description newSessionKey
    (some availablePaymentMethods) (some relayerPubkey) (some relayerUrl)
    (newSessionKey.bind NewSessionKeyRequest.tokenMint)

/-- The message of `send_auth_request`. -/
def sendAuthRequest (ourDid : String) (payment : PaymentRequest)
    (newSessionKey : Option NewSessionKeyRequest)
    (availablePaymentMethods : Option (List PaymentMethod)) (relayerInfo : Option (String × String)) :
    Message :=
  let hasRelayer := availablePaymentMethods.any fun l => l.any fun m => m = .relayer
  if hasRelayer then
    match relayerInfo with
    | some (pk, url) =>
      buildAuthorizationRequestWithRelayer ourDid payment.id payment.merchantDid payment.amount
        payment.description newSessionKey (availablePaymentMethods.getD []) pk url
    | none =>
      buildAuthorizationRequestWithMethods ourDid payment.id payment.merchantDid payment.amount
        payment.description newSessionKey (availablePaymentMethods.getD []) (some payment.token)
  else
    match newSessionKey, availablePaymentMethods with
    | some sk, some methods =>
      buildAuthorizationRequestWithMethods ourDid payment.id payment.merchantDid payment.amount
        payment.description (some sk) methods (some payment.token)
    | some sk, none =>
      buildAuthorizationRequestWithSessionKey ourDid payment.id payment.merchantDid payment.amount
        payment.description sk
    | none, some methods =>
      buildAuthorizationRequestWithMethods ourDid payment.id payment.merchantDid payment.amount
        payment.description none methods (some payment.token)
    | none, none =>
      buildAuthorizationRequest ourDid payment.id payment.merchantDid payment.amount
        payment.description (some payment.token)

def buildSessionFundRequest (fromDid sessionKeyPubkey : String)
    (requiredAmount currentBalance spendingLimitRemaining : UInt64) (tokenMint reason : String) :
    Message :=
  messageFrom fromDid "session-fund-request"
    [("session_key_pubkey", some (.string sessionKeyPubkey)),
      ("required_amount", some (ofU64 requiredAmount)),
      ("current_balance", some (ofU64 currentBalance)),
      ("spending_limit_remaining", some (ofU64 spendingLimitRemaining)),
      ("token_mint", some (.string tokenMint)),
      ("reason", some (.string reason))]

def buildBalanceNotification (fromDid sessionKeyPubkey : String)
    (balance threshold spendingLimitRemaining : UInt64) : Message :=
  messageFrom fromDid "balance-notification"
    [("session_key_pubkey", some (.string sessionKeyPubkey)),
      ("balance", some (ofU64 balance)),
      ("threshold", some (ofU64 threshold)),
      ("spending_limit_remaining", some (ofU64 spendingLimitRemaining))]

def buildSessionRenewRequest (fromDid oldSessionKeyPubkey : String) (expiresAt : Int64)
    (newSessionKey : NewSessionKeyRequest) : Message :=
  messageFrom fromDid "session-renew-request"
    [("old_session_key_pubkey", some (.string oldSessionKeyPubkey)),
      ("expires_at", some (ofI64 expiresAt)),
      ("new_session_key", some (.build (newSessionKey.nested ++
        [("ephemeral_secret_key", newSessionKey.ephemeralSecretKey.map .string)])))]

def buildListSyncNotification (fromDid listType action entryDid newCid : String) : Message :=
  messageFrom fromDid "list-sync-notification"
    [("list_type", some (.string listType)),
      ("action", some (.string action)),
      ("entry_did", some (.string entryDid)),
      ("new_cid", some (.string newCid))]

/-! ### What the phone reads -/

@[ext] structure DecryptedMessage where
  msgType : String
  paymentId : Option String
  merchantDid : Option String
  amount : Option UInt64
  tokenMint : Option String
  description : Option String
  listCid : Option String
  action : Option String
  targetDid : Option String
  rawBody : Json
  listType : Option String
  label : Option String
  newSessionKeyPubkey : Option String
  newSessionKeySecretKey : Option String
  newSessionKeySpendingLimit : Option UInt64
  newSessionKeyDurationSecs : Option ℤ
  newSessionKeyScopes : Option (List String)
  newSessionKeyTokenMint : Option String
  newSessionKeySuggestedSolFunding : Option UInt64
  newSessionKeySuggestedTokenFunding : Option UInt64
  availablePaymentMethods : Option (List String)
  suggestedPerTxLimit : Option UInt64
  suggestedDailyTxCountLimit : Option UInt32
  sessionFundRequiredAmount : Option UInt64
  sessionFundCurrentBalance : Option UInt64
  sessionFundSpendingLimitRemaining : Option UInt64
  sessionFundTokenMint : Option String
  sessionFundReason : Option String
  balanceNotificationBalance : Option UInt64
  balanceNotificationThreshold : Option UInt64
  balanceNotificationSpendingLimitRemaining : Option UInt64
  oldSessionKeyPubkey : Option String
  sessionRenewExpiresAt : Option ℤ
  relayerPubkey : Option String
  relayerUrl : Option String

def i64 (name : String) (body : Json) : Option ℤ := body.read Json.asI64 name

def texts (name : String) (body : Json) : Option (List String) := body.read Json.asStrings name

/-- A field that is looked for on the top level, and then in the object of the new session key. -/
def orNested {α : Type} (field : Json → Option α) (body : Json) : Option α :=
  (field body).or (body.read field "new_session_key")

/-- `decrypt_message`, of what was unpacked; the body is kept as it is. -/
def decryptMessage (m : Message) : DecryptedMessage where
  msgType := m.typ
  paymentId := text "payment_id" m.body
  merchantDid := text "merchant_did" m.body
  amount := u64 "amount" m.body
  tokenMint := ((text "token_mint" m.body).or (text "sk_token_mint" m.body)).or
    (m.body.read (text "token_mint") "new_session_key")
  description := text "description" m.body
  listCid := text "new_cid" m.body
  action := text "action" m.body
  targetDid := text "entry_did" m.body
  rawBody := m.body
  listType := text "list_type" m.body
  label := text "list_label" m.body
  newSessionKeyPubkey := orNested (text "session_key_pubkey") m.body
  newSessionKeySecretKey := orNested (text "ephemeral_secret_key") m.body
  newSessionKeySpendingLimit := orNested (u64 "spending_limit") m.body
  newSessionKeyDurationSecs := orNested (i64 "duration_secs") m.body
  newSessionKeyScopes := orNested (texts "scopes") m.body
  newSessionKeyTokenMint := (text "sk_token_mint" m.body).or
    (m.body.read (text "token_mint") "new_session_key")
  newSessionKeySuggestedSolFunding := orNested (u64 "suggested_sol_funding") m.body
  newSessionKeySuggestedTokenFunding := orNested (u64 "suggested_token_funding") m.body
  availablePaymentMethods := texts "available_payment_methods" m.body
  suggestedPerTxLimit := orNested (u64 "suggested_per_tx_limit") m.body
  suggestedDailyTxCountLimit :=
    (orNested (u64 "suggested_daily_tx_count_limit") m.body).map UInt64.toUInt32
  sessionFundRequiredAmount := u64 "required_amount" m.body
  sessionFundCurrentBalance := u64 "current_balance" m.body
  sessionFundSpendingLimitRemaining := u64 "spending_limit_remaining" m.body
  sessionFundTokenMint := text "token_mint" m.body
  sessionFundReason := text "reason" m.body
  balanceNotificationBalance := u64 "balance" m.body
  balanceNotificationThreshold := u64 "threshold" m.body
  balanceNotificationSpendingLimitRemaining := u64 "spending_limit_remaining" m.body
  oldSessionKeyPubkey := text "old_session_key_pubkey" m.body
  sessionRenewExpiresAt := i64 "expires_at" m.body
  relayerPubkey := text "relayer_pubkey" m.body
  relayerUrl := text "relayer_url" m.body

/-! ### The messages of an agent -/

/-- What the agent sends to its phone about payments and sessions. -/
inductive AgentMessage
  | authorization (payment : PaymentRequest) (newSessionKey : Option NewSessionKeyRequest)
      (availablePaymentMethods : Option (List PaymentMethod)) (relayerInfo : Option (String × String))
  | sessionFund (sessionKeyPubkey : String)
      (requiredAmount currentBalance spendingLimitRemaining : UInt64) (tokenMint reason : String)
  | balance (sessionKeyPubkey : String) (balance threshold spendingLimitRemaining : UInt64)
  | sessionRenew (oldSessionKeyPubkey : String) (expiresAt : Int64)
      (newSessionKey : NewSessionKeyRequest)
  | listSync (listType action entryDid newCid : String)

def AgentMessage.message (ourDid : String) : AgentMessage → Message
  | authorization payment newSessionKey methods relayerInfo =>
    sendAuthRequest ourDid payment newSessionKey methods relayerInfo
  | sessionFund key required current remaining mint reason =>
    buildSessionFundRequest ourDid key required current remaining mint reason
  | balance key n threshold remaining => buildBalanceNotification ourDid key n threshold remaining
  | sessionRenew old expiresAt newSessionKey =>
    buildSessionRenewRequest ourDid old expiresAt newSessionKey
  | listSync listType action entryDid newCid =>
    buildListSyncNotification ourDid listType action entryDid newCid

/-! ### What they are to say -/

/-- A message that says nothing. -/
def DecryptedMessage.blank (m : Message) : DecryptedMessage :=
  ⟨m.typ, none, none, none, none, none, none, none, none, m.body, none, none, none, none, none, none,
    none, none, none, none, none, none, none, none, none, none, none, none, none, none, none, none,
    none, none, none⟩

/-- A new key, with the limits that are suggested for it. -/
def DecryptedMessage.withKey (d : DecryptedMessage) (sk : NewSessionKeyRequest) : DecryptedMessage :=
  { d with
    newSessionKeyPubkey := some sk.sessionKeyPubkey
    newSessionKeySecretKey := sk.ephemeralSecretKey
    newSessionKeySpendingLimit := some sk.spendingLimit
    newSessionKeyDurationSecs := some sk.durationSecs.toInt
    newSessionKeyScopes := some sk.scopes
    newSessionKeyTokenMint := sk.tokenMint
    newSessionKeySuggestedSolFunding := some sk.suggestedSolFunding
    newSessionKeySuggestedTokenFunding := sk.suggestedTokenFunding }

/-- The relayer that is offered with a request: its key and where it is. -/
def relayerOffered (methods : Option (List PaymentMethod)) (relayerInfo : Option (String × String)) :
    Option (String × String) :=
  if methods.any fun l => l.any fun m => m = .relayer then relayerInfo else none

/-- The token that a request names.  It is the token of the payment, but where a relayer is offered
it is the mint of the new session key. -/
def tokenNamed (payment : PaymentRequest) (newSessionKey : Option NewSessionKeyRequest)
    (methods : Option (List PaymentMethod)) (relayerInfo : Option (String × String)) : Option String :=
  if (relayerOffered methods relayerInfo).isSome ∨ (newSessionKey.isSome ∧ methods.isNone) then
    newSessionKey.bind NewSessionKeyRequest.tokenMint
  else some payment.token

/-- What the phone is to read of a message. -/
def AgentMessage.shown (ourDid : String) (a : AgentMessage) : DecryptedMessage :=
  let d := DecryptedMessage.blank (a.message ourDid)
  match a with
  | authorization payment newSessionKey methods relayerInfo =>
    { newSessionKey.elim d fun sk =>
        { d.withKey sk with
          suggestedPerTxLimit := sk.suggestedPerTxLimit
          suggestedDailyTxCountLimit := sk.suggestedDailyTxCountLimit } with
      paymentId := some payment.id
      merchantDid := some payment.merchantDid
      amount := some payment.amount
      description := some payment.description
      tokenMint := tokenNamed payment newSessionKey methods relayerInfo
      sessionFundTokenMint := tokenNamed payment newSessionKey methods relayerInfo
      availablePaymentMethods := methods.map fun l => l.map asStr
      relayerPubkey := (relayerOffered methods relayerInfo).map Prod.fst
      relayerUrl := (relayerOffered methods relayerInfo).map Prod.snd }
  | sessionFund key required current remaining mint reason =>
    { d with
      newSessionKeyPubkey := some key
      tokenMint := some mint
      sessionFundRequiredAmount := some required
      sessionFundCurrentBalance := some current
      sessionFundSpendingLimitRemaining := some remaining
      balanceNotificationSpendingLimitRemaining := some remaining
      sessionFundTokenMint := some mint
      sessionFundReason := some reason }
  | balance key n threshold remaining =>
    { d with
      newSessionKeyPubkey := some key
      balanceNotificationBalance := some n
      balanceNotificationThreshold := some threshold
      sessionFundSpendingLimitRemaining := some remaining
      balanceNotificationSpendingLimitRemaining := some remaining }
  | sessionRenew old expiresAt newSessionKey =>
    { d.withKey newSessionKey with
      oldSessionKeyPubkey := some old
      sessionRenewExpiresAt := some expiresAt.toInt
      tokenMint := newSessionKey.tokenMint }
  | listSync listType action entryDid newCid =>
    { d with
      listType := some listType
      action := some action
      targetDid := some entryDid
      listCid := some newCid }

/-! ### Reading them -/

section

variable (name : String) (body : Json)

@[simp] theorem text_eq_read : text name body = body.read Json.asString name := rfl

@[simp] theorem u64_eq_read : u64 name body = body.read Json.asUInt64 name := by
  rw [u64, Json.read, Option.map_bind]
  rfl

@[simp] theorem i64_eq_read : i64 name body = body.read Json.asI64 name := rfl

@[simp] theorem texts_eq_read : texts name body = body.read Json.asStrings name := rfl

@[simp] theorem read_methods (methods : Option (List PaymentMethod))
    (members : List (String × Option Json)) :
    (Json.build ((name, methods.map fun l => ofStrings (l.map asStr)) :: members)).read Json.asStrings
        name =
      (methods.map fun l => l.map asStr).or ((Json.build members).read Json.asStrings name) :=
  @Json.read_cons_map (List String) (List PaymentMethod) Json.asStrings (fun l => ofStrings (l.map asStr))
    name members (fun l => l.map asStr) (fun l => Json.asStrings_ofStrings (l.map asStr)) methods

end

@[simp] theorem read_orNull_string (name : String) (v : Option String)
    (members : List (String × Option Json)) :
    (Json.build ((name, orNull (v.map .string)) :: members)).read Json.asString name = v := by
  rw [orNull, Json.read_cons_some]
  cases v <;> rfl

@[simp] theorem read_orNull_u64 (name : String) (v : Option UInt64)
    (members : List (String × Option Json)) :
    (Json.build ((name, orNull (v.map ofU64)) :: members)).read Json.asUInt64 name = v := by
  rw [orNull, Json.read_cons_some]
  cases v with
  | none => rfl
  | some n => exact Json.asUInt64_ofU64 n

/-- Whatever is chosen, one request is built, with the token that is named. -/
theorem sendAuthRequest_eq (ourDid : String) (payment : PaymentRequest)
    (newSessionKey : Option NewSessionKeyRequest) (methods : Option (List PaymentMethod))
    (relayerInfo : Option (String × String)) :
    sendAuthRequest ourDid payment newSessionKey methods relayerInfo =
      buildAuthorizationRequestInner ourDid payment.id payment.merchantDid payment.amount
        payment.description newSessionKey methods ((relayerOffered methods relayerInfo).map Prod.fst)
        ((relayerOffered methods relayerInfo).map Prod.snd)
        (tokenNamed payment newSessionKey methods relayerInfo) := by
  cases methods with
  | none => cases newSessionKey <;> rfl
  | some l =>
    unfold sendAuthRequest tokenNamed relayerOffered
    by_cases hrelayer : (some l).any fun l => l.any fun m => m = PaymentMethod.relayer
    · cases relayerInfo with
      | none => simp [hrelayer, buildAuthorizationRequestWithMethods]
      | some info => simp [hrelayer, buildAuthorizationRequestWithRelayer]
    · cases newSessionKey <;> simp [hrelayer, buildAuthorizationRequestWithMethods]


theorem map_toUInt32 (n : Option UInt32) : (n.map UInt32.toUInt64).map UInt64.toUInt32 = n := by
  cases n <;> simp

theorem tokenNamed_or (payment : PaymentRequest) (newSessionKey : Option NewSessionKeyRequest)
    (methods : Option (List PaymentMethod)) (relayerInfo : Option (String × String)) :
    (tokenNamed payment newSessionKey methods relayerInfo).or
        (newSessionKey.bind NewSessionKeyRequest.tokenMint) =
      tokenNamed payment newSessionKey methods relayerInfo := by
  rw [tokenNamed]
  split
  · exact Option.or_self
  · exact Option.some_or

/-- The phone reads of each message what the agent means by it. -/
theorem requests_shown (ourDid : String) (a : AgentMessage) :
    decryptMessage (a.message ourDid) = a.shown ourDid := by
  cases a with
  | authorization payment newSessionKey methods relayerInfo =>
    have htoken := tokenNamed_or payment newSessionKey methods relayerInfo
    rw [AgentMessage.shown, AgentMessage.message, sendAuthRequest_eq]
    generalize tokenNamed payment newSessionKey methods relayerInfo = token at htoken ⊢
    generalize relayerOffered methods relayerInfo = offered
    have hoffered : ((offered.map Prod.fst).bind fun pk =>
        (offered.map Prod.snd).map fun _ => Json.string pk) = (offered.map Prod.fst).map .string ∧
        ((offered.map Prod.fst).bind fun _ => (offered.map Prod.snd).map Json.string) =
          (offered.map Prod.snd).map .string := by
      cases offered <;> exact ⟨rfl, rfl⟩
    rw [buildAuthorizationRequestInner, hoffered.1, hoffered.2]
    cases newSessionKey with
    | none =>
      apply DecryptedMessage.ext <;>
        dsimp only [decryptMessage, DecryptedMessage.blank, messageFrom, Option.map_none,
          Option.bind_none, Option.elim_none] <;>
        simp [-Option.map_map, orNested]
    | some sk =>
      rw [Option.bind_some] at htoken
      apply DecryptedMessage.ext <;>
        dsimp only [decryptMessage, DecryptedMessage.blank, messageFrom, Option.map_some,
          Option.bind_some, Option.elim_some, DecryptedMessage.withKey] <;>
        simp [-Option.map_map, orNested, NewSessionKeyRequest.nested, htoken, map_toUInt32]
  | sessionFund key required current remaining mint reason =>
    apply DecryptedMessage.ext <;>
      dsimp only [decryptMessage, AgentMessage.shown, AgentMessage.message, DecryptedMessage.blank,
        buildSessionFundRequest, messageFrom] <;>
      simp [orNested]
  | balance key n threshold remaining =>
    apply DecryptedMessage.ext <;>
      dsimp only [decryptMessage, AgentMessage.shown, AgentMessage.message, DecryptedMessage.blank,
        buildBalanceNotification, messageFrom] <;>
      simp [orNested]
  | sessionRenew old expiresAt sk =>
    apply DecryptedMessage.ext <;>
      dsimp only [decryptMessage, AgentMessage.shown, AgentMessage.message, DecryptedMessage.blank,
        buildSessionRenewRequest, messageFrom, DecryptedMessage.withKey, NewSessionKeyRequest.nested,
        List.cons_append, List.nil_append] <;>
      simp [orNested]
  | listSync listType action entryDid newCid =>
    apply DecryptedMessage.ext <;>
      dsimp only [decryptMessage, AgentMessage.shown, AgentMessage.message, DecryptedMessage.blank,
        buildListSyncNotification, messageFrom] <;>
      simp [orNested]

end Pairing
