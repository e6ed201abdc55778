/-
The DID registry (`did-registry/src/state.rs`, `storage/sled_store.rs`, `handlers/`).

The registry issues credentials, signs bindings of credentials to keys, and sends transactions to
the DID program or prepares them for the merchant.  It caches what it takes the DID accounts to be.
A handler accesses its stores one at a time; between two accesses other requests are served, and
transactions land.

What comes from outside in a request is an `Outcome`: what becomes of the transaction, the texts
that go into the response, and a fresh identifier.  Reads and writes of the stores are taken to go
through.  The state keeps next to the stores what has happened: the nonces that were issued and
accepted, the bindings that were signed and the credentials that were issued.
-/
import IgnitePay.Lib.Handlers
import IgnitePay.Lib.Text
import IgnitePay.Registry.Credentials

namespace Registry

open Bytes Machine
open Solana (Pubkey defaultPubkey)
open Agent (extractPubkeyFromDid parsePubkey decodeBase58 exactly)
open Did (MerchantDidAccount)
open Did.Service (OnchainMode Transaction)
open Handler (check orAnswer call read modify)

/-! ### The service -/

structure Config where
  /-- The platform's key, in base64. -/
  platformPublicKey : String
  registerFeeLamports : UInt64
  updateVcFeeLamports : UInt64
  rotateKeyFeeLamports : UInt64

structure Service extends Library where
  config : Config
  /-- The key that pays for sponsored transactions. -/
  payer : Pubkey
  /-- The key that belongs to the signing key of the platform. -/
  platformKey : Pubkey
  platformDid : String
  didProgramId : String
  /-- The signatures that the platform makes. -/
  signText : String → Bytes 64
  signBytes : List UInt8 → Bytes 64
  /-- The DID program's runtime. -/
  runtime : Did.Runtime
  /-- The texts of the errors of parsing. -/
  pubkeyError : String → String
  signatureError : String → String
  hexError : String → String
  /-- A transaction in base64, with the blockhash it is for. -/
  transactionText : Transaction → String → String
  revokedVcAddress : Bytes 32 → String

/-! ### State -/

structure State where
  /-- `merchant:<hash of the DID>`. -/
  merchants : Store.Map (Bytes 32) MerchantDidAccount := ∅
  /-- `vc:<hash>`. -/
  vcs : Store.Map String String := ∅
  /-- `revoked_vc:<hash>`. -/
  revokedVcs : Store.Map String Json := ∅
  /-- `fee:<operation>:<time>:<hash of the DID>`. -/
  fees : Store.Map String Json := ∅
  /-- Issued nonces, with their expiry. -/
  nonces : Store.Map String ℤ := ∅
  chain : Did.World
  /-- Transactions that were sent or prepared, and have neither landed nor expired. -/
  pending : List Transaction := []
  /-- In milliseconds since 1970. -/
  clock : ℕ := 0
  issuedNonces : List String := []
  acceptedNonces : List String := []
  bindings : List (Pubkey × Bytes 32) := []
  issued : List VerifiableCredential := []

namespace State

variable (s : State)

def timestamp : ℤ := s.clock / 1000

/-- Expired nonces are dropped once there are more than 10,000. -/
def prunedNonces : Store.Map String ℤ :=
  if s.nonces.entries.length > 10000 then
    Store.retain (fun expiry => decide (expiry > s.timestamp)) s.nonces
  else s.nonces

/-- `issue_nonce`. -/
def issueNonce (nonce : String) : State :=
  { s with
    nonces := s.prunedNonces.insert nonce (s.timestamp + 300)
    issuedNonces := nonce :: s.issuedNonces }

/-- `verify_and_consume_nonce`. -/
def consumeNonce (nonce : String) : Bool × State :=
  match s.nonces.lookup nonce with
  | some expiry =>
    let valid := decide (expiry > s.timestamp)
    (valid, { s with
      nonces := s.nonces.erase nonce
      acceptedNonces := if valid then nonce :: s.acceptedNonces else s.acceptedNonces })
  | none => (false, s)

def cacheMerchant (didHash : Bytes 32) (did : MerchantDidAccount) : State :=
  let account := { did with lastUpdated := Int64.ofInt s.timestamp }
  { s with merchants := s.merchants.insert didHash account }

/-- `record_fee`, of a sponsored operation. -/
def recordFee (didHash : Bytes 32) (operation : String) (feeLamports : UInt64)
    (merchantDid : String) : State :=
  let key := "fee:" ++ operation ++ ":" ++ String.ofList (Text.decimal s.clock) ++ ":" ++
    hexEncode didHash.val
  let value : Json := .object [("merchant_did", .string merchantDid), ("operation", .string operation),
    ("fee_lamports", .integer feeLamports.toNat), ("timestamp", .integer s.clock),
    ("mode", .string "sponsored")]
  { s with fees := s.fees.insert key value }

end State

/-! ### Requests and responses -/

structure RegisterMerchantRequest where
  merchantDid : String
  activePubkey : String
  platformVcHash : String
  didSignature : String
  nonce : String
  mode : OnchainMode
deriving DecidableEq

structure ConfirmRegisterRequest where
  merchantDid : String
  txSignature : String
  activePubkey : String
  platformVcHash : String
  didSignature : String
  nonce : String
deriving DecidableEq

structure RotateKeyRequest where
  merchantDid : String
  newActivePubkey : String
  didSignature : String
  nonce : String
  mode : OnchainMode
deriving DecidableEq

structure UpdateVcRequest where
  merchantDid : String
  newVcHash : String
  platformSignature : String
  nonce : String
  mode : OnchainMode
deriving DecidableEq

structure IssueVcRequest where
  merchantDid : String
  merchantName : String
  category : Option String
  validityHours : Option UInt64
  nonce : String
  didSignature : String
deriving DecidableEq

structure RevokeVcRequest where
  vcHash : String
  credentialSubjectPk : String
  reason : UInt8
  platformSignature : String
  nonce : String
deriving DecidableEq

/-! What is signed for each request. -/

def RegisterMerchantRequest.message (req : RegisterMerchantRequest) : String :=
  "register:" ++ req.merchantDid ++ ":" ++ req.activePubkey ++ ":" ++ req.platformVcHash ++ ":" ++
    req.nonce

def ConfirmRegisterRequest.message (req : ConfirmRegisterRequest) : String :=
  "confirm:" ++ req.merchantDid ++ ":" ++ req.txSignature ++ ":" ++ req.nonce

def RotateKeyRequest.message (req : RotateKeyRequest) : String :=
  "rotate-key:" ++ req.merchantDid ++ ":" ++ req.newActivePubkey ++ ":" ++ req.nonce

def UpdateVcRequest.message (req : UpdateVcRequest) : String :=
  "update-vc:" ++ req.merchantDid ++ ":" ++ req.newVcHash ++ ":" ++ req.nonce

def IssueVcRequest.message (req : IssueVcRequest) : String :=
  "issue_vc:" ++ req.merchantDid ++ ":" ++ req.merchantName ++ ":" ++ req.nonce

def RevokeVcRequest.message (req : RevokeVcRequest) : String :=
  "revoke:" ++ req.vcHash ++ ":" ++ req.nonce

/-- What becomes of a transaction that is sent.  One that is not confirmed in time is reported as
an error, and may land later. -/
inductive Sending
  | refused
  | confirmed
  | unconfirmed
deriving DecidableEq

/-- What the chain says of a signature.  It need not be that of a transaction of the registry. -/
inductive SignatureStatus
  | rpcError
  | unknown
  | confirmed
deriving DecidableEq

structure Outcome where
  sending : Sending
  /-- Whether the blockhash for a prepared transaction can be had. -/
  prepares : Bool
  status : SignatureStatus
  /-- A fresh `uuid`. -/
  uuid : String
  signature : String
  blockhash : String
  /-- The text of the error. -/
  error : String
deriving DecidableEq

structure Response where
  status : ℕ
  body : Json

namespace Response

def error (status : ℕ) (text : String) : Response := ⟨status, .object [("error", .string text)]⟩

def ok (members : List (String × Json)) : Response := ⟨200, .object members⟩

end Response

/-- `did:ignite:` at the start. -/
def hasDidFormat (did : String) : Prop := "did:ignite:".toList.isPrefixOf did.toList = true

instance (did : String) : Decidable (hasDidFormat did) := inferInstanceAs (Decidable (_ = true))

namespace Service

variable (r : Service)

/-! ### What the handlers share -/

def computeDidHash (did : String) : Bytes 32 := r.sha256 did

/-- A key in a request. -/
def parseKey (field text : String) : Except Response Pubkey :=
  orErr (parsePubkey text) (.error 400 ("Invalid " ++ field ++ ": " ++ r.pubkeyError text))

def hexToBytes32 (text : String) : Except String (Bytes 32) :=
  match Text.hexDecode text.toList with
  | none => .error ("Invalid hex: " ++ r.hexError text)
  | some bytes => orErr (exactly 32 bytes)
      ("Expected 32 bytes, got " ++ String.ofList (Text.decimal bytes.length))

/-- A hash in a request. -/
def parseHash (field text : String) : Except Response (Bytes 32) :=
  (r.hexToBytes32 text).mapError fun e => .error 400 ("Invalid " ++ field ++ ": " ++ e)

def parseSignature (field text : String) : Except Response (Bytes 64) :=
  orErr ((decodeBase58 text).bind (exactly 64))
    (.error 400 ("Invalid " ++ field ++ ": " ++ r.signatureError text))

/-- A signature of the platform, by the key that the configuration names. -/
def verifyConfiguredSignature (message signature_b64 : String) : Bool :=
  ((r.decodeBase64 r.config.platformPublicKey).bind (exactly 32)).any fun key =>
    (r.readSignature signature_b64).any fun sig => r.accepts key message sig

/-- A signature of the platform, by its signing key. -/
def verifyPlatformSignature (message signature_b64 : String) : Bool :=
  (r.readSignature signature_b64).any fun sig =>
    r.validSignature sig && r.verify r.platformKey message sig

/-- The nonce is consumed, also where the request then fails. -/
def withNonce (nonce : String) (refused : Response) (k : Handler State Response) :
    Handler State Response :=
  call (fun s => s.consumeNonce nonce) fun valid => check (valid = true) refused k

/-- `sign_vc_binding`. -/
def signVcBinding (credentialSubjectPk : Pubkey) (vcHash : Bytes 32)
    (k : Bytes 64 → Handler State Response) : Handler State Response :=
  modify (fun s => { s with bindings := (credentialSubjectPk, vcHash) :: s.bindings })
    (k (r.signBytes (Did.credentialMessage credentialSubjectPk vcHash)))

/-- `send_and_confirm_transaction`. -/
def submit (o : Outcome) (tx : Transaction) (s : State) : Except String String × State :=
  match o.sending with
  | .refused => (.error o.error, s)
  | .confirmed =>
    match Did.Service.execute r.runtime tx s.chain with
    | .ok chain => (.ok o.signature, { s with chain })
    | .error _ => (.error o.error, s)
  | .unconfirmed => (.error o.error, { s with pending := s.pending ++ [tx] })

/-- A sponsored transaction. -/
def send (o : Outcome) (tx : Transaction) (k : String → Handler State Response) :
    Handler State Response :=
  call (r.submit o tx) fun sent =>
    orAnswer (sent.mapError fun e => .error 500 ("On-chain error: " ++ e)) k

/-- A transaction for the merchant to sign and broadcast; `k` is what the handler still does. -/
def prepare (o : Outcome) (tx : Transaction)
    (k : Handler State Response → Handler State Response) : Handler State Response :=
  check (o.prepares = true) (.error 500 ("Prepare error: " ++ o.error)) <|
  modify (fun s => { s with pending := s.pending ++ [Did.Service.signed .selfOnchain tx] }) <|
  k (.answer (.ok [("transaction", .string (r.transactionText tx o.blockhash)),
    ("message", .string "sign and broadcast within 90 seconds; blockhash expires")]))

def withMerchant (did : String) (k : Option MerchantDidAccount → Handler State Response) :
    Handler State Response :=
  read (fun s => s.merchants.lookup (r.computeDidHash did)) k

/-- A merchant that has to be known. -/
def withKnownMerchant (did : String) (k : MerchantDidAccount → Handler State Response) :
    Handler State Response :=
  r.withMerchant did fun cached => orAnswer (orErr cached (.error 404 "Merchant not found")) k

def cache (did : String) (account : MerchantDidAccount) (k : Handler State Response) :
    Handler State Response :=
  modify (fun s => s.cacheMerchant (r.computeDidHash did) account) k

def charge (did operation : String) (feeLamports : UInt64) (k : Handler State Response) :
    Handler State Response :=
  modify (fun s => s.recordFee (r.computeDidHash did) operation feeLamports did) k

/-- The account of a DID that has just been registered. -/
def newAccount (activePubkey : Pubkey) (vcHash : Bytes 32) : MerchantDidAccount where
  originalPk := activePubkey
  controllerPk := activePubkey
  recoveryPk := defaultPubkey
  vcHash := vcHash
  lastUpdated := 0
  nonce := 0

/-! ### Merchants -/

/-- The transaction is sponsored, and the account cached, or it is prepared. -/
def registerOnchain (o : Outcome) (req : RegisterMerchantRequest) (activePubkey : Pubkey)
    (vcHash : Bytes 32) (platformSignature : Bytes 64) : Handler State Response :=
  match req.mode with
  | .sponsored =>
    r.send o (Did.Service.initializeDid .sponsored r.payer vcHash platformSignature activePubkey)
      fun signature =>
    r.cache req.merchantDid (newAccount activePubkey vcHash) <|
    r.charge req.merchantDid "register" r.config.registerFeeLamports <|
    .answer (.ok [("signature", .string signature)])
  | .selfOnchain =>
    r.prepare o
      (Did.Service.initializeDid .selfOnchain activePubkey vcHash platformSignature activePubkey) id

/-- `POST /v1/merchants/register`. -/
def registerMerchant (o : Outcome) (req : RegisterMerchantRequest) : Handler State Response :=
  check (hasDidFormat req.merchantDid) (.error 400 "Invalid DID format, expected did:ignite:...") <|
  withNonce req.nonce (.error 401 "Invalid or expired nonce") <|
  check (r.verifyDidSignature req.merchantDid req.message req.didSignature = true)
    (.error 401 "Invalid DID signature") <|
  orAnswer (r.parseKey "active_pubkey" req.activePubkey) fun activePubkey =>
  orAnswer (r.parseHash "platform_vc_hash" req.platformVcHash) fun vcHash =>
  r.signVcBinding activePubkey vcHash fun platformSignature =>
  r.registerOnchain o req activePubkey vcHash platformSignature

/-- The transaction is asked for, and the account of the request is cached. -/
def confirmOnchain (o : Outcome) (req : ConfirmRegisterRequest) (activePubkey : Pubkey)
    (vcHash : Bytes 32) : Handler State Response :=
  check (o.status ≠ .rpcError) (.error 500 ("RPC error: " ++ o.error)) <|
  check (o.status = .confirmed) (.error 404 "Transaction not confirmed on-chain") <|
  r.cache req.merchantDid (newAccount activePubkey vcHash) <|
  .answer (.ok [("status", .string "confirmed")])

/-- `POST /v1/merchants/confirm`. -/
def confirmRegister (o : Outcome) (req : ConfirmRegisterRequest) : Handler State Response :=
  check (hasDidFormat req.merchantDid) (.error 400 "Invalid DID format") <|
  withNonce req.nonce (.error 401 "Invalid or expired nonce") <|
  check (r.verifyDidSignature req.merchantDid req.message req.didSignature = true)
    (.error 401 "Invalid DID signature") <|
  orAnswer (r.parseKey "active_pubkey" req.activePubkey) fun activePubkey =>
  orAnswer (r.parseSignature "tx_signature" req.txSignature) fun _ =>
  orAnswer (r.parseHash "platform_vc_hash" req.platformVcHash) fun vcHash =>
  r.withMerchant req.merchantDid fun cached =>
  check (cached = none) (.ok [("status", .string "already_confirmed")]) <|
  r.confirmOnchain o req activePubkey vcHash

/-- The account as it is cached after a rotation. -/
def rotated (current : MerchantDidAccount) (newPubkey : Pubkey) : MerchantDidAccount :=
  { current with controllerPk := newPubkey, nonce := current.nonce + 1 }

/-- The recovery key is set to the new key. -/
def rotateOnchain (o : Outcome) (req : RotateKeyRequest) (newPubkey : Pubkey)
    (current : MerchantDidAccount) : Handler State Response :=
  match req.mode with
  | .sponsored =>
    r.send o (Did.Service.setRecoveryKey .sponsored r.payer newPubkey current.nonce) fun signature =>
    r.cache req.merchantDid (rotated current newPubkey) <|
    r.charge req.merchantDid "rotate_key" r.config.rotateKeyFeeLamports <|
    .answer (.ok [("signature", .string signature)])
  | .selfOnchain =>
    r.prepare o (Did.Service.setRecoveryKey .selfOnchain current.controllerPk newPubkey current.nonce)
      fun k => r.cache req.merchantDid (rotated current newPubkey) k

/-- `POST /v1/merchants/rotate-key`. -/
def rotateKey (o : Outcome) (req : RotateKeyRequest) : Handler State Response :=
  check (hasDidFormat req.merchantDid) (.error 400 "Invalid DID format") <|
  orAnswer (r.parseKey "new_active_pubkey" req.newActivePubkey) fun newPubkey =>
  withNonce req.nonce (.error 401 "Invalid or expired nonce") <|
  check (r.verifyDidSignature req.merchantDid req.message req.didSignature = true)
    (.error 401 "Invalid DID signature") <|
  r.withKnownMerchant req.merchantDid fun current =>
  r.rotateOnchain o req newPubkey current

/-- The account as it is cached after an update. -/
def updated (current : MerchantDidAccount) (newVcHash : Bytes 32) : MerchantDidAccount :=
  { current with vcHash := newVcHash, nonce := current.nonce + 1 }

def updateOnchain (o : Outcome) (req : UpdateVcRequest) (newVcHash : Bytes 32)
    (current : MerchantDidAccount) (platformSignature : Bytes 64) : Handler State Response :=
  match req.mode with
  | .sponsored =>
    r.send o (Did.Service.updateDidWithVc .sponsored r.payer newVcHash current.nonce platformSignature
      current.controllerPk) fun signature =>
    r.cache req.merchantDid (updated current newVcHash) <|
    r.charge req.merchantDid "update_vc" r.config.updateVcFeeLamports <|
    .answer (.ok [("signature", .string signature)])
  | .selfOnchain =>
    r.prepare o (Did.Service.updateDidWithVc .selfOnchain current.controllerPk newVcHash current.nonce
      platformSignature current.controllerPk) id

/-- `POST /v1/merchants/update-vc`. -/
def updateVc (o : Outcome) (req : UpdateVcRequest) : Handler State Response :=
  check (hasDidFormat req.merchantDid) (.error 400 "Invalid DID format") <|
  orAnswer (r.parseHash "new_vc_hash" req.newVcHash) fun newVcHash =>
  withNonce req.nonce (.error 401 "Invalid or expired nonce") <|
  check (r.verifyConfiguredSignature req.message req.platformSignature = true)
    (.error 401 "Invalid platform signature") <|
  r.withKnownMerchant req.merchantDid fun current =>
  r.signVcBinding current.controllerPk newVcHash fun platformSignature =>
  r.updateOnchain o req newVcHash current platformSignature

/-! ### Credentials -/

/-- The dates that `chrono` has. -/
def IsDate (t : ℤ) : Prop := -8334601228800000 ≤ t ∧ t ≤ 8210266876799999

instance (t : ℤ) : Decidable (IsDate t) := inferInstanceAs (Decidable (_ ∧ _))

/-- A year, if the request does not say; a number of hours is read as one with a sign. -/
def expiration (now : ℕ) (validityHours : Option UInt64) : ℤ :=
  now + (validityHours.getD 8760).toInt64.toInt * 3600000

def credential (now : ℕ) (uuid : String) (req : IssueVcRequest) : VerifiableCredential :=
  r.sign r.signText now (r.platformDid ++ "#key-signing-1") {
    context := ["https://www.w3.org/2018/credentials/v1", "https://ignite-pay.com/credentials/v1"]
    id := "urn:uuid:" ++ uuid
    credentialType := ["VerifiableCredential", "MerchantAttestation"]
    issuer := r.platformDid
    issuanceDate := now
    expirationDate := expiration now req.validityHours
    credentialSubject := ⟨req.merchantDid, req.merchantName, req.category⟩
    credentialStatus := some ⟨"IgniteVcRevocationRegistry", r.didProgramId⟩
    proof := ⟨"", now, "", "", ""⟩ }

/-- The credential is stored under its hash. -/
def saveVc (vc : VerifiableCredential) (s : State) : State :=
  { s with
    vcs := s.vcs.insert (hexEncode (r.vcHash vc).val) (r.vcText vc)
    issued := vc :: s.issued }

/-- A DID that is known may be served only if its key is a key of the account. -/
def authorize (did : String) (cached : Option MerchantDidAccount) (k : Handler State Response) :
    Handler State Response :=
  match cached with
  | none => k
  | some account =>
    orAnswer (orErr (extractPubkeyFromDid did) (.error 400 "cannot extract pubkey from DID"))
      fun didPk =>
    check (account.controllerPk = didPk ∨ account.originalPk = didPk)
      (.error 403 "not authorized: signer is not controller or original key") k

/-- `POST /v1/vc/issue`.  A date out of range ends the request without a response. -/
def issueVc (o : Outcome) (req : IssueVcRequest) : Handler State Response :=
  check (hasDidFormat req.merchantDid) (.error 400 "merchant_did must start with did:ignite:") <|
  withNonce req.nonce (.error 400 "invalid or expired nonce") <|
  check (r.verifyDidSignature req.merchantDid req.message req.didSignature = true)
    (.error 401 "invalid DID signature") <|
  r.withMerchant req.merchantDid fun cached =>
  authorize req.merchantDid cached <|
  read State.clock fun now =>
  check (IsDate (expiration now req.validityHours)) ⟨0, .null⟩ <|
  modify (r.saveVc (r.credential now o.uuid req)) <|
  .answer (.ok [("verifiable_credential", r.json (r.credential now o.uuid req)),
    ("vc_hash", .string (hexEncode (r.vcHash (r.credential now o.uuid req)).val))])

/-- `mark_vc_revoked`; nothing reads it. -/
def markVcRevoked (req : RevokeVcRequest) (s : State) : State :=
  let value : Json := .object [("vc_hash", .string req.vcHash),
    ("credential_subject_pk", .string req.credentialSubjectPk),
    ("reason", .integer req.reason.toNat), ("revoked_at", .string (r.dateText s.clock))]
  { s with revokedVcs := s.revokedVcs.insert req.vcHash value }

/-- `POST /v1/vc/revoke`. -/
def revokeVc (o : Outcome) (req : RevokeVcRequest) : Handler State Response :=
  orAnswer (r.parseHash "vc_hash" req.vcHash) fun vcHash =>
  orAnswer (r.parseKey "credential_subject_pk" req.credentialSubjectPk) fun credentialSubjectPk =>
  withNonce req.nonce (.error 401 "Invalid or expired nonce") <|
  check (r.verifyPlatformSignature req.message req.platformSignature = true)
    (.error 401 "Invalid platform signature") <|
  r.send o (Did.Service.revokeVc r.payer vcHash credentialSubjectPk req.reason) fun signature =>
  modify (r.markVcRevoked req) <|
  .answer (.ok [("signature", .string signature),
    ("revoked_vc_pda", .string (r.revokedVcAddress vcHash))])

/-- What a profile says. -/
def profileResponse (did : String) (verified : Bool) (name category : Option String) : Response :=
  .ok [("did", .string did), ("verified", .bool verified), ("name", Library.optional name),
    ("category", Library.optional category)]

/-- A text in the subject of a credential. -/
def subjectText (vc : Json) (field : String) : Option String :=
  (vc.get "credential_subject").bind fun subject => (subject.get field).bind Json.asString

/-- `GET /v1/merchants/profile/{did}`. -/
def merchantProfile (did : String) : Handler State Response :=
  check (hasDidFormat did) (.error 400 "Invalid DID format") <|
  r.withKnownMerchant did fun cached =>
  check (cached.vcHash ≠ fill 32 0) (profileResponse did false none none) <|
  read (fun s => s.vcs.lookup (hexEncode cached.vcHash.val)) fun stored =>
  orAnswer (orErr stored (profileResponse did false none none)) fun text =>
  orAnswer ((r.parseJson text).mapError fun _ => .error 500 "Failed to parse VC") fun vc =>
  .answer (profileResponse did true (subjectText vc "name") (subjectText vc "category"))

/-! ### The system -/

/-- The transaction at the place lands: it succeeds, or it has no effect. -/
def land (n : ℕ) (s : State) : State :=
  match s.pending[n]? with
  | none => s
  | some tx => { s with
      pending := s.pending.eraseIdx n
      chain := (Did.Service.execute r.runtime tx s.chain).toOption.getD s.chain }

end Service

inductive Call
  | issueNonce (nonce : String)
  | registerMerchant (o : Outcome) (req : RegisterMerchantRequest)
  | confirmRegister (o : Outcome) (req : ConfirmRegisterRequest)
  | rotateKey (o : Outcome) (req : RotateKeyRequest)
  | updateVc (o : Outcome) (req : UpdateVcRequest)
  | issueVc (o : Outcome) (req : IssueVcRequest)
  | revokeVc (o : Outcome) (req : RevokeVcRequest)
  | merchantProfile (did : String)
  /-- The transaction at the place lands, or expires. -/
  | lands (n : ℕ)
  | expires (n : ℕ)
  | ticks (clock : ℕ)
deriving DecidableEq

/-- What is not a request is answered with nothing. -/
def noResponse : Response := ⟨0, .null⟩

namespace Service

variable (r : Service)

def handle : Call → Handler State Response
  | .issueNonce nonce => modify (fun s => s.issueNonce nonce) (.answer
      (.ok [("nonce", .string nonce), ("expires_in", .integer 300)]))
  | .registerMerchant o req => r.registerMerchant o req
  | .confirmRegister o req => r.confirmRegister o req
  | .rotateKey o req => r.rotateKey o req
  | .updateVc o req => r.updateVc o req
  | .issueVc o req => r.issueVc o req
  | .revokeVc o req => r.revokeVc o req
  | .merchantProfile did => r.merchantProfile did
  | .lands n => modify (r.land n) (.answer noResponse)
  | .expires n => modify (fun s => { s with pending := s.pending.eraseIdx n }) (.answer noResponse)
  | .ticks clock => modify (fun s => { s with clock }) (.answer noResponse)

/-- One request after the other. -/
def exec (c : Call) (s : State) : Except Unit State := .ok ((r.handle c).run s).2

end Service

end Registry
