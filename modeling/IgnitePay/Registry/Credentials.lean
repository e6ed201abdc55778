/-
Verifiable credentials (`ignite-pay-core/src/types.rs`, `vc.rs`).

The platform signs a credential without its proof, written with the members of every object in
order of their names.  What is hashed is the whole credential, proof included, written in the order
of the fields.  A date counts instants, in the unit that its text tells apart.
-/
import IgnitePay.Did.Service
import IgnitePay.Router.Auth

namespace Registry

open Machine Bytes Solana
open Router (Primitives)

/-- What the registry and those who verify credentials use from outside. -/
structure Library extends Primitives where
  /-- SHA-256 of a text in UTF-8. -/
  sha256 : String → Bytes 32
  encodeBase64 : List UInt8 → String
  /-- `serde_json::to_string`. -/
  jsonText : Json → String
  /-- A date as `serde` writes it, and as it reads it. -/
  dateText : ℤ → String
  parseDate : String → Option ℤ
  verifyStrict : Pubkey → String → Bytes 64 → Bool

structure VCCredentialSubject where
  /-- The merchant's DID. -/
  id : String
  name : String
  category : Option String
deriving DecidableEq

structure VCProof where
  proofType : String
  created : ℤ
  proofPurpose : String
  verificationMethod : String
  /-- The signature, in base64. -/
  proofValue : String
deriving DecidableEq

structure CredentialStatus where
  statusType : String
  programId : String
deriving DecidableEq

structure VerifiableCredential where
  context : List String
  id : String
  credentialType : List String
  issuer : String
  issuanceDate : ℤ
  expirationDate : ℤ
  credentialSubject : VCCredentialSubject
  credentialStatus : Option CredentialStatus
  proof : VCProof
deriving DecidableEq

namespace Library

variable (c : Library)

/-! ### As JSON -/

/-- `null` where there is none. -/
def optional (s : Option String) : Json := (s.map Json.string).getD .null

def texts (l : List String) : Json := .array (l.map Json.string)

/-- The members, as they are written. -/
def members (vc : VerifiableCredential) : List (String × Json) :=
  [("@context", texts vc.context), ("id", .string vc.id), ("type", texts vc.credentialType),
    ("issuer", .string vc.issuer), ("issuance_date", .string (c.dateText vc.issuanceDate)),
    ("expiration_date", .string (c.dateText vc.expirationDate)),
    ("credential_subject", .object [("id", .string vc.credentialSubject.id),
      ("name", .string vc.credentialSubject.name),
      ("category", optional vc.credentialSubject.category)])] ++
  (vc.credentialStatus.map fun status => ("credential_status", Json.object
    [("type", .string status.statusType), ("program_id", .string status.programId)])).toList ++
  [("proof", .object [("proof_type", .string vc.proof.proofType),
    ("created", .string (c.dateText vc.proof.created)),
    ("proof_purpose", .string vc.proof.proofPurpose),
    ("verification_method", .string vc.proof.verificationMethod),
    ("proof_value", .string vc.proof.proofValue)])]

def json (vc : VerifiableCredential) : Json := .object (c.members vc)

/-- `serde_json::to_vec`. -/
def vcText (vc : VerifiableCredential) : String := c.jsonText (c.json vc)

/-- Everything but the proof, in order of the names. -/
def payload (vc : VerifiableCredential) : Json := .object (
  [("@context", texts vc.context)] ++
  (vc.credentialStatus.map fun status => ("credential_status", Json.object
    [("program_id", .string status.programId), ("type", .string status.statusType)])).toList ++
  [("credential_subject", .object [("category", optional vc.credentialSubject.category),
      ("id", .string vc.credentialSubject.id), ("name", .string vc.credentialSubject.name)]),
    ("expiration_date", .string (c.dateText vc.expirationDate)), ("id", .string vc.id),
    ("issuance_date", .string (c.dateText vc.issuanceDate)), ("issuer", .string vc.issuer),
    ("type", texts vc.credentialType)])

/-- The canonical form that gets signed. -/
def signingPayload (vc : VerifiableCredential) : String := c.jsonText (c.payload vc)

/-- The hash that a revocation names. -/
def vcHash (vc : VerifiableCredential) : Bytes 32 := c.sha256 (c.vcText vc)

/-! ### Signing -/

/-- A credential with a signature by the key; `now` is when the proof is made. -/
def sign (signText : String → Bytes 64) (now : ℤ) (verificationMethod : String)
    (unsigned : VerifiableCredential) : VerifiableCredential :=
  { unsigned with
    proof := {
      proofType := "Ed25519Signature2020"
      created := now
      proofPurpose := "assertionMethod"
      verificationMethod
      proofValue := c.encodeBase64 (signText (c.signingPayload unsigned)).val } }

/-! ### Reading -/

/-- A member that is a text. -/
def textOf (v : Json) (name : String) : Option String := (v.get name).bind Json.asString

/-- An `Option<String>`: it may be absent or `null`. -/
def optionalTextOf (v : Json) (name : String) : Option (Option String) :=
  match v.get name with
  | none => some none
  | some .null => some none
  | some (.string s) => some (some s)
  | some _ => none

def textsOf (v : Json) (name : String) : Option (List String) :=
  ((v.get name).bind Json.asArray).bind fun items => items.mapM Json.asString

def dateOf (v : Json) (name : String) : Option ℤ := (textOf v name).bind c.parseDate

def readSubject (v : Json) : Option VCCredentialSubject := do
  let id ← textOf v "id"
  let name ← textOf v "name"
  let category ← optionalTextOf v "category"
  some ⟨id, name, category⟩

def readStatus (v : Json) : Option CredentialStatus := do
  let statusType ← textOf v "type"
  let programId ← textOf v "program_id"
  some ⟨statusType, programId⟩

/-- The status may be absent or `null`. -/
def readOptionalStatus (v : Json) : Option (Option CredentialStatus) :=
  match v.get "credential_status" with
  | none => some none
  | some .null => some none
  | some status => (readStatus status).map some

def readProof (v : Json) : Option VCProof := do
  let proofType ← textOf v "proof_type"
  let created ← c.dateOf v "created"
  let proofPurpose ← textOf v "proof_purpose"
  let verificationMethod ← textOf v "verification_method"
  let proofValue ← textOf v "proof_value"
  some ⟨proofType, created, proofPurpose, verificationMethod, proofValue⟩

/-- `serde_json::from_value`. -/
def readCredential (v : Json) : Option VerifiableCredential := do
  let context ← textsOf v "@context"
  let id ← textOf v "id"
  let credentialType ← textsOf v "type"
  let issuer ← textOf v "issuer"
  let issuanceDate ← c.dateOf v "issuance_date"
  let expirationDate ← c.dateOf v "expiration_date"
  let credentialSubject ← (v.get "credential_subject").bind readSubject
  let credentialStatus ← readOptionalStatus v
  let proof ← (v.get "proof").bind c.readProof
  some ⟨context, id, credentialType, issuer, issuanceDate, expirationDate, credentialSubject,
    credentialStatus, proof⟩

/-! ### Verifying -/

inductive VCError
  | expired
  | issuerMismatch (expected actual : String)
  | decodingError
  | invalidSignature
deriving DecidableEq

/-- The expiry, the issuer and the signature. -/
def verifyCredential (now : ℤ) (platformVerifyingKey : Pubkey) (expectedIssuer : String)
    (vc : VerifiableCredential) : Except VCError Unit := do
  require (now ≤ vc.expirationDate) .expired
  require (vc.issuer = expectedIssuer) (.issuerMismatch expectedIssuer vc.issuer)
  require (c.validKey platformVerifyingKey = true) .decodingError
  let proofBytes ← orErr (c.decodeBase64 vc.proof.proofValue) .decodingError
  let sig ← orErr (Agent.exactly 64 proofBytes) .invalidSignature
  require (c.verifyStrict platformVerifyingKey (c.signingPayload vc) sig = true) .invalidSignature

/-- A text is accepted as the credential. -/
def Accepts (now : ℤ) (platformVerifyingKey : Pubkey) (expectedIssuer : String) (text : String)
    (vc : VerifiableCredential) : Prop :=
  ∃ v, c.parseJson text = .ok v ∧ c.readCredential v = some vc ∧
    c.verifyCredential now platformVerifyingKey expectedIssuer vc = .ok ()

/-! ### What is read back -/

theorem mapM_asString (l : List String) : (l.map Json.string).mapM Json.asString = some l := by
  rw [List.mapM_map]
  show l.mapM (fun s => pure (id s)) = some l
  rw [List.mapM_pure, List.map_id]
  rfl

theorem readSubject_json (subject : VCCredentialSubject) :
    readSubject (.object [("id", .string subject.id), ("name", .string subject.name),
      ("category", optional subject.category)]) = some subject := by
  obtain ⟨id, name, category⟩ := subject
  cases category with
  | none => rfl
  | some category => rfl

variable {c}

theorem readProof_json {proof : VCProof}
    (hdate : c.parseDate (c.dateText proof.created) = some proof.created) :
    c.readProof (.object [("proof_type", .string proof.proofType),
      ("created", .string (c.dateText proof.created)), ("proof_purpose", .string proof.proofPurpose),
      ("verification_method", .string proof.verificationMethod),
      ("proof_value", .string proof.proofValue)]) = some proof := by
  set v := Json.object _
  have htype : textOf v "proof_type" = some proof.proofType := rfl
  have hcreated : c.dateOf v "created" = some proof.created := hdate
  have hpurpose : textOf v "proof_purpose" = some proof.proofPurpose := rfl
  have hmethod : textOf v "verification_method" = some proof.verificationMethod := rfl
  have hvalue : textOf v "proof_value" = some proof.proofValue := rfl
  rw [readProof, htype, hcreated, hpurpose, hmethod, hvalue]
  rfl

theorem readStatus_json (vc : VerifiableCredential) :
    readOptionalStatus (c.json vc) = some vc.credentialStatus := by
  obtain ⟨_, _, _, _, _, _, _, status, _⟩ := vc
  cases status with
  | none => rfl
  | some status => rfl

theorem get_proof (vc : VerifiableCredential) :
    (c.json vc).get "proof" = some (.object [("proof_type", .string vc.proof.proofType),
      ("created", .string (c.dateText vc.proof.created)),
      ("proof_purpose", .string vc.proof.proofPurpose),
      ("verification_method", .string vc.proof.verificationMethod),
      ("proof_value", .string vc.proof.proofValue)]) := by
  obtain ⟨_, _, _, _, _, _, _, status, _⟩ := vc
  cases status with
  | none => rfl
  | some status => rfl

/-- A credential is read back from its JSON, if its dates are. -/
theorem readCredential_json {vc : VerifiableCredential}
    (hissuance : c.parseDate (c.dateText vc.issuanceDate) = some vc.issuanceDate)
    (hexpiration : c.parseDate (c.dateText vc.expirationDate) = some vc.expirationDate)
    (hcreated : c.parseDate (c.dateText vc.proof.created) = some vc.proof.created) :
    c.readCredential (c.json vc) = some vc := by
  have hcontext : textsOf (c.json vc) "@context" = some vc.context := mapM_asString vc.context
  have hid : textOf (c.json vc) "id" = some vc.id := rfl
  have htype : textsOf (c.json vc) "type" = some vc.credentialType :=
    mapM_asString vc.credentialType
  have hissuer : textOf (c.json vc) "issuer" = some vc.issuer := rfl
  have hissued : c.dateOf (c.json vc) "issuance_date" = some vc.issuanceDate := hissuance
  have hexpires : c.dateOf (c.json vc) "expiration_date" = some vc.expirationDate := hexpiration
  have hsubject : ((c.json vc).get "credential_subject").bind readSubject
      = some vc.credentialSubject := readSubject_json vc.credentialSubject
  rw [readCredential, hcontext, hid, htype, hissuer, hissued, hexpires, hsubject,
    readStatus_json, get_proof, Option.bind_some, readProof_json hcreated]
  rfl

end Library

end Registry
