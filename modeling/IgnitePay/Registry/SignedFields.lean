/-
What the signature of a credential covers (`ignite-pay-core/src/vc.rs`).

Signer and verifier each write the credential anew, without its proof.  What is written is read
back, so that the verifier of a credential that was read writes what the signer has written; and
two credentials of which the same is written have the same fields, but for their proofs.

* `verifyCredential_sign` — a signed credential verifies up to its expiration date, and no longer;
* `payload_inj` — every field but the proof is in what is signed;
* `credential_intact` — what was signed is read back and verifies; two credentials that verify with
  one signature under one key agree in all that is signed.
-/
import IgnitePay.Registry.Revocation

namespace Registry

open Bytes Machine
open Solana (Pubkey)

namespace Library

variable {c : Library}

/-! ### What is signed -/

/-- The fields that are signed are the same. -/
structure SameSigned (vc vc' : VerifiableCredential) : Prop where
  context : vc.context = vc'.context
  id : vc.id = vc'.id
  credentialType : vc.credentialType = vc'.credentialType
  issuer : vc.issuer = vc'.issuer
  issuanceDate : vc.issuanceDate = vc'.issuanceDate
  expirationDate : vc.expirationDate = vc'.expirationDate
  credentialSubject : vc.credentialSubject = vc'.credentialSubject
  credentialStatus : vc.credentialStatus = vc'.credentialStatus

variable (c) in
/-- `serde_json` and `chrono` read back what they write for the signature of the credential. -/
structure HandlesSigned (vc : VerifiableCredential) : Prop where
  payload : c.parseJson (c.signingPayload vc) = .ok (c.payload vc)
  issuance : c.parseDate (c.dateText vc.issuanceDate) = some vc.issuanceDate
  expiration : c.parseDate (c.dateText vc.expirationDate) = some vc.expirationDate

variable (c) in
/-- And what they write of the whole of it. -/
structure Handles (vc : VerifiableCredential) : Prop extends c.HandlesSigned vc where
  text : c.parseJson (c.vcText vc) = .ok (c.json vc)
  created : c.parseDate (c.dateText vc.proof.created) = some vc.proof.created

theorem texts_inj {l l' : List String} (h : texts l = texts l') : l = l' := by
  have hitems : l.map Json.string = l'.map Json.string := Json.array.inj h
  exact List.map_injective_iff.mpr (fun s s' hs => Json.string.inj hs) hitems

theorem optional_inj {s s' : Option String} (h : optional s = optional s') : s = s' := by
  cases s with
  | none =>
    cases s' with
    | none => rfl
    | some t => exact absurd h (by simp [optional])
  | some t =>
    cases s' with
    | none => exact absurd h (by simp [optional])
    | some t' => exact congrArg some (Json.string.inj h)

theorem subject_eq {subject subject' : VCCredentialSubject} (hid : subject.id = subject'.id)
    (hname : subject.name = subject'.name) (hcategory : subject.category = subject'.category) :
    subject = subject' := by
  obtain ⟨id, name, category⟩ := subject
  obtain ⟨id', name', category'⟩ := subject'
  obtain ⟨rfl, rfl, rfl⟩ : id = id' ∧ name = name' ∧ category = category' := ⟨hid, hname, hcategory⟩
  rfl

/-- The members after the status. -/
def membersAfterStatus (c : Library) (vc : VerifiableCredential) : List (String × Json) :=
  [("credential_subject", .object [("category", optional vc.credentialSubject.category),
      ("id", .string vc.credentialSubject.id), ("name", .string vc.credentialSubject.name)]),
    ("expiration_date", .string (c.dateText vc.expirationDate)), ("id", .string vc.id),
    ("issuance_date", .string (c.dateText vc.issuanceDate)), ("issuer", .string vc.issuer),
    ("type", texts vc.credentialType)]

theorem payload_eq (vc : VerifiableCredential) : c.payload vc = .object (("@context", texts vc.context) ::
    ((vc.credentialStatus.map fun status => ("credential_status", Json.object
      [("program_id", .string status.programId), ("type", .string status.statusType)])).toList ++
    c.membersAfterStatus vc)) := rfl

theorem dateText_inj {d d' : ℤ} (hd : c.parseDate (c.dateText d) = some d)
    (hd' : c.parseDate (c.dateText d') = some d') (h : c.dateText d = c.dateText d') : d = d' := by
  rw [h, hd'] at hd
  exact (Option.some_inj.mp hd).symm

/-- What is signed has every field but the proof. -/
theorem payload_inj {vc vc' : VerifiableCredential} (hvc : c.HandlesSigned vc)
    (hvc' : c.HandlesSigned vc')
    (h : c.payload vc = c.payload vc') : SameSigned vc vc' := by
  rw [payload_eq, payload_eq] at h
  obtain ⟨hcontext, hrest⟩ := List.cons_eq_cons.mp (Json.object.inj h)
  have hname : "credential_subject" ≠ "credential_status" := by decide
  -- Without a status, the subject is where the status would be.
  have hsplit : vc.credentialStatus = vc'.credentialStatus ∧
      c.membersAfterStatus vc = c.membersAfterStatus vc' := by
    rcases hs : vc.credentialStatus with _ | status <;>
      rcases hs' : vc'.credentialStatus with _ | status'
    · rw [hs, hs'] at hrest
      exact ⟨rfl, hrest⟩
    · rw [hs, hs'] at hrest
      exact absurd (congrArg Prod.fst (List.cons_eq_cons.mp hrest).1) hname
    · rw [hs, hs'] at hrest
      exact absurd (congrArg Prod.fst (List.cons_eq_cons.mp hrest).1) hname.symm
    · rw [hs, hs'] at hrest
      obtain ⟨hstatus, hafter⟩ := List.cons_eq_cons.mp hrest
      simp only [Prod.mk.injEq, Json.object.injEq, List.cons.injEq, Json.string.injEq, true_and,
        and_true] at hstatus
      refine ⟨congrArg some ?_, hafter⟩
      obtain ⟨statusType, programId⟩ := status
      obtain ⟨statusType', programId'⟩ := status'
      obtain ⟨rfl, rfl⟩ := hstatus
      rfl
  obtain ⟨hstatus, hafter⟩ := hsplit
  simp only [membersAfterStatus, List.cons.injEq, Prod.mk.injEq, Json.object.injEq,
    Json.string.injEq, true_and, and_true] at hafter
  obtain ⟨⟨hcategory, hsubject, hsubjectName⟩, hexpiration, hid, hissuance, hissuer, htype⟩ := hafter
  constructor
  · exact texts_inj (congrArg Prod.snd hcontext)
  · exact hid
  · exact texts_inj htype
  · exact hissuer
  · exact dateText_inj hvc.issuance hvc'.issuance hissuance
  · exact dateText_inj hvc.expiration hvc'.expiration hexpiration
  · exact subject_eq hsubject hsubjectName (optional_inj hcategory)
  · exact hstatus

/-! ### Signing and verifying -/

/-- What is signed does not depend on the proof. -/
theorem signingPayload_sign (signText : String → Bytes 64) (now : ℤ) (verificationMethod : String)
    (unsigned : VerifiableCredential) :
    c.signingPayload (c.sign signText now verificationMethod unsigned) = c.signingPayload unsigned := rfl

theorem verifyCredential_eq_ok {now : ℤ} {key : Pubkey} {issuer : String} {vc : VerifiableCredential} :
    c.verifyCredential now key issuer vc = .ok () ↔
      now ≤ vc.expirationDate ∧ vc.issuer = issuer ∧ c.validKey key = true ∧
        ∃ sig, c.readSignature vc.proof.proofValue = some sig ∧
          c.verifyStrict key (c.signingPayload vc) sig = true := by
  simp only [verifyCredential, bind_eq_ok, require_eq_ok, orErr_eq_ok, exists_const,
    Router.Primitives.readSignature, Option.bind_eq_some_iff]
  constructor
  · rintro ⟨htime, hissuer, hkey, proofBytes, hbytes, sig, hsig, hverify⟩
    exact ⟨htime, hissuer, hkey, sig, ⟨proofBytes, hbytes, hsig⟩, hverify⟩
  · rintro ⟨htime, hissuer, hkey, sig, ⟨proofBytes, hbytes, hsig⟩, hverify⟩
    exact ⟨htime, hissuer, hkey, proofBytes, hbytes, sig, hsig, hverify⟩

/-- A signed credential verifies up to its expiration date, and no longer. -/
theorem verifyCredential_sign {signText : String → Bytes 64} {now : ℤ} {verificationMethod : String}
    {unsigned : VerifiableCredential} {key : Pubkey} (hkey : c.validKey key = true)
    (hsign : c.verifyStrict key (c.signingPayload unsigned)
      (signText (c.signingPayload unsigned)) = true)
    (hbase64 : c.decodeBase64 (c.encodeBase64 (signText (c.signingPayload unsigned)).val) =
      some (signText (c.signingPayload unsigned)).val) (t : ℤ) :
    c.verifyCredential t key unsigned.issuer (c.sign signText now verificationMethod unsigned) = .ok () ↔
      t ≤ unsigned.expirationDate := by
  rw [verifyCredential_eq_ok, signingPayload_sign]
  constructor
  · rintro ⟨htime, -⟩
    exact htime
  · intro htime
    have hexact : Agent.exactly 64 (signText (c.signingPayload unsigned)).val =
        some (signText (c.signingPayload unsigned)) :=
      dif_pos (signText (c.signingPayload unsigned)).property
    refine ⟨htime, rfl, hkey, signText (c.signingPayload unsigned), ?_, hsign⟩
    exact Option.bind_eq_some_iff.mpr ⟨_, hbase64, hexact⟩

end Library

open Library

/-- A credential that is signed is read back from its text and verifies with the key and the DID of
its issuer up to its expiration date, and no longer; two credentials that verify under one key with
one signature are the same in all that is signed.  The signature is ideal: one that the key makes
verifies, and one that verifies does so for one message. -/
theorem credential_intact (c : Library) {key : Pubkey} (hkey : c.validKey key = true)
    (hideal : ∀ sig message message', c.verifyStrict key message sig = true →
      c.verifyStrict key message' sig = true → message' = message) :
    (∀ (signText : String → Bytes 64) (now : ℤ) (verificationMethod : String)
      (unsigned : VerifiableCredential),
      c.verifyStrict key (c.signingPayload unsigned) (signText (c.signingPayload unsigned)) = true →
      c.decodeBase64 (c.encodeBase64 (signText (c.signingPayload unsigned)).val) =
        some (signText (c.signingPayload unsigned)).val →
      c.Handles (c.sign signText now verificationMethod unsigned) →
        ∃ v, c.parseJson (c.vcText (c.sign signText now verificationMethod unsigned)) = .ok v ∧
          c.readCredential v = some (c.sign signText now verificationMethod unsigned) ∧
          ∀ t, c.verifyCredential t key unsigned.issuer
            (c.sign signText now verificationMethod unsigned) = .ok () ↔ t ≤ unsigned.expirationDate) ∧
    ∀ (vc vc' : VerifiableCredential) (t t' : ℤ) (issuer issuer' : String),
      c.HandlesSigned vc → c.HandlesSigned vc' →
      c.verifyCredential t key issuer vc = .ok () → c.verifyCredential t' key issuer' vc' = .ok () →
        vc.proof.proofValue = vc'.proof.proofValue → SameSigned vc vc' := by
  constructor
  · intro signText now verificationMethod unsigned hsign hbase64 hhandles
    refine ⟨_, hhandles.text, ?_, fun t => verifyCredential_sign hkey hsign hbase64 t⟩
    exact Library.readCredential_json hhandles.issuance hhandles.expiration hhandles.created
  · intro vc vc' t t' issuer issuer' hvc hvc' hverify hverify' hproof
    obtain ⟨-, -, -, sig, hsig, hverify⟩ := verifyCredential_eq_ok.mp hverify
    obtain ⟨-, -, -, sig', hsig', hverify'⟩ := verifyCredential_eq_ok.mp hverify'
    -- One text is decoded to one signature, and that verifies for one payload.
    rw [← hproof, hsig] at hsig'
    obtain rfl := Option.some_inj.mp hsig'
    have hpayload : c.signingPayload vc' = c.signingPayload vc := hideal sig _ _ hverify hverify'
    have hread := hvc'.payload
    rw [hpayload, hvc.payload] at hread
    exact payload_inj hvc hvc' (Except.ok.inj hread)

namespace SignedSample

open RevokedSample (credential unsigned signature text platformDid now expiry)

/-- `serde_json` also reads what is signed. -/
def library : Library where
  __ := RevokedSample.service.toLibrary
  parseJson t :=
    if t = RevokedSample.payload then .ok (RevokedSample.writer.payload unsigned)
    else RevokedSample.service.parseJson t

def signText (_ : String) : Bytes 64 := signature

def signed : VerifiableCredential :=
  library.sign signText now (platformDid ++ "#key-signing-1") unsigned

theorem text_ne_payload : text ≠ RevokedSample.payload := by
  decide

theorem signed_eq : signed = credential := by
  decide

/-- Another proof around the same signature. -/
def reproved : VerifiableCredential :=
  { credential with proof := ⟨"", expiry, "", "", RevokedSample.signature_b64⟩ }

theorem signingPayload_signed {proof : VCProof} :
    library.signingPayload { credential with proof } = RevokedSample.payload :=
  RevokedSample.signingPayload_credential

theorem parseJson_payload {t : String} (h : t = RevokedSample.payload) :
    library.parseJson t = .ok (RevokedSample.writer.payload unsigned) := if_pos h

theorem parseJson_of_ne {t : String} (h : t ≠ RevokedSample.payload) :
    library.parseJson t = RevokedSample.service.parseJson t := if_neg h

theorem handlesSigned {proof : VCProof} : library.HandlesSigned { credential with proof } where
  payload := parseJson_payload signingPayload_signed
  issuance := RevokedSample.readsBack.issuance
  expiration := RevokedSample.readsBack.expiration

theorem handles : library.Handles credential where
  toHandlesSigned := handlesSigned
  text := by
    have htext : library.vcText credential = text := RevokedSample.vcText_credential
    rw [htext, parseJson_of_ne text_ne_payload]
    exact RevokedSample.parseJson_text (.inl rfl)
  created := RevokedSample.readsBack.created

theorem ideal {sig : Bytes 64} {message message' : String}
    (h : library.verifyStrict Did.Sample.platformKey message sig = true)
    (h' : library.verifyStrict Did.Sample.platformKey message' sig = true) : message' = message := by
  obtain ⟨-, hmessage, -⟩ := of_decide_eq_true h
  obtain ⟨-, hmessage', -⟩ := of_decide_eq_true h'
  exact hmessage'.trans hmessage.symm

theorem verifies {message : String} (h : message = RevokedSample.payload) :
    library.verifyStrict Did.Sample.platformKey message signature = true :=
  decide_eq_true ⟨rfl, h, rfl⟩

theorem encodes {b : List UInt8} (h : b = signature.val) :
    library.encodeBase64 b = RevokedSample.signature_b64 := if_pos h

theorem decodes : library.decodeBase64 RevokedSample.signature_b64 = some signature.val := by
  show RevokedSample.decodeBase64 RevokedSample.signature_b64 = _
  rw [RevokedSample.decodeBase64, if_pos rfl]

theorem verified {proof : VCProof} (hproof : proof.proofValue = RevokedSample.signature_b64) :
    library.verifyCredential now Did.Sample.platformKey platformDid { credential with proof } = .ok () := by
  have htime : (now : ℤ) ≤ expiry := by decide
  have hexact : Agent.exactly 64 signature.val = some signature := dif_pos signature.property
  refine verifyCredential_eq_ok.mpr ⟨htime, rfl, rfl, signature, ?_, ?_⟩
  · show library.readSignature proof.proofValue = _
    rw [hproof]
    exact Option.bind_eq_some_iff.mpr ⟨_, decodes, hexact⟩
  · exact verifies signingPayload_signed

end SignedSample

/-- The credential of a café is read back and verifies until it expires; and what is in another
proof around its signature is the same. -/
theorem credential_intact_cafe :
    (∃ v, SignedSample.library.parseJson (SignedSample.library.vcText SignedSample.signed) = .ok v ∧
      SignedSample.library.readCredential v = some SignedSample.signed ∧
      SignedSample.library.verifyCredential RevokedSample.expiry Did.Sample.platformKey
        RevokedSample.platformDid SignedSample.signed = .ok () ∧
      SignedSample.library.verifyCredential (RevokedSample.expiry + 1) Did.Sample.platformKey
        RevokedSample.platformDid SignedSample.signed ≠ .ok ()) ∧
    SameSigned RevokedSample.credential SignedSample.reproved := by
  obtain ⟨hsigned, hsame⟩ := @credential_intact SignedSample.library Did.Sample.platformKey rfl
    fun sig message message' => SignedSample.ideal
  constructor
  · have hhandles : SignedSample.library.Handles SignedSample.signed := by
      rw [SignedSample.signed_eq]
      exact SignedSample.handles
    have hdecode := (congrArg SignedSample.library.decodeBase64 (SignedSample.encodes rfl)).trans
      SignedSample.decodes
    obtain ⟨v, hparse, hread, hverify⟩ := hsigned SignedSample.signText RevokedSample.now
      (RevokedSample.platformDid ++ "#key-signing-1") RevokedSample.unsigned
      (SignedSample.verifies SignedSample.signingPayload_signed) hdecode hhandles
    refine ⟨v, hparse, hread, (hverify _).mpr (le_refl _), fun h => ?_⟩
    have htime := (hverify _).mp h
    have hlate : ¬ RevokedSample.expiry + 1 ≤ RevokedSample.expiry := by decide
    exact hlate htime
  · exact hsame _ _ RevokedSample.now RevokedSample.now RevokedSample.platformDid
      RevokedSample.platformDid SignedSample.handlesSigned SignedSample.handlesSigned
      (SignedSample.verified rfl) (SignedSample.verified rfl) rfl

end Registry
