/-
What a revocation covers (`ignite-pay-core/src/vc.rs`, `did-registry/src/handlers/issue_vc.rs`,
`revoke_vc.rs`).

The signature of a credential covers everything but its proof.  A revocation names the hash of a
text, the one that the registry has written when it issued the credential.  A text that is written
otherwise, or has another proof around the same signature, is accepted all the same, and its hash
is another one.

* `revoked_named` — only what a request has named is revoked, whenever the transactions land;
* `readCredential_json` — a credential is read back from what is written of it;
* `revocation_covers_iff` — where a credential is revoked, the hash of an accepted text with its
  content is revoked exactly if the text is the one that was issued.
-/
import IgnitePay.Did.Revocation
import IgnitePay.Registry.Accesses

namespace Registry

open Bytes Machine
open Solana (Pubkey)
open Did.Service (OnchainMode Transaction)

/-- There is a record of the revocation on the chain. -/
def Revoked (w : Did.World) (vcHash : Bytes 32) : Prop := (w.revokedAt (.revokedVc vcHash)).isSome = true

instance (w : Did.World) (vcHash : Bytes 32) : Decidable (Revoked w vcHash) :=
  inferInstanceAs (Decidable (_ = true))

/-- The request asks for the revocation of the hash. -/
def Names (r : Service) (c : Call) (vcHash : Bytes 32) : Prop :=
  ∃ o req, c = .revokeVc o req ∧ r.parseHash "vc_hash" req.vcHash = .ok vcHash

/-- The credential with another proof. -/
def Carries (issued vc : VerifiableCredential) : Prop := ∃ proof, vc = { issued with proof }

/-! ### What is revoked -/

section Transactions

variable {r : Service} {c : Call} {mode : OnchainMode} {tx : Transaction} {w w' : Did.World}
  {vcHash : Bytes 32}

theorem revoked_of_exec {call : Did.Call}
    (hexec : Did.Service.liftError (Did.exec r.runtime call w) = .ok w')
    (hrevoked : Revoked w' vcHash) : Revoked w vcHash ∨ call.revoked = some vcHash := by
  by_cases hnamed : call.revoked = some vcHash
  · exact .inr hnamed
  · rcases hdid : Did.exec r.runtime call w with e | w₁
    · rw [hdid] at hexec
      exact absurd hexec (by simp [Did.Service.liftError, Except.mapError])
    · rw [hdid] at hexec
      obtain rfl := Except.ok.inj hexec
      rw [Revoked, Did.revokedAt_of_exec hdid hnamed] at hrevoked
      exact .inl hrevoked

/-- A transaction of a request revokes what the request names. -/
theorem revoked_of_execute (hmakes : Makes r c mode tx)
    (hexec : Did.Service.execute r.runtime (Did.Service.signed mode tx) w = .ok w')
    (hrevoked : Revoked w' vcHash) : Revoked w vcHash ∨ Names r c vcHash := by
  cases hmakes with
  | @register o req signer key hash sig hhash =>
    rw [Did.Service.execute_initializeDid] at hexec
    split at hexec
    · refine (revoked_of_exec hexec hrevoked).imp_right fun hnamed => ?_
      exact absurd hnamed (by simp [Did.Call.revoked])
    · exact absurd hexec (by simp)
  | rotate =>
    rw [Did.Service.execute_setRecoveryKey] at hexec
    refine (revoked_of_exec hexec hrevoked).imp_right fun hnamed => ?_
    exact absurd hnamed (by simp [Did.Call.revoked])
  | update hhash =>
    rw [Did.Service.execute_updateDidWithVc] at hexec
    refine (revoked_of_exec hexec hrevoked).imp_right fun hnamed => ?_
    exact absurd hnamed (by simp [Did.Call.revoked])
  | @revoke o req hash subject hhash =>
    have hexec : Did.Service.liftError (Did.exec r.runtime
        (.revokeVc r.payer hash subject req.reason) w) = .ok w' :=
      Did.Service.execute_revokeVc.symm.trans hexec
    refine (revoked_of_exec hexec hrevoked).imp_right fun hnamed => ?_
    obtain rfl : hash = vcHash := Option.some.inj hnamed
    exact ⟨o, req, rfl, hhash⟩

end Transactions

section Runs

variable {r : Service} {calls : ℕ → Call}

variable (r calls) in
/-- What is revoked has been named, and what is pending was made for a request. -/
structure Traced (s : State) : Prop where
  revoked : ∀ vcHash, Revoked s.chain vcHash → ∃ i, Names r (calls i) vcHash
  pending : ∀ tx ∈ s.pending, ∃ i mode made, Makes r (calls i) mode made ∧
    tx = Did.Service.signed mode made

/-- A transaction that was made for a request takes effect. -/
theorem Traced.execute {s : State} (h : Traced r calls s) {i : ℕ} {mode : OnchainMode}
    {made : Transaction} (hmakes : Makes r (calls i) mode made) {chain : Did.World}
    (hexec : Did.Service.execute r.runtime (Did.Service.signed mode made) s.chain = .ok chain) :
    ∀ vcHash, Revoked chain vcHash → ∃ i, Names r (calls i) vcHash := by
  intro vcHash hrevoked
  rcases revoked_of_execute hmakes hexec hrevoked with hbefore | hnamed
  · exact h.revoked vcHash hbefore
  · exact ⟨i, hnamed⟩

theorem Traced.access {i : ℕ} {s s' : State} (h : Traced r calls s) (haccess : Access r (calls i) s s') :
    Traced r calls s' := by
  cases haccess with
  | @sends o tx hmakes =>
    rw [Service.submit]
    cases o.sending with
    | refused => exact h
    | confirmed =>
      dsimp only
      split
      · next chain hexec => exact ⟨h.execute hmakes hexec, h.pending⟩
      · exact h
    | unconfirmed =>
      refine ⟨h.revoked, fun tx' htx' => ?_⟩
      rcases List.mem_append.mp htx' with hold | hnew
      · exact h.pending tx' hold
      · exact ⟨i, .sponsored, tx, hmakes, List.mem_singleton.mp hnew⟩
  | @prepares tx hmakes =>
    refine ⟨h.revoked, fun tx' htx' => ?_⟩
    rcases List.mem_append.mp htx' with hold | hnew
    · exact h.pending tx' hold
    · exact ⟨i, .selfOnchain, tx, hmakes, List.mem_singleton.mp hnew⟩
  | @lands n =>
    rw [Service.land]
    split
    · exact h
    · next tx htx =>
      obtain ⟨j, mode, made, hmakes, rfl⟩ := h.pending tx (List.mem_of_getElem? htx)
      refine ⟨?_, fun tx' htx' => h.pending tx' (List.mem_of_mem_eraseIdx htx')⟩
      dsimp only
      rcases hexec : Did.Service.execute r.runtime (Did.Service.signed mode made) s.chain with e | chain
      · exact h.revoked
      · exact h.execute hmakes hexec
  | expires => exact ⟨h.revoked, fun tx htx => h.pending tx (List.mem_of_mem_eraseIdx htx)⟩
  | consumesNonce =>
    rw [State.consumeNonce]
    split
    · exact ⟨h.revoked, h.pending⟩
    · exact h
  | reads => exact h
  | issuesNonce | signs | caches | charges | saves | marks | ticks => exact ⟨h.revoked, h.pending⟩

/-- The registry before the first request, as far as revocations go. -/
structure Unrevoked (s : State) : Prop where
  pending : s.pending = []
  chain : ∀ vcHash, ¬ Revoked s.chain vcHash

theorem revoked_named {s₀ : State} (hstart : Unrevoked s₀)
    {h : List (System State (Handler State Response) × ℕ)} {s : System State (Handler State Response)}
    (hrun : Run (System.turn Handler.next) ⟨s₀, fun i => r.handle (calls i)⟩ h s) {vcHash : Bytes 32}
    (hrevoked : Revoked s.shared.chain vcHash) : ∃ i, Names r (calls i) vcHash := by
  have hfirst : Traced r calls s₀ := by
    refine ⟨fun hash hhash => absurd hhash (hstart.chain hash), fun tx htx => ?_⟩
    rw [hstart.pending] at htx
    exact absurd htx (by simp)
  exact (r.invariant (fun i s s' hs haccess => hs.access haccess) hfirst hrun).revoked vcHash hrevoked

end Runs

/-! ### What is read back -/

/-- `serde_json` reads the text of the credential, and `chrono` its dates. -/
structure ReadsBack (r : Service) (vc : VerifiableCredential) : Prop where
  text : r.parseJson (r.vcText vc) = .ok (r.json vc)
  issuance : r.parseDate (r.dateText vc.issuanceDate) = some vc.issuanceDate
  expiration : r.parseDate (r.dateText vc.expirationDate) = some vc.expirationDate
  created : r.parseDate (r.dateText vc.proof.created) = some vc.proof.created

theorem readCredential_json {r : Service} {vc : VerifiableCredential} (h : ReadsBack r vc) :
    r.readCredential (r.json vc) = some vc :=
  Library.readCredential_json h.issuance h.expiration h.created

/-! ### What a revocation covers -/

/-- The hashes that are revoked are those of credentials that were issued, no two of them under one
identifier, and what was written of them is read back.  The text is one that is accepted with the
content of the revoked credential, and SHA-256 does not take it for the text of another one. -/
theorem revocation_covers_iff {r : Service} {calls : ℕ → Call} {s₀ : State} (hstart : Unrevoked s₀)
    {h : List (System State (Handler State Response) × ℕ)} {s : System State (Handler State Response)}
    (hrun : Run (System.turn Handler.next) ⟨s₀, fun i => r.handle (calls i)⟩ h s)
    (hnamed : ∀ i vcHash, Names r (calls i) vcHash → ∃ vc ∈ s.shared.issued, r.vcHash vc = vcHash)
    (hids : (s.shared.issued.map VerifiableCredential.id).Nodup)
    (hreads : ∀ vc ∈ s.shared.issued, ReadsBack r vc) {issued : VerifiableCredential}
    (hissued : issued ∈ s.shared.issued) (hrevoked : Revoked s.shared.chain (r.vcHash issued))
    {now : ℤ} {key : Pubkey} {issuer text : String} {vc : VerifiableCredential}
    (haccepts : r.Accepts now key issuer text vc) (hcarries : Carries issued vc)
    (hcollision : ∀ vc ∈ s.shared.issued, r.vcHash vc = r.sha256 text → r.vcText vc = text) :
    Revoked s.shared.chain (r.sha256 text) ↔ text = r.vcText issued := by
  constructor
  · intro htext
    obtain ⟨i, hi⟩ := revoked_named hstart hrun htext
    obtain ⟨other, hother, hhash⟩ := hnamed i _ hi
    -- The text is that of some credential that was issued, and so the one that is read from it.
    have hsame : r.vcText other = text := hcollision other hother hhash
    obtain ⟨v, hparse, hread, -⟩ := haccepts
    rw [← hsame, (hreads other hother).text] at hparse
    obtain rfl := Except.ok.inj hparse
    rw [readCredential_json (hreads other hother)] at hread
    obtain rfl := Option.some_inj.mp hread
    obtain ⟨proof, hproof⟩ := hcarries
    have hid : other.id = issued.id := by rw [hproof]
    obtain rfl := List.inj_on_of_nodup_map hids hother hissued hid
    exact hsame.symm
  · rintro rfl
    exact hrevoked

/-! ### A café -/

namespace RevokedSample

def platformDid : String := "did:ignite:z6Mkp7qLKyfgaFEGGsL2uhvM3niyUqkUvJXr77SxUQJfVXvF"

def programId : String := "B9dKkAcbrMxNZvBEmBHcaSD9fXsG6skChTxFRGsJpyUa"

/-- When the credential is issued, and when it expires. -/
def now : ℕ := 1767225600000

def expiry : ℤ := 1767229200000

def dateText (t : ℤ) : String :=
  if t = now then "2026-01-01T00:00:00Z"
  else if t = expiry then "2026-01-01T01:00:00Z"
  else "1970-01-01T00:00:00Z"

def parseDate (text : String) : Option ℤ :=
  if text = dateText now then some now
  else if text = dateText expiry then some expiry
  else none

/-- The platform's signature of the credential, and the same in base64. -/
def signature : Bytes 64 := number 64
  0x5d879c47f691561c991b77f548d8111ecd38813e22782654829eb51162de5db93184812061a9d17346b9c7c34ca1f1cfb1c2a9e69cce8621a1c868e5e038eef

def signature_b64 : String :=
  "744DXo6GHBpi6Mxpnioc+xwfyjR8nGs0F50aBhJIGJPb5S0WUespSGWCJ+ITiNPsEYGNVH+3kclhFWl/xHnYBQ"

def unsigned : VerifiableCredential where
  context := ["https://www.w3.org/2018/credentials/v1", "https://ignite-pay.com/credentials/v1"]
  id := "urn:uuid:b5a1f2d0-6c3e-4e79-8a50-2f9d1c7b3e64"
  credentialType := ["VerifiableCredential", "MerchantAttestation"]
  issuer := platformDid
  issuanceDate := now
  expirationDate := expiry
  credentialSubject := ⟨Router.Sample.victim, "Cafe", none⟩
  credentialStatus := some ⟨"IgniteVcRevocationRegistry", programId⟩
  proof := ⟨"", now, "", "", ""⟩

def credential : VerifiableCredential :=
  { unsigned with
    proof := ⟨"Ed25519Signature2020", now, "assertionMethod", platformDid ++ "#key-signing-1",
      signature_b64⟩ }

/-- The merchant's request, and the platform's, which names the hash of the credential. -/
def issueRequest : IssueVcRequest where
  merchantDid := Router.Sample.victim
  merchantName := "Cafe"
  category := none
  validityHours := some 1
  nonce := Router.Sample.nonce
  didSignature :=
    "4HTr1qO4lBKi9GJtsVERvmr3vAqXsqeTJk1NDhQ6YOG3DAUQMhyTytiDH1o9wUPLr4QP7ni3ZDgLZkZI46NxAw"

def issueSignature : Bytes 64 := number 64
  0x371a3e34846660b3864b778ee0f84afcb43c13d5a1f83d8ca931c3210050cb7e1603a140e4d4d2693a7b2970abcf76abe1151b16d62f4a21294b8a3d6eb74e0

def revokeRequest : RevokeVcRequest where
  vcHash := "0f85d473a2f5efecfe586e23395260b4894b08aea5231fe34e267a4234d839ed"
  credentialSubjectPk := "UQjGk49ndss3oNa1pt3pZbBobYXiy2nkd6iSAYc6NH1"
  reason := 0
  platformSignature :=
    "hVyKi52SCORsu7LTmOV8xKyjXlptMTEadJQLbjzsWK439j5d+6aGu9QAqrrCIKcfwbjcSyW5F4kRP56jtnGYAw"
  nonce := "7c0d2a94-1b6e-4f35-9d88-0e4b7a6c5f13"

def revokeSignature : Bytes 64 := number 64
  0x39871b6a39e3f118917b9254bdcb8c11fa720c2baaa00d4bb86a6fb5d3ef637ae58ec3c6e0b94741a31316d5a5ea3acc47ce598d3b2bb6ce408929d8b8a5c85

/-- The three signatures in base64. -/
def decodeBase64 (text : String) : Option (List UInt8) :=
  if text = signature_b64 then some signature.val
  else if text = issueRequest.didSignature then some issueSignature.val
  else if text = revokeRequest.platformSignature then some revokeSignature.val
  else none

/-- What the registry writes. -/
def writer : Library where
  parseJson _ := .error ""
  decodeBase64 := decodeBase64
  validKey _ := true
  validSignature _ := true
  verify k m sig := decide (k = Router.Sample.victimKey ∧ m = issueRequest.message ∧ sig = issueSignature) ||
    decide (k = Did.Sample.platformKey ∧ m = revokeRequest.message ∧ sig = revokeSignature)
  sha256 t := Sha256.sha256 t.toByteArray.data.toList
  encodeBase64 b := if b = signature.val then signature_b64 else ""
  jsonText v := Text.ofChars v.compact
  dateText := dateText
  parseDate := parseDate
  verifyStrict _ _ _ := false

/-- The text that is issued, and the same after a blank. -/
def text : String := writer.vcText credential

def spaced : String := Text.ofChars (' ' :: (writer.json credential).compact)

def payload : String := writer.signingPayload unsigned

def service : Service where
  __ := writer
  parseJson t := if t = text ∨ t = spaced then .ok (writer.json credential)
    else .error "expected value at line 1 column 1"
  verifyStrict k m sig := decide (k = Did.Sample.platformKey ∧ m = payload ∧ sig = signature)
  config := ⟨"", 0, 0, 0⟩
  payer := fill 32 1
  platformKey := Did.Sample.platformKey
  platformDid := platformDid
  didProgramId := programId
  signText _ := signature
  signBytes _ := fill 64 0
  runtime := Did.Sample.runtime
  pubkeyError _ := "Invalid Base58 string"
  signatureError _ := "string decoded to wrong size for signature"
  hexError _ := "Odd number of digits"
  transactionText _ _ := ""
  revokedVcAddress _ := ""

/-- The platform has been set up. -/
def start : State where
  chain := Did.Sample.empty.setAccount .platformConfig (.platformConfig ⟨Did.Sample.platformKey, fill 32 1⟩)
  clock := now

def outcome : Outcome := ⟨.confirmed, true, .confirmed, "b5a1f2d0-6c3e-4e79-8a50-2f9d1c7b3e64", "", "", ""⟩

/-- The credential is issued and revoked, with a nonce for either. -/
def calls : ℕ → Call
  | 0 => .issueNonce Router.Sample.nonce
  | 1 => .issueVc outcome issueRequest
  | 2 => .issueNonce revokeRequest.nonce
  | 3 => .revokeVc outcome revokeRequest
  | _ => .merchantProfile ""

def turns : List ℕ := [0, 1, 1, 1, 1, 2, 3, 3, 3]

theorem exists_run : ∃ h s,
    Run (System.turn Handler.next) ⟨start, fun i => service.handle (calls i)⟩ h s ∧
    s.shared.issued = [credential] ∧ Revoked s.shared.chain (service.vcHash credential) ∧
    ¬ Revoked s.shared.chain (service.sha256 spaced) := by
  obtain ⟨h, s, hrun, htest⟩ := @Run.exists_of_record _ _ _ (System.turn Handler.next)
    ⟨start, fun i => service.handle (calls i)⟩ turns
    (fun r => decide (r.2.shared.issued = [credential]) &&
      (decide (Revoked r.2.shared.chain (service.vcHash credential)) &&
        decide (¬ Revoked r.2.shared.chain (service.sha256 spaced)))) (by decide +kernel)
  obtain ⟨hissued, htest⟩ := Bool.and_eq_true_iff.mp htest
  obtain ⟨hrevoked, hother⟩ := Bool.and_eq_true_iff.mp htest
  exact ⟨h, s, hrun, of_decide_eq_true hissued, of_decide_eq_true hrevoked, of_decide_eq_true hother⟩

/-- The service writes what the writer writes. -/
theorem json_service (vc : VerifiableCredential) : service.json vc = writer.json vc := rfl

theorem payload_service (vc : VerifiableCredential) : service.payload vc = writer.payload vc := rfl

theorem vcText_credential : service.vcText credential = text :=
  congrArg writer.jsonText (json_service credential)

theorem signingPayload_credential : service.signingPayload credential = payload :=
  congrArg writer.jsonText (payload_service credential)

theorem parseJson_text {t : String} (h : t = text ∨ t = spaced) :
    service.parseJson t = .ok (service.json credential) := by
  rw [json_service]
  exact if_pos h

theorem readsBack : ReadsBack service credential where
  text := by
    rw [vcText_credential]
    exact parseJson_text (.inl rfl)
  issuance := by decide
  expiration := by decide
  created := by decide

theorem verified : service.verifyCredential now Did.Sample.platformKey platformDid credential = .ok () := by
  have hdecode : service.decodeBase64 credential.proof.proofValue = some signature.val := by
    show decodeBase64 signature_b64 = _
    rw [decodeBase64, if_pos rfl]
  have hexact : Agent.exactly 64 signature.val = some signature := dif_pos signature.property
  have hverify : ∀ m, m = payload → service.verifyStrict Did.Sample.platformKey m signature = true :=
    fun m hm => decide_eq_true ⟨rfl, hm, rfl⟩
  have hunexpired : (now : ℤ) ≤ credential.expirationDate := by
    show (now : ℤ) ≤ expiry
    decide
  refine bind_eq_ok.mpr ⟨(), require_eq_ok.mpr hunexpired, ?_⟩
  refine bind_eq_ok.mpr ⟨(), require_eq_ok.mpr rfl, bind_eq_ok.mpr ⟨(), require_eq_ok.mpr rfl, ?_⟩⟩
  refine bind_eq_ok.mpr ⟨_, orErr_eq_ok.mpr hdecode, bind_eq_ok.mpr ⟨_, orErr_eq_ok.mpr hexact, ?_⟩⟩
  exact require_eq_ok.mpr (hverify _ signingPayload_credential)

theorem accepts {t : String} (h : t = text ∨ t = spaced) :
    service.Accepts now Did.Sample.platformKey platformDid t credential :=
  ⟨_, parseJson_text h, readCredential_json readsBack, verified⟩

/-- The one hash that is named is that of the credential. -/
theorem named {i : ℕ} {vcHash : Bytes 32} (h : Names service (calls i) vcHash) :
    service.vcHash credential = vcHash := by
  obtain ⟨o, req, hcall, hhash⟩ := h
  have hreq : req = revokeRequest := by
    match i, hcall with
    | 3, hcall => exact (Call.revokeVc.inj hcall).2.symm
  have hhex : service.hexToBytes32 revokeRequest.vcHash = .ok (service.vcHash credential) := by
    decide +kernel
  rw [hreq, Service.parseHash, hhex] at hhash
  exact Except.ok.inj hhash

end RevokedSample

/-- The text that was issued. -/
theorem revocation_covers_text : ∃ h s,
    Run (System.turn Handler.next)
      ⟨RevokedSample.start, fun i => RevokedSample.service.handle (RevokedSample.calls i)⟩ h s ∧
    (Revoked s.shared.chain (RevokedSample.service.sha256 RevokedSample.text) ↔
      RevokedSample.text = RevokedSample.service.vcText RevokedSample.credential) := by
  obtain ⟨h, s, hrun, hissued, hrevoked, -⟩ := RevokedSample.exists_run
  have hall : ∀ vc ∈ s.shared.issued, vc = RevokedSample.credential := by
    rw [hissued]
    exact fun vc hvc => List.mem_singleton.mp hvc
  have hmem : RevokedSample.credential ∈ s.shared.issued := hissued ▸ List.mem_singleton_self _
  have hstart : Unrevoked RevokedSample.start := by
    refine ⟨rfl, fun vcHash hrevoked => ?_⟩
    have hlookup := @Did.World.lookup_setAccount Did.Sample.empty .platformConfig (.revokedVc vcHash)
      (.platformConfig ⟨Did.Sample.platformKey, fill 32 1⟩)
    rw [if_neg (by simp)] at hlookup
    rw [Revoked, RevokedSample.start, Did.World.revokedAt, hlookup] at hrevoked
    exact absurd hrevoked (by simp [Did.Sample.empty])
  refine ⟨h, s, hrun, ?_⟩
  refine revocation_covers_iff hstart hrun ?_ ?_ ?_ hmem hrevoked (RevokedSample.accepts (.inl rfl))
    ⟨RevokedSample.credential.proof, rfl⟩ ?_
  · exact fun i vcHash hi => ⟨_, hmem, RevokedSample.named hi⟩
  · rw [hissued]
    exact List.nodup_singleton _
  · exact fun vc hvc => hall vc hvc ▸ RevokedSample.readsBack
  · exact fun vc hvc _ => hall vc hvc ▸ rfl

/-- The same text after a blank is accepted, and its hash is not revoked. -/
theorem spaced_text_not_covered : ∃ h s,
    Run (System.turn Handler.next)
      ⟨RevokedSample.start, fun i => RevokedSample.service.handle (RevokedSample.calls i)⟩ h s ∧
    RevokedSample.credential ∈ s.shared.issued ∧
    Revoked s.shared.chain (RevokedSample.service.vcHash RevokedSample.credential) ∧
    RevokedSample.service.Accepts RevokedSample.now Did.Sample.platformKey RevokedSample.platformDid
      RevokedSample.spaced RevokedSample.credential ∧
    Carries RevokedSample.credential RevokedSample.credential ∧
    ¬ Revoked s.shared.chain (RevokedSample.service.sha256 RevokedSample.spaced) := by
  obtain ⟨h, s, hrun, hissued, hrevoked, hother⟩ := RevokedSample.exists_run
  exact ⟨h, s, hrun, hissued ▸ List.mem_singleton_self _, hrevoked, RevokedSample.accepts (.inr rfl),
    ⟨_, rfl⟩, hother⟩

end Registry
