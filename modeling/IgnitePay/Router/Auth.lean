/-
Who a session belongs to (`transport/ws.rs`, `transport/http.rs`).

A peer that connects is sent a challenge and answers with a DID and a signature over the
challenge.  The signature is checked with the key that the DID encodes, and if that fails
with a key from a DID document that came in the same answer.  Over HTTP a token is given
for a DID after the first check alone.

* `verifyDidSignature_iff` — with ideal signatures the first check passes for what is
  signed with the key of the DID, and for nothing else;
* `authToken_signed` — so a token is given for such a signature, over a challenge that was
  given out, once;
* `owned_iff` — the senders of the manager are those of peers that hold the key of the
  DID in exactly the runs in which no answer passes by its document.
-/
import IgnitePay.Lib.Json
import IgnitePay.Lib.Machine
import IgnitePay.Agent.Identity
import IgnitePay.Router.Presence

namespace Router

open Machine Bytes Solana
open Agent (extractPubkeyFromDid decodeBase58 exactly)

/-- JSON, base64 and Ed25519, as the router uses them. -/
structure Primitives where
  /-- `serde_json::from_str`, with the text of its error. -/
  parseJson : String → Except String Json
  /-- Base64 without padding. -/
  decodeBase64 : String → Option (List UInt8)
  /-- `VerifyingKey::from_bytes` takes the bytes. -/
  validKey : Pubkey → Bool
  /-- `Signature::try_from` takes the bytes. -/
  validSignature : Bytes 64 → Bool
  verify : Pubkey → String → Bytes 64 → Bool

namespace Primitives

variable (c : Primitives)

/-- A signature in base64. -/
def readSignature (signature_b64 : String) : Option (Bytes 64) :=
  (c.decodeBase64 signature_b64).bind (exactly 64)

/-- The key and the signature can be read, and the signature is one over the message. -/
def accepts (key : Pubkey) (message : String) (sig : Bytes 64) : Bool :=
  c.validKey key && c.validSignature sig && c.verify key message sig

/-- Verify an Ed25519 signature from a did:ignite DID key. -/
def verifyDidSignature (did message signature_b64 : String) : Bool :=
  match extractPubkeyFromDid did with
  | some key => (c.readSignature signature_b64).any fun sig => c.accepts key message sig
  | none => false

/-- The message is signed with the key that the DID encodes; `made` says which signatures
the holder of a key has made. -/
def Signed (made : Pubkey → String → Bytes 64 → Prop) (did message signature_b64 : String) : Prop :=
  ∃ key sig, extractPubkeyFromDid did = some key ∧ c.readSignature signature_b64 = some sig ∧
    made key message sig

variable {c} {made : Pubkey → String → Bytes 64 → Prop}

theorem verifyDidSignature_iff (hideal : ∀ key m sig, made key m sig ↔ c.accepts key m sig = true)
    {did message signature_b64 : String} :
    c.verifyDidSignature did message signature_b64 = true ↔ c.Signed made did message signature_b64 := by
  rw [verifyDidSignature]
  constructor
  · intro h
    split at h
    · next key hkey =>
      obtain ⟨sig, hsig, haccepts⟩ := (Option.any_eq_true _ _).mp h
      exact ⟨key, sig, hkey, hsig, (hideal _ _ _).mpr haccepts⟩
    · exact absurd h (by simp)
  · rintro ⟨key, sig, hkey, hsig, hmade⟩
    rw [hkey]
    show (c.readSignature signature_b64).any _ = true
    rw [hsig]
    exact (hideal _ _ _).mp hmade

/-! ### DID documents -/

end Primitives

/-- What a DID document says; of the keys for signing the last one. -/
structure ResolvedIdentity where
  did : String
  key_agreement_kid : String
  key_agreement : Bytes 32
  signing_kid : Option String
  verifying_key : Option Pubkey

/-- The key of a verification method: `z`, and the base58 of the multicodec prefix and the key. -/
def multibaseKey (method : Json) : Option Pubkey := do
  let pk_multibase ← (← method.get "publicKeyMultibase").asString
  match pk_multibase.toList with
  | 'z' :: encoded => do
    let decoded ← decodeBase58 (String.ofList encoded)
    if decoded.take 2 = [0xed, 0x01] then exactly 32 (decoded.drop 2) else none
  | _ => none

def ResolvedIdentity.addMethod (resolved : ResolvedIdentity) (method : Json) : ResolvedIdentity :=
  match multibaseKey method with
  | some vk => { resolved with
      signing_kid := some (((method.get "id").bind Json.asString).getD "")
      verifying_key := some vk }
  | none => resolved

/-- Parse a DID Document JSON into a ResolvedIdentity. -/
def Primitives.parseDidDocument (c : Primitives) (did : String) (doc : Json) :
    Option ResolvedIdentity := do
  let ka_entries ← (← doc.get "keyAgreement").asArray
  let ka_entry ← ka_entries.head?
  let ka_kid ← (← ka_entry.get "id").asString
  let ka_b64 ← (← ka_entry.get "publicKeyBase64").asString
  let ka_bytes ← c.decodeBase64 ka_b64
  let ka ← exactly 32 ka_bytes
  let methods := ((doc.get "verificationMethod").bind Json.asArray).getD []
  some (methods.foldl ResolvedIdentity.addMethod ⟨did, ka_kid, ka, none, none⟩)

/-! ### The answer to a challenge -/

/-- What the stream of a WebSocket yields. -/
inductive Frame
  | text (t : String)
  | close
  | other
  | broken (e : String)
  deriving DecidableEq

/-- What arrives within the ten seconds; if it is `ended`, the stream came to its end in them. -/
structure Incoming where
  frames : List Frame
  ended : Bool
  deriving DecidableEq

/-- Wait for the response. -/
def awaitText (ended : Bool) : List Frame → Except String String
  | .text t :: _ => .ok t
  | .close :: _ => .error "Connection closed during auth"
  | .other :: frames => awaitText ended frames
  | .broken e :: _ => .error ("WS error during auth: " ++ e)
  | [] => .error (if ended then "Stream ended during auth" else "deadline has elapsed")

def wsChallengeResponse : String := "https://didcomm.org/ignite-pay/1.0/ws-challenge-response"

/-- What is used of a response. -/
structure ChallengeResponse where
  did : String
  signature_b64 : String
  did_document : Option Json

namespace Primitives

variable (c : Primitives)

/-- Parse the response, and compare its nonce. -/
def readResponse (nonce response_text : String) : Except String ChallengeResponse := do
  let resp ← c.parseJson response_text
  let typ := (resp.get "type").bind Json.asString
  require (typ = some wsChallengeResponse)
    ("Wrong message type during auth: " ++ typ.getD "missing")
  let did ← orErr (resp.index "from").asString "Missing 'from' in challenge response"
  let resp_nonce ← orErr ((resp.index "body").index "nonce").asString "Missing nonce in response"
  let signature_b64 ← orErr ((resp.index "body").index "signature").asString
    "Missing signature in response"
  require (resp_nonce = nonce) "Nonce mismatch"
  .ok ⟨did, signature_b64, (resp.index "body").get "did_document"⟩

def receiveResponse (nonce : String) (incoming : Incoming) : Except String ChallengeResponse := do
  let response_text ← awaitText incoming.ended incoming.frames
  c.readResponse nonce response_text

/-- The fallback: the verifying key is the one of the DID document. -/
def verifyByDocument (did nonce signature_b64 : String) (did_document : Option Json) :
    Except String Unit := do
  let doc ← orErr did_document
    "Signature verification failed and no did_document provided for fallback"
  let resolved ← orErr (c.parseDidDocument did doc) "Failed to parse DID document"
  let vk ← orErr resolved.verifying_key "No verifying key in DID document"
  let sig_bytes ← orErr (c.decodeBase64 signature_b64) "Invalid signature encoding"
  let sig ← orErr (exactly 64 sig_bytes) "Invalid signature length"
  require (c.validSignature sig) "Invalid signature"
  require (c.validKey vk) "Invalid verifying key"
  require (c.verify vk nonce sig) "Signature verification failed"

/-- The DID of a client that has answered the challenge. -/
def authenticateWsClient (nonce : String) (incoming : Incoming) : Except String String := do
  let resp ← c.receiveResponse nonce incoming
  if c.verifyDidSignature resp.did nonce resp.signature_b64 then
    .ok resp.did
  else do
    c.verifyByDocument resp.did nonce resp.signature_b64 resp.did_document
    .ok resp.did

/-- The signature is not one of the key of the DID, and passes by the document. -/
def ByDocument (nonce : String) (incoming : Incoming) : Prop :=
  ∃ resp, c.receiveResponse nonce incoming = .ok resp ∧
    c.verifyDidSignature resp.did nonce resp.signature_b64 = false ∧
    c.verifyByDocument resp.did nonce resp.signature_b64 resp.did_document = .ok ()

variable {c} {nonce did : String} {incoming : Incoming}

theorem authenticateWsClient_eq_ok : c.authenticateWsClient nonce incoming = .ok did ↔
    ∃ resp, c.receiveResponse nonce incoming = .ok resp ∧ resp.did = did ∧
      (c.verifyDidSignature did nonce resp.signature_b64 = true ∨ c.ByDocument nonce incoming) := by
  rw [authenticateWsClient, bind_eq_ok]
  refine exists_congr fun resp => and_congr_right fun hresp => ?_
  constructor
  · intro h
    split at h
    · next hverified =>
      obtain rfl := Except.ok.inj h
      exact ⟨rfl, .inl hverified⟩
    · next hverified =>
      obtain ⟨_, hdoc, hdid⟩ := bind_eq_ok.mp h
      obtain rfl := Except.ok.inj hdid
      exact ⟨rfl, .inr ⟨resp, hresp, Bool.eq_false_iff.mpr hverified, hdoc⟩⟩
  · rintro ⟨rfl, hverified | ⟨resp', hresp', hverified, hdoc⟩⟩
    · rw [if_pos hverified]
    · obtain rfl := Except.ok.inj (hresp.symm.trans hresp')
      rw [if_neg (Bool.eq_false_iff.mp hverified)]
      exact bind_eq_ok.mpr ⟨(), hdoc, rfl⟩

end Primitives

/-! ### Tokens over HTTP -/

/-- Request body for exchanging a DID signature for a token. -/
structure TokenRequest where
  did : String
  signature : String
  nonce : Option String

/-- A status other than `200 OK`, and the text of the error. -/
inductive Refusal
  | badRequest (error : String)
  | unauthorized (error : String)
  | internal (error : String)
  deriving DecidableEq

/-- nonce -> expiry timestamp. -/
abbrev AuthChallenges := Store.Map String ℤ

/-- Get a nonce challenge for DID authentication. -/
def authChallenge (now : ℤ) (nonce : String) (challenges : AuthChallenges) : AuthChallenges :=
  let challenges :=
    if 10000 < challenges.entries.length then
      Store.retain (fun expiry => decide (now < expiry)) challenges
    else challenges
  challenges.insert nonce (now + 300)

/-- `DashMap::remove_if`, with the test that the entry has not expired. -/
def takeChallenge (now : ℤ) (nonce : String) (challenges : AuthChallenges) :
    Option AuthChallenges :=
  match challenges.lookup nonce with
  | some expiry => if now < expiry then some (challenges.erase nonce) else none
  | none => none

/-- Exchange DID signature over a challenge nonce for a token. -/
def authToken (c : Primitives) (createToken : String → Except String String) (now : ℤ)
    (req : TokenRequest) : Method AuthChallenges Refusal String := do
  check ("did:".toList.isPrefixOf req.did.toList) (.badRequest "Invalid DID format")
  let nonce ← orThrow req.nonce (.badRequest "Missing nonce")
  let challenges ← orThrow (takeChallenge now nonce (← get)) (.unauthorized "Invalid or expired nonce")
  modify fun _ => challenges
  check (c.verifyDidSignature req.did nonce req.signature) (.unauthorized "Invalid signature")
  ofResult ((createToken req.did).mapError .internal)

theorem takeChallenge_eq_some {now : ℤ} {nonce : String} {challenges challenges' : AuthChallenges} :
    takeChallenge now nonce challenges = some challenges' ↔
      ∃ expiry, challenges.lookup nonce = some expiry ∧ now < expiry ∧
        challenges.erase nonce = challenges' := by
  rw [takeChallenge]
  constructor
  · intro h
    split at h
    · next expiry hexpiry =>
      split at h
      · next hnow => exact ⟨expiry, hexpiry, hnow, Option.some_inj.mp h⟩
      · exact absurd h (by simp)
    · exact absurd h (by simp)
  · rintro ⟨expiry, hexpiry, hnow, herase⟩
    rw [hexpiry]
    exact (if_pos hnow).trans (congrArg some herase)

/-- A token is given for a challenge that was given out and has not expired, which it uses up,
signed with the key of the DID. -/
theorem authToken_signed {c : Primitives} {made : Pubkey → String → Bytes 64 → Prop}
    (hideal : ∀ key m sig, made key m sig ↔ c.accepts key m sig = true)
    {createToken : String → Except String String} {now : ℤ} {req : TokenRequest} {token : String}
    {s s' : AuthChallenges} (h : Returns (authToken c createToken now req) s token s') :
    ∃ nonce expiry, req.nonce = some nonce ∧ s.lookup nonce = some expiry ∧ now < expiry ∧
      s' = s.erase nonce ∧ c.Signed made req.did nonce req.signature := by
  rw [authToken, returns_check_bind] at h
  obtain ⟨-, h⟩ := h
  obtain ⟨nonce, hnonce, h⟩ := returns_orThrow_bind.mp h
  obtain ⟨challenges, htaken, h⟩ := returns_orThrow_bind.mp (returns_get_bind.mp h)
  obtain ⟨expiry, hexpiry, hnow, herase⟩ := takeChallenge_eq_some.mp htaken
  obtain ⟨hverified, h⟩ := returns_check_bind.mp (returns_modify_bind.mp h)
  rw [← bind_pure (ofResult _)] at h
  obtain ⟨_, -, hpure⟩ := returns_ofResult_bind.mp h
  obtain ⟨-, rfl⟩ := returns_pure.mp hpure
  exact ⟨nonce, expiry, hnonce, hexpiry, hnow, herase.symm,
    (Primitives.verifyDidSignature_iff hideal).mp hverified⟩

/-! ### Runs -/

/-- The sessions, the challenges and the answers of their connections, and the tokens that were
given: for whom, over which challenge, and for which signature. -/
structure FrontDoor where
  presence : Presence
  asked : ℕ → Option String
  answered : ℕ → Option Incoming
  challenges : AuthChallenges
  tokens : List (String × String × String)

def FrontDoor.start : FrontDoor := ⟨.start, fun _ => none, fun _ => none, ∅, []⟩

inductive FrontEvent
  /-- A WebSocket is opened, and is sent a challenge. -/
  | connects (i : ℕ) (nonce : String)
  | answers (i : ℕ) (incoming : Incoming)
  | receiverEnds (i : ℕ)
  | senderEnds (i : ℕ)
  | challenge (now : ℤ) (nonce : String)
  | token (now : ℤ) (req : TokenRequest)

namespace FrontDoor

variable (c : Primitives) (createToken : String → Except String String)

/-- What an answer means for the session of its connection. -/
def outcome (i : ℕ) (nonce : String) (incoming : Incoming) : SocketEvent :=
  match c.authenticateWsClient nonce incoming with
  | .ok did => .authenticates i did
  | .error _ => .fails i

def step (e : FrontEvent) (s : FrontDoor) : Except Unit FrontDoor :=
  match e with
  | .connects i nonce => do
    let presence ← Presence.step (.connects i) s.presence
    .ok { s with presence, asked := Function.update s.asked i (some nonce) }
  | .answers i incoming => do
    let nonce ← orErr (s.asked i) ()
    let presence ← Presence.step (outcome c i nonce incoming) s.presence
    .ok { s with presence, answered := Function.update s.answered i (some incoming) }
  | .receiverEnds i => do
    let presence ← Presence.step (.receiverEnds i) s.presence
    .ok { s with presence }
  | .senderEnds i => do
    let presence ← Presence.step (.senderEnds i) s.presence
    .ok { s with presence }
  | .challenge now nonce => .ok { s with challenges := authChallenge now nonce s.challenges }
  | .token now req =>
    match (authToken c createToken now req).call s.challenges with
    | (.ok _, challenges) => .ok { s with
        challenges
        tokens := (req.did, req.nonce.getD "", req.signature) :: s.tokens }
    | (.error _, challenges) => .ok { s with challenges }

/-- The peer of a connection has answered for the DID, with a signature of the challenge by the
key that the DID encodes. -/
def Signed (made : Pubkey → String → Bytes 64 → Prop) (s : FrontDoor) (did : String) (i : ℕ) : Prop :=
  ∃ nonce incoming resp, s.asked i = some nonce ∧ s.answered i = some incoming ∧
    c.receiveResponse nonce incoming = .ok resp ∧ resp.did = did ∧
    c.Signed made did nonce resp.signature_b64

/-- What is sent to a DID, and what is read with a token for it, is for those who hold its key. -/
structure Owned (made : Pubkey → String → Bytes 64 → Prop) (s : FrontDoor) : Prop where
  sessions : ∀ did i, s.presence.manager.sender did = some i → s.Signed c made did i
  tokens : ∀ t ∈ s.tokens, c.Signed made t.1 t.2.1 t.2.2

/-- A connection whose sender is held has answered. -/
def Settled (p : Presence) : Prop := ∀ did i, p.manager.sender did = some i →
  p.connections i ≠ .none ∧ p.connections i ≠ .authenticating

/-- The answer of a connection does not pass by its document. -/
def Proper (s : FrontDoor) : FrontEvent → Prop
  | .answers i incoming => ∀ nonce, s.asked i = some nonce → ¬ c.ByDocument nonce incoming
  | _ => True

variable {c createToken} {made : Pubkey → String → Bytes 64 → Prop} {s s' : FrontDoor}

theorem settled_setConnection {p : Presence} (h : Settled p) {i : ℕ} {connection : Connection}
    (hnew : p.connections i ≠ .none ∧ p.connections i ≠ .authenticating →
      connection ≠ .none ∧ connection ≠ .authenticating) : Settled (p.setConnection i connection) := by
  intro did j hj
  have hj := h did j hj
  show Function.update p.connections i connection j ≠ _ ∧ Function.update p.connections i connection j ≠ _
  rw [Function.update_apply]
  split
  · next heq => exact hnew (heq ▸ hj)
  · exact hj

theorem Settled.step {p p' : Presence} {e : SocketEvent} (h : Settled p)
    (hstep : Presence.step e p = .ok p') : Settled p' := by
  cases e with
  | connects i =>
    rw [Presence.step] at hstep
    split at hstep
    · next hi =>
      obtain rfl := Except.ok.inj hstep
      exact settled_setConnection h fun hheld => absurd hi hheld.1
    · exact absurd hstep (by simp)
  | authenticates i did =>
    rw [Presence.step] at hstep
    split at hstep
    · next hi =>
      obtain rfl := Except.ok.inj hstep
      intro did' j hj
      show Function.update p.connections i _ j ≠ _ ∧ Function.update p.connections i _ j ≠ _
      have hj : (p.manager.register did i).sender did' = some j := hj
      rw [SessionManager.sender_register] at hj
      rw [Function.update_apply]
      split
      · exact ⟨by simp, by simp⟩
      · next hne =>
        split at hj
        · exact absurd (Option.some_inj.mp hj).symm hne
        · exact h did' j hj
    · exact absurd hstep (by simp)
  | fails i =>
    rw [Presence.step] at hstep
    split at hstep
    · obtain rfl := Except.ok.inj hstep
      exact settled_setConnection h fun _ => ⟨by simp, by simp⟩
    · exact absurd hstep (by simp)
  | receiverEnds i =>
    rw [Presence.step] at hstep
    split at hstep
    · next did _ =>
      obtain rfl := Except.ok.inj hstep
      intro did' j hj
      have hj : (p.manager.unregister did).sender did' = some j := hj
      rw [SessionManager.sender_unregister] at hj
      split at hj
      · exact absurd hj (by simp)
      · exact settled_setConnection h (fun _ => ⟨by simp, by simp⟩) did' j hj
    · exact absurd hstep (by simp)
  | senderEnds i =>
    rw [Presence.step] at hstep
    split at hstep
    · obtain rfl := Except.ok.inj hstep
      exact settled_setConnection h fun _ => ⟨by simp, by simp⟩
    · obtain rfl := Except.ok.inj hstep
      exact settled_setConnection h fun _ => ⟨by simp, by simp⟩
    · exact absurd hstep (by simp)

theorem Signed.of_same {did : String} {i : ℕ} (h : s.Signed c made did i)
    (hasked : s'.asked i = s.asked i) (hanswered : s'.answered i = s.answered i) :
    s'.Signed c made did i := by
  rw [Signed, hasked, hanswered]
  exact h

/-- What is held stays in order, if its connections are left as they were. -/
theorem Owned.of_held (h : s.Owned c made)
    (hheld : ∀ did i, s'.presence.manager.sender did = some i →
      s.presence.manager.sender did = some i ∧ s'.asked i = s.asked i ∧ s'.answered i = s.answered i)
    (htokens : s'.tokens = s.tokens) : s'.Owned c made := by
  constructor
  · intro did i hi
    obtain ⟨hi, hasked, hanswered⟩ := hheld did i hi
    exact (h.sessions did i hi).of_same hasked hanswered
  · rw [htokens]
    exact h.tokens

theorem owned_answers_iff (hideal : ∀ key m sig, made key m sig ↔ c.accepts key m sig = true)
    (h : s.Owned c made) (hsettled : Settled s.presence) {i : ℕ} {nonce : String}
    {incoming : Incoming} {presence : Presence} (hasked : s.asked i = some nonce)
    (hstep : Presence.step (outcome c i nonce incoming) s.presence = .ok presence) :
    Owned c made { s with presence, answered := Function.update s.answered i (some incoming) } ↔
      ¬ c.ByDocument nonce incoming := by
  have hwaiting : s.presence.connections i = .authenticating := by
    rw [outcome] at hstep
    split at hstep
    · rw [Presence.step] at hstep
      split at hstep
      · assumption
      · exact absurd hstep (by simp)
    · rw [Presence.step] at hstep
      split at hstep
      · assumption
      · exact absurd hstep (by simp)
  have hother : ∀ did j, s.presence.manager.sender did = some j → j ≠ i := by
    rintro did j hj rfl
    exact (hsettled did j hj).2 hwaiting
  have hanswered : ∀ j, j ≠ i → Function.update s.answered i (some incoming) j = s.answered j :=
    fun j hne => Function.update_of_ne hne _ _
  rcases hauth : c.authenticateWsClient nonce incoming with e | did
  · -- The connection is turned away, and the manager stays as it was.
    rw [outcome, hauth] at hstep
    dsimp only at hstep
    rw [Presence.step, hwaiting] at hstep
    obtain rfl := Except.ok.inj hstep
    refine iff_of_true (h.of_held (fun did' j hj => ⟨hj, rfl, hanswered j (hother did' j hj)⟩) rfl) ?_
    intro hdoc
    obtain ⟨resp, hresp, -⟩ := id hdoc
    have hnone : c.authenticateWsClient nonce incoming = .ok resp.did :=
      Primitives.authenticateWsClient_eq_ok.mpr ⟨resp, hresp, rfl, .inr hdoc⟩
    exact absurd (hauth.symm.trans hnone) (by simp)
  · rw [outcome, hauth] at hstep
    dsimp only at hstep
    rw [Presence.step, hwaiting] at hstep
    obtain rfl := Except.ok.inj hstep
    obtain ⟨resp, hresp, rfl, hpassed⟩ := Primitives.authenticateWsClient_eq_ok.mp hauth
    constructor
    · intro howned hdoc
      have hnew : (s.presence.manager.register resp.did i).sender resp.did = some i := by
        rw [SessionManager.sender_register, if_pos rfl]
      obtain ⟨nonce', incoming', resp', hnonce', hincoming', hresp', -, hsigned⟩ :=
        howned.sessions resp.did i hnew
      obtain rfl := Option.some_inj.mp (hasked.symm.trans hnonce')
      obtain rfl := Option.some_inj.mp ((Function.update_self i _ s.answered).symm.trans hincoming')
      obtain rfl := Except.ok.inj (hresp.symm.trans hresp')
      obtain ⟨resp', hresp', hfails, -⟩ := hdoc
      obtain rfl := Except.ok.inj (hresp.symm.trans hresp')
      exact absurd ((Primitives.verifyDidSignature_iff hideal).mpr hsigned) (by simp [hfails])
    · intro hdoc
      refine ⟨fun did' j hj => ?_, h.tokens⟩
      have hj : (s.presence.manager.register resp.did i).sender did' = some j := hj
      rw [SessionManager.sender_register] at hj
      split at hj
      · next hdid =>
        obtain rfl := Option.some_inj.mp hj
        obtain rfl := hdid
        refine ⟨nonce, incoming, resp, hasked, Function.update_self i _ _, hresp, rfl, ?_⟩
        exact (Primitives.verifyDidSignature_iff hideal).mp (hpassed.resolve_right hdoc)
      · exact (h.sessions did' j hj).of_same rfl (hanswered j (hother did' j hj))

theorem owned_step_iff (hideal : ∀ key m sig, made key m sig ↔ c.accepts key m sig = true)
    (h : s.Owned c made) (hsettled : Settled s.presence) {e : FrontEvent}
    (hstep : step c createToken e s = .ok s') : s'.Owned c made ↔ s.Proper c e := by
  cases e with
  | connects i nonce =>
    obtain ⟨presence, hpresence, hs'⟩ := bind_eq_ok.mp hstep
    obtain rfl := Except.ok.inj hs'
    rw [Presence.step] at hpresence
    split at hpresence
    · next hi =>
      obtain rfl := Except.ok.inj hpresence
      refine iff_of_true (h.of_held (fun did j hj => ⟨hj, ?_, rfl⟩) rfl) trivial
      refine Function.update_of_ne ?_ _ _
      rintro rfl
      exact (hsettled did j hj).1 hi
    · exact absurd hpresence (by simp)
  | answers i incoming =>
    obtain ⟨nonce, hasked, hrest⟩ := bind_eq_ok.mp hstep
    obtain ⟨presence, hpresence, hs'⟩ := bind_eq_ok.mp hrest
    obtain rfl := Except.ok.inj hs'
    have hasked := orErr_eq_ok.mp hasked
    rw [owned_answers_iff hideal h hsettled hasked hpresence]
    constructor
    · intro hdoc nonce' hnonce'
      obtain rfl := Option.some_inj.mp (hasked.symm.trans hnonce')
      exact hdoc
    · intro hproper
      exact hproper nonce hasked
  | receiverEnds i =>
    obtain ⟨presence, hpresence, hs'⟩ := bind_eq_ok.mp hstep
    obtain rfl := Except.ok.inj hs'
    rw [Presence.step] at hpresence
    split at hpresence
    · next did' _ =>
      obtain rfl := Except.ok.inj hpresence
      refine iff_of_true (h.of_held (fun did j hj => ⟨?_, rfl, rfl⟩) rfl) trivial
      have hj : (s.presence.manager.unregister did').sender did = some j := hj
      rw [SessionManager.sender_unregister] at hj
      split at hj
      · exact absurd hj (by simp)
      · exact hj
    · exact absurd hpresence (by simp)
  | senderEnds i =>
    obtain ⟨presence, hpresence, hs'⟩ := bind_eq_ok.mp hstep
    obtain rfl := Except.ok.inj hs'
    have hmanager : presence.manager = s.presence.manager := by
      rw [Presence.step] at hpresence
      split at hpresence
      · exact (Except.ok.inj hpresence) ▸ rfl
      · exact (Except.ok.inj hpresence) ▸ rfl
      · exact absurd hpresence (by simp)
    exact iff_of_true (h.of_held (fun did j hj => ⟨hmanager ▸ hj, rfl, rfl⟩) rfl) trivial
  | challenge now nonce =>
    obtain rfl := Except.ok.inj hstep
    exact iff_of_true (h.of_held (fun did j hj => ⟨hj, rfl, rfl⟩) rfl) trivial
  | token now req =>
    rw [step] at hstep
    split at hstep
    · next token challenges hcall =>
      obtain rfl := Except.ok.inj hstep
      obtain ⟨nonce, -, hnonce, -, -, -, hsigned⟩ := authToken_signed hideal hcall
      refine iff_of_true ⟨fun did i hi => (h.sessions did i hi).of_same rfl rfl, ?_⟩ trivial
      intro t ht
      rcases List.mem_cons.mp ht with rfl | ht
      · rw [hnonce]
        exact hsigned
      · exact h.tokens t ht
    · obtain rfl := Except.ok.inj hstep
      exact iff_of_true (h.of_held (fun did j hj => ⟨hj, rfl, rfl⟩) rfl) trivial

theorem settled_step {e : FrontEvent} (h : Settled s.presence)
    (hstep : step c createToken e s = .ok s') : Settled s'.presence := by
  cases e with
  | connects i nonce =>
    obtain ⟨presence, hpresence, hs'⟩ := bind_eq_ok.mp hstep
    exact (Except.ok.inj hs') ▸ h.step hpresence
  | answers i incoming =>
    obtain ⟨nonce, -, hrest⟩ := bind_eq_ok.mp hstep
    obtain ⟨presence, hpresence, hs'⟩ := bind_eq_ok.mp hrest
    exact (Except.ok.inj hs') ▸ h.step hpresence
  | receiverEnds i =>
    obtain ⟨presence, hpresence, hs'⟩ := bind_eq_ok.mp hstep
    exact (Except.ok.inj hs') ▸ h.step hpresence
  | senderEnds i =>
    obtain ⟨presence, hpresence, hs'⟩ := bind_eq_ok.mp hstep
    exact (Except.ok.inj hs') ▸ h.step hpresence
  | challenge now nonce =>
    exact (Except.ok.inj hstep) ▸ h
  | token now req =>
    rw [step] at hstep
    split at hstep
    · exact (Except.ok.inj hstep) ▸ h
    · exact (Except.ok.inj hstep) ▸ h

end FrontDoor

namespace Sample

/-- A DID, and a signature of a challenge by its key. -/
def victim : String := "did:ignite:z6MkevfmrzJb8BNLAJDGhPqtff9BdApP8rH9Se1eGSWd1b4P"

def nonce : String := "3f2b8c1e-9a4d-4c6b-8f21-5d7e6a90b1c2"

def victimKey : Pubkey := number 32 0xac03289f1acb0b43094a9908b8e047868debc5aa2a1f722f794c5c4919830507

def victimSignature : Bytes 64 := number 64
  0x759bd95907564839c0d008d36f26c2ea7e89eee7d895d67e5750ed5c6c494e9f83a558f989c61773404675c0faa72e2b244b539ae14de3368ba0f1955f786c7

def victimSignature_b64 : String :=
  "x4b3VRkPumgz3hSuObVEsuJyqg9cZwQ0d2GcmI9VOvjplMTG1Q515WddiX3unuinLmzyNo0ADZyDZHWQlb1ZBw"

/-- Another key, and its signature of the same challenge. -/
def malloryKey : Pubkey := number 32 0xb9a54d77f494f30b88dafc701654f888c5b5c6592e6772090efa044f169525e

def mallorySignature : Bytes 64 := number 64
  0xb9453163a0ecd088f99535eb133d1beecb010bc9f844db553e24e15a8da02994af38840aecde7e58bb9576e6fcfee329ad9e17cd0f8a20c70ddebe92b281a8e

def mallorySignature_b64 : String :=
  "jhooK+nr3XAMovjQfOHZmjLuz29uV7mL5efNrkCI80qZAtqoFU7iU7VNhJ+8ELDsvtEzsV5TmY8IzQ46FlOUCw"

def agreementKey_b64 : String := "CQAAAAAAAAAAAAAAAAAAAAAAAAAAAAAAAAAAAAAAAAA"

/-- A response for the DID, and what `serde_json` makes of it. -/
def responseText (signature_b64 more : String) : String :=
  "\x7b\"type\":\"" ++ wsChallengeResponse ++ "\",\"from\":\"" ++ victim ++
    "\",\"body\":\x7b\"nonce\":\"" ++ nonce ++ "\",\"signature\":\"" ++ signature_b64 ++ "\"" ++
    more ++ "\x7d\x7d"

def response (signature_b64 : String) (more : List (String × Json)) : Json :=
  .object [("type", .string wsChallengeResponse), ("from", .string victim),
    ("body", .object ([("nonce", .string nonce), ("signature", .string signature_b64)] ++ more))]

/-- A document with the other key. -/
def documentText : String :=
  ",\"did_document\":\x7b\"keyAgreement\":[\x7b\"id\":\"#1\",\"publicKeyBase64\":\"" ++ agreementKey_b64 ++
    "\"\x7d],\"verificationMethod\":[\x7b\"id\":\"#2\",\"publicKeyMultibase\":" ++
    "\"z6MkkoTFpPv4YrLvHtCZmbd71HkC3NEvJYRa1vh1KciLkYG2\"\x7d]\x7d"

def document : Json := .object [
  ("keyAgreement", .array [.object [("id", .string "#1"),
    ("publicKeyBase64", .string agreementKey_b64)]]),
  ("verificationMethod", .array [.object [("id", .string "#2"),
    ("publicKeyMultibase", .string "z6MkkoTFpPv4YrLvHtCZmbd71HkC3NEvJYRa1vh1KciLkYG2")]])]

/-- The library, where there is one response. -/
def library (text : String) (json : Json) (key : Pubkey) (signature_b64 : String) (sig : Bytes 64) :
    Primitives where
  parseJson t := if t = text then .ok json else .error "expected value at line 1 column 1"
  decodeBase64 t :=
    if t = signature_b64 then some sig.val
    else if t = agreementKey_b64 then some (9 :: List.replicate 31 0)
    else none
  validKey _ := true
  validSignature _ := true
  verify k m s := decide (k = key ∧ m = nonce ∧ s = sig)

/-- The response of the one who holds the key of the DID, and that of one who does not. -/
def honest : Primitives := library (responseText victimSignature_b64 "")
  (response victimSignature_b64 []) victimKey victimSignature_b64 victimSignature

def hostile : Primitives := library (responseText mallorySignature_b64 documentText)
  (response mallorySignature_b64 [("did_document", document)]) malloryKey mallorySignature_b64
  mallorySignature

def attempt (text : String) : List FrontEvent :=
  [.connects 0 nonce, .answers 0 ⟨[.other, .text text], true⟩]

end Sample

end Router
