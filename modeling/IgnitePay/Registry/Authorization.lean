/-
What a nonce and a signature authorize (`did-registry/src/handlers/nonce.rs`, `register.rs`,
`confirm.rs`, `revoke_vc.rs`).

A nonce is removed from the store in the access that finds it, so that of all requests that come
in between each other at most one gets it.  What is signed is a text with the fields between
colons.  A DID that a signature verifies for, a key and a hash hold no further colons, so the text
says which fields it was made from, wherever they can be read.

* `accepted_le_issued` — a nonce is accepted at most as often as it was issued;
* `RegisterMerchantRequest.eq_or_unreadable` — the text determines the fields that are signed;
* `signature_authorizes` — a signature authorizes one effect for the fields that it does not cover:
  the mode of a registration, the key and the hash of a confirmation, the subject and the reason of
  a revocation.
-/
import IgnitePay.Registry.Accesses

namespace Registry

open Bytes Machine
open Solana (Pubkey defaultPubkey base58Alphabet)
open Agent (extractPubkeyFromDid parsePubkey decodeBase58 exactly)
open Did (MerchantDidAccount)
open Did.Service (OnchainMode Transaction)

/-! ### Nonces -/

/-- What an access does to the nonces. -/
inductive AccessesNonces (s s' : State) : Prop
  | keeps (nonces : s'.nonces = s.nonces) (issued : s'.issuedNonces = s.issuedNonces)
      (accepted : s'.acceptedNonces = s.acceptedNonces)
  | issues (nonce : String) (left : s' = s.issueNonce nonce)
  | consumes (nonce : String) (left : s' = (s.consumeNonce nonce).2)

/-- A transaction changes the chain, or what is pending. -/
theorem submit_keeps (r : Service) (o : Outcome) (tx : Transaction) (s : State) :
    AccessesNonces s (r.submit o tx s).2 := by
  rw [Service.submit]
  cases o.sending with
  | refused => exact .keeps rfl rfl rfl
  | confirmed =>
    dsimp only
    split
    · exact .keeps rfl rfl rfl
    · exact .keeps rfl rfl rfl
  | unconfirmed => exact .keeps rfl rfl rfl

theorem land_keeps (r : Service) (n : ℕ) (s : State) : AccessesNonces s (r.land n s) := by
  rw [Service.land]
  split
  · exact .keeps rfl rfl rfl
  · exact .keeps rfl rfl rfl

/-- What an access of a request does to the nonces. -/
theorem accessesNonces_of_access {r : Service} {c : Call} {s s' : State} (h : Access r c s s') :
    AccessesNonces s s' := by
  cases h with
  | issuesNonce => exact .issues _ rfl
  | consumesNonce => exact .consumes _ rfl
  | sends _ => exact submit_keeps r _ _ s
  | lands => exact land_keeps r _ s
  | reads | signs | prepares | caches | charges | saves | marks | expires | ticks =>
    exact .keeps rfl rfl rfl

/-- A nonce that is stored has been issued once more than it was accepted. -/
def Accounted (s : State) : Prop := ∀ nonce,
  s.acceptedNonces.count nonce + (if (s.nonces.lookup nonce).isSome then 1 else 0) ≤
    s.issuedNonces.count nonce

/-- What is dropped can only be missing afterwards. -/
theorem isSome_of_pruned {s : State} {nonce : String}
    (h : (s.prunedNonces.lookup nonce).isSome = true) : (s.nonces.lookup nonce).isSome = true := by
  rw [State.prunedNonces] at h
  split at h
  · rw [Store.lookup_retain] at h
    obtain ⟨expiry, hexpiry⟩ := Option.isSome_iff_exists.mp h
    rw [(Option.filter_eq_some_iff.mp hexpiry).1]
    rfl
  · exact h

theorem accounted_issueNonce {s : State} (h : Accounted s) (nonce : String) :
    Accounted (s.issueNonce nonce) := by
  intro n
  have hn := h n
  show s.acceptedNonces.count n + (if ((s.prunedNonces.insert nonce (s.timestamp + 300)).lookup n).isSome
    then 1 else 0) ≤ (nonce :: s.issuedNonces).count n
  by_cases hsame : n = nonce
  · subst hsame
    rw [AList.lookup_insert, List.count_cons_self]
    have hle : s.acceptedNonces.count n ≤ s.issuedNonces.count n := by omega
    simpa using hle
  · rw [AList.lookup_insert_ne hsame, List.count_cons_of_ne (Ne.symm hsame)]
    split
    · next hsome =>
      rw [if_pos (isSome_of_pruned hsome)] at hn
      exact hn
    · omega

theorem accounted_consumeNonce {s : State} (h : Accounted s) (nonce : String) :
    Accounted (s.consumeNonce nonce).2 := by
  intro n
  have hn := h n
  rw [State.consumeNonce]
  split
  · next expiry hlookup =>
    show List.count n (if decide (expiry > s.timestamp) = true then nonce :: s.acceptedNonces
      else s.acceptedNonces) + (if ((s.nonces.erase nonce).lookup n).isSome then 1 else 0) ≤ _
    by_cases hsame : n = nonce
    · subst hsame
      rw [AList.lookup_erase]
      rw [hlookup] at hn
      have hone : List.count n s.acceptedNonces + 1 ≤ List.count n s.issuedNonces := hn
      split
      · rw [List.count_cons_self]
        exact hone
      · exact Nat.le_of_succ_le hone
    · rw [AList.lookup_erase_ne hsame]
      split
      · rw [List.count_cons_of_ne (Ne.symm hsame)]
        exact hn
      · exact hn
  · exact hn

theorem accounted_of_accesses {s s' : State} (h : Accounted s) (hdoes : AccessesNonces s s') :
    Accounted s' := by
  cases hdoes with
  | keeps nonces issued accepted =>
    intro n
    rw [nonces, issued, accepted]
    exact h n
  | issues nonce left => exact left ▸ accounted_issueNonce h nonce
  | consumes nonce left => exact left ▸ accounted_consumeNonce h nonce

/-- The registry before the first request. -/
structure Fresh (s : State) : Prop where
  nonces : s.nonces = ∅
  issued : s.issuedNonces = []
  accepted : s.acceptedNonces = []

/-- However the requests come in between each other, a nonce is accepted at most as often as it was
issued. -/
theorem accepted_le_issued (r : Service) {calls : ℕ → Call} {s₀ : State} (hfresh : Fresh s₀)
    {h : List (System State (Handler State Response) × ℕ)} {s : System State (Handler State Response)}
    (hrun : Run (System.turn Handler.next) ⟨s₀, fun i => r.handle (calls i)⟩ h s) (nonce : String) :
    s.shared.acceptedNonces.count nonce ≤ s.shared.issuedNonces.count nonce := by
  have hstart : Accounted s₀ := by
    intro n
    rw [hfresh.accepted, hfresh.nonces]
    exact Nat.zero_le _
  have hend := r.invariant (P := Accounted)
    (fun _ _ _ hs haccess => accounted_of_accesses hs (accessesNonces_of_access haccess)) hstart hrun
    nonce
  omega

/-! ### Texts that are signed -/

/-- What a text is mapped to one by one says that every character is mapped. -/
theorem isSome_of_mapM {α β : Type} {f : α → Option β} {l : List α} {r : List β}
    (h : l.mapM f = some r) : ∀ a ∈ l, (f a).isSome = true := by
  induction l generalizing r with
  | nil => exact fun a ha => absurd ha (by simp)
  | cons b l ih =>
    rw [List.mapM_cons] at h
    obtain ⟨y, hy, h⟩ := Option.bind_eq_some_iff.mp h
    obtain ⟨ys, hys, -⟩ := Option.bind_eq_some_iff.mp h
    intro a ha
    rcases List.mem_cons.mp ha with rfl | ha
    · rw [hy]
      rfl
    · exact ih hys a ha

/-- A text in base58 has no colon. -/
theorem colon_notMem_of_base58 {text : String} {bytes : List UInt8}
    (h : decodeBase58 text = some bytes) : ':' ∉ text.toList := by
  intro hmem
  rw [decodeBase58] at h
  obtain ⟨digits, hdigits, -⟩ := Option.map_eq_some_iff.mp h
  exact absurd (isSome_of_mapM hdigits ':' hmem) (by decide)

theorem colon_notMem_of_parsePubkey {text : String} {key : Pubkey}
    (h : parsePubkey text = some key) : ':' ∉ text.toList := by
  rw [parsePubkey] at h
  obtain ⟨bytes, hbytes, -⟩ := Option.bind_eq_some_iff.mp h
  exact colon_notMem_of_base58 hbytes

/-- A text in hexadecimal has no colon. -/
theorem colon_notMem_of_hexDecode {l : List Char} {bytes : List UInt8}
    (h : Text.hexDecode l = some bytes) : ':' ∉ l := by
  have hcolon : Text.hexValue ':' = none := by decide
  induction l using Text.hexDecode.induct generalizing bytes with
  | case1 => exact List.not_mem_nil
  | case2 c => exact absurd h (by simp [Text.hexDecode])
  | case3 high low rest ih =>
    rw [Text.hexDecode] at h
    obtain ⟨x, hx, h⟩ := Option.bind_eq_some_iff.mp h
    obtain ⟨y, hy, h⟩ := Option.bind_eq_some_iff.mp h
    obtain ⟨bs, hbs, -⟩ := Option.bind_eq_some_iff.mp h
    intro hmem
    rcases List.mem_cons.mp hmem with rfl | hmem
    · rw [hcolon] at hx
      exact absurd hx (by simp)
    · rcases List.mem_cons.mp hmem with rfl | hmem
      · rw [hcolon] at hy
        exact absurd hy (by simp)
      · exact ih hbs hmem

/-- Behind its beginning, a DID has no colon. -/
theorem did_of_extract {did : String} {key : Pubkey} (h : extractPubkeyFromDid did = some key) :
    ∃ rest, did.toList = "did:ignite:z".toList ++ rest ∧ ':' ∉ rest := by
  rw [extractPubkeyFromDid] at h
  split at h
  · next hstart =>
    obtain ⟨rest, hrest⟩ := List.isPrefixOf_iff_prefix.mp hstart
    obtain ⟨bytes, hbytes, -⟩ := Option.bind_eq_some_iff.mp h
    refine ⟨rest, hrest.symm, ?_⟩
    have hdrop : did.toList.drop 12 = rest := by
      rw [← hrest]
      rfl
    have hcolon := colon_notMem_of_base58 hbytes
    rwa [String.toList_ofList, hdrop] at hcolon
  · exact absurd h (by simp)

theorem hasDidFormat_of_extract {did : String} {key : Pubkey}
    (h : extractPubkeyFromDid did = some key) : hasDidFormat did := by
  obtain ⟨rest, hrest, -⟩ := did_of_extract h
  rw [hasDidFormat, hrest]
  exact List.isPrefixOf_iff_prefix.mpr ⟨'z' :: rest, rfl⟩

/-- What comes before the first separator, and what comes after it. -/
theorem append_separator_inj {α : Type} {a : α} {l l' rest rest' : List α} (hl : a ∉ l) (hl' : a ∉ l')
    (h : l ++ a :: rest = l' ++ a :: rest') : l = l' ∧ rest = rest' := by
  induction l generalizing l' with
  | nil =>
    cases l' with
    | nil => exact ⟨rfl, (List.cons_eq_cons.mp h).2⟩
    | cons b l' =>
      obtain ⟨rfl, -⟩ := List.cons_eq_cons.mp h
      exact absurd List.mem_cons_self hl'
  | cons c l ih =>
    cases l' with
    | nil =>
      obtain ⟨rfl, -⟩ := List.cons_eq_cons.mp h
      exact absurd List.mem_cons_self hl
    | cons b l' =>
      obtain ⟨rfl, htail⟩ := List.cons_eq_cons.mp h
      obtain ⟨rfl, hrest⟩ := ih (fun hm => hl (List.mem_cons_of_mem _ hm))
        (fun hm => hl' (List.mem_cons_of_mem _ hm)) htail
      exact ⟨rfl, hrest⟩

/-- Two DIDs in front of a colon are the same, and so is what comes after. -/
theorem did_append_inj {did did' : String} {key key' : Pubkey} {rest rest' : List Char}
    (hdid : extractPubkeyFromDid did = some key) (hdid' : extractPubkeyFromDid did' = some key')
    (h : did.toList ++ ':' :: rest = did'.toList ++ ':' :: rest') : did = did' ∧ rest = rest' := by
  obtain ⟨tail, htail, hcolon⟩ := did_of_extract hdid
  obtain ⟨tail', htail', hcolon'⟩ := did_of_extract hdid'
  rw [htail, htail', List.append_assoc, List.append_assoc] at h
  obtain ⟨heq, hrest⟩ := append_separator_inj hcolon hcolon' (List.append_cancel_left h)
  refine ⟨String.toList_inj.mp ?_, hrest⟩
  rw [htail, htail', heq]

/-! ### What a request carries -/

variable (r : Service)

/-- The request carries the nonce and the signature, which is one by the key. -/
structure SignedRequest (key : Pubkey) (nonce signature : String) (did message : String)
    (nonce' signature' : String) : Prop where
  signer : extractPubkeyFromDid did = some key
  nonce_eq : nonce' = nonce
  signature_eq : signature' = signature
  valid : r.verifyDidSignature did message signature' = true

def RegisterMerchantRequest.Carries (req : RegisterMerchantRequest) (key : Pubkey)
    (nonce signature : String) : Prop :=
  SignedRequest r key nonce signature req.merchantDid req.message req.nonce req.didSignature

def ConfirmRegisterRequest.Carries (req : ConfirmRegisterRequest) (key : Pubkey)
    (nonce signature : String) : Prop :=
  SignedRequest r key nonce signature req.merchantDid req.message req.nonce req.didSignature

/-- The signer is the platform. -/
structure RevokeVcRequest.Carries (req : RevokeVcRequest) (nonce signature : String) : Prop where
  nonce_eq : req.nonce = nonce
  signature_eq : req.platformSignature = signature
  valid : r.verifyPlatformSignature req.message req.platformSignature = true

/-- With an ideal scheme a signature is one of a single text. -/
def IdealSignatures : Prop :=
  ∀ key m m' sig, r.verify key m sig = true → r.verify key m' sig = true → m = m'

variable {r}

theorem verify_of_accepts {key : Pubkey} {m : String} {sig : Bytes 64}
    (h : r.accepts key m sig = true) : r.verify key m sig = true := (Bool.and_eq_true_iff.mp h).2

/-- The same signature by the same key is over the same text. -/
theorem SignedRequest.message_eq (hideal : IdealSignatures r) {key : Pubkey}
    {nonce signature did did' message message' n n' sig sig' : String}
    (h : SignedRequest r key nonce signature did message n sig)
    (h' : SignedRequest r key nonce signature did' message' n' sig') : message = message' := by
  have hvalid := h.valid
  have hvalid' := h'.valid
  rw [Router.Primitives.verifyDidSignature, h.signer, h.signature_eq] at hvalid
  rw [Router.Primitives.verifyDidSignature, h'.signer, h'.signature_eq] at hvalid'
  obtain ⟨s, hs, haccepts⟩ := (Option.any_eq_true _ _).mp hvalid
  obtain ⟨s', hs', haccepts'⟩ := (Option.any_eq_true _ _).mp hvalid'
  obtain rfl := Option.some_inj.mp (hs.symm.trans hs')
  exact hideal key _ _ _ (verify_of_accepts haccepts) (verify_of_accepts haccepts')

/-! ### Registration -/

/-- The key or the hash of the request cannot be read. -/
def RegisterMerchantRequest.Unreadable (r : Service) (req : RegisterMerchantRequest) : Prop :=
  ∀ key hash, parsePubkey req.activePubkey = some key →
    r.hexToBytes32 req.platformVcHash ≠ .ok hash

theorem colon_notMem_of_hexToBytes32 {text : String} {hash : Bytes 32}
    (h : r.hexToBytes32 text = .ok hash) : ':' ∉ text.toList := by
  rw [Service.hexToBytes32] at h
  split at h
  · exact absurd h (by simp)
  · next bytes hbytes => exact colon_notMem_of_hexDecode hbytes

/-- Where one of two requests over the same text can be read, they have the same fields. -/
theorem RegisterMerchantRequest.eq_of_readable {req req' : RegisterMerchantRequest} {key : Pubkey}
    {hash : Bytes 32} (hkey : parsePubkey req.activePubkey = some key)
    (hhash : r.hexToBytes32 req.platformVcHash = .ok hash)
    (h : req.activePubkey.toList ++ ':' :: req.platformVcHash.toList
      = req'.activePubkey.toList ++ ':' :: req'.platformVcHash.toList) :
    req.activePubkey = req'.activePubkey ∧ req.platformVcHash = req'.platformVcHash := by
  have hcolon := colon_notMem_of_parsePubkey hkey
  have hcolon' := colon_notMem_of_hexToBytes32 hhash
  -- The one colon of the text is where both requests have theirs.
  obtain ⟨hactive, -, hrest⟩ := (List.append_cons_inj_of_notMem hcolon hcolon').mp h
  exact ⟨String.toList_inj.mp hactive, String.toList_inj.mp hrest⟩

/-- The fields between the first colon and the nonce. -/
theorem RegisterMerchantRequest.fields_eq {req req' : RegisterMerchantRequest}
    (hmessage : req.message = req'.message) (hnonce : req.nonce = req'.nonce) :
    req.merchantDid.toList ++ ':' :: (req.activePubkey.toList ++ ':' :: req.platformVcHash.toList)
      = req'.merchantDid.toList ++
        ':' :: (req'.activePubkey.toList ++ ':' :: req'.platformVcHash.toList) := by
  have htext := congrArg String.toList hmessage
  simp only [RegisterMerchantRequest.message, String.toList_append, hnonce] at htext
  have hfields := List.append_cancel_right (List.append_cancel_right htext)
  simp only [List.append_assoc] at hfields
  exact List.append_cancel_left hfields

/-- Two registrations with the same signature are the same, or neither can be read. -/
theorem RegisterMerchantRequest.eq_or_unreadable (hideal : IdealSignatures r)
    {req req' : RegisterMerchantRequest} {key : Pubkey} {nonce signature : String}
    (h : req.Carries r key nonce signature) (h' : req'.Carries r key nonce signature)
    (hmode : req.mode = req'.mode) : req = req' ∨ (req.Unreadable r ∧ req'.Unreadable r) := by
  have hnonce : req.nonce = req'.nonce := h.nonce_eq.trans h'.nonce_eq.symm
  have hsignature : req.didSignature = req'.didSignature := h.signature_eq.trans h'.signature_eq.symm
  have hfields := RegisterMerchantRequest.fields_eq (h.message_eq hideal h') hnonce
  obtain ⟨hdid, hrest⟩ := did_append_inj h.signer h'.signer hfields
  have hsame : req.activePubkey = req'.activePubkey ∧ req.platformVcHash = req'.platformVcHash →
      req = req' := by
    rintro ⟨hactive, hhash⟩
    obtain ⟨did, active, hash, sig, n, mode⟩ := req
    cases req'
    dsimp only at hdid hactive hhash hsignature hnonce hmode
    subst hdid hactive hhash hsignature hnonce hmode
    rfl
  by_cases hread : req.Unreadable r
  · by_cases hread' : req'.Unreadable r
    · exact .inr ⟨hread, hread'⟩
    · simp only [RegisterMerchantRequest.Unreadable, not_forall, not_not] at hread'
      obtain ⟨k, hash, hk, hhash⟩ := hread'
      have heq := RegisterMerchantRequest.eq_of_readable hk hhash hrest.symm
      exact .inl (hsame ⟨heq.1.symm, heq.2.symm⟩)
  · simp only [RegisterMerchantRequest.Unreadable, not_forall, not_not] at hread
    obtain ⟨k, hash, hk, hhash⟩ := hread
    exact .inl (hsame (RegisterMerchantRequest.eq_of_readable hk hhash hrest))

/-- A registration that cannot be read consumes its nonce, and no more. -/
theorem run_registerMerchant_of_unreadable {o : Outcome} {req : RegisterMerchantRequest} {s : State}
    (h : req.Unreadable r) (hvalid : r.verifyDidSignature req.merchantDid req.message req.didSignature = true)
    (hformat : hasDidFormat req.merchantDid) :
    ((r.registerMerchant o req).run s).2 = (s.consumeNonce req.nonce).2 ∧
      ((r.registerMerchant o req).run s).1.status
        = if (s.consumeNonce req.nonce).1 then 400 else 401 := by
  rw [Service.registerMerchant, Handler.run_check_pos hformat, Service.withNonce, Handler.run_call]
  rcases hconsumed : (s.consumeNonce req.nonce).1 with _ | _
  · rw [Handler.run_check, if_neg (by simp)]
    exact ⟨rfl, rfl⟩
  · rw [Handler.run_check_pos rfl, Handler.run_check_pos hvalid, Service.parseKey, if_pos rfl]
    rcases hkey : parsePubkey req.activePubkey with _ | key
    · exact ⟨rfl, rfl⟩
    · rcases hhash : r.hexToBytes32 req.platformVcHash with e | hash
      · rw [orErr, Handler.run_orAnswer]
        dsimp only
        rw [Service.parseHash, hhash]
        exact ⟨rfl, rfl⟩
      · exact absurd hhash (h key hash hkey)

/-! ### Confirmation and revocation -/

/-- Two confirmations with the same signature differ at most in the key and the hash. -/
theorem ConfirmRegisterRequest.handler_eq (hideal : IdealSignatures r)
    {req req' : ConfirmRegisterRequest} {key : Pubkey} {nonce signature : String}
    (h : req.Carries r key nonce signature) (h' : req'.Carries r key nonce signature)
    (hkey : r.parseKey "active_pubkey" req.activePubkey = r.parseKey "active_pubkey" req'.activePubkey)
    (hhash : r.parseHash "platform_vc_hash" req.platformVcHash
      = r.parseHash "platform_vc_hash" req'.platformVcHash) (o : Outcome) :
    r.confirmRegister o req = r.confirmRegister o req' := by
  have hmessage : req.message = req'.message := h.message_eq hideal h'
  have hnonce : req.nonce = req'.nonce := h.nonce_eq.trans h'.nonce_eq.symm
  have hsignature : req.didSignature = req'.didSignature := h.signature_eq.trans h'.signature_eq.symm
  have htext := congrArg String.toList hmessage
  simp only [ConfirmRegisterRequest.message, String.toList_append, hnonce] at htext
  have hfields := List.append_cancel_right (List.append_cancel_right htext)
  simp only [List.append_assoc] at hfields
  obtain ⟨hdid, htx⟩ := did_append_inj h.signer h'.signer (List.append_cancel_left hfields)
  have htx : req.txSignature = req'.txSignature := String.toList_inj.mp htx
  simp only [Service.confirmRegister, Service.confirmOnchain, hmessage, hnonce, hsignature, hdid, htx,
    hkey, hhash]

/-- Two revocations with the same signature differ at most in the subject and the reason. -/
theorem RevokeVcRequest.eq_of_carries (hideal : IdealSignatures r) {req req' : RevokeVcRequest}
    {nonce signature : String} (h : req.Carries r nonce signature) (h' : req'.Carries r nonce signature)
    (hsubject : req.credentialSubjectPk = req'.credentialSubjectPk) (hreason : req.reason = req'.reason) :
    req = req' := by
  have hnonce : req.nonce = req'.nonce := h.nonce_eq.trans h'.nonce_eq.symm
  have hsignature : req.platformSignature = req'.platformSignature :=
    h.signature_eq.trans h'.signature_eq.symm
  have hvalid := h.valid
  have hvalid' := h'.valid
  rw [Service.verifyPlatformSignature] at hvalid hvalid'
  obtain ⟨sig, hsig, hverify⟩ := (Option.any_eq_true _ _).mp hvalid
  obtain ⟨sig', hsig', hverify'⟩ := (Option.any_eq_true _ _).mp hvalid'
  rw [hsignature] at hsig
  obtain rfl := Option.some_inj.mp (hsig.symm.trans hsig')
  have hmessage := hideal _ _ _ _ (Bool.and_eq_true_iff.mp hverify).2
    (Bool.and_eq_true_iff.mp hverify').2
  have htext := congrArg String.toList hmessage
  simp only [RevokeVcRequest.message, String.toList_append, hnonce] at htext
  have hhash := List.append_cancel_left (List.append_cancel_right (List.append_cancel_right htext))
  obtain ⟨hash, subject, reason, sig₁, n⟩ := req
  cases req'
  dsimp only at hnonce hsignature hhash hsubject hreason
  obtain rfl := String.toList_inj.mp hhash
  subst hnonce hsignature hsubject hreason
  rfl

/-! ### One effect -/

/-- What a signature authorizes.  Of all requests that come in between each other at most one gets
a nonce.  Requests with the same nonce and the same signature have the same effect and the same
response, as long as they agree in what is not signed; two registrations that cannot be read are
refused with the same status. -/
theorem signature_authorizes {r : Service} (hideal : IdealSignatures r) :
    (∀ (calls : ℕ → Call) (s₀ : State) (h : List (System State (Handler State Response) × ℕ))
        (s : System State (Handler State Response)), Fresh s₀ →
      Run (System.turn Handler.next) ⟨s₀, fun i => r.handle (calls i)⟩ h s →
      s.shared.issuedNonces.Nodup → ∀ nonce, s.shared.acceptedNonces.count nonce ≤ 1) ∧
    (∀ (req req' : RegisterMerchantRequest) (key : Pubkey) (nonce signature : String),
      req.Carries r key nonce signature → req'.Carries r key nonce signature → req.mode = req'.mode →
      ∀ o s,
        ((r.registerMerchant o req).run s).2 = ((r.registerMerchant o req').run s).2 ∧
        ((r.registerMerchant o req).run s).1.status = ((r.registerMerchant o req').run s).1.status ∧
        (¬ req.Unreadable r → (r.registerMerchant o req).run s = (r.registerMerchant o req').run s)) ∧
    (∀ (req req' : ConfirmRegisterRequest) (key : Pubkey) (nonce signature : String),
      req.Carries r key nonce signature → req'.Carries r key nonce signature →
      r.parseKey "active_pubkey" req.activePubkey = r.parseKey "active_pubkey" req'.activePubkey →
      r.parseHash "platform_vc_hash" req.platformVcHash
        = r.parseHash "platform_vc_hash" req'.platformVcHash → ∀ o s,
        (r.confirmRegister o req).run s = (r.confirmRegister o req').run s) ∧
    ∀ (req req' : RevokeVcRequest) (nonce signature : String),
      req.Carries r nonce signature → req'.Carries r nonce signature →
      req.credentialSubjectPk = req'.credentialSubjectPk → req.reason = req'.reason → ∀ o s,
        (r.revokeVc o req).run s = (r.revokeVc o req').run s := by
  refine ⟨?_, ?_, ?_, ?_⟩
  · intro calls s₀ h s hfresh hrun hnodup nonce
    exact (accepted_le_issued r hfresh hrun nonce).trans (List.nodup_iff_count_le_one.mp hnodup nonce)
  · intro req req' key nonce signature h h' hmode o s
    rcases RegisterMerchantRequest.eq_or_unreadable hideal h h' hmode with rfl | ⟨hun, hun'⟩
    · exact ⟨rfl, rfl, fun _ => rfl⟩
    · have hnonce : req.nonce = req'.nonce := h.nonce_eq.trans h'.nonce_eq.symm
      obtain ⟨hstate, hstatus⟩ := run_registerMerchant_of_unreadable (o := o) (s := s) hun h.valid
        (hasDidFormat_of_extract h.signer)
      obtain ⟨hstate', hstatus'⟩ :=
        run_registerMerchant_of_unreadable (o := o) (s := s) hun' h'.valid
          (hasDidFormat_of_extract h'.signer)
      rw [hstate, hstate', hstatus, hstatus', hnonce]
      exact ⟨rfl, rfl, fun hread => absurd hun hread⟩
  · intro req req' key nonce signature h h' hkey hhash o s
    rw [ConfirmRegisterRequest.handler_eq hideal h h' hkey hhash]
  · intro req req' nonce signature h h' hsubject hreason o s
    rw [RevokeVcRequest.eq_of_carries hideal h h' hsubject hreason]

namespace Sample

/-- A merchant, and a transaction on the chain. -/
def did : String := Router.Sample.victim

def txSignature : String :=
  "3d9fY2JGf7wgaqzffrGRXE5kNGouHmLHAoQAfTcyCiix7MRFUs4zFxxCBVRJaDn9ErVsoRSuHFvFmVssc3THiHhL"

/-- The merchant's key, and one of somebody else. -/
def merchantKey : String := "UQjGk49ndss3oNa1pt3pZbBobYXiy2nkd6iSAYc6NH1"

def otherKey : String := "7MCDE9fdDJrTBPMs62fGACCCDny4tfBDKun5VLkKqKUe"

/-- One hash in two spellings. -/
def vcHash : String := "abababababababababababababababababababababababababababababababab"

def upperVcHash : String := "ABABABABABABABABABABABABABABABABABABABABABABABABABABABABABABABAB"

/-- The merchant's signature of the confirmation, and the same in base64. -/
def signature : Bytes 64 := number 64
  0x8dd38e1d4468a9840c533a49cefc130d83ffd3a53fe922fc3d9949e38796c82998ec36126a65268ebde9a9a6c8a6b664d14c9562eb6eef6ee5ee241e2c5e793

def signature_b64 : String :=
  "k+fF4kHiXu727rYuVskUTWZrimyamt7raFKmJmHDjpmCbHk4npTZwy+S/lM6/T/YMMHvnKQzxUCYikbU4TjdCA"

/-- The confirmation that the merchant signs, with a key and a hash of anyone's choice. -/
def confirmation (activePubkey platformVcHash : String) : ConfirmRegisterRequest where
  merchantDid := did
  txSignature := txSignature
  activePubkey := activePubkey
  platformVcHash := platformVcHash
  didSignature := signature_b64
  nonce := Router.Sample.nonce

/-- A registry, where the merchant has made one signature. -/
def service : Service where
  parseJson _ := .error "expected value at line 1 column 1"
  decodeBase64 t := if t = signature_b64 then some signature.val else none
  validKey _ := true
  validSignature _ := true
  verify k m sig := decide (k = Router.Sample.victimKey ∧ m = (confirmation merchantKey vcHash).message ∧
    sig = signature)
  sha256 t := Sha256.sha256 (ofLiteral t)
  encodeBase64 _ := ""
  jsonText _ := ""
  dateText _ := ""
  parseDate _ := none
  verifyStrict _ _ _ := false
  config := ⟨"", 0, 0, 0⟩
  payer := fill 32 1
  platformKey := fill 32 2
  platformDid := "did:ignite:zPlatform"
  didProgramId := ""
  signText _ := fill 64 0
  signBytes _ := fill 64 0
  runtime := Did.Sample.runtime
  pubkeyError _ := "Invalid Base58 string"
  signatureError _ := "string decoded to wrong size for signature"
  hexError _ := "Odd number of digits"
  transactionText _ _ := ""
  revokedVcAddress _ := ""

theorem service_ideal : IdealSignatures service := by
  intro key m m' sig h h'
  exact (of_decide_eq_true h).2.1.trans (of_decide_eq_true h').2.1.symm

/-- The nonce has been issued. -/
def start : State := State.issueNonce { chain := Did.Sample.empty } Router.Sample.nonce

/-- The chain knows the transaction. -/
def outcome : Outcome := ⟨.confirmed, true, .confirmed, "", "", "", ""⟩

theorem confirmation_carries (activePubkey platformVcHash : String) :
    (confirmation activePubkey platformVcHash).Carries service Router.Sample.victimKey
      Router.Sample.nonce signature_b64 where
  signer := by
    show extractPubkeyFromDid did = some Router.Sample.victimKey
    decide
  nonce_eq := rfl
  signature_eq := rfl
  valid := by
    show service.verifyDidSignature did (confirmation merchantKey vcHash).message signature_b64 = true
    decide +kernel

end Sample

/-- A confirmation that is sent with the hash in another spelling. -/
theorem confirmed_alike : (Sample.service.confirmRegister Sample.outcome
      (Sample.confirmation Sample.merchantKey Sample.vcHash)).run Sample.start
    = (Sample.service.confirmRegister Sample.outcome
      (Sample.confirmation Sample.merchantKey Sample.upperVcHash)).run Sample.start :=
  (signature_authorizes Sample.service_ideal).2.2.1 _ _ _ _ _ (Sample.confirmation_carries _ _)
    (Sample.confirmation_carries _ _) rfl
    (congrArg (fun h => Except.mapError (ε := String) (α := Bytes 32) _ h) (by decide)) _ _

/-- Somebody else can put a key of their own into the confirmation. -/
theorem confirmed_differently : ¬ ∀ (r : Service), IdealSignatures r →
    ∀ (req req' : ConfirmRegisterRequest) (key : Pubkey) (nonce signature : String),
      req.Carries r key nonce signature → req'.Carries r key nonce signature → ∀ o s,
        ((r.confirmRegister o req).run s).2.merchants
          = ((r.confirmRegister o req').run s).2.merchants := by
  intro hall
  have hsame := hall _ Sample.service_ideal _ _ _ _ _
    (Sample.confirmation_carries Sample.merchantKey Sample.vcHash)
    (Sample.confirmation_carries Sample.otherKey Sample.vcHash) Sample.outcome Sample.start
  have hkeys := congrArg (fun m : Store.Map (Bytes 32) MerchantDidAccount =>
    (m.lookup (Sample.service.computeDidHash Sample.did)).map MerchantDidAccount.controllerPk) hsame
  exact absurd hkeys (by decide +kernel)

end Registry
