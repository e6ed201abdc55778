/-
What each instruction of the DID program can do.

`Effect` lists, call by call, the facts that a success establishes.  What the calls make of one DID
is said twice over: by `Turn` for a DID that exists, and by `Created` for one that did not.

* `effect_of_exec` — every successful call has the effect that is listed for it;
* `turn_of_exec` — a DID that exists stays, and changes in one of four ways;
* `created_of_exec` — a DID comes into being by `initialize_did` alone;
* `kept_of_exec` — the platform's configuration and the records of revocations stay as written.
-/
import IgnitePay.Did.Program

namespace Did

open Bytes Machine Solana

/-! ### The facts behind each success -/

/-- A signer who has the right that the instruction asks for. -/
structure Authorized (rt : Runtime) (ctx : DidAccess) (authority : MerchantDidAccount → Pubkey)
    (w : World) (did : MerchantDidAccount) : Prop where
  signs : rt.canSign ctx.signer = true
  stored : w.didAt ctx.merchantDid = some did
  place : ctx.merchantDid = .merchantDid did.originalPk
  authority_eq : authority did = ctx.signer

/-- The platform has signed for this key and this hash. -/
def Certified (rt : Runtime) (w : World) (subject : Pubkey) (vcHash : Bytes 32)
    (platformSignature : Bytes 64) : Prop :=
  ∃ config, w.configAt .platformConfig = some config ∧
    rt.ed25519Verify (credentialMessage subject vcHash) platformSignature
      config.platformEd25519Pubkey = true

/-- `did'` is `did` after a change to `changed`: the nonce is one higher. -/
structure Saved (w : World) (did changed did' : MerchantDidAccount) : Prop where
  nonce_eq : did'.nonce.toNat = did.nonce.toNat + 1
  did_eq : did' = { changed with lastUpdated := w.now, nonce := did'.nonce }

/-- A new DID. -/
def newDid (signer : Pubkey) (vcHash : Bytes 32) (now : Int64) : MerchantDidAccount where
  originalPk := signer
  controllerPk := signer
  recoveryPk := defaultPubkey
  vcHash := vcHash
  lastUpdated := now
  nonce := 0

/-- What a successful call does to the ledger. -/
inductive Effect (rt : Runtime) (w w' : World) : Call → Prop
  | initPlatform {authority : Pubkey} {key : Bytes 32}
      (fresh : w.accounts.lookup .platformConfig = none)
      (left : w' = w.setAccount .platformConfig (.platformConfig ⟨key, authority⟩)) :
      Effect rt w w' (.initPlatform authority key)
  | initializeDid {signer : Pubkey} {vcHash : Bytes 32} {sig : Bytes 64} {subject : Pubkey}
      (signs : rt.canSign signer = true) (fresh : w.accounts.lookup (.merchantDid signer) = none)
      (certified : Certified rt w signer vcHash sig)
      (left : w' = w.setAccount (.merchantDid signer) (.merchantDid (newDid signer vcHash w.now))) :
      Effect rt w w' (.initializeDid signer vcHash sig subject)
  | updateDidWithVc {ctx : DidAccess} {vcHash : Bytes 32} {sig : Bytes 64} {subject : Pubkey}
      {did did' : MerchantDidAccount}
      (authorized : Authorized rt ctx MerchantDidAccount.controllerPk w did)
      (certified : Certified rt w ctx.signer vcHash sig)
      (saved : Saved w did { did with vcHash } did')
      (left : w' = w.setAccount ctx.merchantDid (.merchantDid did')) :
      Effect rt w w' (.updateDidWithVc ctx vcHash did.nonce sig subject)
  | setRecoveryKey {ctx : DidAccess} {recoveryPk : Pubkey} {did did' : MerchantDidAccount}
      (authorized : Authorized rt ctx MerchantDidAccount.controllerPk w did)
      (saved : Saved w did { did with recoveryPk } did')
      (left : w' = w.setAccount ctx.merchantDid (.merchantDid did')) :
      Effect rt w w' (.setRecoveryKey ctx recoveryPk did.nonce)
  | recoverController {ctx : DidAccess} {newControllerPk : Pubkey} {did did' : MerchantDidAccount}
      (authorized : Authorized rt ctx MerchantDidAccount.recoveryPk w did)
      (saved : Saved w did { did with controllerPk := newControllerPk } did')
      (left : w' = w.setAccount ctx.merchantDid (.merchantDid did')) :
      Effect rt w w' (.recoverController ctx newControllerPk did.nonce)
  | revokeVc {authority : Pubkey} {vcHash : Bytes 32} {subject : Pubkey} {reason : UInt8}
      (fresh : w.accounts.lookup (.revokedVc vcHash) = none)
      (left : w' = w.setAccount (.revokedVc vcHash)
        (.revokedVc ⟨vcHash, subject, w.now, reason, authority⟩)) :
      Effect rt w w' (.revokeVc authority vcHash subject reason)
  | tick {now : Int64} (left : w' = { w with now }) : Effect rt w w' (.tick now)

section

variable {rt : Runtime} {w w' : World} {ctx : DidAccess}

theorem authorized_of_load {did : MerchantDidAccount} {authority : MerchantDidAccount → Pubkey}
    {e : DidError} (h : loadAuthorized rt ctx authority e w = .ok did) : Authorized rt ctx authority w did := by
  simp only [loadAuthorized, requireSigner, loadDid, bind_eq_ok, require_eq_ok, orErr_eq_ok,
    exists_const, pure, Except.pure, Except.ok.injEq] at h
  obtain ⟨signs, _, stored, place, authority_eq, rfl⟩ := h
  exact { signs, stored, place, authority_eq }

theorem certified_of_check {config : PlatformConfig} {signer : Pubkey} {vcHash : Bytes 32}
    {sig : Bytes 64} (hload : loadInitializedConfig w = .ok config)
    (hcheck : checkPlatformSignature rt config signer vcHash sig = .ok ()) :
    Certified rt w signer vcHash sig := by
  simp only [loadInitializedConfig, loadConfig, bind_eq_ok, require_eq_ok, orErr_eq_ok,
    exists_const, pure, Except.pure, Except.ok.injEq] at hload
  obtain ⟨_, hconfig, -, rfl⟩ := hload
  exact ⟨_, hconfig, require_eq_ok.mp hcheck⟩

theorem saved_of_save (did : MerchantDidAccount) {changed : MerchantDidAccount}
    (h : saveDid ctx changed w = .ok w') (hnonce : changed.nonce = did.nonce) :
    ∃ did', Saved w did changed did' ∧ w' = w.setAccount ctx.merchantDid (.merchantDid did') := by
  simp only [saveDid, bind_eq_ok, orErr_eq_ok, checkedAdd_eq_some, pure, Except.pure,
    Except.ok.injEq] at h
  obtain ⟨nonce, hadd, rfl⟩ := h
  have hone : (1 : UInt64).toNat = 1 := rfl
  refine ⟨_, ⟨?_, rfl⟩, rfl⟩
  rw [hnonce] at hadd
  show nonce.toNat = did.nonce.toNat + 1
  omega

/-- Every successful call has the effect that is listed for it. -/
theorem effect_of_exec {c : Call} (h : exec rt c w = .ok w') : Effect rt w w' c := by
  cases c with
  | initPlatform authority key =>
    simp only [exec, initPlatform, requireSigner, initAccount, bind_eq_ok, require_eq_ok,
      exists_const, pure, Except.pure, Except.ok.injEq] at h
    exact .initPlatform h.2.1 h.2.2.symm
  | initializeDid signer vcHash sig subject =>
    simp only [exec, initializeDid, requireSigner, initAccount, bind_eq_ok, require_eq_ok,
      exists_const, pure, Except.pure, Except.ok.injEq] at h
    obtain ⟨signs, fresh, config, hload, _, hcheck, left⟩ := h
    exact .initializeDid signs fresh (certified_of_check hload hcheck) left.symm
  | updateDidWithVc ctx vcHash nonce sig subject =>
    simp only [exec, updateDidWithVc, bind_eq_ok, require_eq_ok, exists_const] at h
    obtain ⟨did, hauth, config, hload, rfl, _, hcheck, hsave⟩ := h
    obtain ⟨did', saved, left⟩ := saved_of_save did hsave rfl
    exact .updateDidWithVc (authorized_of_load hauth) (certified_of_check hload hcheck) saved left
  | setRecoveryKey ctx recoveryPk nonce =>
    simp only [exec, setRecoveryKey, bind_eq_ok, require_eq_ok, exists_const] at h
    obtain ⟨did, hauth, rfl, hsave⟩ := h
    obtain ⟨did', saved, left⟩ := saved_of_save did hsave rfl
    exact .setRecoveryKey (authorized_of_load hauth) saved left
  | recoverController ctx newControllerPk nonce =>
    simp only [exec, recoverController, bind_eq_ok, require_eq_ok, exists_const] at h
    obtain ⟨did, hauth, rfl, hsave⟩ := h
    obtain ⟨did', saved, left⟩ := saved_of_save did hsave rfl
    exact .recoverController (authorized_of_load hauth) saved left
  | revokeVc authority vcHash subject reason =>
    simp only [exec, revokeVc, requireSigner, initAccount, bind_eq_ok, require_eq_ok, exists_const,
      pure, Except.pure, Except.ok.injEq] at h
    obtain ⟨-, _, -, -, fresh, left⟩ := h
    exact .revokeVc fresh left.symm
  | tick now =>
    obtain rfl := Except.ok.inj h
    exact .tick rfl

end

/-! ### One DID -/

/-- The DID that a call changes. -/
def Call.target : Call → Option Address
  | .updateDidWithVc ctx _ _ _ _ => some ctx.merchantDid
  | .setRecoveryKey ctx _ _ => some ctx.merchantDid
  | .recoverController ctx _ _ => some ctx.merchantDid
  | _ => none

/-- What becomes of the DID at `a`. -/
inductive Turn (rt : Runtime) (w : World) (a : Address) (did did' : MerchantDidAccount) :
    Call → Prop
  | updates {ctx : DidAccess} {vcHash : Bytes 32} {sig : Bytes 64} {subject : Pubkey}
      (here : ctx.merchantDid = a) (authorized : Authorized rt ctx MerchantDidAccount.controllerPk w did)
      (certified : Certified rt w ctx.signer vcHash sig)
      (saved : Saved w did { did with vcHash } did') :
      Turn rt w a did did' (.updateDidWithVc ctx vcHash did.nonce sig subject)
  | setsRecovery {ctx : DidAccess} {recoveryPk : Pubkey}
      (here : ctx.merchantDid = a) (authorized : Authorized rt ctx MerchantDidAccount.controllerPk w did)
      (saved : Saved w did { did with recoveryPk } did') :
      Turn rt w a did did' (.setRecoveryKey ctx recoveryPk did.nonce)
  | recovers {ctx : DidAccess} {newControllerPk : Pubkey}
      (here : ctx.merchantDid = a) (authorized : Authorized rt ctx MerchantDidAccount.recoveryPk w did)
      (saved : Saved w did { did with controllerPk := newControllerPk } did') :
      Turn rt w a did did' (.recoverController ctx newControllerPk did.nonce)
  | stays {c : Call} (elsewhere : c.target ≠ some a) (same : did' = did) : Turn rt w a did did' c

/-- A new DID at `a`. -/
inductive Created (rt : Runtime) (w : World) (a : Address) (did : MerchantDidAccount) : Call → Prop
  | mk {signer : Pubkey} {vcHash : Bytes 32} {sig : Bytes 64} {subject : Pubkey}
      (place : a = .merchantDid signer) (signs : rt.canSign signer = true)
      (certified : Certified rt w signer vcHash sig) (did_eq : did = newDid signer vcHash w.now) :
      Created rt w a did (.initializeDid signer vcHash sig subject)

section

variable {rt : Runtime} {w w' : World} {a b : Address} {did : MerchantDidAccount} {c : Call}

theorem didAt_setAccount_of_ne {d : AccountData} (hne : a ≠ b) :
    (w.setAccount b d).didAt a = w.didAt a := by
  rw [World.didAt, World.lookup_setAccount, if_neg hne]
  rfl

theorem didAt_setAccount_self : (w.setAccount a (.merchantDid did)).didAt a = some did :=
  World.didAt_eq_some.mpr (by rw [World.lookup_setAccount, if_pos rfl])

theorem ne_of_fresh {d : AccountData} (hlookup : w.accounts.lookup a = some d)
    (fresh : w.accounts.lookup b = none) : a ≠ b := by
  rintro rfl
  rw [fresh] at hlookup
  exact absurd hlookup (by simp)

/-- An instruction on the DID at `b` writes to it, and leaves the one at `a` alone if that is
another. -/
theorem turn_of_written {ctx : DidAccess} {d d' : MerchantDidAccount}
    (hdid : w.didAt a = some did) (stored : w.didAt ctx.merchantDid = some d)
    (htarget : c.target = some ctx.merchantDid)
    (hturn : ctx.merchantDid = a → d = did → Turn rt w a did d' c) :
    ∃ did', (w.setAccount ctx.merchantDid (.merchantDid d')).didAt a = some did' ∧
      Turn rt w a did did' c := by
  by_cases here : ctx.merchantDid = a
  · have hsame : d = did := Option.some.inj (stored.symm.trans (here ▸ hdid))
    exact ⟨d', here ▸ didAt_setAccount_self, hturn here hsame⟩
  · have elsewhere : c.target ≠ some a := fun h => here (Option.some.inj (htarget.symm.trans h))
    exact ⟨did, (didAt_setAccount_of_ne fun h => here h.symm).trans hdid, .stays elsewhere rfl⟩

/-- A DID that exists stays, and changes in one of four ways. -/
theorem turn_of_exec (h : exec rt c w = .ok w') (hdid : w.didAt a = some did) :
    ∃ did', w'.didAt a = some did' ∧ Turn rt w a did did' c := by
  have hlookup := World.didAt_eq_some.mp hdid
  cases effect_of_exec h with
  | initPlatform fresh left =>
    subst left
    refine ⟨did, (didAt_setAccount_of_ne (ne_of_fresh hlookup fresh)).trans hdid, ?_⟩
    exact .stays (by simp [Call.target]) rfl
  | initializeDid signs fresh certified left =>
    subst left
    refine ⟨did, (didAt_setAccount_of_ne (ne_of_fresh hlookup fresh)).trans hdid, ?_⟩
    exact .stays (by simp [Call.target]) rfl
  | updateDidWithVc authorized certified saved left =>
    subst left
    refine turn_of_written hdid authorized.stored rfl ?_
    rintro here rfl
    exact .updates here authorized certified saved
  | setRecoveryKey authorized saved left =>
    subst left
    refine turn_of_written hdid authorized.stored rfl ?_
    rintro here rfl
    exact .setsRecovery here authorized saved
  | recoverController authorized saved left =>
    subst left
    refine turn_of_written hdid authorized.stored rfl ?_
    rintro here rfl
    exact .recovers here authorized saved
  | revokeVc fresh left =>
    subst left
    refine ⟨did, (didAt_setAccount_of_ne (ne_of_fresh hlookup fresh)).trans hdid, ?_⟩
    exact .stays (by simp [Call.target]) rfl
  | tick left =>
    subst left
    exact ⟨did, hdid, .stays (by simp [Call.target]) rfl⟩

/-- Data that is no DID makes no DID. -/
theorem not_did_of_setAccount {d : AccountData} (hnone : w.didAt a = none)
    (hother : ∀ did, d ≠ .merchantDid did) : (w.setAccount b d).didAt a = none := by
  rcases hd : (w.setAccount b d).didAt a with _ | did
  · rfl
  · have hlookup := World.didAt_eq_some.mp hd
    rw [World.lookup_setAccount] at hlookup
    by_cases hab : a = b
    · rw [if_pos hab] at hlookup
      exact absurd (Option.some.inj hlookup) (hother did)
    · rw [if_neg hab] at hlookup
      rw [World.didAt_eq_some.mpr hlookup] at hnone
      exact absurd hnone (by simp)

/-- Where there is no DID, the calls that change one fail; one comes into being by `initialize_did`. -/
theorem created_of_exec (h : exec rt c w = .ok w') (hnone : w.didAt a = none) :
    c.target ≠ some a ∧ ∀ did, w'.didAt a = some did → Created rt w a did c := by
  -- An instruction on a DID has found one, so it was not made at `a`.
  have hwritten : ∀ {ctx : DidAccess} {d d' : MerchantDidAccount},
      w.didAt ctx.merchantDid = some d → ctx.merchantDid ≠ a ∧
        (w.setAccount ctx.merchantDid (.merchantDid d')).didAt a = none := by
    intro ctx d d' stored
    have hne : ctx.merchantDid ≠ a := by
      rintro rfl
      rw [hnone] at stored
      exact absurd stored (by simp)
    exact ⟨hne, (didAt_setAccount_of_ne fun h => hne h.symm).trans hnone⟩
  have hstill : ∀ {w' : World}, w'.didAt a = none →
      ∀ did, w'.didAt a = some did → Created rt w a did c := by
    intro w' hw' did hdid
    rw [hw'] at hdid
    exact absurd hdid (by simp)
  cases effect_of_exec h with
  | initPlatform fresh left =>
    subst left
    exact ⟨by simp [Call.target], hstill (not_did_of_setAccount hnone (by simp))⟩
  | @initializeDid signer vcHash sig subject signs fresh certified left =>
    subst left
    refine ⟨by simp [Call.target], fun did hdid => ?_⟩
    by_cases here : a = .merchantDid signer
    · subst here
      have hnew := Option.some.inj (didAt_setAccount_self.symm.trans hdid)
      exact .mk rfl signs certified hnew.symm
    · rw [didAt_setAccount_of_ne here, hnone] at hdid
      exact absurd hdid (by simp)
  | updateDidWithVc authorized certified saved left =>
    subst left
    obtain ⟨hne, hgone⟩ := hwritten authorized.stored
    exact ⟨fun ht => hne (Option.some.inj ht), hstill hgone⟩
  | setRecoveryKey authorized saved left =>
    subst left
    obtain ⟨hne, hgone⟩ := hwritten authorized.stored
    exact ⟨fun ht => hne (Option.some.inj ht), hstill hgone⟩
  | recoverController authorized saved left =>
    subst left
    obtain ⟨hne, hgone⟩ := hwritten authorized.stored
    exact ⟨fun ht => hne (Option.some.inj ht), hstill hgone⟩
  | revokeVc fresh left =>
    subst left
    exact ⟨by simp [Call.target], hstill (not_did_of_setAccount hnone (by simp))⟩
  | tick left =>
    subst left
    exact ⟨by simp [Call.target], hstill hnone⟩

/-- What is not a DID is never written again. -/
theorem kept_of_exec (h : exec rt c w = .ok w') {d : AccountData}
    (hlookup : w.accounts.lookup a = some d) (hother : ∀ did, d ≠ .merchantDid did) :
    w'.accounts.lookup a = some d := by
  have hfresh : ∀ {b : Address} {d' : AccountData}, w.accounts.lookup b = none →
      (w.setAccount b d').accounts.lookup a = some d := by
    intro b d' fresh
    rw [World.lookup_setAccount, if_neg (ne_of_fresh hlookup fresh), hlookup]
  have hdid : ∀ {b : Address} {did d' : MerchantDidAccount}, w.didAt b = some did →
      (w.setAccount b (.merchantDid d')).accounts.lookup a = some d := by
    intro b did d' stored
    have hne : a ≠ b := by
      rintro rfl
      have hboth := Option.some.inj ((World.didAt_eq_some.mp stored).symm.trans hlookup)
      exact hother did hboth.symm
    rw [World.lookup_setAccount, if_neg hne, hlookup]
  cases effect_of_exec h with
  | initPlatform fresh left => exact left ▸ hfresh fresh
  | initializeDid signs fresh certified left => exact left ▸ hfresh fresh
  | updateDidWithVc authorized certified saved left => exact left ▸ hdid authorized.stored
  | setRecoveryKey authorized saved left => exact left ▸ hdid authorized.stored
  | recoverController authorized saved left => exact left ▸ hdid authorized.stored
  | revokeVc fresh left => exact left ▸ hfresh fresh
  | tick left => exact left ▸ hlookup

end

end Did
