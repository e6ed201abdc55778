/-
Who controls a DID, and whom its credential is for.

A DID is followed through a run by `Run.did_induction`: it is created by `initialize_did`, at the
address of the key that signs, and from then on every call makes of it one of the four things of
`Turn`.

* `nonce_of_run` — the nonce counts the calls that changed the DID;
* `Turn.governed` — the credential hash and the recovery key are the controller's to change, the
  controller is the recovery key's;
* `credential_of_run` — the installed hash was certified for the key that controlled the DID then;
  the controller is still that key, unless the DID was recovered since;
* `control_and_credential` — all of it, for every run from an empty ledger;
* `recovered_without_credential` — after a recovery no signature covers the new controller.

The key of all zeros, which stands for no recovery key, is a point of small order, and the runtime
rejects its signatures: that is what `rt.canSign defaultPubkey = false` says.
-/
import IgnitePay.Did.Spec
import IgnitePay.Lib.Run

namespace Did

open Bytes Machine Solana

/-! ### What a call asks for -/

/-- The key that signs. -/
def Call.signer : Call → Option Pubkey
  | .initPlatform authority _ => some authority
  | .initializeDid signer _ _ _ => some signer
  | .updateDidWithVc ctx _ _ _ _ => some ctx.signer
  | .setRecoveryKey ctx _ _ => some ctx.signer
  | .recoverController ctx _ _ => some ctx.signer
  | .revokeVc authority _ _ _ => some authority
  | .tick _ => none

/-- A credential that a call installs, with the signer for whom it does. -/
structure Install where
  did : Address
  subject : Pubkey
  vcHash : Bytes 32
  platformSignature : Bytes 64
deriving DecidableEq

def Call.install : Call → Option Install
  | .initializeDid signer vcHash sig _ => some ⟨.merchantDid signer, signer, vcHash, sig⟩
  | .updateDidWithVc ctx vcHash _ sig _ => some ⟨ctx.merchantDid, ctx.signer, vcHash, sig⟩
  | _ => none

/-- The DID whose controller a call replaces. -/
def Call.recovered : Call → Option Address
  | .recoverController ctx _ _ => some ctx.merchantDid
  | _ => none

/-- How many calls of a history changed the DID at `a`. -/
def changesOn (a : Address) (h : List (World × Call)) : ℕ :=
  h.countP fun c => decide (c.2.target = some a)

/-! ### One step -/

def SignedBy (rt : Runtime) (c : Call) (k : Pubkey) : Prop :=
  c.signer = some k ∧ rt.canSign k = true

/-- Who may change what. -/
structure Governed (rt : Runtime) (did did' : MerchantDidAccount) (c : Call) : Prop where
  originalPk_eq : did'.originalPk = did.originalPk
  vcHash_of : did'.vcHash ≠ did.vcHash → SignedBy rt c did.controllerPk
  recoveryPk_of : did'.recoveryPk ≠ did.recoveryPk → SignedBy rt c did.controllerPk
  controllerPk_of : did'.controllerPk ≠ did.controllerPk →
    SignedBy rt c did.recoveryPk ∧ did.recoveryPk ≠ defaultPubkey

section

variable {rt : Runtime} {w w' : World} {a : Address} {did did' : MerchantDidAccount} {c : Call}

theorem Authorized.signedBy {ctx : DidAccess} {authority : MerchantDidAccount → Pubkey}
    (h : Authorized rt ctx authority w did) (hsigner : c.signer = some ctx.signer) :
    SignedBy rt c (authority did) := by
  rw [h.authority_eq]
  exact ⟨hsigner, h.signs⟩

theorem Turn.governed (hnull : rt.canSign defaultPubkey = false) (h : Turn rt w a did did' c) :
    Governed rt did did' c := by
  cases h with
  | updates here authorized certified saved =>
    rw [saved.did_eq]
    exact ⟨rfl, fun _ => authorized.signedBy rfl, fun hne => absurd rfl hne, fun hne => absurd rfl hne⟩
  | setsRecovery here authorized saved =>
    rw [saved.did_eq]
    exact ⟨rfl, fun hne => absurd rfl hne, fun _ => authorized.signedBy rfl, fun hne => absurd rfl hne⟩
  | recovers here authorized saved =>
    have hset : did.recoveryPk ≠ defaultPubkey := by
      intro hdefault
      have hsigns := authorized.signs
      rw [← authorized.authority_eq, hdefault, hnull] at hsigns
      exact absurd hsigns (by simp)
    rw [saved.did_eq]
    exact ⟨rfl, fun hne => absurd rfl hne, fun hne => absurd rfl hne,
      fun _ => ⟨authorized.signedBy rfl, hset⟩⟩
  | stays elsewhere same =>
    rw [same]
    exact ⟨rfl, fun hne => absurd rfl hne, fun hne => absurd rfl hne, fun hne => absurd rfl hne⟩

theorem Turn.originalPk_eq (h : Turn rt w a did did' c) : did'.originalPk = did.originalPk := by
  cases h with
  | updates here authorized certified saved => rw [saved.did_eq]
  | setsRecovery here authorized saved => rw [saved.did_eq]
  | recovers here authorized saved => rw [saved.did_eq]
  | stays elsewhere same => rw [same]

theorem Turn.nonce_eq (h : Turn rt w a did did' c) :
    did'.nonce.toNat = did.nonce.toNat + if c.target = some a then 1 else 0 := by
  cases h with
  | updates here authorized certified saved =>
    simpa [Call.target, here] using saved.nonce_eq
  | setsRecovery here authorized saved =>
    simpa [Call.target, here] using saved.nonce_eq
  | recovers here authorized saved =>
    simpa [Call.target, here] using saved.nonce_eq
  | stays elsewhere same =>
    rw [if_neg elsewhere, same]
    rfl

/-- What the platform has signed for stays so: its key is never replaced. -/
theorem Certified.of_exec {subject : Pubkey} {vcHash : Bytes 32} {sig : Bytes 64}
    (h : Certified rt w subject vcHash sig) (hexec : exec rt c w = .ok w') :
    Certified rt w' subject vcHash sig := by
  obtain ⟨config, hconfig, hverify⟩ := h
  have hlookup := kept_of_exec hexec (World.configAt_eq_some.mp hconfig) (by simp)
  exact ⟨config, World.configAt_eq_some.mpr hlookup, hverify⟩

end

/-! ### Runs -/

section

variable {rt : Runtime} {w₀ w : World} {h : List (World × Call)} {a : Address}

/-- As long as there is no DID at `a`, no call has changed it. -/
theorem untouched_of_absent (hrun : Run (exec rt) w₀ h w) (hnone : w.didAt a = none) :
    ∀ c ∈ h, c.2.target ≠ some a := by
  induction hrun with
  | start => simp
  | @step h s s' c _ hexec ih =>
    have hbefore : s.didAt a = none := by
      rcases hd : s.didAt a with _ | did
      · rfl
      · obtain ⟨did', hdid', -⟩ := turn_of_exec hexec hd
        rw [hnone] at hdid'
        exact absurd hdid' (by simp)
    have hlast := (created_of_exec hexec hbefore).1
    exact List.forall_mem_cons.mpr ⟨hlast, ih hbefore⟩

/-- A DID is created once, and changes only as `Turn` says. -/
theorem Run.did_induction {P : MerchantDidAccount → List (World × Call) → World → Prop}
    (hempty : w₀.accounts = ∅)
    (hcreated : ∀ h s s' c did, (∀ c ∈ h, c.2.target ≠ some a) → exec rt c s = .ok s' →
      s'.didAt a = some did → Created rt s a did c → P did ((s, c) :: h) s')
    (hturn : ∀ h s s' c did did', P did h s → exec rt c s = .ok s' →
      s'.didAt a = some did' → Turn rt s a did did' c → P did' ((s, c) :: h) s')
    (hrun : Run (exec rt) w₀ h w) : ∀ did, w.didAt a = some did → P did h w := by
  induction hrun with
  | start =>
    intro did hdid
    rw [World.didAt_eq_some, hempty, AList.lookup_empty] at hdid
    exact absurd hdid (by simp)
  | @step h s s' c hr hexec ih =>
    intro did' hdid'
    rcases hbefore : s.didAt a with _ | did
    · have hnew := (created_of_exec hexec hbefore).2 did' hdid'
      exact hcreated h s s' c did' (untouched_of_absent hr hbefore) hexec hdid' hnew
    · obtain ⟨d, hd, turn⟩ := turn_of_exec hexec hbefore
      obtain rfl := Option.some.inj (hdid'.symm.trans hd)
      exact hturn h s s' c did did' (ih did hbefore) hexec hdid' turn

theorem changesOn_cons (s : World) (c : Call) :
    changesOn a ((s, c) :: h) = changesOn a h + if c.target = some a then 1 else 0 := by
  rw [changesOn, List.countP_cons, changesOn]
  simp only [decide_eq_true_eq]

/-- A DID lies at the address of the key that it was created with. -/
theorem place_of_run (hempty : w₀.accounts = ∅) (hrun : Run (exec rt) w₀ h w) :
    ∀ did, w.didAt a = some did → a = .merchantDid did.originalPk := by
  refine Run.did_induction (P := fun did _ _ => a = .merchantDid did.originalPk) hempty ?_ ?_ hrun
  · rintro h s s' c did - - - ⟨place, signs, certified, rfl⟩
    exact place
  · intro h s s' c did did' place _ _ turn
    rw [turn.originalPk_eq]
    exact place

/-- The nonce counts the calls that changed the DID. -/
theorem nonce_of_run (hempty : w₀.accounts = ∅) (hrun : Run (exec rt) w₀ h w) :
    ∀ did, w.didAt a = some did → did.nonce.toNat = changesOn a h := by
  refine Run.did_induction (P := fun did h _ => did.nonce.toNat = changesOn a h) hempty ?_ ?_ hrun
  · rintro h s s' c did hbefore - - ⟨place, signs, certified, rfl⟩
    have hnone : changesOn a h = 0 :=
      List.countP_eq_zero.mpr fun c hc => by simpa using hbefore c hc
    rw [changesOn_cons, hnone]
    rfl
  · intro h s s' c did did' hnonce _ _ turn
    rw [turn.nonce_eq, changesOn_cons, hnonce]

/-! ### The installed credential -/

/-- The credential of `did` was installed by a call of `h`, with a signature of the platform for the
signer, who controlled the DID from then on; after it come the calls of `later`, and unless one of
them replaced the controller, it is still that key. -/
def CredentialFrom (rt : Runtime) (a : Address) (did : MerchantDidAccount)
    (h : List (World × Call)) (w : World) : Prop :=
  ∃ later earlier w₁ c w₂ install did₂, h = later ++ (w₁, c) :: earlier ∧
    c.install = some install ∧ install.did = a ∧ install.vcHash = did.vcHash ∧
    Certified rt w install.subject did.vcHash install.platformSignature ∧
    exec rt c w₁ = .ok w₂ ∧ w₂.didAt a = some did₂ ∧ did₂.controllerPk = install.subject ∧
    ((∀ c' ∈ later, c'.2.recovered ≠ some a) → did.controllerPk = install.subject)

variable {s s' : World} {c : Call} {did did' : MerchantDidAccount}

/-- A call that installs a credential. -/
theorem credentialFrom_install {i : Install} (hexec : exec rt c s = .ok s')
    (hdid : s'.didAt a = some did) (hinstall : c.install = some i) (hat : i.did = a)
    (hhash : i.vcHash = did.vcHash) (hsubject : did.controllerPk = i.subject)
    (certified : Certified rt s i.subject i.vcHash i.platformSignature) :
    CredentialFrom rt a did ((s, c) :: h) s' :=
  ⟨[], h, s, c, s', i, did, rfl, hinstall, hat, hhash, hhash ▸ certified.of_exec hexec, hexec, hdid,
    hsubject, fun _ => hsubject⟩

/-- A call that installs none. -/
theorem CredentialFrom.cons (hfrom : CredentialFrom rt a did h s) (hexec : exec rt c s = .ok s')
    (hhash : did'.vcHash = did.vcHash)
    (hcontroller : c.recovered ≠ some a → did'.controllerPk = did.controllerPk) :
    CredentialFrom rt a did' ((s, c) :: h) s' := by
  obtain ⟨later, earlier, w₁, c₁, w₂, i, did₂, hsplit, hinstall, hat, hvc, certified, hexec₁, hdid₂,
    hsubject, hstill⟩ := hfrom
  refine ⟨(s, c) :: later, earlier, w₁, c₁, w₂, i, did₂, by rw [hsplit]; rfl, hinstall, hat,
    hvc.trans hhash.symm, hhash ▸ certified.of_exec hexec, hexec₁, hdid₂, hsubject, ?_⟩
  intro hlater
  obtain ⟨hlast, hrest⟩ := List.forall_mem_cons.mp hlater
  exact (hcontroller hlast).trans (hstill hrest)

theorem credential_of_run (hempty : w₀.accounts = ∅) (hrun : Run (exec rt) w₀ h w) :
    ∀ did, w.didAt a = some did → CredentialFrom rt a did h w := by
  refine Run.did_induction hempty ?_ ?_ hrun
  · rintro h s s' c did - hexec hdid ⟨place, signs, certified, rfl⟩
    exact credentialFrom_install hexec hdid rfl place.symm rfl rfl certified
  · intro h s s' c did did' hfrom hexec hdid' turn
    cases turn with
    | updates here authorized certified saved =>
      have hhash := congrArg MerchantDidAccount.vcHash saved.did_eq
      have hcontroller := congrArg MerchantDidAccount.controllerPk saved.did_eq
      exact credentialFrom_install hexec hdid' rfl here hhash.symm
        (hcontroller.trans authorized.authority_eq) certified
    | setsRecovery here authorized saved =>
      have hhash := congrArg MerchantDidAccount.vcHash saved.did_eq
      have hcontroller := congrArg MerchantDidAccount.controllerPk saved.did_eq
      exact hfrom.cons hexec hhash fun _ => hcontroller
    | recovers here authorized saved =>
      -- The credential stays behind, and nothing is said of the new controller.
      have hhash := congrArg MerchantDidAccount.vcHash saved.did_eq
      exact hfrom.cons hexec hhash fun hne => absurd (congrArg some here) hne
    | stays elsewhere same =>
      subst same
      exact hfrom.cons hexec rfl fun _ => rfl

end

/-! ### Control and credential -/

/-- In every state reached from an empty ledger. -/
theorem control_and_credential {rt : Runtime} (hnull : rt.canSign defaultPubkey = false)
    {w₀ w : World} (hempty : w₀.accounts = ∅) {h : List (World × Call)}
    (hrun : Run (exec rt) w₀ h w) (a : Address) :
    (∀ did, w.didAt a = some did →
      a = .merchantDid did.originalPk ∧ did.nonce.toNat = changesOn a h ∧
        CredentialFrom rt a did h w) ∧
    ∀ c w', exec rt c w = .ok w' → ∀ did, w.didAt a = some did →
      ∃ did', w'.didAt a = some did' ∧ Governed rt did did' c := by
  constructor
  · intro did hdid
    exact ⟨place_of_run hempty hrun did hdid, nonce_of_run hempty hrun did hdid,
      credential_of_run hempty hrun did hdid⟩
  · intro c w' hexec did hdid
    obtain ⟨did', hdid', turn⟩ := turn_of_exec hexec hdid
    exact ⟨did', hdid', turn.governed hnull⟩

namespace Sample

/-- Thirty-two bytes as a number, the lowest first. -/
def number (n : ℕ) : Bytes 32 := Bytes.number 32 n

/-- A signature from its two halves. -/
def signature (r s : ℕ) : Bytes 64 :=
  ⟨(number r).val ++ (number s).val, by rw [List.length_append, length_val, length_val]⟩

def platformKey : Bytes 32 :=
  number 0xe8766469a764f428c8e9829f5fedf71a044922db369620e0b7bc664180e49a8f

def merchant : Pubkey := fill 32 12

def firstVc : Bytes 32 := fill 32 21

def secondVc : Bytes 32 := fill 32 22

/-- The platform's signatures for the merchant and either credential. -/
def firstSignature : Bytes 64 :=
  signature 0xc9bdb9c0fee14dca92eeb5ed0ff4197a51da0795bfcb150f4ac04f43060fceaa
    0x0a101af96ae06c245f4b45a6e3aeffc4a4788c40af9da612fc76946bd20a3d25

def secondSignature : Bytes 64 :=
  signature 0x17b05637fff20c289b677f2e29cada8f7cddf2fc093930eba04d1ea7bb62834f
    0x0f6493e969a84d8d2b04f6115d3a095ca6cacc287dd50fc0ce055af644d265d6

/-- No other signatures of the platform exist. -/
def runtime : Runtime where
  ed25519Verify message sig key :=
    decide (key = platformKey) &&
      (decide (message = credentialMessage merchant firstVc) && decide (sig = firstSignature) ||
        decide (message = credentialMessage merchant secondVc) && decide (sig = secondSignature))
  canSign k := decide (k ≠ defaultPubkey)

def empty : World where
  accounts := ∅
  now := 0

def did : Address := .merchantDid merchant

def access (signer : Pubkey) : DidAccess := ⟨signer, did⟩

/-- The merchant loses its key, and another takes over. -/
def recovery : List Call := [
  .initPlatform (fill 32 1) platformKey,
  .initializeDid merchant firstVc firstSignature merchant,
  .setRecoveryKey (access merchant) (fill 32 13) 0,
  .recoverController (access (fill 32 13)) (fill 32 14) 1]

end Sample

theorem recovery_runs : ∃ h w, Run (exec Sample.runtime) Sample.empty h w ∧
    h.map Prod.snd = Sample.recovery.reverse ∧
    ((w.didAt Sample.did).any fun did =>
      did.controllerPk = fill 32 14 ∧ did.vcHash = Sample.firstVc) = true :=
  Run.exists_of_test (by decide)

theorem control_and_credential_recovered : ∃ h w did, Run (exec Sample.runtime) Sample.empty h w ∧
    w.didAt Sample.did = some did ∧ did.nonce.toNat = changesOn Sample.did h ∧
    CredentialFrom Sample.runtime Sample.did did h w := by
  obtain ⟨h, w, hrun, -, ht⟩ := recovery_runs
  obtain ⟨did, hdid, -⟩ := (Option.any_eq_true _ _).mp ht
  have hnull : Sample.runtime.canSign defaultPubkey = false := by decide
  have hall := control_and_credential hnull rfl hrun Sample.did
  exact ⟨h, w, did, hrun, hdid, (hall.1 did hdid).2⟩

/-- After a recovery there need be no signature that covers the controller. -/
theorem recovered_without_credential : ∃ h w did, Run (exec Sample.runtime) Sample.empty h w ∧
    w.didAt Sample.did = some did ∧
    ∀ sig, ¬ Certified Sample.runtime w did.controllerPk did.vcHash sig := by
  obtain ⟨h, w, hrun, -, ht⟩ := recovery_runs
  obtain ⟨did, hdid, ht⟩ := (Option.any_eq_true _ _).mp ht
  obtain ⟨hcontroller, hhash⟩ := of_decide_eq_true ht
  refine ⟨h, w, did, hrun, hdid, ?_⟩
  rintro sig ⟨config, -, hverify⟩
  rw [hcontroller, hhash] at hverify
  have hfirst : decide (credentialMessage (fill 32 14) Sample.firstVc
      = credentialMessage Sample.merchant Sample.firstVc) = false := by decide
  have hsecond : decide (credentialMessage (fill 32 14) Sample.firstVc
      = credentialMessage Sample.merchant Sample.secondVc) = false := by decide
  simp [Sample.runtime, hfirst, hsecond] at hverify

end Did
