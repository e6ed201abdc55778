/-
Revocation, and what the nonce excludes.

The record of a revocation is written once and for all.  Whether a credential is revoked is for those
who verify it to look up: the instructions that install one do not.  The nonce makes each instruction
on a DID good for one success; the platform's signature is over the key and the hash alone, and stays
good for that key.

* `revoked_of_run` — the record stays as it was written, and the hash is not revoked again;
* `inOrder_of_run` — the successes on one DID name nonces that only go up, and it is created once;
* `certified_of_exec` — whatever is installed, the platform has signed it for the signer, who controls
  the DID;
* `revocation_and_nonces` — all of it, for every run;
* `rolled_back` — a credential that was replaced and revoked is installed again, with the signature
  of before.
-/
import IgnitePay.Did.Control

namespace Did

open Bytes Machine Solana

/-- The credential that a call revokes. -/
def Call.revoked : Call → Option (Bytes 32)
  | .revokeVc _ vcHash _ _ => some vcHash
  | _ => none

/-- The DID that a call creates. -/
def Call.created : Call → Option Address
  | .initializeDid signer _ _ _ => some (.merchantDid signer)
  | _ => none

/-- The DID that a call changes, and the nonce that it names. -/
def Call.change : Call → Option (Address × UInt64)
  | .updateDidWithVc ctx _ nonce _ _ => some (ctx.merchantDid, nonce)
  | .setRecoveryKey ctx _ nonce => some (ctx.merchantDid, nonce)
  | .recoverController ctx _ nonce => some (ctx.merchantDid, nonce)
  | _ => none

section

variable {rt : Runtime} {w₀ w w' : World} {h : List (World × Call)} {a : Address} {c c' : Call}
  {vcHash : Bytes 32}

/-! ### Records of revocations -/

/-- A revocation leaves a record where there was none. -/
theorem recorded_of_exec (hexec : exec rt c w = .ok w') (hrevoked : c.revoked = some vcHash) :
    w.revokedAt (.revokedVc vcHash) = none ∧
      ∃ entry, w'.revokedAt (.revokedVc vcHash) = some entry ∧ entry.vcHash = vcHash := by
  cases effect_of_exec hexec with
  | @revokeVc authority hash subject reason fresh left =>
    obtain rfl : hash = vcHash := Option.some.inj hrevoked
    subst left
    have hentry := @World.lookup_setAccount w (.revokedVc hash) (.revokedVc hash)
      (.revokedVc ⟨hash, subject, w.now, reason, authority⟩)
    rw [if_pos rfl] at hentry
    exact ⟨by rw [World.revokedAt, fresh], _, World.revokedAt_eq_some.mpr hentry, rfl⟩
  | initPlatform | initializeDid | updateDidWithVc | setRecoveryKey | recoverController | tick =>
    exact absurd hrevoked (by simp [Call.revoked])

/-- The records of other hashes are not touched. -/
theorem revokedAt_of_exec (hexec : exec rt c w = .ok w') (hrevoked : c.revoked ≠ some vcHash) :
    w'.revokedAt (.revokedVc vcHash) = w.revokedAt (.revokedVc vcHash) := by
  have hset : ∀ a acc, a ≠ .revokedVc vcHash →
      (w.setAccount a acc).revokedAt (.revokedVc vcHash) = w.revokedAt (.revokedVc vcHash) := by
    intro a acc hne
    have hlookup := @World.lookup_setAccount w a (.revokedVc vcHash) acc
    rw [if_neg (Ne.symm hne)] at hlookup
    rw [World.revokedAt, hlookup, World.revokedAt]
  cases effect_of_exec hexec with
  | revokeVc fresh left =>
    rw [left]
    exact hset _ _ fun heq => hrevoked (congrArg some (Address.revokedVc.inj heq))
  | updateDidWithVc authorized certified saved left =>
    rw [left]
    exact hset _ _ (by simp [authorized.place])
  | setRecoveryKey authorized saved left =>
    rw [left]
    exact hset _ _ (by simp [authorized.place])
  | recoverController authorized saved left =>
    rw [left]
    exact hset _ _ (by simp [authorized.place])
  | initPlatform fresh left =>
    rw [left]
    exact hset _ _ (by simp)
  | initializeDid signs fresh certified left =>
    rw [left]
    exact hset _ _ (by simp)
  | tick left =>
    rw [left]
    rfl

/-- A record stays as it was written, and the hash is not revoked again. -/
theorem revoked_of_run {entry : RevokedVc} (hstart : w₀.revokedAt (.revokedVc vcHash) = some entry)
    (hrun : Run (exec rt) w₀ h w) :
    (∀ s ∈ Run.states h w, s.revokedAt (.revokedVc vcHash) = some entry) ∧
      ∀ c ∈ h, c.2.revoked ≠ some vcHash := by
  have hstays : ∀ h s, Run (exec rt) w₀ h s → s.revokedAt (.revokedVc vcHash) = some entry := by
    intro h s hr
    refine Run.invariant (P := fun s => s.revokedAt (.revokedVc vcHash) = some entry) hstart ?_ hr
    intro s c s' hs hexec
    have hlookup := kept_of_exec hexec (World.revokedAt_eq_some.mp hs) (by simp)
    exact World.revokedAt_eq_some.mpr hlookup
  refine ⟨Run.forall_states hstays hrun, fun c hc hrevoked => ?_⟩
  obtain ⟨h₁, s₁, hbefore, -, hexec⟩ := hrun.of_mem hc
  have hnone := (recorded_of_exec hexec hrevoked).1
  rw [hstays h₁ c.1 hbefore] at hnone
  exact absurd hnone (by simp)

/-! ### Nonces -/

theorem target_of_change {n : UInt64} (hchange : c.change = some (a, n)) : c.target = some a := by
  cases c <;> simp_all [Call.change, Call.target]

/-- A call that changes a DID names its nonce, and leaves the next. -/
theorem nonce_of_change {n : UInt64} (hexec : exec rt c w = .ok w') (hchange : c.change = some (a, n)) :
    ∃ did did', w.didAt a = some did ∧ did.nonce = n ∧ w'.didAt a = some did' ∧
      did'.nonce.toNat = n.toNat + 1 := by
  have htarget := target_of_change hchange
  rcases hbefore : w.didAt a with _ | did
  · exact absurd htarget (created_of_exec hexec hbefore).1
  · obtain ⟨did', hdid', turn⟩ := turn_of_exec hexec hbefore
    have hnamed : did.nonce = n := by
      cases turn with
      | updates | setsRecovery | recovers => exact (Prod.mk.inj (Option.some.inj hchange)).2
      | stays elsewhere same => exact absurd htarget elsewhere
    have hnext := turn.nonce_eq
    rw [if_pos htarget, hnamed] at hnext
    exact ⟨did, did', rfl, hnamed, hdid', hnext⟩

/-- A call that creates a DID finds none. -/
theorem absent_of_created (hexec : exec rt c w = .ok w') (hcreated : c.created = some a) :
    w.didAt a = none ∧ ∃ did, w'.didAt a = some did := by
  cases effect_of_exec hexec with
  | @initializeDid signer hash sig subject signs fresh certified left =>
    obtain rfl := Option.some.inj hcreated
    subst left
    exact ⟨by rw [World.didAt, fresh], _, didAt_setAccount_self⟩
  | initPlatform | updateDidWithVc | setRecoveryKey | recoverController | revokeVc | tick =>
    exact absurd hcreated (by simp [Call.created])

/-- What two calls of a run may have in common: on one DID the later one names a higher nonce, and
they do not both create it. -/
structure InOrder (later earlier : Call) : Prop where
  nonce_lt : ∀ a n n', earlier.change = some (a, n) → later.change = some (a, n') →
    n.toNat < n'.toNat
  created_ne : ∀ a, later.created = some a → earlier.created ≠ some a

/-- What is left of a call in the ledger: the DID is there, and its nonce is past the call's. -/
structure Past (w : World) (c : Call) : Prop where
  nonce_lt : ∀ a n, c.change = some (a, n) → ∃ did, w.didAt a = some did ∧ n.toNat < did.nonce.toNat
  exists_did : ∀ a, c.created = some a → ∃ did, w.didAt a = some did

theorem past_of_exec (hexec : exec rt c w = .ok w') : Past w' c where
  nonce_lt a n hchange := by
    obtain ⟨-, did', -, -, hdid', hnext⟩ := nonce_of_change hexec hchange
    exact ⟨did', hdid', by omega⟩
  exists_did _ hcreated := (absent_of_created hexec hcreated).2

theorem Past.of_exec (hpast : Past w c) (hexec : exec rt c' w = .ok w') : Past w' c where
  nonce_lt a n hchange := by
    obtain ⟨did, hdid, hlt⟩ := hpast.nonce_lt a n hchange
    obtain ⟨did', hdid', turn⟩ := turn_of_exec hexec hdid
    have hnonce := turn.nonce_eq
    exact ⟨did', hdid', by omega⟩
  exists_did a hcreated := by
    obtain ⟨did, hdid⟩ := hpast.exists_did a hcreated
    obtain ⟨did', hdid', -⟩ := turn_of_exec hexec hdid
    exact ⟨did', hdid'⟩

theorem Past.inOrder (hpast : Past w c) (hexec : exec rt c' w = .ok w') : InOrder c' c where
  nonce_lt a n n' hchange hchange' := by
    obtain ⟨did, hdid, hlt⟩ := hpast.nonce_lt a n hchange
    obtain ⟨did₁, -, hdid₁, hnamed, -⟩ := nonce_of_change hexec hchange'
    obtain rfl := Option.some.inj (hdid.symm.trans hdid₁)
    exact hnamed ▸ hlt
  created_ne a hcreated hearlier := by
    obtain ⟨did, hdid⟩ := hpast.exists_did a hearlier
    rw [(absent_of_created hexec hcreated).1] at hdid
    exact absurd hdid (by simp)

/-- Any two calls of a run are in order, and the last state is past them all. -/
theorem inOrder_of_run (hrun : Run (exec rt) w₀ h w) :
    (h.Pairwise fun later earlier => InOrder later.2 earlier.2) ∧ ∀ c ∈ h, Past w c.2 := by
  induction hrun with
  | start => simp
  | @step h s s' c _ hexec ih =>
    obtain ⟨hpairs, hpast⟩ := ih
    constructor
    · exact List.pairwise_cons.mpr ⟨fun c' hc' => (hpast c' hc').inOrder hexec, hpairs⟩
    · exact List.forall_mem_cons.mpr ⟨past_of_exec hexec, fun c' hc' => (hpast c' hc').of_exec hexec⟩

/-! ### What is installed -/

/-- Whatever is installed, the platform has signed it for the signer, who controls the DID. -/
theorem certified_of_exec {i : Install} (hexec : exec rt c w = .ok w') (hinstall : c.install = some i) :
    Certified rt w i.subject i.vcHash i.platformSignature ∧
      ∃ did, w'.didAt i.did = some did ∧ did.controllerPk = i.subject ∧ did.vcHash = i.vcHash := by
  cases effect_of_exec hexec with
  | initializeDid signs fresh certified left =>
    obtain rfl := Option.some.inj hinstall
    subst left
    exact ⟨certified, _, didAt_setAccount_self, rfl, rfl⟩
  | updateDidWithVc authorized certified saved left =>
    obtain rfl := Option.some.inj hinstall
    subst left
    have hcontroller := congrArg MerchantDidAccount.controllerPk saved.did_eq
    have hhash := congrArg MerchantDidAccount.vcHash saved.did_eq
    exact ⟨certified, _, didAt_setAccount_self, hcontroller.trans authorized.authority_eq, hhash⟩
  | initPlatform | setRecoveryKey | recoverController | revokeVc | tick =>
    exact absurd hinstall (by simp [Call.install])

end

/-- Of every run, whatever it starts from. -/
theorem revocation_and_nonces {rt : Runtime} {w₀ w : World} {h : List (World × Call)}
    (hrun : Run (exec rt) w₀ h w) :
    (∀ vcHash later earlier s c, h = later ++ (s, c) :: earlier → c.revoked = some vcHash →
      ∃ entry, entry.vcHash = vcHash ∧
        (∀ s' ∈ Run.states later w, s'.revokedAt (.revokedVc vcHash) = some entry) ∧
        ∀ c' ∈ later, c'.2.revoked ≠ some vcHash) ∧
    (h.Pairwise fun later earlier => InOrder later.2 earlier.2) ∧
    ∀ c ∈ h, ∀ i, c.2.install = some i →
      Certified rt c.1 i.subject i.vcHash i.platformSignature ∧
        ∃ w' did, exec rt c.2 c.1 = .ok w' ∧ w'.didAt i.did = some did ∧
          did.controllerPk = i.subject ∧ did.vcHash = i.vcHash := by
  refine ⟨?_, (inOrder_of_run hrun).1, ?_⟩
  · rintro vcHash later earlier s c rfl hrevoked
    obtain ⟨s₁, -, hexec, hafter⟩ := hrun.split
    obtain ⟨-, entry, hentry, hhash⟩ := recorded_of_exec hexec hrevoked
    exact ⟨entry, hhash, revoked_of_run hentry hafter⟩
  · intro c hc i hinstall
    obtain ⟨-, w', -, -, hexec⟩ := hrun.of_mem hc
    obtain ⟨certified, did, hdid, hcontroller, hhash⟩ := certified_of_exec hexec hinstall
    exact ⟨certified, w', did, hexec, hdid, hcontroller, hhash⟩

namespace Sample

/-- The merchant goes on to a second credential, the first is revoked, and the merchant returns to
it. -/
def rollback : List Call := [
  .initPlatform (fill 32 1) platformKey,
  .initializeDid merchant firstVc firstSignature merchant,
  .updateDidWithVc (access merchant) secondVc 0 secondSignature merchant,
  .revokeVc (fill 32 1) firstVc merchant 0,
  .updateDidWithVc (access merchant) firstVc 1 firstSignature merchant]

end Sample

/-- A revoked credential is installed, with the signature that it was installed with before. -/
theorem rolled_back : ∃ h w, Run (exec Sample.runtime) Sample.empty h w ∧
    h.map Prod.snd = Sample.rollback.reverse ∧
    (w.revokedAt (.revokedVc Sample.firstVc)).isSome ∧
    (w.didAt Sample.did).map MerchantDidAccount.vcHash = some Sample.firstVc :=
  Run.exists_of_test (by decide)

theorem revocation_and_nonces_rollback : ∃ h w, Run (exec Sample.runtime) Sample.empty h w ∧
    h.map Prod.snd = Sample.rollback.reverse ∧
    h.Pairwise fun later earlier => InOrder later.2 earlier.2 := by
  have ht : ∃ h w, Run (exec Sample.runtime) Sample.empty h w ∧
      h.map Prod.snd = Sample.rollback.reverse ∧ (w.didAt Sample.did).isSome :=
    Run.exists_of_test (by decide)
  obtain ⟨h, w, hrun, hcalls, -⟩ := ht
  exact ⟨h, w, hrun, hcalls, (revocation_and_nonces hrun).2.1⟩

end Did
