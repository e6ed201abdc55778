/-
The transactions of `DidService` (`ignite-pay-solana/src/pda_did.rs`), and what the DID program
makes of them.

A transaction is sponsored, signed by the key that pays for it, or it is prepared for that key to
sign; the instruction is the same.  The program reads the arguments after the discriminator and
checks the accounts of its account structs in their order.

The service derives the account of a merchant from the credential's subject when it initializes,
and from the signer when it updates or sets the recovery key.  The program derives it from the
signer when it initializes, and from then on from the key that signed then.

* `execute_initializeDid`, `execute_updateDidWithVc`, `execute_setRecoveryKey`, `execute_revokeVc`
  — the call that the program makes of each instruction;
* `transactions_fit_iff` — a transaction names the account of the DID and passes the checks
  exactly if the signer is the subject and the key that the account is derived from.
-/
import IgnitePay.Agent.Identity
import IgnitePay.Did.Control
import IgnitePay.Lib.Sha256

namespace Did.Service

open Bytes Machine Solana
open Agent (exactly)

/-! ### Instructions -/

structure AccountMeta where
  address : Address
  isSigner : Bool
  isWritable : Bool
deriving DecidableEq

/-- `AccountMeta::new`. -/
def AccountMeta.new (address : Address) (isSigner : Bool) : AccountMeta := ⟨address, isSigner, true⟩

/-- `AccountMeta::new_readonly`. -/
def AccountMeta.newReadonly (address : Address) (isSigner : Bool) : AccountMeta :=
  ⟨address, isSigner, false⟩

/-- An instruction of the DID program. -/
structure Instruction where
  accounts : List AccountMeta
  data : List UInt8
deriving DecidableEq

/-- The first 8 bytes of the hash of `global:<name>`. -/
def anchorSighash (name : String) : List UInt8 :=
  (Sha256.sha256 (ofLiteral ("global:" ++ name))).val.take 8

def systemProgram : Address := .key systemProgramId

/-! ### The builders -/

def deriveMerchantPda (originalPk : Pubkey) : Address := .merchantDid originalPk

def derivePlatformConfigPda : Address := .platformConfig

def buildInitializeDidIx (signer : Pubkey) (merchantPda config : Address)
    (vcHash : Bytes 32) (platformSignature : Bytes 64) (credentialSubjectPk : Pubkey) :
    Instruction where
  accounts := [.new (.key signer) true, .new merchantPda false, .newReadonly config false,
    .newReadonly systemProgram false]
  data := anchorSighash "initialize_did" ++ vcHash.val ++ platformSignature.val ++
    credentialSubjectPk.val

def buildUpdateDidWithVcIx (signer : Pubkey) (merchantPda config : Address)
    (vcHash : Bytes 32) (nonce : UInt64) (platformSignature : Bytes 64)
    (credentialSubjectPk : Pubkey) : Instruction where
  accounts := [.new (.key signer) true, .new merchantPda false, .newReadonly config false]
  data := anchorSighash "update_did_with_vc" ++ vcHash.val ++ u64Le nonce ++ platformSignature.val ++
    credentialSubjectPk.val

def buildSetRecoveryKeyIx (signer : Pubkey) (merchantPda : Address) (recoveryPk : Pubkey)
    (nonce : UInt64) : Instruction where
  accounts := [.new (.key signer) true, .new merchantPda false]
  data := anchorSighash "set_recovery_key" ++ recoveryPk.val ++ u64Le nonce

/-- Who submits a transaction: the platform for the merchant, or the merchant. -/
inductive OnchainMode
  | sponsored
  | selfOnchain
deriving DecidableEq

structure Transaction where
  instruction : Instruction
  payer : Pubkey
  signers : List Pubkey
deriving DecidableEq

/-- A sponsored transaction is signed by the key it is for, a prepared one by none. -/
def transaction (mode : OnchainMode) (ix : Instruction) (key : Pubkey) : Transaction where
  instruction := ix
  payer := key
  signers := match mode with
    | .sponsored => [key]
    | .selfOnchain => []

/-- `initialize_did` and `prepare_initialize_did`. -/
def initializeDid (mode : OnchainMode) (signer : Pubkey) (vcHash : Bytes 32)
    (platformSignature : Bytes 64) (credentialSubjectPk : Pubkey) : Transaction :=
  transaction mode
    (buildInitializeDidIx signer (deriveMerchantPda credentialSubjectPk) derivePlatformConfigPda vcHash
      platformSignature credentialSubjectPk) signer

/-- `update_did_with_vc` and `prepare_update_did_with_vc`. -/
def updateDidWithVc (mode : OnchainMode) (signer : Pubkey) (vcHash : Bytes 32) (nonce : UInt64)
    (platformSignature : Bytes 64) (credentialSubjectPk : Pubkey) : Transaction :=
  transaction mode
    (buildUpdateDidWithVcIx signer (deriveMerchantPda signer) derivePlatformConfigPda vcHash nonce
      platformSignature credentialSubjectPk) signer

/-- `set_recovery_key` and `prepare_set_recovery_key`. -/
def setRecoveryKey (mode : OnchainMode) (signer recoveryPk : Pubkey) (nonce : UInt64) :
    Transaction :=
  transaction mode (buildSetRecoveryKeyIx signer (deriveMerchantPda signer) recoveryPk nonce) signer

/-- `revoke_vc`, which is always sponsored. -/
def revokeVc (authority : Pubkey) (vcHash : Bytes 32) (credentialSubjectPk : Pubkey)
    (reason : UInt8) : Transaction :=
  transaction .sponsored
    { accounts := [.new (.key authority) true, .newReadonly derivePlatformConfigPda false,
        .new (.revokedVc vcHash) false, .newReadonly systemProgram false]
      data := anchorSighash "revoke_vc" ++ vcHash.val ++ credentialSubjectPk.val ++ [reason] }
    authority

/-- The transaction with one more signature. -/
def Transaction.sign (tx : Transaction) (key : Pubkey) : Transaction :=
  { tx with signers := tx.signers ++ [key] }

/-! ### What the program reads -/

/-- How a transaction fails: in the runtime, on the way to the instruction, or in it. -/
inductive EntryError
  | signatureMissing
  | instructionFallbackNotFound
  | instructionDidNotDeserialize
  | accountNotEnoughKeys
  | constraintMut
  | invalidProgramId
  | program (e : Error)
deriving DecidableEq

/-- The arguments of an instruction. -/
inductive Arguments
  | initializeDid (vcHash : Bytes 32) (platformSignature : Bytes 64) (credentialSubjectPk : Pubkey)
  | updateDidWithVc (vcHash : Bytes 32) (nonce : UInt64) (platformSignature : Bytes 64)
      (credentialSubjectPk : Pubkey)
  | setRecoveryKey (recoveryPk : Pubkey) (nonce : UInt64)
  | recoverController (newControllerPk : Pubkey) (nonce : UInt64)
  | revokeVc (vcHash : Bytes 32) (credentialSubjectPk : Pubkey) (reason : UInt8)
deriving DecidableEq

/-- The next `n` bytes, and the rest. -/
def takeBytes (n : ℕ) (data : List UInt8) : Option (Bytes n × List UInt8) :=
  (exactly n (data.take n)).map fun b => (b, data.drop n)

def takeU64 (data : List UInt8) : Option (UInt64 × List UInt8) :=
  (takeBytes 8 data).map fun r => (u64OfLe r.1.val, r.2)

def readInitializeDid (data : List UInt8) : Option Arguments := do
  let (vcHash, data) ← takeBytes 32 data
  let (platformSignature, data) ← takeBytes 64 data
  let (credentialSubjectPk, _) ← takeBytes 32 data
  some (.initializeDid vcHash platformSignature credentialSubjectPk)

def readUpdateDidWithVc (data : List UInt8) : Option Arguments := do
  let (vcHash, data) ← takeBytes 32 data
  let (nonce, data) ← takeU64 data
  let (platformSignature, data) ← takeBytes 64 data
  let (credentialSubjectPk, _) ← takeBytes 32 data
  some (.updateDidWithVc vcHash nonce platformSignature credentialSubjectPk)

/-- A key and a nonce. -/
def readKeyAndNonce (f : Pubkey → UInt64 → Arguments) (data : List UInt8) : Option Arguments := do
  let (key, data) ← takeBytes 32 data
  let (nonce, _) ← takeU64 data
  some (f key nonce)

def readRevokeVc (data : List UInt8) : Option Arguments := do
  let (vcHash, data) ← takeBytes 32 data
  let (credentialSubjectPk, data) ← takeBytes 32 data
  let reason ← data.head?
  some (.revokeVc vcHash credentialSubjectPk reason)

/-- The instruction that the discriminator names, with its arguments. -/
def dispatch (data : List UInt8) : Except EntryError Arguments :=
  let read := fun (r : List UInt8 → Option Arguments) =>
    orErr (r (data.drop 8)) .instructionDidNotDeserialize
  if data.take 8 = anchorSighash "initialize_did" then read readInitializeDid
  else if data.take 8 = anchorSighash "update_did_with_vc" then read readUpdateDidWithVc
  else if data.take 8 = anchorSighash "set_recovery_key" then
    read (readKeyAndNonce .setRecoveryKey)
  else if data.take 8 = anchorSighash "recover_controller" then
    read (readKeyAndNonce .recoverController)
  else if data.take 8 = anchorSighash "revoke_vc" then read readRevokeVc
  else .error .instructionFallbackNotFound

/-- `#[account(mut)] signer: Signer<'info>`. -/
def signerOf (m : AccountMeta) : Except EntryError Pubkey :=
  match m.address with
  | .key k => do
    require (m.isSigner = true) (.program .accountNotSigner)
    require (m.isWritable = true) .constraintMut
    pure k
  | _ => .error (.program .accountNotSigner)

/-- An account that the instruction writes to. -/
def writable (m : AccountMeta) : Except EntryError Address := do
  require (m.isWritable = true) .constraintMut
  pure m.address

/-- An account whose address is fixed. -/
def located (m : AccountMeta) (a : Address) : Except EntryError Unit :=
  require (m.address = a) (.program .constraintSeeds)

/-- The signer, and the DID that the instruction writes to. -/
def accessOf (signer did : AccountMeta) : Except EntryError DidAccess := do
  let signer ← signerOf signer
  let merchantDid ← writable did
  pure ⟨signer, merchantDid⟩

/-- The accounts of the instruction's account struct. -/
def bindAccounts : Arguments → List AccountMeta → Except EntryError Call
  | .initializeDid vcHash sig subject, signer :: did :: config :: system :: _ => do
    let ctx ← accessOf signer did
    require (ctx.merchantDid = .merchantDid ctx.signer) (.program .constraintSeeds)
    located config .platformConfig
    require (system.address = systemProgram) .invalidProgramId
    pure (.initializeDid ctx.signer vcHash sig subject)
  | .updateDidWithVc vcHash nonce sig subject, signer :: did :: config :: _ => do
    let ctx ← accessOf signer did
    located config .platformConfig
    pure (.updateDidWithVc ctx vcHash nonce sig subject)
  | .setRecoveryKey recoveryPk nonce, signer :: did :: _ => do
    let ctx ← accessOf signer did
    pure (.setRecoveryKey ctx recoveryPk nonce)
  | .recoverController newControllerPk nonce, signer :: did :: _ => do
    let ctx ← accessOf signer did
    pure (.recoverController ctx newControllerPk nonce)
  | .revokeVc vcHash subject reason, authority :: config :: revoked :: system :: _ => do
    let authority ← signerOf authority
    located config .platformConfig
    let revoked ← writable revoked
    require (revoked = .revokedVc vcHash) (.program .constraintSeeds)
    require (system.address = systemProgram) .invalidProgramId
    pure (.revokeVc authority vcHash subject reason)
  | _, _ => .error .accountNotEnoughKeys

/-- What the program does in a call, as the outcome of a transaction. -/
def liftError (r : Except Error World) : Except EntryError World := r.mapError .program

/-- A transaction runs only with the signatures of all its signers. -/
def execute (rt : Runtime) (tx : Transaction) (w : World) : Except EntryError World := do
  require (∀ m ∈ tx.instruction.accounts, m.isSigner = true → m.address ∈ tx.signers.map Address.key)
    .signatureMissing
  let args ← dispatch tx.instruction.data
  let c ← bindAccounts args tx.instruction.accounts
  liftError (exec rt c w)

/-! ### What was written is read back -/

theorem takeBytes_append {n : ℕ} (b : Bytes n) (rest : List UInt8) :
    takeBytes n (b.val ++ rest) = some (b, rest) := by
  have htake : (b.val ++ rest).take n = b.val := List.take_left' b.property
  have hdrop : (b.val ++ rest).drop n = rest := List.drop_left' b.property
  have hexact : exactly n b.val = some b := by rw [exactly, dif_pos b.property]
  rw [takeBytes, htake, hdrop, hexact]
  rfl

theorem takeBytes_val {n : ℕ} (b : Bytes n) : takeBytes n b.val = some (b, []) := by
  have h := takeBytes_append b []
  rwa [List.append_nil] at h

theorem takeU64_append (x : UInt64) (rest : List UInt8) :
    takeU64 (u64Le x ++ rest) = some (x, rest) := by
  have h := takeBytes_append ⟨u64Le x, length_u64Le x⟩ rest
  rw [takeU64, h]
  show some (u64OfLe (u64Le x), rest) = _
  rw [u64OfLe_u64Le]

theorem takeU64_u64Le (x : UInt64) : takeU64 (u64Le x) = some (x, []) := by
  have h := takeU64_append x []
  rwa [List.append_nil] at h

theorem length_anchorSighash (name : String) : (anchorSighash name).length = 8 := by
  rw [anchorSighash, List.length_take, length_val]
  rfl

theorem take_anchorSighash (name : String) (rest : List UInt8) :
    (anchorSighash name ++ rest).take 8 = anchorSighash name :=
  List.take_left' (length_anchorSighash name)

theorem drop_anchorSighash (name : String) (rest : List UInt8) :
    (anchorSighash name ++ rest).drop 8 = rest :=
  List.drop_left' (length_anchorSighash name)

/-- The instructions that a merchant or the platform calls. -/
def instructionNames : List String :=
  ["initialize_did", "update_did_with_vc", "set_recovery_key", "recover_controller", "revoke_vc"]

theorem nodup_anchorSighash : (instructionNames.map anchorSighash).Nodup := by
  decide +kernel

/-- Their discriminators are different. -/
theorem anchorSighash_ne {name name' : String} (h : name ∈ instructionNames)
    (h' : name' ∈ instructionNames) (hne : name ≠ name') :
    anchorSighash name ≠ anchorSighash name' :=
  fun heq => hne (List.inj_on_of_nodup_map nodup_anchorSighash h h' heq)

section Dispatch

variable {rt : Runtime} {w : World} {mode : OnchainMode} {signer subject recoveryPk : Pubkey}
  {merchantPda config : Address} {vcHash : Bytes 32} {sig : Bytes 64} {nonce : UInt64} {reason : UInt8}

theorem dispatch_initializeDid :
    dispatch (buildInitializeDidIx signer merchantPda config vcHash sig subject).data
      = .ok (.initializeDid vcHash sig subject) := by
  have hread : readInitializeDid (vcHash.val ++ (sig.val ++ subject.val))
      = some (.initializeDid vcHash sig subject) := by
    simp only [readInitializeDid, takeBytes_append, takeBytes_val, Option.bind_eq_bind,
      Option.bind_some]
  rw [buildInitializeDidIx, List.append_assoc, List.append_assoc, dispatch]
  simp only [take_anchorSighash, drop_anchorSighash, if_true, hread]
  rfl

theorem dispatch_updateDidWithVc :
    dispatch (buildUpdateDidWithVcIx signer merchantPda config vcHash nonce sig subject).data
      = .ok (.updateDidWithVc vcHash nonce sig subject) := by
  have hread : readUpdateDidWithVc (vcHash.val ++ (u64Le nonce ++ (sig.val ++ subject.val)))
      = some (.updateDidWithVc vcHash nonce sig subject) := by
    simp only [readUpdateDidWithVc, takeBytes_append, takeU64_append, takeBytes_val,
      Option.bind_eq_bind, Option.bind_some]
  have hne : anchorSighash "update_did_with_vc" ≠ anchorSighash "initialize_did" :=
    anchorSighash_ne (by decide) (by decide) (by decide)
  rw [buildUpdateDidWithVcIx, List.append_assoc, List.append_assoc, List.append_assoc, dispatch]
  simp only [take_anchorSighash, drop_anchorSighash, if_neg hne, if_true, hread]
  rfl

theorem dispatch_setRecoveryKey :
    dispatch (buildSetRecoveryKeyIx signer merchantPda recoveryPk nonce).data
      = .ok (.setRecoveryKey recoveryPk nonce) := by
  have hread : readKeyAndNonce .setRecoveryKey (recoveryPk.val ++ u64Le nonce)
      = some (.setRecoveryKey recoveryPk nonce) := by
    simp only [readKeyAndNonce, takeBytes_append, takeU64_u64Le, Option.bind_eq_bind,
      Option.bind_some]
  have hne : ∀ name ∈ ["initialize_did", "update_did_with_vc"],
      anchorSighash "set_recovery_key" ≠ anchorSighash name := by
    intro name hname
    exact anchorSighash_ne (by decide) (by revert name; decide) (by revert name; decide)
  rw [buildSetRecoveryKeyIx, List.append_assoc, dispatch]
  simp only [take_anchorSighash, drop_anchorSighash, if_neg (hne "initialize_did" (by simp)),
    if_neg (hne "update_did_with_vc" (by simp)), if_true, hread]
  rfl

/-- The signature of the one signer is there. -/
theorem signed_transaction (ix : Instruction) (key : Pubkey)
    (hsigner : ∀ m ∈ ix.accounts, m.isSigner = true → m.address = .key key) :
    ∀ m ∈ ix.accounts, m.isSigner = true → m.address ∈ [key].map Address.key := by
  intro m hm hsigns
  rw [hsigner m hm hsigns]
  exact List.mem_singleton_self _

/-- The transaction with the signature of the key that it is for. -/
def signed (mode : OnchainMode) (tx : Transaction) : Transaction :=
  match mode with
  | .sponsored => tx
  | .selfOnchain => tx.sign tx.payer

theorem signers_signed (ix : Instruction) (key : Pubkey) :
    signed mode (transaction mode ix key) = ⟨ix, key, [key]⟩ := by
  cases mode with
  | sponsored => rfl
  | selfOnchain => rfl

/-- The account that is named is the one of the subject, and has to be the one of the signer. -/
theorem bindAccounts_initializeDid :
    bindAccounts (.initializeDid vcHash sig subject)
        (buildInitializeDidIx signer (deriveMerchantPda subject) derivePlatformConfigPda vcHash sig
          subject).accounts
      = if subject = signer then .ok (.initializeDid signer vcHash sig subject)
        else .error (.program .constraintSeeds) := by
  show (require (Address.merchantDid subject = .merchantDid signer) (EntryError.program .constraintSeeds)
    >>= fun _ => Except.ok (Call.initializeDid signer vcHash sig subject)) = _
  by_cases hsubject : subject = signer
  · rw [require_bind (congrArg _ hsubject), if_pos hsubject]
  · rw [require, if_neg fun heq => hsubject (Address.merchantDid.inj heq), if_neg hsubject]
    rfl

/-- Initializing does what the program's call does, if the subject is the signer. -/
theorem execute_initializeDid :
    execute rt (signed mode (initializeDid mode signer vcHash sig subject)) w
      = if subject = signer then liftError (exec rt (.initializeDid signer vcHash sig subject) w)
        else .error (.program .constraintSeeds) := by
  rw [initializeDid, signers_signed, execute, dispatch_initializeDid,
    require_bind (signed_transaction _ signer (by simp [buildInitializeDidIx, AccountMeta.new,
      AccountMeta.newReadonly, systemProgram]))]
  show (bindAccounts _ _ >>= fun c => liftError (exec rt c w)) = _
  rw [bindAccounts_initializeDid]
  split
  · rfl
  · rfl

theorem execute_updateDidWithVc :
    execute rt (signed mode (updateDidWithVc mode signer vcHash nonce sig subject)) w
      = liftError (exec rt (.updateDidWithVc ⟨signer, .merchantDid signer⟩ vcHash nonce sig subject) w) := by
  rw [updateDidWithVc, signers_signed, execute, dispatch_updateDidWithVc,
    require_bind (signed_transaction _ signer (by simp [buildUpdateDidWithVcIx, AccountMeta.new,
      AccountMeta.newReadonly]))]
  rfl

theorem execute_setRecoveryKey :
    execute rt (signed mode (setRecoveryKey mode signer recoveryPk nonce)) w
      = liftError (exec rt (.setRecoveryKey ⟨signer, .merchantDid signer⟩ recoveryPk nonce) w) := by
  rw [setRecoveryKey, signers_signed, execute, dispatch_setRecoveryKey,
    require_bind (signed_transaction _ signer (by simp [buildSetRecoveryKeyIx, AccountMeta.new]))]
  rfl

theorem execute_revokeVc : execute rt (revokeVc signer vcHash subject reason) w
    = liftError (exec rt (.revokeVc signer vcHash subject reason) w) := by
  have hread : readRevokeVc (vcHash.val ++ (subject.val ++ [reason]))
      = some (.revokeVc vcHash subject reason) := by
    simp only [readRevokeVc, takeBytes_append, Option.bind_eq_bind, Option.bind_some, List.head?_cons]
  have hne : ∀ name ∈ instructionNames.take 4, anchorSighash "revoke_vc" ≠ anchorSighash name := by
    intro name hname
    exact anchorSighash_ne (by decide) (List.mem_of_mem_take hname) (by revert name; decide)
  have hdispatch : dispatch (revokeVc signer vcHash subject reason).instruction.data
      = .ok (.revokeVc vcHash subject reason) := by
    rw [revokeVc, transaction, List.append_assoc, List.append_assoc, dispatch]
    simp only [take_anchorSighash, drop_anchorSighash, if_neg (hne "initialize_did" (by decide)),
      if_neg (hne "update_did_with_vc" (by decide)), if_neg (hne "set_recovery_key" (by decide)),
      if_neg (hne "recover_controller" (by decide)), if_true, hread]
    rfl
  rw [execute, hdispatch, revokeVc, transaction, require_bind (signed_transaction _ signer (by
    simp [AccountMeta.new, AccountMeta.newReadonly, systemProgram, derivePlatformConfigPda]))]
  show (bindAccounts _ _ >>= fun c => liftError (exec rt c w)) = _
  show (require (Address.revokedVc vcHash = .revokedVc vcHash) (EntryError.program .constraintSeeds)
    >>= fun _ => _) >>= _ = _
  rw [require_bind rfl]
  rfl

end Dispatch

/-! ### Which transactions fit -/

/-- The DID that an instruction names. -/
def Instruction.merchantDid (ix : Instruction) : Option Address := (ix.accounts[1]?).map (·.address)

/-- The program's checks pass.  The counter at the end is none of them. -/
def Passes (r : Except EntryError World) : Prop :=
  ∀ e, r = .error e → e = .program (.code .arithmeticOverflow)

/-- The transaction names the DID, and passes the checks. -/
structure Fits (rt : Runtime) (tx : Transaction) (a : Address) (w : World) : Prop where
  names : tx.instruction.merchantDid = some a
  passes : Passes (execute rt tx w)

/-- The platform has been set up with a key, and has made the signature for the subject and the
hash; with an ideal scheme it is one for nothing else. -/
structure PlatformSigned (rt : Runtime) (w : World) (subject : Pubkey) (vcHash : Bytes 32)
    (sig : Bytes 64) : Prop where
  configured : ∃ config, w.configAt .platformConfig = some config ∧
    config.platformEd25519Pubkey ≠ fill 32 0 ∧
    ∀ key hash, rt.ed25519Verify (credentialMessage key hash) sig config.platformEd25519Pubkey = true
      ↔ key = subject ∧ hash = vcHash

section Fits

variable {rt : Runtime} {w : World} {config : PlatformConfig} {mode : OnchainMode}
  {signer subject recoveryPk : Pubkey} {vcHash : Bytes 32} {sig : Bytes 64}
  {did : MerchantDidAccount} {a : Address}

theorem passes_liftError {r : Except Error World} :
    Passes (liftError r) ↔ ∀ e, r = .error e → e = .code .arithmeticOverflow := by
  cases r with
  | ok w' =>
    constructor
    · exact fun _ e he => absurd he (by simp)
    · exact fun _ e he => absurd he (by simp [liftError, Except.mapError])
  | error e =>
    constructor
    · rintro h e' he
      obtain rfl := Except.error.inj he
      exact EntryError.program.inj (h _ rfl)
    · rintro h e' he
      obtain rfl := Except.error.inj he
      exact congrArg _ (h e rfl)

/-- The check of the signature passes for the subject, and for no other signer. -/
theorem PlatformSigned.check (hplatform : PlatformSigned rt w subject vcHash sig) :
    ∃ config, loadInitializedConfig w = .ok config ∧
      ∀ signer, checkPlatformSignature rt config signer vcHash sig = .ok () ↔ subject = signer := by
  obtain ⟨config, hstored, hset, hideal⟩ := hplatform.configured
  refine ⟨config, ?_, fun signer => ?_⟩
  · rw [loadInitializedConfig, loadConfig, hstored]
    show (require (config.platformEd25519Pubkey ≠ fill 32 0) _ >>= fun _ => pure config) = _
    rw [require_bind hset]
    rfl
  · rw [checkPlatformSignature, require_eq_ok, hideal]
    constructor
    · exact fun h => h.1.symm
    · exact fun h => ⟨h.symm, rfl⟩

/-- Only the counter can stop a change that has passed the checks. -/
theorem saveDid_passes {ctx : DidAccess} {e : Error} (h : saveDid ctx did w = .error e) :
    e = .code .arithmeticOverflow := by
  rw [saveDid] at h
  rcases bind_eq_error.mp h with h | ⟨nonce, -, h⟩
  · exact (orErr_eq_error.mp h).2.symm
  · exact absurd h (by simp [pure, Except.pure])

/-- The constraints on the account hold where it is the one derived from the signer. -/
theorem loadAuthorized_of (hsigns : rt.canSign signer = true)
    (hdid : w.didAt (.merchantDid signer) = some did) (horiginal : did.originalPk = signer)
    (hcontroller : did.controllerPk = signer) :
    loadAuthorized rt ⟨signer, .merchantDid signer⟩ MerchantDidAccount.controllerPk
      .invalidControllerKey w = .ok did := by
  rw [loadAuthorized, requireSigner, require_bind hsigns, loadDid, hdid]
  show (require (Address.merchantDid signer = .merchantDid did.originalPk) Error.constraintSeeds
    >>= fun _ => require (did.controllerPk = signer) (Error.code .invalidControllerKey)
    >>= fun _ => pure did) = _
  rw [require_bind (congrArg _ horiginal.symm), require_bind hcontroller]
  rfl

theorem fits_initializeDid_iff (hplatform : PlatformSigned rt w subject vcHash sig)
    (hsigns : rt.canSign signer = true) (hfresh : w.accounts.lookup (.merchantDid signer) = none) :
    Fits rt (signed mode (initializeDid mode signer vcHash sig subject)) (.merchantDid signer) w
      ↔ subject = signer := by
  constructor
  · intro h
    have hnames := h.names
    rw [initializeDid, signers_signed] at hnames
    exact Address.merchantDid.inj (Option.some_inj.mp hnames)
  · rintro rfl
    refine ⟨by rw [initializeDid, signers_signed]; rfl, ?_⟩
    rw [execute_initializeDid, if_pos rfl, passes_liftError]
    intro e he
    obtain ⟨config, hload, hcheck⟩ := hplatform.check
    have hpassed := (hcheck subject).mpr rfl
    rw [exec, Did.initializeDid, requireSigner, require_bind hsigns, initAccount, require_bind hfresh,
      hload] at he
    rcases bind_eq_error.mp he with he | ⟨_, hloaded, he⟩
    · exact absurd he (by simp)
    · obtain rfl := Except.ok.inj hloaded
      rw [hpassed] at he
      exact absurd he (by simp [bind, Except.bind, pure, Except.pure])

theorem fits_updateDidWithVc_iff (hplatform : PlatformSigned rt w subject vcHash sig)
    (hsigns : rt.canSign did.controllerPk = true) (hdid : w.didAt a = some did)
    (hplace : a = .merchantDid did.originalPk) :
    Fits rt (signed mode (updateDidWithVc mode did.controllerPk vcHash did.nonce sig subject)) a w
      ↔ did.controllerPk = did.originalPk ∧ subject = did.controllerPk := by
  have hnames : (signed mode (updateDidWithVc mode did.controllerPk vcHash did.nonce sig
      subject)).instruction.merchantDid = some (.merchantDid did.controllerPk) := by
    rw [updateDidWithVc, signers_signed]
    rfl
  obtain ⟨config, hload, hcheck⟩ := hplatform.check
  -- Once the account is the right one, what is left is the signature.
  have hexec : did.originalPk = did.controllerPk →
      exec rt (.updateDidWithVc ⟨did.controllerPk, .merchantDid did.controllerPk⟩ vcHash did.nonce
        sig subject) w
        = checkPlatformSignature rt config did.controllerPk vcHash sig >>= fun _ =>
          saveDid ⟨did.controllerPk, .merchantDid did.controllerPk⟩ { did with vcHash } w := by
    intro horiginal
    have hat : w.didAt (.merchantDid did.controllerPk) = some did := by
      rw [← horiginal, ← hplace]
      exact hdid
    rw [exec, Did.updateDidWithVc, loadAuthorized_of hsigns hat horiginal rfl, hload]
    show (require (did.nonce = did.nonce) (Error.code .nonceMismatch) >>= fun _ => _) = _
    rw [require_bind rfl]
  constructor
  · rintro ⟨hnamed, hpasses⟩
    rw [hnames, hplace, Option.some_inj] at hnamed
    have hcontroller := Address.merchantDid.inj hnamed
    refine ⟨hcontroller, ?_⟩
    rw [execute_updateDidWithVc, hexec hcontroller.symm, passes_liftError] at hpasses
    rcases hresult : checkPlatformSignature rt config did.controllerPk vcHash sig with e | u
    · obtain ⟨-, rfl⟩ := require_eq_error.mp hresult
      rw [hresult] at hpasses
      exact absurd (hpasses _ rfl) (by simp)
    · exact (hcheck _).mp hresult
  · rintro ⟨hcontroller, hsubject⟩
    refine ⟨by rw [hnames, hplace, hcontroller], ?_⟩
    rw [execute_updateDidWithVc, hexec hcontroller.symm, passes_liftError, (hcheck _).mpr hsubject]
    exact fun e he => saveDid_passes he

theorem fits_setRecoveryKey_iff (hsigns : rt.canSign did.controllerPk = true)
    (hdid : w.didAt a = some did) (hplace : a = .merchantDid did.originalPk) :
    Fits rt (signed mode (setRecoveryKey mode did.controllerPk recoveryPk did.nonce)) a w
      ↔ did.controllerPk = did.originalPk := by
  have hnames : (signed mode (setRecoveryKey mode did.controllerPk recoveryPk
      did.nonce)).instruction.merchantDid = some (.merchantDid did.controllerPk) := by
    rw [setRecoveryKey, signers_signed]
    rfl
  constructor
  · rintro ⟨hnamed, -⟩
    rw [hnames, hplace, Option.some_inj] at hnamed
    exact Address.merchantDid.inj hnamed
  · intro hcontroller
    have hat : w.didAt (.merchantDid did.controllerPk) = some did := by
      rw [hcontroller, ← hplace]
      exact hdid
    refine ⟨by rw [hnames, hplace, hcontroller], ?_⟩
    rw [execute_setRecoveryKey, passes_liftError, exec, Did.setRecoveryKey,
      loadAuthorized_of hsigns hat hcontroller.symm rfl]
    show ∀ e, (require (did.nonce = did.nonce) (Error.code .nonceMismatch) >>= fun _ => _) = _ → _
    rw [require_bind rfl]
    exact fun e he => saveDid_passes he

end Fits

/-- For every DID that a run has led to: the transactions of its controller fit exactly as long as
the controller is the key that the DID was created with, and the credential is for that key. -/
theorem transactions_fit_iff {rt : Runtime} {w₀ w : World} {h : List (World × Call)}
    {vcHash : Bytes 32} {sig : Bytes 64} {subject : Pubkey} (hempty : w₀.accounts = ∅)
    (hrun : Run (exec rt) w₀ h w) (hplatform : PlatformSigned rt w subject vcHash sig)
    (mode : OnchainMode) :
    (∀ signer, rt.canSign signer = true → w.accounts.lookup (.merchantDid signer) = none →
      (Fits rt (signed mode (initializeDid mode signer vcHash sig subject)) (.merchantDid signer) w
        ↔ subject = signer)) ∧
    ∀ a did, w.didAt a = some did → rt.canSign did.controllerPk = true →
      (Fits rt (signed mode (updateDidWithVc mode did.controllerPk vcHash did.nonce sig subject)) a w
        ↔ did.controllerPk = did.originalPk ∧ subject = did.controllerPk) ∧
      ∀ recoveryPk,
        (Fits rt (signed mode (setRecoveryKey mode did.controllerPk recoveryPk did.nonce)) a w
          ↔ did.controllerPk = did.originalPk) := by
  refine ⟨fun signer hsigns hfresh => fits_initializeDid_iff hplatform hsigns hfresh, ?_⟩
  intro a did hdid hsigns
  have hplace := place_of_run hempty hrun did hdid
  exact ⟨fits_updateDidWithVc_iff hplatform hsigns hdid hplace,
    fun recoveryPk => fits_setRecoveryKey_iff hsigns hdid hplace⟩

/-- The platform's signature of the second credential, once the platform has been set up. -/
theorem platformSigned_second {w : World} (hconfig : w.configAt .platformConfig
      = some ⟨Sample.platformKey, fill 32 1⟩) :
    PlatformSigned Sample.runtime w Sample.merchant Sample.secondVc Sample.secondSignature := by
  refine ⟨_, hconfig, by decide +kernel, fun key hash => ?_⟩
  have hsignature : Sample.secondSignature ≠ Sample.firstSignature := by decide +kernel
  simp only [Sample.runtime, hsignature, decide_true, decide_false, Bool.true_and, Bool.and_false,
    Bool.false_or, Bool.and_true, decide_eq_true_eq]
  constructor
  · intro h
    have hkey : key.val = Sample.merchant.val := List.append_inj_left h (by simp)
    have hhash : hash.val = Sample.secondVc.val := List.append_inj_right h (by simp)
    exact ⟨Subtype.ext hkey, Subtype.ext hhash⟩
  · rintro ⟨rfl, rfl⟩
    rfl

/-- A merchant that still has its key can update its credential. -/
theorem transactions_fit : ∃ h w did, Run (exec Sample.runtime) Sample.empty h w ∧
    w.didAt Sample.did = some did ∧
    Fits Sample.runtime (signed .selfOnchain (updateDidWithVc .selfOnchain did.controllerPk
      Sample.secondVc did.nonce Sample.secondSignature Sample.merchant)) Sample.did w := by
  have htest : (Run.record (exec Sample.runtime) (Sample.recovery.take 2) [] Sample.empty).toOption.any
      (fun r => decide (r.2.configAt .platformConfig = some ⟨Sample.platformKey, fill 32 1⟩) &&
        (r.2.didAt Sample.did).any fun did =>
          decide (did.controllerPk = Sample.merchant ∧ did.originalPk = Sample.merchant)) = true := by
    decide +kernel
  obtain ⟨h, w, hrun, hpassed⟩ := Run.exists_of_record htest
  obtain ⟨hconfig, hpassed⟩ := Bool.and_eq_true_iff.mp hpassed
  obtain ⟨did, hdid, hkeys⟩ := (Option.any_eq_true _ _).mp hpassed
  obtain ⟨hcontroller, horiginal⟩ := of_decide_eq_true hkeys
  have hplatform := platformSigned_second (of_decide_eq_true hconfig)
  have hsigns : Sample.runtime.canSign did.controllerPk = true := by
    rw [hcontroller]
    decide +kernel
  have hfits := ((transactions_fit_iff rfl hrun hplatform .selfOnchain).2 _ did hdid hsigns).1
  exact ⟨h, w, did, hrun, hdid, hfits.mpr ⟨hcontroller.trans horiginal.symm, hcontroller.symm⟩⟩

/-- After a recovery the transaction that sets a recovery key names another account. -/
theorem transaction_misses : ¬ ∀ (rt : Runtime) (w₀ w : World) (h : List (World × Call)),
    w₀.accounts = ∅ → Run (exec rt) w₀ h w → ∀ a did, w.didAt a = some did →
      rt.canSign did.controllerPk = true → ∀ (mode : OnchainMode) (recoveryPk : Pubkey),
        Fits rt (signed mode (setRecoveryKey mode did.controllerPk recoveryPk did.nonce)) a w := by
  intro hall
  have htest : (Run.record (exec Sample.runtime) Sample.recovery [] Sample.empty).toOption.any
      (fun r => (r.2.didAt Sample.did).any fun did => decide (did.controllerPk = fill 32 14)) = true := by
    decide +kernel
  obtain ⟨h, w, hrun, hpassed⟩ := Run.exists_of_record htest
  obtain ⟨did, hdid, hcontroller⟩ := (Option.any_eq_true _ _).mp hpassed
  have hcontroller := of_decide_eq_true hcontroller
  have hsigns : Sample.runtime.canSign did.controllerPk = true := by
    rw [hcontroller]
    decide +kernel
  have hnames := (hall _ _ _ _ rfl hrun _ did hdid hsigns .sponsored (fill 32 1)).names
  rw [setRecoveryKey, signers_signed, hcontroller] at hnames
  have hkeys := Address.merchantDid.inj (Option.some_inj.mp hnames)
  exact absurd hkeys (by decide +kernel)

end Did.Service
