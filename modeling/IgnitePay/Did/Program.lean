/-
The instructions of the DID program (`lib.rs`), in its version with derived accounts.

Each instruction first checks the constraints of its account struct, then runs its handler.  A
failed instruction has no effect, so an instruction is a function to `Except Error World`.  Accounts
whose address is fixed, or a function of the arguments, are bound by it and not passed.

Two instructions install a credential; both have the platform's signature checked over the signer
and the hash.  Neither looks at the record of a revocation, and the signed message does not contain
the nonce.
-/
import IgnitePay.Did.State

namespace Did

open Bytes Machine Solana

variable (rt : Runtime)

/-- `Signer<'info>`. -/
def requireSigner (signer : Pubkey) : Except Error Unit :=
  require (rt.canSign signer = true) .accountNotSigner

/-- The `init` constraint: the account is not in use.  The handler writes the data. -/
def initAccount (w : World) (a : Address) : Except Error Unit :=
  require (w.accounts.lookup a = none) .accountAlreadyInUse

def loadDid (w : World) (a : Address) : Except Error MerchantDidAccount :=
  orErr (w.didAt a) .accountNotInitialized

def loadConfig (w : World) : Except Error PlatformConfig :=
  orErr (w.configAt .platformConfig) .accountNotInitialized

/-! ### The platform -/

def initPlatform (authority : Pubkey) (platformEd25519Pubkey : Bytes 32) (w : World) :
    Except Error World := do
  requireSigner rt authority
  initAccount w .platformConfig
  pure (w.setAccount .platformConfig (.platformConfig { platformEd25519Pubkey, authority }))

/-- The constraints on the configuration that installing a credential has. -/
def loadInitializedConfig (w : World) : Except Error PlatformConfig := do
  let config ← loadConfig w
  require (config.platformEd25519Pubkey ≠ fill 32 0) (.code .platformNotInitialized)
  pure config

/-- `credential_subject_pk || vc_hash`. -/
def credentialMessage (credentialSubjectPk : Pubkey) (vcHash : Bytes 32) : List UInt8 :=
  credentialSubjectPk.val ++ vcHash.val

/-- The signature that both installing instructions check. -/
def checkPlatformSignature (config : PlatformConfig) (signer : Pubkey) (vcHash : Bytes 32)
    (platformSignature : Bytes 64) : Except Error Unit :=
  require (rt.ed25519Verify (credentialMessage signer vcHash) platformSignature
    config.platformEd25519Pubkey = true) (.code .invalidPlatformSignature)

/-! ### A merchant's DID -/

/-- The account is at the address derived from the signer.  The subject that is passed is not used. -/
def initializeDid (signer : Pubkey) (vcHash : Bytes 32) (platformSignature : Bytes 64)
    (_credentialSubjectPk : Pubkey) (w : World) : Except Error World := do
  requireSigner rt signer
  initAccount w (.merchantDid signer)
  let config ← loadInitializedConfig w
  checkPlatformSignature rt config signer vcHash platformSignature
  pure (w.setAccount (.merchantDid signer) (.merchantDid {
    originalPk := signer
    controllerPk := signer
    recoveryPk := defaultPubkey
    vcHash
    lastUpdated := w.now
    nonce := 0 }))

/-- The accounts of the instructions on a DID. -/
structure DidAccess where
  signer : Pubkey
  merchantDid : Address
deriving DecidableEq

/-- The constraints that they share; `authority` is the key of the DID that has to sign. -/
def loadAuthorized (ctx : DidAccess) (authority : MerchantDidAccount → Pubkey) (wrongKey : DidError)
    (w : World) : Except Error MerchantDidAccount := do
  requireSigner rt ctx.signer
  let did ← loadDid w ctx.merchantDid
  require (ctx.merchantDid = .merchantDid did.originalPk) .constraintSeeds
  require (authority did = ctx.signer) (.code wrongKey)
  pure did

/-- What every one of them writes back with its own change. -/
def saveDid (ctx : DidAccess) (did : MerchantDidAccount) (w : World) : Except Error World := do
  let nonce ← orErr (checkedAdd did.nonce 1) (.code .arithmeticOverflow)
  pure (w.setAccount ctx.merchantDid (.merchantDid { did with lastUpdated := w.now, nonce }))

def updateDidWithVc (ctx : DidAccess) (vcHash : Bytes 32) (nonce : UInt64)
    (platformSignature : Bytes 64) (_credentialSubjectPk : Pubkey) (w : World) :
    Except Error World := do
  let did ← loadAuthorized rt ctx MerchantDidAccount.controllerPk .invalidControllerKey w
  let config ← loadInitializedConfig w
  require (did.nonce = nonce) (.code .nonceMismatch)
  checkPlatformSignature rt config ctx.signer vcHash platformSignature
  saveDid ctx { did with vcHash } w

def setRecoveryKey (ctx : DidAccess) (recoveryPk : Pubkey) (nonce : UInt64) (w : World) :
    Except Error World := do
  let did ← loadAuthorized rt ctx MerchantDidAccount.controllerPk .invalidControllerKey w
  require (did.nonce = nonce) (.code .nonceMismatch)
  saveDid ctx { did with recoveryPk } w

def recoverController (ctx : DidAccess) (newControllerPk : Pubkey) (nonce : UInt64) (w : World) :
    Except Error World := do
  let did ← loadAuthorized rt ctx MerchantDidAccount.recoveryPk .invalidRecoveryKey w
  require (did.nonce = nonce) (.code .nonceMismatch)
  saveDid ctx { did with controllerPk := newControllerPk } w

/-! ### Revocation -/

def revokeVc (authority : Pubkey) (vcHash : Bytes 32) (credentialSubjectPk : Pubkey) (reason : UInt8)
    (w : World) : Except Error World := do
  requireSigner rt authority
  let config ← loadConfig w
  require (config.authority = authority) (.code .unauthorizedRevocation)
  initAccount w (.revokedVc vcHash)
  pure (w.setAccount (.revokedVc vcHash) (.revokedVc {
    vcHash, credentialSubjectPk, revokedAt := w.now, reason, authority }))

/-! ### Calls -/

/-- What happens to the ledger. -/
inductive Call
  | initPlatform (authority : Pubkey) (platformEd25519Pubkey : Bytes 32)
  | initializeDid (signer : Pubkey) (vcHash : Bytes 32) (platformSignature : Bytes 64)
      (credentialSubjectPk : Pubkey)
  | updateDidWithVc (ctx : DidAccess) (vcHash : Bytes 32) (nonce : UInt64)
      (platformSignature : Bytes 64) (credentialSubjectPk : Pubkey)
  | setRecoveryKey (ctx : DidAccess) (recoveryPk : Pubkey) (nonce : UInt64)
  | recoverController (ctx : DidAccess) (newControllerPk : Pubkey) (nonce : UInt64)
  | revokeVc (authority : Pubkey) (vcHash : Bytes 32) (credentialSubjectPk : Pubkey) (reason : UInt8)
  /-- The clock moves on. -/
  | tick (now : Int64)
deriving DecidableEq

def exec : Call → World → Except Error World
  | .initPlatform authority key => initPlatform rt authority key
  | .initializeDid signer vcHash sig subject => initializeDid rt signer vcHash sig subject
  | .updateDidWithVc ctx vcHash nonce sig subject => updateDidWithVc rt ctx vcHash nonce sig subject
  | .setRecoveryKey ctx recoveryPk nonce => setRecoveryKey rt ctx recoveryPk nonce
  | .recoverController ctx newControllerPk nonce => recoverController rt ctx newControllerPk nonce
  | .revokeVc authority vcHash subject reason => revokeVc rt authority vcHash subject reason
  | .tick now => fun w => .ok { w with now }

end Did
