/-
The DID program, in its version with derived accounts: its accounts and its errors (`state.rs`,
`error.rs`).

A merchant's DID lives at the address derived from the key it was created with.  It names the key
that controls it, a recovery key, and the hash of the credential that the platform has issued.  A
revoked credential has a record of its own, at the address derived from its hash.

Addresses are modelled by what they are derived from; no such address is a wallet key, so signers
are plain keys.  Rent is left out: who pays for an account is taken to be able to.
-/
import IgnitePay.Lib.Machine
import IgnitePay.Lib.Solana
import IgnitePay.Lib.Store

namespace Did

open Bytes Machine Solana

/-! ### Errors -/

/-- The program's own error codes. -/
inductive DidError
  | alreadyInitialized
  | notInitialized
  | invalidAuthority
  | invalidPubkey
  | invalidSigner
  | arithmeticOverflow
  | vcSubjectMismatch
  | didAlreadyInitialized
  | invalidControllerKey
  | nonceMismatch
  | invalidRecoveryKey
  | invalidAddressTree
  | insufficientCpiAccounts
  | platformNotInitialized
  | invalidPlatformSignature
  | alreadyRevoked
  | unauthorizedRevocation
deriving DecidableEq, Repr

/-- How an instruction fails: with a code of the program, or on an account constraint. -/
inductive Error
  | code (e : DidError)
  | constraintSeeds
  | accountNotSigner
  | accountNotInitialized
  | accountAlreadyInUse
deriving DecidableEq, Repr

/-! ### Accounts -/

/-- An account address: a key outside the program, or one derived by it. -/
inductive Address
  | key (k : Pubkey)
  | platformConfig
  | merchantDid (originalPk : Pubkey)
  | revokedVc (vcHash : Bytes 32)
deriving DecidableEq

structure MerchantDidAccount where
  /-- The key that the DID was created with. -/
  originalPk : Pubkey
  controllerPk : Pubkey
  recoveryPk : Pubkey
  /-- The hash of the platform's credential. -/
  vcHash : Bytes 32
  lastUpdated : Int64
  nonce : UInt64
deriving DecidableEq

structure PlatformConfig where
  platformEd25519Pubkey : Bytes 32
  authority : Pubkey
deriving DecidableEq

structure RevokedVc where
  vcHash : Bytes 32
  credentialSubjectPk : Pubkey
  revokedAt : Int64
  reason : UInt8
  authority : Pubkey
deriving DecidableEq

/-- The data of an account the program owns; the constructor is the account discriminator. -/
inductive AccountData
  | merchantDid (did : MerchantDidAccount)
  | platformConfig (config : PlatformConfig)
  | revokedVc (entry : RevokedVc)
deriving DecidableEq

/-- What the program calls outside itself: the check of an Ed25519 signature of a message by a key,
and whether the runtime accepts a transaction that a key has signed. -/
structure Runtime where
  ed25519Verify : List UInt8 → Bytes 64 → Pubkey → Bool
  canSign : Pubkey → Bool

/-! ### The ledger -/

structure World where
  /-- Accounts owned by the program. -/
  accounts : Store.Map Address AccountData
  /-- `Clock::get()?.unix_timestamp`. -/
  now : Int64

namespace World

def didAt (w : World) (a : Address) : Option MerchantDidAccount :=
  match w.accounts.lookup a with
  | some (.merchantDid did) => some did
  | _ => none

def configAt (w : World) (a : Address) : Option PlatformConfig :=
  match w.accounts.lookup a with
  | some (.platformConfig config) => some config
  | _ => none

def revokedAt (w : World) (a : Address) : Option RevokedVc :=
  match w.accounts.lookup a with
  | some (.revokedVc entry) => some entry
  | _ => none

/-- Write the data of a program account. -/
def setAccount (w : World) (a : Address) (d : AccountData) : World :=
  { w with accounts := w.accounts.insert a d }

section

variable {w : World} {a a' : Address}

theorem didAt_eq_some {did : MerchantDidAccount} :
    w.didAt a = some did ↔ w.accounts.lookup a = some (.merchantDid did) := by
  unfold didAt
  split <;> simp_all

theorem configAt_eq_some {config : PlatformConfig} :
    w.configAt a = some config ↔ w.accounts.lookup a = some (.platformConfig config) := by
  unfold configAt
  split <;> simp_all

theorem revokedAt_eq_some {entry : RevokedVc} :
    w.revokedAt a = some entry ↔ w.accounts.lookup a = some (.revokedVc entry) := by
  unfold revokedAt
  split <;> simp_all

theorem lookup_setAccount (d : AccountData) : (w.setAccount a d).accounts.lookup a'
    = if a' = a then some d else w.accounts.lookup a' :=
  Store.lookup_insert_eq w.accounts a a' d

@[simp] theorem now_setAccount (d : AccountData) : (w.setAccount a d).now = w.now := rfl

end

end World

end Did
