/-
The session program: its account, its errors and the ledger around it (`state.rs`, `error.rs`).

An owner registers a session for an ephemeral key, which may then pay from the session's account
within an envelope: a limit for all payments, one for each, and one for their number in a day.
The account lives at an address derived from the two keys; it holds the lamports of a SOL session,
and is the authority of the token accounts of the others.

Addresses are modelled by what they are derived from (`Address`): deriving is collision free and
never gives a wallet key.  A bump seed is a function of the address and is left out.  What the
runtime does to the accounts at the end of a transaction is left out as well.
-/
import IgnitePay.Lib.Lamports
import IgnitePay.Lib.Token

namespace SessionKey

open Bytes Machine Solana

/-! ### Errors -/

/-- The program's own error codes. -/
inductive SessionError
  | sessionRevoked
  | sessionExpired
  | spendingLimitExceeded
  | scopeNotPermitted
  | unauthorized
  | sessionStillActive
  | arithmeticOverflow
  | invalidScope
  | invalidMint
  | solSessionOnly
  | perTxLimitExceeded
  | dailyTxCountExceeded
  | insufficientVaultBalance
deriving DecidableEq, Repr

/-- How an instruction fails: with a code of the program, on an account constraint, in a System
transfer or in the token program, or by a panic of an overflow check. -/
inductive Error
  | code (e : SessionError)
  | token (e : Token.Error)
  | constraintSeeds
  | accountNotSigner
  | accountNotInitialized
  | accountNotSystemOwned
  | accountAlreadyInUse
  | accountDidNotSerialize
  | insufficientFunds
  | privilegeEscalation
  | panic
deriving DecidableEq, Repr

/-! ### Accounts -/

/-- An account address: a key outside the program, or one derived by it. -/
inductive Address
  | key (k : Pubkey)
  | session (owner ephemeralSigner : Address)
deriving DecidableEq

/-- A key that can sign a transaction: no derived address of the program can. -/
def Address.isKey : Address → Bool
  | .key _ => true
  | .session _ _ => false

/-- `Pubkey::default()`. -/
def defaultAddress : Address := .key defaultPubkey

structure SessionKeyAccount where
  owner : Address
  ephemeralSigner : Address
  targetProgram : Pubkey
  /-- `Pubkey::default()` for a SOL session. -/
  tokenMint : Pubkey
  expiresAt : Int64
  spendingLimit : UInt64
  currentSpent : UInt64
  scopes : List String
  /-- 0 for no limit. -/
  perTxLimit : UInt64
  /-- 0 for no limit. -/
  dailyTxCountLimit : UInt32
  currentDailyCount : UInt32
  lastDailyReset : Int64
  revoked : Bool
deriving DecidableEq

namespace SessionKeyAccount

/-- `SessionKeyAccount::space`; the summands are the fields in order, after the discriminator. -/
def space (maxScopes : ℕ) : ℕ :=
  8 + 32 + 32 + 32 + 32 + 8 + 8 + 8 + 4 + maxScopes * (4 + 32) + 8 + 4 + 4 + 8 + 1 + 1

def defaultSpace : ℕ := space 10

/-- The bytes the account is written as. -/
def size (session : SessionKeyAccount) : ℕ :=
  space 0 + (session.scopes.map fun scope => 4 + scope.utf8ByteSize).sum

end SessionKeyAccount

/-- What the program calls outside itself: the rent of an account of a given size. -/
structure Runtime where
  minimumBalance : ℕ → UInt64

/-- `Rent::get()?.minimum_balance(session_info.data_len())`. -/
def Runtime.rentExempt (rt : Runtime) : UInt64 := rt.minimumBalance SessionKeyAccount.defaultSpace

def Runtime.cluster : Runtime where
  minimumBalance space := UInt64.ofNat ((128 + space) * 6960)

/-! ### The ledger -/

structure World where
  /-- Accounts owned by the program. -/
  sessions : Store.Map Address SessionKeyAccount
  lamports : Address → UInt64
  tokens : Token.Ledger Address
  /-- `clock.unix_timestamp`. -/
  now : Int64

namespace World

/-- Write a session's account. -/
def setSession (w : World) (a : Address) (session : SessionKeyAccount) : World :=
  { w with sessions := w.sessions.insert a session }

section

variable (w : World) (a a' : Address) (session : SessionKeyAccount)

@[simp] theorem lamports_setSession : (w.setSession a session).lamports = w.lamports := rfl

@[simp] theorem tokens_setSession : (w.setSession a session).tokens = w.tokens := rfl

@[simp] theorem now_setSession : (w.setSession a session).now = w.now := rfl

theorem lookup_setSession : (w.setSession a session).sessions.lookup a'
    = if a' = a then some session else w.sessions.lookup a' :=
  Store.lookup_insert_eq w.sessions a a' session

end

end World

/-- `Account<'info, SessionKeyAccount>`. -/
def loadSession (w : World) (a : Address) : Except Error SessionKeyAccount :=
  orErr (w.sessions.lookup a) .accountNotInitialized

/-- The lamports of one account given to another. -/
def moveLamports (w : World) (src dst : Address) (amount : UInt64) (e : Error) :
    Except Error World := do
  let lamports ← orErr (Lamports.move w.lamports src dst amount) e
  pure { w with lamports }

/-- `token::transfer`. -/
def transferTokens (w : World) (src dst authority : Address) (amount : UInt64) :
    Except Error World := do
  let tokens ← (Token.transfer w.tokens src dst authority amount).mapError .token
  pure { w with tokens }

end SessionKey
