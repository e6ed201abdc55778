/-
The instructions of the session program (`lib.rs`).

Each instruction first checks the constraints of its account struct, then runs its handler on a
copy of the session, which is written back when the instruction ends.  A failed instruction has no
effect, so an instruction is a function to `Except Error World`.  The two payments differ in what
they check of the asset and in what they transfer; both are `payWith`.

`Call` collects the instructions with the accounts and arguments a caller chooses, and what else
happens to the ledger: wallets transfer lamports, the token program is used, and the clock moves on.
-/
import IgnitePay.SessionKey.State

namespace SessionKey

open Bytes Machine Solana

variable (rt : Runtime)

/-! ### Registration -/

/-- The `init` constraint: the account is not in use, and `payer` tops it up to the rent.  The
handler writes the data. -/
def initSession (w : World) (a payer : Address) : Except Error World := do
  require (w.sessions.lookup a = none) .accountAlreadyInUse
  let required := rt.rentExempt
  let topUp := if w.lamports a ≤ required then required - w.lamports a else 0
  moveLamports w payer a topUp .insufficientFunds

structure RegisterSessionKey where
  session : Address
  owner : Address
  ephemeralSigner : Address
deriving DecidableEq

/-- The arguments of `register_session_key`. -/
structure SessionTerms where
  targetProgram : Pubkey
  expiresAt : Int64
  spendingLimit : UInt64
  scopes : List String
  tokenMint : Pubkey
  perTxLimit : UInt64
  dailyTxCountLimit : UInt32
deriving DecidableEq

/-- The session as it is registered. -/
def SessionTerms.account (terms : SessionTerms) (owner ephemeralSigner : Address) (now : Int64) :
    SessionKeyAccount where
  owner
  ephemeralSigner
  targetProgram := terms.targetProgram
  tokenMint := terms.tokenMint
  expiresAt := terms.expiresAt
  spendingLimit := terms.spendingLimit
  currentSpent := 0
  scopes := terms.scopes
  perTxLimit := terms.perTxLimit
  dailyTxCountLimit := terms.dailyTxCountLimit
  currentDailyCount := 0
  lastDailyReset := now
  revoked := false

def registerSessionKey (ctx : RegisterSessionKey) (terms : SessionTerms) (w : World) :
    Except Error World := do
  require ctx.owner.isKey .accountNotSigner
  require (ctx.session = .session ctx.owner ctx.ephemeralSigner) .constraintSeeds
  let w ← initSession rt w ctx.session ctx.owner
  require (ctx.ephemeralSigner ≠ defaultAddress) (.code .invalidScope)
  require (terms.expiresAt > w.now) (.code .sessionExpired)
  require (terms.scopes ≠ []) (.code .invalidScope)
  require (∀ scope ∈ terms.scopes, ':' ∈ scope.toList) (.code .invalidScope)
  let session := terms.account ctx.owner ctx.ephemeralSigner w.now
  -- Later instructions leave the scopes alone, so that what they write back fits too.
  require (session.size ≤ SessionKeyAccount.defaultSpace) .accountDidNotSerialize
  pure (w.setSession ctx.session session)

/-! ### Payments -/

/-- The validation phase of a payment; `asset` are the checks that the paths do not share. -/
def validatePayment (session : SessionKeyAccount) (asset : Except Error Unit) (now : Int64)
    (amount : UInt64) (scope : String) : Except Error Unit := do
  require (now < session.expiresAt) (.code .sessionExpired)
  require (session.revoked = false) (.code .sessionRevoked)
  require (scope ∈ session.scopes) (.code .scopeNotPermitted)
  asset
  require (session.perTxLimit > 0 → amount ≤ session.perTxLimit) (.code .perTxLimitExceeded)

/-- The daily window is reset if it is over. -/
def resetWindow (session : SessionKeyAccount) (now : Int64) : Except Error SessionKeyAccount := do
  let elapsed ← orErr (subI64 now session.lastDailyReset) .panic
  pure (if elapsed ≥ 86400 then { session with currentDailyCount := 0, lastDailyReset := now }
    else session)

def checkDailyCount (session : SessionKeyAccount) : Except Error Unit :=
  if session.dailyTxCountLimit > 0 then do
    let count ← orErr (addU32 session.currentDailyCount 1) .panic
    require (count ≤ session.dailyTxCountLimit) (.code .dailyTxCountExceeded)
  else .ok ()

def checkSpendingLimit (session : SessionKeyAccount) (amount : UInt64) : Except Error Unit := do
  let newSpent ← orErr (checkedAdd session.currentSpent amount) (.code .arithmeticOverflow)
  require (newSpent ≤ session.spendingLimit) (.code .spendingLimitExceeded)

/-- The window that a payment is counted in, with the checks against it. -/
def openWindow (session : SessionKeyAccount) (now : Int64) (amount : UInt64) :
    Except Error SessionKeyAccount := do
  let session ← resetWindow session now
  checkDailyCount session
  checkSpendingLimit session amount
  pure session

/-- The spent amount and the count, after the transfer. -/
def recordPayment (session : SessionKeyAccount) (amount : UInt64) :
    Except Error SessionKeyAccount := do
  let currentSpent ← orErr (checkedAdd session.currentSpent amount) (.code .arithmeticOverflow)
  let currentDailyCount := saturatingAddU32 session.currentDailyCount 1
  pure { session with currentSpent, currentDailyCount }

/-- The accounts that both payments have. -/
structure Payer where
  session : Address
  ephemeralSigner : Address
deriving DecidableEq

/-- The common course of `execute_payment` and `execute_spl_payment`. -/
def payWith (payer : Payer) (asset : SessionKeyAccount → Except Error Unit)
    (transfer : SessionKeyAccount → World → Except Error World) (amount : UInt64) (scope : String)
    (w : World) : Except Error World := do
  let session ← loadSession w payer.session
  require payer.ephemeralSigner.isKey .accountNotSigner
  require (session.revoked = false) (.code .sessionRevoked)
  require (session.ephemeralSigner = payer.ephemeralSigner) (.code .unauthorized)
  validatePayment session (asset session) w.now amount scope
  let session ← openWindow session w.now amount
  let w ← transfer session w
  let session ← recordPayment session amount
  pure (w.setSession payer.session session)

structure ExecutePayment where
  payer : Payer
  recipient : Address
deriving DecidableEq

/-- Lamports straight from the session's account, whatever it needs for its rent. -/
def executePayment (ctx : ExecutePayment) (amount : UInt64) (scope : String) (w : World) :
    Except Error World :=
  payWith ctx.payer (fun _ => .ok ())
    (fun _ w => do
      require (¬ w.lamports ctx.payer.session < amount) (.code .insufficientVaultBalance)
      moveLamports w ctx.payer.session ctx.recipient amount .panic)
    amount scope w

structure ExecuteSplPayment where
  payer : Payer
  sourceAta : Address
  destAta : Address
  tokenMint : Pubkey
deriving DecidableEq

/-- The session signs for the address of its seeds. -/
def transferFromSession (session : SessionKeyAccount) (a src dst : Address) (amount : UInt64)
    (w : World) : Except Error World := do
  require (a = .session session.owner session.ephemeralSigner) .privilegeEscalation
  transferTokens w src dst a amount

/-- The mint is compared with the account that is passed for it, not with the token accounts. -/
def executeSplPayment (ctx : ExecuteSplPayment) (amount : UInt64) (scope : String) (w : World) :
    Except Error World :=
  payWith ctx.payer
    (fun session => do
      require (session.tokenMint = ctx.tokenMint) (.code .invalidMint)
      require (session.tokenMint ≠ defaultPubkey) (.code .solSessionOnly))
    (fun session w => transferFromSession session ctx.payer.session ctx.sourceAta ctx.destAta amount w)
    amount scope w

/-! ### The owner's instructions -/

/-- The accounts of the owner's instructions that all of them have. -/
structure OwnerAccess where
  session : Address
  owner : Address
deriving DecidableEq

/-- The constraints that they share. -/
def loadOwned (ctx : OwnerAccess) (w : World) : Except Error SessionKeyAccount := do
  let session ← loadSession w ctx.session
  require ctx.owner.isKey .accountNotSigner
  require (session.owner = ctx.owner) (.code .unauthorized)
  pure session

def withdrawRemaining (ctx : OwnerAccess) (recipient : Address) (w : World) :
    Except Error World := do
  let _ ← loadOwned ctx w
  require (w.sessions.lookup recipient = none) .accountNotSystemOwned
  let withdrawAmount := saturatingSub (w.lamports ctx.session) rt.rentExempt
  if withdrawAmount = 0 then pure w
  else moveLamports w ctx.session recipient withdrawAmount .panic

def withdrawSplRemaining (ctx : OwnerAccess) (sourceAta destAta : Address) (amount : UInt64)
    (w : World) : Except Error World := do
  let session ← loadOwned ctx w
  transferFromSession session ctx.session sourceAta destAta amount w

def revokeSession (ctx : OwnerAccess) (w : World) : Except Error World := do
  let session ← loadOwned ctx w
  require (session.revoked = false) (.code .sessionRevoked)
  pure (w.setSession ctx.session { session with revoked := true })

/-- The lamports go to the owner, and the account is gone. -/
def closeSession (ctx : OwnerAccess) (w : World) : Except Error World := do
  let session ← loadOwned ctx w
  require (session.revoked = true ∨ w.now ≥ session.expiresAt) (.code .sessionStillActive)
  let w ← moveLamports w ctx.session ctx.owner (w.lamports ctx.session) .panic
  pure { w with sessions := w.sessions.erase ctx.session }

/-! ### Calls -/

/-- What happens to the ledger. -/
inductive Call
  | registerSessionKey (ctx : RegisterSessionKey) (terms : SessionTerms)
  | executePayment (ctx : ExecutePayment) (amount : UInt64) (scope : String)
  | executeSplPayment (ctx : ExecuteSplPayment) (amount : UInt64) (scope : String)
  | withdrawRemaining (ctx : OwnerAccess) (recipient : Address)
  | withdrawSplRemaining (ctx : OwnerAccess) (sourceAta destAta : Address) (amount : UInt64)
  | revokeSession (ctx : OwnerAccess)
  | closeSession (ctx : OwnerAccess)
  /-- A System transfer that a wallet signs. -/
  | transfer (src dst : Address) (amount : UInt64)
  /-- Whatever is done with the token program by others. -/
  | useTokens (tokens : Token.Ledger Address)
  /-- The clock moves on. -/
  | tick (now : Int64)

def transfer (src dst : Address) (amount : UInt64) (w : World) : Except Error World := do
  require src.isKey .accountNotSigner
  moveLamports w src dst amount .insufficientFunds

def tick (now : Int64) (w : World) : Except Error World := do
  require (w.now ≤ now) .panic
  pure { w with now }

def exec : Call → World → Except Error World
  | .registerSessionKey ctx terms => registerSessionKey rt ctx terms
  | .executePayment ctx amount scope => executePayment ctx amount scope
  | .executeSplPayment ctx amount scope => executeSplPayment ctx amount scope
  | .withdrawRemaining ctx recipient => withdrawRemaining rt ctx recipient
  | .withdrawSplRemaining ctx src dst amount => withdrawSplRemaining ctx src dst amount
  | .revokeSession ctx => revokeSession ctx
  | .closeSession ctx => closeSession ctx
  | .transfer src dst amount => transfer src dst amount
  | .useTokens tokens => fun w => .ok { w with tokens }
  | .tick now => tick now

/-- A call is submitted: if it fails, the ledger is what it was. -/
def submit (c : Call) (w : World) : World :=
  match exec rt c w with
  | .ok w' => w'
  | .error _ => w

end SessionKey
