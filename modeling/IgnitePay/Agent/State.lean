/-
The payer's agent: what it keeps in its stores.

Merchants are on a whitelist or a blacklist, and what has been spent at each is added up
(`ignite-pay-core/src/list_store.rs`).  A session key is stored with its limits and with what has
been spent with it (`ignite-pay-solana/src/session.rs`).  Times are seconds since 1970; a stored time
can be any integer, the clock is at least zero.

An access to a store can fail, and so can its decoding; the functions here are told whether it does.
-/
import IgnitePay.Lib.Machine
import IgnitePay.Lib.Solana
import IgnitePay.Lib.Store

namespace Agent

open Machine Solana

inductive StoreError
  | accessFailed
deriving DecidableEq, Repr

/-! ### Merchant lists -/

/-- An entry of either list.  Its key in the store is the merchant's DID. -/
structure MerchantListEntry where
  maxAmount : Option UInt64
  label : Option String
  expires : Option ℤ
deriving DecidableEq

namespace MerchantListEntry

def expired (entry : MerchantListEntry) (now : ℕ) : Bool :=
  entry.expires.any fun expires => decide (expires < (now : ℤ))

end MerchantListEntry

structure WhitelistResult where
  isWhitelisted : Bool
  maxAmount : Option UInt64
  label : Option String
  expiresAt : Option ℤ
deriving DecidableEq

inductive RiskControlDecision
  | blocked
  | autoApproved (maxAmount : Option UInt64) (label : Option String)
  | needsAuth
deriving DecidableEq

structure ListStore where
  whitelist : Store.Map String MerchantListEntry
  blacklist : Store.Map String MerchantListEntry
  /-- What has been spent at each merchant. -/
  merchantSpending : Store.Map String UInt64

/-- Which reads of the lists go through. -/
structure ListAccess where
  blacklist : Bool
  whitelist : Bool
  merchantSpending : Bool
deriving DecidableEq

namespace ListStore

variable (ok : ListAccess) (l : ListStore) (now : ℕ) (did : String) (amount : UInt64)

def isBlacklisted : Except StoreError Bool := do
  require (ok.blacklist = true) .accessFailed
  pure ((l.blacklist.lookup did).any fun entry => !entry.expired now)

def checkWhitelist : Except StoreError WhitelistResult := do
  require (ok.whitelist = true) .accessFailed
  pure (match l.whitelist.lookup did with
    | none => ⟨false, none, none, none⟩
    | some entry =>
      if entry.expired now then ⟨false, none, none, none⟩
      else ⟨entry.maxAmount.all fun max => decide (amount ≤ max), entry.maxAmount, entry.label,
        entry.expires⟩)

def getMerchantSpent : Except StoreError UInt64 := do
  require (ok.merchantSpending = true) .accessFailed
  pure ((l.merchantSpending.lookup did).getD 0)

/-- The test of the cumulative amount: what cannot be read counts as zero. -/
def cumulativeExceeds (max : UInt64) : Bool :=
  decide (saturatingAdd ((l.getMerchantSpent ok did).toOption.getD 0) amount > max)

def riskCheck : Except StoreError RiskControlDecision := do
  let blacklisted ← l.isBlacklisted ok now did
  if blacklisted then
    pure .blocked
  else do
    let wl ← l.checkWhitelist ok now did amount
    -- Cumulative exceeded: manual authorization instead of automatic approval.
    pure (if wl.isWhitelisted ∧ ¬ wl.maxAmount.any (l.cumulativeExceeds ok did amount)
      then .autoApproved wl.maxAmount wl.label else .needsAuth)

def recordMerchantSpent : ListStore :=
  let newTotal := saturatingAdd ((l.merchantSpending.lookup did).getD 0) amount
  { l with merchantSpending := l.merchantSpending.insert did newTotal }

end ListStore

/-! ### Sessions -/

structure SessionTokenData where
  owner : Pubkey
  expiresAt : ℤ
  spendingLimit : UInt64
  currentSpent : UInt64
  /-- 0 means no limit. -/
  perTxLimit : UInt64
  /-- 0 means no limit. -/
  dailyTxCountLimit : UInt32
  currentDailyCount : UInt32
  /-- When the day started that is counted. -/
  lastDailyReset : ℤ
deriving DecidableEq

/-- A session key in memory, with the data it had in the store when it was read. -/
structure SessionKeypair where
  pubkey : Pubkey
  sessionData : SessionTokenData
deriving DecidableEq

/-- The start of the day. -/
def todayStart (now : ℕ) : ℤ := now - now % 86400

namespace SessionTokenData

variable (d : SessionTokenData) (amount : UInt64) (now : ℕ)

def isExpired : Bool := decide (d.expiresAt ≤ now)

def checkSpendingLimit : Bool := decide (saturatingAdd d.currentSpent amount ≤ d.spendingLimit)

def remaining : UInt64 := saturatingSub d.spendingLimit d.currentSpent

def withinPerTx : Bool := decide (d.perTxLimit = 0 ∨ amount ≤ d.perTxLimit)

def withinDailyCount : Bool :=
  decide (d.dailyTxCountLimit = 0 ∨ d.lastDailyReset < todayStart now ∨
    d.currentDailyCount < d.dailyTxCountLimit)

/-- The three limits, as they are tested for a payment without the phone. -/
def withinLimits : Bool :=
  decide (amount ≤ d.remaining) && d.withinPerTx amount && d.withinDailyCount now

/-- What `record_spent` makes of the data that it has read. -/
def recordSpent : SessionTokenData :=
  { d with
    currentSpent := saturatingAdd d.currentSpent amount
    currentDailyCount :=
      if d.lastDailyReset < todayStart now then 1 else saturatingAddU32 d.currentDailyCount 1
    lastDailyReset :=
      if d.lastDailyReset < todayStart now then todayStart now else d.lastDailyReset }

end SessionTokenData

abbrev SessionStore := Store.Map Pubkey SessionTokenData

/-- The first session in the order of the keys `session:…` that is the owner's and has not expired. -/
def SessionStore.getActiveSession (sessions : SessionStore) (owner : Pubkey) (now : ℕ) :
    Option SessionKeypair :=
  let active := sessions.entries.filter fun e => decide (e.2.owner = owner) && !e.2.isExpired now
  (active.mergeSort fun a b => decide (debugPubkey a.1 ≤ debugPubkey b.1)).head?.map fun e =>
    ⟨e.1, e.2⟩

end Agent
