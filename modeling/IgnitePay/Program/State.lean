/-
The on-chain channel program: its account, its errors and the ledger around it.

A channel lives at the address derived from its id, and pays from the token
account at the escrow address derived from the same id.  An account keeps the
space it was created with; writing a channel that no longer fits fails.

A signer is a wallet key, so signers are plain keys.  The keys that a channel
stores are compared with signers and with message bytes only, and are plain
keys as well; token accounts can also stand at derived addresses.  Rent is left
out: the payer of a new channel is taken to be able to pay it.
-/
import IgnitePay.Lib.Sha256
import IgnitePay.Lib.Token

namespace Program

open Bytes Machine Solana

/-! ### Errors -/

/-- The program's own error codes. -/
inductive ErrorCode
  | invalidSequence
  | prevHashMismatch
  | invalidSignature
  | insufficientBalance
  | leafIndexOutOfBounds
  | proofVerificationFailed
  | channelNotFound
  | htlcExpired
  | htlcNotExpired
  | hashLockMismatch
  | invalidOwner
  | amountConservation
  | emptyLeaf
  | leafSlotOccupied
  | noAvailableSlots
  | invalidStatus
  | challengeNotElapsed
  | settlementExpired
  | settlementNotExpired
  | unauthorized
  | alreadyFunded
  | zeroDeposit
  | alreadyClaimed
  | amountMismatch
  | invalidLeafData
  | arithmeticOverflow
deriving DecidableEq, Repr

/-- How an instruction fails: with a code of the program, on an account
constraint, in the token program, or by a panic (an overflow check, an index). -/
inductive Error
  | code (e : ErrorCode)
  | token (e : Token.Error)
  | constraintSeeds
  | accountNotInitialized
  | accountAlreadyInUse
  | accountDidNotSerialize
  | panic
deriving DecidableEq, Repr

/-! ### Accounts -/

/-- An account address: a key outside the program, or one derived by it. -/
inductive Address
  | key (k : Pubkey)
  | channel (channelId : Bytes 32)
  | escrow (channelId : Bytes 32)
deriving DecidableEq

inductive ChannelStatus
  /-- Open for off-chain operations. -/
  | opened
  /-- Under dispute. -/
  | challenged
  /-- In the claim window. -/
  | settling
  | closed
deriving DecidableEq, Repr

structure ChannelAccount where
  channelId : Bytes 32
  /-- Party A. -/
  userPubkey : Pubkey
  /-- Party B. -/
  providerPubkey : Pubkey
  tokenMint : Pubkey
  status : ChannelStatus
  sequence : UInt64
  currentRoot : Bytes 32
  totalDeposited : UInt64
  openSlot : UInt64
  challengeSlot : Option UInt64
  vaultA : Address
  vaultB : Address
  depositA : UInt64
  depositB : UInt64
  challengeDuration : UInt64
  minChallengeDelay : UInt64
  totalClaimed : UInt64
  settleDeadline : Option UInt64
  treeDepth : UInt32
  leafCount : UInt32
  claimedLeaves : List UInt32
  autoCloseSlot : Option UInt64
deriving DecidableEq

namespace ChannelAccount

/-- Bytes of an `Option<u64>`. -/
def optionSize (o : Option UInt64) : ℕ := if o.isSome then 1 + 8 else 1

/-- The serialized size with options of size `option` and `n` claimed leaves;
the summands are the fields in order, after the discriminator. -/
def sizeWith (challengeSlot settleDeadline autoCloseSlot n : ℕ) : ℕ :=
  8 + 32 + 32 + 32 + 32 + 1 + 8 + 32 + 8 + 8 + challengeSlot + 32 + 32 + 8 + 8 + 8 + 8 + 8
    + settleDeadline + 4 + 4 + (4 + n * 4) + autoCloseSlot

/-- `ChannelAccount::space`. -/
def space (treeDepth : UInt32) : ℕ := sizeWith 9 9 9 (2 ^ min treeDepth.toNat 12)

/-- The bytes the account is written as. -/
def size (c : ChannelAccount) : ℕ :=
  sizeWith (optionSize c.challengeSlot) (optionSize c.settleDeadline) (optionSize c.autoCloseSlot)
    c.claimedLeaves.length

end ChannelAccount

/-- A channel account with its allocated space. -/
structure ChannelEntry where
  space : ℕ
  data : ChannelAccount
deriving DecidableEq

/-! ### The ledger -/

structure World where
  /-- Accounts owned by the program. -/
  channels : Store.Map Address ChannelEntry
  tokens : Token.Ledger Address
  /-- `clock.slot`. -/
  slot : UInt64

namespace World

def channelAt (w : World) (a : Address) : Option ChannelAccount :=
  (w.channels.lookup a).map ChannelEntry.data

theorem channelAt_eq_some {w : World} {a : Address} {c : ChannelAccount} :
    w.channelAt a = some c ↔ ∃ n, w.channels.lookup a = some ⟨n, c⟩ := by
  unfold channelAt
  constructor
  · intro h
    obtain ⟨⟨n, c'⟩, he, rfl⟩ := Option.map_eq_some_iff.mp h
    exact ⟨n, he⟩
  · rintro ⟨n, h⟩
    rw [h]
    rfl

end World

/-- `Account<'info, ChannelAccount>`. -/
def loadChannel (w : World) (a : Address) : Except Error ChannelAccount :=
  orErr (w.channelAt a) .accountNotInitialized

/-- `Account<'info, TokenAccount>`. -/
def loadToken (w : World) (a : Address) : Except Error (Token.Account Address) :=
  orErr (w.tokens.lookup a) .accountNotInitialized

/-- Write a channel back when the instruction ends. -/
def saveChannel (w : World) (a : Address) (c : ChannelAccount) : Except Error World := do
  let entry ← orErr (w.channels.lookup a) .accountNotInitialized
  require (c.size ≤ entry.space) .accountDidNotSerialize
  pure { w with channels := w.channels.insert a { entry with data := c } }

theorem saveChannel_eq_ok {w w' : World} {a : Address} {c : ChannelAccount} :
    saveChannel w a c = .ok w' ↔ ∃ entry, w.channels.lookup a = some entry ∧
      c.size ≤ entry.space ∧
      { w with channels := w.channels.insert a { entry with data := c } } = w' := by
  simp only [saveChannel, bind_eq_ok, orErr_eq_ok, require_eq_ok, exists_const, pure, Except.pure,
    Except.ok.injEq]

/-- `token::transfer`. -/
def transferTokens (w : World) (src dst authority : Address) (amount : UInt64) :
    Except Error World := do
  let tokens ← (Token.transfer w.tokens src dst authority amount).mapError .token
  pure { w with tokens }

end Program
