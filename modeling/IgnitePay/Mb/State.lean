/-
The MagicBlock settlement program: accounts, errors and the ledger they live in.

The program keeps three kinds of account, all at program-derived addresses: the
`GlobalState` of a (buyer, mint) pair, the `Channel` of a (buyer, merchant,
mint) triple and one `SettlementEscrow` per settled batch.  The vault of a
(buyer, mint) pair holds lamports only.

Addresses are modelled by what they are derived from (`Address`): deriving is
collision free and never gives a wallet key.  `Address.bytes` is the 32-byte
key itself, for the messages that contain it.  A bump seed is a function of
the address and is left out.
-/
import IgnitePay.Lib.Machine
import IgnitePay.Lib.Sha256
import IgnitePay.Lib.Solana
import IgnitePay.Lib.Store

namespace Mb

open Bytes Machine

/-! ### Errors -/

/-- The program's own error codes. -/
inductive ErrorCode
  | spendingCapExceeded
  | insufficientBalance
  | alreadyClaimed
  | disputed
  | alreadyDisputed
  | challengePeriodNotExpired
  | challengePeriodExpired
  | notBuyer
  | arithmeticOverflow
  | invalidSignatureInstruction
  | signatureMismatch
  | invalidTransactionLayout
  | notDisputed
  | disputePeriodNotExpired
  | invalidFraudProof
  | fraudNotProven
  | buyerSignatureNotFound
  | merchantSignatureNotFound
  | allocationExceedsDeposit
  | challengePeriodRequired
  | tokenMintMismatch
deriving DecidableEq, Repr

/-- How an instruction fails: with a code of the program, on an account
constraint, in a System transfer, or by a panic (an overflow check, an index). -/
inductive Error
  | code (e : ErrorCode)
  | constraintHasOne
  | constraintSeeds
  | accountNotSigner
  | accountNotInitialized
  | accountNotSystemOwned
  | accountAlreadyInUse
  | insufficientFunds
  | panic
deriving DecidableEq, Repr

/-! ### Addresses -/

/-- An account address: a key outside the program, or one derived by it. -/
inductive Address
  | key (k : Solana.Pubkey)
  | globalState (buyer tokenMint : Address)
  | vault (buyer tokenMint : Address)
  | channel (buyer merchant tokenMint : Address)
  | settlement (channel : Address) (nonce : UInt64)
deriving DecidableEq

/-- A key that can sign a transaction: no derived address of the program can. -/
def Address.isKey : Address → Bool
  | .key _ => true
  | _ => false

/-- The bytes of an ASCII literal. -/
def ascii (s : String) : List UInt8 := s.toList.map fun c => UInt8.ofNat c.toNat

def globalStateSeed : List UInt8 := ascii "global_state"
def globalVaultSeed : List UInt8 := ascii "global_buyer_vault"
def channelSeed : List UInt8 := ascii "channel"
def settlementSeed : List UInt8 := ascii "settlement"

/-- What the program calls outside itself: the hash, the derivation of an
address from its seeds, and the rent of an account of a given size. -/
structure Runtime where
  sha256 : List UInt8 → Bytes 32
  findProgramAddress : List (List UInt8) → Solana.Pubkey
  minimumBalance : ℕ → UInt64

/-- `key().as_ref()`. -/
def Address.bytes (rt : Runtime) : Address → Solana.Pubkey
  | .key k => k
  | .globalState b m =>
    rt.findProgramAddress [globalStateSeed, (b.bytes rt).val, (m.bytes rt).val]
  | .vault b m => rt.findProgramAddress [globalVaultSeed, (b.bytes rt).val, (m.bytes rt).val]
  | .channel b r m =>
    rt.findProgramAddress [channelSeed, (b.bytes rt).val, (r.bytes rt).val, (m.bytes rt).val]
  | .settlement c n => rt.findProgramAddress [settlementSeed, (c.bytes rt).val, u64Le n]

/-- The program's id. -/
def programId : Solana.Pubkey :=
  ⟨[86, 101, 38, 142, 39, 150, 255, 142, 78, 53, 254, 190, 157, 175, 50, 149,
    67, 139, 252, 8, 237, 32, 210, 19, 182, 122, 252, 254, 10, 56, 184, 104], rfl⟩

/-- The runtime of a cluster, for addresses whose first bump, 255, is good. -/
def Runtime.cluster : Runtime where
  sha256 := Sha256.sha256
  findProgramAddress seeds :=
    Sha256.sha256 (seeds.flatten ++ [255] ++ programId.val ++ ascii "ProgramDerivedAddress")
  minimumBalance space := UInt64.ofNat ((128 + space) * 6960)

namespace Sample

/-! The parties of the concrete runs. -/

def buyer : Address := .key (fill 32 9)
def merchant : Address := .key (fill 32 12)

/-- `Pubkey::default()`, the mint that stands for SOL. -/
def sol : Address := .key Solana.defaultPubkey

def channel : Address := .channel buyer merchant sol

/-- The bytes of the channel's address. -/
def channelKey : Bytes 32 :=
  ⟨[47, 249, 173, 24, 159, 70, 157, 182, 25, 78, 17, 99, 120, 172, 205, 183,
    99, 182, 116, 73, 49, 122, 184, 8, 24, 35, 247, 48, 63, 132, 254, 219], rfl⟩

theorem channel_bytes : channel.bytes Runtime.cluster = channelKey := by
  decide +kernel

end Sample

/-! ### Accounts -/

structure GlobalState where
  buyer : Address
  tokenMint : Address
  totalDeposited : UInt64
  totalAllocated : UInt64
deriving DecidableEq

def GlobalState.SPACE : ℕ := 8 + 32 + 32 + 8 + 8 + 1

structure Channel where
  buyer : Address
  merchant : Address
  tokenMint : Address
  spendingCap : UInt64
  settledAmount : UInt64
  nonce : UInt64
  challengePeriod : Int64
  disputePeriod : Int64
deriving DecidableEq

def Channel.SPACE : ℕ := 8 + 32 + 32 + 32 + 8 + 8 + 8 + 8 + 8 + 1

structure SettlementEscrow where
  channel : Address
  merchant : Address
  tokenMint : Address
  amount : UInt64
  merkleRoot : Bytes 32
  nonce : UInt64
  createdAt : Int64
  claimed : Bool
  disputed : Bool
  optimistic : Bool
deriving DecidableEq

def SettlementEscrow.SPACE : ℕ := 8 + 32 + 32 + 32 + 8 + 32 + 8 + 8 + 1 + 1 + 1 + 1

/-- The data of an account the program owns; the constructor is the account
discriminator. -/
inductive AccountData
  | globalState (g : GlobalState)
  | channel (c : Channel)
  | settlementEscrow (e : SettlementEscrow)
deriving DecidableEq

/-! ### The ledger -/

structure World where
  /-- Accounts owned by the program. -/
  accounts : Store.Map Address AccountData
  lamports : Address → UInt64
  /-- `Clock::get()?.unix_timestamp`. -/
  now : Int64

namespace World

def globalStateAt (w : World) (a : Address) : Option GlobalState :=
  match w.accounts.lookup a with
  | some (.globalState g) => some g
  | _ => none

def channelAt (w : World) (a : Address) : Option Channel :=
  match w.accounts.lookup a with
  | some (.channel c) => some c
  | _ => none

def escrowAt (w : World) (a : Address) : Option SettlementEscrow :=
  match w.accounts.lookup a with
  | some (.settlementEscrow e) => some e
  | _ => none

/-- Write the data of a program account. -/
def setAccount (w : World) (a : Address) (d : AccountData) : World :=
  { w with accounts := w.accounts.insert a d }

/-- Take `amount` lamports from `src` and give them to `dst`; `none` when `src`
has too few or `dst` would overflow. -/
def moveLamports (w : World) (src dst : Address) (amount : UInt64) : Option World :=
  (checkedSub (w.lamports src) amount).bind fun s =>
    let taken := Function.update w.lamports src s
    (checkedAdd (taken dst) amount).map fun d =>
      { w with lamports := Function.update taken dst d }

/-! #### What each update leaves alone -/

section Fields

variable (w : World) (a a' : Address) (d : AccountData)

@[simp] theorem lamports_setAccount : (w.setAccount a d).lamports = w.lamports := rfl

@[simp] theorem now_setAccount : (w.setAccount a d).now = w.now := rfl

@[simp] theorem accounts_setAccount : (w.setAccount a d).accounts = w.accounts.insert a d := rfl

theorem globalStateAt_eq_some {w : World} {a : Address} {g : GlobalState} :
    w.globalStateAt a = some g ↔ w.accounts.lookup a = some (.globalState g) := by
  unfold globalStateAt
  split <;> simp_all

theorem channelAt_eq_some {w : World} {a : Address} {c : Channel} :
    w.channelAt a = some c ↔ w.accounts.lookup a = some (.channel c) := by
  unfold channelAt
  split <;> simp_all

theorem escrowAt_eq_some {w : World} {a : Address} {e : SettlementEscrow} :
    w.escrowAt a = some e ↔ w.accounts.lookup a = some (.settlementEscrow e) := by
  unfold escrowAt
  split <;> simp_all

end Fields

/-! #### Moving lamports -/

/-- The whole effect of a move, as one equation for every account, which also
covers a move from an account to itself. -/
theorem of_moveLamports {w w' : World} {src dst : Address} {amount : UInt64}
    (h : w.moveLamports src dst amount = some w') :
    w'.accounts = w.accounts ∧ w'.now = w.now ∧
    ∀ a, (w'.lamports a).toNat + (if a = src then amount.toNat else 0)
      = (w.lamports a).toNat + (if a = dst then amount.toNat else 0) := by
  rw [moveLamports, Option.bind_eq_some_iff] at h
  obtain ⟨s, hs, h⟩ := h
  rw [Option.map_eq_some_iff] at h
  obtain ⟨d, hd, rfl⟩ := h
  rw [checkedSub_eq_some] at hs
  rw [checkedAdd_eq_some] at hd
  refine ⟨rfl, rfl, fun a => ?_⟩
  simp only [Function.update_apply] at hd ⊢
  by_cases hsrc : a = src
  · by_cases hdst : a = dst
    · subst hsrc
      subst hdst
      simp only [if_true] at hd ⊢
      omega
    · subst hsrc
      simp only [if_true, if_neg hdst]
      omega
  · by_cases hdst : a = dst
    · subst hdst
      simp only [if_true, if_neg hsrc] at hd ⊢
      omega
    · simp only [if_neg hsrc, if_neg hdst]

/-- A move goes through when the source has the lamports and the destination
has room for them. -/
theorem exists_moveLamports {w : World} {src dst : Address} {amount : UInt64}
    (hsrc : amount.toNat ≤ (w.lamports src).toNat)
    (hdst : src ≠ dst → (w.lamports dst).toNat + amount.toNat < 2 ^ 64) :
    ∃ w', w.moveLamports src dst amount = some w' := by
  obtain ⟨s, hs, hs'⟩ := exists_checkedSub hsrc
  have hadd : ((Function.update w.lamports src s) dst).toNat + amount.toNat < 2 ^ 64 := by
    rw [Function.update_apply]
    have := (w.lamports src).toNat_lt
    split
    · omega
    · next hne => exact hdst (Ne.symm hne)
  obtain ⟨d, hd, -⟩ := exists_checkedAdd hadd
  refine ⟨{ w with lamports := Function.update (Function.update w.lamports src s) dst d }, ?_⟩
  rw [moveLamports, hs]
  show Option.map _ (checkedAdd _ _) = _
  rw [hd]
  rfl

end World

end Mb
