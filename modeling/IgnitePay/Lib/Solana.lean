/-
The Solana runtime, as far as programs rest on it: transactions, the
instructions sysvar and the Ed25519 precompile.

The precompile takes its signatures from the bytes its header points at.  A
header entry has seven `u16` fields: an offset for the signature, the public
key and the message, a size for the message, and for each of the three the
index of the instruction whose data the offset is into, with `0xffff` for the
precompile instruction itself.  `designated` follows these fields; an accepted
instruction is one whose every entry designates a valid signature
(`PrecompileAccepts`).  Which triples are valid is a parameter: nothing here
depends on the curve.
-/
import IgnitePay.Lib.Bytes

namespace Solana

open Bytes

abbrev Pubkey := Bytes 32

/-- `Pubkey::default()`. -/
def defaultPubkey : Pubkey := fill 32 0

structure AccountMeta where
  pubkey : Pubkey
  isSigner : Bool
  isWritable : Bool
deriving DecidableEq

structure Instruction where
  programId : Pubkey
  accounts : List AccountMeta
  data : List UInt8
deriving DecidableEq

/-- The id of the Ed25519 precompile, the base58 decoding of
`Ed25519SigVerify111111111111111111111111111`. -/
def ed25519ProgramId : Pubkey :=
  ⟨[3, 125, 70, 214, 124, 147, 251, 190, 18, 249, 66, 143, 131, 141, 64, 255,
    5, 112, 116, 73, 39, 244, 138, 100, 252, 202, 112, 68, 128, 0, 0, 0], rfl⟩

/-- The System Program's id. -/
def systemProgramId : Pubkey := defaultPubkey

/-- The id of the instructions sysvar, the base58 decoding of
`Sysvar1nstructions1111111111111111111111111`. -/
def instructionsSysvarId : Pubkey :=
  ⟨[6, 167, 213, 23, 24, 123, 209, 102, 53, 218, 212, 4, 85, 253, 194, 192,
    193, 36, 198, 143, 33, 86, 117, 165, 219, 186, 203, 95, 8, 0, 0, 0], rfl⟩

def base58Alphabet : List Char :=
  "123456789ABCDEFGHJKLMNPQRSTUVWXYZabcdefghijkmnopqrstuvwxyz".toList

/-- `{:?}` of a key: base58, with a `1` for each leading zero byte. -/
def debugPubkey (k : Pubkey) : String :=
  let zeros := k.val.takeWhile fun b => b = 0
  let digits := (Nat.digits 58 (ofLe k.val.reverse)).reverse
  String.ofList (zeros.map (fun _ => '1') ++ digits.map fun d => base58Alphabet.getD d '1')

example : debugPubkey ed25519ProgramId = "Ed25519SigVerify111111111111111111111111111" := by
  decide

/-- `AccountMeta::new`. -/
def AccountMeta.new (pubkey : Pubkey) (isSigner : Bool) : AccountMeta := ⟨pubkey, isSigner, true⟩

/-- `AccountMeta::new_readonly`. -/
def AccountMeta.newReadonly (pubkey : Pubkey) (isSigner : Bool) : AccountMeta :=
  ⟨pubkey, isSigner, false⟩

/-- A signed transaction, with the keys that signed it. -/
structure Transaction where
  instructions : List Instruction
  payer : Pubkey
  signers : List Pubkey
  recentBlockhash : Bytes 32
deriving DecidableEq

/-! ### The instructions sysvar -/

/-- What the instructions sysvar shows a program: the instructions of the
transaction and the index of the one being executed. -/
structure InstructionsSysvar where
  instructions : List Instruction
  current : ℕ

namespace InstructionsSysvar

/-- `load_current_index_checked`, on the genuine sysvar account. -/
def loadCurrentIndex (s : InstructionsSysvar) : ℕ := s.current

/-- `load_instruction_at_checked`, on the genuine sysvar account. -/
def loadInstructionAt (s : InstructionsSysvar) (i : ℕ) : Option Instruction := s.instructions[i]?

/-- What the instruction at `i` of a transaction sees. -/
def ofTransaction (tx : Transaction) (i : ℕ) : InstructionsSysvar := ⟨tx.instructions, i⟩

end InstructionsSysvar

/-! ### The Ed25519 precompile -/

/-- One header entry of a precompile instruction. -/
structure SignatureOffsets where
  signatureOffset : ℕ
  signatureInstructionIndex : ℕ
  publicKeyOffset : ℕ
  publicKeyInstructionIndex : ℕ
  messageDataOffset : ℕ
  messageDataSize : ℕ
  messageInstructionIndex : ℕ
deriving DecidableEq

/-- Number of signatures the header announces. -/
def numSignatures (data : List UInt8) : ℕ := (data.getD 0 0).toNat

/-- The `k`-th header entry: 14 bytes, after the count and a padding byte. -/
def offsetsAt (data : List UInt8) (k : ℕ) : SignatureOffsets where
  signatureOffset := u16At data (2 + k * 14)
  signatureInstructionIndex := u16At data (2 + k * 14 + 2)
  publicKeyOffset := u16At data (2 + k * 14 + 4)
  publicKeyInstructionIndex := u16At data (2 + k * 14 + 6)
  messageDataOffset := u16At data (2 + k * 14 + 8)
  messageDataSize := u16At data (2 + k * 14 + 10)
  messageInstructionIndex := u16At data (2 + k * 14 + 12)

/-- What one header entry asks the precompile to verify. -/
structure SignedMessage where
  publicKey : List UInt8
  message : List UInt8
  signature : List UInt8
deriving DecidableEq

/-- The data of the instruction an index names; `own` is the data of the
precompile instruction itself. -/
def instructionData (ixs : List Instruction) (own : List UInt8) (index : ℕ) :
    Option (List UInt8) :=
  if index = 0xffff then some own else (ixs[index]?).map (·.data)

/-- The bytes at an offset of the instruction an index names. -/
def dataSlice (ixs : List Instruction) (own : List UInt8) (index start len : ℕ) :
    Option (List UInt8) :=
  (instructionData ixs own index).bind fun data =>
    if start + len ≤ data.length then some (slice data start len) else none

/-- What the entry `o` of a precompile instruction with data `own` designates in
the transaction `ixs`. -/
def designated (ixs : List Instruction) (own : List UInt8) (o : SignatureOffsets) :
    Option SignedMessage := do
  let signature ← dataSlice ixs own o.signatureInstructionIndex o.signatureOffset 64
  let publicKey ← dataSlice ixs own o.publicKeyInstructionIndex o.publicKeyOffset 32
  let message ← dataSlice ixs own o.messageInstructionIndex o.messageDataOffset o.messageDataSize
  some ⟨publicKey, message, signature⟩

/-- The entry names the precompile instruction itself, which stands at `i`, in
all three index fields. -/
def SelfReferencing (o : SignatureOffsets) (i : ℕ) : Prop :=
  (o.signatureInstructionIndex = 0xffff ∨ o.signatureInstructionIndex = i) ∧
  (o.publicKeyInstructionIndex = 0xffff ∨ o.publicKeyInstructionIndex = i) ∧
  (o.messageInstructionIndex = 0xffff ∨ o.messageInstructionIndex = i)

/-- Some entry of the precompile instruction with data `own` designates `m`. -/
def Covers (ixs : List Instruction) (own : List UInt8) (m : SignedMessage) : Prop :=
  ∃ k < numSignatures own, designated ixs own (offsetsAt own k) = some m

/-- Some Ed25519 instruction of the transaction designates `m`. -/
def Signs (ixs : List Instruction) (m : SignedMessage) : Prop :=
  ∃ ix ∈ ixs, ix.programId = ed25519ProgramId ∧ Covers ixs ix.data m

/-- The precompile accepts an instruction only if its header is complete and
every entry designates a valid signature. -/
def PrecompileAccepts (valid : SignedMessage → Prop) (ixs : List Instruction)
    (own : List UInt8) : Prop :=
  2 + numSignatures own * 14 ≤ own.length ∧
  ∀ k < numSignatures own, ∃ m, designated ixs own (offsetsAt own k) = some m ∧ valid m

/-- A transaction all of whose Ed25519 instructions the precompile accepted. -/
def Verified (valid : SignedMessage → Prop) (ixs : List Instruction) : Prop :=
  ∀ ix ∈ ixs, ix.programId = ed25519ProgramId → PrecompileAccepts valid ixs ix.data

/-- What a verified transaction covers is valid. -/
theorem Verified.valid_of_signs {valid : SignedMessage → Prop} {ixs : List Instruction}
    (h : Verified valid ixs) {m : SignedMessage} (hm : Signs ixs m) : valid m := by
  obtain ⟨ix, hix, hid, k, hk, hd⟩ := hm
  obtain ⟨m', hd', hv⟩ := (h ix hix hid).2 k hk
  rw [hd] at hd'
  exact Option.some_inj.mp hd' ▸ hv

/-- A transaction that some validity makes verified is verified by the least
one: exactly what its entries designate. -/
theorem Verified.least {valid : SignedMessage → Prop} {ixs : List Instruction}
    (h : Verified valid ixs) : Verified (Signs ixs) ixs := by
  intro ix hix hid
  refine ⟨(h ix hix hid).1, fun k hk => ?_⟩
  obtain ⟨m, hd, -⟩ := (h ix hix hid).2 k hk
  exact ⟨m, hd, ix, hix, hid, k, hk, hd⟩

theorem dataSlice_eq_own {ixs : List Instruction} {own : List UInt8} {i index start len : ℕ}
    (hown : (ixs[i]?).map (·.data) = some own) (hindex : index = 0xffff ∨ index = i)
    (hlen : start + len ≤ own.length) :
    dataSlice ixs own index start len = some (slice own start len) := by
  have hdata : instructionData ixs own index = some own := by
    unfold instructionData
    split
    · rfl
    · next hne =>
      rcases hindex with h | rfl
      · exact absurd h hne
      · exact hown
  rw [dataSlice, hdata, Option.bind_some, if_pos hlen]

/-- A self-referencing entry designates bytes of its own instruction. -/
theorem designated_of_selfReferencing {ixs : List Instruction} {own : List UInt8} {i : ℕ}
    {o : SignatureOffsets} (hown : (ixs[i]?).map (·.data) = some own)
    (hself : SelfReferencing o i) (hsig : o.signatureOffset + 64 ≤ own.length)
    (hpk : o.publicKeyOffset + 32 ≤ own.length)
    (hmsg : o.messageDataOffset + o.messageDataSize ≤ own.length) :
    designated ixs own o = some ⟨slice own o.publicKeyOffset 32,
      slice own o.messageDataOffset o.messageDataSize, slice own o.signatureOffset 64⟩ := by
  rw [designated, dataSlice_eq_own hown hself.1 hsig, dataSlice_eq_own hown hself.2.1 hpk,
    dataSlice_eq_own hown hself.2.2 hmsg]
  rfl

end Solana
