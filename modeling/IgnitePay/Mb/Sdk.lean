/-
The SDK's settlement transactions (`sdk/src/transaction.rs`, `signing.rs`,
`pda.rs`) and what the program's signature checks make of them.

The SDK starts an Ed25519 instruction with a two-byte count and two bytes of
padding, so its header entry begins at byte 4; the program, like the
precompile, reads entries from byte 2.  Every field is read two bytes early,
and the message size that is read is the SDK's message offset, 114.

* `offsetsAt_buildEd25519Instruction` — the entry the program reads;
* `sdk_signatures_rejected` — so neither transaction ever passes the checks.
-/
import IgnitePay.Mb.Program

namespace Mb.Sdk

open Bytes Machine Solana

variable (sha : List UInt8 → Bytes 32) (findProgramAddress : List (List UInt8) → Pubkey → Pubkey)

/-- The first 8 bytes of `SHA256("global:<method>")`. -/
def methodDiscriminator (method : String) : List UInt8 :=
  (sha (ascii "global:" ++ ascii method)).val.take 8

def deriveGlobalStatePda (programId buyer tokenMint : Pubkey) : Pubkey :=
  findProgramAddress [globalStateSeed, buyer.val, tokenMint.val] programId

def deriveGlobalVaultPda (programId buyer tokenMint : Pubkey) : Pubkey :=
  findProgramAddress [globalVaultSeed, buyer.val, tokenMint.val] programId

def buildSettlementMessage (merkleRoot : Bytes 32) (totalAmount : UInt64) (channelId : Bytes 32)
    (nonce : UInt64) : Bytes 32 :=
  sha (merkleRoot.val ++ u64Le totalAmount ++ channelId.val ++ u64Le nonce)

/-- Offsets are relative to the start of the instruction's data. -/
def buildEd25519Instruction (pubkey : Bytes 32) (signature : Bytes 64) (message : Bytes 32) :
    Instruction :=
  let dataOffset := 4 + 14
  { programId := ed25519ProgramId
    accounts := []
    data := u16Le 1 ++ u16Le 0
      ++ (u16Le dataOffset ++ u16Le 0 ++ u16Le (dataOffset + 64) ++ u16Le 0
        ++ u16Le (dataOffset + 64 + 32) ++ u16Le 32 ++ u16Le 0)
      ++ signature.val ++ pubkey.val ++ message.val }

/-- The accounts of both settling instructions. -/
def settleAccounts (globalState vault channel escrow merchant : Pubkey) : List AccountMeta :=
  [.new globalState false, .new vault false, .new channel false, .new escrow false,
   .new merchant true, .newReadonly instructionsSysvarId false, .newReadonly systemProgramId false]

/-- `Transaction::new_signed_with_payer`. -/
def signedWithPayer (instructions : List Instruction) (payer : Pubkey) (signers : List Pubkey)
    (recentBlockhash : Bytes 32) : Transaction :=
  { instructions, payer, signers, recentBlockhash }

def buildSettleBatchTx (merchant buyerPubkey channel escrow tokenMint : Pubkey)
    (merkleRoot : Bytes 32) (totalAmount : UInt64) (buyerBatchSig merchantBatchSig : Bytes 64)
    (nonce : UInt64) (programId : Pubkey) (recentBlockhash : Bytes 32) : Transaction :=
  let globalState := deriveGlobalStatePda findProgramAddress programId buyerPubkey tokenMint
  let vault := deriveGlobalVaultPda findProgramAddress programId buyerPubkey tokenMint
  let msgHash := buildSettlementMessage sha merkleRoot totalAmount channel nonce
  let settleIx : Instruction := {
    programId
    accounts := settleAccounts globalState vault channel escrow merchant
    data := methodDiscriminator sha "settle_batch" ++ merkleRoot.val ++ u64Le totalAmount
      ++ buyerBatchSig.val ++ merchantBatchSig.val }
  signedWithPayer
    [buildEd25519Instruction buyerPubkey buyerBatchSig msgHash,
      buildEd25519Instruction merchant merchantBatchSig msgHash, settleIx]
    merchant [merchant] recentBlockhash

def buildOptimisticSettleTx (merchant buyerPubkey channel escrow tokenMint : Pubkey)
    (merkleRoot : Bytes 32) (totalAmount : UInt64) (merchantBatchSig : Bytes 64)
    (nonce : UInt64) (programId : Pubkey) (recentBlockhash : Bytes 32) : Transaction :=
  let globalState := deriveGlobalStatePda findProgramAddress programId buyerPubkey tokenMint
  let vault := deriveGlobalVaultPda findProgramAddress programId buyerPubkey tokenMint
  let msgHash := buildSettlementMessage sha merkleRoot totalAmount channel nonce
  let settleIx : Instruction := {
    programId
    accounts := settleAccounts globalState vault channel escrow merchant
    data := methodDiscriminator sha "optimistic_settle" ++ merkleRoot.val ++ u64Le totalAmount
      ++ merchantBatchSig.val }
  signedWithPayer
    [buildEd25519Instruction merchant merchantBatchSig msgHash, settleIx]
    merchant [merchant] recentBlockhash

/-! ### What the program reads -/

section Layout

variable (pubkey : Bytes 32) (signature : Bytes 64) (message : Bytes 32)

theorem numSignatures_buildEd25519Instruction :
    numSignatures (buildEd25519Instruction pubkey signature message).data = 1 := rfl

/-- Every field is the SDK's field before it, and the first is its padding. -/
theorem offsetsAt_buildEd25519Instruction :
    offsetsAt (buildEd25519Instruction pubkey signature message).data 0
      = { signatureOffset := 0
          signatureInstructionIndex := 18
          publicKeyOffset := 0
          publicKeyInstructionIndex := 82
          messageDataOffset := 0
          messageDataSize := 114
          messageInstructionIndex := 32 } := rfl

/-- The one entry never matches a 32-byte message. -/
theorem matchEntry_buildEd25519Instruction {x : Expected} (hx : x.message.length = 32) :
    matchEntry (buildEd25519Instruction pubkey signature message).data x 0 = none := by
  rcases hm : matchEntry (buildEd25519Instruction pubkey signature message).data x 0 with _ | p
  · rfl
  · obtain ⟨-, -, hle, -, -, hmsg⟩ := matchEntry_eq_some hm
    rw [offsetsAt_buildEd25519Instruction] at hle hmsg
    have hlen := length_slice hle
    rw [hmsg, hx] at hlen
    exact absurd hlen (by decide)

/-- So the program finds no party in an instruction the SDK built. -/
theorem verify_buildEd25519Instruction {s : InstructionsSysvar} {i : ℕ} {x : Expected}
    (hx : x.message.length = 32)
    (hi : s.instructions[i]? = some (buildEd25519Instruction pubkey signature message))
    (p : VerifiedParty) : verifyEd25519ForPubkey s i x ≠ .ok p := by
  intro hok
  obtain ⟨-, ix, hix, -, -, k, hk, hmatch, -⟩ := verifyEd25519ForPubkey_eq_ok.mp hok
  rw [hi, Option.some_inj] at hix
  subst hix
  rw [numSignatures_buildEd25519Instruction] at hk
  have hzero : k = 0 := Nat.lt_one_iff.mp hk
  subst hzero
  rw [matchEntry_buildEd25519Instruction pubkey signature message hx] at hmatch
  exact absurd hmatch (by simp)

end Layout

/-- No party is found when every earlier instruction is one the SDK built. -/
theorem not_partyVerified {s : InstructionsSysvar} {x : Expected} {party : VerifiedParty}
    (hx : x.message.length = 32)
    (hall : ∀ i < s.current, ∃ pubkey signature message,
      s.instructions[i]? = some (buildEd25519Instruction pubkey signature message)) :
    ¬ partyVerified s x party := by
  rintro ⟨i, hi, hok⟩
  obtain ⟨pubkey, signature, message, hix⟩ := hall i hi
  exact verify_buildEd25519Instruction pubkey signature message hx hix party hok

/-- Whatever 32-byte message, signatures and keys the program expects: it finds
no party in an instruction the SDK built, and the signature checks of both
settlements reject the transaction the SDK built for them. -/
theorem sdk_signatures_rejected (m : Bytes 32) (buyerSig merchantSig buyerPk merchantPk : List UInt8) :
    (∀ pubkey signature message pre post current party,
      verifyEd25519ForPubkey ⟨pre ++ buildEd25519Instruction pubkey signature message :: post, current⟩
        pre.length ⟨m.val, buyerSig, merchantSig, buyerPk, merchantPk⟩ ≠ .ok party) ∧
    (∀ merchant buyerPubkey channel escrow tokenMint merkleRoot totalAmount buyerBatchSig
        merchantBatchSig nonce programId recentBlockhash,
      settleBatchSignatures
        (.ofTransaction (buildSettleBatchTx sha findProgramAddress merchant buyerPubkey channel escrow
          tokenMint merkleRoot totalAmount buyerBatchSig merchantBatchSig nonce programId
          recentBlockhash) 2)
        ⟨m.val, buyerSig, merchantSig, buyerPk, merchantPk⟩ ≠ .ok ()) ∧
    (∀ merchant buyerPubkey channel escrow tokenMint merkleRoot totalAmount merchantBatchSig nonce
        programId recentBlockhash,
      optimisticSettleSignatures
        (.ofTransaction (buildOptimisticSettleTx sha findProgramAddress merchant buyerPubkey channel
          escrow tokenMint merkleRoot totalAmount merchantBatchSig nonce programId recentBlockhash) 1)
        ⟨m.val, buyerSig, merchantSig, buyerPk, merchantPk⟩ ≠ .ok ()) := by
  have hm : (Expected.mk m.val buyerSig merchantSig buyerPk merchantPk).message.length = 32 :=
    length_val m
  refine ⟨fun pubkey signature message pre post current party => ?_, ?_, ?_⟩
  · exact verify_buildEd25519Instruction pubkey signature message hm (by simp) party
  · intro merchant buyerPubkey channel escrow tokenMint merkleRoot totalAmount buyerBatchSig
      merchantBatchSig nonce programId recentBlockhash hok
    simp only [settleBatchSignatures, bind_eq_ok, require_eq_ok, exists_const] at hok
    -- The buyer's signature is looked for first, and neither instruction holds it.
    refine not_partyVerified hm (fun i hi => ?_) hok.2.1
    have hcases : i = 0 ∨ i = 1 := by
      have : i < 2 := hi
      omega
    obtain rfl | rfl := hcases
    · exact ⟨_, _, _, rfl⟩
    · exact ⟨_, _, _, rfl⟩
  · intro merchant buyerPubkey channel escrow tokenMint merkleRoot totalAmount merchantBatchSig
      nonce programId recentBlockhash hok
    simp only [optimisticSettleSignatures, bind_eq_ok, require_eq_ok, exists_const] at hok
    refine not_partyVerified hm (fun i hi => ?_) hok.2
    have hzero : i = 0 := Nat.lt_one_iff.mp hi
    subst hzero
    exact ⟨_, _, _, rfl⟩

/-- A buyer's key, signature and message that are the expected ones, rejected. -/
theorem sdk_layout_mismatch :
    ¬ ∀ (pubkey : Bytes 32) (signature : Bytes 64) (message : Bytes 32)
      (pre post : List Instruction) (current : ℕ), pre.length < current →
        verifyEd25519ForPubkey
          ⟨pre ++ buildEd25519Instruction pubkey signature message :: post, current⟩ pre.length
          ⟨message.val, signature.val, (fill 64 0).val, pubkey.val, (fill 32 0).val⟩
          = .ok .buyer := by
  intro hagree
  have hok := hagree (fill 32 9) (fill 64 1) (fill 32 5) [] [] 1 (by decide)
  exact absurd hok (by decide +kernel)

end Mb.Sdk
