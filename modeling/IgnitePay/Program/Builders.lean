/-
The client's instruction builders for the channel program
(`ignite-pay-solana/src/channel.rs`).

A signature goes into an instruction of its own, with one header entry that
points into that instruction.  The id it is addressed to is the constant that
the program looks for, one character longer than the precompile's.

* `checkSignature_built` — the program finds a built instruction, if it stands
  before the current one and the transaction is small enough for the sysvar;
* `accepts_built_iff` — what the precompile would make of its data;
* `built_ne_precompile` — but the instruction is not addressed to it.
-/
import IgnitePay.Lib.Sysvar
import IgnitePay.Program.Instructions

namespace Program

open Bytes Machine Solana

variable (sha : List UInt8 → Bytes 32)

/-! ### The builders -/

/-- `build_ed25519_ix`. -/
def buildEd25519Ix (publicKey : Pubkey) (message : List UInt8) (signature : Bytes 64) :
    Instruction where
  programId := ed25519ProgramId
  accounts := []
  data := [1, 0] ++ (u16Le 16 ++ (u16Le 0xffff ++ (u16Le 80 ++ (u16Le 0xffff ++ (u16Le 112 ++
    (u16Le message.length ++ (u16Le 0xffff ++ (signature.val ++ (publicKey.val ++ message)))))))))

/-- `anchor_discriminator`. -/
def anchorDiscriminator (name : String) : List UInt8 :=
  (sha (ofLiteral "global:" ++ ofLiteral name)).val.take 8

/-- `push_u32`. -/
def pushU32 (x : ℕ) : List UInt8 := leBytes 4 x

/-- `push_proof`. -/
def pushProof (proof : List (Bytes 32)) : List UInt8 :=
  pushU32 proof.length ++ proof.flatMap fun h => h.val

/-- `push_vec`. -/
def pushVec (data : List UInt8) : List UInt8 := pushU32 data.length ++ data

/-- `sysvar::clock::id()`. -/
def clockId : Pubkey :=
  ⟨[6, 167, 213, 23, 24, 199, 116, 201, 40, 86, 99, 152, 105, 29, 94, 182,
    139, 94, 184, 163, 155, 75, 109, 92, 115, 85, 91, 33, 0, 0, 0, 0], rfl⟩

/-- `spl_token::id()`. -/
def splTokenId : Pubkey :=
  ⟨[6, 221, 246, 225, 215, 101, 161, 147, 217, 203, 225, 70, 206, 235, 121, 172,
    28, 180, 133, 237, 95, 91, 55, 145, 58, 140, 245, 133, 126, 255, 0, 169], rfl⟩

/-- `sysvar::rent::id()`. -/
def rentId : Pubkey :=
  number 32 0x8ad9dbe344fda19b08eeda587ff14a3d4cc98c21515c2c1917d5a706

def buildOpenChannelIx (programId channelPda user userPubkey providerPubkey tokenMint vaultA vaultB
    payer : Pubkey) (a : OpenChannelArgs) : Instruction where
  programId
  accounts := [.new channelPda false, .newReadonly user true, .newReadonly userPubkey false,
    .newReadonly providerPubkey false, .newReadonly tokenMint false, .newReadonly vaultA false,
    .newReadonly vaultB false, .new payer true, .newReadonly systemProgramId false,
    .newReadonly splTokenId false, .newReadonly rentId false,
    .newReadonly instructionsSysvarId false]
  data := anchorDiscriminator sha "open_channel" ++ (a.channelId.val ++ (u64Le a.depositA ++
    (pushU32 a.treeDepth.toNat ++ (u64Le a.openSlot ++ (u64Le a.challengeDuration ++
      (u64Le a.minChallengeDelay ++ a.initialRoot.val))))))

def buildFundChannelIx (programId channelPda signer sourceVault vaultB : Pubkey)
    (depositB : UInt64) : Instruction where
  programId
  accounts := [.new channelPda false, .newReadonly signer true, .new sourceVault false,
    .new vaultB false, .newReadonly splTokenId false]
  data := anchorDiscriminator sha "fund_channel" ++ u64Le depositB

def buildCooperativeSettleIx (programId channelPda : Pubkey) (sequence : UInt64)
    (root : Bytes 32) (settleWindow : UInt64) : Instruction where
  programId
  accounts := [.new channelPda false, .newReadonly clockId false,
    .newReadonly instructionsSysvarId false]
  data := anchorDiscriminator sha "cooperative_settle" ++
    (u64Le sequence ++ (root.val ++ u64Le settleWindow))

def buildCooperativeSettleEd25519Ixs (userPubkey providerPubkey : Pubkey)
    (message : List UInt8) (sigA sigB : Bytes 64) : List Instruction :=
  [buildEd25519Ix userPubkey message sigA, buildEd25519Ix providerPubkey message sigB]

def buildTriggerChallengeIx (programId channelPda challenger : Pubkey)
    (submittedRoot : Bytes 32) (submittedSequence : UInt64) : Instruction where
  programId
  accounts := [.new channelPda false, .newReadonly challenger true, .newReadonly clockId false,
    .newReadonly instructionsSysvarId false]
  data := anchorDiscriminator sha "trigger_challenge" ++
    (submittedRoot.val ++ u64Le submittedSequence)

def buildTriggerChallengeEd25519Ix (challengerPubkey : Pubkey) (message : List UInt8)
    (signature : Bytes 64) : Instruction :=
  buildEd25519Ix challengerPubkey message signature

def buildSubmitCounterStateIx (programId channelPda : Pubkey) (sequence : UInt64)
    (root : Bytes 32) : Instruction where
  programId
  accounts := [.new channelPda false, .newReadonly instructionsSysvarId false]
  data := anchorDiscriminator sha "submit_counter_state" ++ (u64Le sequence ++ root.val)

def buildSubmitCounterStateEd25519Ixs (userPubkey providerPubkey : Pubkey)
    (message : List UInt8) (sigA sigB : Bytes 64) : List Instruction :=
  [buildEd25519Ix userPubkey message sigA, buildEd25519Ix providerPubkey message sigB]

def buildSettleAfterTimeoutIx (programId channelPda : Pubkey) (settleWindow : UInt64) :
    Instruction where
  programId
  accounts := [.new channelPda false, .newReadonly clockId false]
  data := anchorDiscriminator sha "settle_after_timeout" ++ u64Le settleWindow

def buildClaimIx (programId channelPda claimer vault escrowVault : Pubkey) (a : ClaimArgs) :
    Instruction where
  programId
  accounts := [.new channelPda false, .newReadonly claimer true, .new vault false,
    .new escrowVault false, .newReadonly splTokenId false, .newReadonly clockId false,
    .newReadonly instructionsSysvarId false]
  data := anchorDiscriminator sha "claim" ++ (pushU32 a.leafIndex.toNat ++ (u64Le a.claimAmount ++
    (a.leafOwner.val ++ (a.leafHash.val ++ (pushProof a.proof ++ pushVec a.leafData)))))

def buildClaimEd25519Ix (claimerPubkey : Pubkey) (message : List UInt8) (signature : Bytes 64) :
    Instruction :=
  buildEd25519Ix claimerPubkey message signature

def buildVerifyHtlcIx (programId channelPda claimer vault escrowVault : Pubkey)
    (a : VerifyHtlcArgs) : Instruction where
  programId
  accounts := [.new channelPda false, .newReadonly claimer true, .new vault false,
    .new escrowVault false, .newReadonly splTokenId false, .newReadonly clockId false,
    .newReadonly instructionsSysvarId false]
  data := anchorDiscriminator sha "verify_htlc" ++ (pushU32 a.leafIndex.toNat ++ (a.preimage.val ++
    (a.hashLock.val ++ (u64Le a.leafAmount ++ (a.beneficiary.val ++ (a.leafHash.val ++
      (pushProof a.proof ++ (u64Le a.timelockSlot ++ pushVec a.leafData))))))))

def buildHtlcRefundIx (programId channelPda claimer vault escrowVault : Pubkey)
    (a : HtlcRefundArgs) : Instruction where
  programId
  accounts := [.new channelPda false, .newReadonly claimer true, .new vault false,
    .new escrowVault false, .newReadonly splTokenId false, .newReadonly clockId false,
    .newReadonly instructionsSysvarId false]
  data := anchorDiscriminator sha "htlc_refund" ++ (pushU32 a.leafIndex.toNat ++
    (u64Le a.timelockSlot ++ (u64Le a.leafAmount ++ (a.leafOwner.val ++ (a.leafHash.val ++
      (pushProof a.proof ++ pushVec a.leafData))))))

def buildFinalizeSettlementIx (programId channelPda caller vaultA vaultB escrowVault : Pubkey) :
    Instruction where
  programId
  accounts := [.new channelPda false, .newReadonly caller true, .new vaultA false,
    .new vaultB false, .new escrowVault false, .newReadonly splTokenId false,
    .newReadonly clockId false, .newReadonly instructionsSysvarId false]
  data := anchorDiscriminator sha "finalize_settlement"

def buildFinalizeSettlementEd25519Ix (callerPubkey : Pubkey) (message : List UInt8)
    (signature : Bytes 64) : Instruction :=
  buildEd25519Ix callerPubkey message signature

/-! ### A built signature instruction -/

section Layout

variable {publicKey : Pubkey} {message : List UInt8} {signature : Bytes 64}

theorem length_built :
    (buildEd25519Ix publicKey message signature).data.length = 112 + message.length := by
  simp only [buildEd25519Ix, List.length_append, length_u16Le, length_val, List.length_cons,
    List.length_nil]
  omega

/-- The entry points at the signature, the key and the message behind it. -/
theorem offsetsAt_built (h : message.length < 2 ^ 16) :
    offsetsAt (buildEd25519Ix publicKey message signature).data 0
      = { signatureOffset := 16
          signatureInstructionIndex := 0xffff
          publicKeyOffset := 80
          publicKeyInstructionIndex := 0xffff
          messageDataOffset := 112
          messageDataSize := message.length
          messageInstructionIndex := 0xffff } := by
  have hread : ∀ {x : ℕ}, x < 2 ^ 16 → ofLe (u16Le x) = x :=
    fun hx => ofLe_leBytes (lt_of_lt_of_eq hx (by norm_num))
  show SignatureOffsets.mk (ofLe (u16Le 16)) (ofLe (u16Le 0xffff)) (ofLe (u16Le 80))
    (ofLe (u16Le 0xffff)) (ofLe (u16Le 112)) (ofLe (u16Le message.length)) (ofLe (u16Le 0xffff)) = _
  rw [hread (by norm_num), hread (by norm_num), hread (by norm_num), hread (by norm_num), hread h]

theorem slice_signature :
    slice (buildEd25519Ix publicKey message signature).data 16 64 = signature.val :=
  slice_of_eq (a := [1, 0] ++ (u16Le 16 ++ (u16Le 0xffff ++ (u16Le 80 ++ (u16Le 0xffff ++
    (u16Le 112 ++ (u16Le message.length ++ u16Le 0xffff)))))))
    (c := publicKey.val ++ message) rfl rfl (length_val _).symm

theorem slice_publicKey :
    slice (buildEd25519Ix publicKey message signature).data 80 32 = publicKey.val := by
  refine slice_of_eq (a := [1, 0] ++ (u16Le 16 ++ (u16Le 0xffff ++ (u16Le 80 ++ (u16Le 0xffff ++
    (u16Le 112 ++ (u16Le message.length ++ (u16Le 0xffff ++ signature.val)))))))) (c := message)
    ?_ ?_ (length_val _).symm
  · simp only [buildEd25519Ix, List.append_assoc]
  · simp only [List.length_append, length_u16Le, length_val, List.length_cons, List.length_nil]

theorem slice_message :
    slice (buildEd25519Ix publicKey message signature).data 112 message.length = message := by
  refine slice_of_eq (a := [1, 0] ++ (u16Le 16 ++ (u16Le 0xffff ++ (u16Le 80 ++ (u16Le 0xffff ++
    (u16Le 112 ++ (u16Le message.length ++ (u16Le 0xffff ++ (signature.val ++ publicKey.val)))))))))
    (c := []) ?_ ?_ rfl
  · simp only [buildEd25519Ix, List.append_assoc, List.append_nil]
  · simp only [List.length_append, length_u16Le, length_val, List.length_cons, List.length_nil]

/-- The program takes the data for its one entry. -/
theorem singleEntry_built (h : message.length < 2 ^ 16) :
    SingleEntry (buildEd25519Ix publicKey message signature).data publicKey.val message := by
  have hoffsets := @offsetsAt_built publicKey message signature h
  have hlength := @length_built publicKey message signature
  refine ⟨by omega, rfl, rfl, ?_, ?_, ?_, ?_, ?_, ?_, ?_⟩ <;> rw [hoffsets]
  · show 80 + 32 ≤ _
    omega
  · show 112 + message.length ≤ _
    omega
  · exact slice_publicKey
  · exact slice_message

/-- The precompile would verify the signature by the key on the message. -/
theorem designated_built (h : message.length < 2 ^ 16) (ixs : List Instruction) :
    designated ixs (buildEd25519Ix publicKey message signature).data
      (offsetsAt (buildEd25519Ix publicKey message signature).data 0)
      = some ⟨publicKey.val, message, signature.val⟩ := by
  have hlength := @length_built publicKey message signature
  have hslice : ∀ start len, start + len ≤ 112 + message.length →
      dataSlice ixs (buildEd25519Ix publicKey message signature).data 0xffff start len
        = some (slice (buildEd25519Ix publicKey message signature).data start len) := by
    intro start len hle
    rw [dataSlice, instructionData, if_pos rfl, Option.bind_some, if_pos (by omega)]
  rw [offsetsAt_built h, designated, hslice 16 64 (by omega), hslice 80 32 (by omega),
    hslice 112 message.length (by omega), slice_signature, slice_publicKey, slice_message]
  rfl

theorem accepts_built_iff {valid : SignedMessage → Prop} {ixs : List Instruction}
    (h : message.length < 2 ^ 16) :
    PrecompileAccepts valid ixs (buildEd25519Ix publicKey message signature).data ↔
      valid ⟨publicKey.val, message, signature.val⟩ := by
  have hcount : numSignatures (buildEd25519Ix publicKey message signature).data = 1 := rfl
  have hlength := @length_built publicKey message signature
  have hdesignated := @designated_built publicKey message signature h ixs
  rw [PrecompileAccepts, hcount]
  constructor
  · rintro ⟨-, hall⟩
    obtain ⟨m, hm, hvalid⟩ := hall 0 Nat.one_pos
    rw [hdesignated, Option.some_inj] at hm
    exact hm ▸ hvalid
  · intro hvalid
    refine ⟨by omega, fun k hk => ?_⟩
    obtain rfl : k = 0 := Nat.lt_one_iff.mp hk
    exact ⟨_, hdesignated, hvalid⟩

theorem built_ne_precompile :
    (buildEd25519Ix publicKey message signature).programId ≠ Solana.ed25519ProgramId :=
  ed25519ProgramId_ne

end Layout

/-! ### What the program finds in the sysvar -/

section Sysvar

variable {xs ys : List Instruction} {ix : Instruction} {current : ℕ}

/-- Where the program looks for the id of an instruction: behind its accounts. -/
theorem programIdOffset_toBytes
    (hsmall : (InstructionsSysvar.mk (xs ++ ix :: ys) current).toBytes.length < 2 ^ 16) :
    instructionOffset (InstructionsSysvar.mk (xs ++ ix :: ys) current).toBytes xs.length
        = (bytesBefore xs ix ys).length ∧
      programIdOffset (InstructionsSysvar.mk (xs ++ ix :: ys) current).toBytes xs.length
        = (bytesBefore xs ix ys).length + 2 + ix.accounts.length * 33 := by
  have hlength := @length_toBytes xs ys ix current
  have hoffset : instructionOffset (InstructionsSysvar.mk (xs ++ ix :: ys) current).toBytes xs.length
      = (bytesBefore xs ix ys).length := u16At_table (by omega)
  refine ⟨hoffset, ?_⟩
  rw [programIdOffset, hoffset, u16At_accounts (by omega)]

/-- The program finds every instruction that is addressed to its constant, and
reads the whole of its data. -/
theorem instructionAt_toBytes_iff {ixData : List UInt8}
    (hsmall : (InstructionsSysvar.mk (xs ++ ix :: ys) current).toBytes.length < 2 ^ 16) :
    InstructionAt (InstructionsSysvar.mk (xs ++ ix :: ys) current).toBytes xs.length ixData ↔
      ix.programId = ed25519ProgramId ∧ ixData = ix.data := by
  have hlength := @length_toBytes xs ys ix current
  have hbefore := @length_bytesBefore xs ys ix
  have hinstructions : (xs ++ ix :: ys).length = xs.length + (ys.length + 1) := by simp
  obtain ⟨hoffset, hid⟩ := programIdOffset_toBytes hsmall
  have hdata : u16At (InstructionsSysvar.mk (xs ++ ix :: ys) current).toBytes
      ((bytesBefore xs ix ys).length + 2 + ix.accounts.length * 33 + 32) = ix.data.length :=
    u16At_dataLength (by omega)
  constructor
  · intro h
    have heq := h.programId_eq
    rw [hid, slice_programId] at heq
    have hix := h.data_eq
    rw [hid, hdata, slice_data] at hix
    exact ⟨Subtype.ext heq, hix⟩
  · rintro ⟨heq, rfl⟩
    -- Every offset is less than the length, which a u16 holds: none of them wraps.
    refine ⟨by omega, by omega, by omega, ?_, ?_, ?_⟩
    · rw [hid, hdata]
      omega
    · rw [hid, slice_programId, heq]
    · rw [hid, hdata, slice_data]

/-- And takes a built one for a record, where it stands before the current one. -/
theorem record_built {publicKey : Pubkey} {message : List UInt8} {signature : Bytes 64}
    (hcurrent : xs.length < current) (hle : current < 2 ^ 16)
    (hsmall : (InstructionsSysvar.mk
      (xs ++ buildEd25519Ix publicKey message signature :: ys) current).toBytes.length < 2 ^ 16) :
    Record (InstructionsSysvar.mk
      (xs ++ buildEd25519Ix publicKey message signature :: ys) current).toBytes
      publicKey.val message := by
  have hlength := @length_toBytes xs ys (buildEd25519Ix publicKey message signature) current
  have hbefore := @length_bytesBefore xs ys (buildEd25519Ix publicKey message signature)
  have hbuilt := @length_built publicKey message signature
  have hcount := @u16At_count xs ys (buildEd25519Ix publicKey message signature) current (by omega)
  refine ⟨xs.length, ?_, ?_, _, (instructionAt_toBytes_iff hsmall).mpr ⟨rfl, rfl⟩,
    singleEntry_built (by omega)⟩
  · rw [hcount]
    simp
  · rw [u16At_current hle rfl]
    exact hcurrent

theorem checkSignature_built {publicKey : Pubkey} {message : List UInt8} {signature : Bytes 64}
    (hcurrent : xs.length < current) (hle : current < 2 ^ 16)
    (hsmall : (InstructionsSysvar.mk
      (xs ++ buildEd25519Ix publicKey message signature :: ys) current).toBytes.length < 2 ^ 16) :
    checkSignature (InstructionsSysvar.mk
      (xs ++ buildEd25519Ix publicKey message signature :: ys) current).toBytes
      publicKey message = .ok () :=
  checkSignature_eq_ok.mpr (record_built hcurrent hle hsmall)

end Sysvar

end Program
