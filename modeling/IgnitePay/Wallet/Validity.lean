/-
What the cluster and the programs make of the wallet's transactions.

A transaction is valid for an instruction if its bytes are those of a legacy transaction with
distinct keys and indices in range, its signatures verify over the message, and its one instruction
has the program, the accounts and the data, with at least the privileges that are asked for.

The layout is right: the bytes are those of a message with the counts, keys and indices.  But the
wallet signs the hash of the message, so that no signature verifies, and what an external wallet
signed is sent with the System Program twice among the keys.

* `encodeMessage_eq` — the bytes of a message are the wire format's;
* `revoke_carries`, `register_carries`, `solTransfer_carries`, `splTransfer_carries` — these
  messages carry their instruction;
* `withdraw_not_carries` — the recipient of a withdrawal is read only;
* `never_valid` — with an ideal scheme no transaction of the wallet is valid for any instruction.
-/
import IgnitePay.Wallet.Transactions

namespace Wallet

open Agent (decodeBase58 exactly)
open Bytes Solana Legacy Sha256

/-! ### The instructions -/

/-- `RegisterSessionKey` and its arguments. -/
def registerInstruction (owner ephemeral sessionPda targetProgram : Pubkey) (data : List UInt8) :
    Instruction where
  programId := sessionProgramId
  accounts := [⟨sessionPda, false, true⟩, ⟨owner, true, true⟩, ⟨ephemeral, false, false⟩,
    ⟨targetProgram, false, false⟩, ⟨systemProgramId, false, false⟩, ⟨clockSysvarId, false, false⟩]
  data := data

/-- `RevokeSession`. -/
def revokeInstruction (owner sessionPda : Pubkey) : Instruction where
  programId := sessionProgramId
  accounts := [⟨sessionPda, false, true⟩, ⟨owner, true, false⟩]
  data := sighash "revoke_session"

/-- `WithdrawRemaining`: the owner and the recipient are `mut`. -/
def withdrawInstruction (owner sessionPda recipient : Pubkey) : Instruction where
  programId := sessionProgramId
  accounts := [⟨sessionPda, false, true⟩, ⟨owner, true, true⟩, ⟨recipient, false, true⟩,
    ⟨systemProgramId, false, false⟩]
  data := sighash "withdraw_remaining"

/-- `WithdrawSplRemaining`. -/
def withdrawSplInstruction (owner sessionPda source dest : Pubkey) (amount : UInt64) :
    Instruction where
  programId := sessionProgramId
  accounts := [⟨sessionPda, false, true⟩, ⟨owner, true, true⟩, ⟨source, false, true⟩,
    ⟨dest, false, true⟩, ⟨tokenProgramId, false, false⟩]
  data := sighash "withdraw_spl_remaining" ++ u64Le amount

/-- A transfer of the System Program. -/
def solTransferInstruction (owner recipient : Pubkey) (amount : UInt64) : Instruction where
  programId := systemProgramId
  accounts := [⟨owner, true, true⟩, ⟨recipient, false, true⟩]
  data := systemTransferData amount

/-- A transfer of the token program. -/
def splTransferInstruction (owner source dest : Pubkey) (amount : UInt64) : Instruction where
  programId := tokenProgramId
  accounts := [⟨source, false, true⟩, ⟨dest, false, true⟩, ⟨owner, true, false⟩]
  data := tokenTransferData amount

/-! ### Validity -/

/-- The message has one instruction, and it is `ix`; the accounts have at least its privileges. -/
def Carries (m : Message) (ix : Instruction) : Prop :=
  ∃ compiled accounts, m.instructions = [compiled] ∧ m.programOf compiled = some ix.programId ∧
    m.accountsOf compiled = some accounts ∧ compiled.data = ix.data ∧
    accounts.map AccountMeta.pubkey = ix.accounts.map AccountMeta.pubkey ∧
    ∀ p ∈ accounts.zip ix.accounts, (p.2.isSigner = true → p.1.isSigner = true) ∧
      (p.2.isWritable = true → p.1.isWritable = true)

structure IsValid (ed : Ed25519) (tx : Legacy.Transaction) (ix : Instruction) : Prop where
  distinct : tx.message.accountKeys.Nodup
  sane : tx.message.Sane
  verifies : tx.Verifies ed
  carries : Carries tx.message ix

/-- The bytes are those of a transaction that is valid for the instruction. -/
def ValidFor (ed : Ed25519) (bytes : List UInt8) (ix : Instruction) : Prop :=
  ∃ tx, readTransaction bytes = some (tx, []) ∧ IsValid ed tx ix

/-! ### The layout -/

theorem compactU64Encode_eq (n : ℕ) : compactU64Encode n = Protobuf.varint n := by
  induction n using Protobuf.varint.induct with
  | case1 n hn => rw [compactU64Encode, Protobuf.varint, if_pos hn, if_pos (by omega), Nat.mod_eq_of_lt hn]
  | case2 n hn ih => rw [compactU64Encode, Protobuf.varint, if_neg hn, if_neg (by omega), ih]

/-- The message that the bytes are of. -/
def messageOf (counts : UInt8 × UInt8 × UInt8) (accountKeys : List Pubkey) (blockhash : Bytes 32)
    (programIdIndex : UInt8) (ixAccounts ixData : List UInt8) : Message where
  header := ⟨counts.1, counts.2.1, counts.2.2⟩
  accountKeys := accountKeys
  recentBlockhash := blockhash
  instructions := [⟨programIdIndex, ixAccounts, ixData⟩]

section

variable (counts : UInt8 × UInt8 × UInt8) (accountKeys : List Pubkey) (blockhash : Bytes 32)
  (programIdIndex : UInt8) (ixAccounts ixData : List UInt8)

theorem encodeMessage_eq :
    encodeMessage counts accountKeys blockhash programIdIndex ixAccounts ixData
      = (messageOf counts accountKeys blockhash programIdIndex ixAccounts ixData).serialize := by
  simp only [encodeMessage, messageOf, Message.serialize, CompiledInstruction.serialize, shortVec,
    compactU64Encode_eq, List.length_singleton, List.flatMap_singleton, List.flatMap_singleton', List.append_assoc,
    List.cons_append, List.nil_append]

theorem encodeTransaction_eq (signatures : List (Bytes 64)) :
    encodeTransaction signatures
        (encodeMessage counts accountKeys blockhash programIdIndex ixAccounts ixData)
      = Legacy.Transaction.serialize
        ⟨signatures, messageOf counts accountKeys blockhash programIdIndex ixAccounts ixData⟩ := by
  rw [encodeTransaction, compactU64Encode_eq, encodeMessage_eq]
  rfl

/-- A transaction with data of less than 64 KiB is read back as it was put together. -/
theorem readTransaction_encode {signatures : List (Bytes 64)} (hsignatures : signatures.length < 2 ^ 16)
    (hkeys : accountKeys.length < 2 ^ 16) (haccounts : ixAccounts.length < 2 ^ 16)
    (hdata : ixData.length < 2 ^ 16) :
    readTransaction (encodeTransaction signatures
        (encodeMessage counts accountKeys blockhash programIdIndex ixAccounts ixData))
      = some (⟨signatures, messageOf counts accountKeys blockhash programIdIndex ixAccounts ixData⟩,
        []) := by
  have hfits : Legacy.Transaction.Fits
      ⟨signatures, messageOf counts accountKeys blockhash programIdIndex ixAccounts ixData⟩ := by
    refine ⟨hsignatures, hkeys, Nat.one_lt_two_pow (by omega), ?_⟩
    intro ix hix
    obtain rfl := List.mem_singleton.mp hix
    exact ⟨haccounts, hdata⟩
  have hread := readTransaction_serialize hfits []
  rwa [List.append_nil, ← encodeTransaction_eq] at hread

variable {counts accountKeys blockhash programIdIndex ixAccounts ixData}

/-- Whatever the data, the signatures and keys are read back. -/
theorem keys_of_encode {signatures : List (Bytes 64)} (hsignatures : signatures.length < 2 ^ 16)
    (hkeys : accountKeys.length < 2 ^ 16) {tx : Legacy.Transaction} {after : List UInt8}
    (h : readTransaction (encodeTransaction signatures
      (encodeMessage counts accountKeys blockhash programIdIndex ixAccounts ixData))
        = some (tx, after)) :
    tx.signatures = signatures ∧ tx.message.header = ⟨counts.1, counts.2.1, counts.2.2⟩ ∧
      tx.message.accountKeys = accountKeys := by
  rw [encodeTransaction_eq] at h
  exact readTransaction_keys ⟨counts.1, counts.2.1, counts.2.2⟩ hsignatures hkeys h

end

/-! ### What the messages carry -/

/-- A message with one instruction carries what the indices stand for. -/
theorem carries_iff (counts : UInt8 × UInt8 × UInt8) (accountKeys : List Pubkey)
    (programIdIndex : UInt8) (ixAccounts : List UInt8) (blockhash : Bytes 32) (ix : Instruction)
    {accounts : List AccountMeta}
    (haccounts : (messageOf counts accountKeys blockhash programIdIndex ixAccounts ix.data).accountsOf
      ⟨programIdIndex, ixAccounts, ix.data⟩ = some accounts) :
    Carries (messageOf counts accountKeys blockhash programIdIndex ixAccounts ix.data) ix ↔
      accountKeys[programIdIndex.toNat]? = some ix.programId ∧
        accounts.map AccountMeta.pubkey = ix.accounts.map AccountMeta.pubkey ∧
        ∀ p ∈ accounts.zip ix.accounts, (p.2.isSigner = true → p.1.isSigner = true) ∧
          (p.2.isWritable = true → p.1.isWritable = true) := by
  constructor
  · rintro ⟨compiled, accounts', hone, hprogram, haccounts', -, hkeys, hprivileges⟩
    obtain rfl := List.singleton_inj.mp hone
    rw [haccounts] at haccounts'
    obtain rfl := Option.some.inj haccounts'
    exact ⟨hprogram, hkeys, hprivileges⟩
  · rintro ⟨hprogram, hkeys, hprivileges⟩
    exact ⟨_, accounts, rfl, hprogram, haccounts, rfl, hkeys, hprivileges⟩

section

variable (owner ephemeral sessionPda targetProgram recipient source dest old : Pubkey)
  (amount : UInt64) (data : List UInt8) (blockhash : Bytes 32)

theorem register_carries :
    Carries (messageOf (1, 0, 5)
        [owner, sessionPda, ephemeral, sessionProgramId, targetProgram, systemProgramId, clockSysvarId]
        blockhash 3 [1, 0, 2, 4, 5, 6] data)
      (registerInstruction owner ephemeral sessionPda targetProgram data) := by
  have hiff := carries_iff (1, 0, 5)
    [owner, sessionPda, ephemeral, sessionProgramId, targetProgram, systemProgramId, clockSysvarId]
    3 [1, 0, 2, 4, 5, 6] blockhash (registerInstruction owner ephemeral sessionPda targetProgram data) rfl
  refine hiff.mpr ⟨rfl, rfl, ?_⟩
  simp [registerInstruction, messageOf, Message.isSigner, Message.isWritable]

theorem revoke_carries :
    Carries (messageOf (1, 0, 1) [owner, sessionPda, sessionProgramId] blockhash 2 [1, 0]
      (sighash "revoke_session")) (revokeInstruction owner sessionPda) := by
  have hiff := carries_iff (1, 0, 1) [owner, sessionPda, sessionProgramId] 2 [1, 0] blockhash
    (revokeInstruction owner sessionPda) rfl
  refine hiff.mpr ⟨rfl, rfl, ?_⟩
  simp [revokeInstruction, messageOf, Message.isSigner, Message.isWritable]

theorem solTransfer_carries :
    Carries (messageOf (1, 0, 1) [owner, recipient, systemProgramId] blockhash 2 [0, 1]
      (systemTransferData amount)) (solTransferInstruction owner recipient amount) := by
  have hiff := carries_iff (1, 0, 1) [owner, recipient, systemProgramId] 2 [0, 1] blockhash
    (solTransferInstruction owner recipient amount) rfl
  refine hiff.mpr ⟨rfl, rfl, ?_⟩
  simp [solTransferInstruction, messageOf, Message.isSigner, Message.isWritable]

theorem splTransfer_carries :
    Carries (messageOf (1, 0, 1) [owner, source, dest, tokenProgramId] blockhash 3 [1, 2, 0]
      (tokenTransferData amount)) (splTransferInstruction owner source dest amount) := by
  have hiff := carries_iff (1, 0, 1) [owner, source, dest, tokenProgramId] 3 [1, 2, 0] blockhash
    (splTransferInstruction owner source dest amount) rfl
  refine hiff.mpr ⟨rfl, rfl, ?_⟩
  simp [splTransferInstruction, messageOf, Message.isSigner, Message.isWritable]

/-- Three of the four keys that do not sign are read only, the recipient is one of them. -/
theorem withdraw_not_carries :
    ¬Carries (messageOf (2, 1, 3) [old, owner, sessionPda, recipient, sessionProgramId, systemProgramId]
      blockhash 4 [2, 1, 3, 5] (sighash "withdraw_remaining"))
        (withdrawInstruction owner sessionPda recipient) := by
  have hiff := carries_iff (2, 1, 3)
    [old, owner, sessionPda, recipient, sessionProgramId, systemProgramId] 4 [2, 1, 3, 5] blockhash
    (withdrawInstruction owner sessionPda recipient) rfl
  intro h
  obtain ⟨-, -, hprivileges⟩ := hiff.mp h
  simp [withdrawInstruction, messageOf, Message.isSigner, Message.isWritable] at hprivileges

theorem withdrawSpl_not_carries :
    ¬Carries (messageOf (2, 1, 3)
        [old, owner, sessionPda, source, dest, sessionProgramId, tokenProgramId] blockhash 5
        [2, 1, 3, 4, 6] (sighash "withdraw_spl_remaining" ++ u64Le amount))
      (withdrawSplInstruction owner sessionPda source dest amount) := by
  have hiff := carries_iff (2, 1, 3)
    [old, owner, sessionPda, source, dest, sessionProgramId, tokenProgramId] 5 [2, 1, 3, 4, 6] blockhash
    (withdrawSplInstruction owner sessionPda source dest amount) rfl
  intro h
  obtain ⟨-, -, hprivileges⟩ := hiff.mp h
  simp [withdrawSplInstruction, messageOf, Message.isSigner, Message.isWritable] at hprivileges

end

/-! ### What is signed -/

/-- The first signature of the transaction is on the hash of its message. -/
def HashSigned (c : Crypto) (bytes : List UInt8) : Prop :=
  ∃ (secret : Bytes 32) (signatures : List (Bytes 64)) (counts : UInt8 × UInt8 × UInt8)
    (accountKeys : List Pubkey) (blockhash : Bytes 32) (programIdIndex : UInt8)
    (ixAccounts ixData : List UInt8),
    0 < counts.1.toNat ∧ 0 < accountKeys.length ∧ accountKeys.length < 2 ^ 16 ∧
      signatures.length < 2 ^ 15 ∧
      bytes = encodeTransaction
        (signHash c secret (encodeMessage counts accountKeys blockhash programIdIndex ixAccounts ixData)
          :: signatures)
        (encodeMessage counts accountKeys blockhash programIdIndex ixAccounts ixData)

theorem HashSigned.not_validFor {c : Crypto} (hideal : c.Ideal) {bytes : List UInt8}
    (h : HashSigned c bytes) (ix : Instruction) : ¬ValidFor c.toEd25519 bytes ix := by
  obtain ⟨secret, signatures, counts, accountKeys, blockhash, programIdIndex, ixAccounts, ixData,
    hcount, hsome, hkeys, hsignatures, rfl⟩ := h
  rintro ⟨tx, hread, hvalid⟩
  obtain ⟨hsigs, hheader, haccounts⟩ := keys_of_encode (by simp; omega) hkeys hread
  rcases accountKeys with _ | ⟨key, keys⟩
  · exact absurd hsome (by simp)
  have hverify := hvalid.verifies.2
  -- The first key signed, as far as the header says.
  have hfirst : tx.message.signerKeys = key :: keys.take (counts.1.toNat - 1) := by
    rw [Message.signerKeys, hheader, haccounts]
    obtain ⟨n, hn⟩ : ∃ n, counts.1.toNat = n + 1 := ⟨counts.1.toNat - 1, by omega⟩
    rw [hn, List.take_succ_cons, Nat.add_sub_cancel]
  rw [hsigs, hfirst] at hverify
  have htext := (hideal _ _ _ _ (hverify _ List.mem_cons_self)).2
  have hlength := tx.message.length_serialize
  rw [htext, length_val] at hlength
  exact absurd hlength (lt_irrefl 32)

section

variable (c : Crypto)

/-- One key signs, and its hash is what it signs. -/
theorem hashSigned_one (secret : Bytes 32) (counts : UInt8 × UInt8 × UInt8) (accountKeys : List Pubkey)
    (blockhash : Bytes 32) (programIdIndex : UInt8) (ixAccounts ixData : List UInt8)
    (signatures : List (Bytes 64))
    (h : 0 < counts.1.toNat ∧ 0 < accountKeys.length ∧ accountKeys.length < 2 ^ 16 ∧
      signatures.length < 2 ^ 15) :
    HashSigned c (encodeTransaction
      (signHash c secret (encodeMessage counts accountKeys blockhash programIdIndex ixAccounts ixData)
        :: signatures)
      (encodeMessage counts accountKeys blockhash programIdIndex ixAccounts ixData)) :=
  ⟨secret, signatures, counts, accountKeys, blockhash, programIdIndex, ixAccounts, ixData,
    h.1, h.2.1, h.2.2.1, h.2.2.2, rfl⟩

theorem hashSigned_of_buildRaw {ownerPubkey ephemeral sessionPda targetProgram : Pubkey}
    {ownerKeypair ixData bytes : List UInt8} {blockhash : String}
    (h : buildRawTransaction c ownerPubkey ownerKeypair ephemeral sessionPda targetProgram ixData
      blockhash = some bytes) : HashSigned c bytes := by
  obtain ⟨hash, -, h⟩ := Option.bind_eq_some_iff.mp h
  obtain ⟨secret, -, h⟩ := Option.bind_eq_some_iff.mp h
  obtain rfl := Option.some.inj h
  exact hashSigned_one c secret _ _ _ _ _ _ _ (by simp)

theorem hashSigned_of_fund {ownerSecretKey ephemeralPubkey : String} {solAmount : UInt64}
    {splTokenMint : Option String} {splAmount : Option UInt64} {blockhash : ℕ → Bytes 32}
    {bytes : List UInt8}
    (h : bytes ∈ fundSessionKey c ownerSecretKey ephemeralPubkey solAmount splTokenMint splAmount
      blockhash) : HashSigned c bytes := by
  rw [fundSessionKey] at h
  split at h
  · simp at h
  · rename_i secret ephemeral _
    rcases List.mem_append.mp h with h | hspl
    · rcases List.mem_append.mp h with hsol | hgas
      · split at hsol
        · obtain rfl := List.mem_singleton.mp hsol
          exact hashSigned_one c secret _ _ _ _ _ _ _ (by simp)
        · simp at hsol
      · obtain rfl := List.mem_singleton.mp hgas
        exact hashSigned_one c secret _ _ _ _ _ _ _ (by simp)
    · split at hspl
      · split at hspl
        · split at hspl
          · obtain rfl := List.mem_singleton.mp hspl
            exact hashSigned_one c secret _ _ _ _ _ _ _ (by simp)
          · simp at hspl
        · simp at hspl
      · simp at hspl

theorem hashSigned_of_revoke {did sessionPubkey : String} {value : Option (List UInt8)}
    {blockhash : Bytes 32} {bytes : List UInt8}
    (h : revokeSessionKeyOnchain c did value sessionPubkey blockhash = some bytes) :
    HashSigned c bytes := by
  obtain ⟨value, -, h⟩ := Option.bind_eq_some_iff.mp h
  split at h
  · simp at h
  · obtain ⟨ephemeral, -, h⟩ := Option.bind_eq_some_iff.mp h
    obtain rfl := Option.some.inj h
    exact hashSigned_one c (ownerSecret did) _ _ _ _ _ _ _ (by simp)

theorem hashSigned_of_withdraw {did newEphemeralPubkey : String} {value : Option (List UInt8)}
    {tokenMint : Option String} {pdaBalance tokenBalance : UInt64} {blockhash : ℕ → Bytes 32}
    {bytes : List UInt8}
    (h : bytes ∈ withdrawSessionFunds c did value newEphemeralPubkey tokenMint pdaBalance tokenBalance
      blockhash) : HashSigned c bytes := by
  rw [withdrawSessionFunds] at h
  split at h
  · simp at h
  · rename_i secret new _
    rcases List.mem_append.mp h with hsol | hspl
    · split at hsol
      · obtain rfl := List.mem_singleton.mp hsol
        exact hashSigned_one c secret _ _ _ _ _ _ _ (by simp)
      · simp at hsol
    · split at hspl
      · split at hspl
        · obtain rfl := List.mem_singleton.mp hspl
          exact hashSigned_one c secret _ _ _ _ _ _ _ (by simp)
        · simp at hspl
      · simp at hspl

/-- The System Program is among the keys as the target program and for itself. -/
theorem complete_not_validFor {did ephemeralPubkey ownerSignature : String}
    {pendingValue : Option (List UInt8)} {blockhash : Bytes 32} {bytes : List UInt8}
    (h : completeRegisterWithSignature c did pendingValue ephemeralPubkey ownerSignature blockhash
      = some bytes) (ix : Instruction) : ¬ValidFor c.toEd25519 bytes ix := by
  obtain ⟨pending, -, h⟩ := Option.bind_eq_some_iff.mp h
  obtain ⟨signature, -, h⟩ := Option.bind_eq_some_iff.mp h
  obtain ⟨ephemeral, -, h⟩ := Option.bind_eq_some_iff.mp h
  obtain rfl := Option.some.inj h
  rintro ⟨tx, hread, hvalid⟩
  obtain ⟨-, -, haccounts⟩ := keys_of_encode (by simp) (by simp) hread
  have hdistinct := hvalid.distinct
  rw [haccounts] at hdistinct
  simp at hdistinct

end

/-- With an ideal scheme nothing that the wallet sends is valid, for any instruction. -/
theorem never_valid {c : Crypto} (hideal : c.Ideal) (ix : Instruction) :
    (∀ ownerPubkey ownerKeypair ephemeral sessionPda targetProgram ixData blockhash bytes,
      buildRawTransaction c ownerPubkey ownerKeypair ephemeral sessionPda targetProgram ixData blockhash
        = some bytes → ¬ValidFor c.toEd25519 bytes ix) ∧
    (∀ did pendingValue ephemeralPubkey ownerSignature blockhash bytes,
      completeRegisterWithSignature c did pendingValue ephemeralPubkey ownerSignature blockhash
        = some bytes → ¬ValidFor c.toEd25519 bytes ix) ∧
    (∀ ownerSecretKey ephemeralPubkey solAmount splTokenMint splAmount blockhash,
      ∀ bytes ∈ fundSessionKey c ownerSecretKey ephemeralPubkey solAmount splTokenMint splAmount
        blockhash, ¬ValidFor c.toEd25519 bytes ix) ∧
    (∀ did value sessionPubkey blockhash bytes,
      revokeSessionKeyOnchain c did value sessionPubkey blockhash = some bytes →
        ¬ValidFor c.toEd25519 bytes ix) ∧
    ∀ did value newEphemeralPubkey tokenMint pdaBalance tokenBalance blockhash,
      ∀ bytes ∈ withdrawSessionFunds c did value newEphemeralPubkey tokenMint pdaBalance tokenBalance
        blockhash, ¬ValidFor c.toEd25519 bytes ix := by
  refine ⟨?_, ?_, ?_, ?_, ?_⟩
  · intro _ _ _ _ _ _ _ _ h
    exact (hashSigned_of_buildRaw c h).not_validFor hideal ix
  · intro _ _ _ _ _ _ h
    exact complete_not_validFor c h ix
  · intro _ _ _ _ _ _ _ h
    exact (hashSigned_of_fund c h).not_validFor hideal ix
  · intro _ _ _ _ _ h
    exact (hashSigned_of_revoke c h).not_validFor hideal ix
  · intro _ _ _ _ _ _ _ _ h
    exact (hashSigned_of_withdraw c h).not_validFor hideal ix

/-! ### A revocation -/

namespace Sample

def did : String := "did:ignite:owner"

/-- The public key of `ownerSecret did`. -/
def owner : Pubkey :=
  ⟨[168, 245, 108, 211, 121, 146, 192, 82, 227, 179, 160, 249, 98, 105, 241, 143, 142, 128, 221, 98,
    248, 20, 162, 233, 236, 6, 244, 50, 118, 208, 28, 85], rfl⟩

def sessionPubkey : String := "CSohYtPpyZN713wBeN2qedbLBTxToAeHMSGrzUeDnWBT"

/-- The address of the session's account: nonce 255 gives a hash that is not on the curve. -/
def sessionPda : Pubkey :=
  sha256 (utf8 "session" ++ owner.val ++ ((decodeBase58 sessionPubkey).getD []) ++ [255] ++
    sessionProgramId.val ++ utf8 "ProgramDerivedAddress")

/-- The text that is signed. -/
def hash : List UInt8 := (sha256 (revokeMessage owner sessionPda (fill 32 7))).val

/-- The owner's signature on it. -/
def signature : Bytes 64 :=
  ⟨[121, 95, 147, 188, 65, 140, 245, 151, 171, 225, 237, 178, 84, 195, 43, 84, 204, 238, 30, 158, 154,
    154, 189, 206, 126, 3, 51, 186, 175, 109, 110, 136, 218, 84, 4, 171, 205, 250, 64, 94, 204, 37,
    161, 79, 40, 176, 57, 233, 66, 166, 117, 26, 224, 108, 243, 136, 187, 186, 204, 197, 28, 216, 43,
    13], rfl⟩

/-- Ed25519 on the owner's key, this text, and the points that are tried. -/
def crypto : Crypto where
  publicKey secret := if secret = ownerSecret did then owner else fill 32 0
  sign secret text := if secret = ownerSecret did ∧ text = hash then signature else fill 64 0
  verify key text s := decide (key = owner ∧ text = hash ∧ s = signature)
  isOnCurve _ := false

/-- What `session:<pubkey>` holds: no secret, an expiry and the limits. -/
def value : List UInt8 := List.replicate 92 0

theorem crypto_ideal : crypto.Ideal := by
  intro secret text key text' h
  obtain ⟨hkey, htext, hsignature⟩ := of_decide_eq_true h
  have hne : fill 64 0 ≠ signature := by decide
  by_cases hsigned : secret = ownerSecret did ∧ text = hash
  · refine ⟨?_, by rw [htext, hsigned.2]⟩
    show key = if secret = ownerSecret did then owner else fill 32 0
    rw [if_pos hsigned.1, hkey]
  · exact absurd ((if_neg hsigned).symm.trans hsignature) hne

theorem ephemeral_isSome : ((decodeBase58 sessionPubkey).bind (exactly 32)).isSome = true := by
  decide

/-- The owner's session is revoked on the chain, or so the wallet means. -/
theorem revoke_isSome :
    ∃ bytes, revokeSessionKeyOnchain crypto did (some value) sessionPubkey (fill 32 7) = some bytes := by
  obtain ⟨ephemeral, hephemeral⟩ := Option.isSome_iff_exists.mp ephemeral_isSome
  have hlength : ¬value.length < 80 := by decide
  rw [← Option.isSome_iff_exists, revokeSessionKeyOnchain, hephemeral]
  show (if value.length < 80 then none else _ : Option (List UInt8)).isSome = true
  rw [if_neg hlength]
  rfl

end Sample

/-- The wallet's revocation of a session, which is signed over its hash. -/
theorem revocation_not_valid : ¬∀ c : Crypto, c.Ideal →
    ∀ did value sessionPubkey blockhash ephemeral bytes,
      (decodeBase58 sessionPubkey).bind (exactly 32) = some ephemeral →
      revokeSessionKeyOnchain c did value sessionPubkey blockhash = some bytes →
      ValidFor c.toEd25519 bytes (revokeInstruction (c.publicKey (ownerSecret did))
        (deriveSessionPdaSimple c (c.publicKey (ownerSecret did)) ephemeral)) := by
  intro hall
  obtain ⟨ephemeral, hephemeral⟩ := Option.isSome_iff_exists.mp Sample.ephemeral_isSome
  obtain ⟨bytes, hbytes⟩ := Sample.revoke_isSome
  exact (hashSigned_of_revoke _ hbytes).not_validFor Sample.crypto_ideal _
    (hall _ Sample.crypto_ideal _ _ _ _ _ _ hephemeral hbytes)

theorem revocation_sent_in_vain :
    ∃ bytes, revokeSessionKeyOnchain Sample.crypto Sample.did (some Sample.value) Sample.sessionPubkey
        (fill 32 7) = some bytes ∧
      ¬ValidFor Sample.crypto.toEd25519 bytes (revokeInstruction Sample.owner Sample.sessionPda) := by
  obtain ⟨bytes, hbytes⟩ := Sample.revoke_isSome
  exact ⟨bytes, hbytes, (never_valid Sample.crypto_ideal _).2.2.2.1 _ _ _ _ _ hbytes⟩

end Wallet
