/-
The transactions of the phone's wallet (`rust/src/api/session.rs`), which it writes byte by byte.

A message is a header, the account keys, a blockhash and one instruction; every function has its
own counts, keys and indices (`encodeMessage`).  The transaction is the signatures and the message.
What is signed is the hash of the message (`signHash`).

The functions fetch a blockhash for each transaction and read balances; a call to the node that
fails ends the function, and what it has sent by then is a prefix of the list that is given here.
-/
import IgnitePay.Agent.Identity
import IgnitePay.Lib.LegacyTransaction
import IgnitePay.Lib.Sha256

namespace Wallet

open Agent (decodeBase58 exactly)
open Bytes Solana Legacy Sha256

/-- `as_bytes()` of a text. -/
def utf8 (s : String) : List UInt8 := s.toByteArray.data.toList

/-- The first 8 bytes of the hash of `global:<name>`. -/
def sighash (name : String) : List UInt8 := (sha256 (utf8 ("global:" ++ name))).val.take 8

/-! ### Program ids -/

/-- The base58 decoding of `Avu35SYnvcSpWeYQhC7w2XT6DCurhnYB5PdajTqet9o`. -/
def sessionProgramId : Pubkey :=
  ⟨[2, 139, 43, 67, 232, 200, 186, 181, 252, 153, 231, 44, 235, 62, 207, 211, 223, 239, 82, 20, 193,
    156, 49, 197, 208, 122, 8, 136, 158, 242, 190, 50], Eq.refl (nat_lit 32)⟩

/-- The base58 decoding of `SysvarC1ock11111111111111111111111111111111`. -/
def clockSysvarId : Pubkey :=
  ⟨[6, 167, 213, 23, 24, 199, 116, 201, 40, 86, 99, 152, 105, 29, 94, 182, 139, 94, 184, 163, 155,
    75, 109, 92, 115, 85, 91, 33, 0, 0, 0, 0], Eq.refl (nat_lit 32)⟩

/-- The base58 decoding of `TokenkegQfeZyiNwAJbNbGKPFXCWuBvf9Ss623VQ5DA`. -/
def tokenProgramId : Pubkey :=
  ⟨[6, 221, 246, 225, 215, 101, 161, 147, 217, 203, 225, 70, 206, 235, 121, 172, 28, 180, 133, 237,
    95, 91, 55, 145, 58, 140, 245, 133, 126, 255, 0, 169], Eq.refl (nat_lit 32)⟩

/-- The base58 decoding of `ATokenGPvbdGVxr1b2hvZbsiqW5xWH25efTNsLJA8knL`. -/
def ataProgramId : Pubkey :=
  ⟨[140, 151, 37, 143, 78, 36, 137, 241, 187, 61, 16, 41, 20, 142, 13, 131, 11, 90, 19, 153, 218,
    255, 16, 132, 4, 142, 123, 216, 219, 233, 248, 89], rfl⟩

/-! ### Addresses -/

/-- The keys and curve points of the signature scheme. -/
structure Crypto extends Ed25519 where
  /-- `VerifyingKey::from_bytes(point).is_ok()`. -/
  isOnCurve : Bytes 32 → Bool

variable (c : Crypto)

/-- The first nonce from 255 down for which the hash is not on the curve. -/
def findProgramAddressSimple (seeds : List (List UInt8)) (programId : Pubkey) : Pubkey :=
  let hashes := (List.range 256).reverse.map fun nonce =>
    sha256 (seeds.flatten ++ [UInt8.ofNat nonce] ++ programId.val ++ utf8 "ProgramDerivedAddress")
  (hashes.find? fun hash => !c.isOnCurve hash).getD (fill 32 0)

def deriveSessionPdaSimple (owner ephemeral : Pubkey) : Pubkey :=
  findProgramAddressSimple c [utf8 "session", owner.val, ephemeral.val] sessionProgramId

def deriveAta (owner mint : Pubkey) : Pubkey :=
  findProgramAddressSimple c [owner.val, tokenProgramId.val, mint.val] ataProgramId

/-! ### Messages -/

/-- Seven bits at a time, the lowest first. -/
def compactU64Encode (val : ℕ) : List UInt8 :=
  if val / 128 = 0 then [UInt8.ofNat (val % 128)]
  else UInt8.ofNat (val % 128 + 128) :: compactU64Encode (val / 128)
decreasing_by omega

/-- A message with one instruction; the counts are those of `MessageHeader`. -/
def encodeMessage (counts : UInt8 × UInt8 × UInt8) (accountKeys : List Pubkey) (blockhash : Bytes 32)
    (programIdIndex : UInt8) (ixAccounts ixData : List UInt8) : List UInt8 :=
  [counts.1, counts.2.1, counts.2.2] ++ compactU64Encode accountKeys.length
    ++ accountKeys.flatMap Subtype.val ++ blockhash.val ++ compactU64Encode 1 ++ [programIdIndex]
    ++ compactU64Encode ixAccounts.length ++ ixAccounts ++ compactU64Encode ixData.length ++ ixData

/-- `msg_hash`, signed. -/
def signHash (secret : Bytes 32) (message : List UInt8) : Bytes 64 :=
  c.sign secret (sha256 message).val

def encodeTransaction (signatures : List (Bytes 64)) (message : List UInt8) : List UInt8 :=
  compactU64Encode signatures.length ++ signatures.flatMap Subtype.val ++ message

/-! ### Registering -/

/-- A Borsh `Vec<String>`. -/
def borshStrings (l : List String) : List UInt8 :=
  leBytes 4 (l.length % 2 ^ 32) ++ l.flatMap fun s =>
    leBytes 4 ((utf8 s).length % 2 ^ 32) ++ utf8 s

def buildRegisterIxData (targetProgram : Pubkey) (expiresAt : Int64) (spendingLimit : UInt64)
    (scopes : List String) (tokenMint : Pubkey) (perTxLimit : UInt64) (dailyTxCountLimit : UInt32) :
    List UInt8 :=
  sighash "register_session_key" ++ targetProgram.val ++ u64Le expiresAt.toUInt64
    ++ u64Le spendingLimit ++ borshStrings scopes ++ tokenMint.val ++ u64Le perTxLimit
    ++ leBytes 4 dailyTxCountLimit.toNat

/-- The owner signs; the ephemeral key is only named. -/
def buildRegisterMessage (ownerPubkey ephemeralPubkey sessionPda targetProgram : Pubkey)
    (ixData : List UInt8) (blockhash : Bytes 32) : List UInt8 :=
  encodeMessage (1, 0, 5)
    [ownerPubkey, sessionPda, ephemeralPubkey, sessionProgramId, targetProgram, systemProgramId,
      clockSysvarId]
    blockhash 3 [1, 0, 2, 4, 5, 6] ixData

/-- `none` on a blockhash that does not parse; a key pair that is too short panics. -/
def buildRawTransaction (ownerPubkey : Pubkey) (ownerKeypair : List UInt8)
    (ephemeralPubkey sessionPda targetProgram : Pubkey) (ixData : List UInt8) (blockhash : String) :
    Option (List UInt8) := do
  let blockhash ← (decodeBase58 blockhash).bind (exactly 32)
  let message := buildRegisterMessage ownerPubkey ephemeralPubkey sessionPda targetProgram ixData
    blockhash
  let secret ← exactly 32 (ownerKeypair.take 32)
  some (encodeTransaction [signHash c secret message] message)

/-- The owner's signing key, which is derived from the DID. -/
def ownerSecret (did : String) : Bytes 32 := sha256 (utf8 did)

/-- What `pending:<ephemeral>` holds: a seed, the expiry and the limits. -/
structure PendingKey where
  expiresAt : Int64
  spendingLimit : UInt64
  perTxLimit : UInt64
  dailyTxCountLimit : UInt32

/-- The pending record, if it is long enough. -/
def readPendingKey (value : List UInt8) : Option PendingKey :=
  if value.length < 60 then none
  else some
    { expiresAt := (u64OfLe (slice value 32 8)).toInt64
      spendingLimit := u64OfLe (slice value 40 8)
      perTxLimit := u64OfLe (slice value 48 8)
      dailyTxCountLimit := UInt32.ofNat (ofLe (slice value 56 4)) }

/-- `complete_register_with_signature`, with the signature of an external wallet; the target
program is the System Program. -/
def completeRegisterWithSignature (did : String) (pendingValue : Option (List UInt8))
    (ephemeralPubkey ownerSignature : String) (blockhash : Bytes 32) : Option (List UInt8) := do
  let pending ← pendingValue.bind readPendingKey
  let ownerSignature ← (decodeBase58 ownerSignature).bind (exactly 64)
  let ephemeralPubkey ← (decodeBase58 ephemeralPubkey).bind (exactly 32)
  let ownerPubkey := c.publicKey (ownerSecret did)
  let sessionPda := deriveSessionPdaSimple c ownerPubkey ephemeralPubkey
  let ixData := buildRegisterIxData systemProgramId pending.expiresAt pending.spendingLimit
    ["sol:transfer"] (fill 32 0) pending.perTxLimit pending.dailyTxCountLimit
  some (encodeTransaction [ownerSignature]
    (buildRegisterMessage ownerPubkey ephemeralPubkey sessionPda systemProgramId ixData blockhash))

/-! ### Funding -/

/-- `SystemInstruction::Transfer`. -/
def systemTransferData (amount : UInt64) : List UInt8 := leBytes 4 2 ++ u64Le amount

/-- A transfer of the System Program from the owner. -/
def solTransferMessage (owner recipient : Pubkey) (amount : UInt64) (blockhash : Bytes 32) :
    List UInt8 :=
  encodeMessage (1, 0, 1) [owner, recipient, systemProgramId] blockhash 2 [0, 1]
    (systemTransferData amount)

/-- `Transfer` of the token program: 3, and the amount. -/
def tokenTransferData (amount : UInt64) : List UInt8 := 3 :: u64Le amount

/-- A transfer of the token program between two accounts, which the owner authorizes. -/
def splTransferMessage (owner source dest : Pubkey) (amount : UInt64) (blockhash : Bytes 32) :
    List UInt8 :=
  encodeMessage (1, 0, 1) [owner, source, dest, tokenProgramId] blockhash 3 [1, 2, 0]
    (tokenTransferData amount)

/-- 0.01 SOL. -/
def gasAmount : UInt64 := 10000000

/-- `fund_session_key`: SOL to the session's account, gas to the ephemeral key, and tokens to the
account's token account.  The `k`-th blockhash is the node's answer to the `k`-th request. -/
def fundSessionKey (ownerSecretKey ephemeralPubkey : String) (solAmount : UInt64)
    (splTokenMint : Option String) (splAmount : Option UInt64) (blockhash : ℕ → Bytes 32) :
    List (List UInt8) :=
  let keys := do
    let ownerKeypair ← (decodeBase58 ownerSecretKey).bind (exactly 64)
    let ephemeral ← (decodeBase58 ephemeralPubkey).bind (exactly 32)
    let secret ← exactly 32 (ownerKeypair.val.take 32)
    some (secret, ephemeral)
  match keys with
  | none => []
  | some (secret, ephemeral) =>
    let owner := c.publicKey secret
    let sessionPda := deriveSessionPdaSimple c owner ephemeral
    let signed (message : List UInt8) := encodeTransaction [signHash c secret message] message
    let sol := if 0 < solAmount then [signed (solTransferMessage owner sessionPda solAmount (blockhash 0))]
      else []
    let gas := [signed (solTransferMessage owner ephemeral gasAmount (blockhash 1))]
    let spl := match splTokenMint, splAmount with
      | some mint, some amount =>
        if 0 < amount then
          match (decodeBase58 mint).bind (exactly 32) with
          | some mint => [signed (splTransferMessage owner (deriveAta c owner mint)
              (deriveAta c sessionPda mint) amount (blockhash 2))]
          | none => []
        else []
      | _, _ => []
    sol ++ gas ++ spl

/-! ### Revoking -/

def revokeMessage (owner sessionPda : Pubkey) (blockhash : Bytes 32) : List UInt8 :=
  encodeMessage (1, 0, 1) [owner, sessionPda, sessionProgramId] blockhash 2 [1, 0]
    (sighash "revoke_session")

/-- `revoke_session_key_onchain`; the value is what `session:<pubkey>` holds. -/
def revokeSessionKeyOnchain (did : String) (value : Option (List UInt8)) (sessionPubkey : String)
    (blockhash : Bytes 32) : Option (List UInt8) := do
  let value ← value
  if value.length < 80 then none
  else do
    let ephemeral ← (decodeBase58 sessionPubkey).bind (exactly 32)
    let owner := c.publicKey (ownerSecret did)
    let message := revokeMessage owner (deriveSessionPdaSimple c owner ephemeral) blockhash
    some (encodeTransaction [signHash c (ownerSecret did) message] message)

/-! ### Withdrawing -/

/-- The old ephemeral key pays the fee; the owner signs and is read only. -/
def withdrawMessage (old owner oldPda newPda : Pubkey) (blockhash : Bytes 32) : List UInt8 :=
  encodeMessage (2, 1, 3) [old, owner, oldPda, newPda, sessionProgramId, systemProgramId] blockhash 4
    [2, 1, 3, 5] (sighash "withdraw_remaining")

def withdrawSplMessage (old owner oldPda source dest : Pubkey) (amount : UInt64)
    (blockhash : Bytes 32) : List UInt8 :=
  encodeMessage (2, 1, 3) [old, owner, oldPda, source, dest, sessionProgramId, tokenProgramId]
    blockhash 5 [2, 1, 3, 4, 6] (sighash "withdraw_spl_remaining" ++ u64Le amount)

/-- `withdraw_session_funds`; the value is what `session:<old>` holds, the balances are the node's
answers. -/
def withdrawSessionFunds (did : String) (value : Option (List UInt8)) (newEphemeralPubkey : String)
    (tokenMint : Option String) (pdaBalance tokenBalance : UInt64) (blockhash : ℕ → Bytes 32) :
    List (List UInt8) :=
  let keys := do
    let oldSecret ← value.bind fun value => exactly 64 (value.take 64)
    let secret ← if oldSecret = fill 64 0 then none else exactly 32 (oldSecret.val.take 32)
    let new ← (decodeBase58 newEphemeralPubkey).bind (exactly 32)
    some (secret, new)
  match keys with
  | none => []
  | some (secret, new) =>
    let old := c.publicKey secret
    let owner := c.publicKey (ownerSecret did)
    let oldPda := deriveSessionPdaSimple c owner old
    let newPda := deriveSessionPdaSimple c owner new
    let signed (message : List UInt8) :=
      encodeTransaction [signHash c secret message, signHash c (ownerSecret did) message] message
    let sol := if 0 < pdaBalance then [signed (withdrawMessage old owner oldPda newPda (blockhash 0))]
      else []
    let spl := match tokenMint.map fun mint => (decodeBase58 mint).bind (exactly 32) with
      | some (some mint) =>
        if 0 < tokenBalance then
          [signed (withdrawSplMessage old owner oldPda (deriveAta c oldPda mint) (deriveAta c newPda mint)
            tokenBalance (blockhash 1))]
        else []
      | _ => []
    sol ++ spl

end Wallet
