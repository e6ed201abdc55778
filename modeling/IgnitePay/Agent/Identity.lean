/-
Keys in base58 (`ignite-pay-core/src/identity.rs`).
-/
import IgnitePay.Lib.Solana

namespace Agent

open Bytes Solana

/-- `bs58::decode`: a leading `1` is a zero byte. -/
def decodeBase58 (s : String) : Option (List UInt8) :=
  let zeros := (s.toList.takeWhile fun c => c = '1').length
  (s.toList.mapM fun c => base58Alphabet.idxOf? c).map fun digits =>
    List.replicate zeros 0 ++ ((Nat.digits 256 (Nat.ofDigits 58 digits.reverse)).reverse.map UInt8.ofNat)

/-- The bytes, if they are of the length. -/
def exactly (n : ℕ) (l : List UInt8) : Option (Bytes n) := if h : l.length = n then some ⟨l, h⟩ else none

/-- `Pubkey::from_str`. -/
def parsePubkey (s : String) : Option Pubkey := (decodeBase58 s).bind (exactly 32)

example : parsePubkey "Ed25519SigVerify111111111111111111111111111" = some ed25519ProgramId := by
  decide

/-- `did:ignite:z`, and the base58 of the multicodec prefix and the key. -/
def extractPubkeyFromDid (did : String) : Option Pubkey :=
  if "did:ignite:z".toList.isPrefixOf did.toList then
    (decodeBase58 (String.ofList (did.toList.drop 12))).bind fun decoded =>
      if decoded.take 2 = [0xed, 0x01] then exactly 32 (decoded.drop 2) else none
  else none

end Agent
