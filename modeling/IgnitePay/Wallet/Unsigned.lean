/-
The transactions that a wallet outside the phone signs (`rust/src/api/session.rs`).

The phone writes a transaction with places for the signatures, and the wallet signs the message as it
is.  The runtime takes what was signed unless the message lists an account twice; and where a relayer
signs after the wallet, only if no block came in between.

* `encode_unsigned` — the transaction that the bytes are of;
* `taken_signed_iff` — what one key has to sign;
* `verifies_sponsored_iff` — what a relayer signs after the wallet.
-/
import IgnitePay.Lib.Anchor
import IgnitePay.Relayer.State
import IgnitePay.Wallet.Validity

namespace Wallet

open Agent (decodeBase58 encodeBase58 decodeBase58_encodeBase58)
open Anchor Bytes Solana Legacy
open Relayer (signAt withBlockhash)

/-! ### Writing -/

/-- The base58 decoding of `SysvarRent111111111111111111111111111111111`. -/
def rentSysvarId : Pubkey :=
  ⟨[6, 167, 213, 23, 25, 44, 92, 81, 33, 140, 201, 76, 61, 74, 241, 127, 88, 218, 238, 8, 155, 161,
    253, 68, 227, 219, 217, 138, 0, 0, 0, 0], Eq.refl (nat_lit 32)⟩

/-- Where a signature goes. -/
def placeholder : Bytes 64 := fill 64 0

/-- A message with any instructions. -/
def encodeInstructions (counts : UInt8 × UInt8 × UInt8) (accountKeys : List Pubkey)
    (blockhash : Bytes 32) (ixs : List CompiledInstruction) : List UInt8 :=
  [counts.1, counts.2.1, counts.2.2] ++ compactU64Encode accountKeys.length
    ++ accountKeys.flatMap Subtype.val ++ blockhash.val ++ compactU64Encode ixs.length
    ++ ixs.flatMap fun ix => ix.programIdIndex :: (compactU64Encode ix.accounts.length ++ ix.accounts
      ++ compactU64Encode ix.data.length ++ ix.data)

/-! ### What the runtime takes -/

/-- A text of a transaction. -/
def TextOf (text : String) (tx : Legacy.Transaction) : Prop :=
  (decodeBase58 text).bind readTransaction = some (tx, [])

/-- The message with nothing but places for its signatures. -/
def unsigned (m : Message) : Legacy.Transaction :=
  ⟨List.replicate m.header.numRequiredSignatures.toNat placeholder, m⟩

/-- An account as the runtime hands it to the program. -/
def handed (a : AccountMeta) : AccountInfo := ⟨a.pubkey, a.isSigner, a.isWritable⟩

/-- A compiled instruction is `ix`, with at least its privileges. -/
def Compiles (m : Message) (compiled : CompiledInstruction) (ix : Instruction) : Prop :=
  ∃ accounts, m.programOf compiled = some ix.programId ∧ m.accountsOf compiled = some accounts ∧
    compiled.data = ix.data ∧ List.Forall₂ AccountInfo.Grants (accounts.map handed) ix.accounts

/-- The runtime takes the transaction: no account is listed twice, and all who have to have signed. -/
structure Taken (ed : Ed25519) (tx : Legacy.Transaction) : Prop where
  distinct : tx.message.accountKeys.Nodup
  sane : tx.message.Sane
  verifies : tx.Verifies ed

/-- The keys sign what they verify. -/
def Correct (ed : Ed25519) : Prop :=
  ∀ secret text, ed.verify (ed.publicKey secret) text (ed.sign secret text) = true

/-- A place that is left does not verify. -/
def Unforged (ed : Ed25519) : Prop := ∀ key text, ed.verify key text placeholder = false

/-! ### Reading back -/

/-- The message with these parts. -/
def messageWith (counts : UInt8 × UInt8 × UInt8) (accountKeys : List Pubkey) (blockhash : Bytes 32)
    (ixs : List CompiledInstruction) : Message :=
  ⟨⟨counts.1, counts.2.1, counts.2.2⟩, accountKeys, blockhash, ixs⟩

theorem encodeInstructions_eq (counts : UInt8 × UInt8 × UInt8) (accountKeys : List Pubkey)
    (blockhash : Bytes 32) (ixs : List CompiledInstruction) :
    encodeInstructions counts accountKeys blockhash ixs =
      (messageWith counts accountKeys blockhash ixs).serialize := by
  have hix : (fun ix : CompiledInstruction => ix.programIdIndex :: (compactU64Encode ix.accounts.length
      ++ ix.accounts ++ compactU64Encode ix.data.length ++ ix.data)) =
      CompiledInstruction.serialize := by
    funext ix
    simp only [CompiledInstruction.serialize, shortVec, compactU64Encode_eq, List.flatMap_singleton',
      List.append_assoc]
  rw [encodeInstructions, hix]
  simp only [messageWith, Message.serialize, shortVec, compactU64Encode_eq, List.append_assoc,
    List.cons_append, List.nil_append]

/-- What is written with nothing but places for its signatures. -/
theorem encode_unsigned {signatures : List (Bytes 64)} (counts : UInt8 × UInt8 × UInt8)
    (accountKeys : List Pubkey) (blockhash : Bytes 32) (ixs : List CompiledInstruction)
    (hplaces : signatures = List.replicate counts.1.toNat placeholder) :
    encodeTransaction signatures (encodeInstructions counts accountKeys blockhash ixs) =
      (unsigned (messageWith counts accountKeys blockhash ixs)).serialize := by
  rw [encodeTransaction, compactU64Encode_eq, encodeInstructions_eq, hplaces]
  rfl

theorem textOf_serialize {tx : Legacy.Transaction} (h : tx.Fits) :
    TextOf (encodeBase58 tx.serialize) tx := by
  have hread := readTransaction_serialize h []
  rw [List.append_nil] at hread
  rw [TextOf, decodeBase58_encodeBase58, Option.bind_some, hread]

/-! ### Signing -/

section

variable {ed : Ed25519} {m : Message} {secret latest : Bytes 32}

theorem taken_iff_of_verifies {tx : Legacy.Transaction} (hsane : tx.message.Sane)
    (hverifies : tx.Verifies ed) : Taken ed tx ↔ tx.message.accountKeys.Nodup :=
  ⟨Taken.distinct, fun hdistinct => ⟨hdistinct, hsane, hverifies⟩⟩

/-- What one key has to sign is taken once it did, unless an account is there twice. -/
theorem taken_signed_iff (hcorrect : Correct ed) (hone : m.header.numRequiredSignatures = 1)
    (hfirst : m.accountKeys.head? = some (ed.publicKey secret)) (hsane : m.Sane) :
    Taken ed (signAt ed secret 0 (unsigned m)) ↔ m.accountKeys.Nodup := by
  refine taken_iff_of_verifies hsane ?_
  obtain ⟨others, hkeys⟩ := List.head?_eq_some_iff.mp hfirst
  have hsigners : m.signerKeys = [ed.publicKey secret] := by
    rw [Message.signerKeys, hone, hkeys]
    rfl
  have hsignatures : (signAt ed secret 0 (unsigned m)).signatures = [ed.sign secret m.serialize] := by
    rw [unsigned, hone]
    rfl
  refine ⟨?_, ?_⟩
  · show (signAt ed secret 0 (unsigned m)).signatures.length = m.signerKeys.length
    rw [hsignatures, hsigners]
    rfl
  · show ∀ p ∈ m.signerKeys.zip _, ed.verify p.1 m.serialize p.2 = true
    rw [hsignatures, hsigners]
    intro p hp
    obtain rfl := List.mem_singleton.mp hp
    exact hcorrect secret m.serialize

/-- What a relayer signs after the wallet has both signatures exactly if the blockhash is still the
latest. -/
theorem verifies_sponsored_iff (hcorrect : Correct ed) (hunforged : Unforged ed) {relayer : Bytes 32}
    {others : List Pubkey} (htwo : m.header.numRequiredSignatures = 2)
    (hkeys : m.accountKeys = ed.publicKey relayer :: ed.publicKey secret :: others) :
    (signAt ed relayer 0 (withBlockhash latest (signAt ed secret 1 (unsigned m)))).Verifies ed ↔
      latest = m.recentBlockhash := by
  have hsignatures : (signAt ed secret 1 (unsigned m)).signatures =
      [placeholder, ed.sign secret m.serialize] := by
    rw [unsigned, htwo]
    rfl
  constructor
  · rintro ⟨-, hverify⟩
    by_contra hne
    -- Then the wallet's signature is gone.
    have hgone : withBlockhash latest (signAt ed secret 1 (unsigned m)) =
        ⟨[placeholder, placeholder], { m with recentBlockhash := latest }⟩ := by
      have hother : ¬latest = (signAt ed secret 1 (unsigned m)).message.recentBlockhash := hne
      rw [withBlockhash, if_neg hother, hsignatures]
      rfl
    rw [hgone] at hverify
    have hsigners : Message.signerKeys { m with recentBlockhash := latest } =
        [ed.publicKey relayer, ed.publicKey secret] := by
      rw [Message.signerKeys]
      show m.accountKeys.take m.header.numRequiredSignatures.toNat = _
      rw [hkeys, htwo]
      rfl
    have hsecond := hverify (ed.publicKey secret, placeholder) (by
      show _ ∈ (Message.signerKeys { m with recentBlockhash := latest }).zip _
      rw [hsigners]
      simp [signAt])
    rw [hunforged] at hsecond
    exact absurd hsecond (by simp)
  · rintro rfl
    have hkept : withBlockhash m.recentBlockhash (signAt ed secret 1 (unsigned m)) =
        signAt ed secret 1 (unsigned m) := if_pos rfl
    rw [hkept]
    have hsigners : m.signerKeys = [ed.publicKey relayer, ed.publicKey secret] := by
      rw [Message.signerKeys, hkeys, htwo]
      rfl
    have hboth : (signAt ed relayer 0 (signAt ed secret 1 (unsigned m))).signatures =
        [ed.sign relayer m.serialize, ed.sign secret m.serialize] := by
      rw [signAt, hsignatures]
      rfl
    refine ⟨?_, ?_⟩
    · show (signAt ed relayer 0 (signAt ed secret 1 (unsigned m))).signatures.length =
        m.signerKeys.length
      rw [hboth, hsigners]
      rfl
    · show ∀ p ∈ m.signerKeys.zip _, ed.verify p.1 m.serialize p.2 = true
      rw [hboth, hsigners]
      intro p hp
      rcases List.mem_cons.mp hp with rfl | hp
      · exact hcorrect relayer m.serialize
      · obtain rfl := List.mem_singleton.mp hp
        exact hcorrect secret m.serialize

end

@[simp] theorem grants_handed {a b : AccountMeta} : AccountInfo.Grants (handed a) b ↔
    a.pubkey = b.pubkey ∧ (b.isSigner = true → a.isSigner = true) ∧
      (b.isWritable = true → a.isWritable = true) :=
  ⟨fun h => ⟨h.key, h.signer, h.writable⟩, fun h => ⟨h.1, h.2.1, h.2.2⟩⟩

/-! ### Keys that stand for themselves -/

namespace Sample

/-- Keys that stand for themselves. -/
def stamp (key : Pubkey) (text : List UInt8) : Bytes 64 :=
  ⟨(Sha256.sha256 (key.val ++ text)).val ++ List.replicate 32 1, by
    rw [List.length_append, (Sha256.sha256 _).property, List.length_replicate]⟩

def transparent : Crypto where
  publicKey secret := secret
  sign secret text := stamp secret text
  verify key text s := decide (s = stamp key text)
  isOnCurve _ := false

theorem correct_transparent : Correct transparent.toEd25519 := fun _ _ => decide_eq_true rfl

theorem unforged_transparent : Unforged transparent.toEd25519 := by
  intro key text
  refine decide_eq_false fun h => ?_
  have hdrop := congrArg (fun s : Bytes 64 => s.val.drop 32) h
  have hlength : (Sha256.sha256 (key.val ++ text)).val.length = 32 := (Sha256.sha256 _).property
  have hright : (stamp key text).val.drop 32 = List.replicate 32 1 := List.drop_left' hlength
  rw [hright] at hdrop
  exact absurd hdrop (by decide)

def buyer : Pubkey := fill 32 3

end Sample

end Wallet
