/-
The relayer (`ignite-pay-relayer/src/main.rs`): it signs transactions as their fee payer and sends
them.

A client posts a transaction in base58.  The relayer checks that the first key is its own, signs
over the latest blockhash and broadcasts.  Signing over another blockhash than the message's changes
the message, and resets the signatures that are there (`Transaction::partial_sign`).

* `partialSign_eq` — what signing gives when the signer's key is the first;
* `sent_iff` — what is sent, of which submission;
* `signature_of_signed` — what becomes of the other signatures.
-/
import IgnitePay.Agent.Base58
import IgnitePay.Lib.Execution

namespace Relayer

open Agent (decodeBase58 encodeBase58)
open Bytes Solana Legacy

/-! ### Signing -/

variable (ed : Ed25519)

/-- The place of a key among those that have to sign; `none` also if there are fewer keys. -/
def signingKeypairPosition (m : Message) (key : Pubkey) : Option ℕ :=
  if m.accountKeys.length < m.header.numRequiredSignatures.toNat then none
  else m.signerKeys.idxOf? key

/-- Another blockhash than the message's takes its place, and the signatures on the message go. -/
def withBlockhash (recentBlockhash : Bytes 32) (tx : Legacy.Transaction) : Legacy.Transaction :=
  if recentBlockhash = tx.message.recentBlockhash then tx
  else
    { signatures := tx.signatures.map fun _ => fill 64 0
      message := { tx.message with recentBlockhash } }

/-- One signature is put at its place, on the message as it is. -/
def signAt (secret : Bytes 32) (position : ℕ) (tx : Legacy.Transaction) : Legacy.Transaction :=
  { tx with signatures := tx.signatures.set position (ed.sign secret tx.message.serialize) }

/-- `Transaction::partial_sign` by one key; `none` is a panic. -/
def partialSign (secret : Bytes 32) (recentBlockhash : Bytes 32) (tx : Legacy.Transaction) :
    Option Legacy.Transaction :=
  (signingKeypairPosition tx.message (ed.publicKey secret)).bind fun position =>
    if position < tx.signatures.length then
      some (signAt ed secret position (withBlockhash recentBlockhash tx))
    else none

/-! ### The handler -/

/-- The node behind the relayer, and how the parsers describe what they refuse. -/
structure Rpc where
  getLatestBlockhash : Except String (Bytes 32)
  sendAndConfirmTransaction : Legacy.Transaction → Except String (Bytes 64)
  describeBase58 : String → String
  describeBincode : List UInt8 → String

inductive Response
  | error (status : ℕ) (text : String)
  | signature (text : String)
deriving DecidableEq

/-- The response, which a panic leaves out, and the transaction that was broadcast. -/
structure Outcome where
  response : Option Response
  sent : Option Legacy.Transaction

def refuse (status : ℕ) (text : String) : Outcome := ⟨some (.error status text), none⟩

/-- `bincode::deserialize`, which reads past nothing but takes what follows. -/
def deserializeTransaction (bytes : List UInt8) : Option Legacy.Transaction :=
  (readTransaction bytes).map Prod.fst

/-- `get_info`. -/
def getInfo (secret : Bytes 32) : String := debugPubkey (ed.publicKey secret)

/-- `post_sponsor`. -/
def postSponsor (secret : Bytes 32) (rpc : Rpc) (transaction : String) : Outcome :=
  match decodeBase58 transaction with
  | none => refuse 400 ("Invalid base58: " ++ rpc.describeBase58 transaction)
  | some bytes =>
    match deserializeTransaction bytes with
    | none => refuse 400 ("Invalid transaction: " ++ rpc.describeBincode bytes)
    | some tx =>
      match tx.message.accountKeys.head? with
      | none => refuse 400 "Transaction has no account keys"
      | some feePayer =>
        if feePayer ≠ ed.publicKey secret then
          refuse 403 ("Fee payer mismatch: expected " ++ debugPubkey (ed.publicKey secret) ++ ", got " ++
            debugPubkey feePayer)
        else match rpc.getLatestBlockhash with
        | .error e => refuse 500 ("Failed to get blockhash: " ++ e)
        | .ok recentBlockhash =>
          match partialSign ed secret recentBlockhash tx with
          | none => ⟨none, none⟩
          | some tx =>
            match rpc.sendAndConfirmTransaction tx with
            | .error e => ⟨some (.error 500 ("Transaction failed: " ++ e)), some tx⟩
            | .ok sig => ⟨some (.signature (encodeBase58 sig.val)), some tx⟩

/-! ### What is sent -/

variable {ed}

/-- The transaction that a text stands for, if its fee payer is the relayer. -/
def Submits (ed : Ed25519) (secret : Bytes 32) (transaction : String) (tx : Legacy.Transaction) :
    Prop :=
  (decodeBase58 transaction).bind deserializeTransaction = some tx ∧
    tx.message.accountKeys.head? = some (ed.publicKey secret)

/-- There is a place for the fee payer's signature. -/
def HasPlace (tx : Legacy.Transaction) : Prop :=
  0 < tx.message.header.numRequiredSignatures.toNat ∧
    tx.message.header.numRequiredSignatures.toNat ≤ tx.message.accountKeys.length ∧
    tx.signatures ≠ []

theorem signingKeypairPosition_eq {m : Message} {key : Pubkey} {position : ℕ}
    (hfirst : m.accountKeys.head? = some key) :
    signingKeypairPosition m key = some position ↔
      position = 0 ∧ 0 < m.header.numRequiredSignatures.toNat ∧
        m.header.numRequiredSignatures.toNat ≤ m.accountKeys.length := by
  obtain ⟨keys, hkeys⟩ := List.head?_eq_some_iff.mp hfirst
  rw [signingKeypairPosition, Message.signerKeys, hkeys]
  rcases hrequired : m.header.numRequiredSignatures.toNat with _ | n
  · simp
  · rw [List.take_succ_cons, List.idxOf?_cons]
    simp only [beq_self_eq_true, if_true]
    split
    · simp only [List.length_cons] at *
      constructor
      · intro h
        exact absurd h (by simp)
      · intro h
        omega
    · simp only [List.length_cons] at *
      constructor
      · intro h
        obtain rfl := Option.some.inj h
        exact ⟨rfl, by omega, by omega⟩
      · rintro ⟨rfl, -, -⟩
        rfl

theorem partialSign_eq {secret recentBlockhash : Bytes 32} {tx tx' : Legacy.Transaction}
    (hfirst : tx.message.accountKeys.head? = some (ed.publicKey secret)) :
    partialSign ed secret recentBlockhash tx = some tx' ↔
      HasPlace tx ∧ signAt ed secret 0 (withBlockhash recentBlockhash tx) = tx' := by
  rw [partialSign, Option.bind_eq_some_iff]
  constructor
  · rintro ⟨position, hposition, h⟩
    obtain ⟨rfl, hpos, hle⟩ := (signingKeypairPosition_eq hfirst).mp hposition
    split at h
    · next hlength => exact ⟨⟨hpos, hle, List.ne_nil_of_length_pos hlength⟩, Option.some.inj h⟩
    · exact absurd h (by simp)
  · rintro ⟨⟨hpos, hle, hne⟩, rfl⟩
    refine ⟨0, (signingKeypairPosition_eq hfirst).mpr ⟨rfl, hpos, hle⟩, ?_⟩
    exact if_pos (List.length_pos_of_ne_nil hne)

/-- What is sent is a submission that has a place for the fee payer's signature, signed over the
latest blockhash. -/
theorem sent_iff {secret : Bytes 32} {rpc : Rpc} {transaction : String} {sent : Legacy.Transaction} :
    (postSponsor ed secret rpc transaction).sent = some sent ↔
      ∃ tx latest, Submits ed secret transaction tx ∧ rpc.getLatestBlockhash = .ok latest ∧
        HasPlace tx ∧ signAt ed secret 0 (withBlockhash latest tx) = sent := by
  have hsplit : ∀ bytes, decodeBase58 transaction = some bytes →
      ((decodeBase58 transaction).bind deserializeTransaction = deserializeTransaction bytes) := by
    intro bytes hbytes
    rw [hbytes, Option.bind_some]
  constructor
  · intro h
    rw [postSponsor] at h
    split at h
    · simp [refuse] at h
    · next bytes hbytes =>
      split at h
      · simp [refuse] at h
      · next tx htx =>
        split at h
        · simp [refuse] at h
        · next feePayer hfirst =>
          split at h
          · simp [refuse] at h
          · next hpayer =>
            obtain rfl := not_not.mp hpayer
            split at h
            · simp [refuse] at h
            · next latest hlatest =>
              split at h
              · simp at h
              · next tx' hsign =>
                obtain ⟨hplace, rfl⟩ := (partialSign_eq hfirst).mp hsign
                have hsent : signAt ed secret 0 (withBlockhash latest tx) = sent := by
                  split at h <;> simpa using h
                exact ⟨tx, latest, ⟨(hsplit bytes hbytes).trans htx, hfirst⟩, hlatest, hplace, hsent⟩
  · rintro ⟨tx, latest, ⟨htx, hfirst⟩, hlatest, hplace, rfl⟩
    obtain ⟨bytes, hbytes, hread⟩ := Option.bind_eq_some_iff.mp htx
    have hsign : partialSign ed secret latest tx = some (signAt ed secret 0 (withBlockhash latest tx)) :=
      (partialSign_eq hfirst).mpr ⟨hplace, rfl⟩
    simp only [postSponsor, hbytes, hread, hfirst, hlatest, hsign, ne_eq, not_true_eq_false, if_false]
    split <;> rfl

/-! ### What signing does to a message and its signatures -/

@[simp] theorem message_signAt (secret : Bytes 32) (position : ℕ) (tx : Legacy.Transaction) :
    (signAt ed secret position tx).message = tx.message := rfl

theorem accountKeys_withBlockhash (recentBlockhash : Bytes 32) (tx : Legacy.Transaction) :
    (withBlockhash recentBlockhash tx).message.accountKeys = tx.message.accountKeys := by
  rw [withBlockhash]
  split <;> rfl

theorem instructions_withBlockhash (recentBlockhash : Bytes 32) (tx : Legacy.Transaction) :
    (withBlockhash recentBlockhash tx).message.instructions = tx.message.instructions := by
  rw [withBlockhash]
  split <;> rfl

theorem header_withBlockhash (recentBlockhash : Bytes 32) (tx : Legacy.Transaction) :
    (withBlockhash recentBlockhash tx).message.header = tx.message.header := by
  rw [withBlockhash]
  split <;> rfl

/-- A signature behind the first is the one that was submitted, or it is gone. -/
theorem signature_of_signed {secret recentBlockhash : Bytes 32} {tx : Legacy.Transaction} {i : ℕ}
    (hi : 0 < i) :
    (signAt ed secret 0 (withBlockhash recentBlockhash tx)).signatures[i]?
      = if recentBlockhash = tx.message.recentBlockhash then tx.signatures[i]?
        else (tx.signatures[i]?).map fun _ => fill 64 0 := by
  rw [signAt, List.getElem?_set_ne (by omega), withBlockhash]
  split
  · rfl
  · rw [List.getElem?_map]

end Relayer
