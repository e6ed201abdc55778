/-
The wire format of a legacy Solana transaction.

A transaction is its signatures and a message: a header of three counts, the account keys, a recent
blockhash, and instructions that name their program and accounts by index into the keys.  A list
has its length before it, in base 128 on at most three bytes.  The header divides the keys: first
those that sign, the last of which are read only, then those that do not, again the last read only.

* `readTransaction_serialize` — a transaction that fits the lengths is read back;
* `readTransaction_keys` — whatever follows the keys, they are read back, and the signatures and
  the header with them.

Which signatures are valid is a parameter (`Ed25519`).
-/
import IgnitePay.Lib.Protobuf
import IgnitePay.Lib.Solana

namespace Solana.Legacy

open Bytes

/-! ### Lengths and lists -/

section

variable {α : Type} {write : α → List UInt8} {read : List UInt8 → Option (α × List UInt8)}

/-- A length, in the shortest form, on 16 bits. -/
def readLength (bytes : List UInt8) : Option (ℕ × List UInt8) :=
  (Protobuf.readVarint bytes).bind fun r =>
    if r.1 < 2 ^ 16 ∧ bytes = Protobuf.varint r.1 ++ r.2 then some r else none

/-- So many elements. -/
def readMany (read : List UInt8 → Option (α × List UInt8)) :
    ℕ → List UInt8 → Option (List α × List UInt8)
  | 0, bytes => some ([], bytes)
  | n + 1, bytes => do
    let (a, bytes) ← read bytes
    let (l, bytes) ← readMany read n bytes
    some (a :: l, bytes)

/-- A list with its length before it. -/
def shortVec (write : α → List UInt8) (l : List α) : List UInt8 :=
  Protobuf.varint l.length ++ l.flatMap write

def readShortVec (read : List UInt8 → Option (α × List UInt8)) (bytes : List UInt8) :
    Option (List α × List UInt8) := do
  let (n, bytes) ← readLength bytes
  readMany read n bytes

theorem readLength_varint {n : ℕ} (hn : n < 2 ^ 16) (rest : List UInt8) :
    readLength (Protobuf.varint n ++ rest) = some (n, rest) := by
  rw [readLength, Protobuf.readVarint_varint, Option.bind_some]
  exact if_pos ⟨hn, rfl⟩

theorem readMany_flatMap {l : List α}
    (h : ∀ a ∈ l, ∀ rest, read (write a ++ rest) = some (a, rest)) (rest : List UInt8) :
    readMany read l.length (l.flatMap write ++ rest) = some (l, rest) := by
  induction l with
  | nil => rfl
  | cons a l ih =>
    have hhead := h a List.mem_cons_self (l.flatMap write ++ rest)
    have htail := ih fun b hb => h b (List.mem_cons_of_mem a hb)
    rw [List.flatMap_cons, List.append_assoc, List.length_cons, readMany, hhead]
    show (readMany read l.length (l.flatMap write ++ rest)).bind _ = _
    rw [htail]
    rfl

theorem readShortVec_shortVec {l : List α} (hlen : l.length < 2 ^ 16)
    (h : ∀ a ∈ l, ∀ rest, read (write a ++ rest) = some (a, rest)) (rest : List UInt8) :
    readShortVec read (shortVec write l ++ rest) = some (l, rest) := by
  rw [readShortVec, shortVec, List.append_assoc, readLength_varint hlen]
  exact readMany_flatMap h rest

end

/-! ### Fields -/

def readByte : List UInt8 → Option (UInt8 × List UInt8)
  | [] => none
  | b :: rest => some (b, rest)

/-- An array of `n` bytes. -/
def readArray (n : ℕ) (bytes : List UInt8) : Option (Bytes n × List UInt8) :=
  if h : (bytes.take n).length = n then some (⟨bytes.take n, h⟩, bytes.drop n) else none

theorem readArray_append {n : ℕ} (a : Bytes n) (rest : List UInt8) :
    readArray n (a.val ++ rest) = some (a, rest) := by
  have htake : (a.val ++ rest).take n = a.val := List.take_left' a.property
  rw [readArray, dif_pos (by rw [htake, a.property]), List.drop_left' a.property]
  simp only [htake]

/-! ### Messages -/

structure MessageHeader where
  numRequiredSignatures : UInt8
  numReadonlySignedAccounts : UInt8
  numReadonlyUnsignedAccounts : UInt8
deriving DecidableEq

structure CompiledInstruction where
  programIdIndex : UInt8
  accounts : List UInt8
  data : List UInt8
deriving DecidableEq

structure Message where
  header : MessageHeader
  accountKeys : List Pubkey
  recentBlockhash : Bytes 32
  instructions : List CompiledInstruction
deriving DecidableEq

structure Transaction where
  signatures : List (Bytes 64)
  message : Message
deriving DecidableEq

def CompiledInstruction.serialize (ix : CompiledInstruction) : List UInt8 :=
  ix.programIdIndex :: (shortVec (fun b => [b]) ix.accounts ++ shortVec (fun b => [b]) ix.data)

def Message.serialize (m : Message) : List UInt8 :=
  m.header.numRequiredSignatures :: m.header.numReadonlySignedAccounts ::
    m.header.numReadonlyUnsignedAccounts :: (shortVec Subtype.val m.accountKeys ++
      (m.recentBlockhash.val ++ shortVec CompiledInstruction.serialize m.instructions))

def Transaction.serialize (tx : Transaction) : List UInt8 :=
  shortVec Subtype.val tx.signatures ++ tx.message.serialize

def readInstruction (bytes : List UInt8) : Option (CompiledInstruction × List UInt8) := do
  let (programIdIndex, bytes) ← readByte bytes
  let (accounts, bytes) ← readShortVec readByte bytes
  let (data, bytes) ← readShortVec readByte bytes
  some (⟨programIdIndex, accounts, data⟩, bytes)

def readMessage (bytes : List UInt8) : Option (Message × List UInt8) := do
  let (required, bytes) ← readByte bytes
  let (readonlySigned, bytes) ← readByte bytes
  let (readonlyUnsigned, bytes) ← readByte bytes
  let (accountKeys, bytes) ← readShortVec (readArray 32) bytes
  let (recentBlockhash, bytes) ← readArray 32 bytes
  let (instructions, bytes) ← readShortVec readInstruction bytes
  some (⟨⟨required, readonlySigned, readonlyUnsigned⟩, accountKeys, recentBlockhash, instructions⟩,
    bytes)

/-- A transaction, and what follows it. -/
def readTransaction (bytes : List UInt8) : Option (Transaction × List UInt8) := do
  let (signatures, bytes) ← readShortVec (readArray 64) bytes
  let (message, bytes) ← readMessage bytes
  some (⟨signatures, message⟩, bytes)

/-! ### Reading back -/

/-- The lengths of the lists are 16 bits. -/
def CompiledInstruction.Fits (ix : CompiledInstruction) : Prop :=
  ix.accounts.length < 2 ^ 16 ∧ ix.data.length < 2 ^ 16

def Message.Fits (m : Message) : Prop :=
  m.accountKeys.length < 2 ^ 16 ∧ m.instructions.length < 2 ^ 16 ∧ ∀ ix ∈ m.instructions, ix.Fits

def Transaction.Fits (tx : Transaction) : Prop :=
  tx.signatures.length < 2 ^ 16 ∧ tx.message.Fits

theorem readInstruction_serialize {ix : CompiledInstruction} (h : ix.Fits) (rest : List UInt8) :
    readInstruction (ix.serialize ++ rest) = some (ix, rest) := by
  have hbyte : ∀ l : List UInt8, l.length < 2 ^ 16 → ∀ rest,
      readShortVec readByte (shortVec (fun b => [b]) l ++ rest) = some (l, rest) :=
    fun l hl rest => readShortVec_shortVec hl (fun _ _ _ => rfl) rest
  show (readShortVec readByte (_ ++ _ ++ rest)).bind _ = _
  rw [List.append_assoc, hbyte _ h.1]
  show (readShortVec readByte (_ ++ rest)).bind _ = _
  rw [hbyte _ h.2]
  rfl

theorem readMessage_serialize {m : Message} (h : m.Fits) (rest : List UInt8) :
    readMessage (m.serialize ++ rest) = some (m, rest) := by
  obtain ⟨hkeys, hinstructions, hfits⟩ := h
  show (readShortVec (readArray 32) (_ ++ rest)).bind _ = _
  rw [List.append_assoc, readShortVec_shortVec hkeys fun a _ rest => readArray_append a rest]
  show (readArray 32 (_ ++ rest)).bind _ = _
  rw [List.append_assoc, readArray_append]
  show (readShortVec readInstruction (_ ++ rest)).bind _ = _
  rw [readShortVec_shortVec hinstructions fun ix hix rest => readInstruction_serialize (hfits ix hix) rest]
  rfl

/-- A transaction that was written is read back. -/
theorem readTransaction_serialize {tx : Transaction} (h : tx.Fits) (rest : List UInt8) :
    readTransaction (tx.serialize ++ rest) = some (tx, rest) := by
  show (readShortVec (readArray 64) (_ ++ rest)).bind _ = _
  rw [Transaction.serialize, List.append_assoc,
    readShortVec_shortVec h.1 fun a _ rest => readArray_append a rest]
  show (readMessage (_ ++ rest)).bind _ = _
  rw [readMessage_serialize h.2]
  rfl

/-- The signatures, the header and the keys stand in front, whatever follows them. -/
theorem readTransaction_keys (header : MessageHeader) {signatures : List (Bytes 64)}
    {accountKeys : List Pubkey} (hsignatures : signatures.length < 2 ^ 16)
    (hkeys : accountKeys.length < 2 ^ 16) {rest after : List UInt8} {tx : Transaction}
    (h : readTransaction (shortVec Subtype.val signatures ++ (header.numRequiredSignatures ::
      header.numReadonlySignedAccounts :: header.numReadonlyUnsignedAccounts ::
        (shortVec Subtype.val accountKeys ++ rest))) = some (tx, after)) :
    tx.signatures = signatures ∧ tx.message.header = header ∧
      tx.message.accountKeys = accountKeys := by
  rw [readTransaction, readShortVec_shortVec hsignatures fun a _ rest => readArray_append a rest] at h
  change (readMessage _).bind _ = _ at h
  obtain ⟨⟨message, bytes⟩, hmessage, h⟩ := Option.bind_eq_some_iff.mp h
  cases h
  change (readShortVec (readArray 32) (_ ++ rest)).bind _ = _ at hmessage
  rw [readShortVec_shortVec hkeys fun a _ rest => readArray_append a rest] at hmessage
  change (readArray 32 rest).bind _ = _ at hmessage
  obtain ⟨⟨blockhash, bytes'⟩, -, hmessage⟩ := Option.bind_eq_some_iff.mp hmessage
  obtain ⟨⟨instructions, bytes''⟩, -, hmessage⟩ := Option.bind_eq_some_iff.mp hmessage
  cases hmessage
  exact ⟨rfl, rfl, rfl⟩

/-- A message is longer than a hash. -/
theorem Message.length_serialize (m : Message) : 32 < m.serialize.length := by
  have hhash := m.recentBlockhash.property
  simp only [Message.serialize, List.length_cons, List.length_append]
  omega

/-! ### Privileges -/

section

variable {α β : Type} {f : α → Option β}

theorem mem_of_mapM {l : List α} {r : List β} (h : l.mapM f = some r) {b : β} :
    b ∈ r ↔ ∃ a ∈ l, f a = some b := by
  induction l generalizing r with
  | nil =>
    obtain rfl := Option.some.inj h
    simp
  | cons a l ih =>
    rw [List.mapM_cons] at h
    obtain ⟨first, hfirst, h⟩ := Option.bind_eq_some_iff.mp h
    obtain ⟨others, hothers, h⟩ := Option.bind_eq_some_iff.mp h
    obtain rfl := Option.some.inj h
    rw [List.mem_cons, ih hothers, List.exists_mem_cons_iff, hfirst, Option.some.injEq, eq_comm]

theorem isSome_mapM {l : List α} (h : ∀ a ∈ l, (f a).isSome = true) : (l.mapM f).isSome = true := by
  induction l with
  | nil => rfl
  | cons a l ih =>
    obtain ⟨first, hfirst⟩ := Option.isSome_iff_exists.mp (h a List.mem_cons_self)
    obtain ⟨others, hothers⟩ :=
      Option.isSome_iff_exists.mp (ih fun b hb => h b (List.mem_cons_of_mem a hb))
    rw [List.mapM_cons, hfirst]
    show ((l.mapM f).bind _).isSome = true
    rw [hothers]
    rfl

end

namespace Message

variable (m : Message)

/-- `Message::is_signer`. -/
def isSigner (i : ℕ) : Bool := decide (i < m.header.numRequiredSignatures.toNat)

/-- `Message::is_writable_index`. -/
def isWritable (i : ℕ) : Bool :=
  decide (i < m.header.numRequiredSignatures.toNat - m.header.numReadonlySignedAccounts.toNat) ||
    decide (m.header.numRequiredSignatures.toNat ≤ i ∧
      i < m.accountKeys.length - m.header.numReadonlyUnsignedAccounts.toNat)

/-- The account that an index stands for. -/
def accountAt (i : ℕ) : Option AccountMeta :=
  (m.accountKeys[i]?).map fun key => ⟨key, m.isSigner i, m.isWritable i⟩

/-- The accounts that an instruction is given. -/
def accountsOf (ix : CompiledInstruction) : Option (List AccountMeta) :=
  ix.accounts.mapM fun i => m.accountAt i.toNat

/-- The program that an instruction runs. -/
def programOf (ix : CompiledInstruction) : Option Pubkey := m.accountKeys[ix.programIdIndex.toNat]?

/-- `Message::sanitize`: the header leaves a writable signer, and the indices are in range; the
program of an instruction is not the payer. -/
def Sane : Prop :=
  m.header.numRequiredSignatures.toNat + m.header.numReadonlyUnsignedAccounts.toNat
      ≤ m.accountKeys.length ∧
    m.header.numReadonlySignedAccounts < m.header.numRequiredSignatures ∧
    ∀ ix ∈ m.instructions, ix.programIdIndex.toNat < m.accountKeys.length ∧
      ix.programIdIndex ≠ 0 ∧ ∀ i ∈ ix.accounts, i.toNat < m.accountKeys.length

instance : Decidable m.Sane := inferInstanceAs (Decidable (_ ∧ _ ∧ _))

/-- The keys that have to sign. -/
def signerKeys : List Pubkey := m.accountKeys.take m.header.numRequiredSignatures.toNat

variable {m}

theorem mem_of_accountsOf {ix : CompiledInstruction} {accounts : List AccountMeta}
    (h : m.accountsOf ix = some accounts) {a : AccountMeta} :
    a ∈ accounts ↔ ∃ i ∈ ix.accounts, m.accountAt i.toNat = some a :=
  mem_of_mapM h

/-- The accounts of an instruction of a sane message are all there. -/
theorem Sane.accountsOf_isSome (h : m.Sane) {ix : CompiledInstruction} (hix : ix ∈ m.instructions) :
    (m.accountsOf ix).isSome = true := by
  refine isSome_mapM fun i hi => ?_
  have hrange := (h.2.2 ix hix).2.2 i hi
  rw [accountAt, List.getElem?_eq_getElem hrange]
  rfl

end Message

/-! ### Signatures -/

/-- A signature scheme: keys, signing and verification. -/
structure Ed25519 where
  publicKey : Bytes 32 → Pubkey
  sign : Bytes 32 → List UInt8 → Bytes 64
  verify : Pubkey → List UInt8 → Bytes 64 → Bool

/-- A signature verifies for no key but the signer's, and for no text but the one that was signed. -/
def Ed25519.Ideal (ed : Ed25519) : Prop :=
  ∀ secret text key text', ed.verify key text' (ed.sign secret text) = true →
    key = ed.publicKey secret ∧ text' = text

/-- `Transaction::verify`: every required key signed the message. -/
def Transaction.Verifies (ed : Ed25519) (tx : Transaction) : Prop :=
  tx.signatures.length = tx.message.signerKeys.length ∧
    ∀ p ∈ tx.message.signerKeys.zip tx.signatures, ed.verify p.1 tx.message.serialize p.2 = true

end Solana.Legacy
