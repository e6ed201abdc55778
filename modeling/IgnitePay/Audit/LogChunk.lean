/-
Log chunks (`ignite-pay-core/src/log_chunk.rs`, `audit_merkle.rs`).

A chunk holds a batch of entries, encoded, compressed and encrypted under the log key with
the number of the chunk as additional data, next to the root of a Merkle tree over the
entries.

* `length_computeRoot_le` — the loop of the tree ends with one label;
* `decryptChunk_buildChunk` — the entries of a chunk are got back, if the codec, the
  compression and the cipher give back what they were given.
-/
import IgnitePay.Audit.Messages
import IgnitePay.Lib.HashTree
import IgnitePay.Lib.Machine
import IgnitePay.Lib.Sha256

namespace Audit

open Machine HashTree

inductive LogError
  | failed (text : String)
  | panicked
  deriving DecidableEq

/-- The code that a chunk is built with: SHA-256, the messages, zstd and AES-256-GCM.
The cipher appends its tag to what it encrypts. -/
structure Library where
  sha256 : List UInt8 → Bytes 32
  codec : Codec
  compress : List UInt8 → Except String (List UInt8)
  decompress : List UInt8 → Except String (List UInt8)
  encrypt : (key : Bytes 32) → (iv : Bytes 12) → (aad msg : List UInt8) → Except String (List UInt8)
  decrypt : (key : Bytes 32) → (iv : Bytes 12) → (aad msg : List UInt8) → Except String (List UInt8)

/-- What was written, compressed or encrypted is got back. -/
structure Library.RoundTrips (c : Library) : Prop where
  codec : c.codec.RoundTrips
  zstd : ∀ plaintext compressed, c.compress plaintext = .ok compressed →
    c.decompress compressed = .ok plaintext
  cipher : ∀ key iv aad msg ciphertext, c.encrypt key iv aad msg = .ok ciphertext →
    c.decrypt key iv aad ciphertext = .ok msg

/-! ### The Merkle tree -/

section Merkle

variable (sha256 : List UInt8 → Bytes 32)

/-- `sha256(min || max)`. -/
def hashPair (a b : Bytes 32) : Bytes 32 :=
  if a.val < b.val then sha256 (a.val ++ b.val) else sha256 (b.val ++ a.val)

/-- The loop; a level of one label stays as it is, so that as many rounds as there are leaves
are enough. -/
def computeRoot (leaves : List (Bytes 32)) : List (Bytes 32) :=
  pairAll (hashPair sha256) leaves.length leaves

theorem length_computeRoot_le (leaves : List (Bytes 32)) : (computeRoot sha256 leaves).length ≤ 1 :=
  length_pairAll_le Nat.lt_two_pow_self.le

/-- `AuditMerkleTree::new`, and its root. -/
def merkleRoot (leaf_data : List (List UInt8)) : Bytes 32 :=
  (computeRoot sha256 (leaf_data.map sha256)).headD (sha256 [])

end Merkle

/-! ### Chunks -/

/-- Configuration for building a LogChunk. -/
structure ChunkConfig where
  user_did : String
  provider_did : String
  chunk_id : UInt64
  prev_chunk_hash : Bytes 32

/-- `u64::to_be_bytes`, of the number of the chunk. -/
def aadOf (chunk_id : UInt64) : List UInt8 := Sha256.beBytes 8 chunk_id.toNat

/-- `split_at(len - 16)`. -/
def splitTag (ciphertext : List UInt8) : Option (List UInt8 × List UInt8) :=
  if 16 ≤ ciphertext.length then some (ciphertext.splitAt (ciphertext.length - 16)) else none

/-- `split_at(12)`. -/
def splitIv (payload : List UInt8) : Option (Bytes 12 × List UInt8) :=
  if h : 12 ≤ payload.length then some (⟨payload.take 12, List.length_take_of_le h⟩, payload.drop 12)
  else none

/-- An error, with the words that the code puts before it. -/
def failedWith {α : Type} (text : String) (x : Except String α) : Except LogError α :=
  x.mapError fun e => .failed (text ++ e)

variable (c : Library)

def Library.merkleRoot (entries : List TransactionEntry) : Bytes 32 :=
  Audit.merkleRoot c.sha256 (entries.map c.codec.encodeEntry)

/-- Build an encrypted LogChunk from a list of transaction entries; the nonce of the cipher is
drawn anew for every chunk. -/
def buildChunk (config : ChunkConfig) (entries : List TransactionEntry) (log_key : Bytes 32)
    (iv : Bytes 12) : Except LogError LogChunk := do
  let first ← orErr entries.head? (.failed "cannot build chunk with zero entries")
  let last ← orErr entries.getLast? (.failed "cannot build chunk with zero entries")
  let plaintext := c.codec.encodePayload ⟨entries⟩
  let compressed ← failedWith "zstd compression failed: " (c.compress plaintext)
  let ciphertext ← failedWith "AES-GCM encryption failed: "
    (c.encrypt log_key iv (aadOf config.chunk_id) compressed)
  let (ciphertext_core, auth_tag) ← orErr (splitTag ciphertext) .panicked
  .ok {
    metadata := some {
      user_did := config.user_did
      provider_did := config.provider_did
      chunk_id := config.chunk_id
      start_nonce := first.nonce
      end_nonce := last.nonce
      prev_chunk_hash := config.prev_chunk_hash.val
      timestamp_start := (entries.map TransactionEntry.timestamp).min?.getD 0
      timestamp_end := (entries.map TransactionEntry.timestamp).max?.getD 0 }
    encrypted_payload := iv.val ++ ciphertext_core
    auth_tag
    merkle_root := (c.merkleRoot entries).val }

/-- Decrypt and verify a LogChunk, returning the inner transaction entries. -/
def decryptChunk (chunk : LogChunk) (log_key : Bytes 32) : Except LogError (List TransactionEntry) := do
  let metadata ← orErr chunk.metadata (.failed "chunk missing metadata")
  let (iv, ciphertext_core) ← orErr (splitIv chunk.encrypted_payload)
    (.failed "encrypted_payload too short (missing IV)")
  let compressed ← failedWith "AES-GCM decryption failed: "
    (c.decrypt log_key iv (aadOf metadata.chunk_id) (ciphertext_core ++ chunk.auth_tag))
  let plaintext ← failedWith "zstd decompression failed: " (c.decompress compressed)
  let payload ← failedWith "protobuf decode failed: " (c.codec.decodePayload plaintext)
  require ((c.merkleRoot payload.entries).val = chunk.merkle_root) (.failed "merkle root mismatch")
  .ok payload.entries

/-- Compute SHA-256 hash of a serialized LogChunk (for hash chain). -/
def chunkHash (chunk : LogChunk) : Bytes 32 := c.sha256 (c.codec.encodeChunk chunk)

theorem failedWith_eq_ok {α : Type} {text : String} {x : Except String α} {a : α} :
    failedWith text x = .ok a ↔ x = .ok a := by
  cases x with
  | error e => simp [failedWith, Except.mapError]
  | ok b => simp [failedWith, Except.mapError]

theorem splitTag_eq_some {ciphertext core tag : List UInt8} (h : splitTag ciphertext = some (core, tag)) :
    core ++ tag = ciphertext := by
  rw [splitTag] at h
  split at h
  · rw [List.splitAt_eq, Option.some_inj, Prod.mk.injEq] at h
    rw [← h.1, ← h.2, List.take_append_drop]
  · exact absurd h (by simp)

theorem splitIv_append (iv : Bytes 12) (core : List UInt8) :
    splitIv (iv.val ++ core) = some (iv, core) := by
  have hlen : iv.val.length = 12 := iv.property
  rw [splitIv, dif_pos (by rw [List.length_append]; omega), Option.some_inj, Prod.mk.injEq]
  exact ⟨Subtype.ext (List.take_left' hlen), List.drop_left' hlen⟩

variable {c} {config : ChunkConfig} {entries : List TransactionEntry} {log_key : Bytes 32}
  {iv : Bytes 12} {chunk : LogChunk}

/-- What a chunk that was built consists of. -/
theorem buildChunk_eq_ok (h : buildChunk c config entries log_key iv = .ok chunk) :
    ∃ compressed ciphertext core tag metadata,
      c.compress (c.codec.encodePayload ⟨entries⟩) = .ok compressed ∧
      c.encrypt log_key iv (aadOf config.chunk_id) compressed = .ok ciphertext ∧
      core ++ tag = ciphertext ∧
      chunk = ⟨some metadata, iv.val ++ core, tag, (c.merkleRoot entries).val⟩ ∧
      metadata.chunk_id = config.chunk_id ∧ metadata.prev_chunk_hash = config.prev_chunk_hash.val := by
  rw [buildChunk, bind_eq_ok] at h
  obtain ⟨first, -, h⟩ := h
  obtain ⟨last, -, h⟩ := bind_eq_ok.mp h
  obtain ⟨compressed, hcompressed, h⟩ := bind_eq_ok.mp h
  obtain ⟨ciphertext, hciphertext, h⟩ := bind_eq_ok.mp h
  obtain ⟨⟨core, tag⟩, hsplit, h⟩ := bind_eq_ok.mp h
  exact ⟨compressed, ciphertext, core, tag, _, failedWith_eq_ok.mp hcompressed,
    failedWith_eq_ok.mp hciphertext, splitTag_eq_some (orErr_eq_ok.mp hsplit),
    (Except.ok.inj h).symm, rfl, rfl⟩

theorem decryptChunk_buildChunk (hc : c.RoundTrips)
    (h : buildChunk c config entries log_key iv = .ok chunk) :
    decryptChunk c chunk log_key = .ok entries := by
  obtain ⟨compressed, ciphertext, core, tag, metadata, hcompressed, hciphertext, hsplit, rfl, hid, -⟩ :=
    buildChunk_eq_ok h
  rw [decryptChunk, bind_eq_ok]
  refine ⟨metadata, rfl, bind_eq_ok.mpr ⟨(iv, core), orErr_eq_ok.mpr (splitIv_append iv core), ?_⟩⟩
  refine bind_eq_ok.mpr ⟨compressed, failedWith_eq_ok.mpr ?_, ?_⟩
  · show c.decrypt log_key iv (aadOf metadata.chunk_id) (core ++ tag) = _
    rw [hid, hsplit]
    exact hc.cipher _ _ _ _ _ hciphertext
  refine bind_eq_ok.mpr ⟨_, failedWith_eq_ok.mpr (hc.zstd _ _ hcompressed), ?_⟩
  refine bind_eq_ok.mpr ⟨_, failedWith_eq_ok.mpr (hc.codec.payload _), ?_⟩
  exact bind_eq_ok.mpr ⟨(), require_eq_ok.mpr rfl, rfl⟩

end Audit
