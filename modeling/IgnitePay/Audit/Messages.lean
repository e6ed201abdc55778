/-
The messages of the audit log (`ignite-pay-core/proto/audit.proto`).

The code for them is generated when the program is built, and is taken here as a codec:
what it writes it reads back.  `wire` is the one of the wire format, which does
(`wire_roundTrips`).
-/
import IgnitePay.Lib.Bytes
import IgnitePay.Lib.Protobuf

namespace Audit

structure TransactionEntry where
  nonce : UInt64
  delta_amount : Int64
  cumulative_amount : UInt64
  signature : List UInt8
  timestamp : Int64
  service_id : String
  payment_id : String
  merchant_did : String
  memo : List UInt8
  deriving DecidableEq

/-- Ciphertext inner structure. -/
structure EncryptedPayload where
  entries : List TransactionEntry
  deriving DecidableEq

/-- Metadata (cleartext, for cloud indexing). -/
structure ChunkMetadata where
  user_did : String
  provider_did : String
  chunk_id : UInt64
  start_nonce : UInt64
  end_nonce : UInt64
  prev_chunk_hash : List UInt8
  timestamp_start : Int64
  timestamp_end : Int64
  deriving DecidableEq

/-- Storage and sync minimum unit. -/
structure LogChunk where
  metadata : Option ChunkMetadata
  encrypted_payload : List UInt8
  auth_tag : List UInt8
  merkle_root : List UInt8
  deriving DecidableEq

/-- Manifest entry mapping a chunk to its IPFS CID. -/
structure ChunkManifestEntry where
  chunk_id : UInt64
  cid : String
  chunk_hash : List UInt8
  merkle_root : List UInt8
  deriving DecidableEq

/-- Manifest tracking all chunks for a user on IPFS. -/
structure ChunkManifest where
  user_did : String
  entries : List ChunkManifestEntry
  prev_manifest_hash : List UInt8
  deriving DecidableEq

/-- `encode` and `decode` of the messages, as far as they are used. -/
structure Codec where
  encodeEntry : TransactionEntry → List UInt8
  encodePayload : EncryptedPayload → List UInt8
  decodePayload : List UInt8 → Except String EncryptedPayload
  encodeChunk : LogChunk → List UInt8
  decodeChunk : List UInt8 → Except String LogChunk
  encodeManifest : ChunkManifest → List UInt8
  decodeManifest : List UInt8 → Except String ChunkManifest

/-- What is written is read back. -/
structure Codec.RoundTrips (c : Codec) : Prop where
  payload : ∀ m, c.decodePayload (c.encodePayload m) = .ok m
  chunk : ∀ m, c.decodeChunk (c.encodeChunk m) = .ok m
  manifest : ∀ m, c.decodeManifest (c.encodeManifest m) = .ok m

/-! ### The wire format -/

namespace Wire

open Protobuf

/-- UTF-8. -/
def text (s : String) : List UInt8 := s.toByteArray.data.toList

def readText (l : List UInt8) : Option String := String.fromUTF8? ⟨l.toArray⟩

@[simp] theorem readText_text (s : String) : readText (text s) = some s :=
  (dif_pos s.isValidUTF8 : String.fromUTF8? s.toByteArray = _)

def entryFields (e : TransactionEntry) : List Field :=
  integer 1 e.nonce.toNat ++ integer 2 e.delta_amount.toUInt64.toNat ++
    integer 3 e.cumulative_amount.toNat ++ blob 4 e.signature ++
    integer 5 e.timestamp.toUInt64.toNat ++ blob 6 (text e.service_id) ++
    blob 7 (text e.payment_id) ++ blob 8 (text e.merchant_did) ++ blob 9 e.memo

def readEntry (l : List UInt8) : Option TransactionEntry := do
  let fields ← readFields l
  let service_id ← readText (bytes 6 fields)
  let payment_id ← readText (bytes 7 fields)
  let merchant_did ← readText (bytes 8 fields)
  some {
    nonce := UInt64.ofNat (number 1 fields)
    delta_amount := (UInt64.ofNat (number 2 fields)).toInt64
    cumulative_amount := UInt64.ofNat (number 3 fields)
    signature := bytes 4 fields
    timestamp := (UInt64.ofNat (number 5 fields)).toInt64
    service_id
    payment_id
    merchant_did
    memo := bytes 9 fields }

def metadataFields (m : ChunkMetadata) : List Field :=
  blob 1 (text m.user_did) ++ blob 2 (text m.provider_did) ++ integer 3 m.chunk_id.toNat ++
    integer 4 m.start_nonce.toNat ++ integer 5 m.end_nonce.toNat ++ blob 6 m.prev_chunk_hash ++
    integer 7 m.timestamp_start.toUInt64.toNat ++ integer 8 m.timestamp_end.toUInt64.toNat

def readMetadata (l : List UInt8) : Option ChunkMetadata := do
  let fields ← readFields l
  let user_did ← readText (bytes 1 fields)
  let provider_did ← readText (bytes 2 fields)
  some {
    user_did
    provider_did
    chunk_id := UInt64.ofNat (number 3 fields)
    start_nonce := UInt64.ofNat (number 4 fields)
    end_nonce := UInt64.ofNat (number 5 fields)
    prev_chunk_hash := bytes 6 fields
    timestamp_start := (UInt64.ofNat (number 7 fields)).toInt64
    timestamp_end := (UInt64.ofNat (number 8 fields)).toInt64 }

def payloadFields (p : EncryptedPayload) : List Field :=
  nested 1 (p.entries.map fun e => encodeFields (entryFields e))

def readPayload (l : List UInt8) : Option EncryptedPayload := do
  let fields ← readFields l
  let entries ← (blobs 1 fields).mapM readEntry
  some ⟨entries⟩

def chunkFields (c : LogChunk) : List Field :=
  nested 1 (c.metadata.toList.map fun m => encodeFields (metadataFields m)) ++
    blob 2 c.encrypted_payload ++ blob 3 c.auth_tag ++ blob 4 c.merkle_root

def readChunk (l : List UInt8) : Option LogChunk := do
  let fields ← readFields l
  let metadata ← (blobs 1 fields).mapM readMetadata
  some {
    metadata := metadata.getLast?
    encrypted_payload := bytes 2 fields
    auth_tag := bytes 3 fields
    merkle_root := bytes 4 fields }

def manifestEntryFields (e : ChunkManifestEntry) : List Field :=
  integer 1 e.chunk_id.toNat ++ blob 2 (text e.cid) ++ blob 3 e.chunk_hash ++ blob 4 e.merkle_root

def readManifestEntry (l : List UInt8) : Option ChunkManifestEntry := do
  let fields ← readFields l
  let cid ← readText (bytes 2 fields)
  some {
    chunk_id := UInt64.ofNat (number 1 fields)
    cid
    chunk_hash := bytes 3 fields
    merkle_root := bytes 4 fields }

def manifestFields (m : ChunkManifest) : List Field :=
  blob 1 (text m.user_did) ++
    nested 2 (m.entries.map fun e => encodeFields (manifestEntryFields e)) ++
    blob 3 m.prev_manifest_hash

def readManifest (l : List UInt8) : Option ChunkManifest := do
  let fields ← readFields l
  let user_did ← readText (bytes 1 fields)
  let entries ← (blobs 2 fields).mapM readManifestEntry
  some {
    user_did
    entries
    prev_manifest_hash := bytes 3 fields }

/-- A signed integer is written as the unsigned one with its bits. -/
@[simp] theorem ofNat_toUInt64_toNat (x : Int64) : Int64.ofNat x.toUInt64.toNat = x := by
  show (UInt64.ofNat x.toUInt64.toNat).toInt64 = x
  rw [UInt64.ofNat_toNat, Int64.toInt64_toUInt64]

theorem readEntry_encode (e : TransactionEntry) :
    readEntry (encodeFields (entryFields e)) = some e := by
  rw [readEntry, readFields_encodeFields]
  simp [entryFields, number, bytes]

theorem readMetadata_encode (m : ChunkMetadata) :
    readMetadata (encodeFields (metadataFields m)) = some m := by
  rw [readMetadata, readFields_encodeFields]
  simp [metadataFields, number, bytes]

theorem readManifestEntry_encode (e : ChunkManifestEntry) :
    readManifestEntry (encodeFields (manifestEntryFields e)) = some e := by
  rw [readManifestEntry, readFields_encodeFields]
  simp [manifestEntryFields, number, bytes]

/-- Messages that are read back one by one are read back as a list. -/
theorem mapM_map {α : Type} {write : α → List UInt8} {read : List UInt8 → Option α}
    (h : ∀ a, read (write a) = some a) (l : List α) : (l.map write).mapM read = some l := by
  induction l with
  | nil => rfl
  | cons a l ih =>
    rw [List.map_cons, List.mapM_cons, h, ih]
    rfl

theorem readPayload_encode (p : EncryptedPayload) :
    readPayload (encodeFields (payloadFields p)) = some p := by
  rw [readPayload, readFields_encodeFields]
  simp [payloadFields, mapM_map readEntry_encode]

theorem readChunk_encode (c : LogChunk) : readChunk (encodeFields (chunkFields c)) = some c := by
  rw [readChunk, readFields_encodeFields]
  obtain ⟨metadata, encrypted_payload, auth_tag, merkle_root⟩ := c
  cases metadata <;> simp [chunkFields, bytes, readMetadata_encode]

theorem readManifest_encode (m : ChunkManifest) :
    readManifest (encodeFields (manifestFields m)) = some m := by
  rw [readManifest, readFields_encodeFields]
  simp [manifestFields, bytes, mapM_map readManifestEntry_encode]

end Wire

/-- `Ok`, or the error of a message that is not read. -/
def decoded {α : Type} : Option α → Except String α
  | some m => .ok m
  | none => .error "failed to decode Protobuf message"

def wire : Codec where
  encodeEntry e := Protobuf.encodeFields (Wire.entryFields e)
  encodePayload p := Protobuf.encodeFields (Wire.payloadFields p)
  decodePayload l := decoded (Wire.readPayload l)
  encodeChunk c := Protobuf.encodeFields (Wire.chunkFields c)
  decodeChunk l := decoded (Wire.readChunk l)
  encodeManifest m := Protobuf.encodeFields (Wire.manifestFields m)
  decodeManifest l := decoded (Wire.readManifest l)

theorem wire_roundTrips : wire.RoundTrips where
  payload m := congrArg decoded (Wire.readPayload_encode m)
  chunk m := congrArg decoded (Wire.readChunk_encode m)
  manifest m := congrArg decoded (Wire.readManifest_encode m)

end Audit
