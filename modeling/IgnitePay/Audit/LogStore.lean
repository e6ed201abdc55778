/-
The transaction log of the phone (`ignite_pay_app/rust/src/api/log_store.rs`).

The log is a table of entries with a flag for those that are synced.  A sync takes the
entries that are not, from the highest synced nonce on, puts them on IPFS as one chunk and
then sets the flag of everything up to the last nonce of the chunk.

A sync waits twice, for the upload of its chunk and for that of the manifest.  It is one call
here for each part between two waits, so that entries are recorded in between, and every part
can be the last.

* `execAll_sync` — the parts, one directly after the other, are the whole function.
-/
import IgnitePay.Audit.LogSync

namespace Audit

open Machine

namespace LogStore

/-- A single transaction log entry. -/
structure TransactionEntry where
  nonce : Int64
  delta_amount : Int64
  cumulative_amount : Int64
  signature : String
  timestamp : Int64
  service_id : String
  payment_id : String
  merchant_did : String
  synced : Bool
  deriving DecidableEq

/-- Convert a phone entry to a proto entry. -/
def phoneEntryToProto (entry : TransactionEntry) : Audit.TransactionEntry where
  nonce := entry.nonce.toUInt64
  delta_amount := entry.delta_amount
  cumulative_amount := entry.cumulative_amount.toUInt64
  signature := Wire.text entry.signature
  timestamp := entry.timestamp
  service_id := entry.service_id
  payment_id := entry.payment_id
  merchant_did := entry.merchant_did
  memo := []

/-! ### The table -/

/-- `SELECT MAX(nonce) ... WHERE synced = 1`, or 0. -/
def lastSyncedNonce (transactions : List TransactionEntry) : Int64 :=
  ((transactions.filter TransactionEntry.synced).map TransactionEntry.nonce).max?.getD 0

/-- `SELECT ... WHERE synced = 0 AND nonce > ?1 ORDER BY nonce ASC`. -/
def unsyncedEntries (transactions : List TransactionEntry) (since_nonce : Int64) :
    List TransactionEntry :=
  (transactions.filter fun e => !e.synced && decide (since_nonce < e.nonce)).insertionSort
    fun e e' => e.nonce ≤ e'.nonce

def markUpTo (up_to_nonce : Int64) (e : TransactionEntry) : TransactionEntry :=
  if e.nonce ≤ up_to_nonce then { e with synced := true } else e

/-- `UPDATE transactions SET synced = 1 WHERE nonce <= ?1`. -/
def markSynced (up_to_nonce : Int64) (transactions : List TransactionEntry) : List TransactionEntry :=
  transactions.map (markUpTo up_to_nonce)

/-! ### A sync -/

/-- The last of the entries with the highest chunk id, as `max_by_key` picks it. -/
def lastChunk (entries : List ChunkManifestEntry) : Option ChunkManifestEntry :=
  entries.foldl
    (fun best e =>
      match best with
      | none => some e
      | some b => if b.chunk_id ≤ e.chunk_id then some e else some b)
    none

/-- `hash.copy_from_slice(&last.chunk_hash[..32])`. -/
def copyHash (chunk_hash : List UInt8) : Except LogError (Bytes 32) :=
  if h : 32 ≤ chunk_hash.length then .ok ⟨chunk_hash.take 32, List.length_take_of_le h⟩
  else .error .panicked

/-- The id of the next chunk, and the hash of the one before. -/
def nextChunk (manifest : ChunkManifest) : Except LogError (UInt64 × Bytes 32) :=
  match lastChunk manifest.entries with
  | none => .ok (1, Bytes.fill 32 0)
  | some last => do
    let prev_chunk_hash ← copyHash last.chunk_hash
    .ok (last.chunk_id + 1, prev_chunk_hash)

/-- What a sync has taken from the table, and the configuration of its chunk. -/
structure Batch where
  phone_entries : List TransactionEntry
  end_nonce : Int64
  config : ChunkConfig

def Batch.proto_entries (b : Batch) : List Audit.TransactionEntry := b.phone_entries.map phoneEntryToProto

/-- A sync up to the building of its chunk. -/
def selectBatch (user_did provider_did : String) (transactions : List TransactionEntry)
    (manifest : ChunkManifest) : Except LogError Batch := do
  let last_nonce := lastSyncedNonce transactions
  let phone_entries := unsyncedEntries transactions last_nonce
  let last ← orErr phone_entries.getLast? (.failed "no unsynced entries to sync")
  let (chunk_id, prev_chunk_hash) ← nextChunk manifest
  .ok ⟨phone_entries, last.nonce, ⟨user_did, provider_did, chunk_id, prev_chunk_hash⟩⟩

/-- Where a sync is; `began` is kept on record, the entries of the table when it began. -/
inductive Sync
  | idle
  /-- The chunk is being uploaded. -/
  | chunk (batch : Batch) (began : List TransactionEntry) (chunk : LogChunk)
  /-- The chunk is in the manifest, and the manifest is being uploaded. -/
  | manifest (batch : Batch) (began : List TransactionEntry)

/-- The table, IPFS and the manifest of the caller, and the sync that has begun.  Kept on record:
the entries that were in the table when a sync began that succeeded, and the ones that were in
the chunk of a sync that failed after the chunk had entered the manifest. -/
structure State (S : Type) where
  transactions : List TransactionEntry
  at_hand : Local S
  sync : Sync
  covered : List Audit.TransactionEntry
  stranded : List Audit.TransactionEntry

inductive Call (S : Type)
  | recordTransaction (entry : TransactionEntry)
  /-- `sync_to_ipfs`, to the first upload; the nonce of the cipher is drawn. -/
  | beginSync (user_did provider_did : String) (iv : Bytes 12)
  | uploadChunk
  /-- The second upload, and then the update of the table, which answers `db`. -/
  | uploadManifest (db : Except String Unit)
  /-- The caller stops waiting. -/
  | dropSync
  /-- IPFS changes in some other way. -/
  | network (ipfs : S)

section

variable {S : Type} (ipfs : Ipfs S) (c : Library) (log_key : Bytes 32)

def recordTransaction (entry : TransactionEntry) (s : State S) : Except LogError (State S) := do
  require (entry.nonce ∉ s.transactions.map TransactionEntry.nonce)
    (.failed "UNIQUE constraint failed: transactions.nonce")
  .ok { s with transactions := s.transactions ++ [entry] }

/-- The caller has lent its manifest to the sync that is under way. -/
def beginSync (user_did provider_did : String) (iv : Bytes 12) (s : State S) :
    Except LogError (State S) :=
  match s.sync with
  | .idle => do
    let batch ← selectBatch user_did provider_did s.transactions s.at_hand.manifest
    let chunk ← buildChunk c batch.config batch.proto_entries log_key iv
    .ok { s with sync := .chunk batch s.transactions chunk }
  | _ => .error (.failed "the manifest is borrowed")

/-- The chunk is uploaded, and entered in the manifest. -/
def State.enter (s : State S) (batch : Batch) (began : List TransactionEntry)
    (chunk : LogChunk) (cid : String) (t : Local S) : State S :=
  { s with
    at_hand := ⟨t.ipfs, addManifestEntry c t.manifest batch.config.chunk_id cid chunk⟩
    sync := .manifest batch began }

def uploadChunk (s : State S) : Except LogError (State S) :=
  match s.sync with
  | .chunk batch began chunk =>
    match (Local.upload ipfs (c.codec.encodeChunk chunk)).call s.at_hand with
    | (.ok cid, t) =>
      .ok (s.enter c batch began chunk cid t)
    | (.error _, t) => .ok { s with at_hand := t, sync := .idle }
  | _ => .error (.failed "no chunk to upload")

/-- A sync that does not get to the end, with its chunk in the manifest. -/
def State.strand (s : State S) (batch : Batch) : State S :=
  { s with sync := .idle, stranded := batch.proto_entries ++ s.stranded }

/-- A sync that does. -/
def State.finish (s : State S) (batch : Batch) (began : List TransactionEntry) : State S :=
  { s with
    transactions := markSynced batch.end_nonce s.transactions
    sync := .idle
    covered := began.map phoneEntryToProto ++ s.covered }

def uploadManifest (db : Except String Unit) (s : State S) : Except LogError (State S) :=
  match s.sync with
  | .manifest batch began =>
    match (Local.upload ipfs (c.codec.encodeManifest s.at_hand.manifest)).call s.at_hand, db with
    | (.ok _, t), .ok () => .ok ({ s with at_hand := t }.finish batch began)
    | (.ok _, t), .error _ => .ok ({ s with at_hand := t }.strand batch)
    | (.error _, t), _ => .ok ({ s with at_hand := t }.strand batch)
  | _ => .error (.failed "no manifest to upload")

def dropSync (s : State S) : Except LogError (State S) :=
  match s.sync with
  | .idle => .error (.failed "no sync")
  | .chunk _ _ _ => .ok { s with sync := .idle }
  | .manifest batch _ => .ok (s.strand batch)

def exec : Call S → State S → Except LogError (State S)
  | .recordTransaction entry => recordTransaction entry
  | .beginSync user_did provider_did iv => beginSync c log_key user_did provider_did iv
  | .uploadChunk => uploadChunk ipfs c
  | .uploadManifest db => uploadManifest ipfs c db
  | .dropSync => dropSync
  | .network n => fun s => .ok { s with at_hand := { s.at_hand with ipfs := n } }

/-- Nothing is recorded and nothing is synced. -/
def start (n : S) (user_did : String) : State S where
  transactions := []
  at_hand := ⟨n, ⟨user_did, [], []⟩⟩
  sync := .idle
  covered := []
  stranded := []

/-! ### The whole function -/

/-- `sync_to_ipfs`, with nothing between its parts. -/
def syncToIpfs (user_did provider_did : String) (iv : Bytes 12) (db : Except String Unit) :
    Method (State S) LogError (String × String) := do
  let s ← get
  let batch ← ofResult (selectBatch user_did provider_did s.transactions s.at_hand.manifest)
  let result ← (syncChunkToIpfs ipfs c batch.config batch.proto_entries log_key iv).on State.at_hand
    fun s t => { s with at_hand := t }
  ofResult (failedWith "" db)
  modify fun t => t.finish batch s.transactions
  pure result

variable {ipfs c log_key} {s s' : State S} {batch : Batch} {began : List TransactionEntry}

theorem uploadChunk_of_returns {chunk : LogChunk} {cid : String} {t : Local S}
    (hsync : s.sync = .chunk batch began chunk)
    (h : Returns (Local.upload ipfs (c.codec.encodeChunk chunk)) s.at_hand cid t) :
    uploadChunk ipfs c s = .ok (s.enter c batch began chunk cid t) := by
  rw [uploadChunk, hsync]
  show (match (Local.upload ipfs (c.codec.encodeChunk chunk)).call s.at_hand with
    | (.ok cid, t) => _
    | (.error _, t) => _) = _
  rw [h]

theorem uploadManifest_of_returns {cid : String} {t : Local S}
    (hsync : s.sync = .manifest batch began)
    (h : Returns (Local.upload ipfs (c.codec.encodeManifest s.at_hand.manifest)) s.at_hand cid t) :
    uploadManifest ipfs c (.ok ()) s = .ok ({ s with at_hand := t }.finish batch began) := by
  rw [uploadManifest, hsync]
  show (match (Local.upload ipfs (c.codec.encodeManifest s.at_hand.manifest)).call s.at_hand,
      (Except.ok () : Except String Unit) with
    | (.ok _, t), .ok () => _
    | (.ok _, t), .error _ => _
    | (.error _, t), _ => _) = _
  rw [h]

theorem execAll_sync {user_did provider_did : String} {iv : Bytes 12} {db : Except String Unit}
    {cids : String × String} (hidle : s.sync = .idle)
    (h : Returns (syncToIpfs ipfs c log_key user_did provider_did iv db) s cids s') :
    Run.execAll (exec ipfs c log_key)
      [.beginSync user_did provider_did iv, .uploadChunk, .uploadManifest db] s = .ok s' := by
  obtain ⟨batch, hbatch, h⟩ := returns_ofResult_bind.mp (returns_get_bind.mp h)
  obtain ⟨result, s₁, hsync, h⟩ := returns_bind.mp h
  obtain ⟨u, hdb, h⟩ := returns_ofResult_bind.mp h
  have h := returns_modify_bind.mp h
  obtain ⟨rfl, rfl⟩ := returns_pure.mp h
  obtain rfl : db = .ok () := failedWith_eq_ok.mp hdb
  obtain ⟨t, hwhole, rfl⟩ := returns_on.mp hsync
  -- The parts of `sync_chunk_to_ipfs`: the chunk is built, uploaded and entered.
  obtain ⟨chunk, hchunk, h⟩ := returns_ofResult_bind.mp hwhole
  obtain ⟨cid, t₁, hupload, h⟩ := returns_bind.mp h
  obtain ⟨manifest_cid, t₂, hmanifest, h⟩ :=
    returns_bind.mp (returns_get_bind.mp (returns_modify_bind.mp h))
  obtain ⟨rfl, rfl⟩ := returns_pure.mp h
  have hbegin : beginSync c log_key user_did provider_did iv s =
      .ok { s with sync := .chunk batch s.transactions chunk } := by
    rw [beginSync, hidle]
    exact bind_eq_ok.mpr ⟨batch, hbatch, bind_eq_ok.mpr ⟨chunk, hchunk, rfl⟩⟩
  let s₁ : State S := { s with sync := .chunk batch s.transactions chunk }
  let s₂ : State S := s₁.enter c batch s.transactions chunk cid t₁
  have henter : uploadChunk ipfs c s₁ = .ok s₂ := uploadChunk_of_returns rfl hupload
  have hfinish : uploadManifest ipfs c (.ok ()) s₂ =
      .ok ({ s₂ with at_hand := t₂ }.finish batch s.transactions) :=
    uploadManifest_of_returns rfl hmanifest
  exact bind_eq_ok.mpr ⟨s₁, hbegin, bind_eq_ok.mpr ⟨s₂, henter, bind_eq_ok.mpr ⟨_, hfinish, rfl⟩⟩⟩

/-! ### What the parts do -/

theorem recordTransaction_eq_ok {entry : TransactionEntry} :
    recordTransaction entry s = .ok s' ↔
      entry.nonce ∉ s.transactions.map TransactionEntry.nonce ∧
      { s with transactions := s.transactions ++ [entry] } = s' := by
  rw [recordTransaction, bind_eq_ok]
  constructor
  · rintro ⟨_, hnew, h⟩
    exact ⟨require_eq_ok.mp hnew, Except.ok.inj h⟩
  · rintro ⟨hnew, rfl⟩
    exact ⟨(), require_eq_ok.mpr hnew, rfl⟩

theorem beginSync_eq_ok {user_did provider_did : String} {iv : Bytes 12}
    (h : beginSync c log_key user_did provider_did iv s = .ok s') :
    s.sync = .idle ∧ ∃ batch chunk,
      selectBatch user_did provider_did s.transactions s.at_hand.manifest = .ok batch ∧
      buildChunk c batch.config batch.proto_entries log_key iv = .ok chunk ∧
      { s with sync := .chunk batch s.transactions chunk } = s' := by
  rw [beginSync] at h
  split at h
  · next hidle =>
    obtain ⟨batch, hbatch, h⟩ := bind_eq_ok.mp h
    obtain ⟨chunk, hchunk, h⟩ := bind_eq_ok.mp h
    exact ⟨hidle, batch, chunk, hbatch, hchunk, Except.ok.inj h⟩
  · exact absurd h (by simp)

/-- A batch holds the entries that are not synced and come after the last synced nonce. -/
theorem selectBatch_eq_ok {user_did provider_did : String} {transactions : List TransactionEntry}
    {manifest : ChunkManifest}
    (h : selectBatch user_did provider_did transactions manifest = .ok batch) :
    (∀ e, e ∈ batch.phone_entries ↔
      e ∈ transactions ∧ e.synced = false ∧ lastSyncedNonce transactions < e.nonce) ∧
    batch.phone_entries ≠ [] ∧ ∀ e ∈ batch.phone_entries, e.nonce ≤ batch.end_nonce := by
  obtain ⟨last, hlast, h⟩ := bind_eq_ok.mp h
  obtain ⟨⟨chunk_id, prev_chunk_hash⟩, -, h⟩ := bind_eq_ok.mp h
  obtain rfl := Except.ok.inj h
  have hlast := orErr_eq_ok.mp hlast
  refine ⟨fun e => ?_, fun hnil => ?_, fun e he => ?_⟩
  · show e ∈ unsyncedEntries transactions (lastSyncedNonce transactions) ↔ _
    rw [unsyncedEntries, (List.perm_insertionSort _ _).mem_iff, List.mem_filter]
    simp
  · have hnil : unsyncedEntries transactions (lastSyncedNonce transactions) = [] := hnil
    rw [hnil] at hlast
    exact absurd hlast (by simp)
  · -- The batch is sorted, and its last entry is the one whose nonce is kept.
    show e.nonce ≤ last.nonce
    obtain ⟨before, hbefore⟩ := List.getLast?_eq_some_iff.mp hlast
    have he : e ∈ before ++ [last] := hbefore ▸ he
    have hsorted : (before ++ [last]).Pairwise fun e e' => e.nonce ≤ e'.nonce := by
      rw [← hbefore]
      have : Std.Total (fun e e' : TransactionEntry => e.nonce ≤ e'.nonce) :=
        ⟨fun a b => Int64.le_total a.nonce b.nonce⟩
      have : IsTrans TransactionEntry (fun e e' => e.nonce ≤ e'.nonce) :=
        ⟨fun _ _ _ => Int64.le_trans⟩
      exact List.pairwise_insertionSort _ _
    rcases List.mem_append.mp he with he | he
    · exact (List.pairwise_append.mp hsorted).2.2 e he last (List.mem_singleton_self _)
    · rw [List.mem_singleton.mp he]
      exact Int64.le_refl _

theorem uploadChunk_eq_ok (h : uploadChunk ipfs c s = .ok s') :
    ∃ batch began chunk, s.sync = .chunk batch began chunk ∧
      ((∃ cid n, Returns (ipfs.upload (c.codec.encodeChunk chunk)) s.at_hand.ipfs cid n ∧
          s' = s.enter c batch began chunk cid { s.at_hand with ipfs := n }) ∨
        ∃ e n, Fails (ipfs.upload (c.codec.encodeChunk chunk)) s.at_hand.ipfs e n ∧
          s' = { s with at_hand := { s.at_hand with ipfs := n }, sync := .idle }) := by
  rw [uploadChunk] at h
  split at h
  · next batch began chunk hsync =>
    refine ⟨batch, began, chunk, hsync, ?_⟩
    split at h
    · next cid t hupload =>
      obtain ⟨n, hn, rfl⟩ := returns_upload.mp hupload
      exact .inl ⟨cid, n, hn, (Except.ok.inj h).symm⟩
    · next e t hupload =>
      obtain ⟨e', n, hn, -, rfl⟩ := fails_upload.mp hupload
      exact .inr ⟨e', n, hn, (Except.ok.inj h).symm⟩
  · exact absurd h (by simp)

theorem uploadManifest_eq_ok {db : Except String Unit} (h : uploadManifest ipfs c db s = .ok s') :
    ∃ batch began n, s.sync = .manifest batch began ∧
      ((∃ cid, Returns (ipfs.upload (c.codec.encodeManifest s.at_hand.manifest)) s.at_hand.ipfs cid n ∧
          db = .ok () ∧ s' = { s with at_hand := { s.at_hand with ipfs := n } }.finish batch began) ∨
        (((∃ cid, Returns (ipfs.upload (c.codec.encodeManifest s.at_hand.manifest))
              s.at_hand.ipfs cid n) ∧ db ≠ .ok () ∨
            ∃ e, Fails (ipfs.upload (c.codec.encodeManifest s.at_hand.manifest)) s.at_hand.ipfs e n) ∧
          s' = { s with at_hand := { s.at_hand with ipfs := n } }.strand batch)) := by
  rw [uploadManifest] at h
  split at h
  · next batch began hsync =>
    split at h
    · next cid t hupload =>
      obtain ⟨n, hn, rfl⟩ := returns_upload.mp hupload
      exact ⟨batch, began, n, hsync, .inl ⟨cid, hn, rfl, (Except.ok.inj h).symm⟩⟩
    · next cid t e hupload =>
      obtain ⟨n, hn, rfl⟩ := returns_upload.mp hupload
      exact ⟨batch, began, n, hsync, .inr ⟨.inl ⟨⟨cid, hn⟩, by simp⟩, (Except.ok.inj h).symm⟩⟩
    · next e t hupload =>
      obtain ⟨e', n, hn, -, rfl⟩ := fails_upload.mp hupload
      exact ⟨batch, began, n, hsync, .inr ⟨.inr ⟨e', hn⟩, (Except.ok.inj h).symm⟩⟩
  · exact absurd h (by simp)

theorem dropSync_eq_ok (h : dropSync s = .ok s') :
    (∃ batch began chunk, s.sync = .chunk batch began chunk ∧ s' = { s with sync := .idle }) ∨
      ∃ batch began, s.sync = .manifest batch began ∧ s' = s.strand batch := by
  rw [dropSync] at h
  split at h
  · exact absurd h (by simp)
  · next batch began chunk hsync => exact .inl ⟨batch, began, chunk, hsync, (Except.ok.inj h).symm⟩
  · next batch began hsync => exact .inr ⟨batch, began, hsync, (Except.ok.inj h).symm⟩

end

end LogStore

end Audit
