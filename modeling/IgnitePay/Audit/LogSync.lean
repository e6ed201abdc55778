/-
Syncing the audit log to IPFS, and restoring it (`ignite-pay-core/src/log_sync.rs`).

A sync builds a chunk, uploads it, enters it in the manifest and uploads the manifest.  A
restore takes the chunks of a manifest in the order of their numbers, compares each with the
hash in the manifest and with the hash that the next one names, and puts their entries in
the order of their nonces.

* `stablySorted_sortByNonce` — how the entries are ordered in the end;
* `restore_sync` — a restore after any number of syncs returns the entries of all batches,
  stably sorted by nonce.
-/
import IgnitePay.Audit.Ipfs
import IgnitePay.Audit.LogChunk
import IgnitePay.Lib.Run

namespace Audit

open Machine

section

variable {S : Type} (ipfs : Ipfs S) (c : Library)

/-- Download and deserialize a LogChunk from IPFS by CID. -/
def downloadChunk (s : S) (cid : String) : Except LogError LogChunk := do
  let bytes ← failedWith "" (ipfs.download cid s)
  failedWith "" (c.codec.decodeChunk bytes)

/-- Download and deserialize a ChunkManifest from IPFS by CID. -/
def downloadManifest (s : S) (cid : String) : Except LogError ChunkManifest := do
  let bytes ← failedWith "" (ipfs.download cid s)
  failedWith "" (c.codec.decodeManifest bytes)

/-- Add an entry to the manifest for a chunk that was uploaded. -/
def addManifestEntry (manifest : ChunkManifest) (chunk_id : UInt64) (cid : String) (chunk : LogChunk) :
    ChunkManifest :=
  { manifest with entries := manifest.entries ++
      [⟨chunk_id, cid, (chunkHash c chunk).val, chunk.merkle_root⟩] }

/-- What a sync works on: IPFS, and the manifest of the caller. -/
structure Local (S : Type) where
  ipfs : S
  manifest : ChunkManifest

/-- An upload, in the middle of a sync. -/
def Local.upload (data : List UInt8) : Method (Local S) LogError String :=
  ((ipfs.upload data).on Local.ipfs fun t s => { t with ipfs := s }).handle fun e =>
    throw (.failed e)

/-- Full sync flow: build chunk, upload to IPFS, update manifest, upload manifest. -/
def syncChunkToIpfs (config : ChunkConfig) (entries : List TransactionEntry) (log_key : Bytes 32)
    (iv : Bytes 12) : Method (Local S) LogError (String × String) := do
  let chunk ← ofResult (buildChunk c config entries log_key iv)
  let cid ← Local.upload ipfs (c.codec.encodeChunk chunk)
  modify fun t => { t with manifest := addManifestEntry c t.manifest config.chunk_id cid chunk }
  let t ← get
  let manifest_cid ← Local.upload ipfs (c.codec.encodeManifest t.manifest)
  pure (cid, manifest_cid)

/-- `chunk[i+1].prev_chunk_hash == chunk_hash(chunk[i])`, for the hash of the chunk before. -/
def checkPrevious (prev_hash : Option (List UInt8)) (chunk : LogChunk) (chunk_id : UInt64) :
    Except LogError Unit :=
  match prev_hash with
  | some prev => do
    let metadata ← orErr chunk.metadata (.failed "chunk missing metadata")
    require (metadata.prev_chunk_hash = prev)
      (.failed ("hash chain broken at chunk " ++ toString chunk_id.toNat))
  | none => .ok ()

/-- The entries that were restored so far, and the hash of the last chunk. -/
structure Restored where
  all_entries : List TransactionEntry
  prev_hash : Option (List UInt8)

/-- One round of a restore. -/
def restoreChunk (log_key : Bytes 32) (s : S) (r : Restored) (entry : ChunkManifestEntry) :
    Except LogError Restored := do
  let chunk ← downloadChunk ipfs c s entry.cid
  checkPrevious r.prev_hash chunk entry.chunk_id
  require ((chunkHash c chunk).val = entry.chunk_hash)
    (.failed ("chunk hash mismatch at chunk " ++ toString entry.chunk_id.toNat))
  let decrypted ← decryptChunk c chunk log_key
  .ok ⟨r.all_entries ++ decrypted, some entry.chunk_hash⟩

/-- `sort_by_key(|e| e.nonce)`. -/
def sortByNonce (entries : List TransactionEntry) : List TransactionEntry :=
  entries.mergeSort fun e e' => decide (e.nonce ≤ e'.nonce)

/-- `sort_by_key(|e| e.chunk_id)`. -/
def sortByChunkId (entries : List ChunkManifestEntry) : List ChunkManifestEntry :=
  entries.mergeSort fun e e' => decide (e.chunk_id ≤ e'.chunk_id)

/-- Full restore flow. -/
def restoreFromIpfs (manifest_cid : String) (log_key : Bytes 32) (s : S) :
    Except LogError (List TransactionEntry) := do
  let manifest ← downloadManifest ipfs c s manifest_cid
  let r ← (sortByChunkId manifest.entries).foldlM (restoreChunk ipfs c log_key s) ⟨[], none⟩
  .ok (sortByNonce r.all_entries)

end

/-! ### The order of the entries -/

/-- The elements of `l`, in the order of their keys; those of one key in the order of `l`. -/
structure StablySorted {α κ : Type} [LE κ] [DecidableEq κ] (key : α → κ) (l r : List α) : Prop where
  perm : r.Perm l
  sorted : r.Pairwise fun a b => key a ≤ key b
  stable : ∀ k, (r.filter fun a => key a = k) = l.filter fun a => key a = k

theorem stablySorted_sortByNonce (entries : List TransactionEntry) :
    StablySorted TransactionEntry.nonce entries (sortByNonce entries) := by
  have htrans : ∀ a b d : TransactionEntry, decide (a.nonce ≤ b.nonce) = true →
      decide (b.nonce ≤ d.nonce) = true → decide (a.nonce ≤ d.nonce) = true := by
    intro a b d hab hbd
    exact decide_eq_true (UInt64.le_trans (of_decide_eq_true hab) (of_decide_eq_true hbd))
  have htotal : ∀ a b : TransactionEntry,
      (decide (a.nonce ≤ b.nonce) || decide (b.nonce ≤ a.nonce)) = true := by
    intro a b
    rcases UInt64.le_total a.nonce b.nonce with h | h
    · simp [h]
    · simp [h]
  have hperm : (sortByNonce entries).Perm entries := List.mergeSort_perm entries _
  constructor
  · exact hperm
  · exact (List.pairwise_mergeSort htrans htotal entries).imp of_decide_eq_true
  · intro k
    -- The entries of one nonce are in order already, so that sorting keeps them as a sublist.
    have hsub : (entries.filter fun a => a.nonce = k).Sublist (sortByNonce entries) := by
      refine List.sublist_mergeSort htrans htotal ?_ List.filter_sublist
      refine List.pairwise_of_forall_mem_list fun a ha b hb => ?_
      have ha := of_decide_eq_true (List.mem_filter.mp ha).2
      have hb := of_decide_eq_true (List.mem_filter.mp hb).2
      exact decide_eq_true (by rw [ha, hb]; exact UInt64.le_refl k)
    have hsub := hsub.filter fun a => decide (a.nonce = k)
    rw [List.filter_filter, List.filter_congr fun a _ => Bool.and_self _] at hsub
    have hlength := (hperm.filter fun a => decide (a.nonce = k)).length_eq
    exact (hsub.eq_of_length hlength.symm).symm

/-! ### What a sync leaves -/

section

variable {S : Type} {ipfs : Ipfs S} {c : Library} {log_key : Bytes 32}

theorem returns_upload {data : List UInt8} {t t' : Local S} {cid : String} :
    Returns (Local.upload ipfs data) t cid t' ↔
      ∃ s', Returns (ipfs.upload data) t.ipfs cid s' ∧ { t with ipfs := s' } = t' := by
  rw [Local.upload, returns_handle, returns_on]
  constructor
  · rintro (h | ⟨e, t₁, -, h⟩)
    · exact h
    · exact absurd h returns_throw
  · exact .inl

theorem fails_upload {data : List UInt8} {t t' : Local S} {e : LogError} :
    Fails (Local.upload ipfs data) t e t' ↔
      ∃ e' s', Fails (ipfs.upload data) t.ipfs e' s' ∧ .failed e' = e ∧ { t with ipfs := s' } = t' := by
  rw [Local.upload, fails_handle]
  constructor
  · rintro ⟨e', t₁, hfails, hthrow⟩
    obtain ⟨s', hs', rfl⟩ := fails_on.mp hfails
    obtain ⟨he, rfl⟩ := fails_throw.mp hthrow
    exact ⟨e', s', hs', he, rfl⟩
  · rintro ⟨e', s', hs', he, rfl⟩
    exact ⟨e', _, fails_on.mpr ⟨s', hs', rfl⟩, fails_throw.mpr ⟨he, rfl⟩⟩

/-- A sync puts a chunk on IPFS and then the manifest, in which the chunk is the last entry. -/
theorem returns_syncChunkToIpfs {config : ChunkConfig} {entries : List TransactionEntry}
    {iv : Bytes 12} {t t' : Local S} {cids : String × String}
    (h : Returns (syncChunkToIpfs ipfs c config entries log_key iv) t cids t') :
    ∃ chunk s₁, buildChunk c config entries log_key iv = .ok chunk ∧
      Returns (ipfs.upload (c.codec.encodeChunk chunk)) t.ipfs cids.1 s₁ ∧
      t'.manifest = addManifestEntry c t.manifest config.chunk_id cids.1 chunk ∧
      Returns (ipfs.upload (c.codec.encodeManifest t'.manifest)) s₁ cids.2 t'.ipfs := by
  obtain ⟨chunk, hchunk, h⟩ := returns_ofResult_bind.mp h
  obtain ⟨cid, t₁, hupload, h⟩ := returns_bind.mp h
  obtain ⟨s₁, hs₁, rfl⟩ := returns_upload.mp hupload
  obtain ⟨manifest_cid, t₂, hmanifest, h⟩ := returns_bind.mp (returns_get_bind.mp (returns_modify_bind.mp h))
  obtain ⟨s₂, hs₂, rfl⟩ := returns_upload.mp hmanifest
  obtain ⟨rfl, rfl⟩ := returns_pure.mp h
  exact ⟨chunk, s₁, hchunk, hs₁, rfl, hs₂⟩

section Downloads

variable {s s' : S} {cid : String} (h : ipfs.Keeps s s')
include h

theorem downloadChunk_kept {chunk : LogChunk} (hdownload : downloadChunk ipfs c s cid = .ok chunk) :
    downloadChunk ipfs c s' cid = .ok chunk := by
  obtain ⟨bytes, hbytes, hdecode⟩ := bind_eq_ok.mp hdownload
  exact bind_eq_ok.mpr ⟨bytes, failedWith_eq_ok.mpr (h _ _ (failedWith_eq_ok.mp hbytes)), hdecode⟩

theorem restoreChunk_kept {r r' : Restored} {entry : ChunkManifestEntry}
    (hround : restoreChunk ipfs c log_key s r entry = .ok r') :
    restoreChunk ipfs c log_key s' r entry = .ok r' := by
  obtain ⟨chunk, hchunk, hrest⟩ := bind_eq_ok.mp hround
  exact bind_eq_ok.mpr ⟨chunk, downloadChunk_kept h hchunk, hrest⟩

/-- The rounds of a restore go as they went before an upload. -/
theorem restoreChunks_kept {r r' : Restored}
    {entries : List ChunkManifestEntry}
    (hrounds : entries.foldlM (restoreChunk ipfs c log_key s) r = .ok r') :
    entries.foldlM (restoreChunk ipfs c log_key s') r = .ok r' := by
  induction entries generalizing r with
  | nil => exact hrounds
  | cons entry entries ih =>
    rw [List.foldlM_cons] at hrounds ⊢
    obtain ⟨r₁, hround, hrest⟩ := bind_eq_ok.mp hrounds
    exact bind_eq_ok.mpr ⟨r₁, restoreChunk_kept h hround, ih hrest⟩

end Downloads

theorem downloadChunk_uploaded (hc : c.RoundTrips) (hipfs : ipfs.RoundTrips) {s s' : S} {cid : String}
    {chunk : LogChunk} (h : Returns (ipfs.upload (c.codec.encodeChunk chunk)) s cid s') :
    downloadChunk ipfs c s' cid = .ok chunk :=
  bind_eq_ok.mpr ⟨_, failedWith_eq_ok.mpr (hipfs.uploaded h), failedWith_eq_ok.mpr (hc.codec.chunk chunk)⟩

theorem downloadManifest_uploaded (hc : c.RoundTrips) (hipfs : ipfs.RoundTrips) {s s' : S}
    {cid : String} {manifest : ChunkManifest}
    (h : Returns (ipfs.upload (c.codec.encodeManifest manifest)) s cid s') :
    downloadManifest ipfs c s' cid = .ok manifest :=
  bind_eq_ok.mpr
    ⟨_, failedWith_eq_ok.mpr (hipfs.uploaded h), failedWith_eq_ok.mpr (hc.codec.manifest manifest)⟩

/-- The round of a chunk that was just built and uploaded. -/
theorem restoreChunk_uploaded (hc : c.RoundTrips) {config : ChunkConfig}
    {entries : List TransactionEntry} {iv : Bytes 12} {chunk : LogChunk} {s : S} {cid : String}
    {chunk_id : UInt64} {r : Restored} (hchunk : buildChunk c config entries log_key iv = .ok chunk)
    (hdownload : downloadChunk ipfs c s cid = .ok chunk)
    (hprev : ∀ prev, r.prev_hash = some prev → config.prev_chunk_hash.val = prev) :
    restoreChunk ipfs c log_key s r ⟨chunk_id, cid, (chunkHash c chunk).val, chunk.merkle_root⟩ =
      .ok ⟨r.all_entries ++ entries, some (chunkHash c chunk).val⟩ := by
  refine bind_eq_ok.mpr ⟨chunk, hdownload, bind_eq_ok.mpr ⟨(), ?_, ?_⟩⟩
  · obtain ⟨_, _, _, _, metadata, -, -, -, rfl, -, hmetadata⟩ := buildChunk_eq_ok hchunk
    rcases heq : r.prev_hash with _ | prev
    · rfl
    · exact bind_eq_ok.mpr ⟨metadata, rfl, require_eq_ok.mpr (hmetadata.trans (hprev prev heq))⟩
  · refine bind_eq_ok.mpr ⟨(), require_eq_ok.mpr rfl, bind_eq_ok.mpr ⟨entries, ?_, rfl⟩⟩
    exact decryptChunk_buildChunk hc hchunk

/-- The hash in the last entry of a manifest that was restored is that of its chunk. -/
theorem chunkHash_eq_of_restored {s : S} {r r' : Restored} {entries : List ChunkManifestEntry}
    {entry : ChunkManifestEntry} {chunk : LogChunk}
    (hrounds : entries.foldlM (restoreChunk ipfs c log_key s) r = .ok r')
    (hentry : entries.getLast? = some entry) (hchunk : downloadChunk ipfs c s entry.cid = .ok chunk) :
    (chunkHash c chunk).val = entry.chunk_hash := by
  obtain ⟨before, rfl⟩ := List.getLast?_eq_some_iff.mp hentry
  rw [List.foldlM_append] at hrounds
  obtain ⟨r₁, -, hlast⟩ := bind_eq_ok.mp hrounds
  rw [List.foldlM_cons] at hlast
  obtain ⟨r₂, hround, -⟩ := bind_eq_ok.mp hlast
  obtain ⟨chunk', hchunk', hround⟩ := bind_eq_ok.mp hround
  obtain rfl := Except.ok.inj (hchunk.symm.trans hchunk')
  obtain ⟨_, -, hround⟩ := bind_eq_ok.mp hround
  obtain ⟨_, hhash, -⟩ := bind_eq_ok.mp hround
  exact require_eq_ok.mp hhash

/-! ### Runs of syncs -/

structure SyncCall where
  config : ChunkConfig
  entries : List TransactionEntry
  iv : Bytes 12

/-- IPFS and the manifest, and the CID that the last sync returned for the manifest. -/
structure Synced (S : Type) where
  at_hand : Local S
  manifest_cid : Option String

variable (ipfs c log_key) in
/-- A sync that goes through. -/
def syncStep (call : SyncCall) (s : Synced S) : Except LogError (Synced S) :=
  match (syncChunkToIpfs ipfs c call.config call.entries log_key call.iv).call s.at_hand with
  | (.ok cids, t) => .ok ⟨t, some cids.2⟩
  | (.error e, _) => .error e

variable (ipfs c) in
/-- A sync after others has a higher chunk id than the last one, and the hash of its chunk. -/
def Chained (s : Synced S) (call : SyncCall) : Prop :=
  ∀ entry, s.at_hand.manifest.entries.getLast? = some entry →
    entry.chunk_id < call.config.chunk_id ∧
    ∃ chunk, downloadChunk ipfs c s.at_hand.ipfs entry.cid = .ok chunk ∧
      call.config.prev_chunk_hash = chunkHash c chunk

variable (ipfs c log_key) in
/-- The chunks of the manifest follow each other, and hold the entries. -/
structure Holds (all_entries : List TransactionEntry) (s : Synced S) : Prop where
  restored : s.at_hand.manifest.entries.foldlM (restoreChunk ipfs c log_key s.at_hand.ipfs) ⟨[], none⟩ =
    .ok ⟨all_entries, s.at_hand.manifest.entries.getLast?.map ChunkManifestEntry.chunk_hash⟩
  ids : s.at_hand.manifest.entries.IsChain fun e e' => e.chunk_id < e'.chunk_id
  manifest : ∀ cid, s.manifest_cid = some cid →
    downloadManifest ipfs c s.at_hand.ipfs cid = .ok s.at_hand.manifest

theorem Holds.step (hc : c.RoundTrips) (hipfs : ipfs.RoundTrips) {s s' : Synced S} {call : SyncCall}
    {all_entries : List TransactionEntry} (h : Holds ipfs c log_key all_entries s)
    (hchained : Chained ipfs c s call) (hstep : syncStep ipfs c log_key call s = .ok s') :
    Holds ipfs c log_key (all_entries ++ call.entries) s' := by
  rw [syncStep] at hstep
  split at hstep
  · next cids t hsync =>
    obtain rfl := Except.ok.inj hstep
    obtain ⟨chunk, s₁, hchunk, hupload, hmanifest, hlast⟩ := returns_syncChunkToIpfs hsync
    have hdownload : downloadChunk ipfs c t.ipfs cids.1 = .ok chunk :=
      downloadChunk_kept (hipfs.keeps hlast) (downloadChunk_uploaded hc hipfs hupload)
    have hkept : ipfs.Keeps s.at_hand.ipfs t.ipfs := fun cid data hdata =>
      hipfs.keeps hlast cid data (hipfs.keeps hupload cid data hdata)
    have hbefore := restoreChunks_kept hkept h.restored
    constructor
    · show t.manifest.entries.foldlM (restoreChunk ipfs c log_key t.ipfs) ⟨[], none⟩ =
        .ok ⟨_, t.manifest.entries.getLast?.map ChunkManifestEntry.chunk_hash⟩
      rw [hmanifest, addManifestEntry, List.foldlM_append, List.getLast?_concat]
      refine bind_eq_ok.mpr ⟨_, hbefore, ?_⟩
      rw [List.foldlM_cons]
      refine bind_eq_ok.mpr ⟨_, restoreChunk_uploaded hc hchunk hdownload ?_, rfl⟩
      -- The hash that the restore has kept is the one in the last entry of the manifest.
      intro prev hprev
      obtain ⟨entry, hentry, rfl⟩ := Option.map_eq_some_iff.mp hprev
      obtain ⟨-, chunk', hchunk', hhash⟩ := hchained entry hentry
      rw [hhash]
      exact chunkHash_eq_of_restored h.restored hentry hchunk'
    · show t.manifest.entries.IsChain _
      rw [hmanifest, addManifestEntry, List.isChain_append]
      refine ⟨h.ids, List.isChain_singleton _, fun entry hentry new hnew => ?_⟩
      obtain rfl := Option.some_inj.mp hnew
      exact (hchained entry hentry).1
    · intro cid hcid
      obtain rfl := Option.some_inj.mp hcid
      exact downloadManifest_uploaded hc hipfs hlast
  · exact absurd hstep (by simp)

/-- Entries of increasing chunk ids, in whatever order they come. -/
theorem sortByChunkId_of_perm {entries entries' : List ChunkManifestEntry}
    (hids : entries.IsChain fun e e' => e.chunk_id < e'.chunk_id) (hperm : entries'.Perm entries) :
    sortByChunkId entries' = entries := by
  let before (e e' : ChunkManifestEntry) : Prop := e.chunk_id < e'.chunk_id
  have : Trans before before before := ⟨fun h h' => UInt64.lt_trans h h'⟩
  have hids : entries.Pairwise before := hids.pairwise
  have hsorted : (sortByChunkId entries').Pairwise fun e e' => e.chunk_id ≤ e'.chunk_id := by
    refine (List.pairwise_mergeSort ?_ ?_ entries').imp of_decide_eq_true
    · intro a b d hab hbd
      exact decide_eq_true (UInt64.le_trans (of_decide_eq_true hab) (of_decide_eq_true hbd))
    · intro a b
      rcases UInt64.le_total a.chunk_id b.chunk_id with h | h
      · simp [h]
      · simp [h]
  have hperm : (sortByChunkId entries').Perm entries := (List.mergeSort_perm entries' _).trans hperm
  refine List.Perm.eq_of_pairwise ?_ hsorted (hids.imp UInt64.le_of_lt) hperm
  -- No two entries have the same chunk id.
  intro a b ha hb hab hba
  by_contra hne
  have hid : a.chunk_id = b.chunk_id := UInt64.le_antisymm hab hba
  have hdistinct : (entries.map ChunkManifestEntry.chunk_id).Nodup :=
    List.pairwise_map.mpr (hids.imp fun hlt => UInt64.ne_of_lt hlt)
  exact hne (List.inj_on_of_nodup_map hdistinct (hperm.mem_iff.mp ha) hb hid)

theorem Holds.restore {s : Synced S} {all_entries : List TransactionEntry} {cid : String}
    (h : Holds ipfs c log_key all_entries s) (hcid : s.manifest_cid = some cid) :
    restoreFromIpfs ipfs c cid log_key s.at_hand.ipfs = .ok (sortByNonce all_entries) := by
  refine bind_eq_ok.mpr ⟨_, h.manifest cid hcid, ?_⟩
  rw [sortByChunkId_of_perm h.ids (List.Perm.refl _)]
  exact bind_eq_ok.mpr ⟨_, h.restored, rfl⟩

theorem holds_of_run (hc : c.RoundTrips) (hipfs : ipfs.RoundTrips) {t : Local S}
    (hempty : t.manifest.entries = []) {h : List (Synced S × SyncCall)} {s : Synced S}
    (hrun : Run (syncStep ipfs c log_key) ⟨t, none⟩ h s)
    (hchained : ∀ call ∈ h, Chained ipfs c call.1 call.2) :
    Holds ipfs c log_key (h.reverse.flatMap fun call => call.2.entries) s := by
  induction hrun with
  | start =>
    constructor
    · show t.manifest.entries.foldlM (restoreChunk ipfs c log_key t.ipfs) ⟨[], none⟩ =
        .ok ⟨[], t.manifest.entries.getLast?.map ChunkManifestEntry.chunk_hash⟩
      rw [hempty]
      rfl
    · show t.manifest.entries.IsChain _
      rw [hempty]
      exact List.isChain_nil
    · intro cid hcid
      exact absurd hcid (by simp)
  | @step h s s' call hrun hstep ih =>
    obtain ⟨hcall, hbefore⟩ := List.forall_mem_cons.mp hchained
    rw [List.reverse_cons, List.flatMap_append, List.flatMap_singleton]
    exact (ih hbefore).step hc hipfs hcall hstep

theorem restore_sync (hc : c.RoundTrips) (hipfs : ipfs.RoundTrips) {t : Local S}
    (hempty : t.manifest.entries = []) {h : List (Synced S × SyncCall)} {s : Synced S}
    (hrun : Run (syncStep ipfs c log_key) ⟨t, none⟩ h s)
    (hchained : ∀ call ∈ h, Chained ipfs c call.1 call.2) (hsome : h ≠ []) :
    ∃ cid restored, s.manifest_cid = some cid ∧
      restoreFromIpfs ipfs c cid log_key s.at_hand.ipfs = .ok restored ∧
      StablySorted TransactionEntry.nonce (h.reverse.flatMap fun call => call.2.entries) restored := by
  have hholds := holds_of_run hc hipfs hempty hrun hchained
  obtain ⟨cid, hcid⟩ : ∃ cid, s.manifest_cid = some cid := by
    cases hrun with
    | start => exact absurd rfl hsome
    | step _ hstep =>
      rw [syncStep] at hstep
      split at hstep
      · obtain rfl := Except.ok.inj hstep
        exact ⟨_, rfl⟩
      · exact absurd hstep (by simp)
  exact ⟨cid, _, hcid, hholds.restore hcid, stablySorted_sortByNonce _⟩

/-! ### Syncs that go through -/

theorem exists_bind_eq_ok {α β ε : Type} {x : Except ε α} {f : α → Except ε β} {a : α} (hx : x = .ok a)
    (hf : ∃ r, f a = .ok r) : ∃ r, (x >>= f) = .ok r := by
  obtain ⟨r, hr⟩ := hf
  exact ⟨r, bind_eq_ok.mpr ⟨a, hx, hr⟩⟩

theorem exists_buildChunk {config : ChunkConfig} {entries : List TransactionEntry} {iv : Bytes 12}
    (hne : entries ≠ []) (hcompress : ∀ b, ∃ z, c.compress b = .ok z)
    (hencrypt : ∀ key iv aad msg, ∃ ct, c.encrypt key iv aad msg = .ok ct ∧ 16 ≤ ct.length) :
    ∃ chunk, buildChunk c config entries log_key iv = .ok chunk := by
  obtain ⟨compressed, hcompressed⟩ := hcompress (c.codec.encodePayload ⟨entries⟩)
  obtain ⟨ciphertext, hciphertext, hlength⟩ := hencrypt log_key iv (aadOf config.chunk_id) compressed
  refine exists_bind_eq_ok (orErr_eq_ok.mpr (List.head?_eq_some_head hne)) ?_
  refine exists_bind_eq_ok (orErr_eq_ok.mpr (List.getLast?_eq_some_getLast hne)) ?_
  refine exists_bind_eq_ok (failedWith_eq_ok.mpr hcompressed) ?_
  refine exists_bind_eq_ok (failedWith_eq_ok.mpr hciphertext) ?_
  exact exists_bind_eq_ok (orErr_eq_ok.mpr (if_pos hlength)) ⟨_, rfl⟩

/-- A batch can be synced after any other syncs. -/
theorem exists_syncStep {call : SyncCall} {s : Synced S} (hne : call.entries ≠ [])
    (hcompress : ∀ b, ∃ z, c.compress b = .ok z)
    (hencrypt : ∀ key iv aad msg, ∃ ct, c.encrypt key iv aad msg = .ok ct ∧ 16 ≤ ct.length)
    (hupload : ∀ data s, ∃ cid s', Returns (ipfs.upload data) s cid s') :
    ∃ s', syncStep ipfs c log_key call s = .ok s' := by
  obtain ⟨chunk, hchunk⟩ : ∃ chunk, buildChunk c call.config call.entries log_key call.iv = .ok chunk :=
    exists_buildChunk hne hcompress hencrypt
  obtain ⟨cid, s₁, hcid⟩ := hupload (c.codec.encodeChunk chunk) s.at_hand.ipfs
  let manifest := addManifestEntry c s.at_hand.manifest call.config.chunk_id cid chunk
  obtain ⟨manifest_cid, s₂, hmanifest⟩ := hupload (c.codec.encodeManifest manifest) s₁
  have hsync : Returns (syncChunkToIpfs ipfs c call.config call.entries log_key call.iv) s.at_hand
      (cid, manifest_cid) ⟨s₂, manifest⟩ := by
    refine returns_ofResult_bind.mpr ⟨chunk, hchunk, ?_⟩
    refine returns_bind.mpr ⟨cid, _, returns_upload.mpr ⟨s₁, hcid, rfl⟩, ?_⟩
    refine returns_modify_bind.mpr (returns_get_bind.mpr ?_)
    refine returns_bind.mpr ⟨manifest_cid, _, returns_upload.mpr ⟨s₂, hmanifest, rfl⟩, ?_⟩
    exact returns_pure.mpr ⟨rfl, rfl⟩
  refine ⟨⟨⟨s₂, manifest⟩, some manifest_cid⟩, ?_⟩
  rw [syncStep, hsync]

/-- What the next sync has to be chained to. -/
theorem last_of_syncStep (hc : c.RoundTrips) (hipfs : ipfs.RoundTrips) {call : SyncCall}
    {s s' : Synced S} (hstep : syncStep ipfs c log_key call s = .ok s') :
    ∃ entry chunk, s'.at_hand.manifest.entries.getLast? = some entry ∧
      entry.chunk_id = call.config.chunk_id ∧
      downloadChunk ipfs c s'.at_hand.ipfs entry.cid = .ok chunk := by
  rw [syncStep] at hstep
  split at hstep
  · next cids t hsync =>
    obtain rfl := Except.ok.inj hstep
    obtain ⟨chunk, s₁, -, hupload, hmanifest, hlast⟩ := returns_syncChunkToIpfs hsync
    refine ⟨⟨call.config.chunk_id, cids.1, (chunkHash c chunk).val, chunk.merkle_root⟩, chunk, ?_, rfl,
      downloadChunk_kept (hipfs.keeps hlast) (downloadChunk_uploaded hc hipfs hupload)⟩
    show t.manifest.entries.getLast? = _
    rw [hmanifest, addManifestEntry, List.getLast?_concat]
  · exact absurd hstep (by simp)

end

namespace Sample

open Bytes

def key : Bytes 32 := fill 32 42

def iv (n : UInt8) : Bytes 12 := fill 12 n

/-- What the key makes of the two nonces, and the tags of the two ciphertexts. -/
def keystream (n : Bytes 12) : List UInt8 :=
  if n = iv 1 then leBytes 19 0xb03fd0488eb1d874dbb414d6a11f5e88b9a644
  else if n = iv 2 then leBytes 29 0xba4e5011ea4698a3d0d7a49af56695667b0b3842fcba0a99b4c6e0402b
  else []

def tag (n : Bytes 12) : Bytes 16 :=
  if n = iv 1 then number 16 0x26a0933e7842ddae0a9e42c8901f4740
  else number 16 0x43bad231026c32a64e9132435ccc9642

def mask (n : Bytes 12) (msg : List UInt8) : List UInt8 :=
  msg.mapIdx fun i b => b ^^^ (keystream n).getD i 0

def enciphered (n : Bytes 12) (msg : List UInt8) : List UInt8 := mask n msg ++ (tag n).val

theorem mask_mask (n : Bytes 12) (msg : List UInt8) : mask n (mask n msg) = msg := by
  rw [mask, mask, List.mapIdx_mapIdx]
  refine List.ext_getElem (List.length_mapIdx ..) fun i _ _ => ?_
  simp

theorem take_append_tag (msg : List UInt8) (t : Bytes 16) :
    (msg ++ t.val).take ((msg ++ t.val).length - 16) = msg := by
  have hlength : (msg ++ t.val).length - 16 = msg.length := by simp
  rw [hlength]
  exact List.take_left

/-- A frame with one block, as it is; short strings are not compressed. -/
def magic : List UInt8 := [0x28, 0xb5, 0x2f, 0xfd, 0x00, 0x58]

def frame (plaintext : List UInt8) : List UInt8 :=
  magic ++ (leBytes 3 (8 * plaintext.length + 1) ++ plaintext)

def library : Library where
  sha256 := Sha256.sha256
  codec := wire
  compress plaintext := .ok (frame plaintext)
  decompress z := if z.take 6 = magic then .ok (z.drop 9) else .error "Unknown frame descriptor"
  encrypt _ n _ msg := .ok (enciphered n msg)
  decrypt _ n _ ciphertext :=
    let msg := mask n (ciphertext.take (ciphertext.length - 16))
    if enciphered n msg = ciphertext then .ok msg else .error "aead::Error"

theorem library_roundTrips : library.RoundTrips where
  codec := wire_roundTrips
  zstd plaintext z h := by
    obtain rfl := Except.ok.inj h
    have hmagic : (frame plaintext).take 6 = magic := List.take_left' rfl
    have hblock : (frame plaintext).drop 9 = plaintext := by
      rw [frame, ← List.append_assoc]
      exact List.drop_left' (by simp [magic])
    show (if (frame plaintext).take 6 = magic then Except.ok ((frame plaintext).drop 9)
      else Except.error "Unknown frame descriptor") = _
    rw [if_pos hmagic, hblock]
  cipher key n aad msg ciphertext h := by
    obtain rfl := Except.ok.inj h
    have hcore : (enciphered n msg).take ((enciphered n msg).length - 16) = mask n msg :=
      take_append_tag (mask n msg) (tag n)
    show (if enciphered n (mask n ((enciphered n msg).take ((enciphered n msg).length - 16))) =
        enciphered n msg
      then Except.ok (mask n ((enciphered n msg).take ((enciphered n msg).length - 16)))
      else Except.error "aead::Error") = _
    rw [hcore, mask_mask, if_pos rfl]

def entry (nonce : UInt64) (delta : Int64) (cumulative : UInt64) (timestamp : Int64) :
    TransactionEntry :=
  ⟨nonce, delta, cumulative, [], timestamp, "", "", "", []⟩

/-- Two batches; the second has the lower nonces. -/
def first : SyncCall := ⟨⟨"", "", 1, fill 32 0⟩, [entry 3 5 5 7], iv 1⟩

def second (prev_chunk_hash : Bytes 32) : SyncCall :=
  ⟨⟨"", "", 2, prev_chunk_hash⟩, [entry 1 2 7 8, entry 2 1 8 9], iv 2⟩

def start : Local MockIpfs := ⟨.empty, ⟨"", [], []⟩⟩

theorem exists_step (call : SyncCall) (s : Synced MockIpfs) (hne : call.entries ≠ []) :
    ∃ s', syncStep mock library key call s = .ok s' := by
  refine exists_syncStep hne (fun b => ⟨_, rfl⟩) (fun _ n _ msg => ⟨_, rfl, ?_⟩)
    fun data s => ⟨_, _, returns_mock_upload data s⟩
  rw [enciphered, List.length_append, (tag n).property]
  omega

end Sample

/-- Two batches on the mock client. -/
theorem restore_sync_two : ∃ prev_chunk_hash h s cid restored,
    Run (syncStep mock Sample.library Sample.key) ⟨Sample.start, none⟩ h s ∧
    h.map Prod.snd = [Sample.second prev_chunk_hash, Sample.first] ∧
    restoreFromIpfs mock Sample.library cid Sample.key s.at_hand.ipfs = .ok restored ∧
    StablySorted TransactionEntry.nonce
      [Sample.entry 3 5 5 7, Sample.entry 1 2 7 8, Sample.entry 2 1 8 9] restored := by
  obtain ⟨s₁, hs₁⟩ := Sample.exists_step Sample.first ⟨Sample.start, none⟩ (by simp [Sample.first])
  obtain ⟨entry, chunk, hentry, hid, hchunk⟩ :=
    last_of_syncStep Sample.library_roundTrips mock_roundTrips hs₁
  obtain ⟨s₂, hs₂⟩ := Sample.exists_step (Sample.second (chunkHash Sample.library chunk)) s₁
    (by simp [Sample.second])
  have hrun := Run.step (Run.step .start hs₁) hs₂
  obtain ⟨cid, restored, -, hrestore, hsorted⟩ :=
    restore_sync Sample.library_roundTrips mock_roundTrips rfl hrun (by
      intro call hcall
      simp only [List.mem_cons, List.not_mem_nil, or_false] at hcall
      rcases hcall with rfl | rfl
      · intro entry' hentry'
        obtain rfl := Option.some_inj.mp (hentry.symm.trans hentry')
        refine ⟨?_, chunk, hchunk, rfl⟩
        rw [hid]
        show (1 : UInt64) < 2
        decide
      · intro entry' hentry'
        exact absurd hentry' (by simp [Sample.start]))
      (List.cons_ne_nil _ _)
  exact ⟨_, _, s₂, cid, restored, hrun, rfl, hrestore, hsorted⟩

end Audit
