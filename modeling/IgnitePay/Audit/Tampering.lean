/-
What a restore notices of a manifest that was tampered with.

Every chunk names the hash of the one before it, so that with a collision-free hash a
manifest that is restored is determined by its last chunk and by how many there are.
Nothing pins these two.

* `exists_links` — a restore that goes through, as a chain of chunks;
* `restored_eq_of_pinned` — as many chunks and the same last one give the same entries;
* `restore_tampered` — of all manifests a restore accepts after a run of syncs, exactly
  those with as many entries and the same last chunk give the entries of the log.
-/
import IgnitePay.Audit.LogSync
import IgnitePay.Lib.Chains

namespace Audit

open Machine Chains

section

variable {S : Type} {ipfs : Ipfs S} {c : Library} {log_key : Bytes 32}

/-- An entry of a manifest, with what it stands for. -/
structure Link where
  entry : ChunkManifestEntry
  chunk : LogChunk
  batch : List TransactionEntry

variable (ipfs c log_key) in
/-- The entry stands for the chunk, and that for the batch. -/
structure Link.Valid (s : S) (l : Link) : Prop where
  download : downloadChunk ipfs c s l.entry.cid = .ok l.chunk
  hash : (chunkHash c l.chunk).val = l.entry.chunk_hash
  decrypt : decryptChunk c l.chunk log_key = .ok l.batch

variable (c) in
/-- The chunk names the other as the one before it. -/
def Follows (before chunk : LogChunk) : Prop :=
  ∃ metadata, chunk.metadata = some metadata ∧ metadata.prev_chunk_hash = (chunkHash c before).val

variable (ipfs c log_key) in
/-- The chain of chunks that the entries stand for. -/
structure Reads (s : S) (entries : List ChunkManifestEntry) (links : List Link) : Prop where
  entries : links.map Link.entry = entries
  valid : ∀ l ∈ links, l.Valid ipfs c log_key s
  chain : (links.map Link.chunk).IsChain (Follows c)

/-- A restore that goes through has seen a chain of chunks. -/
theorem exists_links {s : S} {entries : List ChunkManifestEntry} {r : Restored}
    (h : entries.foldlM (restoreChunk ipfs c log_key s) ⟨[], none⟩ = .ok r) :
    ∃ links, Reads ipfs c log_key s entries links ∧ r.all_entries = links.flatMap Link.batch ∧
      r.prev_hash = links.getLast?.map fun l => (chunkHash c l.chunk).val := by
  induction entries using List.reverseRecOn generalizing r with
  | nil =>
    obtain rfl := Except.ok.inj h
    exact ⟨[], ⟨rfl, by simp, List.isChain_nil⟩, rfl, rfl⟩
  | append_singleton entries entry ih =>
    rw [List.foldlM_append] at h
    obtain ⟨r₁, hbefore, h⟩ := bind_eq_ok.mp h
    rw [List.foldlM_cons] at h
    obtain ⟨r₂, hround, h⟩ := bind_eq_ok.mp h
    obtain rfl := Except.ok.inj h
    obtain ⟨links, ⟨rfl, hvalid, hchain⟩, hentries, hprev⟩ := ih hbefore
    obtain ⟨chunk, hdownload, hround⟩ := bind_eq_ok.mp hround
    obtain ⟨_, hfollows, hround⟩ := bind_eq_ok.mp hround
    obtain ⟨_, hhash, hround⟩ := bind_eq_ok.mp hround
    obtain ⟨batch, hdecrypt, hround⟩ := bind_eq_ok.mp hround
    obtain rfl := Except.ok.inj hround
    have hhash := require_eq_ok.mp hhash
    refine ⟨links ++ [⟨entry, chunk, batch⟩], ⟨by simp, ?_, ?_⟩, by simp [hentries], ?_⟩
    · intro l hl
      rcases List.mem_append.mp hl with hl | hl
      · exact hvalid l hl
      · rw [List.mem_singleton.mp hl]
        exact ⟨hdownload, hhash, hdecrypt⟩
    · rw [List.map_append, List.isChain_append]
      refine ⟨hchain, List.isChain_singleton _, fun before hbefore new hnew => ?_⟩
      obtain rfl := Option.some_inj.mp hnew
      rw [List.getLast?_map] at hbefore
      obtain ⟨l, hl, rfl⟩ := Option.map_eq_some_iff.mp hbefore
      rw [hprev, hl] at hfollows
      obtain ⟨metadata, hmetadata, hrequire⟩ := bind_eq_ok.mp hfollows
      exact ⟨metadata, orErr_eq_ok.mp hmetadata, require_eq_ok.mp hrequire⟩
    · rw [List.getLast?_concat]
      exact congrArg some hhash.symm

variable (ipfs c) in
/-- What is hashed of the chunks that the entries name. -/
def encodings (s : S) (entries : List ChunkManifestEntry) : Set (List UInt8) :=
  {b | ∃ entry ∈ entries, ∃ chunk, downloadChunk ipfs c s entry.cid = .ok chunk ∧
    c.codec.encodeChunk chunk = b}

variable (ipfs c) in
/-- As many entries, and the same last chunk. -/
def Pinned (s : S) (manifest manifest' : ChunkManifest) : Prop :=
  manifest'.entries.length = manifest.entries.length ∧
  ((sortByChunkId manifest'.entries).getLast?.map fun e => downloadChunk ipfs c s e.cid) =
    manifest.entries.getLast?.map fun e => downloadChunk ipfs c s e.cid

variable (ipfs c log_key) in
/-- The entry is one of the manifest, or stands for a batch with an entry that the log does not
have. -/
def Foreign (s : S) (manifest : ChunkManifest) (all_entries : List TransactionEntry)
    (entry : ChunkManifestEntry) : Prop :=
  entry ∈ manifest.entries ∨ ∃ chunk batch, downloadChunk ipfs c s entry.cid = .ok chunk ∧
    decryptChunk c chunk log_key = .ok batch ∧ ∃ e ∈ batch, e ∉ all_entries

theorem follows_leftUnique (hc : c.RoundTrips) {known : Set (List UInt8)}
    (hfree : Sha256.CollisionFree c.sha256 known) :
    Relator.LeftUnique fun k k' => c.codec.encodeChunk k ∈ known ∧ Follows c k k' := by
  rintro k₁ k₂ k ⟨hk₁, metadata, hmetadata, hprev⟩ ⟨hk₂, metadata', hmetadata', hprev'⟩
  obtain rfl := Option.some_inj.mp (hmetadata.symm.trans hmetadata')
  have hencode := hfree hk₁ hk₂ (Subtype.ext (hprev.symm.trans hprev'))
  have hdecode := congrArg c.codec.decodeChunk hencode
  rw [hc.codec.chunk, hc.codec.chunk] at hdecode
  exact Except.ok.inj hdecode

section Manifests

variable {s : S} {entries entries' : List ChunkManifestEntry} {links links' : List Link}

variable (c log_key) in
/-- The entries of a chunk that can be decrypted. -/
def batchOf (chunk : LogChunk) : List TransactionEntry :=
  ((decryptChunk c chunk log_key).toOption).getD []

theorem Reads.flatMap_batch (h : Reads ipfs c log_key s entries links) :
    links.flatMap Link.batch = (links.map Link.chunk).flatMap (batchOf c log_key) := by
  rw [List.flatMap_map]
  refine List.flatMap_congr fun l hl => ?_
  rw [batchOf, (h.valid l hl).decrypt]
  rfl

theorem Reads.isChain (h : Reads ipfs c log_key s entries links) {known : Set (List UInt8)}
    (hknown : encodings ipfs c s entries ⊆ known) :
    (links.map Link.chunk).IsChain fun k k' => c.codec.encodeChunk k ∈ known ∧ Follows c k k' := by
  refine List.IsChain.imp_of_mem_imp (fun k k' hk _ hfollows => ⟨hknown ?_, hfollows⟩) h.chain
  obtain ⟨l, hl, rfl⟩ := List.mem_map.mp hk
  exact ⟨l.entry, h.entries ▸ List.mem_map_of_mem hl, l.chunk, (h.valid l hl).download, rfl⟩

/-- The chunk that the last entry names is the last of the chain. -/
theorem Reads.last_download (h : Reads ipfs c log_key s entries links) :
    (entries.getLast?.map fun e => downloadChunk ipfs c s e.cid) =
      (links.map Link.chunk).getLast?.map Except.ok := by
  have hdownloads : (entries.map fun e => downloadChunk ipfs c s e.cid) =
      (links.map Link.chunk).map Except.ok := by
    rw [← h.entries, List.map_map, List.map_map]
    exact List.map_congr_left fun l hl => (h.valid l hl).download
  rw [← List.getLast?_map, hdownloads, List.getLast?_map]

/-- The chunks that the links hold are those of another chain, if their entries are. -/
theorem Reads.chunk_mem (h : Reads ipfs c log_key s entries links)
    (h' : Reads ipfs c log_key s entries' links') (hsub : ∀ e ∈ entries', e ∈ entries) :
    ∀ k ∈ links'.map Link.chunk, k ∈ links.map Link.chunk := by
  intro k hk
  obtain ⟨l', hl', rfl⟩ := List.mem_map.mp hk
  have hentry := hsub l'.entry (h'.entries ▸ List.mem_map_of_mem hl')
  rw [← h.entries] at hentry
  obtain ⟨l, hl, heq⟩ := List.mem_map.mp hentry
  have hdownload := (h.valid l hl).download
  rw [heq, (h'.valid l' hl').download] at hdownload
  exact List.mem_map.mpr ⟨l, hl, (Except.ok.inj hdownload).symm⟩

end Manifests

section Tampered

variable {s : S} {manifest manifest' : ChunkManifest} {links links' : List Link}

theorem pinned_iff (h : Reads ipfs c log_key s manifest.entries links)
    (h' : Reads ipfs c log_key s (sortByChunkId manifest'.entries) links') :
    Pinned ipfs c s manifest manifest' ↔ (links'.map Link.chunk).length = (links.map Link.chunk).length ∧
      (links'.map Link.chunk).getLast? = (links.map Link.chunk).getLast? := by
  have hlength := congrArg List.length h.entries
  have hlength' := congrArg List.length h'.entries
  rw [List.length_map] at hlength hlength'
  rw [sortByChunkId, List.length_mergeSort] at hlength'
  have hinj : Function.Injective (Except.ok : LogChunk → Except LogError LogChunk) :=
    fun _ _ => Except.ok.inj
  rw [Pinned, h.last_download, h'.last_download, (Option.map_injective hinj).eq_iff,
    List.length_map, List.length_map, hlength, hlength']

/-- As many chunks and the same last one: the same entries. -/
theorem entries_eq_of_pinned (hc : c.RoundTrips)
    (hfree : Sha256.CollisionFree c.sha256 (encodings ipfs c s (manifest.entries ++ manifest'.entries)))
    (h : Reads ipfs c log_key s manifest.entries links)
    (h' : Reads ipfs c log_key s (sortByChunkId manifest'.entries) links')
    (hpinned : Pinned ipfs c s manifest manifest') :
    links'.flatMap Link.batch = links.flatMap Link.batch := by
  obtain ⟨hlength, hlast⟩ := (pinned_iff h h').mp hpinned
  have hchunks : links'.map Link.chunk = links.map Link.chunk := by
    refine eq_of_isChain (follows_leftUnique hc hfree) (h'.isChain ?_) (h.isChain ?_) hlength hlast
    · rintro b ⟨e, he, hb⟩
      exact ⟨e, List.mem_append_right _ (List.mem_mergeSort.mp he), hb⟩
    · rintro b ⟨e, he, hb⟩
      exact ⟨e, List.mem_append_left _ he, hb⟩
  rw [h.flatMap_batch, h'.flatMap_batch, hchunks]

/-- Chunks of the log alone, with all of its entries: no chunk is missing. -/
theorem pinned_of_perm (hc : c.RoundTrips)
    (hfree : Sha256.CollisionFree c.sha256 (encodings ipfs c s (manifest.entries ++ manifest'.entries)))
    (h : Reads ipfs c log_key s manifest.entries links)
    (h' : Reads ipfs c log_key s (sortByChunkId manifest'.entries) links')
    (hfull : ∀ k ∈ links.map Link.chunk, batchOf c log_key k ≠ [])
    (hroot : ∀ first ∈ (links.map Link.chunk).head?, ∀ k ∈ links.map Link.chunk, ¬ Follows c k first)
    (hsub : ∀ e ∈ manifest'.entries, e ∈ manifest.entries)
    (hperm : (links'.flatMap Link.batch).Perm (links.flatMap Link.batch)) :
    Pinned ipfs c s manifest manifest' := by
  have hmem := h.chunk_mem h' fun e he => hsub e (List.mem_mergeSort.mp he)
  obtain ⟨before, after, hstretch⟩ : links'.map Link.chunk <:+: links.map Link.chunk := by
    refine isInfix_of_isChain (follows_leftUnique hc hfree) (h.isChain ?_) ?_ (h'.isChain ?_) hmem
    · rintro b ⟨e, he, hb⟩
      exact ⟨e, List.mem_append_left _ he, hb⟩
    · exact fun first hfirst k hk hfollows => hroot first hfirst k hk hfollows.2
    · rintro b ⟨e, he, hb⟩
      exact ⟨e, List.mem_append_right _ (List.mem_mergeSort.mp he), hb⟩
  -- There are as many entries in the stretch as in the whole, so that nothing is left beside it.
  have hlength := hperm.length_eq
  rw [h.flatMap_batch, h'.flatMap_batch, ← hstretch, List.flatMap_append, List.flatMap_append,
    List.length_append, List.length_append] at hlength
  have hempty : ∀ ks : List LogChunk, (∀ k ∈ ks, k ∈ links.map Link.chunk) →
      (ks.flatMap (batchOf c log_key)).length = 0 → ks = [] := by
    intro ks hks hzero
    rcases ks with _ | ⟨k, ks⟩
    · rfl
    · rw [List.flatMap_cons, List.length_append] at hzero
      have hk := List.length_pos_iff.mpr (hfull k (hks k List.mem_cons_self))
      omega
  have hbefore : before = [] := hempty before (fun k hk => by rw [← hstretch]; simp [hk]) (by omega)
  have hafter : after = [] := hempty after (fun k hk => by rw [← hstretch]; simp [hk]) (by omega)
  rw [hbefore, hafter, List.nil_append, List.append_nil] at hstretch
  exact (pinned_iff h h').mpr ⟨by rw [hstretch], by rw [hstretch]⟩

end Tampered

/-! ### After a run of syncs -/

variable (ipfs c log_key) in
/-- The entry stands for a batch that is not empty. -/
def Full (s : S) (entry : ChunkManifestEntry) : Prop :=
  ∃ chunk batch, downloadChunk ipfs c s entry.cid = .ok chunk ∧
    decryptChunk c chunk log_key = .ok batch ∧ batch ≠ []

theorem Full.kept {s s' : S} {entry : ChunkManifestEntry} (h : Full ipfs c log_key s entry)
    (hkept : ipfs.Keeps s s') : Full ipfs c log_key s' entry := by
  obtain ⟨chunk, batch, hdownload, hdecrypt, hne⟩ := h
  exact ⟨chunk, batch, downloadChunk_kept hkept hdownload, hdecrypt, hne⟩

theorem full_of_run (hc : c.RoundTrips) (hipfs : ipfs.RoundTrips) {t : Local S}
    (hempty : t.manifest.entries = []) {h : List (Synced S × SyncCall)} {s : Synced S}
    (hrun : Run (syncStep ipfs c log_key) ⟨t, none⟩ h s) :
    ∀ e ∈ s.at_hand.manifest.entries, Full ipfs c log_key s.at_hand.ipfs e := by
  refine hrun.invariant
    (P := fun s => ∀ e ∈ s.at_hand.manifest.entries, Full ipfs c log_key s.at_hand.ipfs e) ?_ ?_
  · intro e he
    have he : e ∈ t.manifest.entries := he
    rw [hempty] at he
    exact absurd he List.not_mem_nil
  · intro s call s' hs hstep
    rw [syncStep] at hstep
    split at hstep
    · next cids t hsync =>
      obtain rfl := Except.ok.inj hstep
      obtain ⟨chunk, s₁, hchunk, hupload, hmanifest, hlast⟩ := returns_syncChunkToIpfs hsync
      intro e he
      have he : e ∈ t.manifest.entries := he
      rw [hmanifest] at he
      rcases List.mem_append.mp he with he | he
      · exact ((hs e he).kept (hipfs.keeps hupload)).kept (hipfs.keeps hlast)
      · rw [List.mem_singleton.mp he]
        refine ⟨chunk, call.entries, downloadChunk_kept (hipfs.keeps hlast)
          (downloadChunk_uploaded hc hipfs hupload), decryptChunk_buildChunk hc hchunk, ?_⟩
        intro hnil
        obtain ⟨first, hfirst, -⟩ := bind_eq_ok.mp hchunk
        rw [hnil] at hfirst
        exact absurd (orErr_eq_ok.mp hfirst) (by simp)
    · exact absurd hstep (by simp)

theorem restore_eq_ok {cid : String} {s : S} {restored : List TransactionEntry} :
    restoreFromIpfs ipfs c cid log_key s = .ok restored ↔
      ∃ manifest r, downloadManifest ipfs c s cid = .ok manifest ∧
        (sortByChunkId manifest.entries).foldlM (restoreChunk ipfs c log_key s) ⟨[], none⟩ = .ok r ∧
        sortByNonce r.all_entries = restored := by
  rw [restoreFromIpfs, bind_eq_ok]
  refine exists_congr fun manifest => ?_
  constructor
  · rintro ⟨hmanifest, h⟩
    obtain ⟨r, hr, h⟩ := bind_eq_ok.mp h
    exact ⟨r, hmanifest, hr, Except.ok.inj h⟩
  · rintro ⟨r, hmanifest, hr, rfl⟩
    exact ⟨hmanifest, bind_eq_ok.mpr ⟨r, hr, rfl⟩⟩

theorem restore_tampered (hc : c.RoundTrips) (hipfs : ipfs.RoundTrips) {t : Local S}
    (hempty : t.manifest.entries = []) {h : List (Synced S × SyncCall)} {s : Synced S}
    (hrun : Run (syncStep ipfs c log_key) ⟨t, none⟩ h s)
    (hchained : ∀ call ∈ h, Chained ipfs c call.1 call.2)
    {s' : S} (hkept : ipfs.Keeps s.at_hand.ipfs s') {cid' : String} {manifest' : ChunkManifest}
    (hmanifest' : downloadManifest ipfs c s' cid' = .ok manifest')
    (hfree : Sha256.CollisionFree c.sha256
      (encodings ipfs c s' (s.at_hand.manifest.entries ++ manifest'.entries)))
    {restored : List TransactionEntry}
    (haccepted : restoreFromIpfs ipfs c cid' log_key s' = .ok restored) :
    (Pinned ipfs c s' s.at_hand.manifest manifest' →
      StablySorted TransactionEntry.nonce (h.reverse.flatMap fun call => call.2.entries) restored) ∧
    ((∀ e ∈ manifest'.entries, Foreign ipfs c log_key s' s.at_hand.manifest
        (h.reverse.flatMap fun call => call.2.entries) e) →
      (∀ first ∈ s.at_hand.manifest.entries.head?, ∀ e ∈ s.at_hand.manifest.entries, ∀ k k',
        downloadChunk ipfs c s' first.cid = .ok k → downloadChunk ipfs c s' e.cid = .ok k' →
        ¬ Follows c k' k) →
      StablySorted TransactionEntry.nonce (h.reverse.flatMap fun call => call.2.entries) restored →
      Pinned ipfs c s' s.at_hand.manifest manifest') := by
  have hholds := holds_of_run hc hipfs hempty hrun hchained
  obtain ⟨links, hreads, hentries, -⟩ := exists_links (restoreChunks_kept hkept hholds.restored)
  obtain ⟨manifest'', r, hmanifest, hrounds, rfl⟩ := restore_eq_ok.mp haccepted
  obtain rfl := Except.ok.inj (hmanifest'.symm.trans hmanifest)
  obtain ⟨links', hreads', hentries', -⟩ := exists_links hrounds
  have hall : (h.reverse.flatMap fun call => call.2.entries) = links.flatMap Link.batch := hentries
  constructor
  · intro hpinned
    rw [hentries', entries_eq_of_pinned hc hfree hreads hreads' hpinned, hall]
    exact stablySorted_sortByNonce _
  · intro hforeign hroot hsorted
    have hperm : (links'.flatMap Link.batch).Perm (links.flatMap Link.batch) := by
      rw [← hentries', ← hall]
      exact (stablySorted_sortByNonce r.all_entries).perm.symm.trans hsorted.perm
    refine pinned_of_perm hc hfree hreads hreads' ?_ ?_ ?_ hperm
    · intro k hk
      obtain ⟨l, hl, rfl⟩ := List.mem_map.mp hk
      obtain ⟨chunk, batch, hdownload, hdecrypt, hne⟩ :=
        (full_of_run hc hipfs hempty hrun l.entry (hreads.entries ▸ List.mem_map_of_mem hl)).kept hkept
      obtain rfl := Except.ok.inj ((hreads.valid l hl).download.symm.trans hdownload)
      rw [batchOf, hdecrypt]
      exact hne
    · intro first hfirst k hk
      rw [List.head?_map] at hfirst
      obtain ⟨l, hl, rfl⟩ := Option.map_eq_some_iff.mp hfirst
      obtain ⟨l', hl', rfl⟩ := List.mem_map.mp hk
      have hl₁ := List.mem_of_mem_head? hl
      refine hroot l.entry ?_ l'.entry (hreads.entries ▸ List.mem_map_of_mem hl') _ _
        (hreads.valid l hl₁).download (hreads.valid l' hl').download
      rw [← hreads.entries, List.head?_map, hl]
      rfl
    · -- An entry that the log does not have would have been restored.
      intro e he
      rcases hforeign e he with hmem | ⟨chunk, batch, hdownload, hdecrypt, x, hx, hnot⟩
      · exact hmem
      · have hentry : e ∈ links'.map Link.entry := hreads'.entries ▸ List.mem_mergeSort.mpr he
        obtain ⟨l', hl', rfl⟩ := List.mem_map.mp hentry
        obtain rfl := Except.ok.inj ((hreads'.valid l' hl').download.symm.trans hdownload)
        obtain rfl := Except.ok.inj ((hreads'.valid l' hl').decrypt.symm.trans hdecrypt)
        rw [hall] at hnot
        exact absurd (hperm.mem_iff.mp (List.mem_flatMap.mpr ⟨l', hl', hx⟩)) hnot

/-! ### An earlier manifest -/

theorem keeps_of_run (hipfs : ipfs.RoundTrips) {s₁ s : Synced S} {h : List (Synced S × SyncCall)}
    (hrun : Run (syncStep ipfs c log_key) s₁ h s) : ipfs.Keeps s₁.at_hand.ipfs s.at_hand.ipfs := by
  refine hrun.invariant (P := fun s => ipfs.Keeps s₁.at_hand.ipfs s.at_hand.ipfs)
    (fun _ _ hdata => hdata) fun s call s' hs hstep cid data hdata => ?_
  rw [syncStep] at hstep
  split at hstep
  · next cids t hsync =>
    obtain rfl := Except.ok.inj hstep
    obtain ⟨chunk, s₂, -, hupload, -, hlast⟩ := returns_syncChunkToIpfs hsync
    exact hipfs.keeps hlast cid data (hipfs.keeps hupload cid data (hs cid data hdata))
  · exact absurd hstep (by simp)

/-- The manifest of an earlier sync is still restored, to what it held: that later entries were
dropped is not noticed. -/
theorem restore_earlier (hc : c.RoundTrips) (hipfs : ipfs.RoundTrips) {t : Local S}
    (hempty : t.manifest.entries = []) {h₁ h : List (Synced S × SyncCall)} {s₁ s : Synced S} {cid : String}
    (hbefore : Run (syncStep ipfs c log_key) ⟨t, none⟩ h₁ s₁)
    (hchained : ∀ call ∈ h₁, Chained ipfs c call.1 call.2) (hcid : s₁.manifest_cid = some cid)
    (hafter : Run (syncStep ipfs c log_key) s₁ h s) :
    downloadManifest ipfs c s.at_hand.ipfs cid = .ok s₁.at_hand.manifest ∧
    restoreFromIpfs ipfs c cid log_key s.at_hand.ipfs =
      .ok (sortByNonce (h₁.reverse.flatMap fun call => call.2.entries)) := by
  have hholds := holds_of_run hc hipfs hempty hbefore hchained
  have hkept := keeps_of_run hipfs hafter
  have hmanifest : downloadManifest ipfs c s.at_hand.ipfs cid = .ok s₁.at_hand.manifest := by
    obtain ⟨bytes, hbytes, hdecode⟩ := bind_eq_ok.mp (hholds.manifest cid hcid)
    exact bind_eq_ok.mpr ⟨bytes, failedWith_eq_ok.mpr (hkept _ _ (failedWith_eq_ok.mp hbytes)), hdecode⟩
  have hrounds := restoreChunks_kept hkept hholds.restored
  rw [← sortByChunkId_of_perm hholds.ids (List.Perm.refl _)] at hrounds
  exact ⟨hmanifest, restore_eq_ok.mpr ⟨_, _, hmanifest, hrounds, rfl⟩⟩

end

namespace Sample

/-- The hash of the first of the two chunks. -/
def firstHash : Bytes 32 :=
  match buildChunk library first.config first.entries key first.iv with
  | .ok chunk => chunkHash library chunk
  | .error _ => Bytes.fill 32 0

def hashes (s : MockIpfs) (entries : List ChunkManifestEntry) : List (Option (Bytes 32)) :=
  entries.map fun e => (downloadChunk mock library s e.cid).toOption.map (chunkHash library)

/-- `Chained`, as a test. -/
def isChained (s : Synced MockIpfs) (call : SyncCall) : Bool :=
  s.at_hand.manifest.entries.getLast?.all fun e =>
    decide (e.chunk_id < call.config.chunk_id) &&
      (downloadChunk mock library s.at_hand.ipfs e.cid).toOption.any fun chunk =>
        decide (call.config.prev_chunk_hash = chunkHash library chunk)

theorem chained_of_isChained {s : Synced MockIpfs} {call : SyncCall} (h : isChained s call = true) :
    Chained mock library s call := by
  intro e he
  rw [isChained, he] at h
  obtain ⟨hid, hhash⟩ := Bool.and_eq_true_iff.mp h
  rcases hchunk : downloadChunk mock library s.at_hand.ipfs e.cid with error | chunk
  · rw [hchunk] at hhash
    exact absurd hhash (by simp [Except.toOption])
  · rw [hchunk] at hhash
    exact ⟨of_decide_eq_true hid, chunk, rfl, of_decide_eq_true hhash⟩

theorem collisionFree_of_hashes {s : MockIpfs} {entries entries' : List ChunkManifestEntry}
    (h : (hashes s entries).Nodup) (hsub : ∀ e ∈ entries', e ∈ entries) :
    Sha256.CollisionFree library.sha256 (encodings mock library s (entries ++ entries')) := by
  rintro b ⟨e, he, chunk, hchunk, rfl⟩ b' ⟨e', he', chunk', hchunk', rfl⟩ hsha
  have hall : ∀ e ∈ entries ++ entries', e ∈ entries := fun e he =>
    (List.mem_append.mp he).elim id (hsub e)
  have hhash : (downloadChunk mock library s e.cid).toOption.map (chunkHash library) =
      (downloadChunk mock library s e'.cid).toOption.map (chunkHash library) := by
    rw [hchunk, hchunk']
    exact congrArg some hsha
  obtain rfl := List.inj_on_of_nodup_map h (hall e he) (hall e' he') hhash
  obtain rfl := Except.ok.inj (hchunk.symm.trans hchunk')
  rfl

/-- Two syncs, the second chained to the first. -/
theorem exists_two : ∃ s₁ s, syncStep mock library key first ⟨start, none⟩ = .ok s₁ ∧
    syncStep mock library key (second firstHash) s₁ = .ok s ∧ isChained s₁ (second firstHash) = true ∧
    (hashes s.at_hand.ipfs s.at_hand.manifest.entries).Nodup := by
  have htest : (syncStep mock library key first ⟨start, none⟩).toOption.any (fun s₁ =>
      (syncStep mock library key (second firstHash) s₁).toOption.any (fun s =>
        isChained s₁ (second firstHash) &&
          decide (hashes s.at_hand.ipfs s.at_hand.manifest.entries).Nodup)) = true := by decide +kernel
  obtain ⟨s₁, hs₁, htest⟩ := exists_of_any htest
  obtain ⟨s, hs, htest⟩ := exists_of_any htest
  obtain ⟨hchained, hnodup⟩ := Bool.and_eq_true_iff.mp htest
  exact ⟨s₁, s, hs₁, hs, hchained, of_decide_eq_true hnodup⟩

end Sample

/-- The entries of the manifest in the other order. -/
theorem restore_tampered_reversed : ∃ (s : Synced MockIpfs) (s' : MockIpfs) (manifest' : ChunkManifest)
    (cid' : String) (restored : List TransactionEntry),
    manifest'.entries = s.at_hand.manifest.entries.reverse ∧
    downloadManifest mock Sample.library s' cid' = .ok manifest' ∧
    restoreFromIpfs mock Sample.library cid' Sample.key s' = .ok restored ∧
    StablySorted TransactionEntry.nonce
      [Sample.entry 3 5 5 7, Sample.entry 1 2 7 8, Sample.entry 2 1 8 9] restored := by
  obtain ⟨s₁, s, hs₁, hs, hlink, hnodup⟩ := Sample.exists_two
  have hrun := Run.step (Run.step .start hs₁) hs
  have hchained : ∀ call ∈ [(s₁, Sample.second Sample.firstHash), (⟨Sample.start, none⟩, Sample.first)],
      Chained mock Sample.library call.1 call.2 := by
    intro call hcall
    simp only [List.mem_cons, List.not_mem_nil, or_false] at hcall
    rcases hcall with rfl | rfl
    · exact Sample.chained_of_isChained hlink
    · exact fun e he => absurd he (by simp [Sample.start])
  have hholds := holds_of_run Sample.library_roundTrips mock_roundTrips rfl hrun hchained
  -- The manifest with its entries in reverse, uploaded by someone else.
  let manifest' := { s.at_hand.manifest with entries := s.at_hand.manifest.entries.reverse }
  let s' := s.at_hand.ipfs.put (Sample.library.codec.encodeManifest manifest')
  have hupload := returns_mock_upload (Sample.library.codec.encodeManifest manifest') s.at_hand.ipfs
  have hkept := mock_roundTrips.keeps hupload
  have hmanifest' : downloadManifest mock Sample.library s' _ = .ok manifest' :=
    downloadManifest_uploaded Sample.library_roundTrips mock_roundTrips hupload
  have hsort : sortByChunkId manifest'.entries = s.at_hand.manifest.entries :=
    sortByChunkId_of_perm hholds.ids (List.reverse_perm _)
  have hrounds := restoreChunks_kept hkept hholds.restored
  rw [← hsort] at hrounds
  have haccepted := restore_eq_ok.mpr ⟨_, _, hmanifest', hrounds, rfl⟩
  have hhashes : Sample.hashes s' s.at_hand.manifest.entries =
      Sample.hashes s.at_hand.ipfs s.at_hand.manifest.entries := by
    obtain ⟨links, hreads, -⟩ := exists_links hholds.restored
    refine List.map_congr_left fun e he => ?_
    rw [← hreads.entries] at he
    obtain ⟨l, hl, rfl⟩ := List.mem_map.mp he
    rw [(hreads.valid l hl).download, downloadChunk_kept hkept (hreads.valid l hl).download]
  have hfree : Sha256.CollisionFree Sample.library.sha256
      (encodings mock Sample.library s' (s.at_hand.manifest.entries ++ manifest'.entries)) :=
    Sample.collisionFree_of_hashes (hhashes ▸ hnodup) fun e he => List.mem_reverse.mp he
  have hpinned : Pinned mock Sample.library s' s.at_hand.manifest manifest' :=
    ⟨List.length_reverse, by rw [hsort]⟩
  exact ⟨s, s', manifest', _, _, rfl, hmanifest', haccepted,
    (restore_tampered Sample.library_roundTrips mock_roundTrips rfl hrun hchained hkept hmanifest' hfree
      haccepted).1 hpinned⟩

/-- The last entry of the manifest is dropped, and its chunk disappears. -/
theorem not_restore_tampered : ¬ ∀ (S : Type) (ipfs : Ipfs S) (c : Library) (log_key : Bytes 32),
    c.RoundTrips → ipfs.RoundTrips → ∀ (t : Local S), t.manifest.entries = [] →
    ∀ h s, Run (syncStep ipfs c log_key) ⟨t, none⟩ h s →
    (∀ call ∈ h, Chained ipfs c call.1 call.2) →
    ∀ cid' manifest', downloadManifest ipfs c s.at_hand.ipfs cid' = .ok manifest' →
    manifest'.entries.Sublist s.at_hand.manifest.entries →
    Sha256.CollisionFree c.sha256
      (encodings ipfs c s.at_hand.ipfs (s.at_hand.manifest.entries ++ manifest'.entries)) →
    ∀ restored, restoreFromIpfs ipfs c cid' log_key s.at_hand.ipfs = .ok restored →
    StablySorted TransactionEntry.nonce (h.reverse.flatMap fun call => call.2.entries) restored := by
  intro hall
  obtain ⟨s₁, s, hs₁, hs, hlink, hnodup⟩ := Sample.exists_two
  have hbefore := Run.step .start hs₁
  have hstart : ∀ call ∈ [((⟨Sample.start, none⟩ : Synced MockIpfs), Sample.first)],
      Chained mock Sample.library call.1 call.2 := by
    intro call hcall e he
    obtain rfl := List.mem_singleton.mp hcall
    exact absurd he (by simp [Sample.start])
  have hchained : ∀ call ∈ [(s₁, Sample.second Sample.firstHash), (⟨Sample.start, none⟩, Sample.first)],
      Chained mock Sample.library call.1 call.2 :=
    List.forall_mem_cons.mpr ⟨Sample.chained_of_isChained hlink, hstart⟩
  obtain ⟨cid, hcid⟩ : ∃ cid, s₁.manifest_cid = some cid := by
    rw [syncStep] at hs₁
    split at hs₁
    · obtain rfl := Except.ok.inj hs₁
      exact ⟨_, rfl⟩
    · exact absurd hs₁ (by simp)
  have hsub : s₁.at_hand.manifest.entries.Sublist s.at_hand.manifest.entries := by
    rw [syncStep] at hs
    split at hs
    · next cids t hsync =>
      obtain rfl := Except.ok.inj hs
      obtain ⟨_, _, -, -, hmanifest, -⟩ := returns_syncChunkToIpfs hsync
      show s₁.at_hand.manifest.entries.Sublist t.manifest.entries
      rw [hmanifest]
      exact List.sublist_append_left _ _
    · exact absurd hs (by simp)
  obtain ⟨hmanifest, hrestore⟩ := restore_earlier Sample.library_roundTrips mock_roundTrips rfl hbefore
    hstart hcid (Run.step .start hs)
  have hsorted := hall MockIpfs mock Sample.library Sample.key Sample.library_roundTrips mock_roundTrips
    Sample.start rfl _ s (Run.step hbefore hs) hchained cid _ hmanifest hsub
    (Sample.collisionFree_of_hashes hnodup fun e he => hsub.subset he) _ hrestore
  -- One entry was restored, of three.
  have hlength := hsorted.perm.length_eq
  rw [sortByNonce, List.length_mergeSort] at hlength
  have hlength : 1 = 3 := hlength
  omega

end Audit
