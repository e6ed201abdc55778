/-
What the syncs of the phone's log lose (`ignite_pay_app/rust/src/api/log_store.rs`).

Which entries go into a chunk and which are marked afterwards is decided by two comparisons:
a chunk takes the entries above the highest synced nonce, the mark reaches everything up to
the last nonce of the chunk.  An entry that comes in below is marked without being uploaded;
an entry whose chunk was entered in the manifest by a sync that then failed is uploaded again.

* `Inv` — what the two flags, the manifest and a sync under way have to do with each other;
* `nothing_lost_iff` — the runs in which nothing is marked without a chunk and nothing is in
  two chunks are those whose syncs, when they succeed, mark only their own batch, and take
  nothing that a failed sync has left in the manifest.
-/
import IgnitePay.Audit.LogStore

namespace Audit.LogStore

open Machine

section

variable {S : Type} (ipfs : Ipfs S) (c : Library) (log_key : Bytes 32)

/-! ### The property -/

/-- What is read back for an entry of the manifest. -/
def chunkEntries (n : S) (m : ChunkManifestEntry) : Except LogError (List Audit.TransactionEntry) := do
  let chunk ← downloadChunk ipfs c n m.cid
  decryptChunk c chunk log_key

def holds (n : S) (e : Audit.TransactionEntry) (m : ChunkManifestEntry) : Bool :=
  (chunkEntries ipfs c log_key n m).toOption.any fun entries => entries.contains e

/-- How many chunks of the manifest contain an entry. -/
def chunksWith (s : State S) (e : Audit.TransactionEntry) : ℕ :=
  s.at_hand.manifest.entries.countP (holds ipfs c log_key s.at_hand.ipfs e)

/-- Every entry that is marked as synced is in a chunk of the manifest, and every entry that was
recorded before a sync began that has succeeded is in exactly one. -/
structure Complete (s : State S) : Prop where
  marked : ∀ row ∈ s.transactions, row.synced = true →
    ∃ m ∈ s.at_hand.manifest.entries,
      holds ipfs c log_key s.at_hand.ipfs (phoneEntryToProto row) m = true
  once : ∀ e ∈ s.covered, chunksWith ipfs c log_key s e = 1

/-- The upload of the manifest that is under way goes through. -/
def Uploads (s : State S) : Prop :=
  ∃ cid n, Returns (ipfs.upload (c.codec.encodeManifest s.at_hand.manifest)) s.at_hand.ipfs cid n

/-- An entry is recorded as one that is not synced.  A sync that is to succeed has in its batch
everything that it marks, and nothing that is in a chunk of a sync that failed. -/
def Allowed (s : State S) : Call S → Prop
  | .recordTransaction entry => entry.synced = false
  | .uploadManifest db => ∀ batch began, s.sync = .manifest batch began → db = .ok () →
      Uploads ipfs c s →
      (∀ row ∈ s.transactions, row.synced = false → row.nonce ≤ batch.end_nonce →
        row ∈ batch.phone_entries) ∧
      ∀ row ∈ batch.phone_entries, phoneEntryToProto row ∉ s.stranded
  | _ => True

/-- However IPFS changes, what it has can be downloaded. -/
def Lasting (s : State S) : Call S → Prop
  | .network n => ipfs.Keeps s.at_hand.ipfs n
  | _ => True

/-! ### The invariant -/

/-- An entry comes from the table. -/
def Recorded (s : State S) (e : Audit.TransactionEntry) : Prop :=
  ∃ row ∈ s.transactions, phoneEntryToProto row = e

/-- What a sync has taken from the table is there still. -/
structure Selected (transactions : List TransactionEntry) (batch : Batch)
    (began : List TransactionEntry) : Prop where
  taken : ∀ row ∈ batch.phone_entries, row ∈ transactions ∧ row.synced = false ∧
    lastSyncedNonce transactions < row.nonce ∧ row.nonce ≤ batch.end_nonce
  sub_began : ∀ row ∈ batch.phone_entries, row ∈ began
  began : ∀ row ∈ began, row ∈ transactions ∧ (row.synced = false → row.nonce ≤ batch.end_nonce)

/-- The chunks that an entry is in which is not synced: those of syncs that have failed, and,
from the upload on, the one of the sync that is under way. -/
def Pending (transactions : List TransactionEntry) (count : Audit.TransactionEntry → ℕ)
    (stranded : List Audit.TransactionEntry) : Sync → Prop
  | .idle => ∀ row ∈ transactions, row.synced = false →
      (0 < count (phoneEntryToProto row) ↔ phoneEntryToProto row ∈ stranded) ∧
      (0 < count (phoneEntryToProto row) → lastSyncedNonce transactions < row.nonce)
  | .chunk batch began chunk => Selected transactions batch began ∧
      decryptChunk c chunk log_key = .ok batch.proto_entries ∧
      ∀ row ∈ transactions, row.synced = false →
        (0 < count (phoneEntryToProto row) ↔ phoneEntryToProto row ∈ stranded) ∧
        (0 < count (phoneEntryToProto row) → row ∈ batch.phone_entries)
  | .manifest batch began => Selected transactions batch began ∧
      ∀ row ∈ transactions, row.synced = false →
        (0 < count (phoneEntryToProto row) ↔ row ∈ batch.phone_entries) ∧
        (1 < count (phoneEntryToProto row) ↔ phoneEntryToProto row ∈ stranded)

structure Inv (s : State S) : Prop where
  nodup : (s.transactions.map TransactionEntry.nonce).Nodup
  readable : ∀ m ∈ s.at_hand.manifest.entries, ∃ entries,
    chunkEntries ipfs c log_key s.at_hand.ipfs m = .ok entries ∧ ∀ e ∈ entries, Recorded s e
  stranded : ∀ e ∈ s.stranded, Recorded s e
  covered : ∀ e ∈ s.covered, ∃ row ∈ s.transactions, row.synced = true ∧ phoneEntryToProto row = e
  synced : ∀ row ∈ s.transactions, row.synced = true →
    chunksWith ipfs c log_key s (phoneEntryToProto row) = 1
  pending : Pending c log_key s.transactions (chunksWith ipfs c log_key s) s.stranded s.sync

variable {ipfs c log_key} {s s' : State S} {batch : Batch} {began : List TransactionEntry}

/-! ### Entries and their nonces -/

theorem nonce_eq_of_proto {row row' : TransactionEntry}
    (h : phoneEntryToProto row = phoneEntryToProto row') : row.nonce = row'.nonce := by
  have hcast : row.nonce.toUInt64.toInt64 = row'.nonce.toUInt64.toInt64 :=
    congrArg (fun e : Audit.TransactionEntry => e.nonce.toInt64) h
  rwa [Int64.toInt64_toUInt64, Int64.toInt64_toUInt64] at hcast

theorem proto_markUpTo (n : Int64) (row : TransactionEntry) :
    phoneEntryToProto (markUpTo n row) = phoneEntryToProto row := by
  rw [markUpTo]
  split
  · rfl
  · rfl

theorem nonce_markUpTo (n : Int64) (row : TransactionEntry) : (markUpTo n row).nonce = row.nonce := by
  rw [markUpTo]
  split
  · rfl
  · rfl

theorem synced_markUpTo {n : Int64} {row : TransactionEntry} :
    (markUpTo n row).synced = true ↔ row.synced = true ∨ row.nonce ≤ n := by
  rw [markUpTo]
  split
  · next h => simp [h]
  · next h => simp [h]

/-- The table has one row for a nonce. -/
theorem Inv.row_eq (h : Inv ipfs c log_key s) {row row' : TransactionEntry}
    (hrow : row ∈ s.transactions) (hrow' : row' ∈ s.transactions)
    (hproto : phoneEntryToProto row = phoneEntryToProto row') : row = row' :=
  List.inj_on_of_nodup_map h.nodup hrow hrow' (nonce_eq_of_proto hproto)

theorem mem_proto_entries (h : Inv ipfs c log_key s) (hsel : Selected s.transactions batch began)
    {row : TransactionEntry} (hrow : row ∈ s.transactions) :
    phoneEntryToProto row ∈ batch.proto_entries ↔ row ∈ batch.phone_entries := by
  constructor
  · intro hmem
    obtain ⟨row', hrow', hproto⟩ := List.mem_map.mp hmem
    exact h.row_eq (hsel.taken row' hrow').1 hrow hproto ▸ hrow'
  · exact List.mem_map_of_mem

/-! ### Chunks that contain an entry -/

theorem holds_iff {n : S} {e : Audit.TransactionEntry} {m : ChunkManifestEntry}
    {entries : List Audit.TransactionEntry} (h : chunkEntries ipfs c log_key n m = .ok entries) :
    holds ipfs c log_key n e m = true ↔ e ∈ entries := by
  rw [holds, h]
  exact List.contains_iff_mem

theorem chunkEntries_kept {n n' : S} (hkeeps : ipfs.Keeps n n') {m : ChunkManifestEntry}
    {entries : List Audit.TransactionEntry} (h : chunkEntries ipfs c log_key n m = .ok entries) :
    chunkEntries ipfs c log_key n' m = .ok entries := by
  obtain ⟨chunk, hchunk, hentries⟩ := bind_eq_ok.mp h
  exact bind_eq_ok.mpr ⟨chunk, downloadChunk_kept hkeeps hchunk, hentries⟩

theorem exists_holds_iff {e : Audit.TransactionEntry} :
    (∃ m ∈ s.at_hand.manifest.entries, holds ipfs c log_key s.at_hand.ipfs e m = true) ↔
      0 < chunksWith ipfs c log_key s e :=
  List.countP_pos_iff.symm

/-- No chunk contains what is not in the table. -/
theorem Inv.chunksWith_eq_zero (h : Inv ipfs c log_key s) {e : Audit.TransactionEntry}
    (hnew : ¬ Recorded s e) : chunksWith ipfs c log_key s e = 0 := by
  refine List.countP_eq_zero.mpr fun m hm hholds => ?_
  obtain ⟨entries, hentries, hrecorded⟩ := h.readable m hm
  exact hnew (hrecorded e ((holds_iff hentries).mp hholds))

/-! ### One step -/

/-- A row that is not synced does not change which nonce is the last synced one. -/
theorem lastSyncedNonce_append {transactions : List TransactionEntry} {entry : TransactionEntry}
    (h : entry.synced = false) :
    lastSyncedNonce (transactions ++ [entry]) = lastSyncedNonce transactions := by
  have hfilter : (transactions ++ [entry]).filter TransactionEntry.synced =
      transactions.filter TransactionEntry.synced := by
    rw [List.filter_append, List.filter_cons_of_neg (by simp [h]), List.filter_nil, List.append_nil]
  rw [lastSyncedNonce, hfilter]
  rfl

theorem Selected.append {transactions : List TransactionEntry} {entry : TransactionEntry}
    (h : Selected transactions batch began) (hentry : entry.synced = false) :
    Selected (transactions ++ [entry]) batch began where
  taken row hrow := by
    obtain ⟨hmem, hunsynced, hlast, hend⟩ := h.taken row hrow
    refine ⟨List.mem_append_left _ hmem, hunsynced, ?_, hend⟩
    rwa [lastSyncedNonce_append hentry]
  sub_began := h.sub_began
  began row hrow := ⟨List.mem_append_left _ (h.began row hrow).1, (h.began row hrow).2⟩

/-- A row that is in no chunk and has a new nonce changes nothing for the others. -/
theorem Pending.append {transactions : List TransactionEntry} {count : Audit.TransactionEntry → ℕ}
    {stranded : List Audit.TransactionEntry} {sync : Sync} {entry : TransactionEntry}
    (h : Pending c log_key transactions count stranded sync)
    (hnonce : entry.nonce ∉ transactions.map TransactionEntry.nonce) (hentry : entry.synced = false)
    (hzero : count (phoneEntryToProto entry) = 0) (hstranded : phoneEntryToProto entry ∉ stranded) :
    Pending c log_key (transactions ++ [entry]) count stranded sync := by
  have hnone : ¬ 0 < count (phoneEntryToProto entry) := by omega
  have hnone' : ¬ 1 < count (phoneEntryToProto entry) := by omega
  cases sync with
  | idle =>
    intro row hrow hunsynced
    rw [lastSyncedNonce_append hentry]
    rcases List.mem_append.mp hrow with hrow | hrow
    · exact h row hrow hunsynced
    · rw [List.mem_singleton.mp hrow]
      exact ⟨iff_of_false hnone hstranded, fun hlt => absurd hlt hnone⟩
  | chunk batch began chunk =>
    obtain ⟨hsel, hchunk, h⟩ := h
    refine ⟨hsel.append hentry, hchunk, fun row hrow hunsynced => ?_⟩
    rcases List.mem_append.mp hrow with hrow | hrow
    · exact h row hrow hunsynced
    · rw [List.mem_singleton.mp hrow]
      exact ⟨iff_of_false hnone hstranded, fun hlt => absurd hlt hnone⟩
  | manifest batch began =>
    obtain ⟨hsel, h⟩ := h
    refine ⟨hsel.append hentry, fun row hrow hunsynced => ?_⟩
    rcases List.mem_append.mp hrow with hrow | hrow
    · exact h row hrow hunsynced
    · rw [List.mem_singleton.mp hrow]
      have hout : entry ∉ batch.phone_entries := fun hmem =>
        hnonce (List.mem_map_of_mem (hsel.taken entry hmem).1)
      exact ⟨iff_of_false hnone hout, iff_of_false hnone' hstranded⟩

theorem not_recorded {entry : TransactionEntry}
    (hnonce : entry.nonce ∉ s.transactions.map TransactionEntry.nonce) :
    ¬ Recorded s (phoneEntryToProto entry) := by
  rintro ⟨row, hrow, hproto⟩
  exact hnonce (nonce_eq_of_proto hproto ▸ List.mem_map_of_mem hrow)

theorem Inv.record (h : Inv ipfs c log_key s) {entry : TransactionEntry}
    (hnonce : entry.nonce ∉ s.transactions.map TransactionEntry.nonce)
    (hentry : entry.synced = false) :
    Inv ipfs c log_key { s with transactions := s.transactions ++ [entry] } := by
  have hrecorded : ∀ e, Recorded s e →
      Recorded { s with transactions := s.transactions ++ [entry] } e :=
    fun e ⟨row, hrow, hproto⟩ => ⟨row, List.mem_append_left _ hrow, hproto⟩
  constructor
  · show ((s.transactions ++ [entry]).map TransactionEntry.nonce).Nodup
    rw [List.map_append, List.nodup_append]
    refine ⟨h.nodup, List.nodup_singleton _, fun a ha b hb hab => ?_⟩
    rw [List.mem_singleton.mp hb] at hab
    exact hnonce (hab ▸ ha)
  · intro m hm
    obtain ⟨entries, hentries, hall⟩ := h.readable m hm
    exact ⟨entries, hentries, fun e he => hrecorded e (hall e he)⟩
  · exact fun e he => hrecorded e (h.stranded e he)
  · intro e he
    obtain ⟨row, hrow, hsynced⟩ := h.covered e he
    exact ⟨row, List.mem_append_left _ hrow, hsynced⟩
  · intro row hrow hsynced
    rcases List.mem_append.mp hrow with hrow | hrow
    · exact h.synced row hrow hsynced
    · rw [List.mem_singleton.mp hrow, hentry] at hsynced
      exact absurd hsynced (by simp)
  · exact h.pending.append hnonce hentry (h.chunksWith_eq_zero (not_recorded hnonce)) fun hmem =>
      not_recorded hnonce (h.stranded _ hmem)

/-- IPFS has what it had. -/
theorem Inv.reach (h : Inv ipfs c log_key s) {n : S} (hkeeps : ipfs.Keeps s.at_hand.ipfs n) :
    Inv ipfs c log_key { s with at_hand := { s.at_hand with ipfs := n } } := by
  have hcount : ∀ e, chunksWith ipfs c log_key { s with at_hand := { s.at_hand with ipfs := n } } e =
      chunksWith ipfs c log_key s e := by
    intro e
    refine List.countP_congr fun m hm => ?_
    obtain ⟨entries, hentries, -⟩ := h.readable m hm
    show holds ipfs c log_key n e m = true ↔ _
    rw [holds_iff (chunkEntries_kept hkeeps hentries), holds_iff hentries]
  constructor
  · exact h.nodup
  · intro m hm
    obtain ⟨entries, hentries, hall⟩ := h.readable m hm
    exact ⟨entries, chunkEntries_kept hkeeps hentries, hall⟩
  · exact h.stranded
  · exact h.covered
  · intro row hrow hsynced
    rw [hcount]
    exact h.synced row hrow hsynced
  · rw [funext hcount]
    exact h.pending

/-- A sync that begins takes every entry that is in a chunk and not synced: its nonce is above
the last synced one. -/
theorem Inv.begin (hc : c.RoundTrips) (h : Inv ipfs c log_key s) (hidle : s.sync = .idle)
    {user_did provider_did : String} {iv : Bytes 12} {chunk : LogChunk}
    (hbatch : selectBatch user_did provider_did s.transactions s.at_hand.manifest = .ok batch)
    (hchunk : buildChunk c batch.config batch.proto_entries log_key iv = .ok chunk) :
    Inv ipfs c log_key { s with sync := .chunk batch s.transactions chunk } := by
  obtain ⟨hmem, hne, hend⟩ := selectBatch_eq_ok hbatch
  have hpending := h.pending
  rw [hidle] at hpending
  refine { h with pending := ⟨?_, decryptChunk_buildChunk hc hchunk, ?_⟩ }
  · refine ⟨fun row hrow => ?_, fun row hrow => ((hmem row).mp hrow).1, fun row hrow => ⟨hrow, ?_⟩⟩
    · obtain ⟨htable, hunsynced, hlast⟩ := (hmem row).mp hrow
      exact ⟨htable, hunsynced, hlast, hend row hrow⟩
    · intro hunsynced
      by_cases hlast : lastSyncedNonce s.transactions < row.nonce
      · exact hend row ((hmem row).mpr ⟨hrow, hunsynced, hlast⟩)
      · -- Below the last synced nonce, and so below every entry of the batch.
        obtain ⟨first, hfirst⟩ := List.exists_mem_of_ne_nil _ hne
        have habove := ((hmem first).mp hfirst).2.2
        exact Int64.le_trans (Int64.not_lt.mp hlast)
          (Int64.le_trans (Int64.le_of_lt habove) (hend first hfirst))
  · intro row hrow hunsynced
    obtain ⟨hstranded, hlast⟩ := hpending row hrow hunsynced
    exact ⟨hstranded, fun hpos => (hmem row).mpr ⟨hrow, hunsynced, hlast hpos⟩⟩

/-- A sync that ends before its chunk is in the manifest. -/
theorem Inv.abandon (h : Inv ipfs c log_key s) {chunk : LogChunk}
    (hsync : s.sync = .chunk batch began chunk) : Inv ipfs c log_key { s with sync := .idle } := by
  have hpending := h.pending
  rw [hsync] at hpending
  obtain ⟨hsel, -, hpending⟩ := hpending
  refine { h with pending := fun row hrow hunsynced => ?_ }
  obtain ⟨hstranded, hbatch⟩ := hpending row hrow hunsynced
  exact ⟨hstranded, fun hpos => (hsel.taken row (hbatch hpos)).2.2.1⟩

theorem chunksWith_enter {chunk : LogChunk} {cid : String} (e : Audit.TransactionEntry)
    (hentries : chunkEntries ipfs c log_key s.at_hand.ipfs
      ⟨batch.config.chunk_id, cid, (chunkHash c chunk).val, chunk.merkle_root⟩ =
        .ok batch.proto_entries) :
    chunksWith ipfs c log_key (s.enter c batch began chunk cid s.at_hand) e =
      chunksWith ipfs c log_key s e + if e ∈ batch.proto_entries then 1 else 0 := by
  show List.countP _ (s.at_hand.manifest.entries ++ [_]) = _
  rw [List.countP_append, List.countP_singleton]
  congr 1
  exact if_congr (holds_iff hentries) rfl rfl

/-- The chunk of a sync enters the manifest.  It holds nothing that is synced. -/
theorem Inv.enter (h : Inv ipfs c log_key s) {chunk : LogChunk} {cid : String}
    (hsync : s.sync = .chunk batch began chunk)
    (hdownload : downloadChunk ipfs c s.at_hand.ipfs cid = .ok chunk) :
    Inv ipfs c log_key (s.enter c batch began chunk cid s.at_hand) := by
  have hpending := h.pending
  rw [hsync] at hpending
  obtain ⟨hsel, hchunk, hpending⟩ := hpending
  have hentries : chunkEntries ipfs c log_key s.at_hand.ipfs
      ⟨batch.config.chunk_id, cid, (chunkHash c chunk).val, chunk.merkle_root⟩ =
        .ok batch.proto_entries := bind_eq_ok.mpr ⟨chunk, hdownload, hchunk⟩
  have hcount : ∀ row ∈ s.transactions,
      chunksWith ipfs c log_key (s.enter c batch began chunk cid s.at_hand) (phoneEntryToProto row) =
        chunksWith ipfs c log_key s (phoneEntryToProto row) +
          if row ∈ batch.phone_entries then 1 else 0 := by
    intro row hrow
    rw [chunksWith_enter _ hentries]
    congr 1
    exact if_congr (mem_proto_entries h hsel hrow) rfl rfl
  refine { h with readable := ?_, synced := ?_, pending := ⟨hsel, ?_⟩ }
  · intro m hm
    rcases List.mem_append.mp hm with hm | hm
    · exact h.readable m hm
    · rw [List.mem_singleton.mp hm]
      refine ⟨_, hentries, fun e he => ?_⟩
      obtain ⟨row, hrow, rfl⟩ := List.mem_map.mp he
      exact ⟨row, (hsel.taken row hrow).1, rfl⟩
  · intro row hrow hsynced
    have hout : row ∉ batch.phone_entries := by
      intro hmem
      rw [(hsel.taken row hmem).2.1] at hsynced
      exact absurd hsynced (by simp)
    rw [hcount row hrow, if_neg hout]
    exact h.synced row hrow hsynced
  · intro row hrow hunsynced
    obtain ⟨hstranded, hbatch⟩ := hpending row hrow hunsynced
    rw [hcount row hrow]
    show (_ ↔ _) ∧ (_ ↔ phoneEntryToProto row ∈ s.stranded)
    by_cases hmem : row ∈ batch.phone_entries
    · rw [if_pos hmem, ← hstranded]
      exact ⟨iff_of_true (by omega) hmem, by omega⟩
    · have hzero : ¬ 0 < chunksWith ipfs c log_key s (phoneEntryToProto row) := fun hpos =>
        hmem (hbatch hpos)
      rw [if_neg hmem, ← hstranded]
      exact ⟨iff_of_false (by omega) hmem, by omega⟩

/-- A sync fails with its chunk in the manifest: the entries of the chunk, which are not synced,
are there to be taken again. -/
theorem Inv.strand (h : Inv ipfs c log_key s) (hsync : s.sync = .manifest batch began) :
    Inv ipfs c log_key (s.strand batch) := by
  have hpending := h.pending
  rw [hsync] at hpending
  obtain ⟨hsel, hpending⟩ := hpending
  refine { h with stranded := ?_, pending := ?_ }
  · intro e he
    rcases List.mem_append.mp he with he | he
    · obtain ⟨row, hrow, rfl⟩ := List.mem_map.mp he
      exact ⟨row, (hsel.taken row hrow).1, rfl⟩
    · exact h.stranded e he
  · intro row hrow hunsynced
    obtain ⟨hbatch, htwice⟩ := hpending row hrow hunsynced
    show (0 < chunksWith ipfs c log_key s (phoneEntryToProto row) ↔
        phoneEntryToProto row ∈ batch.proto_entries ++ s.stranded) ∧
      (0 < chunksWith ipfs c log_key s (phoneEntryToProto row) → _)
    refine ⟨?_, fun hpos => (hsel.taken row (hbatch.mp hpos)).2.2.1⟩
    rw [List.mem_append, mem_proto_entries h hsel hrow, ← hbatch, ← htwice]
    omega

/-- A sync succeeds, with everything that it marks in its batch and nothing in its batch that is
in another chunk. -/
theorem Inv.finish (h : Inv ipfs c log_key s) (hsync : s.sync = .manifest batch began)
    (hmarks : ∀ row ∈ s.transactions, row.synced = false → row.nonce ≤ batch.end_nonce →
      row ∈ batch.phone_entries)
    (hapart : ∀ row ∈ batch.phone_entries, phoneEntryToProto row ∉ s.stranded) :
    Inv ipfs c log_key (s.finish batch began) := by
  have hpending := h.pending
  rw [hsync] at hpending
  obtain ⟨hsel, hpending⟩ := hpending
  have hrecorded : ∀ e, Recorded s e → Recorded (s.finish batch began) e := by
    rintro e ⟨row, hrow, rfl⟩
    exact ⟨_, List.mem_map_of_mem hrow, proto_markUpTo _ row⟩
  have honce : ∀ row ∈ s.transactions, row.synced = true ∨ row.nonce ≤ batch.end_nonce →
      chunksWith ipfs c log_key s (phoneEntryToProto row) = 1 := by
    intro row hrow hmarked
    rcases hflag : row.synced with _ | _
    · have hmem := hmarks row hrow hflag (hmarked.resolve_left (by simp [hflag]))
      obtain ⟨hbatch, htwice⟩ := hpending row hrow hflag
      have hpos := hbatch.mpr hmem
      have hnot := mt htwice.mp (hapart row hmem)
      omega
    · exact h.synced row hrow hflag
  constructor
  · show ((s.transactions.map (markUpTo batch.end_nonce)).map TransactionEntry.nonce).Nodup
    have hnonces : TransactionEntry.nonce ∘ markUpTo batch.end_nonce = TransactionEntry.nonce :=
      funext (nonce_markUpTo batch.end_nonce)
    rw [List.map_map, hnonces]
    exact h.nodup
  · intro m hm
    obtain ⟨entries, hentries, hall⟩ := h.readable m hm
    exact ⟨entries, hentries, fun e he => hrecorded e (hall e he)⟩
  · exact fun e he => hrecorded e (h.stranded e he)
  · intro e he
    rcases List.mem_append.mp he with he | he
    · obtain ⟨row, hrow, rfl⟩ := List.mem_map.mp he
      obtain ⟨htable, hend⟩ := hsel.began row hrow
      refine ⟨_, List.mem_map_of_mem htable, synced_markUpTo.mpr ?_, proto_markUpTo _ row⟩
      rcases hflag : row.synced with _ | _
      · exact .inr (hend hflag)
      · exact .inl rfl
    · obtain ⟨row, hrow, hsynced, rfl⟩ := h.covered e he
      exact ⟨_, List.mem_map_of_mem hrow, synced_markUpTo.mpr (.inl hsynced), proto_markUpTo _ row⟩
  · intro marked hmarked hsynced
    obtain ⟨row, hrow, rfl⟩ := List.mem_map.mp hmarked
    rw [proto_markUpTo]
    exact honce row hrow (synced_markUpTo.mp hsynced)
  · intro marked hmarked hunsynced
    obtain ⟨row, hrow, rfl⟩ := List.mem_map.mp hmarked
    -- What is left unmarked lies above the batch, and so is in no chunk.
    have hnot : ¬ (row.synced = true ∨ row.nonce ≤ batch.end_nonce) := by
      rw [← synced_markUpTo, hunsynced]
      simp
    obtain ⟨hflag, habove⟩ := not_or.mp hnot
    obtain ⟨hbatch, htwice⟩ := hpending row hrow (by simpa using hflag)
    have hzero : ¬ 0 < chunksWith ipfs c log_key s (phoneEntryToProto row) := fun hpos =>
      habove (hsel.taken row (hbatch.mp hpos)).2.2.2
    rw [proto_markUpTo]
    show (0 < chunksWith ipfs c log_key s (phoneEntryToProto row) ↔
        phoneEntryToProto row ∈ s.stranded) ∧
      (0 < chunksWith ipfs c log_key s (phoneEntryToProto row) → _)
    exact ⟨iff_of_false hzero (by rw [← htwice]; omega), fun hpos => absurd hpos hzero⟩

theorem Inv.complete (h : Inv ipfs c log_key s) : Complete ipfs c log_key s where
  marked row hrow hsynced := by
    refine exists_holds_iff.mpr ?_
    have := h.synced row hrow hsynced
    omega
  once e he := by
    obtain ⟨row, hrow, hsynced, rfl⟩ := h.covered e he
    exact h.synced row hrow hsynced

theorem Inv.step (hc : c.RoundTrips) (hipfs : ipfs.Durable) (h : Inv ipfs c log_key s) {call : Call S}
    (hlasting : Lasting ipfs s call) (hallowed : Allowed ipfs c s call)
    (hexec : exec ipfs c log_key call s = .ok s') : Inv ipfs c log_key s' := by
  cases call with
  | recordTransaction entry =>
    obtain ⟨hnonce, rfl⟩ := recordTransaction_eq_ok.mp hexec
    exact h.record hnonce hallowed
  | beginSync user_did provider_did iv =>
    obtain ⟨hidle, batch, chunk, hbatch, hchunk, rfl⟩ := beginSync_eq_ok hexec
    exact h.begin hc hidle hbatch hchunk
  | uploadChunk =>
    obtain ⟨batch, began, chunk, hsync, ⟨cid, n, hn, rfl⟩ | ⟨e, n, hn, rfl⟩⟩ := uploadChunk_eq_ok hexec
    · exact (h.reach (hipfs.toRoundTrips.keeps hn)).enter hsync
        (downloadChunk_uploaded hc hipfs.toRoundTrips hn)
    · exact (h.reach (hipfs.failed hn)).abandon hsync
  | uploadManifest db =>
    obtain ⟨batch, began, n, hsync, ⟨cid, hn, hdb, rfl⟩ | ⟨hfails, rfl⟩⟩ := uploadManifest_eq_ok hexec
    · obtain ⟨hmarks, hapart⟩ := hallowed batch began hsync hdb ⟨cid, n, hn⟩
      exact (h.reach (hipfs.toRoundTrips.keeps hn)).finish hsync hmarks hapart
    · have hkeeps : ipfs.Keeps s.at_hand.ipfs n := by
        rcases hfails with ⟨⟨cid, hn⟩, -⟩ | ⟨e, hn⟩
        · exact hipfs.toRoundTrips.keeps hn
        · exact hipfs.failed hn
      exact (h.reach hkeeps).strand hsync
  | dropSync =>
    rcases dropSync_eq_ok hexec with ⟨batch, began, chunk, hsync, rfl⟩ | ⟨batch, began, hsync, rfl⟩
    · exact h.abandon hsync
    · exact h.strand hsync
  | network n =>
    obtain rfl := Except.ok.inj hexec
    exact h.reach hlasting

/-- A call that leads to a state in which nothing is lost meets the condition. -/
theorem Inv.allowed (hipfs : ipfs.Durable) (h : Inv ipfs c log_key s) {call : Call S}
    (hexec : exec ipfs c log_key call s = .ok s') (hcomplete : Complete ipfs c log_key s') :
    Allowed ipfs c s call := by
  cases call with
  | recordTransaction entry =>
    obtain ⟨hnonce, rfl⟩ := recordTransaction_eq_ok.mp hexec
    have hzero := h.chunksWith_eq_zero (not_recorded hnonce)
    show entry.synced = false
    by_contra hsynced
    have hmarked := hcomplete.marked entry (List.mem_append_right _ (List.mem_singleton_self _))
      (by simpa using hsynced)
    have hpos : 0 < chunksWith ipfs c log_key s (phoneEntryToProto entry) := exists_holds_iff.mp hmarked
    omega
  | uploadManifest db =>
    intro batch began hsync hdb huploads
    obtain ⟨cid, n, hn⟩ := huploads
    obtain ⟨batch', began', n', hsync', ⟨cid', hn', -, rfl⟩ | ⟨hfails, rfl⟩⟩ := uploadManifest_eq_ok hexec
    · obtain ⟨rfl, rfl⟩ := Sync.manifest.inj (hsync'.symm.trans hsync)
      have hreached := h.reach (hipfs.toRoundTrips.keeps hn')
      have hpending := hreached.pending
      dsimp only at hpending
      rw [hsync] at hpending
      obtain ⟨hsel, hpending⟩ := hpending
      constructor
      · intro row hrow hunsynced hend
        have hmarked := hcomplete.marked _ (List.mem_map_of_mem hrow) (synced_markUpTo.mpr (.inr hend))
        rw [proto_markUpTo] at hmarked
        exact (hpending row hrow hunsynced).1.mp (exists_holds_iff.mp hmarked)
      · intro row hrow hstranded
        obtain ⟨htable, hunsynced, -, -⟩ := hsel.taken row hrow
        have honce := hcomplete.once (phoneEntryToProto row)
          (List.mem_append_left _ (List.mem_map_of_mem (hsel.sub_began row hrow)))
        have htwice := (hpending row htable hunsynced).2.mpr hstranded
        exact absurd honce (Nat.ne_of_gt htwice)
    · rcases hfails with ⟨-, hfails⟩ | ⟨e, hfails⟩
      · exact absurd hdb hfails
      · exact absurd hfails hn.not_fails
  | beginSync user_did provider_did iv => exact trivial
  | uploadChunk => exact trivial
  | dropSync => exact trivial
  | network n => exact trivial

theorem inv_start (n : S) (user_did : String) : Inv ipfs c log_key (start n user_did) where
  nodup := List.nodup_nil
  readable _ hm := absurd hm List.not_mem_nil
  stranded _ he := absurd he List.not_mem_nil
  covered _ he := absurd he List.not_mem_nil
  synced _ hrow := absurd hrow List.not_mem_nil
  pending _ hrow := absurd hrow List.not_mem_nil

theorem nothing_lost_iff (hc : c.RoundTrips) (hipfs : ipfs.Durable) {n : S} {user_did : String}
    {h : List (State S × Call S)} (hrun : Run (exec ipfs c log_key) (start n user_did) h s)
    (hlasting : ∀ call ∈ h, Lasting ipfs call.1 call.2) :
    (∀ s' ∈ Run.states h s, Complete ipfs c log_key s') ↔
      ∀ call ∈ h, Allowed ipfs c call.1 call.2 := by
  refine @Run.forall_states_iff_of_invariant _ _ _ _ _ _ _ _ (Inv ipfs c log_key) _ _
    (inv_start n user_did) (fun s hs => hs.complete) ?_ ?_ hrun hlasting
  · exact fun s call s' hs hcall hallowed hexec => hs.step hc hipfs hcall hallowed hexec
  · exact fun s call s' hs hcall hexec hcomplete => hs.allowed hipfs hexec hcomplete

end

/-! ### Three transactions -/

namespace Sample

open Audit.Sample (iv mask mask_mask take_append_tag)

/-- The tags of the two ciphertexts. -/
def tag (n : Bytes 12) : Bytes 16 :=
  if n = iv 1 then Bytes.number 16 0x9022960aec22a83bc788b7ffb4f49376
  else Bytes.number 16 0xd4ba3572c14290932b8c245ea81d2a83

def enciphered (n : Bytes 12) (msg : List UInt8) : List UInt8 := mask n msg ++ (tag n).val

def library : Library where
  __ := Audit.Sample.library
  encrypt _ n _ msg := .ok (enciphered n msg)
  decrypt _ n _ ciphertext :=
    let msg := mask n (ciphertext.take (ciphertext.length - 16))
    if enciphered n msg = ciphertext then .ok msg else .error "aead::Error"

theorem library_roundTrips : library.RoundTrips where
  codec := Audit.Sample.library_roundTrips.codec
  zstd := Audit.Sample.library_roundTrips.zstd
  cipher key n aad msg ciphertext h := by
    obtain rfl := Except.ok.inj h
    have hcore : (enciphered n msg).take ((enciphered n msg).length - 16) = mask n msg :=
      take_append_tag (mask n msg) (tag n)
    show (if enciphered n (mask n ((enciphered n msg).take ((enciphered n msg).length - 16))) =
        enciphered n msg
      then Except.ok (mask n ((enciphered n msg).take ((enciphered n msg).length - 16)))
      else Except.error "aead::Error") = _
    rw [hcore, mask_mask, if_pos rfl]

def transaction (nonce delta_amount cumulative_amount timestamp : Int64) : TransactionEntry :=
  ⟨nonce, delta_amount, cumulative_amount, "", timestamp, "", "", "", false⟩

/-- A sync in which nothing fails. -/
def sync (n : UInt8) : List (Call MockIpfs) := [.beginSync "" "" (iv n), .uploadChunk, .uploadManifest (.ok ())]

/-- `Allowed`, as a test. -/
def isAllowed (s : State MockIpfs) : Call MockIpfs → Bool
  | .recordTransaction entry => !entry.synced
  | .uploadManifest _ =>
    match s.sync with
    | .manifest batch _ =>
      (s.transactions.all fun row => row.synced || decide (batch.end_nonce < row.nonce) ||
        batch.phone_entries.contains row) &&
      batch.phone_entries.all fun row => !s.stranded.contains (phoneEntryToProto row)
    | _ => true
  | _ => true

theorem allowed_of_isAllowed {s : State MockIpfs} {call : Call MockIpfs} (h : isAllowed s call = true) :
    Allowed mock library s call := by
  cases call with
  | recordTransaction entry =>
    show entry.synced = false
    simpa [isAllowed] using h
  | uploadManifest db =>
    intro batch began hsync _ _
    rw [isAllowed, hsync] at h
    obtain ⟨hmarks, hapart⟩ := Bool.and_eq_true_iff.mp h
    constructor
    · intro row hrow hunsynced hend
      have hrow := List.all_eq_true.mp hmarks row hrow
      have hnot : ¬ batch.end_nonce < row.nonce := Int64.not_lt.mpr hend
      simpa [hunsynced, hnot] using hrow
    · intro row hrow
      simpa using List.all_eq_true.mp hapart row hrow
  | beginSync user_did provider_did iv => exact trivial
  | uploadChunk => exact trivial
  | dropSync => exact trivial
  | network n => exact trivial

/-- A call that does not change IPFS by itself. -/
def isLasting : Call MockIpfs → Bool
  | .network _ => false
  | _ => true

theorem lasting_of_isLasting {s : State MockIpfs} {call : Call MockIpfs} (h : isLasting call = true) :
    Lasting mock s call := by
  cases call with
  | network n => exact absurd h (by simp [isLasting])
  | _ => exact trivial

end Sample

/-- One transaction, and a sync. -/
theorem nothing_lost_one : ∃ h s,
    Run (exec mock Sample.library Audit.Sample.key) (start .empty "") h s ∧
    s.transactions = [{ Sample.transaction 2 5 5 7 with synced := true }] ∧
    ∀ s' ∈ Run.states h s, Complete mock Sample.library Audit.Sample.key s' := by
  obtain ⟨h, s, hrun, htest⟩ := @Run.exists_of_record _ _ _ (exec mock Sample.library Audit.Sample.key)
    (start .empty "") (.recordTransaction (Sample.transaction 2 5 5 7) :: Sample.sync 1)
    (fun r => r.1.all (fun call => Sample.isAllowed call.1 call.2 && Sample.isLasting call.2) &&
      decide (r.2.transactions = [{ Sample.transaction 2 5 5 7 with synced := true }]))
    (by decide +kernel)
  obtain ⟨hcalls, hmarked⟩ := Bool.and_eq_true_iff.mp htest
  have hcalls : ∀ call ∈ h, Sample.isAllowed call.1 call.2 = true ∧ Sample.isLasting call.2 = true :=
    fun call hcall => Bool.and_eq_true_iff.mp (List.all_eq_true.mp hcalls call hcall)
  refine ⟨h, s, hrun, of_decide_eq_true hmarked, ?_⟩
  refine (nothing_lost_iff Sample.library_roundTrips mock_durable hrun ?_).mpr ?_
  · exact fun call hcall => Sample.lasting_of_isLasting (hcalls call hcall).2
  · exact fun call hcall => Sample.allowed_of_isAllowed (hcalls call hcall).1

/-- The transactions come in with the nonces 2, 1 and 3, the first is synced before the others
come: 1 is then marked with 3, and was never uploaded. -/
theorem late_entry_lost : ∃ h s,
    Run (exec mock Sample.library Audit.Sample.key) (start .empty "") h s ∧
    h.map Prod.snd = (.recordTransaction (Sample.transaction 2 5 5 7) :: Sample.sync 1 ++
      .recordTransaction (Sample.transaction 1 2 7 8) ::
      .recordTransaction (Sample.transaction 3 1 8 9) :: Sample.sync 2).reverse ∧
    ¬ Complete mock Sample.library Audit.Sample.key s := by
  obtain ⟨h, s, hrun, hcalls, hlost⟩ := @Run.exists_of_test _ _ _
    (exec mock Sample.library Audit.Sample.key) (start .empty "")
    (.recordTransaction (Sample.transaction 2 5 5 7) :: Sample.sync 1 ++
      .recordTransaction (Sample.transaction 1 2 7 8) ::
      .recordTransaction (Sample.transaction 3 1 8 9) :: Sample.sync 2)
    (fun s => (s.transactions.any fun row => row.synced && !s.at_hand.manifest.entries.any
      (holds mock Sample.library Audit.Sample.key s.at_hand.ipfs (phoneEntryToProto row))) = true) _
    (by decide +kernel)
  refine ⟨h, s, hrun, hcalls, fun hcomplete => ?_⟩
  obtain ⟨row, hrow, htest⟩ := List.any_eq_true.mp hlost
  obtain ⟨hsynced, hnone⟩ := Bool.and_eq_true_iff.mp htest
  obtain ⟨m, hm, hholds⟩ := hcomplete.marked row hrow hsynced
  rw [List.any_eq_true.mpr ⟨m, hm, hholds⟩] at hnone
  exact absurd hnone (by simp)

end Audit.LogStore
