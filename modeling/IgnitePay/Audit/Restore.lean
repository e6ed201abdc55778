/-
Restoring the log of the phone (`ignite_pay_app/rust/src/api/log_store.rs`).

`restore_from_ipfs` downloads the entries of a manifest and inserts them into the table one
after the other.  Each insert stands by itself, and an entry whose nonce is in the table
already is refused; so a restore that stops has inserted what came before, and a restore into
a table that has the entries stops at the first.

* `returns_insertAll`, `fails_insertAll` — what the loop of inserts leaves;
* `Sourced` — what is in the chunks comes from the table, whichever syncs have failed;
* `restore_intact_iff` — a restore adds what was recorded; it is never repeatable unless there
  is nothing to restore, and exactly when it stops at the first insert, or not at all, it leaves
  the table as it was when it fails.
-/
import IgnitePay.Audit.NothingLost
import IgnitePay.Audit.Tampering

namespace Audit.LogStore

open Machine

/-! ### The code -/

/-- The second byte of a character of three or four bytes, by the first. -/
def isSecondByte (b b' : UInt8) : Bool :=
  (b = 0xe0 && 0xa0 ≤ b' && b' ≤ 0xbf) || (0xe1 ≤ b && b ≤ 0xec && 0x80 ≤ b' && b' ≤ 0xbf) ||
  (b = 0xed && 0x80 ≤ b' && b' ≤ 0x9f) || (0xee ≤ b && b ≤ 0xef && 0x80 ≤ b' && b' ≤ 0xbf) ||
  (b = 0xf0 && 0x90 ≤ b' && b' ≤ 0xbf) || (0xf1 ≤ b && b ≤ 0xf3 && 0x80 ≤ b' && b' ≤ 0xbf) ||
  (b = 0xf4 && 0x80 ≤ b' && b' ≤ 0x8f)

/-- How many bytes one replacement character stands for, where no character begins: as many as
could begin one. -/
def invalidLength : List UInt8 → ℕ
  | b :: b' :: rest =>
    if isSecondByte b b' then
      match rest with
      | b'' :: _ => if 0xf0 ≤ b ∧ 0x80 ≤ b'' ∧ b'' ≤ 0xbf then 3 else 2
      | [] => 2
    else 1
  | _ => 1

/-- The character that the bytes begin with, and its length. -/
def firstChar (l : List UInt8) : Option (String × ℕ) :=
  [1, 2, 3, 4].findSome? fun n =>
    if n ≤ l.length then (Wire.readText (l.take n)).map fun s => (s, n) else none

/-- The loop over the chunks of a text that is not valid; every round takes a byte at least. -/
def replaceInvalid : ℕ → List UInt8 → String
  | 0, _ => ""
  | _ + 1, [] => ""
  | n + 1, l =>
    match firstChar l with
    | some (s, k) => s ++ replaceInvalid n (l.drop k)
    | none => "\uFFFD" ++ replaceInvalid n (l.drop (invalidLength l))

/-- `String::from_utf8_lossy`. -/
def fromUtf8Lossy (l : List UInt8) : String :=
  match Wire.readText l with
  | some s => s
  | none => replaceInvalid l.length l

/-- Convert a proto entry to a phone entry. -/
def protoEntryToPhone (entry : Audit.TransactionEntry) : TransactionEntry where
  nonce := entry.nonce.toInt64
  delta_amount := entry.delta_amount
  cumulative_amount := entry.cumulative_amount.toInt64
  signature := fromUtf8Lossy entry.signature
  timestamp := entry.timestamp
  service_id := entry.service_id
  payment_id := entry.payment_id
  merchant_did := entry.merchant_did
  synced := true

abbrev Table := List TransactionEntry

/-- `record_transaction`, on the table; `db` is what the database answers to a row that it could
insert. -/
def insertRow (db : Except String Unit) (entry : TransactionEntry) : Method Table LogError Unit := do
  let transactions ← get
  check (entry.nonce ∉ transactions.map TransactionEntry.nonce)
    (.failed "UNIQUE constraint failed: transactions.nonce")
  ofResult (failedWith "" db)
  modify fun t => t ++ [entry]

/-- The loop of inserts, with the answers of the database to one after the other. -/
def insertAll : (ℕ → Except String Unit) → Table → Method Table LogError Unit
  | _, [] => pure ()
  | db, row :: rows => do
    insertRow (db 0) row
    insertAll (fun i => db (i + 1)) rows

section

variable {S : Type} (ipfs : Ipfs S) (c : Library) (log_key : Bytes 32)

/-- Restore all transactions from a manifest. -/
def restoreFromIpfs (manifest_cid : String) (db : ℕ → Except String Unit) (n : S) :
    Method Table LogError Unit := do
  let proto_entries ← ofResult (Audit.restoreFromIpfs ipfs c manifest_cid log_key n)
  insertAll db (proto_entries.map protoEntryToPhone)

end

/-! ### The loop of inserts -/

variable {db : ℕ → Except String Unit} {transactions transactions' rows : Table} {e : LogError}

/-- All rows are inserted: the database takes them, and no nonce is there already or comes
twice. -/
structure Accepted (db : ℕ → Except String Unit) (transactions rows : Table) : Prop where
  answers : ∀ i < rows.length, db i = .ok ()
  distinct : (rows.map TransactionEntry.nonce).Nodup
  new : ∀ row ∈ rows, row.nonce ∉ transactions.map TransactionEntry.nonce

/-- The first row is not inserted. -/
def RefusedFirst (db : ℕ → Except String Unit) (transactions rows : Table) : Prop :=
  ∃ row ∈ rows.head?, row.nonce ∈ transactions.map TransactionEntry.nonce ∨ db 0 ≠ .ok ()

theorem returns_insertRow {answer : Except String Unit} {row : TransactionEntry} {u : Unit} :
    Returns (insertRow answer row) transactions u transactions' ↔
      row.nonce ∉ transactions.map TransactionEntry.nonce ∧ answer = .ok () ∧
        transactions ++ [row] = transactions' := by
  rw [insertRow, returns_get_bind, returns_check_bind, returns_ofResult_bind]
  constructor
  · rintro ⟨hnew, _, hanswer, h⟩
    exact ⟨hnew, failedWith_eq_ok.mp hanswer, returns_modify.mp h⟩
  · rintro ⟨hnew, hanswer, h⟩
    exact ⟨hnew, (), failedWith_eq_ok.mpr hanswer, returns_modify.mpr h⟩

theorem fails_insertRow {answer : Except String Unit} {row : TransactionEntry}
    (h : Fails (insertRow answer row) transactions e transactions') :
    (row.nonce ∈ transactions.map TransactionEntry.nonce ∨ answer ≠ .ok ()) ∧
      transactions' = transactions := by
  rw [insertRow, fails_get_bind, fails_check_bind] at h
  rcases h with ⟨htaken, -, rfl⟩ | ⟨-, h⟩
  · exact ⟨.inl (not_not.mp htaken), rfl⟩
  · cases answer with
    | ok u => exact absurd h fails_modify
    | error text =>
      obtain ⟨-, rfl⟩ := fails_throw.mp ((fails_bind.mp h).resolve_right fun ⟨_, _, hreturns, _⟩ =>
        returns_throw hreturns)
      exact ⟨.inr (by simp), rfl⟩

theorem accepted_cons {row : TransactionEntry} :
    Accepted db transactions (row :: rows) ↔
      (row.nonce ∉ transactions.map TransactionEntry.nonce ∧ db 0 = .ok ()) ∧
        Accepted (fun i => db (i + 1)) (transactions ++ [row]) rows := by
  constructor
  · rintro ⟨hanswers, hdistinct, hnew⟩
    rw [List.map_cons, List.nodup_cons] at hdistinct
    refine ⟨⟨hnew row List.mem_cons_self, hanswers 0 (by simp)⟩, ⟨fun i hi => ?_, hdistinct.2, ?_⟩⟩
    · exact hanswers (i + 1) (by simpa using hi)
    · intro r hr hmem
      rw [List.map_append, List.mem_append] at hmem
      rcases hmem with hmem | hmem
      · exact hnew r (List.mem_cons_of_mem _ hr) hmem
      · have heq : r.nonce = row.nonce := by simpa using hmem
        exact hdistinct.1 (heq ▸ List.mem_map_of_mem hr)
  · rintro ⟨⟨hfirst, hanswer⟩, hanswers, hdistinct, hnew⟩
    refine ⟨fun i hi => ?_, ?_, fun r hr => ?_⟩
    · cases i with
      | zero => exact hanswer
      | succ i => exact hanswers i (by simpa using hi)
    · rw [List.map_cons, List.nodup_cons]
      refine ⟨fun hmem => ?_, hdistinct⟩
      obtain ⟨r, hr, heq⟩ := List.mem_map.mp hmem
      exact hnew r hr (by simp [heq])
    · rcases List.mem_cons.mp hr with rfl | hr
      · exact hfirst
      · intro hmem
        exact hnew r hr (by simp only [List.map_append, List.mem_append]; exact .inl hmem)

/-- The loop ends if all rows can be inserted, and then has added them. -/
theorem returns_insertAll {u : Unit} : Returns (insertAll db rows) transactions u transactions' ↔
    Accepted db transactions rows ∧ transactions ++ rows = transactions' := by
  induction rows generalizing db transactions with
  | nil =>
    rw [insertAll, returns_pure, List.append_nil]
    exact ⟨fun ⟨_, h⟩ => ⟨⟨by simp, by simp, by simp⟩, h⟩, fun ⟨_, h⟩ => ⟨rfl, h⟩⟩
  | cons row rows ih =>
    rw [insertAll, returns_bind, accepted_cons]
    constructor
    · rintro ⟨_, t, hrow, hrest⟩
      obtain ⟨hnew, hanswer, rfl⟩ := returns_insertRow.mp hrow
      obtain ⟨haccepted, rfl⟩ := ih.mp hrest
      exact ⟨⟨⟨hnew, hanswer⟩, haccepted⟩, by rw [List.append_assoc, List.singleton_append]⟩
    · rintro ⟨⟨⟨hnew, hanswer⟩, haccepted⟩, rfl⟩
      refine ⟨(), _, returns_insertRow.mpr ⟨hnew, hanswer, rfl⟩, ih.mpr ⟨haccepted, ?_⟩⟩
      rw [List.append_assoc, List.singleton_append]

/-- A loop that fails leaves what it has inserted. -/
theorem prefix_of_fails (h : Fails (insertAll db rows) transactions e transactions') :
    transactions <+: transactions' := by
  induction rows generalizing db transactions with
  | nil => exact absurd h fails_pure
  | cons row rows ih =>
    rw [insertAll] at h
    rcases fails_bind.mp h with h | ⟨_, t, hrow, h⟩
    · rw [(fails_insertRow h).2]
    · obtain ⟨-, -, rfl⟩ := returns_insertRow.mp hrow
      exact (List.prefix_append _ _).trans (ih h)

/-- It fails without a trace at the first row only. -/
theorem fails_insertAll (h : Fails (insertAll db rows) transactions e transactions') :
    transactions' = transactions ↔ RefusedFirst db transactions rows := by
  cases rows with
  | nil => exact absurd h fails_pure
  | cons row rows =>
    rw [insertAll] at h
    rcases fails_bind.mp h with h | ⟨_, t, hrow, h⟩
    · obtain ⟨hrefused, heq⟩ := fails_insertRow h
      exact ⟨fun _ => ⟨row, rfl, hrefused⟩, fun _ => heq⟩
    · obtain ⟨hnew, hanswer, rfl⟩ := returns_insertRow.mp hrow
      have hlength := (prefix_of_fails h).length_le
      rw [List.length_append, List.length_singleton] at hlength
      constructor
      · rintro rfl
        omega
      · rintro ⟨row', hrow', hrefused⟩
        obtain rfl := Option.some_inj.mp hrow'
        rcases hrefused with htaken | hanswer'
        · exact absurd htaken hnew
        · exact absurd hanswer hanswer'

/-! ### Where the entries of the chunks come from -/

section

variable {S : Type} {ipfs : Ipfs S} {c : Library} {log_key : Bytes 32} {s s' : State S}
  {batch : Batch} {began : List TransactionEntry}

variable (ipfs c log_key) in
/-- A chunk of the manifest, or the one that is being uploaded, holds entries of the table and is
not empty. -/
structure Sourced (s : State S) : Prop where
  readable : ∀ m ∈ s.at_hand.manifest.entries, ∃ entries,
    chunkEntries ipfs c log_key s.at_hand.ipfs m = .ok entries ∧ entries ≠ [] ∧
      ∀ e ∈ entries, Recorded s e
  pending : ∀ batch began chunk, s.sync = .chunk batch began chunk →
    decryptChunk c chunk log_key = .ok batch.proto_entries ∧ batch.proto_entries ≠ [] ∧
      ∀ e ∈ batch.proto_entries, Recorded s e

/-- What does not touch the manifest and loses nothing. -/
theorem Sourced.of_kept (h : Sourced ipfs c log_key s)
    (hkeeps : ipfs.Keeps s.at_hand.ipfs s'.at_hand.ipfs)
    (hmanifest : s'.at_hand.manifest = s.at_hand.manifest)
    (hrecorded : ∀ e, Recorded s e → Recorded s' e)
    (hsync : ∀ batch began chunk, s'.sync = .chunk batch began chunk →
      s.sync = .chunk batch began chunk) : Sourced ipfs c log_key s' where
  readable m hm := by
    rw [hmanifest] at hm
    obtain ⟨entries, hentries, hne, hall⟩ := h.readable m hm
    exact ⟨entries, chunkEntries_kept hkeeps hentries, hne, fun e he => hrecorded e (hall e he)⟩
  pending batch began chunk hchunk := by
    obtain ⟨hdecrypt, hne, hall⟩ := h.pending batch began chunk (hsync batch began chunk hchunk)
    exact ⟨hdecrypt, hne, fun e he => hrecorded e (hall e he)⟩

/-- The chunk that has been uploaded is entered. -/
theorem Sourced.enter (h : Sourced ipfs c log_key s) {chunk : LogChunk} {cid : String} {n : S}
    (hkeeps : ipfs.Keeps s.at_hand.ipfs n) (hsync : s.sync = .chunk batch began chunk)
    (hdownload : downloadChunk ipfs c n cid = .ok chunk) :
    Sourced ipfs c log_key (s.enter c batch began chunk cid { s.at_hand with ipfs := n }) where
  readable m hm := by
    rcases List.mem_append.mp hm with hm | hm
    · obtain ⟨entries, hentries, hne, hall⟩ := h.readable m hm
      exact ⟨entries, chunkEntries_kept hkeeps hentries, hne, hall⟩
    · obtain ⟨hdecrypt, hne, hall⟩ := h.pending batch began chunk hsync
      obtain rfl := List.mem_singleton.mp hm
      exact ⟨_, bind_eq_ok.mpr ⟨chunk, hdownload, hdecrypt⟩, hne, hall⟩
  pending _ _ _ hchunk := absurd hchunk (by simp [State.enter])

theorem Recorded.markSynced {e : Audit.TransactionEntry} (h : Recorded s e) (n : Int64) :
    ∃ row ∈ markSynced n s.transactions, phoneEntryToProto row = e := by
  obtain ⟨row, hrow, hproto⟩ := h
  exact ⟨markUpTo n row, List.mem_map_of_mem hrow, (proto_markUpTo n row).trans hproto⟩

theorem Sourced.step (hc : c.RoundTrips) (hipfs : ipfs.Durable) (h : Sourced ipfs c log_key s)
    {call : Call S} (hlasting : Lasting ipfs s call) (hexec : exec ipfs c log_key call s = .ok s') :
    Sourced ipfs c log_key s' := by
  have hrefl : ipfs.Keeps s.at_hand.ipfs s.at_hand.ipfs := fun _ _ hdata => hdata
  cases call with
  | recordTransaction entry =>
    obtain ⟨-, rfl⟩ := recordTransaction_eq_ok.mp hexec
    refine h.of_kept hrefl rfl (fun e he => ?_) fun _ _ _ hchunk => hchunk
    obtain ⟨row, hrow, hproto⟩ := he
    exact ⟨row, List.mem_append_left _ hrow, hproto⟩
  | beginSync user_did provider_did iv =>
    obtain ⟨-, batch, chunk, hbatch, hchunk, rfl⟩ := beginSync_eq_ok hexec
    obtain ⟨htaken, hne, -⟩ := selectBatch_eq_ok hbatch
    refine ⟨h.readable, fun batch' began' chunk' hsync => ?_⟩
    obtain ⟨rfl, -, rfl⟩ := Sync.chunk.inj hsync
    refine ⟨decryptChunk_buildChunk hc hchunk, fun hnil => hne (List.map_eq_nil_iff.mp hnil), ?_⟩
    intro e he
    obtain ⟨row, hrow, hproto⟩ := List.mem_map.mp he
    exact ⟨row, ((htaken row).mp hrow).1, hproto⟩
  | uploadChunk =>
    obtain ⟨batch, began, chunk, hsync, ⟨cid, n, hn, rfl⟩ | ⟨e, n, hn, rfl⟩⟩ := uploadChunk_eq_ok hexec
    · exact h.enter (hipfs.toRoundTrips.keeps hn) hsync
        (downloadChunk_uploaded hc hipfs.toRoundTrips hn)
    · exact h.of_kept (hipfs.failed hn) rfl (fun e he => he) (by simp)
  | uploadManifest db =>
    obtain ⟨batch, began, n, hsync, ⟨cid, hn, -, rfl⟩ | ⟨hfails, rfl⟩⟩ := uploadManifest_eq_ok hexec
    · exact h.of_kept (hipfs.toRoundTrips.keeps hn) rfl (fun e he => he.markSynced batch.end_nonce)
        (by simp [State.finish])
    · refine h.of_kept ?_ rfl (fun e he => he) (by simp [State.strand])
      rcases hfails with ⟨⟨cid, hn⟩, -⟩ | ⟨e, hn⟩
      · exact hipfs.toRoundTrips.keeps hn
      · exact hipfs.failed hn
  | dropSync =>
    rcases dropSync_eq_ok hexec with ⟨batch, began, chunk, hsync, rfl⟩ | ⟨batch, began, hsync, rfl⟩
    · exact h.of_kept hrefl rfl (fun e he => he) (by simp)
    · exact h.of_kept hrefl rfl (fun e he => he) (by simp [State.strand])
  | network n =>
    obtain rfl := Except.ok.inj hexec
    exact h.of_kept hlasting rfl (fun e he => he) fun _ _ _ hchunk => hchunk

theorem sourced_of_run (hc : c.RoundTrips) (hipfs : ipfs.Durable) {n : S} {user_did : String}
    {h : List (State S × Call S)} (hrun : Run (exec ipfs c log_key) (start n user_did) h s)
    (hlasting : ∀ call ∈ h, Lasting ipfs call.1 call.2) : Sourced ipfs c log_key s := by
  refine hrun.invariant_of (Lasting ipfs) ⟨fun m hm => ?_, fun _ _ _ hchunk => ?_⟩ ?_ hlasting
  · exact absurd hm List.not_mem_nil
  · exact absurd hchunk (by simp [start])
  · exact fun s call s' hs hcall hexec => hs.step hc hipfs hcall hexec

/-! ### What is restored -/

variable (ipfs c log_key) in
/-- The entries of the chunks of a manifest. -/
def contents (n : S) (manifest : ChunkManifest) : List Audit.TransactionEntry :=
  manifest.entries.flatMap fun m => ((chunkEntries ipfs c log_key n m).toOption).getD []

theorem downloadManifest_kept {n n' : S} {cid : String} {manifest : ChunkManifest}
    (hkeeps : ipfs.Keeps n n') (h : downloadManifest ipfs c n cid = .ok manifest) :
    downloadManifest ipfs c n' cid = .ok manifest := by
  obtain ⟨bytes, hbytes, hdecode⟩ := bind_eq_ok.mp h
  exact bind_eq_ok.mpr
    ⟨bytes, failedWith_eq_ok.mpr (hkeeps _ _ (failedWith_eq_ok.mp hbytes)), hdecode⟩

/-- A restore that goes through returns the entries of the chunks. -/
theorem perm_contents {n : S} {cid : String} {manifest : ChunkManifest}
    {proto_entries : List Audit.TransactionEntry}
    (hmanifest : downloadManifest ipfs c n cid = .ok manifest)
    (h : Audit.restoreFromIpfs ipfs c cid log_key n = .ok proto_entries) :
    proto_entries.Perm (contents ipfs c log_key n manifest) := by
  obtain ⟨manifest', hmanifest', h⟩ := bind_eq_ok.mp h
  obtain rfl := Except.ok.inj (hmanifest.symm.trans hmanifest')
  obtain ⟨r, hrounds, h⟩ := bind_eq_ok.mp h
  obtain rfl := Except.ok.inj h
  obtain ⟨links, hreads, hall, -⟩ := exists_links hrounds
  have hbatch : links.flatMap Link.batch = (sortByChunkId manifest.entries).flatMap
      fun m => ((chunkEntries ipfs c log_key n m).toOption).getD [] := by
    rw [← hreads.entries, List.flatMap_map]
    refine List.flatMap_congr fun l hl => ?_
    have hvalid := hreads.valid l hl
    have hchunk : chunkEntries ipfs c log_key n l.entry = .ok l.batch :=
      bind_eq_ok.mpr ⟨l.chunk, hvalid.download, hvalid.decrypt⟩
    rw [hchunk]
    rfl
  refine (List.mergeSort_perm _ _).trans ?_
  rw [hall, hbatch]
  exact (List.mergeSort_perm manifest.entries _).flatMap_right _

/-- An entry that went through a chunk is as it was recorded, and marked as synced. -/
theorem protoEntryToPhone_toProto (row : TransactionEntry) :
    protoEntryToPhone (phoneEntryToProto row) = { row with synced := true } := by
  have hsignature : fromUtf8Lossy (Wire.text row.signature) = row.signature := by
    rw [fromUtf8Lossy, Wire.readText_text]
  rw [protoEntryToPhone, phoneEntryToProto]
  simp only [hsignature, Int64.toInt64_toUInt64]

theorem returns_restore {n : S} {cid : String} {u : Unit} :
    Returns (restoreFromIpfs ipfs c log_key cid db n) transactions u transactions' ↔
      ∃ proto_entries, Audit.restoreFromIpfs ipfs c cid log_key n = .ok proto_entries ∧
        Accepted db transactions (proto_entries.map protoEntryToPhone) ∧
          transactions ++ proto_entries.map protoEntryToPhone = transactions' := by
  rw [restoreFromIpfs, returns_ofResult_bind]
  simp only [returns_insertAll]

/-- A restore that fails has left the table alone if it got no entries, or the first was
refused. -/
theorem fails_restore {n : S} {cid : String}
    (h : Fails (restoreFromIpfs ipfs c log_key cid db n) transactions e transactions') :
    (Audit.restoreFromIpfs ipfs c cid log_key n = .error e ∧ transactions' = transactions) ∨
      ∃ proto_entries, Audit.restoreFromIpfs ipfs c cid log_key n = .ok proto_entries ∧
        Fails (insertAll db (proto_entries.map protoEntryToPhone)) transactions e transactions' := by
  rw [restoreFromIpfs] at h
  cases hcore : Audit.restoreFromIpfs ipfs c cid log_key n with
  | error e' =>
    rw [hcore] at h
    obtain ⟨rfl, rfl⟩ := fails_throw.mp ((fails_bind.mp h).resolve_right fun ⟨_, _, hreturns, _⟩ =>
      returns_throw hreturns)
    exact .inl ⟨rfl, rfl⟩
  | ok proto_entries =>
    rw [hcore, ofResult, pure_bind] at h
    exact .inr ⟨proto_entries, rfl, h⟩

/-! ### The property -/

variable (ipfs c log_key) in
/-- The table has its former rows and, for every entry of the manifest, the row that was recorded,
marked as synced. -/
def Added (s : State S) (n : S) (transactions transactions' : Table) : Prop :=
  ∃ rows, transactions' = transactions ++ rows ∧
    (rows.map phoneEntryToProto).Perm (contents ipfs c log_key n s.at_hand.manifest) ∧
    ∀ row ∈ rows, ∃ recorded ∈ s.transactions, row = { recorded with synced := true }

variable (ipfs c log_key) in
/-- A restore of the manifest of `s` is exact, atomic and repeatable. -/
structure Intact (s : State S) (n : S) (cid : String) (db : ℕ → Except String Unit)
    (transactions : Table) : Prop where
  atomic : ∀ e transactions',
    Fails (restoreFromIpfs ipfs c log_key cid db n) transactions e transactions' →
      transactions' = transactions
  exact : ∀ transactions',
    Returns (restoreFromIpfs ipfs c log_key cid db n) transactions () transactions' →
      Added ipfs c log_key s n transactions transactions'
  again : ∀ transactions',
    Returns (restoreFromIpfs ipfs c log_key cid db n) transactions () transactions' →
      Returns (restoreFromIpfs ipfs c log_key cid (fun _ => .ok ()) n) transactions' () transactions'
  producer : Returns (restoreFromIpfs ipfs c log_key cid (fun _ => .ok ()) n) s.transactions ()
    s.transactions

section

variable {n : S} {cid : String} (hkeeps : ipfs.Keeps s.at_hand.ipfs n)
  (hcid : downloadManifest ipfs c s.at_hand.ipfs cid = .ok s.at_hand.manifest)

include hkeeps in
theorem Sourced.recorded (h : Sourced ipfs c log_key s) {e : Audit.TransactionEntry}
    (he : e ∈ contents ipfs c log_key n s.at_hand.manifest) : Recorded s e := by
  obtain ⟨m, hm, he⟩ := List.mem_flatMap.mp he
  obtain ⟨entries, hentries, -, hall⟩ := h.readable m hm
  rw [chunkEntries_kept hkeeps hentries] at he
  exact hall e he

include hkeeps in
theorem Sourced.contents_eq_nil (h : Sourced ipfs c log_key s) :
    contents ipfs c log_key n s.at_hand.manifest = [] ↔ s.at_hand.manifest.entries = [] := by
  constructor
  · intro hnil
    refine List.eq_nil_iff_forall_not_mem.mpr fun m hm => ?_
    obtain ⟨entries, hentries, hne, -⟩ := h.readable m hm
    have hchunk := List.flatMap_eq_nil_iff.mp hnil m hm
    rw [chunkEntries_kept hkeeps hentries] at hchunk
    exact hne hchunk
  · intro hnil
    rw [contents, hnil, List.flatMap_nil]

include hkeeps hcid in
/-- A restore that goes through adds what was recorded. -/
theorem Sourced.added (h : Sourced ipfs c log_key s)
    (hreturns : Returns (restoreFromIpfs ipfs c log_key cid db n) transactions () transactions') :
    Added ipfs c log_key s n transactions transactions' := by
  obtain ⟨proto_entries, hcore, -, rfl⟩ := returns_restore.mp hreturns
  have hperm := perm_contents (downloadManifest_kept hkeeps hcid) hcore
  have hrecorded : ∀ e ∈ proto_entries, Recorded s e :=
    fun e he => h.recorded hkeeps (hperm.mem_iff.mp he)
  refine ⟨_, rfl, ?_, fun row hrow => ?_⟩
  · -- What was recorded has the same proto entry when it is marked as synced.
    have hback : (proto_entries.map protoEntryToPhone).map phoneEntryToProto = proto_entries := by
      rw [List.map_map]
      refine (List.map_congr_left fun e he => ?_).trans (List.map_id proto_entries)
      obtain ⟨row, -, rfl⟩ := hrecorded e he
      show phoneEntryToProto (protoEntryToPhone (phoneEntryToProto row)) = phoneEntryToProto row
      rw [protoEntryToPhone_toProto]
      rfl
    rw [hback]
    exact hperm
  · obtain ⟨e, he, rfl⟩ := List.mem_map.mp hrow
    obtain ⟨recorded, htable, rfl⟩ := hrecorded e he
    exact ⟨recorded, htable, protoEntryToPhone_toProto recorded⟩

include hkeeps hcid in
/-- The store that has produced a manifest refuses its entries, if there are any. -/
theorem Sourced.not_returns_producer (h : Sourced ipfs c log_key s)
    (hne : s.at_hand.manifest.entries ≠ []) :
    ¬ Returns (restoreFromIpfs ipfs c log_key cid db n) s.transactions () transactions' := by
  intro hreturns
  obtain ⟨proto_entries, hcore, haccepted, -⟩ := returns_restore.mp hreturns
  have hperm := perm_contents (downloadManifest_kept hkeeps hcid) hcore
  obtain ⟨e, he⟩ : ∃ e, e ∈ proto_entries := by
    refine List.exists_mem_of_ne_nil _ fun hnil => hne ?_
    rw [hnil] at hperm
    exact (h.contents_eq_nil hkeeps).mp (List.nil_perm.mp hperm)
  obtain ⟨row, hrow, rfl⟩ := h.recorded hkeeps (hperm.mem_iff.mp he)
  have hnew := haccepted.new _ (List.mem_map_of_mem he)
  rw [protoEntryToPhone_toProto] at hnew
  exact hnew (List.mem_map.mpr ⟨row, hrow, rfl⟩)

end

/-- The manifest of any run of syncs, restored into any table: what is added is what was recorded,
the table is left alone by a failure exactly if the first insert is refused where any is, and the
whole is intact only where there is nothing to restore. -/
theorem restore_intact_iff (hc : c.RoundTrips) (hipfs : ipfs.Durable) {n₀ : S} {user_did : String}
    {h : List (State S × Call S)} (hrun : Run (exec ipfs c log_key) (start n₀ user_did) h s)
    (hlasting : ∀ call ∈ h, Lasting ipfs call.1 call.2) {n : S}
    (hkeeps : ipfs.Keeps s.at_hand.ipfs n) {cid : String}
    (hcid : downloadManifest ipfs c s.at_hand.ipfs cid = .ok s.at_hand.manifest)
    (db : ℕ → Except String Unit) (transactions : Table) :
    (Intact ipfs c log_key s n cid db transactions ↔ s.at_hand.manifest.entries = []) ∧
    (∀ transactions',
      Returns (restoreFromIpfs ipfs c log_key cid db n) transactions () transactions' →
        Added ipfs c log_key s n transactions transactions') ∧
    ((∀ e transactions',
      Fails (restoreFromIpfs ipfs c log_key cid db n) transactions e transactions' →
        transactions' = transactions) ↔
      ∀ proto_entries, Audit.restoreFromIpfs ipfs c cid log_key n = .ok proto_entries →
        RefusedFirst db transactions (proto_entries.map protoEntryToPhone) ∨
          Accepted db transactions (proto_entries.map protoEntryToPhone)) := by
  have hsourced := sourced_of_run hc hipfs hrun hlasting
  refine ⟨⟨fun hintact => ?_, fun hnil => ?_⟩, fun _ => hsourced.added hkeeps hcid, fun hatomic => ?_,
    fun hcases => ?_⟩
  · by_contra hne
    exact hsourced.not_returns_producer hkeeps hcid hne hintact.producer
  · -- Nothing is inserted, so that nothing can fail either.
    have hcore : Audit.restoreFromIpfs ipfs c cid log_key n = .ok [] := by
      refine bind_eq_ok.mpr ⟨_, downloadManifest_kept hkeeps hcid, bind_eq_ok.mpr ⟨⟨[], none⟩, ?_, ?_⟩⟩
      · rw [hnil, sortByChunkId, List.mergeSort_nil]
        rfl
      · rw [sortByNonce, List.mergeSort_nil]
    have hempty : ∀ (db : ℕ → Except String Unit) (transactions transactions' : Table),
        Returns (restoreFromIpfs ipfs c log_key cid db n) transactions () transactions' ↔
          transactions' = transactions := by
      intro db transactions transactions'
      rw [returns_restore]
      constructor
      · rintro ⟨proto_entries, hentries, -, rfl⟩
        obtain rfl := Except.ok.inj (hcore.symm.trans hentries)
        exact List.append_nil _
      · rintro rfl
        exact ⟨[], hcore, ⟨by simp, by simp, by simp⟩, List.append_nil _⟩
    refine ⟨fun e transactions' hfails => ?_, fun _ => hsourced.added hkeeps hcid,
      fun transactions' _ => (hempty _ _ _).mpr rfl, (hempty _ _ _).mpr rfl⟩
    exact absurd hfails ((hempty db transactions transactions).mpr rfl).not_fails
  · intro proto_entries hcore
    by_cases haccepted : Accepted db transactions (proto_entries.map protoEntryToPhone)
    · exact .inr haccepted
    · -- The loop does not return, so it fails, and without a trace.
      rcases hcall : (insertAll db (proto_entries.map protoEntryToPhone)).call transactions with
        ⟨e | u, transactions'⟩
      · have hfails : Fails (restoreFromIpfs ipfs c log_key cid db n) transactions e transactions' := by
          rw [restoreFromIpfs, hcore, ofResult, pure_bind]
          exact hcall
        exact .inl ((fails_insertAll hcall).mp (hatomic e transactions' hfails))
      · exact absurd (returns_insertAll.mp hcall).1 haccepted
  · intro e transactions' hfails
    rcases fails_restore hfails with ⟨-, heq⟩ | ⟨proto_entries, hcore, hloop⟩
    · exact heq
    · rcases hcases proto_entries hcore with hrefused | haccepted
      · exact (fails_insertAll hloop).mpr hrefused
      · have hreturns : Returns (insertAll db (proto_entries.map protoEntryToPhone)) transactions ()
            (transactions ++ proto_entries.map protoEntryToPhone) :=
          returns_insertAll.mpr ⟨haccepted, rfl⟩
        exact absurd hloop hreturns.not_fails

end

namespace Sample

/-- The entries 2 and 3, each synced alone, and an entry between them that was not. -/
def calls : List (Call MockIpfs) :=
  .recordTransaction (transaction 2 5 5 7) :: sync 1 ++
    .recordTransaction (transaction 1 2 7 8) :: .recordTransaction (transaction 3 1 8 9) :: sync 2

/-- The CID of the second manifest. -/
def manifestCid : String := mockCid 4

/-- What the two chunks hold. -/
def synced : List Audit.TransactionEntry :=
  [phoneEntryToProto (transaction 2 5 5 7), phoneEntryToProto (transaction 3 1 8 9)]

/-- The manifest is on IPFS, its chunks are in order and hold the entries. -/
def isSynced (s : State MockIpfs) : Bool :=
  decide ((downloadManifest mock library s.at_hand.ipfs manifestCid).toOption = some s.at_hand.manifest) &&
  decide (s.at_hand.manifest.entries.map ChunkManifestEntry.chunk_id = [1, 2]) &&
  decide ((s.at_hand.manifest.entries.foldlM
    (restoreChunk mock library Audit.Sample.key s.at_hand.ipfs) ⟨[], none⟩).toOption.map
      Restored.all_entries = some synced)

theorem exists_synced : ∃ h s,
    Run (exec mock library Audit.Sample.key) (start .empty "") h s ∧
    h.map Prod.snd = calls.reverse ∧ isSynced s = true :=
  Run.exists_of_test (by decide +kernel)

theorem lasting {h : List (State MockIpfs × Call MockIpfs)} (hcalls : h.map Prod.snd = calls.reverse) :
    ∀ call ∈ h, Lasting mock call.1 call.2 := by
  have hall : calls.all isLasting = true := rfl
  exact Run.forall_of_calls hcalls fun call hcall s =>
    lasting_of_isLasting (List.all_eq_true.mp hall call hcall)

theorem downloads {s : State MockIpfs} (hs : isSynced s = true) :
    downloadManifest mock library s.at_hand.ipfs manifestCid = .ok s.at_hand.manifest := by
  have hmanifest := of_decide_eq_true (Bool.and_eq_true_iff.mp (Bool.and_eq_true_iff.mp hs).1).1
  cases hdownload : downloadManifest mock library s.at_hand.ipfs manifestCid with
  | error e =>
    rw [hdownload] at hmanifest
    exact absurd hmanifest (by simp [Except.toOption])
  | ok manifest =>
    rw [hdownload] at hmanifest
    rw [Option.some_inj.mp hmanifest]

/-- The download returns the entries in the order of their nonces. -/
theorem restores {s : State MockIpfs} (hs : isSynced s = true) :
    Audit.restoreFromIpfs mock library manifestCid Audit.Sample.key s.at_hand.ipfs = .ok synced := by
  obtain ⟨hs, hentries⟩ := Bool.and_eq_true_iff.mp hs
  have hids := of_decide_eq_true (Bool.and_eq_true_iff.mp hs).2
  have hentries := of_decide_eq_true hentries
  have hdownload := downloads (by rw [isSynced, hs, Bool.true_and]; exact decide_eq_true hentries)
  have hchain : s.at_hand.manifest.entries.IsChain fun e e' => e.chunk_id < e'.chunk_id := by
    rw [← List.isChain_map ChunkManifestEntry.chunk_id, hids]
    simp
  refine bind_eq_ok.mpr ⟨_, hdownload, ?_⟩
  rw [sortByChunkId_of_perm hchain (List.Perm.refl _)]
  obtain ⟨r, hr, hall⟩ := Option.map_eq_some_iff.mp hentries
  cases hrounds : s.at_hand.manifest.entries.foldlM
      (restoreChunk mock library Audit.Sample.key s.at_hand.ipfs) ⟨[], none⟩ with
  | error e =>
    rw [hrounds] at hr
    exact absurd hr (by simp [Except.toOption])
  | ok r' =>
    rw [hrounds] at hr
    obtain rfl := Option.some_inj.mp hr
    refine bind_eq_ok.mpr ⟨r', rfl, ?_⟩
    rw [hall, sortByNonce, List.mergeSort_of_pairwise]
    simp [synced, phoneEntryToProto, transaction]
    decide

end Sample

/-- Two chunks, and a table that has the second entry: the first is inserted, and then the restore
fails.  It fails as well in the table that the chunks were made from. -/
theorem restore_intact_overlap : ∃ h s,
    Run (exec mock Sample.library Audit.Sample.key) (start .empty "") h s ∧
    h.map Prod.snd = Sample.calls.reverse ∧
    ¬ Intact mock Sample.library Audit.Sample.key s s.at_hand.ipfs Sample.manifestCid
        (fun _ => .ok ()) [Sample.transaction 3 1 8 9] ∧
    ¬ ∀ e transactions', Fails (restoreFromIpfs mock Sample.library Audit.Sample.key
        Sample.manifestCid (fun _ => .ok ()) s.at_hand.ipfs) [Sample.transaction 3 1 8 9] e
          transactions' → transactions' = [Sample.transaction 3 1 8 9] := by
  obtain ⟨h, s, hrun, hcalls, hs⟩ := Sample.exists_synced
  obtain ⟨hintact, -, hatomic⟩ := restore_intact_iff Sample.library_roundTrips mock_durable hrun
    (Sample.lasting hcalls) (fun _ _ hdata => hdata) (Sample.downloads hs) (fun _ => .ok ())
    [Sample.transaction 3 1 8 9]
  refine ⟨h, s, hrun, hcalls, fun h => ?_, fun h => ?_⟩
  · have hids := of_decide_eq_true
      (Bool.and_eq_true_iff.mp (Bool.and_eq_true_iff.mp hs).1).2
    rw [hintact.mp h] at hids
    exact absurd hids (by simp)
  · rcases hatomic.mp h _ (Sample.restores hs) with ⟨row, hrow, hrefused⟩ | haccepted
    · obtain rfl := Option.some_inj.mp hrow
      rcases hrefused with htaken | hanswer
      · exact absurd htaken (by decide)
      · exact absurd rfl hanswer
    · exact haccepted.new _ (List.mem_map_of_mem (List.mem_cons_of_mem _ List.mem_cons_self)) (by decide)

/-- The restore leaves a part of the manifest in the table when it fails, and cannot be repeated. -/
theorem restored_in_part : ∃ h s,
    Run (exec mock Sample.library Audit.Sample.key) (start .empty "") h s ∧
    h.map Prod.snd = Sample.calls.reverse ∧
    Fails (restoreFromIpfs mock Sample.library Audit.Sample.key Sample.manifestCid (fun _ => .ok ())
        s.at_hand.ipfs) [Sample.transaction 3 1 8 9]
      (.failed "UNIQUE constraint failed: transactions.nonce")
      [Sample.transaction 3 1 8 9, { Sample.transaction 2 5 5 7 with synced := true }] ∧
    ∃ transactions', Returns (restoreFromIpfs mock Sample.library Audit.Sample.key Sample.manifestCid
        (fun _ => .ok ()) s.at_hand.ipfs) [] () transactions' ∧
      Fails (restoreFromIpfs mock Sample.library Audit.Sample.key Sample.manifestCid (fun _ => .ok ())
        s.at_hand.ipfs) transactions' (.failed "UNIQUE constraint failed: transactions.nonce")
        transactions' := by
  obtain ⟨h, s, hrun, hcalls, hs⟩ := Sample.exists_synced
  have hloop : ∀ transactions, (restoreFromIpfs mock Sample.library Audit.Sample.key
      Sample.manifestCid (fun _ => .ok ()) s.at_hand.ipfs).call transactions =
        (insertAll (fun _ => .ok ()) (Sample.synced.map protoEntryToPhone)).call transactions := by
    intro transactions
    rw [restoreFromIpfs, Sample.restores hs, ofResult, pure_bind]
  refine ⟨h, s, hrun, hcalls, ?_, Sample.synced.map protoEntryToPhone, ?_, ?_⟩
  · exact (hloop _).trans (by decide)
  · exact (hloop _).trans (by decide)
  · exact (hloop _).trans (by decide)

end Audit.LogStore
