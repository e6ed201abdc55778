/-
Signature introspection of the channel program (`lib.rs`).

`verify_ed25519_signature_introspection` walks the bytes of an account that is
meant to be the instructions sysvar, and looks for an instruction before the
current one that is addressed to a fixed program id and whose data is a single
header entry, pointing into itself, for the expected key and message.  Reads
are modelled with their bounds checks, so an index out of range would be a
panic.

Three facts about the source are kept as they are: no constraint binds the
account to the sysvar's address, so the bytes are the caller's; the current
index is read from the same bytes; and the id is not the precompile's
(`ed25519ProgramId_ne`).

* `Record` — what the bytes must hold for a key and a message;
* `checkSignature_eq_ok` — the check passes exactly when they hold it;
* `checkSignature_ne_panic` — and no byte string makes it panic.
-/
import IgnitePay.Program.State

namespace Program

open Bytes Machine Solana

/-! ### Checked reads -/

/-- `u16::from_le_bytes([data[i], data[i + 1]])`. -/
def readU16 (data : List UInt8) (i : ℕ) : Except Error ℕ := do
  require (i + 2 ≤ data.length) .panic
  pure (u16At data i)

/-- `data[i]`. -/
def readByte (data : List UInt8) (i : ℕ) : Except Error UInt8 := orErr data[i]? .panic

/-- `data[start..start + len]`. -/
def readSlice (data : List UInt8) (start len : ℕ) : Except Error (List UInt8) := do
  require (start + len ≤ data.length) .panic
  pure (slice data start len)

theorem readU16_eq {data : List UInt8} {i : ℕ} (h : i + 2 ≤ data.length) :
    readU16 data i = .ok (u16At data i) := require_bind h _ _

theorem readSlice_eq {data : List UInt8} {start len : ℕ} (h : start + len ≤ data.length) :
    readSlice data start len = .ok (slice data start len) := require_bind h _ _

theorem readByte_eq {data : List UInt8} {i : ℕ} (h : i < data.length) :
    readByte data i = .ok data[i] := by
  rw [readByte, List.getElem?_eq_getElem h]
  rfl

/-! ### The source's functions -/

/-- `read_current_ix_index`. -/
def readCurrentIxIndex (data : List UInt8) : Except Error ℕ := do
  require (¬ data.length < 2) (.code .invalidSignature)
  readU16 data (data.length - 2)

/-- The constant `ed25519_program_id`. -/
def ed25519ProgramId : Pubkey :=
  ⟨[0xca, 0x62, 0x0c, 0x98, 0x39, 0x87, 0x09, 0x10, 0x4c, 0x79, 0x14, 0x83, 0xce, 0x00, 0xb9, 0xc7,
    0x3b, 0x7a, 0x58, 0x93, 0x0d, 0x67, 0x5a, 0xe1, 0x45, 0xdd, 0x6f, 0x85, 0, 0, 0, 0], rfl⟩

theorem ed25519ProgramId_ne : ed25519ProgramId ≠ Solana.ed25519ProgramId := by decide

/-- The loop body up to `ix_slice`, for an index within the offset table: the
data of instruction `ixIdx` if its id is the constant; `none` is `continue`. -/
def ed25519Data (data : List UInt8) (ixIdx : ℕ) : Except Error (Option (List UInt8)) := do
  let limit := data.length - 2
  let ixOffset ← readU16 data (2 + 2 * ixIdx)
  if ixOffset ≥ limit then return none
  if ixOffset + 2 > limit then return none
  let numAccounts ← readU16 data ixOffset
  let pos := ixOffset + 2 + numAccounts * 33
  if pos + 32 > limit then return none
  let programId ← readSlice data pos 32
  if programId ≠ ed25519ProgramId.val then return none
  if pos + 32 + 2 > limit then return none
  let dataLen ← readU16 data (pos + 32)
  if pos + 32 + 2 + dataLen > limit then return none
  let ixSlice ← readSlice data (pos + 32 + 2) dataLen
  return some ixSlice

/-- The rest of the loop body: whether `ix_slice` is a single self-referencing
entry for the key and the message. -/
def ed25519Matches (ixSlice expectedPubkey message : List UInt8) : Except Error Bool := do
  let dataLen := ixSlice.length
  if dataLen < 16 then return false
  let count ← readByte ixSlice 0
  let padding ← readByte ixSlice 1
  if count ≠ 1 ∨ padding ≠ 0 then return false
  let pkOffset ← readU16 ixSlice 6
  let msgOffset ← readU16 ixSlice 10
  let msgSize ← readU16 ixSlice 12
  let sigIndex ← readU16 ixSlice 4
  let pkIndex ← readU16 ixSlice 8
  let msgIndex ← readU16 ixSlice 14
  if sigIndex ≠ 0xffff ∨ pkIndex ≠ 0xffff ∨ msgIndex ≠ 0xffff then return false
  if pkOffset + 32 > dataLen ∨ msgOffset + msgSize > dataLen then return false
  let pk ← readSlice ixSlice pkOffset 32
  let msg ← readSlice ixSlice msgOffset msgSize
  return decide (pk = expectedPubkey ∧ msg = message)

/-- The loop, with `n` indices left from `ixIdx` on; running out of them and
both `break`s end in the error after the loop. -/
def scanInstructions (data expectedPubkey message : List UInt8) (currentIxIndex : ℕ) :
    ℕ → ℕ → Except Error Unit
  | 0, _ => .error (.code .invalidSignature)
  | n + 1, ixIdx =>
    if ixIdx ≥ currentIxIndex then .error (.code .invalidSignature)
    else if 2 + 2 * ixIdx + 2 > data.length - 2 then .error (.code .invalidSignature)
    else do
      match ← ed25519Data data ixIdx with
      | none => scanInstructions data expectedPubkey message currentIxIndex n (ixIdx + 1)
      | some ixSlice =>
        if ← ed25519Matches ixSlice expectedPubkey message then pure ()
        else scanInstructions data expectedPubkey message currentIxIndex n (ixIdx + 1)

/-- `verify_ed25519_signature_introspection`. -/
def verifyEd25519SignatureIntrospection (data expectedPubkey message : List UInt8)
    (currentIxIndex : ℕ) : Except Error Unit := do
  require (¬ data.length < 4) (.code .invalidSignature)
  let numInstructions ← readU16 data 0
  scanInstructions data expectedPubkey message currentIxIndex numInstructions 0

/-- Both calls, as the handlers make them for one key and message. -/
def checkSignature (data : List UInt8) (expectedPubkey : Pubkey) (message : List UInt8) :
    Except Error Unit := do
  let currentIx ← readCurrentIxIndex data
  verifyEd25519SignatureIntrospection data expectedPubkey.val message currentIx

/-! ### What the bytes hold -/

/-- Where instruction `i` starts, by the offset table. -/
def instructionOffset (data : List UInt8) (i : ℕ) : ℕ := u16At data (2 + 2 * i)

/-- Where the program id of instruction `i` starts, after its accounts. -/
def programIdOffset (data : List UInt8) (i : ℕ) : ℕ :=
  instructionOffset data i + 2 + u16At data (instructionOffset data i) * 33

/-- Instruction `i` of the bytes is addressed to the constant and has the data
`ixData`; the last two bytes belong to the current index. -/
structure InstructionAt (data : List UInt8) (i : ℕ) (ixData : List UInt8) : Prop where
  table_le : 2 + 2 * i + 2 ≤ data.length - 2
  offset_le : instructionOffset data i + 2 ≤ data.length - 2
  header_le : programIdOffset data i + 34 ≤ data.length - 2
  data_le : programIdOffset data i + 34 + u16At data (programIdOffset data i + 32)
    ≤ data.length - 2
  programId_eq : slice data (programIdOffset data i) 32 = ed25519ProgramId.val
  data_eq : ixData = slice data (programIdOffset data i + 34)
    (u16At data (programIdOffset data i + 32))

/-- One header entry, which points into its own instruction, for a key and a
message. -/
structure SingleEntry (ixData publicKey message : List UInt8) : Prop where
  length_le : 16 ≤ ixData.length
  count_eq : ixData[0]? = some 1
  padding_eq : ixData[1]? = some 0
  signatureIndex_eq : (offsetsAt ixData 0).signatureInstructionIndex = 0xffff
  publicKeyIndex_eq : (offsetsAt ixData 0).publicKeyInstructionIndex = 0xffff
  messageIndex_eq : (offsetsAt ixData 0).messageInstructionIndex = 0xffff
  publicKey_le : (offsetsAt ixData 0).publicKeyOffset + 32 ≤ ixData.length
  message_le : (offsetsAt ixData 0).messageDataOffset + (offsetsAt ixData 0).messageDataSize
    ≤ ixData.length
  publicKey_eq : slice ixData (offsetsAt ixData 0).publicKeyOffset 32 = publicKey
  message_eq : slice ixData (offsetsAt ixData 0).messageDataOffset
    (offsetsAt ixData 0).messageDataSize = message

/-- The bytes hold a record for a key and a message, before what they say is
the current index. -/
def Record (data publicKey message : List UInt8) : Prop :=
  ∃ i, i < u16At data 0 ∧ i < u16At data (data.length - 2) ∧
    ∃ ixData, InstructionAt data i ixData ∧ SingleEntry ixData publicKey message

/-! ### The check finds exactly the records -/

/-- A fallible test that never fails decides a property. -/
def Decides (x : Except Error Bool) (p : Prop) : Prop := ∃ b : Bool, x = .ok b ∧ (b = true ↔ p)

theorem decides_false {p : Prop} (h : ¬ p) : Decides (pure false) p :=
  ⟨false, rfl, by simpa using h⟩

theorem ed25519Matches_decides (ixData pk msg : List UInt8) :
    Decides (ed25519Matches ixData pk msg) (SingleEntry ixData pk msg) := by
  unfold ed25519Matches
  by_cases hlen : ixData.length < 16
  · rw [if_pos hlen]
    exact decides_false fun h => absurd h.length_le (not_le.mpr hlen)
  rw [if_neg hlen]
  -- Behind the length check no read of the header can fail.
  have h0 : 0 < ixData.length := by omega
  have h1 : 1 < ixData.length := by omega
  have hread : ∀ i, i ≤ 14 → readU16 ixData i = .ok (u16At ixData i) :=
    fun i hi => readU16_eq (by omega)
  rw [readByte_eq h0, readByte_eq h1, hread 6 (by norm_num), hread 10 (by norm_num),
    hread 12 (by norm_num), hread 4 (by norm_num), hread 8 (by norm_num), hread 14 (by norm_num)]
  dsimp only [bind, Except.bind]
  split
  · next hc =>
    refine decides_false fun h => ?_
    have hcount := h.count_eq
    have hpadding := h.padding_eq
    rw [List.getElem?_eq_getElem h0, Option.some_inj] at hcount
    rw [List.getElem?_eq_getElem h1, Option.some_inj] at hpadding
    rcases hc with hc | hc
    · exact hc hcount
    · exact hc hpadding
  next hc =>
  rw [not_or, not_not, not_not] at hc
  split
  · next hi =>
    refine decides_false fun h => ?_
    rcases hi with hi | hi | hi
    · exact hi h.signatureIndex_eq
    · exact hi h.publicKeyIndex_eq
    · exact hi h.messageIndex_eq
  next hi =>
  rw [not_or, not_or, not_not, not_not, not_not] at hi
  split
  · next hb =>
    refine decides_false fun h => ?_
    rcases hb with hb | hb
    · exact absurd h.publicKey_le (not_le.mpr hb)
    · exact absurd h.message_le (not_le.mpr hb)
  next hb =>
  rw [not_or, not_lt, not_lt] at hb
  -- Both ranges lie inside the data, so what is left is the comparison of the bytes.
  rw [readSlice_eq hb.1, readSlice_eq hb.2]
  refine ⟨_, rfl, ?_⟩
  rw [decide_eq_true_iff]
  constructor
  · rintro ⟨hpk, hmsg⟩
    exact ⟨not_lt.mp hlen, by rw [List.getElem?_eq_getElem h0, hc.1],
      by rw [List.getElem?_eq_getElem h1, hc.2], hi.1, hi.2.1, hi.2.2, hb.1, hb.2, hpk, hmsg⟩
  · intro h
    exact ⟨h.publicKey_eq, h.message_eq⟩

/-- A fallible search that never fails finds the one value with a property. -/
def Finds {α : Type} (x : Except Error (Option α)) (p : α → Prop) : Prop :=
  ∃ o, x = .ok o ∧ ∀ a, o = some a ↔ p a

theorem finds_none {α : Type} {p : α → Prop} (h : ∀ a, ¬ p a) : Finds (pure none) p :=
  ⟨none, rfl, fun a => ⟨fun hn => absurd hn (by simp), fun hp => absurd hp (h a)⟩⟩

theorem ed25519Data_finds {data : List UInt8} {i : ℕ} (htable : 2 + 2 * i + 2 ≤ data.length - 2) :
    Finds (ed25519Data data i) (InstructionAt data i) := by
  -- Each check that sends the loop to its next index denies one field of `InstructionAt`.
  unfold ed25519Data
  rw [readU16_eq (by omega)]
  dsimp only [bind, Except.bind]
  split
  · next h =>
    refine finds_none fun s hs => ?_
    have : instructionOffset data i + 2 ≤ data.length - 2 := hs.offset_le
    unfold instructionOffset at this
    omega
  split
  · next h => exact finds_none fun s hs => absurd hs.offset_le (not_le.mpr h)
  next hoff =>
  rw [readU16_eq (by omega)]
  dsimp only
  split
  · next h =>
    refine finds_none fun s hs => absurd hs.header_le (not_le.mpr ?_)
    exact lt_of_lt_of_le h (Nat.add_le_add_left (by norm_num) _)
  next hid =>
  rw [readSlice_eq (by omega)]
  dsimp only
  split
  · next h => exact finds_none fun s hs => absurd hs.programId_eq h
  next heq =>
  split
  · next h => exact finds_none fun s hs => absurd hs.header_le (not_le.mpr h)
  next hheader =>
  rw [readU16_eq (by omega)]
  dsimp only
  split
  · next h => exact finds_none fun s hs => absurd hs.data_le (not_le.mpr h)
  next hdata =>
  rw [readSlice_eq (by omega)]
  refine ⟨_, rfl, fun s => ?_⟩
  rw [Option.some_inj]
  constructor
  · rintro rfl
    exact ⟨htable, not_lt.mp hoff, not_lt.mp hheader, not_lt.mp hdata, not_not.mp heq, rfl⟩
  · intro hs
    exact hs.data_eq.symm

/-- Some instruction with index `j` in a range is a record. -/
def RecordIn (data pk msg : List UInt8) (current lo n : ℕ) : Prop :=
  ∃ j, lo ≤ j ∧ j < lo + n ∧ j < current ∧
    ∃ ixData, InstructionAt data j ixData ∧ SingleEntry ixData pk msg

/-- The search goes on behind an instruction that is no record. -/
theorem recordIn_succ {data pk msg : List UInt8} {current lo n : ℕ}
    (h : ∀ ixData, InstructionAt data lo ixData → ¬ SingleEntry ixData pk msg) :
    RecordIn data pk msg current lo (n + 1) ↔ RecordIn data pk msg current (lo + 1) n := by
  constructor
  · rintro ⟨j, hlo, hj, hcur, ixData, hix, hentry⟩
    refine ⟨j, ?_, by omega, hcur, ixData, hix, hentry⟩
    rcases Nat.lt_or_eq_of_le hlo with hlt | rfl
    · exact hlt
    · exact absurd hentry (h ixData hix)
  · rintro ⟨j, hlo, hj, hrest⟩
    exact ⟨j, by omega, by omega, hrest⟩

open Classical in
/-- The whole behaviour of the loop, by induction on the indices left. -/
theorem scanInstructions_eq (data pk msg : List UInt8) (current n lo : ℕ) :
    scanInstructions data pk msg current n lo =
      if RecordIn data pk msg current lo n then .ok () else .error (.code .invalidSignature) := by
  induction n generalizing lo with
  | zero =>
    rw [if_neg]
    · rfl
    · rintro ⟨j, hlo, hj, -⟩
      omega
  | succ n ih =>
    rw [scanInstructions]
    split
    · next hcur =>
      -- The loop breaks at the current instruction, and no record stands at or behind it.
      rw [if_neg]
      rintro ⟨j, hlo, -, hj, -⟩
      omega
    split
    · next htable =>
      rw [if_neg]
      rintro ⟨j, hlo, -, -, ixData, hix, -⟩
      have := hix.table_le
      omega
    next hcur htable =>
    obtain ⟨o, ho, hfind⟩ := ed25519Data_finds (not_lt.mp htable)
    rw [ho]
    dsimp only [bind, Except.bind]
    cases o with
    | none =>
      rw [ih]
      have hnone : ∀ ixData, InstructionAt data lo ixData → ¬ SingleEntry ixData pk msg :=
        fun ixData hix => absurd ((hfind ixData).mpr hix) (by simp)
      simp only [recordIn_succ hnone]
    | some ixData =>
      obtain ⟨b, hb, hdecide⟩ := ed25519Matches_decides ixData pk msg
      have hix : InstructionAt data lo ixData := (hfind ixData).mp rfl
      dsimp only
      rw [hb]
      cases b with
      | true =>
        rw [if_pos ⟨lo, le_refl _, by omega, by omega, ixData, hix, hdecide.mp rfl⟩]
        rfl
      | false =>
        -- An index holds one instruction, so the one compared is the only candidate there.
        have hnone : ∀ ixData', InstructionAt data lo ixData' → ¬ SingleEntry ixData' pk msg := by
          intro ixData' hix' hentry
          rw [hix'.data_eq, ← hix.data_eq] at hentry
          exact absurd (hdecide.mpr hentry) (by simp)
        simp only [recordIn_succ hnone]
        exact ih (lo + 1)

theorem checkSignature_cases (data : List UInt8) (pk : Pubkey) (msg : List UInt8) :
    (checkSignature data pk msg = .ok () ∧ Record data pk.val msg) ∨
      (checkSignature data pk msg = .error (.code .invalidSignature) ∧
        ¬ Record data pk.val msg) := by
  -- Both length checks of the source turn away data too short for one table entry.
  have hshort : data.length < 4 → ¬ Record data pk.val msg := by
    rintro hlt ⟨i, -, -, ixData, hix, -⟩
    have := hix.table_le
    omega
  unfold checkSignature readCurrentIxIndex verifyEd25519SignatureIntrospection
  by_cases h2 : data.length < 2
  · refine .inr ⟨?_, hshort (by omega)⟩
    rw [require, if_neg (not_not.mpr h2)]
    rfl
  rw [require_bind h2, readU16_eq (by omega)]
  dsimp only [bind, Except.bind]
  by_cases h4 : data.length < 4
  · refine .inr ⟨?_, hshort h4⟩
    rw [require, if_neg (not_not.mpr h4)]
  rw [require, if_pos h4]
  dsimp only
  rw [readU16_eq (by omega)]
  dsimp only
  rw [scanInstructions_eq]
  have hiff : RecordIn data pk.val msg (u16At data (data.length - 2)) 0 (u16At data 0) ↔
      Record data pk.val msg := by
    simp only [RecordIn, Record, Nat.zero_le, true_and, Nat.zero_add]
  by_cases h : Record data pk.val msg
  · exact .inl ⟨if_pos (hiff.mpr h), h⟩
  · exact .inr ⟨if_neg (mt hiff.mp h), h⟩

theorem checkSignature_eq_ok {data : List UInt8} {pk : Pubkey} {msg : List UInt8} {u : Unit} :
    checkSignature data pk msg = .ok u ↔ Record data pk.val msg := by
  rcases checkSignature_cases data pk msg with ⟨h, hr⟩ | ⟨h, hr⟩
  · exact ⟨fun _ => hr, fun _ => h⟩
  · rw [h]
    exact ⟨fun hok => absurd hok (by simp), fun h => absurd h hr⟩

/-- No bytes make the check index out of range. -/
theorem checkSignature_ne_panic (data : List UInt8) (pk : Pubkey) (msg : List UInt8) :
    checkSignature data pk msg ≠ .error .panic := by
  rcases checkSignature_cases data pk msg with ⟨h, -⟩ | ⟨h, -⟩
  · rw [h]
    simp
  · rw [h]
    simp

/-! ### Bytes of the caller's choice -/

/-- The data of an instruction with one entry, which points at the key and the
message behind the header; there is no signature. -/
def entryBytes (pk : Pubkey) (msg : List UInt8) : List UInt8 :=
  [1, 0] ++ u16Le 0 ++ u16Le 0xffff ++ u16Le 16 ++ u16Le 0xffff ++ u16Le 48 ++ u16Le msg.length
    ++ u16Le 0xffff ++ pk.val ++ msg

/-- That instruction, without accounts and addressed to the constant. -/
def instructionBytes (r : Pubkey × List UInt8) : List UInt8 :=
  u16Le 0 ++ ed25519ProgramId.val ++ u16Le (entryBytes r.1 r.2).length ++ entryBytes r.1 r.2

/-- Bytes that hold a record for each of the given keys and messages. -/
def sysvarBytes (records : List (Pubkey × List UInt8)) : List UInt8 :=
  let start := 2 + 2 * records.length
  let offsets := (records.map fun r => (instructionBytes r).length).scanl (· + ·) start
  u16Le records.length ++ (offsets.take records.length).flatMap u16Le
    ++ records.flatMap instructionBytes ++ u16Le records.length

end Program
