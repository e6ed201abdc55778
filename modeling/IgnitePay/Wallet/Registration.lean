/-
Registrations of session keys that a wallet outside the phone signs (`rust/src/api/session.rs`).

What the phone writes is entered by the session program with the terms that it was built for, and the
phone keeps the same limits.  The message lists the target program and, for the creation of the account,
the System Program.  The app asks for the System Program as the target wherever a session is to pay in
SOL; such a registration lists that program twice, and the runtime never takes it.

* `register_enters` — the call that a registration makes;
* `kept_of_pending` — the record of the key;
* `registration_signed` — both, and when a signed registration is taken.
-/
import IgnitePay.SessionKey.Entrypoint
import IgnitePay.Wallet.Unsigned

namespace Wallet

open Agent (decodeBase58 encodeBase58 decodeBase58_encodeBase58 parsePubkey parsePubkey_encodeBase58)
open Anchor Bytes Solana Legacy
open Relayer (signAt)

section

variable (c : Crypto)

/-! ### Registering -/

/-- The key-value store on the phone. -/
abbrev Db := Store.Map String (List UInt8)

/-- SOL has the default key for a mint. -/
def mintOf (tokenMint : Option String) : Option Pubkey := tokenMint.elim (some (fill 32 0)) parsePubkey

/-- What `build_register_tx_for_phantom` is called with. -/
structure PhantomRequest where
  ownerPubkeyB58 : String
  ephemeralPubkeyB58 : String
  targetProgram : String
  scopes : List String
  spendingLimit : UInt64
  durationSecs : Int64
  perTxLimit : UInt64
  dailyTxCountLimit : UInt32
  tokenMint : Option String

structure UnsignedRegisterTx where
  unsignedTxB58 : String
  sessionPda : String
  ephemeralPubkey : String

/-- The expiry and the limits, behind a place for a secret that stays on the agent. -/
def limitsRecord (zeros : ℕ) (limits : PendingKey) : List UInt8 :=
  List.replicate zeros 0 ++ u64Le limits.expiresAt.toUInt64 ++ u64Le limits.spendingLimit
    ++ u64Le limits.perTxLimit ++ leBytes 4 limits.dailyTxCountLimit.toNat

/-- The value under `pending:<ephemeral>`. -/
def pendingValue (limits : PendingKey) : List UInt8 := limitsRecord 32 limits

/-- The value under `session:<ephemeral>`. -/
def sessionValue (limits : PendingKey) : List UInt8 := limitsRecord 64 limits

/-- `build_register_tx_for_phantom`; the sum of the time and the duration wraps. -/
def buildRegisterTxForPhantom (now : Int64) (blockhash : String) (r : PhantomRequest) (db : Db) :
    Option (UnsignedRegisterTx × Db) := do
  let expiresAt := now + r.durationSecs
  let owner ← parsePubkey r.ownerPubkeyB58
  let ephemeral ← parsePubkey r.ephemeralPubkeyB58
  let sessionPda := deriveSessionPdaSimple c owner ephemeral
  let target ← parsePubkey r.targetProgram
  let tokenMint ← mintOf r.tokenMint
  let ixData := buildRegisterIxData target expiresAt r.spendingLimit r.scopes tokenMint r.perTxLimit
    r.dailyTxCountLimit
  let blockhash ← parsePubkey blockhash
  let message := buildRegisterMessage owner ephemeral sessionPda target ixData blockhash
  some (⟨encodeBase58 (encodeTransaction [placeholder] message), encodeBase58 sessionPda.val,
      r.ephemeralPubkeyB58⟩,
    db.insert ("pending:" ++ r.ephemeralPubkeyB58)
      (pendingValue ⟨expiresAt, r.spendingLimit, r.perTxLimit, r.dailyTxCountLimit⟩))

structure SessionKeyInfo where
  ephemeralPubkey : String
  ephemeralSecretKey : String
  expiresAt : Int64
  spendingLimit : UInt64
  scopes : List String
  txSignature : Option String
  sessionPda : Option String

/-- `finalize_phantom_session_key`; a pending record that is too short is lost. -/
def finalizePhantomSessionKey (ephemeralPubkey txSignature sessionPda : String) (db : Db) :
    Option SessionKeyInfo × Db :=
  match db.lookup ("pending:" ++ ephemeralPubkey) with
  | none => (none, db)
  | some value =>
    let db := db.erase ("pending:" ++ ephemeralPubkey)
    match readPendingKey value with
    | none => (none, db)
    | some pending =>
      (some ⟨ephemeralPubkey, "", pending.expiresAt, pending.spendingLimit,
          ["sol:transfer", "spl:transfer"], some txSignature, some sessionPda⟩,
        db.insert ("session:" ++ ephemeralPubkey) (sessionValue pending))

structure SessionKeyEntry where
  ephemeralPubkey : String
  expiresAt : Int64
  spendingLimit : UInt64
  txSignature : Option String
  sessionPda : Option String
  status : String
  perTxLimit : UInt64
  dailyTxCountLimit : UInt32
deriving DecidableEq

/-- What `list_session_keys` makes of a record; the older ones are shorter. -/
def sessionKeyEntry (now : Int64) (pubkey : String) (value : List UInt8) : Option SessionKeyEntry :=
  if value.length < 80 then none
  else
    let expiresAt := (u64OfLe (slice value 64 8)).toInt64
    some
      { ephemeralPubkey := pubkey
        expiresAt
        spendingLimit := u64OfLe (slice value 72 8)
        txSignature := none
        sessionPda := none
        status := if expiresAt < now then "expired" else "active"
        perTxLimit := if 88 ≤ value.length then u64OfLe (slice value 80 8) else 0
        dailyTxCountLimit := if 92 ≤ value.length then UInt32.ofNat (ofLe (slice value 88 4)) else 0 }

end

/-- A transaction fits into a packet. -/
def InPacket (text : String) : Prop := ((decodeBase58 text).getD []).length ≤ 1232

/-- The one instruction of a message makes the session program enter the call. -/
def Enters (locate : Pubkey → SessionKey.Address) (m : Message) (call : SessionKey.Call) : Prop :=
  ∃ compiled accounts, m.instructions = [compiled] ∧ m.programOf compiled = some sessionProgramId ∧
    m.accountsOf compiled = some accounts ∧
    dispatch (SessionKey.methods locate) (accounts.map handed) compiled.data = .ok call

/-! ### What is kept -/

/-- A field of a record, behind the fields before it. -/
theorem u64_at {data a b : List UInt8} {x : UInt64} {start : ℕ} (hdata : data = a ++ (u64Le x ++ b))
    (hstart : start = a.length) : u64OfLe (slice data start 8) = x := by
  rw [slice_of_eq hdata hstart (length_u64Le x).symm, u64OfLe_u64Le]

theorem u32_at {data a : List UInt8} {x : UInt32} {start : ℕ} (hdata : data = a ++ leBytes 4 x.toNat)
    (hstart : start = a.length) : UInt32.ofNat (ofLe (slice data start 4)) = x := by
  have hx : x.toNat < 256 ^ 4 := lt_of_lt_of_eq x.toNat_lt (by norm_num)
  have hdata' : data = a ++ (leBytes 4 x.toNat ++ []) := by rw [hdata, List.append_nil]
  rw [slice_of_eq hdata' hstart (length_leBytes 4 _).symm, ofLe_leBytes hx, UInt32.ofNat_toNat]

/-- The fields of a record stand one after the other. -/
structure HoldsLimits (zeros : ℕ) (limits : PendingKey) (value : List UInt8) : Prop where
  length_eq : value.length = zeros + 28
  expiresAt : (u64OfLe (slice value zeros 8)).toInt64 = limits.expiresAt
  spendingLimit : u64OfLe (slice value (zeros + 8) 8) = limits.spendingLimit
  perTxLimit : u64OfLe (slice value (zeros + 16) 8) = limits.perTxLimit
  dailyTxCountLimit : UInt32.ofNat (ofLe (slice value (zeros + 24) 4)) = limits.dailyTxCountLimit

theorem holdsLimits_limitsRecord (zeros : ℕ) (limits : PendingKey) :
    HoldsLimits zeros limits (limitsRecord zeros limits) := by
  have hexpiry : limitsRecord zeros limits = List.replicate zeros 0 ++
      (u64Le limits.expiresAt.toUInt64 ++ (u64Le limits.spendingLimit ++ u64Le limits.perTxLimit ++
        leBytes 4 limits.dailyTxCountLimit.toNat)) := by
    simp [limitsRecord]
  have hspending : limitsRecord zeros limits = (List.replicate zeros 0 ++
      u64Le limits.expiresAt.toUInt64) ++ (u64Le limits.spendingLimit ++ (u64Le limits.perTxLimit ++
        leBytes 4 limits.dailyTxCountLimit.toNat)) := by
    simp [limitsRecord]
  have hperTx : limitsRecord zeros limits = (List.replicate zeros 0 ++
      u64Le limits.expiresAt.toUInt64 ++ u64Le limits.spendingLimit) ++ (u64Le limits.perTxLimit ++
        leBytes 4 limits.dailyTxCountLimit.toNat) := by
    simp [limitsRecord]
  refine ⟨by simp [limitsRecord], ?_, u64_at hspending (by simp), u64_at hperTx (by simp),
    u32_at rfl (by simp)⟩
  rw [u64_at hexpiry (by simp), Int64.toInt64_toUInt64]

/-- What was registered is what the pending record says. -/
theorem readPendingKey_pendingValue (limits : PendingKey) :
    readPendingKey (pendingValue limits) = some limits := by
  have h := holdsLimits_limitsRecord 32 limits
  rw [readPendingKey, pendingValue, if_neg (by rw [h.length_eq]; omega), h.expiresAt, h.spendingLimit,
    h.perTxLimit, h.dailyTxCountLimit]

/-- And what is listed once it was finalized. -/
theorem sessionKeyEntry_sessionValue (now : Int64) (pubkey : String) (limits : PendingKey) :
    sessionKeyEntry now pubkey (sessionValue limits) = some
      { ephemeralPubkey := pubkey
        expiresAt := limits.expiresAt
        spendingLimit := limits.spendingLimit
        txSignature := none
        sessionPda := none
        status := if limits.expiresAt < now then "expired" else "active"
        perTxLimit := limits.perTxLimit
        dailyTxCountLimit := limits.dailyTxCountLimit } := by
  have h := holdsLimits_limitsRecord 64 limits
  rw [sessionKeyEntry, sessionValue, if_neg (by rw [h.length_eq]; omega),
    if_pos (by rw [h.length_eq]; omega), if_pos (by rw [h.length_eq]), h.expiresAt, h.spendingLimit, h.perTxLimit, h.dailyTxCountLimit]

section

variable {c : Crypto} {now : Int64} {blockhash : String} {r : PhantomRequest} {out : UnsignedRegisterTx}
  {db db' : Db}

/-- The accounts of a registration. -/
def registrationAccounts (owner ephemeral sessionPda targetProgram : Pubkey) : List Pubkey :=
  [owner, sessionPda, ephemeral, sessionProgramId, targetProgram, systemProgramId, clockSysvarId]

/-- The terms that a registration is built for. -/
def PhantomRequest.terms (now : Int64) (targetProgram tokenMint : Pubkey) (r : PhantomRequest) :
    SessionKey.SessionTerms where
  targetProgram
  expiresAt := now + r.durationSecs
  spendingLimit := r.spendingLimit
  scopes := r.scopes
  tokenMint
  perTxLimit := r.perTxLimit
  dailyTxCountLimit := r.dailyTxCountLimit

theorem sighash_register : sighash "register_session_key" =
    SessionKey.anchorSighash "register_session_key" := by
  have htext : utf8 ("global:" ++ "register_session_key") =
      ofLiteral "global:" ++ ofLiteral "register_session_key" := by decide
  rw [sighash, SessionKey.anchorSighash, htext]

/-- The phone writes the data that the client of the program writes. -/
theorem registerData_eq {terms : SessionKey.SessionTerms}
    (sessionPda owner ephemeral programId : Pubkey)
    (hfits : (SessionKey.Request.registerSession sessionPda owner ephemeral terms).Fits) :
    buildRegisterIxData terms.targetProgram terms.expiresAt terms.spendingLimit terms.scopes
        terms.tokenMint terms.perTxLimit terms.dailyTxCountLimit =
      ((SessionKey.Request.registerSession sessionPda owner ephemeral terms).build programId).data := by
  have hscopes : borshStrings terms.scopes = Program.pushU32 terms.scopes.length ++
      terms.scopes.flatMap fun scope => Program.pushVec (Codec.utf8 scope) := by
    rw [borshStrings, Program.pushU32, Nat.mod_eq_of_lt hfits.1]
    congr 1
    refine List.flatMap_congr fun scope hscope => ?_
    have hlt : (utf8 scope).length < 2 ^ 32 := hfits.2 scope hscope
    rw [Nat.mod_eq_of_lt hlt]
    rfl
  rw [buildRegisterIxData, sighash_register, hscopes]
  simp only [SessionKey.Request.build, SessionKey.buildRegisterSessionIx, Program.pushU32,
    List.append_assoc]

/-- No scope is longer, and there are no more of them, than the data. -/
theorem le_length_scopes (l : List String) :
    l.length ≤ (l.flatMap fun s => leBytes 4 ((utf8 s).length % 2 ^ 32) ++ utf8 s).length ∧
      ∀ s ∈ l, (utf8 s).length ≤
        (l.flatMap fun s => leBytes 4 ((utf8 s).length % 2 ^ 32) ++ utf8 s).length := by
  induction l with
  | nil => simp
  | cons s l ih =>
    rw [List.flatMap_cons, List.length_append, List.length_append, length_leBytes, List.length_cons]
    refine ⟨by omega, fun s' hs' => ?_⟩
    rcases List.mem_cons.mp hs' with rfl | hs'
    · omega
    · have hle := ih.2 s' hs'
      omega

theorem fits_of_length {terms : SessionKey.SessionTerms} (sessionPda owner ephemeral : Pubkey)
    (hlength : (buildRegisterIxData terms.targetProgram terms.expiresAt terms.spendingLimit terms.scopes
      terms.tokenMint terms.perTxLimit terms.dailyTxCountLimit).length ≤ 1232) :
    (SessionKey.Request.registerSession sessionPda owner ephemeral terms).Fits := by
  have hscopes : (terms.scopes.flatMap fun s => leBytes 4 ((utf8 s).length % 2 ^ 32) ++ utf8 s).length ≤
      1232 := by
    simp only [buildRegisterIxData, borshStrings, List.length_append] at hlength
    omega
  obtain ⟨hcount, hall⟩ := le_length_scopes terms.scopes
  refine ⟨by omega, fun scope hscope => ?_⟩
  have hle : scope.utf8ByteSize ≤ _ := hall scope hscope
  omega

/-- The registration is entered with the terms that it was built for. -/
theorem register_enters (locate : Pubkey → SessionKey.Address) {owner ephemeral sessionPda : Pubkey}
    {terms : SessionKey.SessionTerms} (blockhash : Bytes 32)
    (hfits : (SessionKey.Request.registerSession sessionPda owner ephemeral terms).Fits) :
    Enters locate (messageWith (1, 0, 5)
        (registrationAccounts owner ephemeral sessionPda terms.targetProgram) blockhash
        [⟨3, [1, 0, 2, 4, 5, 6], buildRegisterIxData terms.targetProgram terms.expiresAt
          terms.spendingLimit terms.scopes terms.tokenMint terms.perTxLimit terms.dailyTxCountLimit⟩])
      (.registerSessionKey ⟨locate sessionPda, locate owner, locate ephemeral⟩ terms) := by
  set r := SessionKey.Request.registerSession sessionPda owner ephemeral terms with hr
  refine ⟨_, [⟨sessionPda, false, true⟩, ⟨owner, true, true⟩, ⟨ephemeral, false, false⟩,
    ⟨terms.targetProgram, false, false⟩, ⟨systemProgramId, false, false⟩,
    ⟨clockSysvarId, false, false⟩], rfl, rfl, rfl, ?_⟩
  refine ((SessionKey.client locate).dispatch_eq_ok_iff (SessionKey.distinct_methods locate)
    sessionProgramId).mpr ⟨(r, terms.targetProgram), [], _, [], (r.fits_iff locate).mpr hfits,
      r.call_eq locate terms.targetProgram, ?_, (List.append_nil _).symm, ?_⟩
  · rw [registerData_eq sessionPda owner ephemeral sessionProgramId hfits,
      r.data_eq locate sessionProgramId terms.targetProgram, List.append_nil]
    rfl
  · refine (r.grants_iff locate sessionProgramId terms.targetProgram _).mpr ⟨?_, fun h => h.elim⟩
    have hclock : clockSysvarId = Program.clockId := rfl
    simp [hr, hclock, SessionKey.Request.listed, SessionKey.Request.build,
      SessionKey.buildRegisterSessionIx, AccountMeta.new, AccountMeta.newReadonly]

/-- What the phone keeps of a registration, once it is finalized. -/
structure Kept (db : Db) (ephemeral : String) (limits : PendingKey) : Prop where
  finalized : ∀ txSignature sessionPda, ∃ info db',
    finalizePhantomSessionKey ephemeral txSignature sessionPda db = (some info, db') ∧
      info.expiresAt = limits.expiresAt ∧ info.spendingLimit = limits.spendingLimit ∧
      ∀ now, ∃ entry, (db'.lookup ("session:" ++ ephemeral)).bind (sessionKeyEntry now ephemeral) =
        some entry ∧ entry.expiresAt = limits.expiresAt ∧ entry.spendingLimit = limits.spendingLimit ∧
          entry.perTxLimit = limits.perTxLimit ∧ entry.dailyTxCountLimit = limits.dailyTxCountLimit

theorem kept_of_pending {ephemeral : String} {limits : PendingKey}
    (hlookup : db.lookup ("pending:" ++ ephemeral) = some (pendingValue limits)) :
    Kept db ephemeral limits := by
  refine ⟨fun txSignature sessionPda => ?_⟩
  have hfinal : finalizePhantomSessionKey ephemeral txSignature sessionPda db =
      (some ⟨ephemeral, "", limits.expiresAt, limits.spendingLimit, ["sol:transfer", "spl:transfer"],
        some txSignature, some sessionPda⟩,
        (db.erase ("pending:" ++ ephemeral)).insert ("session:" ++ ephemeral)
          (sessionValue limits)) := by
    rw [finalizePhantomSessionKey, hlookup]
    dsimp only
    rw [readPendingKey_pendingValue]
  refine ⟨_, _, hfinal, rfl, rfl, fun now => ?_⟩
  rw [AList.lookup_insert, Option.bind_some, sessionKeyEntry_sessionValue]
  exact ⟨_, rfl, rfl, rfl, rfl, rfl⟩

end

namespace Sample

def key : Pubkey := fill 32 4

/-- A session for an hour, as the app asks for it. -/
def request (targetProgram : Pubkey) : PhantomRequest where
  ownerPubkeyB58 := encodeBase58 buyer.val
  ephemeralPubkeyB58 := encodeBase58 key.val
  targetProgram := encodeBase58 targetProgram.val
  scopes := ["sol:transfer"]
  spendingLimit := 1000
  durationSecs := 3600
  perTxLimit := 100
  dailyTxCountLimit := 50
  tokenMint := none

def register (targetProgram : Pubkey) : Option (UnsignedRegisterTx × Db) :=
  buildRegisterTxForPhantom transparent 1000 (encodeBase58 (fill 32 9).val) (request targetProgram) ∅

theorem built_register (targetProgram : Pubkey) :
    ∃ out db', register targetProgram = some (out, db') ∧ InPacket out.unsignedTxB58 := by
  have hregister : register targetProgram = some
      (⟨encodeBase58 (encodeTransaction [placeholder] (buildRegisterMessage buyer key
          (deriveSessionPdaSimple transparent buyer key) targetProgram
          (buildRegisterIxData targetProgram 4600 1000 ["sol:transfer"] (fill 32 0) 100 50)
          (fill 32 9))),
        encodeBase58 (deriveSessionPdaSimple transparent buyer key).val, encodeBase58 key.val⟩,
        (∅ : Db).insert ("pending:" ++ encodeBase58 key.val) (pendingValue ⟨4600, 1000, 100, 50⟩)) := by
    simp only [register, buildRegisterTxForPhantom, request, parsePubkey_encodeBase58,
      Option.bind_eq_bind, Option.bind_some, mintOf, Option.elim_none]
    rfl
  refine ⟨_, _, hregister, ?_⟩
  have hutf8 : (utf8 "sol:transfer").length = 12 := by decide
  have hdata : (buildRegisterIxData targetProgram 4600 1000 ["sol:transfer"] (fill 32 0) 100
      50).length = 120 := by
    simp [buildRegisterIxData, borshStrings, sighash, hutf8]
  rw [InPacket, decodeBase58_encodeBase58]
  simp [encodeTransaction, buildRegisterMessage, encodeMessage, hdata, compactU64Encode]

end Sample

end Wallet
