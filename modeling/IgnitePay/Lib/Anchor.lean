/-
The entry of an Anchor program.

The runtime hands a program the accounts of an instruction, each with the privileges that the
transaction gives it, and the instruction's data.  The program picks a method by the first 8 bytes of
the data, reads the arguments after them, and takes its accounts in order, first checking of each
what its type asks for and then its constraints.  What is left of the data and of the accounts is
ignored.  The accounts that a program loads, and the constraints on what they hold, belong to the
method; here only keys and privileges are looked at.

* `dispatch_eq_ok` — a method is entered exactly by data that starts with its discriminator and its
  arguments as they are written, and accounts that have what it asks for;
* `dispatch_eq_ok_iff_built` — that is, the instruction that is put together for it, up to what is left
  over and to further privileges;
* `Client.dispatch_eq_ok_iff` — so a client that can ask for everything asks for whatever is called.
-/
import IgnitePay.Lib.Borsh
import IgnitePay.Lib.Machine
import IgnitePay.Lib.Sha256
import IgnitePay.Lib.Solana

namespace Anchor

open Bytes Machine Solana

inductive EntryError
  | instructionFallbackNotFound
  | instructionDidNotDeserialize
  | accountNotEnoughKeys
  | accountNotSigner
  | invalidProgramId
  | accountSysvarMismatch
  | constraintMut
  | constraintAddress
deriving DecidableEq

/-- An account as the runtime hands it to a program. -/
structure AccountInfo where
  key : Pubkey
  isSigner : Bool
  isWritable : Bool
deriving DecidableEq

/-- What the type of an account asks for. -/
inductive Kind
  /-- `UncheckedAccount`, or an account whose data is looked at. -/
  | account
  | signer
  | program (id : Pubkey)
  | sysvar (id : Pubkey)
deriving DecidableEq

/-- A field of an account struct. -/
structure AccountSpec where
  kind : Kind
  /-- `mut`, or `init`. -/
  writable : Bool
  /-- `address = ..`. -/
  address : Option Pubkey
deriving DecidableEq

namespace AccountSpec

/-- An account with no constraint on its key; `readonly`, where it is not written to. -/
def readonly : AccountSpec := ⟨.account, false, none⟩

def mutable : AccountSpec := ⟨.account, true, none⟩

def signer : AccountSpec := ⟨.signer, false, none⟩

def mutableSigner : AccountSpec := ⟨.signer, true, none⟩

def program (id : Pubkey) : AccountSpec := ⟨.program id, false, none⟩

def sysvar (id : Pubkey) : AccountSpec := ⟨.sysvar id, false, none⟩

def located (key : Pubkey) : AccountSpec := ⟨.account, false, some key⟩

def checkKind (spec : AccountSpec) (info : AccountInfo) : Except EntryError Unit :=
  match spec.kind with
  | .account => .ok ()
  | .signer => require (info.isSigner = true) .accountNotSigner
  | .program id => require (info.key = id) .invalidProgramId
  | .sysvar id => require (info.key = id) .accountSysvarMismatch

def checkConstraints (spec : AccountSpec) (info : AccountInfo) : Except EntryError Unit := do
  require (spec.writable = true → info.isWritable = true) .constraintMut
  require (∀ key ∈ spec.address, info.key = key) .constraintAddress

/-- Both checks pass. -/
structure Admits (spec : AccountSpec) (info : AccountInfo) : Prop where
  signer : spec.kind = .signer → info.isSigner = true
  program : ∀ id, spec.kind = .program id → info.key = id
  sysvar : ∀ id, spec.kind = .sysvar id → info.key = id
  writable : spec.writable = true → info.isWritable = true
  address : ∀ key ∈ spec.address, info.key = key

theorem checks_eq_ok {spec : AccountSpec} {info : AccountInfo} :
    spec.checkKind info = .ok () ∧ spec.checkConstraints info = .ok () ↔ spec.Admits info := by
  simp only [checkConstraints, bind_eq_ok, require_eq_ok, exists_const]
  constructor
  · rintro ⟨hkind, hwritable, haddress⟩
    refine ⟨fun h => ?_, fun id h => ?_, fun id h => ?_, hwritable, haddress⟩
    all_goals
      rw [checkKind, h] at hkind
      exact require_eq_ok.mp hkind
  · intro h
    refine ⟨?_, h.writable, h.address⟩
    rw [checkKind]
    split
    · rfl
    · next hkind => exact require_eq_ok.mpr (h.signer hkind)
    · next id hkind => exact require_eq_ok.mpr (h.program id hkind)
    · next id hkind => exact require_eq_ok.mpr (h.sysvar id hkind)

/-- How an instruction lists the account that is asked for. -/
def toMeta (spec : AccountSpec) (key : Pubkey) : AccountMeta :=
  ⟨key, decide (spec.kind = .signer), spec.writable⟩

/-- The key is one that the field can take. -/
structure Takes (spec : AccountSpec) (key : Pubkey) : Prop where
  program : ∀ id, spec.kind = .program id → key = id
  sysvar : ∀ id, spec.kind = .sysvar id → key = id
  address : ∀ k ∈ spec.address, key = k

@[simp] theorem takes_mk {kind : Kind} {writable : Bool} {address : Option Pubkey} {key : Pubkey} :
    (⟨kind, writable, address⟩ : AccountSpec).Takes key ↔ (∀ id, kind = .program id → key = id) ∧
      (∀ id, kind = .sysvar id → key = id) ∧ ∀ k ∈ address, key = k :=
  ⟨fun h => ⟨h.program, h.sysvar, h.address⟩, fun ⟨hprogram, hsysvar, haddress⟩ =>
    ⟨hprogram, hsysvar, haddress⟩⟩

section

variable (key id : Pubkey)

@[simp] theorem takes_readonly : readonly.Takes key := by simp [readonly]

@[simp] theorem takes_mutable : mutable.Takes key := by simp [mutable]

@[simp] theorem takes_signer : signer.Takes key := by simp [signer]

@[simp] theorem takes_mutableSigner : mutableSigner.Takes key := by simp [mutableSigner]

@[simp] theorem takes_program : (program id).Takes key ↔ key = id := by simp [program]

@[simp] theorem takes_sysvar : (sysvar id).Takes key ↔ key = id := by simp [sysvar]

@[simp] theorem takes_located : (located id).Takes key ↔ key = id := by simp [located]

end

end AccountSpec

/-- The runtime hands an account with at least the privileges that an instruction lists it with: the
other instructions of the transaction and its payer may add to them. -/
structure AccountInfo.Grants (info : AccountInfo) (listed : AccountMeta) : Prop where
  key : info.key = listed.pubkey
  signer : listed.isSigner = true → info.isSigner = true
  writable : listed.isWritable = true → info.isWritable = true

theorem AccountSpec.grants_toMeta_iff {spec : AccountSpec} {info : AccountInfo} {key : Pubkey} :
    spec.Takes key ∧ info.Grants (spec.toMeta key) ↔ spec.Admits info ∧ info.key = key := by
  constructor
  · rintro ⟨htakes, hgrants⟩
    obtain rfl : info.key = key := hgrants.key
    exact ⟨⟨fun h => hgrants.signer (decide_eq_true h), htakes.program, htakes.sysvar,
      hgrants.writable, htakes.address⟩, rfl⟩
  · rintro ⟨hadmits, rfl⟩
    exact ⟨⟨hadmits.program, hadmits.sysvar, hadmits.address⟩,
      ⟨rfl, fun h => hadmits.signer (of_decide_eq_true h), hadmits.writable⟩⟩

/-! ### Accounts -/

/-- The accounts that an account struct takes off the front; their types are checked on the way. -/
def takeAccounts : List AccountSpec → List AccountInfo → Except EntryError (List AccountInfo)
  | [], _ => .ok []
  | _ :: _, [] => .error .accountNotEnoughKeys
  | spec :: specs, info :: infos => do
    spec.checkKind info
    let taken ← takeAccounts specs infos
    pure (info :: taken)

def checkAccounts : List AccountSpec → List AccountInfo → Except EntryError Unit
  | spec :: specs, info :: infos => do
    spec.checkConstraints info
    checkAccounts specs infos
  | _, _ => .ok ()

/-- `try_accounts`. -/
def tryAccounts (specs : List AccountSpec) (infos : List AccountInfo) :
    Except EntryError (List Pubkey) := do
  let taken ← takeAccounts specs infos
  checkAccounts specs taken
  pure (taken.map AccountInfo.key)

theorem takeAccounts_eq_ok {specs : List AccountSpec} {infos taken : List AccountInfo} :
    takeAccounts specs infos = .ok taken ∧ checkAccounts specs taken = .ok () ↔
      List.Forall₂ AccountSpec.Admits specs taken ∧ ∃ more, infos = taken ++ more := by
  induction specs generalizing infos taken with
  | nil =>
    constructor
    · rintro ⟨htake, -⟩
      obtain rfl := Except.ok.inj htake
      exact ⟨.nil, infos, rfl⟩
    · rintro ⟨hadmits, more, rfl⟩
      obtain rfl := List.forall₂_nil_left_iff.mp hadmits
      exact ⟨rfl, rfl⟩
  | cons spec specs ih =>
    constructor
    · rintro ⟨htake, hcheck⟩
      rcases infos with _ | ⟨info, infos⟩
      · cases htake
      · rw [takeAccounts, bind_eq_ok] at htake
        obtain ⟨⟨⟩, hkind, htake⟩ := htake
        obtain ⟨rest, hrest, htake⟩ := bind_eq_ok.mp htake
        obtain rfl := Except.ok.inj htake
        rw [checkAccounts, bind_eq_ok] at hcheck
        obtain ⟨⟨⟩, hconstraints, hcheck⟩ := hcheck
        obtain ⟨hadmits, more, rfl⟩ := ih.mp ⟨hrest, hcheck⟩
        exact ⟨.cons (AccountSpec.checks_eq_ok.mp ⟨hkind, hconstraints⟩) hadmits, more, rfl⟩
    · rintro ⟨hadmits, more, rfl⟩
      rcases hadmits with _ | ⟨hadmits, hrest⟩
      obtain ⟨hkind, hconstraints⟩ := AccountSpec.checks_eq_ok.mpr hadmits
      obtain ⟨htake, hcheck⟩ := ih.mpr ⟨hrest, more, rfl⟩
      constructor
      · rw [List.cons_append, takeAccounts, bind_eq_ok]
        exact ⟨(), hkind, bind_eq_ok.mpr ⟨_, htake, rfl⟩⟩
      · rw [checkAccounts, bind_eq_ok]
        exact ⟨(), hconstraints, hcheck⟩

/-- The keys are those of the first accounts, which have what is asked for. -/
theorem tryAccounts_eq_ok {specs : List AccountSpec} {infos : List AccountInfo} {keys : List Pubkey} :
    tryAccounts specs infos = .ok keys ↔
      ∃ taken more, List.Forall₂ AccountSpec.Admits specs taken ∧ infos = taken ++ more ∧
        keys = taken.map AccountInfo.key := by
  simp only [tryAccounts, bind_eq_ok]
  constructor
  · rintro ⟨taken, htake, ⟨⟩, hcheck, hkeys⟩
    obtain ⟨hadmits, more, hinfos⟩ := takeAccounts_eq_ok.mp ⟨htake, hcheck⟩
    exact ⟨taken, more, hadmits, hinfos, (Except.ok.inj hkeys).symm⟩
  · rintro ⟨taken, more, hadmits, hinfos, rfl⟩
    obtain ⟨htake, hcheck⟩ := takeAccounts_eq_ok.mpr ⟨hadmits, more, hinfos⟩
    exact ⟨taken, htake, (), hcheck, rfl⟩

/-! ### Methods -/

/-- The first 8 bytes of the hash of `global:<name>`. -/
def discriminator (name : String) : List UInt8 :=
  (Sha256.sha256 (ofLiteral "global:" ++ ofLiteral name)).val.take 8

@[simp] theorem length_discriminator (name : String) : (discriminator name).length = 8 := by
  rw [discriminator, List.length_take, length_val]
  rfl

/-- A method of a program, whose calls are of type `C`. -/
structure Method (C : Type) where
  name : String
  Args : Type
  args : Codec Args
  accounts : List AccountSpec
  /-- The call of a method on the keys of its accounts; there is one if it gets as many as it takes. -/
  call : List Pubkey → Args → Option C

variable {C : Type}

namespace Method

/-- The arguments are read and the accounts taken. -/
def enter (m : Method C) (infos : List AccountInfo) (data : List UInt8) : Except EntryError C := do
  let read ← orErr (m.args.read data) .instructionDidNotDeserialize
  let keys ← tryAccounts m.accounts infos
  orErr (m.call keys read.1) .accountNotEnoughKeys

/-- The instruction for a method: its accounts as they are asked for, and its data. -/
def build (m : Method C) (programId : Pubkey) (keys : List Pubkey) (a : m.Args) : Instruction where
  programId
  accounts := List.zipWith AccountSpec.toMeta m.accounts keys
  data := discriminator m.name ++ m.args.write a

theorem enter_eq_ok {m : Method C} {infos : List AccountInfo} {data : List UInt8} {c : C} :
    m.enter infos data = .ok c ↔ ∃ a rest taken more, m.args.Fits a ∧ data = m.args.write a ++ rest ∧
      List.Forall₂ AccountSpec.Admits m.accounts taken ∧ infos = taken ++ more ∧
        m.call (taken.map AccountInfo.key) a = some c := by
  simp only [enter, bind_eq_ok, orErr_eq_ok, tryAccounts_eq_ok]
  constructor
  · rintro ⟨⟨a, rest⟩, hread, keys, ⟨taken, more, hadmits, hinfos, rfl⟩, hcall⟩
    obtain ⟨hfits, hdata⟩ := m.args.of_read _ _ _ hread
    exact ⟨a, rest, taken, more, hfits, hdata, hadmits, hinfos, hcall⟩
  · rintro ⟨a, rest, taken, more, hfits, rfl, hadmits, hinfos, hcall⟩
    exact ⟨(a, rest), m.args.read_write a rest hfits, _, ⟨taken, more, hadmits, hinfos, rfl⟩, hcall⟩

end Method

/-- The dispatcher of a program. -/
def dispatch (methods : List (Method C)) (infos : List AccountInfo) (data : List UInt8) :
    Except EntryError C :=
  match methods.find? fun m => discriminator m.name = data.take 8 with
  | some m => m.enter infos (data.drop 8)
  | none => .error .instructionFallbackNotFound

/-- Of the methods at most one has given first bytes. -/
def Distinct (methods : List (Method C)) : Prop :=
  (methods.map fun m => discriminator m.name).Nodup

theorem find?_discriminator {methods : List (Method C)} (hdistinct : Distinct methods) {m : Method C}
    (hm : m ∈ methods) :
    methods.find? (fun m' => discriminator m'.name = discriminator m.name) = some m := by
  induction methods with
  | nil => cases hm
  | cons m' methods ih =>
    obtain ⟨hnew, hrest⟩ := List.nodup_cons.mp hdistinct
    rcases List.mem_cons.mp hm with rfl | hm
    · rw [List.find?_cons_of_pos (by simp)]
    · have hne : discriminator m'.name ≠ discriminator m.name := fun h =>
        hnew (List.mem_map.mpr ⟨m, hm, h.symm⟩)
      rw [List.find?_cons_of_neg (by simpa using hne), ih hrest hm]

/-- What enters a method. -/
theorem dispatch_eq_ok {methods : List (Method C)} (hdistinct : Distinct methods)
    {infos : List AccountInfo} {data : List UInt8} {c : C} :
    dispatch methods infos data = .ok c ↔ ∃ m ∈ methods, ∃ a rest taken more, m.args.Fits a ∧
      data = discriminator m.name ++ (m.args.write a ++ rest) ∧
        List.Forall₂ AccountSpec.Admits m.accounts taken ∧ infos = taken ++ more ∧
          m.call (taken.map AccountInfo.key) a = some c := by
  constructor
  · intro h
    rw [dispatch] at h
    split at h
    · next m hfind =>
      obtain ⟨a, rest, taken, more, hfits, hdata, henter⟩ := Method.enter_eq_ok.mp h
      have hm : discriminator m.name = data.take 8 := by simpa using List.find?_some hfind
      refine ⟨m, List.mem_of_find?_eq_some hfind, a, rest, taken, more, hfits, ?_, henter⟩
      rw [← hdata, hm, List.take_append_drop]
    · cases h
  · rintro ⟨m, hm, a, rest, taken, more, hfits, rfl, henter⟩
    rw [dispatch, List.take_left' (length_discriminator _), find?_discriminator hdistinct hm]
    refine Method.enter_eq_ok.mpr ⟨a, rest, taken, more, hfits, ?_, henter⟩
    rw [List.drop_left' (length_discriminator _)]

/-- The keys of accounts that are handed for a built instruction, and that its method can take. -/
theorem forall₂_admits_iff {specs : List AccountSpec} {taken : List AccountInfo} {keys : List Pubkey}
    (hlength : specs.length = keys.length) :
    List.Forall₂ AccountSpec.Takes specs keys ∧
        List.Forall₂ AccountInfo.Grants taken (List.zipWith AccountSpec.toMeta specs keys) ↔
      List.Forall₂ AccountSpec.Admits specs taken ∧ taken.map AccountInfo.key = keys := by
  induction specs generalizing taken keys with
  | nil =>
    obtain rfl := List.length_eq_zero_iff.mp hlength.symm
    simp
  | cons spec specs ih =>
    rcases keys with _ | ⟨key, keys⟩
    · cases hlength
    · have hlength := Nat.succ.inj hlength
      rcases taken with _ | ⟨info, taken⟩
      · simp
      · simp only [List.zipWith_cons_cons, List.forall₂_cons, List.map_cons, List.cons.injEq]
        rw [and_and_and_comm, ih hlength, AccountSpec.grants_toMeta_iff, and_and_and_comm]

/-- What enters a method is what is built for it, up to what is left over and to further privileges. -/
theorem dispatch_eq_ok_iff_built {methods : List (Method C)} (hdistinct : Distinct methods)
    (programId : Pubkey) {infos : List AccountInfo} {data : List UInt8} {c : C} :
    dispatch methods infos data = .ok c ↔ ∃ m ∈ methods, ∃ keys a rest taken more,
      List.Forall₂ AccountSpec.Takes m.accounts keys ∧ m.call keys a = some c ∧ m.args.Fits a ∧
        data = (m.build programId keys a).data ++ rest ∧ infos = taken ++ more ∧
          List.Forall₂ AccountInfo.Grants taken (m.build programId keys a).accounts := by
  rw [dispatch_eq_ok hdistinct]
  constructor
  · rintro ⟨m, hm, a, rest, taken, more, hfits, hdata, hadmits, hinfos, hcall⟩
    have hlength : m.accounts.length = (taken.map AccountInfo.key).length := by
      rw [hadmits.length_eq, List.length_map]
    obtain ⟨htakes, hgrants⟩ := (forall₂_admits_iff hlength).mpr ⟨hadmits, rfl⟩
    refine ⟨m, hm, _, a, rest, taken, more, htakes, hcall, hfits, ?_, hinfos, hgrants⟩
    rw [hdata, Method.build, List.append_assoc]
  · rintro ⟨m, hm, keys, a, rest, taken, more, htakes, hcall, hfits, hdata, hinfos, hgrants⟩
    obtain ⟨hadmits, rfl⟩ := (forall₂_admits_iff htakes.length_eq).mp ⟨htakes, hgrants⟩
    refine ⟨m, hm, a, rest, taken, more, hfits, ?_, hadmits, hinfos, hcall⟩
    rw [hdata, Method.build, List.append_assoc]

/-! ### Clients -/

/-- What a client can ask a program for: of each request the method, the keys of its accounts and its
arguments.  Nothing that a method could take is left out. -/
structure Client (methods : List (Method C)) (Request : Type) where
  method : Request → Method C
  keys : Request → List Pubkey
  args : ∀ r, (method r).Args
  mem : ∀ r, method r ∈ methods
  takes : ∀ r, List.Forall₂ AccountSpec.Takes (method r).accounts (keys r)
  exhausts : ∀ (P : ∀ m : Method C, List Pubkey → m.Args → Prop),
    (∀ r, P (method r) (keys r) (args r)) →
      ∀ m ∈ methods, ∀ ks, List.Forall₂ AccountSpec.Takes m.accounts ks → ∀ a, P m ks a

namespace Client

variable {methods : List (Method C)} {Request : Type} (client : Client methods Request)

/-- The instruction of a request. -/
def build (programId : Pubkey) (r : Request) : Instruction :=
  (client.method r).build programId (client.keys r) (client.args r)

/-- The arguments of a request can be written. -/
def Fits (r : Request) : Prop := (client.method r).args.Fits (client.args r)

/-- What is asked of the program. -/
def call (r : Request) : Option C := (client.method r).call (client.keys r) (client.args r)

/-- A program is entered exactly by the instructions of its client. -/
theorem dispatch_eq_ok_iff (hdistinct : Distinct methods) (programId : Pubkey)
    {infos : List AccountInfo} {data : List UInt8} {c : C} :
    dispatch methods infos data = .ok c ↔ ∃ r rest taken more, client.Fits r ∧
      client.call r = some c ∧ data = (client.build programId r).data ++ rest ∧ infos = taken ++ more ∧
        List.Forall₂ AccountInfo.Grants taken (client.build programId r).accounts := by
  rw [dispatch_eq_ok_iff_built hdistinct programId]
  constructor
  · rintro ⟨m, hm, ks, a, rest, taken, more, htakes, hentered⟩
    revert hentered
    refine client.exhausts (fun m ks a => m.call ks a = some c ∧ m.args.Fits a ∧
      data = (m.build programId ks a).data ++ rest ∧ infos = taken ++ more ∧
        List.Forall₂ AccountInfo.Grants taken (m.build programId ks a).accounts → _)
      (fun r => ?_) m hm ks htakes a
    rintro ⟨hcall, hfits, hentered⟩
    exact ⟨r, rest, taken, more, hfits, hcall, hentered⟩
  · rintro ⟨r, rest, taken, more, hfits, hcall, hentered⟩
    exact ⟨client.method r, client.mem r, client.keys r, client.args r, rest, taken, more,
      client.takes r, hcall, hfits, hentered⟩

end Client

end Anchor
