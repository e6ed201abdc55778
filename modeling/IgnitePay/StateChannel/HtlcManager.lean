/-
The records of HTLCs (`htlc.rs`).

The manager keeps a record for each hash lock, with the preimage and where the
money is, and walks it through its states.  All records are written to the
database, as one list under one key, after each change; the calls to the database
are taken to succeed.  The order of the list is that of a `HashMap`, which does
not matter for what is read back.

* `changes_of_exec` — what a call does to the record under a hash lock;
* `records_kept` — where no lock is used again, a record leaves only by a cleanup,
  and only once it is fulfilled, refunded or expired.
-/
import IgnitePay.Lib.Run
import IgnitePay.StateChannel.Funding

namespace StateChannel

open Bytes Machine Solana

/-! ### Records -/

inductive HtlcState
  | pending
  | revealed
  | fulfilled
  | expired
  | refunded
deriving DecidableEq, Repr

structure HtlcRecord where
  preimage : Bytes 32
  hashLock : Bytes 32
  createdSlot : UInt64
  timelockSlot : UInt64
  amount : UInt64
  leafIndex : ℕ
  beneficiary : Pubkey
  owner : Pubkey
  state : HtlcState
deriving DecidableEq

/-- What a new HTLC is created from. -/
structure NewHtlc where
  amount : UInt64
  leafIndex : ℕ
  owner : Pubkey
  beneficiary : Pubkey
  currentSlot : UInt64
  durationSlots : UInt64
deriving DecidableEq

structure HtlcManager where
  records : Store.Map (Bytes 32) HtlcRecord
  /-- The database, if there is one: what it holds under the channel's key. -/
  db : Option (Option (List HtlcRecord))

abbrev HtlcOp := Method HtlcManager StateChannelError

namespace HtlcManager

/-- `persist_to_db`. -/
def persistToDb (m : HtlcManager) : HtlcManager :=
  { m with db := m.db.map fun _ => some (Store.values m.records) }

/-- `load_from_db`, into no records. -/
def loadFromDb (stored : Option (List HtlcRecord)) : Store.Map (Bytes 32) HtlcRecord :=
  Store.insertAll HtlcRecord.hashLock (stored.getD []) ∅

/-- `HtlcManager::new`. -/
def new : HtlcManager := ⟨∅, none⟩

/-- `HtlcManager::with_db`. -/
def withDb (stored : Option (List HtlcRecord)) : HtlcManager := ⟨loadFromDb stored, some stored⟩

section

variable (sha : List UInt8 → Bytes 32)

/-- `verify_preimage`. -/
def verifyPreimage (hashLock preimage : Bytes 32) : Bool := decide (sha preimage.val = hashLock)

/-- The record of a new HTLC. -/
def record (preimage : Bytes 32) (n : NewHtlc) : HtlcRecord where
  preimage
  hashLock := sha preimage.val
  createdSlot := n.currentSlot
  timelockSlot := saturatingAdd n.currentSlot n.durationSlots
  amount := n.amount
  leafIndex := n.leafIndex
  beneficiary := n.beneficiary
  owner := n.owner
  state := .pending

/-- `create_htlc_with_preimage`. -/
def createHtlcWithPreimage (preimage : Bytes 32) (n : NewHtlc) : HtlcOp (Bytes 32) := do
  let hashLock := sha preimage.val
  modify fun m => { m with records := m.records.insert hashLock (record sha preimage n) }
  modify persistToDb
  return hashLock

/-- `create_htlc`, with the preimage that was made up for it. -/
def createHtlc (random : Bytes 32) (n : NewHtlc) : HtlcOp (Bytes 32 × Bytes 32) := do
  let hashLock := sha random.val
  modify fun m => { m with records := m.records.insert hashLock (record sha random n) }
  modify persistToDb
  return (hashLock, random)

/-- `self.records.get_mut(hash_lock)`, or the error. -/
def find (hashLock : Bytes 32) : HtlcOp HtlcRecord := do
  let m ← get
  orThrow (m.records.lookup hashLock) (.other "HTLC not found")

/-- The record goes on to a state, and all are persisted. -/
def setState (hashLock : Bytes 32) (record : HtlcRecord) (state : HtlcState) : HtlcOp Unit := do
  modify fun m => { m with records := m.records.insert hashLock { record with state } }
  modify persistToDb

/-- `reveal_preimage`. -/
def revealPreimage (hashLock preimage : Bytes 32) : HtlcOp Unit := do
  let record ← find hashLock
  check (record.state = .pending) (.other "HTLC is not in pending state")
  check (verifyPreimage sha hashLock preimage) .hashLockMismatch
  setState hashLock record .revealed

end

/-- A pending record past its timelock. -/
def Expires (currentSlot : UInt64) (r : HtlcRecord) : Prop :=
  r.state = .pending ∧ currentSlot > r.timelockSlot

instance (currentSlot : UInt64) (r : HtlcRecord) : Decidable (Expires currentSlot r) :=
  inferInstanceAs (Decidable (_ ∧ _))

/-- The record after the loop. -/
def expire (currentSlot : UInt64) (r : HtlcRecord) : HtlcRecord :=
  if Expires currentSlot r then { r with state := .expired } else r

/-- `check_expiry`. -/
def checkExpiry (currentSlot : UInt64) : HtlcOp (List (Bytes 32)) := do
  let m ← get
  let expired := ((Store.values m.records).filter fun r => Expires currentSlot r).map
    HtlcRecord.hashLock
  modify fun m => { m with
    records := Store.mapValues (expire currentSlot) m.records }
  if expired = [] then pure () else modify persistToDb
  return expired

/-- `mark_fulfilled`. -/
def markFulfilled (hashLock : Bytes 32) : HtlcOp Unit := do
  let record ← find hashLock
  check (record.state = .revealed) (.other "HTLC must be revealed before fulfilling")
  setState hashLock record .fulfilled

/-- `mark_refunded`. -/
def markRefunded (hashLock : Bytes 32) : HtlcOp Unit := do
  let record ← find hashLock
  check (record.state = .expired) (.other "HTLC must be expired before refunding")
  setState hashLock record .refunded

/-- `cleanup`. -/
def cleanup : HtlcOp Unit := do
  modify fun m => { m with
    records := Store.retain (fun r => r.state = .pending ∨ r.state = .revealed) m.records }
  modify persistToDb

/-- `with_db` on the manager's own database, after a restart; a manager without one is
not reloaded. -/
def reload : HtlcOp Unit := do
  let m ← get
  match m.db with
  | some stored => modify fun _ => withDb stored
  | none => pure ()

end HtlcManager

/-- A call of the manager; `random` is what the generator gives. -/
inductive HtlcCall
  | createHtlc (random : Bytes 32) (n : NewHtlc)
  | createHtlcWithPreimage (preimage : Bytes 32) (n : NewHtlc)
  | revealPreimage (hashLock preimage : Bytes 32)
  | checkExpiry (currentSlot : UInt64)
  | markFulfilled (hashLock : Bytes 32)
  | markRefunded (hashLock : Bytes 32)
  | cleanup
  | reload
deriving DecidableEq

namespace HtlcCall

def method (sha : List UInt8 → Bytes 32) : HtlcCall → HtlcOp Unit
  | createHtlc random n => do let _ ← HtlcManager.createHtlc sha random n
  | createHtlcWithPreimage preimage n => do let _ ← HtlcManager.createHtlcWithPreimage sha preimage n
  | revealPreimage hashLock preimage => HtlcManager.revealPreimage sha hashLock preimage
  | checkExpiry currentSlot => do let _ ← HtlcManager.checkExpiry currentSlot
  | markFulfilled hashLock => HtlcManager.markFulfilled hashLock
  | markRefunded hashLock => HtlcManager.markRefunded hashLock
  | cleanup => HtlcManager.cleanup
  | reload => HtlcManager.reload

/-- A call on a manager; one that fails changes nothing. -/
def exec (sha : List UInt8 → Bytes 32) (c : HtlcCall) (m : HtlcManager) :
    Except StateChannelError HtlcManager :=
  match (c.method sha).call m with
  | (.ok _, m') => .ok m'
  | (.error e, _) => .error e

end HtlcCall

/-! ### What a call does to a record -/

/-- What a call creates a record from. -/
def HtlcCall.creates : HtlcCall → Option (Bytes 32 × NewHtlc)
  | createHtlc random n => some (random, n)
  | createHtlcWithPreimage preimage n => some (preimage, n)
  | _ => none

/-- What a call may leave under the hash lock `k`, where the record `r` stands. -/
inductive Changes (sha : List UInt8 → Bytes 32) (k : Bytes 32) (r : HtlcRecord) :
    HtlcCall → Option HtlcRecord → Prop
  | kept (c : HtlcCall) : Changes sha k r c (some r)
  | created {c : HtlcCall} {preimage : Bytes 32} {n : NewHtlc}
      (creates_eq : c.creates = some (preimage, n)) (lock_eq : sha preimage.val = k) :
      Changes sha k r c (some (HtlcManager.record sha preimage n))
  | revealed {preimage : Bytes 32} (opens : sha preimage.val = k) (state_eq : r.state = .pending) :
      Changes sha k r (.revealPreimage k preimage) (some { r with state := .revealed })
  | expired {currentSlot : UInt64} (expires : HtlcManager.Expires currentSlot r) :
      Changes sha k r (.checkExpiry currentSlot) (some { r with state := .expired })
  | fulfilled (state_eq : r.state = .revealed) :
      Changes sha k r (.markFulfilled k) (some { r with state := .fulfilled })
  | refunded (state_eq : r.state = .expired) :
      Changes sha k r (.markRefunded k) (some { r with state := .refunded })
  | removed (inactive : ¬ (r.state = .pending ∨ r.state = .revealed)) :
      Changes sha k r .cleanup none

namespace HtlcManager

/-- Every record stands under its own hash lock, and the database holds the records. -/
structure Wf (m : HtlcManager) : Prop where
  hashLock_eq : ∀ k r, m.records.lookup k = some r → r.hashLock = k
  stored_eq : ∀ stored, m.db = some stored →
    ∀ k, (loadFromDb stored).lookup k = m.records.lookup k

theorem wf_persistToDb {m : HtlcManager}
    (hkeys : ∀ k r, m.records.lookup k = some r → r.hashLock = k) : Wf m.persistToDb := by
  refine ⟨hkeys, ?_⟩
  intro stored hstored k
  obtain ⟨-, -, rfl⟩ := Option.map_eq_some_iff.mp hstored
  exact Store.lookup_insertAll_values hkeys k

theorem hashLock_of_loadFromDb {stored : Option (List HtlcRecord)} {k : Bytes 32} {r : HtlcRecord}
    (h : (loadFromDb stored).lookup k = some r) : r.hashLock = k := by
  have hall : ∀ (l : List HtlcRecord) (s : Store.Map (Bytes 32) HtlcRecord),
      (∀ k r, s.lookup k = some r → r.hashLock = k) →
        ∀ k r, (Store.insertAll HtlcRecord.hashLock l s).lookup k = some r → r.hashLock = k := by
    intro l
    induction l with
    | nil => exact fun s hs => hs
    | cons r₀ l ih =>
      intro s hs
      refine ih (s.insert r₀.hashLock r₀) fun k r hr => ?_
      rw [Store.lookup_insert_eq] at hr
      split at hr
      · next hk => exact Option.some_inj.mp hr ▸ hk.symm
      · exact hs k r hr
  exact hall _ ∅ (fun _ _ h => absurd h (by simp)) k r h

theorem wf_new : Wf new := ⟨fun _ _ h => absurd h (by simp [new]), fun _ h => absurd h (by simp [new])⟩

theorem wf_withDb (stored : Option (List HtlcRecord)) : Wf (withDb stored) := by
  refine ⟨fun _ _ => hashLock_of_loadFromDb, ?_⟩
  intro stored' h k
  obtain rfl := Option.some_inj.mp h
  rfl

section

variable {sha : List UInt8 → Bytes 32} {m m' : HtlcManager} {k : Bytes 32} {r : HtlcRecord}
  {c : HtlcCall}

theorem returns_find_bind {f : HtlcRecord → HtlcOp Unit} :
    Returns (find k >>= f) m () m' ↔ ∃ r, m.records.lookup k = some r ∧ Returns (f r) m () m' := by
  simp only [find, bind_assoc, returns_get_bind, returns_orThrow_bind]

theorem setState_returns {state : HtlcState} : Returns (setState k r state) m () m' ↔
    m' = ({ m with records := m.records.insert k { r with state } }).persistToDb := by
  rw [setState, returns_modify_bind, returns_modify]
  exact eq_comm

/-- A record that goes on to another state, and all the others. -/
theorem lookup_setState {state : HtlcState} (hr : m.records.lookup k = some r) {k' : Bytes 32}
    {r' : HtlcRecord} (hr' : m.records.lookup k' = some r') :
    (m.records.insert k { r with state }).lookup k' = some r' ∨
      (k' = k ∧ r' = r ∧ (m.records.insert k { r with state }).lookup k' = some { r with state }) := by
  rw [Store.lookup_insert_eq]
  by_cases heq : k' = k
  · subst heq
    rw [if_pos rfl]
    exact .inr ⟨rfl, Option.some_inj.mp (hr'.symm.trans hr), rfl⟩
  · rw [if_neg heq]
    exact .inl hr'

theorem wf_setState {state : HtlcState} (hwf : Wf m) (hr : m.records.lookup k = some r) :
    Wf ({ m with records := m.records.insert k { r with state } }).persistToDb := by
  refine wf_persistToDb fun k' r' hr' => ?_
  rw [Store.lookup_insert_eq] at hr'
  split at hr'
  · next hk =>
    obtain rfl := Option.some_inj.mp hr'
    rw [hk]
    exact hwf.hashLock_eq k r hr
  · exact hwf.hashLock_eq k' r' hr'

/-- Where nothing expires nothing is persisted, and nothing has changed. -/
theorem checkExpiry_returns {currentSlot : UInt64} {expired : List (Bytes 32)} (hwf : Wf m)
    (h : Returns (checkExpiry currentSlot) m expired m') :
    m'.records = Store.mapValues (expire currentSlot) m.records ∧ Wf m' := by
  have hkeys : ∀ k r, (Store.mapValues (expire currentSlot) m.records).lookup k = some r →
      r.hashLock = k := by
    intro k r hr
    rw [Store.lookup_mapValues, Option.map_eq_some_iff] at hr
    obtain ⟨r₀, hr₀, rfl⟩ := hr
    have hlock : (expire currentSlot r₀).hashLock = r₀.hashLock := by
      rw [expire]
      split
      · rfl
      · rfl
    rw [hlock]
    exact hwf.hashLock_eq k r₀ hr₀
  rw [checkExpiry, returns_get_bind, returns_modify_bind] at h
  by_cases hnone : ((Store.values m.records).filter fun r => Expires currentSlot r).map
      HtlcRecord.hashLock = []
  · simp only [if_pos hnone, returns_pure] at h
    obtain ⟨-, rfl⟩ := h
    refine ⟨rfl, hkeys, fun stored hstored k => ?_⟩
    rw [hwf.stored_eq stored hstored k, Store.lookup_mapValues]
    rcases hr : m.records.lookup k with _ | r
    · rfl
    · have hmem : r ∈ Store.values m.records :=
        List.mem_map.mpr ⟨⟨k, r⟩, AList.mem_lookup_iff.mp hr, rfl⟩
      have hno : ¬ Expires currentSlot r := by
        intro hexpires
        have hfiltered : r ∈ (Store.values m.records).filter fun r => Expires currentSlot r :=
          List.mem_filter.mpr ⟨hmem, decide_eq_true hexpires⟩
        rw [List.map_eq_nil_iff.mp hnone] at hfiltered
        exact absurd hfiltered List.not_mem_nil
      rw [Option.map_some, expire, if_neg hno]
  · simp only [if_neg hnone, returns_modify_bind, returns_pure] at h
    obtain ⟨-, rfl⟩ := h
    exact ⟨rfl, wf_persistToDb hkeys⟩

end

end HtlcManager

namespace HtlcCall

variable {sha : List UInt8 → Bytes 32} {m m' : HtlcManager} {k : Bytes 32} {r : HtlcRecord}
  {c : HtlcCall}

theorem exec_eq_ok : c.exec sha m = .ok m' ↔ Returns (c.method sha) m () m' := by
  rw [exec, Returns]
  rcases (c.method sha).call m with ⟨e | _, m₁⟩
  · simp
  · simp

/-- What is left once a record is created. -/
theorem eq_of_creates {preimage : Bytes 32} {n : NewHtlc} (hc : c.creates = some (preimage, n))
    (h : c.exec sha m = .ok m') :
    m' = HtlcManager.persistToDb
      { m with records := m.records.insert (sha preimage.val) (HtlcManager.record sha preimage n) } := by
  have h := exec_eq_ok.mp h
  cases c with
  | createHtlc random n' =>
    obtain ⟨rfl, rfl⟩ := Prod.mk.inj (Option.some_inj.mp hc)
    obtain ⟨_, m₁, h₁, h⟩ := returns_bind.mp h
    obtain ⟨-, rfl⟩ := returns_pure.mp h
    rw [HtlcManager.createHtlc, returns_modify_bind, returns_modify_bind, returns_pure] at h₁
    exact h₁.2.symm
  | createHtlcWithPreimage preimage' n' =>
    obtain ⟨rfl, rfl⟩ := Prod.mk.inj (Option.some_inj.mp hc)
    obtain ⟨_, m₁, h₁, h⟩ := returns_bind.mp h
    obtain ⟨-, rfl⟩ := returns_pure.mp h
    rw [HtlcManager.createHtlcWithPreimage, returns_modify_bind, returns_modify_bind,
      returns_pure] at h₁
    exact h₁.2.symm
  | _ => exact absurd hc (by simp [creates])

/-- The three calls that find a record set its state. -/
theorem changes_of_setState (hwf : m.Wf) {state : HtlcState} (hr : m.records.lookup k = some r)
    (hchange : Changes sha k r c (some { r with state }))
    (h : Returns (HtlcManager.setState k r state) m () m') :
    m'.Wf ∧ ∀ k r, m.records.lookup k = some r → Changes sha k r c (m'.records.lookup k) := by
  obtain rfl := HtlcManager.setState_returns.mp h
  refine ⟨HtlcManager.wf_setState hwf hr, fun k' r' hr' => ?_⟩
  show Changes sha k' r' c ((m.records.insert k { r with state }).lookup k')
  rcases HtlcManager.lookup_setState hr hr' with hsame | ⟨rfl, rfl, hnow⟩
  · rw [hsame]
    exact .kept c
  · rw [hnow]
    exact hchange

/-- A new record stands under its own lock; the others are kept. -/
theorem changes_of_creates (hwf : m.Wf) {preimage : Bytes 32} {n : NewHtlc}
    (hc : c.creates = some (preimage, n)) (h : c.exec sha m = .ok m') :
    m'.Wf ∧ ∀ k r, m.records.lookup k = some r → Changes sha k r c (m'.records.lookup k) := by
  obtain rfl := eq_of_creates hc h
  constructor
  · refine HtlcManager.wf_persistToDb fun k r hr => ?_
    rw [Store.lookup_insert_eq] at hr
    split at hr
    · next hk =>
      obtain rfl := Option.some_inj.mp hr
      exact hk.symm
    · exact hwf.hashLock_eq k r hr
  · intro k r hr
    show Changes sha k r c
      ((m.records.insert (sha preimage.val) (HtlcManager.record sha preimage n)).lookup k)
    rw [Store.lookup_insert_eq]
    by_cases hk : k = sha preimage.val
    · rw [if_pos hk]
      exact .created hc hk.symm
    · rw [if_neg hk, hr]
      exact .kept c

theorem changes_of_cleanup (hwf : m.Wf) (h : Returns HtlcManager.cleanup m () m') :
    m'.Wf ∧ ∀ k r, m.records.lookup k = some r → Changes sha k r .cleanup (m'.records.lookup k) := by
  rw [HtlcManager.cleanup, returns_modify_bind, returns_modify] at h
  subst h
  constructor
  · refine HtlcManager.wf_persistToDb fun k r hr => hwf.hashLock_eq k r ?_
    rw [Store.lookup_retain, Option.filter_eq_some_iff] at hr
    exact hr.1
  · intro k r hr
    show Changes sha k r .cleanup
      ((Store.retain (fun r => r.state = .pending ∨ r.state = .revealed) m.records).lookup k)
    rw [Store.lookup_retain, hr]
    by_cases hactive : r.state = .pending ∨ r.state = .revealed
    · rw [Option.filter_some, if_pos (decide_eq_true hactive)]
      exact .kept _
    · rw [Option.filter_some, if_neg (by simpa using hactive)]
      exact .removed hactive

/-- What was persisted is what there is. -/
theorem lookup_of_reload (hwf : m.Wf) (h : Returns HtlcManager.reload m () m') :
    m'.Wf ∧ ∀ k, m'.records.lookup k = m.records.lookup k := by
  rw [HtlcManager.reload, returns_get_bind] at h
  rcases hdb : m.db with _ | stored
  · rw [hdb] at h
    obtain ⟨-, rfl⟩ := returns_pure.mp h
    exact ⟨hwf, fun k => rfl⟩
  · rw [hdb] at h
    obtain rfl := returns_modify.mp h
    exact ⟨HtlcManager.wf_withDb stored, hwf.stored_eq stored hdb⟩

/-- What a call does: it keeps the records in order, and to each it does what it may. -/
theorem changes_of_exec (hwf : m.Wf) (h : c.exec sha m = .ok m') :
    m'.Wf ∧ ∀ k r, m.records.lookup k = some r → Changes sha k r c (m'.records.lookup k) := by
  have hreturns := exec_eq_ok.mp h
  cases c with
  | createHtlc random n => exact changes_of_creates hwf rfl h
  | createHtlcWithPreimage preimage n => exact changes_of_creates hwf rfl h
  | revealPreimage k₀ preimage =>
    simp only [method, HtlcManager.revealPreimage, HtlcManager.returns_find_bind,
      returns_check_bind] at hreturns
    obtain ⟨r₀, hr₀, hstate, hopens, hreturns⟩ := hreturns
    exact changes_of_setState hwf hr₀ (.revealed (of_decide_eq_true hopens) hstate) hreturns
  | checkExpiry currentSlot =>
    obtain ⟨_, m₁, h₁, h₂⟩ := returns_bind.mp hreturns
    obtain ⟨-, rfl⟩ := returns_pure.mp h₂
    obtain ⟨hrecords, hwf'⟩ := HtlcManager.checkExpiry_returns hwf h₁
    refine ⟨hwf', fun k r hr => ?_⟩
    rw [hrecords, Store.lookup_mapValues, hr, Option.map_some, HtlcManager.expire]
    by_cases hexpires : HtlcManager.Expires currentSlot r
    · rw [if_pos hexpires]
      exact .expired hexpires
    · rw [if_neg hexpires]
      exact .kept _
  | markFulfilled k₀ =>
    simp only [method, HtlcManager.markFulfilled, HtlcManager.returns_find_bind,
      returns_check_bind] at hreturns
    obtain ⟨r₀, hr₀, hstate, hreturns⟩ := hreturns
    exact changes_of_setState hwf hr₀ (.fulfilled hstate) hreturns
  | markRefunded k₀ =>
    simp only [method, HtlcManager.markRefunded, HtlcManager.returns_find_bind,
      returns_check_bind] at hreturns
    obtain ⟨r₀, hr₀, hstate, hreturns⟩ := hreturns
    exact changes_of_setState hwf hr₀ (.refunded hstate) hreturns
  | cleanup => exact changes_of_cleanup hwf hreturns
  | reload =>
    obtain ⟨hwf', hsame⟩ := lookup_of_reload hwf hreturns
    refine ⟨hwf', fun k r hr => ?_⟩
    rw [hsame, hr]
    exact .kept _

end HtlcCall

/-! ### What a run keeps -/

namespace HtlcState

/-- The states that follow one another: a record is revealed and fulfilled, or expires and is
refunded. -/
def Leads (s t : HtlcState) : Prop :=
  s = t ∨ s = .pending ∨ (s = .revealed ∧ t = .fulfilled) ∨ (s = .expired ∧ t = .refunded)

/-- The leaf has been paid out. -/
def Done (s : HtlcState) : Prop := s = .fulfilled ∨ s = .refunded

end HtlcState

namespace HtlcRecord

/-- `r'` is `r` in a state that follows. -/
def Follows (r r' : HtlcRecord) : Prop := r' = { r with state := r'.state } ∧ r.state.Leads r'.state

theorem Follows.refl (r : HtlcRecord) : r.Follows r := ⟨rfl, .inl rfl⟩

/-- A state further on. -/
theorem Follows.next {r r' : HtlcRecord} (h : r.Follows r') {state : HtlcState}
    (hnext : r'.state = .pending ∨ (r'.state = .revealed ∧ state = .fulfilled) ∨
      (r'.state = .expired ∧ state = .refunded)) : r.Follows { r' with state } := by
  obtain ⟨heq, hleads⟩ := h
  refine ⟨?_, ?_⟩
  · rw [heq]
  · show r.state.Leads state
    unfold HtlcState.Leads at hleads ⊢
    rcases hleads with hsame | hpending | ⟨-, hdone⟩ | ⟨-, hdone⟩
    · rw [hsame]
      exact .inr hnext
    · exact .inr (.inl hpending)
    · rw [hdone] at hnext
      exact absurd hnext (by simp)
    · rw [hdone] at hnext
      exact absurd hnext (by simp)

end HtlcRecord

section

variable {sha : List UInt8 → Bytes 32} {m₀ m₁ m : HtlcManager}
  {h h₁ : List (HtlcManager × HtlcCall)} {k : Bytes 32} {r : HtlcRecord}

/-- A manager as it is when it is made. -/
def HtlcManager.Fresh (m : HtlcManager) : Prop := m = new ∨ ∃ stored, m = withDb stored

theorem wf_of_run (hfresh : m₀.Fresh) (hrun : Run (HtlcCall.exec sha) m₀ h m) : m.Wf := by
  refine hrun.invariant ?_ fun _ _ _ hwf hexec => (HtlcCall.changes_of_exec hwf hexec).1
  rcases hfresh with rfl | ⟨stored, rfl⟩
  · exact HtlcManager.wf_new
  · exact HtlcManager.wf_withDb stored

/-- The calls of a run under which a record of the lock `k` is not lost: the lock is not used for
another HTLC while the record stands there, and there is no cleanup while it is expired. -/
def Spares (sha : List UInt8 → Bytes 32) (k : Bytes 32) (m : HtlcManager) (c : HtlcCall) : Prop :=
  (∀ preimage n, c.creates = some (preimage, n) → sha preimage.val = k →
    m.records.lookup k = none) ∧
  (c = .cleanup → ∀ r, m.records.lookup k = some r → r.state ≠ .expired)

instance (sha : List UInt8 → Bytes 32) (k : Bytes 32) (m : HtlcManager) (c : HtlcCall) :
    Decidable (Spares sha k m c) :=
  decidable_of_iff ((c.creates.all fun p => sha p.1.val = k → m.records.lookup k = none) ∧
    (c = .cleanup → (m.records.lookup k).all fun r => r.state ≠ .expired)) (by
      simp only [Spares, Option.all_eq_true, decide_eq_true_iff, Prod.forall])

/-- The HTLC of the lock is marked as paid out. -/
def HtlcCall.Settles (k : Bytes 32) (c : HtlcCall) : Prop :=
  c = .markFulfilled k ∨ c = .markRefunded k

/-- A record that is not paid out stays, and goes through its states, until its HTLC is marked so. -/
theorem active_kept (hwf : m₁.Wf) (hrun : Run (HtlcCall.exec sha) m₁ h m)
    (hr : m₁.records.lookup k = some r) (hactive : ¬ r.state.Done)
    (hspares : ∀ c ∈ h, Spares sha k c.1 c.2) :
    (∃ r', m.records.lookup k = some r' ∧ r.Follows r' ∧
      (r'.state.Done → ∃ c ∈ h, c.2.Settles k)) ∨ ∃ c ∈ h, c.2.Settles k := by
  induction hrun with
  | start => exact .inl ⟨r, hr, .refl r, fun hdone => absurd hdone hactive⟩
  | @step h m m' c hrun hexec ih =>
    obtain ⟨⟨hnew, hcleanup⟩, hrest⟩ := List.forall_mem_cons.mp hspares
    have hlater : (∃ c' ∈ h, c'.2.Settles k) → ∃ c' ∈ (m, c) :: h, c'.2.Settles k := by
      rintro ⟨c', hc', hsettles⟩
      exact ⟨c', List.mem_cons_of_mem _ hc', hsettles⟩
    rcases ih hrest with ⟨r', hr', hfollows, hdone⟩ | hsettled
    · have hwf' : m.Wf := hrun.invariant hwf fun _ _ _ hwf hexec =>
        (HtlcCall.changes_of_exec hwf hexec).1
      have hchange := (HtlcCall.changes_of_exec hwf' hexec).2 k r' hr'
      revert hchange
      generalize hnow : m'.records.lookup k = o
      intro hchange
      cases hchange with
      | kept => exact .inl ⟨r', rfl, hfollows, fun hd => hlater (hdone hd)⟩
      | created hc hlock =>
        have hnone := hnew _ _ hc hlock
        rw [hr'] at hnone
        exact absurd hnone (by simp)
      | revealed _ hstate =>
        refine .inl ⟨_, rfl, hfollows.next (.inl hstate), fun hd => ?_⟩
        exact absurd hd (by simp [HtlcState.Done])
      | expired hexpires =>
        refine .inl ⟨_, rfl, hfollows.next (.inl hexpires.1), fun hd => ?_⟩
        exact absurd hd (by simp [HtlcState.Done])
      | fulfilled => exact .inr ⟨_, List.mem_cons_self, .inl rfl⟩
      | refunded => exact .inr ⟨_, List.mem_cons_self, .inr rfl⟩
      | removed hinactive =>
        -- A cleanup drops it: it is not expired, so it was paid out before.
        have hexpired := hcleanup rfl r' hr'
        refine .inr (hlater (hdone ?_))
        unfold HtlcState.Done
        cases hstate : r'.state with
        | pending => exact absurd (.inl hstate) hinactive
        | revealed => exact absurd (.inr hstate) hinactive
        | fulfilled => exact .inl rfl
        | expired => exact absurd hstate hexpired
        | refunded => exact .inr rfl
    · exact .inr (hlater hsettled)

/-- A record that is paid out stays as it is, until a cleanup. -/
theorem done_kept (hwf : m₁.Wf) (hrun : Run (HtlcCall.exec sha) m₁ h m)
    (hr : m₁.records.lookup k = some r) (hdone : r.state.Done)
    (hspares : ∀ c ∈ h, Spares sha k c.1 c.2) :
    m.records.lookup k = some r ∨ ∃ c ∈ h, c.2 = .cleanup := by
  induction hrun with
  | start => exact .inl hr
  | @step h m m' c hrun hexec ih =>
    obtain ⟨⟨hnew, -⟩, hrest⟩ := List.forall_mem_cons.mp hspares
    rcases ih hrest with hr' | ⟨c', hc', hcleanup⟩
    · have hwf' : m.Wf := hrun.invariant hwf fun _ _ _ hwf hexec =>
        (HtlcCall.changes_of_exec hwf hexec).1
      have hchange := (HtlcCall.changes_of_exec hwf' hexec).2 k r hr'
      unfold HtlcState.Done at hdone
      revert hchange
      generalize hnow : m'.records.lookup k = o
      intro hchange
      cases hchange with
      | kept => exact .inl rfl
      | created hc hlock =>
        have hnone := hnew _ _ hc hlock
        rw [hr'] at hnone
        exact absurd hnone (by simp)
      | revealed _ hstate => exact absurd hdone (by simp [hstate])
      | expired hexpires => exact absurd hdone (by simp [hexpires.1])
      | fulfilled hstate => exact absurd hdone (by simp [hstate])
      | refunded hstate => exact absurd hdone (by simp [hstate])
      | removed => exact .inr ⟨_, List.mem_cons_self, rfl⟩
    · exact .inr ⟨c', List.mem_cons_of_mem _ hc', hcleanup⟩

/-- In every run of a manager, a creation leaves its record; and as long as its lock is not used again
and there is no cleanup while it is expired, a record stays, with all its data, until its HTLC is
marked as fulfilled or refunded, and then in that state until a cleanup. -/
theorem records_kept (sha : List UInt8 → Bytes 32) (m₀ : HtlcManager) (hfresh : m₀.Fresh)
    {h₁ : List (HtlcManager × HtlcCall)} {m₁ : HtlcManager}
    (hbefore : Run (HtlcCall.exec sha) m₀ h₁ m₁) :
    (∀ (c : HtlcCall) preimage n m', c.exec sha m₁ = .ok m' → c.creates = some (preimage, n) →
      m'.records.lookup (sha preimage.val) = some (HtlcManager.record sha preimage n)) ∧
    ∀ k r, m₁.records.lookup k = some r → ∀ h m, Run (HtlcCall.exec sha) m₁ h m →
      (∀ c ∈ h, Spares sha k c.1 c.2) →
        (¬ r.state.Done → (∃ r', m.records.lookup k = some r' ∧ r.Follows r') ∨
          ∃ c ∈ h, c.2.Settles k) ∧
        (r.state.Done → m.records.lookup k = some r ∨ ∃ c ∈ h, c.2 = .cleanup) := by
  have hwf := wf_of_run hfresh hbefore
  constructor
  · intro c preimage n m' hexec hc
    rw [HtlcCall.eq_of_creates hc hexec]
    exact AList.lookup_insert _
  · intro k r hr h m hrun hspares
    refine ⟨fun hactive => ?_, fun hdone => done_kept hwf hrun hr hdone hspares⟩
    rcases active_kept hwf hrun hr hactive hspares with ⟨r', hr', hfollows, -⟩ | hsettled
    · exact .inl ⟨r', hr', hfollows⟩
    · exact .inr hsettled

end

/-! ### Records lost, and records kept -/

namespace Sample

/-- An HTLC of the payer to the seller, for 50 slots. -/
def newHtlc (amount : UInt64) (leafIndex : ℕ) : NewHtlc := ⟨amount, leafIndex, payer, seller, 100, 50⟩

def firstHtlc : HtlcCall := .createHtlcWithPreimage preimage (newHtlc 10 0)

/-- A second HTLC: the first one is revealed, and the second expires and is refunded, with a restart
in between. -/
def htlcCalls : List HtlcCall := [
  .createHtlc (fill 32 9) (newHtlc 20 1), .revealPreimage (env.sha preimage.val) preimage, .reload,
  .checkExpiry 151, .markRefunded (env.sha (fill 32 9).val), .cleanup]

end Sample

/-- An HTLC expires and is cleaned up, and is not there to be refunded.  Another is created under a
lock in use: the first is gone.  A third is created under the lock of one that is fulfilled, which is
pending again. -/
theorem records_lost :
    (∃ h m, Run (HtlcCall.exec Sample.env.sha) (HtlcManager.withDb none) h m ∧
      h.map Prod.snd = ([.createHtlcWithPreimage Sample.preimage (Sample.newHtlc 10 0),
        .checkExpiry 151, .cleanup] : List HtlcCall).reverse ∧
      m.records.lookup (Sample.env.sha Sample.preimage.val) = none) ∧
    (∃ h m, Run (HtlcCall.exec Sample.env.sha) (HtlcManager.withDb none) h m ∧
      h.map Prod.snd = ([.createHtlcWithPreimage Sample.preimage (Sample.newHtlc 10 0),
        .createHtlcWithPreimage Sample.preimage (Sample.newHtlc 20 1)] : List HtlcCall).reverse ∧
      (Store.values m.records).map HtlcRecord.leafIndex = [1]) ∧
    (∃ h m, Run (HtlcCall.exec Sample.env.sha) (HtlcManager.withDb none) h m ∧
      h.map Prod.snd = ([.createHtlcWithPreimage Sample.preimage (Sample.newHtlc 10 0),
        .revealPreimage (Sample.env.sha Sample.preimage.val) Sample.preimage,
        .markFulfilled (Sample.env.sha Sample.preimage.val),
        .createHtlcWithPreimage Sample.preimage (Sample.newHtlc 10 0)] : List HtlcCall).reverse ∧
      (Store.values m.records).map HtlcRecord.state = [.pending]) :=
  ⟨Run.exists_of_test (by decide), Run.exists_of_test (by decide),
    Run.exists_of_test (by decide)⟩

theorem records_kept_calls : ∃ m₁ h m,
    Sample.firstHtlc.exec Sample.env.sha (HtlcManager.withDb none) = .ok m₁ ∧
    Run (HtlcCall.exec Sample.env.sha) m₁ h m ∧ h.map Prod.snd = Sample.htlcCalls.reverse ∧
    ((∃ r', m.records.lookup (Sample.env.sha Sample.preimage.val) = some r' ∧
        (HtlcManager.record Sample.env.sha Sample.preimage (Sample.newHtlc 10 0)).Follows r') ∨
      ∃ c ∈ h, c.2.Settles (Sample.env.sha Sample.preimage.val)) := by
  have htest : (Sample.firstHtlc.exec Sample.env.sha (HtlcManager.withDb none)).toOption.any fun m₁ =>
      Run.tryAll (HtlcCall.exec Sample.env.sha)
        (Spares Sample.env.sha (Sample.env.sha Sample.preimage.val)) (fun _ => True)
        Sample.htlcCalls m₁ := by
    decide +kernel
  obtain ⟨m₁, hfirst, htest⟩ := exists_of_any htest
  obtain ⟨h, m, hrun, hcalls, hspares, -⟩ := Run.exists_of_tryAll .start (by simp) htest
  rw [List.map_nil, List.append_nil] at hcalls
  have hfresh : (HtlcManager.withDb none).Fresh := .inr ⟨none, rfl⟩
  have hcreated := (records_kept Sample.env.sha _ hfresh .start).1 _ _ _ _ hfirst rfl
  have hkept := (records_kept Sample.env.sha _ hfresh (.step .start hfirst)).2 _ _ hcreated h m hrun
    hspares
  exact ⟨m₁, h, m, hfirst, hrun, hcalls, hkept.1 (by rintro (hd | hd) <;> cases hd)⟩

end StateChannel
