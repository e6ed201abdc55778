/-
Payments over several hops (`multihop.rs`).

A payment has a hop, with an HTLC of the same hash lock, in each channel on its
way, and the timelocks fall from hop to hop.  The manager keeps the payments in
the database, each under its id; the calls to the database are taken to succeed.

* `MultiHopCall.turns_of_exec` — what a call does to the payment that it is about;
* `follows_of_turns` — a payment that is completed or failed stays so, and a hop that
  is resolved stays resolved;
* `atomic_iff` — a payment with a resolved hop can be carried through, unless
  somebody checks it for expiry when another hop is past its timelock.
-/
import IgnitePay.Lib.Run
import IgnitePay.StateChannel.Funding

namespace StateChannel

open Bytes Machine Solana

/-! ### Payments -/

/-- `HOP_MARGIN`. -/
def hopMargin : UInt64 := 1000

/-- `min_timelock`. -/
def minTimelock (challengeDuration : UInt64) : UInt64 :=
  saturatingAdd challengeDuration (3 * hopMargin)

structure MultiHopEntry where
  hashLock : Bytes 32
  amount : UInt64
  leafIndex : ℕ
  channelId : Bytes 32
  timelockSlot : UInt64
  owner : Pubkey
  beneficiary : Pubkey
  resolved : Bool
deriving DecidableEq

inductive MultiHopStatus
  | pending
  | locked
  | resolving
  | completed
  | failed
deriving DecidableEq, Repr

/-- `{:?}` of a status. -/
def MultiHopStatus.debug : MultiHopStatus → String
  | .pending => "Pending"
  | .locked => "Locked"
  | .resolving => "Resolving"
  | .completed => "Completed"
  | .failed => "Failed"

instance : ToString MultiHopStatus := ⟨MultiHopStatus.debug⟩

structure MultiHopPayment where
  paymentId : Bytes 32
  hashLock : Bytes 32
  preimage : Bytes 32
  hops : List MultiHopEntry
  status : MultiHopStatus
  createdSlot : UInt64
deriving DecidableEq

/-- What a hop is created from. -/
structure HopMetadata where
  owner : Pubkey
  beneficiary : Pubkey
  amount : UInt64
  leafIndex : ℕ
  channelId : Bytes 32

namespace MultiHopPayment

/-- `base_timelock`.  A list whose length times the margin does not fit in 64 bits does not fit
in memory either. -/
def baseTimelock (hops : ℕ) (currentSlot challengeDuration : UInt64) : UInt64 :=
  saturatingAdd (saturatingAdd currentSlot (minTimelock challengeDuration))
    (UInt64.ofNat (hops - 1) * hopMargin)

/-- The hop that is created at an index. -/
def entry (hashLock : Bytes 32) (baseTimelock : UInt64) (h : HopMetadata) (i : ℕ) :
    MultiHopEntry where
  hashLock
  amount := h.amount
  leafIndex := h.leafIndex
  channelId := h.channelId
  timelockSlot := saturatingSub baseTimelock (UInt64.ofNat i * hopMargin)
  owner := h.owner
  beneficiary := h.beneficiary
  resolved := false

/-- Every hop is resolved. -/
def AllResolved (p : MultiHopPayment) : Prop := ∀ hop ∈ p.hops, hop.resolved = true

/-- Some hop is. -/
def SomeResolved (p : MultiHopPayment) : Prop := ∃ hop ∈ p.hops, hop.resolved = true

instance (p : MultiHopPayment) : Decidable p.AllResolved := inferInstanceAs (Decidable (∀ _ ∈ _, _))

instance (p : MultiHopPayment) : Decidable p.SomeResolved := inferInstanceAs (Decidable (∃ _ ∈ _, _))

/-- The payment with a hop resolved. -/
def resolve (p : MultiHopPayment) (hopIndex : ℕ) : MultiHopPayment :=
  let p := { p with hops := p.hops.modify hopIndex fun hop => { hop with resolved := true } }
  if p.AllResolved then { p with status := .completed } else p

/-- The indices of the unresolved hops past their timelock. -/
def expired (p : MultiHopPayment) (currentSlot : UInt64) : List ℕ :=
  (p.hops.zipIdx.filter fun hop => !hop.1.resolved && decide (currentSlot > hop.1.timelockSlot)).map
    Prod.snd

end MultiHopPayment

/-! ### The manager -/

structure MultiHopManager where
  /-- What the database has under `multihop:{id}`. -/
  db : Store.Map (Bytes 32) MultiHopPayment
  keyed : ∀ id p, db.lookup id = some p → p.paymentId = id

abbrev MultiHopOp := Method MultiHopManager StateChannelError

namespace MultiHopManager

theorem keyed_insert (m : MultiHopManager) (payment : MultiHopPayment) (id : Bytes 32)
    (p : MultiHopPayment) (h : (m.db.insert payment.paymentId payment).lookup id = some p) :
    p.paymentId = id := by
  rw [Store.lookup_insert_eq] at h
  split at h
  · next hid =>
    obtain rfl := Option.some_inj.mp h
    exact hid.symm
  · exact m.keyed id p h

/-- The database with a payment written under its id. -/
def put (m : MultiHopManager) (payment : MultiHopPayment) : MultiHopManager :=
  ⟨m.db.insert payment.paymentId payment, m.keyed_insert payment⟩

/-- `load_payment`. -/
def loadPayment (paymentId : Bytes 32) : MultiHopOp MultiHopPayment := do
  let m ← get
  orThrow (m.db.lookup paymentId) (.channelNotFound (hexEncode paymentId.val))

/-- `persist_payment`. -/
def persistPayment (payment : MultiHopPayment) : MultiHopOp Unit := modify fun m => m.put payment

/-- `create_payment`, with the id that was made up for it. -/
def createPayment (random hashLock preimage : Bytes 32) (hopsMetadata : List HopMetadata)
    (currentSlot challengeDuration : UInt64) : MultiHopOp MultiHopPayment := do
  let numHops := hopsMetadata.length
  check (numHops ≠ 0) (.other "multi-hop payment requires at least one hop")
  let baseTimelock := MultiHopPayment.baseTimelock numHops currentSlot challengeDuration
  let payment : MultiHopPayment := {
    paymentId := random
    hashLock
    preimage
    hops := hopsMetadata.zipIdx.map fun h =>
      MultiHopPayment.entry hashLock baseTimelock h.1 h.2
    status := .pending
    createdSlot := currentSlot }
  persistPayment payment
  return payment

/-- `create_htlc_leaf_update`. -/
def createHtlcLeafUpdate (env : Env) (hop : MultiHopEntry) (sequence : UInt64)
    (prevLeaf : UTXOLeaf) (signer : Keypair) : LeafUpdate :=
  let newLeaf := .htlc hop.owner hop.amount hop.hashLock hop.timelockSlot hop.beneficiary
  signLeafUpdate env hop.channelId sequence (UInt32.ofNat hop.leafIndex) prevLeaf newLeaf signer

/-- `reveal_preimage`. -/
def revealPreimage (sha : List UInt8 → Bytes 32) (paymentId preimage : Bytes 32) :
    MultiHopOp MultiHopPayment := do
  let payment ← loadPayment paymentId
  check (sha preimage.val = payment.hashLock) .hashLockMismatch
  check (payment.status = .pending ∨ payment.status = .locked)
    (.other s!"payment is not in a state that allows preimage reveal (status: {payment.status})")
  let payment := { payment with status := .resolving }
  persistPayment payment
  return payment

/-- `resolve_hop`. -/
def resolveHop (paymentId : Bytes 32) (hopIndex : ℕ) : MultiHopOp MultiHopPayment := do
  let payment ← loadPayment paymentId
  check (payment.status = .resolving) (.other "payment must be in Resolving state to resolve hops")
  check (¬ hopIndex ≥ payment.hops.length)
    (.other s!"hop index {hopIndex} out of bounds (max {payment.hops.length})")
  let payment := payment.resolve hopIndex
  persistPayment payment
  return payment

/-- `check_expiry`. -/
def checkExpiry (paymentId : Bytes 32) (currentSlot : UInt64) : MultiHopOp (List ℕ) := do
  let payment ← loadPayment paymentId
  let expired := payment.expired currentSlot
  if expired ≠ [] ∧ payment.status ≠ .completed then
    persistPayment { payment with status := .failed }
  else pure ()
  return expired

end MultiHopManager

/-- A call about a payment. -/
inductive MultiHopCall
  | revealPreimage (paymentId preimage : Bytes 32)
  | resolveHop (paymentId : Bytes 32) (hopIndex : ℕ)
  | checkExpiry (paymentId : Bytes 32) (currentSlot : UInt64)
deriving DecidableEq

namespace MultiHopCall

def paymentId : MultiHopCall → Bytes 32
  | revealPreimage paymentId _ => paymentId
  | resolveHop paymentId _ => paymentId
  | checkExpiry paymentId _ => paymentId

def method (sha : List UInt8 → Bytes 32) : MultiHopCall → MultiHopOp Unit
  | revealPreimage paymentId preimage => do
    let _ ← MultiHopManager.revealPreimage sha paymentId preimage
  | resolveHop paymentId hopIndex => do let _ ← MultiHopManager.resolveHop paymentId hopIndex
  | checkExpiry paymentId currentSlot => do
    let _ ← MultiHopManager.checkExpiry paymentId currentSlot

/-- A call on the manager; one that fails changes nothing. -/
def exec (sha : List UInt8 → Bytes 32) (c : MultiHopCall) (m : MultiHopManager) :
    Except StateChannelError MultiHopManager :=
  match (c.method sha).call m with
  | (.ok _, m') => .ok m'
  | (.error e, _) => .error e

end MultiHopCall

/-! ### What a call does to a payment -/

namespace MultiHopPayment

/-- The payment before and after a call about it. -/
inductive Turns (sha : List UInt8 → Bytes 32) (p : MultiHopPayment) :
    MultiHopCall → MultiHopPayment → Prop
  | reveals {id preimage : Bytes 32} (opens : sha preimage.val = p.hashLock)
      (status_eq : p.status = .pending ∨ p.status = .locked) :
      Turns sha p (.revealPreimage id preimage) { p with status := .resolving }
  | resolves {id : Bytes 32} {hopIndex : ℕ} (status_eq : p.status = .resolving)
      (index_lt : hopIndex < p.hops.length) :
      Turns sha p (.resolveHop id hopIndex) (p.resolve hopIndex)
  | fails {id : Bytes 32} {currentSlot : UInt64} (expires : p.expired currentSlot ≠ [])
      (status_ne : p.status ≠ .completed) :
      Turns sha p (.checkExpiry id currentSlot) { p with status := .failed }
  | stays {id : Bytes 32} {currentSlot : UInt64}
      (quiet : p.expired currentSlot = [] ∨ p.status = .completed) :
      Turns sha p (.checkExpiry id currentSlot) p

theorem paymentId_resolve (p : MultiHopPayment) (hopIndex : ℕ) :
    (p.resolve hopIndex).paymentId = p.paymentId := by
  unfold resolve
  dsimp only
  split
  · rfl
  · rfl

theorem hops_resolve (p : MultiHopPayment) (hopIndex : ℕ) :
    (p.resolve hopIndex).hops = p.hops.modify hopIndex fun hop => { hop with resolved := true } := by
  unfold resolve
  dsimp only
  split
  · rfl
  · rfl

theorem paymentId_of_turns {sha : List UInt8 → Bytes 32} {p p' : MultiHopPayment} {c : MultiHopCall}
    (h : Turns sha p c p') : p'.paymentId = p.paymentId := by
  cases h with
  | reveals => rfl
  | resolves => exact paymentId_resolve p _
  | fails => rfl
  | stays => rfl

end MultiHopPayment

section

variable {sha : List UInt8 → Bytes 32} {m m' : MultiHopManager} {p p' : MultiHopPayment}
  {id : Bytes 32} {c : MultiHopCall}

namespace MultiHopManager

theorem lookup_put (p : MultiHopPayment) (id : Bytes 32) :
    (m.put p).db.lookup id = if id = p.paymentId then some p else m.db.lookup id :=
  Store.lookup_insert_eq m.db p.paymentId id p

theorem returns_loadPayment_bind {α : Type} {f : MultiHopPayment → MultiHopOp α} {a : α} :
    Returns (loadPayment id >>= f) m a m' ↔ ∃ p, m.db.lookup id = some p ∧ Returns (f p) m a m' := by
  simp only [loadPayment, bind_assoc, returns_get_bind, returns_orThrow_bind]

theorem resolveHop_returns {hopIndex : ℕ} :
    Returns (resolveHop id hopIndex) m p' m' ↔
      ∃ p, m.db.lookup id = some p ∧ p.status = .resolving ∧ hopIndex < p.hops.length ∧
        p' = p.resolve hopIndex ∧ m' = m.put p' := by
  simp only [resolveHop, returns_loadPayment_bind, returns_check_bind, persistPayment,
    returns_modify_bind, returns_pure, not_le]
  constructor
  · rintro ⟨p, hp, hstatus, hindex, rfl, rfl⟩
    exact ⟨p, hp, hstatus, hindex, rfl, rfl⟩
  · rintro ⟨p, hp, hstatus, hindex, rfl, rfl⟩
    exact ⟨p, hp, hstatus, hindex, rfl, rfl⟩

end MultiHopManager

namespace MultiHopCall

theorem exec_eq_ok : c.exec sha m = .ok m' ↔ Returns (c.method sha) m () m' := by
  rw [exec, Returns]
  rcases (c.method sha).call m with ⟨e | _, m₁⟩
  · simp
  · simp

/-- A call takes the payment that it is about one turn on, and leaves the others alone. -/
theorem turns_of_exec (h : c.exec sha m = .ok m') :
    ∃ p p', m.db.lookup c.paymentId = some p ∧ p.Turns sha c p' ∧
      ∀ id, m'.db.lookup id = if id = c.paymentId then some p' else m.db.lookup id := by
  have h := exec_eq_ok.mp h
  -- What persisting the payment writes.
  have hput : ∀ {p p' : MultiHopPayment}, m.db.lookup c.paymentId = some p → p.Turns sha c p' →
      ∀ id, (m.put p').db.lookup id = if id = c.paymentId then some p' else m.db.lookup id := by
    intro p p' hp hturns id
    rw [MultiHopManager.lookup_put, MultiHopPayment.paymentId_of_turns hturns, m.keyed _ _ hp]
  cases c with
  | revealPreimage id preimage =>
    simp only [method, MultiHopManager.revealPreimage, bind_assoc, pure_bind,
      MultiHopManager.returns_loadPayment_bind, returns_check_bind,
      MultiHopManager.persistPayment, returns_modify_bind, returns_pure] at h
    obtain ⟨p, hp, hopens, hstatus, -, rfl⟩ := h
    have hturns : p.Turns sha (.revealPreimage id preimage) _ := .reveals hopens hstatus
    exact ⟨p, _, hp, hturns, hput hp hturns⟩
  | resolveHop id hopIndex =>
    obtain ⟨p', m₁, h₁, h⟩ := returns_bind.mp h
    obtain ⟨-, rfl⟩ := returns_pure.mp h
    obtain ⟨p, hp, hstatus, hindex, rfl, rfl⟩ := MultiHopManager.resolveHop_returns.mp h₁
    have hturns : p.Turns sha (.resolveHop id hopIndex) _ := .resolves hstatus hindex
    exact ⟨p, _, hp, hturns, hput hp hturns⟩
  | checkExpiry id currentSlot =>
    simp only [method, MultiHopManager.checkExpiry, bind_assoc,
      MultiHopManager.returns_loadPayment_bind] at h
    obtain ⟨p, hp, h⟩ := h
    by_cases hfails : p.expired currentSlot ≠ [] ∧ p.status ≠ .completed
    · simp only [if_pos hfails, MultiHopManager.persistPayment, bind_assoc, pure_bind,
        returns_modify_bind, returns_pure] at h
      obtain ⟨-, rfl⟩ := h
      have hturns : p.Turns sha (.checkExpiry id currentSlot) _ := .fails hfails.1 hfails.2
      exact ⟨p, _, hp, hturns, hput hp hturns⟩
    · simp only [if_neg hfails, pure_bind, returns_pure] at h
      obtain ⟨-, rfl⟩ := h
      have hquiet : p.expired currentSlot = [] ∨ p.status = .completed := by
        by_cases hnone : p.expired currentSlot = []
        · exact .inl hnone
        · exact .inr (not_not.mp fun hne => hfails ⟨hnone, hne⟩)
      refine ⟨p, p, hp, .stays hquiet, fun id' => ?_⟩
      split
      · next hid => rw [hid]; exact hp
      · rfl

end MultiHopCall

end

/-! ### What a turn keeps -/

namespace MultiHopPayment

/-- What is so of a payment from its creation on: it has a hop, it is completed exactly when all of
them are resolved, and before the preimage is revealed none is. -/
structure Wf (p : MultiHopPayment) : Prop where
  hops_ne : p.hops ≠ []
  completed_iff : p.status = .completed ↔ p.AllResolved
  unrevealed : p.status = .pending ∨ p.status = .locked → ¬ p.SomeResolved

/-- `p'` is `p` later on: an end is kept, and resolved hops are. -/
structure Follows (p p' : MultiHopPayment) : Prop where
  ended : p.status = .completed ∨ p.status = .failed → p'.status = p.status
  resolved : ∀ (i : ℕ) hop, p.hops[i]? = some hop → hop.resolved = true →
    ∃ hop', p'.hops[i]? = some hop' ∧ hop'.resolved = true

theorem Follows.refl (p : MultiHopPayment) : p.Follows p :=
  ⟨fun _ => rfl, fun _ hop hhop hresolved => ⟨hop, hhop, hresolved⟩⟩

theorem Follows.trans {p₁ p₂ p₃ : MultiHopPayment} (h₁ : p₁.Follows p₂) (h₂ : p₂.Follows p₃) :
    p₁.Follows p₃ := by
  refine ⟨fun hended => ?_, fun i hop hhop hresolved => ?_⟩
  · have hsame := h₁.ended hended
    rw [h₂.ended (hsame ▸ hended), hsame]
  · obtain ⟨hop₂, hhop₂, hresolved₂⟩ := h₁.resolved i hop hhop hresolved
    exact h₂.resolved i hop₂ hhop₂ hresolved₂

variable {sha : List UInt8 → Bytes 32} {p p' : MultiHopPayment} {c : MultiHopCall} {hopIndex : ℕ}

/-- With a resolved hop, a payment that has not ended is resolving. -/
theorem Wf.resolving (h : p.Wf) (hsome : p.SomeResolved) (hcompleted : p.status ≠ .completed)
    (hfailed : p.status ≠ .failed) : p.status = .resolving := by
  cases hstatus : p.status with
  | pending => exact absurd hsome (h.unrevealed (.inl hstatus))
  | locked => exact absurd hsome (h.unrevealed (.inr hstatus))
  | resolving => rfl
  | completed => exact absurd hstatus hcompleted
  | failed => exact absurd hstatus hfailed

/-- A hop after another was resolved. -/
theorem getElem?_resolve (i : ℕ) : (p.resolve hopIndex).hops[i]? =
    (p.hops[i]?).map fun hop => if hopIndex = i then { hop with resolved := true } else hop := by
  rw [hops_resolve, List.getElem?_modify]
  rcases p.hops[i]? with _ | hop
  · rfl
  · by_cases h : hopIndex = i
    · simp [h]
    · simp [h]

/-- The status after a hop was resolved. -/
theorem status_resolve : (p.resolve hopIndex).status = .completed ∧ (p.resolve hopIndex).AllResolved ∨
    (p.resolve hopIndex).status = p.status ∧ ¬ (p.resolve hopIndex).AllResolved := by
  unfold resolve
  dsimp only
  split
  · next hall => exact .inl ⟨rfl, hall⟩
  · next hall => exact .inr ⟨rfl, hall⟩

/-- A hop that is past its timelock is unresolved. -/
theorem not_allResolved_of_expired {currentSlot : UInt64} (h : p.expired currentSlot ≠ []) :
    ¬ p.AllResolved := by
  intro hall
  refine h (List.map_eq_nil_iff.mpr (List.filter_eq_nil_iff.mpr fun hop hhop => ?_))
  have hmem : hop.1 ∈ p.hops := List.fst_mem_of_mem_zipIdx hhop
  rw [hall hop.1 hmem]
  simp

theorem wf_of_turns (h : p.Turns sha c p') (hp : p.Wf) : p'.Wf := by
  cases h with
  | reveals _ hstatus =>
    refine ⟨hp.hops_ne, ?_, fun hopen => absurd hopen (by simp)⟩
    -- Nothing was resolved before.
    have hnone := hp.unrevealed hstatus
    refine iff_of_false (by simp) fun hall => hnone ?_
    obtain ⟨hop, hmem⟩ := List.exists_mem_of_ne_nil _ hp.hops_ne
    exact ⟨hop, hmem, hall hop hmem⟩
  | @resolves _ hopIndex hstatus =>
    have hne : (p.resolve hopIndex).hops ≠ [] := by
      rw [hops_resolve]
      simpa using hp.hops_ne
    rcases @status_resolve p hopIndex with ⟨hnow, hall⟩ | ⟨hnow, hall⟩
    · refine ⟨hne, iff_of_true hnow hall, ?_⟩
      rw [hnow]
      simp
    · rw [hstatus] at hnow
      refine ⟨hne, iff_of_false (by rw [hnow]; simp) hall, ?_⟩
      rw [hnow]
      simp
  | fails hexpires hstatus =>
    refine ⟨hp.hops_ne, ?_, fun hopen => absurd hopen (by simp)⟩
    exact iff_of_false (by simp) (not_allResolved_of_expired hexpires)
  | stays => exact hp

theorem follows_of_turns (h : p.Turns sha c p') : p.Follows p' := by
  cases h with
  | reveals _ hstatus =>
    refine ⟨fun hended => ?_, fun _ hop hhop hresolved => ⟨hop, hhop, hresolved⟩⟩
    rcases hstatus with hstatus | hstatus
    · exact absurd hended (by simp [hstatus])
    · exact absurd hended (by simp [hstatus])
  | resolves hstatus =>
    refine ⟨fun hended => absurd hended (by simp [hstatus]), fun i hop hhop hresolved => ?_⟩
    refine ⟨_, by rw [getElem?_resolve, hhop, Option.map_some], ?_⟩
    split
    · rfl
    · exact hresolved
  | fails _ hstatus =>
    refine ⟨fun hended => ?_, fun _ hop hhop hresolved => ⟨hop, hhop, hresolved⟩⟩
    exact (hended.resolve_left hstatus).symm
  | stays => exact .refl p

end MultiHopPayment

/-! ### Atomicity -/

section

variable {sha : List UInt8 → Bytes 32} {m₀ m m' : MultiHopManager} {p p' : MultiHopPayment}
  {id : Bytes 32} {c : MultiHopCall} {h : List (MultiHopManager × MultiHopCall)}

/-- Once a hop is resolved the payment is not failed, and the others can be resolved. -/
structure MultiHopManager.Atomic (m : MultiHopManager) (p : MultiHopPayment) : Prop where
  not_failed : p.SomeResolved → p.status ≠ .failed
  resolvable : p.SomeResolved → ∀ (i : ℕ) hop, p.hops[i]? = some hop → hop.resolved = false →
    ∃ p' m', Returns (resolveHop p.paymentId i) m p' m'

/-- A payment is not checked for expiry between its first resolved hop and its last, unless the
hops that are left are within their timelocks. -/
def MultiHopCall.Spares (id : Bytes 32) (m : MultiHopManager) : MultiHopCall → Prop
  | checkExpiry paymentId currentSlot => paymentId = id → ∀ p ∈ m.db.lookup id,
    p.status = .resolving → p.SomeResolved → p.expired currentSlot = []
  | _ => True

instance MultiHopCall.decidableSpares (id : Bytes 32) (m : MultiHopManager) :
    (c : MultiHopCall) → Decidable (c.Spares id m)
  | .revealPreimage _ _ => inferInstanceAs (Decidable True)
  | .resolveHop _ _ => inferInstanceAs (Decidable True)
  | .checkExpiry _ _ => inferInstanceAs (Decidable (_ → ∀ _ ∈ _, _))

theorem atomic_of_wf (hp : m.db.lookup id = some p) (hwf : p.Wf)
    (hfailed : p.SomeResolved → p.status ≠ .failed) : m.Atomic p := by
  refine ⟨hfailed, fun hsome i hop hhop hunresolved => ?_⟩
  have hcompleted : p.status ≠ .completed := by
    intro hcompleted
    have hresolved := hwf.completed_iff.mp hcompleted hop (List.mem_of_getElem? hhop)
    rw [hunresolved] at hresolved
    exact absurd hresolved (by simp)
  have hresolving := hwf.resolving hsome hcompleted (hfailed hsome)
  rw [m.keyed id p hp]
  have hindex := (List.getElem?_eq_some_iff.mp hhop).1
  exact ⟨_, _, MultiHopManager.resolveHop_returns.mpr ⟨p, hp, hresolving, hindex, rfl, rfl⟩⟩

/-- A payment that was just created. -/
theorem createPayment_returns {random hashLock preimage : Bytes 32} {hops : List HopMetadata}
    {currentSlot challengeDuration : UInt64}
    (h : Returns (MultiHopManager.createPayment random hashLock preimage hops currentSlot
      challengeDuration) m₀ p m) :
    m.db.lookup p.paymentId = some p ∧ p.Wf ∧ p.status = .pending := by
  simp only [MultiHopManager.createPayment, returns_check_bind, MultiHopManager.persistPayment,
    returns_modify_bind, returns_pure] at h
  obtain ⟨hne, hp, rfl⟩ := h
  refine ⟨?_, ?_, by rw [← hp]⟩
  · rw [← hp, MultiHopManager.lookup_put, if_pos rfl]
  · have hnone : ¬ p.SomeResolved := by
      rintro ⟨hop, hmem, hresolved⟩
      rw [← hp] at hmem
      obtain ⟨h, -, rfl⟩ := List.mem_map.mp hmem
      exact absurd hresolved (by simp [MultiHopPayment.entry])
    have hhops : p.hops ≠ [] := by
      rw [← hp]
      simpa using hne
    refine ⟨hhops, iff_of_false (by simp [← hp]) fun hall => hnone ?_, fun _ => hnone⟩
    obtain ⟨hop, hmem⟩ := List.exists_mem_of_ne_nil _ hhops
    exact ⟨hop, hmem, hall hop hmem⟩

/-- What a call does to the payment of an id, whichever it is about. -/
theorem follows_of_exec (hp : m.db.lookup id = some p) (h : c.exec sha m = .ok m') :
    ∃ p', m'.db.lookup id = some p' ∧ (c.paymentId = id ∧ p.Turns sha c p' ∨
      c.paymentId ≠ id ∧ p' = p) := by
  obtain ⟨p₁, p', hp₁, hturns, hlookup⟩ := MultiHopCall.turns_of_exec h
  rw [hlookup id]
  by_cases hid : id = c.paymentId
  · subst hid
    obtain rfl := Option.some_inj.mp (hp.symm.trans hp₁)
    exact ⟨p', if_pos rfl, .inl ⟨rfl, hturns⟩⟩
  · exact ⟨p, by rw [if_neg hid, hp], .inr ⟨Ne.symm hid, rfl⟩⟩

theorem stored_of_run (hp : m.db.lookup id = some p) (hwf : p.Wf)
    (hrun : Run (MultiHopCall.exec sha) m h m') : ∃ p', m'.db.lookup id = some p' ∧ p'.Wf := by
  refine hrun.invariant (P := fun m => ∃ p, m.db.lookup id = some p ∧ p.Wf) ⟨p, hp, hwf⟩ ?_
  rintro s c s' ⟨p, hp, hwf⟩ hexec
  obtain ⟨p', hp', ⟨-, hturns⟩ | ⟨-, rfl⟩⟩ := follows_of_exec hp hexec
  · exact ⟨p', hp', MultiHopPayment.wf_of_turns hturns hwf⟩
  · exact ⟨p', hp', hwf⟩

/-- The payment of an id in one state follows from the one in another. -/
def MultiHopManager.Leads (id : Bytes 32) (m m' : MultiHopManager) : Prop :=
  ∀ p, m.db.lookup id = some p → ∃ p', m'.db.lookup id = some p' ∧ p.Follows p'

theorem pairwise_leads (id : Bytes 32) (hrun : Run (MultiHopCall.exec sha) m h m') :
    (Run.states h m').Pairwise fun later earlier => earlier.Leads id later := by
  refine Run.pairwise_of_isChain ?_ (hrun.isChain_of (R := MultiHopManager.Leads id)
    (fun _ _ => True) ?_ fun _ _ => trivial)
  · intro m₁ m₂ m₃ h₁ h₂ p hp
    obtain ⟨p₂, hp₂, hfollows⟩ := h₁ p hp
    obtain ⟨p₃, hp₃, hfollows'⟩ := h₂ p₂ hp₂
    exact ⟨p₃, hp₃, hfollows.trans hfollows'⟩
  · intro _ s c s' _ _ hexec p hp
    obtain ⟨p', hp', ⟨-, hturns⟩ | ⟨-, rfl⟩⟩ := follows_of_exec hp hexec
    · exact ⟨p', hp', MultiHopPayment.follows_of_turns hturns⟩
    · exact ⟨p', hp', .refl p'⟩

/-- A call keeps a payment atomic exactly if it spares it. -/
theorem not_failed_iff (hp : m.db.lookup id = some p) (hwf : p.Wf)
    (hatomic : p.SomeResolved → p.status ≠ .failed) (hexec : c.exec sha m = .ok m')
    (hp' : m'.db.lookup id = some p') :
    (p'.SomeResolved → p'.status ≠ .failed) ↔ c.Spares id m := by
  obtain ⟨p₁, hp₁, hchange⟩ := follows_of_exec hp hexec
  obtain rfl := Option.some_inj.mp (hp'.symm.trans hp₁)
  rcases hchange with ⟨rfl, hturns⟩ | ⟨hother, rfl⟩
  · cases hturns with
    | reveals => exact iff_of_true (fun _ => by simp) trivial
    | @resolves _ hopIndex hstatus =>
      refine iff_of_true (fun _ => ?_) trivial
      rcases @MultiHopPayment.status_resolve p hopIndex with ⟨hnow, -⟩ | ⟨hnow, -⟩
      · rw [hnow]
        simp
      · rw [hnow, hstatus]
        simp
    | fails hexpires hcompleted =>
      constructor
      · intro hkept _ p₂ hp₂ hresolving hsome
        obtain rfl := Option.some_inj.mp (hp.symm.trans hp₂)
        exact absurd rfl (hkept hsome)
      · intro hspares hsome
        have hresolving := hwf.resolving hsome hcompleted (hatomic hsome)
        exact absurd (hspares rfl p hp hresolving hsome) hexpires
    | stays hquiet =>
      refine iff_of_true hatomic fun _ p₂ hp₂ hresolving _ => ?_
      obtain rfl := Option.some_inj.mp (hp.symm.trans hp₂)
      exact hquiet.resolve_right (by simp [hresolving])
  · refine iff_of_true hatomic ?_
    cases c with
    | revealPreimage => trivial
    | resolveHop => trivial
    | checkExpiry => exact fun hid => absurd hid hother

/-- For every payment, and every run of calls from its creation on: it is completed exactly when all
hops are resolved, an end is final and a hop stays resolved; and once a hop is resolved it does not
fail and the other hops can be resolved, in every state of the run, exactly if every call spares it. -/
theorem atomic_iff (sha : List UInt8 → Bytes 32) (m₀ m m' : MultiHopManager)
    (random hashLock preimage : Bytes 32) (hopsMetadata : List HopMetadata)
    (currentSlot challengeDuration : UInt64) (payment : MultiHopPayment)
    (hcreated : Returns (MultiHopManager.createPayment random hashLock preimage hopsMetadata currentSlot
      challengeDuration) m₀ payment m)
    (h : List (MultiHopManager × MultiHopCall)) (hrun : Run (MultiHopCall.exec sha) m h m') :
    (Run.states h m').Pairwise (fun later earlier => earlier.Leads payment.paymentId later) ∧
    (∀ s ∈ Run.states h m', ∃ p, s.db.lookup payment.paymentId = some p ∧
      (p.status = .completed ↔ p.AllResolved)) ∧
    ((∀ s ∈ Run.states h m', ∃ p, s.db.lookup payment.paymentId = some p ∧ s.Atomic p) ↔
      ∀ c ∈ h, c.2.Spares payment.paymentId c.1) := by
  obtain ⟨hstored, hwf, hpending⟩ := createPayment_returns hcreated
  have hreached : ∀ h s, Run (MultiHopCall.exec sha) m h s →
      ∃ p, s.db.lookup payment.paymentId = some p ∧ p.Wf := fun _ _ => stored_of_run hstored hwf
  refine ⟨pairwise_leads _ hrun, ?_, ?_⟩
  · intro s hs
    obtain ⟨p, hp, hwf⟩ := Run.forall_states hreached hrun s hs
    exact ⟨p, hp, hwf.completed_iff⟩
  · refine @Run.forall_states_iff _ _ _ _ _ _ _ _
      (fun m (c : MultiHopCall) => c.Spares payment.paymentId m) (fun _ _ => True) ?_ ?_ hrun
      fun _ _ => trivial
    · exact ⟨payment, hstored, atomic_of_wf hstored hwf fun _ => by simp [hpending]⟩
    · rintro h s c s' hrun ⟨p, hp, hatomic⟩ - hexec
      obtain ⟨p₁, hp₁, hwf⟩ := hreached h s hrun
      obtain rfl := Option.some_inj.mp (hp.symm.trans hp₁)
      obtain ⟨p', hp', hwf'⟩ := hreached _ s' (.step hrun hexec)
      have hiff := not_failed_iff hp hwf hatomic.not_failed hexec hp'
      constructor
      · rintro ⟨p₂, hp₂, hatomic'⟩
        obtain rfl := Option.some_inj.mp (hp'.symm.trans hp₂)
        exact hiff.mp hatomic'.not_failed
      · intro hspares
        exact ⟨p', hp', atomic_of_wf hp' hwf' (hiff.mpr hspares)⟩

end

/-! ### A payment that fails, and one that is completed -/

namespace Sample

/-- The payer pays the seller over a hub: two hops, with timelocks 5500 and 4500. -/
def hubHops : List HopMetadata :=
  [⟨payer, fill 32 5, 11, 0, fill 32 7⟩, ⟨fill 32 5, seller, 10, 0, fill 32 8⟩]

def noPayments : MultiHopManager := ⟨∅, fun _ _ h => absurd h (by simp)⟩

def hubPayment : MultiHopPayment where
  paymentId := fill 32 9
  hashLock := env.sha preimage.val
  preimage
  hops := hubHops.zipIdx.map fun h =>
    MultiHopPayment.entry (env.sha preimage.val) (MultiHopPayment.baseTimelock 2 1000 500) h.1 h.2
  status := .pending
  createdSlot := 1000

theorem hubPayment_created : Returns (MultiHopManager.createPayment (fill 32 9)
    (env.sha preimage.val) preimage hubHops 1000 500) noPayments hubPayment
    (noPayments.put hubPayment) := rfl

/-- The hub's outgoing hop is resolved, then the payment is looked at after the timelock of the
incoming one. -/
def lateCalls : List MultiHopCall := [
  .revealPreimage (fill 32 9) preimage, .resolveHop (fill 32 9) 1, .checkExpiry (fill 32 9) 5501]

/-- It is looked at while the incoming hop is within its timelock, and again at the end. -/
def timelyCalls : List MultiHopCall := [
  .revealPreimage (fill 32 9) preimage, .resolveHop (fill 32 9) 1, .checkExpiry (fill 32 9) 5500,
  .resolveHop (fill 32 9) 0, .checkExpiry (fill 32 9) 9000]

end Sample

/-- The hub has paid on, and the payment fails: its incoming hop cannot be resolved any more. -/
theorem paid_hop_fails : ∃ h m, Run (MultiHopCall.exec Sample.env.sha)
      (Sample.noPayments.put Sample.hubPayment) h m ∧ h.map Prod.snd = Sample.lateCalls.reverse ∧
    (∃ p, m.db.lookup (fill 32 9) = some p ∧ p.status = .failed ∧ p.SomeResolved) ∧
    ∀ i p' m', ¬ Returns (MultiHopManager.resolveHop (fill 32 9) i) m p' m' := by
  have htest : (Run.execAll (MultiHopCall.exec Sample.env.sha) Sample.lateCalls
      (Sample.noPayments.put Sample.hubPayment)).toOption.any fun m =>
        decide ((m.db.lookup (fill 32 9)).any fun p => p.status = .failed ∧ p.SomeResolved) := by
    decide +kernel
  obtain ⟨h, m, hrun, hcalls, hfailed⟩ := Run.exists_of_test htest
  obtain ⟨p, hp, hfailed⟩ := (Option.any_eq_true _ _).mp hfailed
  have hfailed := of_decide_eq_true hfailed
  refine ⟨h, m, hrun, hcalls, ⟨p, hp, hfailed⟩, fun i p' m' hreturns => ?_⟩
  obtain ⟨p₁, hp₁, hstatus, -⟩ := MultiHopManager.resolveHop_returns.mp hreturns
  obtain rfl := Option.some_inj.mp (hp.symm.trans hp₁)
  exact absurd (hfailed.1.symm.trans hstatus) (by simp)

theorem atomic_timelyCalls : ∃ h m, Run (MultiHopCall.exec Sample.env.sha)
      (Sample.noPayments.put Sample.hubPayment) h m ∧ h.map Prod.snd = Sample.timelyCalls.reverse ∧
    (∀ s ∈ Run.states h m, ∃ p, s.db.lookup (fill 32 9) = some p ∧ s.Atomic p) ∧
    ∃ p, m.db.lookup (fill 32 9) = some p ∧ p.status = .completed := by
  have htest : Run.tryAll (MultiHopCall.exec Sample.env.sha)
      (fun m c => c.Spares (fill 32 9) m)
      (fun m => (m.db.lookup (fill 32 9)).any fun p => p.status = .completed)
      Sample.timelyCalls (Sample.noPayments.put Sample.hubPayment) := by
    decide +kernel
  obtain ⟨h, m, hrun, hcalls, hspares, hcompleted⟩ := Run.exists_of_tryAll .start (by simp) htest
  rw [List.map_nil, List.append_nil] at hcalls
  obtain ⟨p, hp, hcompleted⟩ := (Option.any_eq_true _ _).mp hcompleted
  have hiff := (atomic_iff Sample.env.sha _ _ _ _ _ _ _ _ _ _ Sample.hubPayment_created h hrun).2.2
  exact ⟨h, m, hrun, hcalls, hiff.mpr hspares, p, hp, of_decide_eq_true hcompleted⟩

end StateChannel
