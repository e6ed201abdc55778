/-
Splitting and merging leaves (`helpers.rs`), and the locks of HTLC leaves.

The two helpers edit a tree and sign the updates, like the operations of a
pipeline.  Of the seven, `resolve_htlc` and `refund_htlc` look at what locks a
leaf, and none of the others at its type.

* `locksHold_iff` — through any run of the seven, every HTLC leaf is released by
  its preimage or after its timelock only, exactly where the other five write to
  no HTLC leaf.
-/
import IgnitePay.StateChannel.Pipeline

namespace StateChannel

open Bytes Machine Solana

/-! ### The helpers -/

section

variable (env : Env)

/-- `tree.get_leaf(index).ok_or(..)?`. -/
def readLeaf (index : ℕ) : Method MerkleTree Failure UTXOLeaf := do
  let tree ← get
  orThrow (tree.getLeaf index) (outOfBounds tree index)

/-- How both helpers end: each update is signed, written to the tree and kept, and
`seq += 1`. -/
def writeAll (channelId : Bytes 32) (signer : Keypair) :
    List Write → UInt64 → Method MerkleTree Failure (List LeafUpdate × UInt64)
  | [], seq => return ([], seq)
  | w :: ws, seq => do
    let update := signLeafUpdate env channelId seq (UInt32.ofNat w.index) w.prevLeaf w.newLeaf signer
    putLeaf env w.index w.newLeaf
    let seq ← orThrow (addU64 env.overflowChecks seq 1) .panic
    let (updates, seq) ← writeAll channelId signer ws seq
    return (update :: updates, seq)

/-- `split_from_rest`. -/
def splitFromRest (channelId : Bytes 32) (restIdx targetIdx : ℕ) (amount sequence : UInt64)
    (signer : Keypair) : Method MerkleTree Failure (List LeafUpdate × UInt64) := do
  let restLeaf ← readLeaf restIdx
  check (¬ restLeaf.amount < amount) (.error (.insufficientBalance amount restLeaf.amount))
  check (restLeaf.owner = signer.publicKey) (.other "signer does not own the rest leaf")
  let targetLeaf ← readLeaf targetIdx
  check (targetLeaf.amount = 0) (.error .leafSlotOccupied)
  writeAll env channelId signer [
    ⟨restIdx, restLeaf, .standard restLeaf.owner (saturatingSub restLeaf.amount amount)⟩,
    ⟨targetIdx, targetLeaf, .standard signer.publicKey amount⟩] sequence

/-- The first loop of `merge_spent_leaves`: the sources with their leaves, and their total. -/
def ownedSources (signerPubkey : Pubkey) :
    List ℕ → UInt64 → Method MerkleTree Failure (List (ℕ × UTXOLeaf) × UInt64)
  | [], total => return ([], total)
  | idx :: indices, total => do
    let leaf ← readLeaf idx
    check (leaf.owner = signerPubkey) (.other s!"cannot merge leaf {idx}: owner does not match signer")
    let (sources, total) ← ownedSources signerPubkey indices (saturatingAdd total leaf.amount)
    return ((idx, leaf) :: sources, total)

/-- `merge_spent_leaves`. -/
def mergeSpentLeaves (channelId : Bytes 32) (sourceIndices : List ℕ) (targetIdx : ℕ)
    (sequence : UInt64) (signer : Keypair) :
    Method MerkleTree Failure (List LeafUpdate × UInt64) := do
  let (sources, total) ← ownedSources signer.publicKey sourceIndices 0
  check (targetIdx ∉ sourceIndices)
    (.other s!"target index {targetIdx} cannot be one of the source indices")
  let targetLeaf ← readLeaf targetIdx
  let targetOwner := if targetLeaf.amount = 0 then signer.publicKey else targetLeaf.owner
  let newTarget := UTXOLeaf.standard targetOwner (saturatingAdd targetLeaf.amount total)
  let cleared := sources.map fun source => Write.mk source.1 source.2 .empty
  writeAll env channelId signer (⟨targetIdx, targetLeaf, newTarget⟩ :: cleared) sequence

end

/-- A call of an operation of some pipeline on the tree, or of a helper. -/
inductive LeafCall
  | pipeline (p : Pipeline) (move : Move)
  | splitFromRest (channelId : Bytes 32) (restIdx targetIdx : ℕ) (amount sequence : UInt64)
      (signer : Keypair)
  | mergeSpentLeaves (channelId : Bytes 32) (sourceIndices : List ℕ) (targetIdx : ℕ)
      (sequence : UInt64) (signer : Keypair)

namespace LeafCall

/-- What the call returns, and the tree it leaves. -/
def call (env : Env) (c : LeafCall) (t : MerkleTree) : Except Failure Unit × MerkleTree :=
  match c with
  | pipeline p move =>
    let r := (move.method env).call { p with tree := t }
    (r.1, r.2.tree)
  | splitFromRest channelId restIdx targetIdx amount sequence signer =>
    let r := (StateChannel.splitFromRest env channelId restIdx targetIdx amount sequence signer).call t
    (r.1.map fun _ => (), r.2)
  | mergeSpentLeaves channelId sourceIndices targetIdx sequence signer =>
    let r := (StateChannel.mergeSpentLeaves env channelId sourceIndices targetIdx sequence signer).call t
    (r.1.map fun _ => (), r.2)

/-- The updates that the call signs: what it adds to those of the pipeline, or returns. -/
def updates (env : Env) (c : LeafCall) (t : MerkleTree) : List LeafUpdate :=
  match c with
  | pipeline p move =>
    ((move.method env).call { p with tree := t }).2.updates.drop p.updates.length
  | splitFromRest channelId restIdx targetIdx amount sequence signer =>
    match ((StateChannel.splitFromRest env channelId restIdx targetIdx amount sequence signer).call
      t).1 with
    | .ok (updates, _) => updates
    | .error _ => []
  | mergeSpentLeaves channelId sourceIndices targetIdx sequence signer =>
    match ((StateChannel.mergeSpentLeaves env channelId sourceIndices targetIdx sequence signer).call
      t).1 with
    | .ok (updates, _) => updates
    | .error _ => []

/-- A call on a tree; one that fails leaves no trace. -/
def exec (env : Env) (c : LeafCall) (t : MerkleTree) : Except Failure MerkleTree :=
  match c.call env t with
  | (.ok _, t') => .ok t'
  | (.error e, _) => .error e

end LeafCall

/-! ### The locks -/

/-- What the lock of an HTLC leaf at an index allows a call to put in its place. -/
inductive Releases (env : Env) (index : ℕ) (leaf : UTXOLeaf) : LeafCall → UTXOLeaf → Prop
  | resolved {p : Pipeline} {preimage : Bytes 32} {beneficiary : Pubkey}
      (opens : leaf.hashLock = some (env.sha preimage.val))
      (beneficiary_eq : leaf.beneficiary = some beneficiary) :
      Releases env index leaf (.pipeline p (.resolveHtlc index preimage))
        (.standard beneficiary leaf.amount)
  | refunded {p : Pipeline} {currentSlot timelock : UInt64}
      (timelock_eq : leaf.timelockSlot = some timelock) (expired : timelock < currentSlot) :
      Releases env index leaf (.pipeline p (.refundHtlc index currentSlot))
        (.standard leaf.owner leaf.amount)

/-- The call from `t` to `t'` changes no HTLC leaf but as its lock allows. -/
def LocksHold (env : Env) (t : MerkleTree) (c : LeafCall) (t' : MerkleTree) : Prop :=
  ∀ index leaf, t.getLeaf index = some leaf → leaf.leafType = .htlc →
    t'.getLeaf index = some leaf ∨
      ∃ newLeaf, t'.getLeaf index = some newLeaf ∧ Releases env index leaf c newLeaf

/-- No HTLC leaf stands there. -/
def Unlocked (t : MerkleTree) (index : ℕ) : Prop :=
  ∀ leaf, t.getLeaf index = some leaf → leaf.leafType ≠ .htlc

instance (t : MerkleTree) (index : ℕ) : Decidable (Unlocked t index) :=
  decidable_of_iff ((t.getLeaf index).all fun leaf => leaf.leafType ≠ .htlc) (by
    simp [Unlocked, Option.all_eq_true])

/-- The leaves that a call writes to are no HTLC leaves, unless it is for HTLC leaves; a leaf may be
locked again as it is. -/
def LeafCall.SparesLocks (t : MerkleTree) : LeafCall → Prop
  | pipeline _ (.transferLeaf index _) => Unlocked t index
  | pipeline _ (.partialTransfer srcIndex destIndex _ _) =>
    Unlocked t srcIndex ∧ Unlocked t destIndex
  | pipeline _ (.createHtlc index hashLock timelockSlot beneficiary _ _) =>
    ∀ leaf, t.getLeaf index = some leaf → leaf.leafType = .htlc →
      leaf = .htlc leaf.owner leaf.amount hashLock timelockSlot beneficiary
  | pipeline _ (.resolveHtlc _ _) => True
  | pipeline _ (.refundHtlc _ _) => True
  | splitFromRest _ restIdx targetIdx _ _ _ => Unlocked t restIdx ∧ Unlocked t targetIdx
  | mergeSpentLeaves _ sourceIndices targetIdx _ _ =>
    Unlocked t targetIdx ∧ ∀ index ∈ sourceIndices, Unlocked t index

instance (t : MerkleTree) : (c : LeafCall) → Decidable (c.SparesLocks t)
  | .pipeline _ (.transferLeaf index _) => inferInstanceAs (Decidable (Unlocked t index))
  | .pipeline _ (.partialTransfer ..) => inferInstanceAs (Decidable (_ ∧ _))
  | .pipeline _ (.createHtlc index hashLock timelockSlot beneficiary _ _) =>
    decidable_of_iff ((t.getLeaf index).all fun leaf => leaf.leafType = .htlc →
      leaf = .htlc leaf.owner leaf.amount hashLock timelockSlot beneficiary) (by
        simp only [LeafCall.SparesLocks, Option.all_eq_true, decide_eq_true_iff])
  | .pipeline _ (.resolveHtlc ..) => inferInstanceAs (Decidable True)
  | .pipeline _ (.refundHtlc ..) => inferInstanceAs (Decidable True)
  | .splitFromRest .. => inferInstanceAs (Decidable (_ ∧ _))
  | .mergeSpentLeaves .. => inferInstanceAs (Decidable (_ ∧ _))

/-! ### What a call writes -/

section

variable {env : Env} {t t' : MerkleTree} {ws : List Write} {c : LeafCall}

/-- `t'` is `t` with the leaves written one after the other. -/
def Rewritten (env : Env) : List Write → MerkleTree → MerkleTree → Prop
  | [], t, t' => t = t'
  | w :: ws, t, t' => ∃ t₁, Put env w.index w.newLeaf t t₁ ∧ Rewritten env ws t₁ t'

theorem Put.index_lt {index : ℕ} {newLeaf : UTXOLeaf} (h : Put env index newLeaf t t') :
    index < t.leaves.length := by
  have hwritten := h.2
  rw [MerkleTree.updateLeaf] at hwritten
  split at hwritten
  · next hbounds => exact hbounds.1
  · exact absurd hwritten (by simp)

/-- A leaf is the last one written to its place, or else the one of before. -/
theorem Rewritten.getLeaf (h : Rewritten env ws t t') (index : ℕ) :
    (t'.getLeaf index = t.getLeaf index ∧ ∀ w ∈ ws, w.index ≠ index) ∨
      ∃ w ∈ ws, w.index = index ∧ t'.getLeaf index = some w.newLeaf := by
  induction ws generalizing t with
  | nil =>
    obtain rfl : t = t' := h
    exact .inl ⟨rfl, by simp⟩
  | cons w ws ih =>
    obtain ⟨t₁, hput, h⟩ := h
    rcases ih h with ⟨hsame, hother⟩ | ⟨w', hw', hindex, hnow⟩
    · rw [hsame, MerkleTree.getLeaf, hput.leaves_eq]
      by_cases heq : w.index = index
      · right
        refine ⟨w, List.mem_cons_self, heq, ?_⟩
        rw [← heq, List.getElem?_set_self hput.index_lt]
      · left
        rw [List.getElem?_set_ne heq]
        exact ⟨rfl, List.forall_mem_cons.mpr ⟨heq, hother⟩⟩
    · exact .inr ⟨w', List.mem_cons_of_mem _ hw', hindex, hnow⟩

theorem Rewritten.isTree (h : Rewritten env ws t t') (htree : IsTree env.sha t) :
    IsTree env.sha t' := by
  induction ws generalizing t with
  | nil => exact h ▸ htree
  | cons w ws ih =>
    obtain ⟨t₁, hput, h⟩ := h
    exact ih h (hput.isTree htree).1

/-- The updates of some writes, index and leaf by index and leaf. -/
def UpdatesOf (ws : List Write) (updates : List LeafUpdate) : Prop :=
  updates.map (fun u => (u.leafIndex, u.newLeaf))
    = ws.map fun w => (UInt32.ofNat w.index, w.newLeaf)

theorem updates_of_records {p p' : Pipeline} (h : Pipeline.Records env ws p p') :
    ∃ updates, p'.updates = p.updates ++ updates ∧ UpdatesOf ws updates := by
  induction ws generalizing p with
  | nil => exact ⟨[], by rw [← (show p = p' from h), List.append_nil], rfl⟩
  | cons w ws ih =>
    obtain ⟨tree, -, h⟩ := h
    obtain ⟨updates, hupdates, hof⟩ := ih h
    refine ⟨p.update env w :: updates, ?_, ?_⟩
    · rw [hupdates]
      show p.updates ++ [p.update env w] ++ updates = _
      rw [List.append_assoc, List.singleton_append]
    · rw [UpdatesOf, List.map_cons, hof]
      rfl

theorem rewritten_of_records {p p' : Pipeline} (h : Pipeline.Records env ws p p') :
    Rewritten env ws p.tree p'.tree := by
  induction ws generalizing p with
  | nil => exact congrArg Pipeline.tree h
  | cons w ws ih =>
    obtain ⟨tree, hput, h⟩ := h
    exact ⟨tree, hput, ih h⟩

theorem rewritten_of_writeAll {channelId : Bytes 32} {signer : Keypair} {seq : UInt64}
    {r : List LeafUpdate × UInt64} (h : Returns (writeAll env channelId signer ws seq) t r t') :
    Rewritten env ws t t' ∧ UpdatesOf ws r.1 := by
  induction ws generalizing t seq r with
  | nil =>
    obtain ⟨rfl, hsame⟩ := returns_pure.mp h
    exact ⟨hsame, rfl⟩
  | cons w ws ih =>
    obtain ⟨_, t₁, hput, h⟩ := returns_bind.mp h
    obtain ⟨seq, -, h⟩ := returns_orThrow_bind.mp h
    obtain ⟨r, t₂, hrest, h⟩ := returns_bind.mp h
    obtain ⟨rfl, rfl⟩ := returns_pure.mp h
    obtain ⟨hrewritten, hof⟩ := ih hrest
    refine ⟨⟨t₁, putLeaf_returns.mp hput, hrewritten⟩, ?_⟩
    rw [UpdatesOf, List.map_cons, hof]
    rfl

theorem returns_readLeaf_bind {α : Type} {index : ℕ} {f : UTXOLeaf → Method MerkleTree Failure α}
    {a : α} : Returns (readLeaf index >>= f) t a t' ↔
      ∃ leaf, t.getLeaf index = some leaf ∧ Returns (f leaf) t a t' := by
  simp only [readLeaf, bind_assoc, returns_get_bind, returns_orThrow_bind]

/-- The sources of a merge: leaves of the tree that belong to the signer. -/
structure Sources (t : MerkleTree) (signerPubkey : Pubkey) (indices : List ℕ)
    (sources : List (ℕ × UTXOLeaf)) : Prop where
  indices_eq : sources.map Prod.fst = indices
  read : ∀ source ∈ sources, t.getLeaf source.1 = some source.2 ∧ source.2.owner = signerPubkey

theorem sources_of_ownedSources {signerPubkey : Pubkey} {indices : List ℕ} {total : UInt64}
    {r : List (ℕ × UTXOLeaf) × UInt64} (h : Returns (ownedSources signerPubkey indices total) t r t') :
    Sources t signerPubkey indices r.1 ∧
      r.2 = r.1.foldl (fun acc source => saturatingAdd acc source.2.amount) total ∧ t = t' := by
  induction indices generalizing total r with
  | nil =>
    obtain ⟨rfl, rfl⟩ := returns_pure.mp h
    exact ⟨⟨rfl, by simp⟩, rfl, rfl⟩
  | cons index indices ih =>
    obtain ⟨leaf, hleaf, h⟩ := returns_readLeaf_bind.mp h
    obtain ⟨howner, h⟩ := returns_check_bind.mp h
    obtain ⟨r₁, t₁, hrest, h⟩ := returns_bind.mp h
    obtain ⟨rfl, rfl⟩ := returns_pure.mp h
    obtain ⟨⟨hindices, hread⟩, htotal, rfl⟩ := ih hrest
    refine ⟨⟨?_, ?_⟩, htotal, rfl⟩
    · rw [List.map_cons, hindices]
    · exact List.forall_mem_cons.mpr ⟨⟨hleaf, howner⟩, hread⟩

namespace LeafCall

/-- What a call checks, of a tree, and the leaves that it then writes. -/
inductive Does (env : Env) (t : MerkleTree) : LeafCall → List Write → Prop
  | pipeline {p : Pipeline} {move : Move} {ws : List Write} (does : move.Does env t ws) :
      Does env t (pipeline p move) ws
  | splitFromRest {channelId : Bytes 32} {restIdx targetIdx : ℕ} {amount sequence : UInt64}
      {signer : Keypair} {restLeaf targetLeaf : UTXOLeaf} (rest_eq : t.getLeaf restIdx = some restLeaf)
      (covered : ¬ restLeaf.amount < amount) (owner_eq : restLeaf.owner = signer.publicKey)
      (target_eq : t.getLeaf targetIdx = some targetLeaf) (free : targetLeaf.amount = 0) :
      Does env t (splitFromRest channelId restIdx targetIdx amount sequence signer) [
        ⟨restIdx, restLeaf, .standard restLeaf.owner (saturatingSub restLeaf.amount amount)⟩,
        ⟨targetIdx, targetLeaf, .standard signer.publicKey amount⟩]
  | mergeSpentLeaves {channelId : Bytes 32} {sourceIndices : List ℕ} {targetIdx : ℕ}
      {sequence : UInt64} {signer : Keypair} {sources : List (ℕ × UTXOLeaf)} {targetLeaf : UTXOLeaf}
      (sources_eq : Sources t signer.publicKey sourceIndices sources)
      (apart : targetIdx ∉ sourceIndices) (target_eq : t.getLeaf targetIdx = some targetLeaf) :
      Does env t (mergeSpentLeaves channelId sourceIndices targetIdx sequence signer)
        (⟨targetIdx, targetLeaf, .standard
            (if targetLeaf.amount = 0 then signer.publicKey else targetLeaf.owner)
            (saturatingAdd targetLeaf.amount
              (sources.foldl (fun acc source => saturatingAdd acc source.2.amount) 0))⟩ ::
          sources.map fun source => ⟨source.1, source.2, .empty⟩)

theorem exec_eq_ok : exec env c t = .ok t' ↔ c.call env t = (.ok (), t') := by
  rw [exec]
  rcases c.call env t with ⟨e | _, t₁⟩
  · simp
  · simp

/-- The helpers' results are dropped. -/
theorem of_map_eq_ok {α : Type} {x : Method MerkleTree Failure α}
    (h : (((x.call t).1.map fun _ => ()), (x.call t).2) = (Except.ok (), t')) :
    ∃ a, Returns x t a t' := by
  rcases hx : x.call t with ⟨e | a, t₁⟩
  · rw [hx] at h
    exact absurd (congrArg Prod.fst h) (by simp [Except.map])
  · rw [hx] at h
    obtain rfl : t₁ = t' := congrArg Prod.snd h
    exact ⟨a, hx⟩

theorem of_map_eq_error {α : Type} {x : Method MerkleTree Failure α} {e : Failure}
    (h : (((x.call t).1.map fun _ => ()), (x.call t).2) = (Except.error e, t')) :
    Fails x t e t' := by
  rcases hx : x.call t with ⟨e' | a, t₁⟩
  · rw [hx] at h
    obtain ⟨he, rfl⟩ := Prod.mk.inj h
    obtain rfl : e' = e := Except.error.inj he
    exact hx
  · rw [hx] at h
    exact absurd (congrArg Prod.fst h) (by simp [Except.map])

theorem does_of_exec (h : exec env c t = .ok t') :
    ∃ ws, c.Does env t ws ∧ Rewritten env ws t t' ∧ UpdatesOf ws (c.updates env t) := by
  have h := exec_eq_ok.mp h
  cases c with
  | pipeline p move =>
    obtain ⟨hok, rfl⟩ := Prod.mk.inj h
    have hreturns : Returns (move.method env) { p with tree := t } ()
        ((move.method env).call { p with tree := t }).2 := Prod.ext hok rfl
    obtain ⟨ws, hdoes, hrecords⟩ := Move.returns_iff.mp hreturns
    obtain ⟨added, hadded, hof⟩ := updates_of_records hrecords
    refine ⟨ws, .pipeline hdoes, rewritten_of_records hrecords, ?_⟩
    rw [updates, hadded, List.drop_left]
    exact hof
  | splitFromRest channelId restIdx targetIdx amount sequence signer =>
    obtain ⟨r, hcall⟩ := of_map_eq_ok h
    have hr := hcall
    simp only [StateChannel.splitFromRest, returns_readLeaf_bind, returns_check_bind] at hr
    obtain ⟨restLeaf, hrest, hcovered, howner, targetLeaf, htarget, hfree, hr⟩ := hr
    obtain ⟨hrewritten, hof⟩ := rewritten_of_writeAll hr
    refine ⟨_, .splitFromRest hrest hcovered howner htarget hfree, hrewritten, ?_⟩
    rw [updates, show (_ : Except _ _ × _) = (.ok r, t') from hcall]
    exact hof
  | mergeSpentLeaves channelId sourceIndices targetIdx sequence signer =>
    obtain ⟨r, hcall⟩ := of_map_eq_ok h
    obtain ⟨⟨sources, total⟩, t₁, hsources, hr⟩ := returns_bind.mp hcall
    obtain ⟨hread, htotal, rfl⟩ := sources_of_ownedSources hsources
    dsimp only at htotal
    subst htotal
    simp only [returns_readLeaf_bind, returns_check_bind] at hr
    obtain ⟨hapart, targetLeaf, htarget, hr⟩ := hr
    obtain ⟨hrewritten, hof⟩ := rewritten_of_writeAll hr
    refine ⟨_, .mergeSpentLeaves hread hapart htarget, hrewritten, ?_⟩
    rw [updates, show (_ : Except _ _ × _) = (.ok r, t') from hcall]
    exact hof

theorem isTree_of_exec (h : exec env c t = .ok t') (htree : IsTree env.sha t) :
    IsTree env.sha t' := by
  obtain ⟨ws, -, hrewritten, -⟩ := does_of_exec h
  exact hrewritten.isTree htree

end LeafCall

/-! ### Which calls spare the locks -/

theorem locksHold_of_spared (h : Rewritten env ws t t') (hspared : ∀ w ∈ ws, Unlocked t w.index) :
    LocksHold env t c t' := by
  intro index leaf hleaf hlocked
  rcases h.getLeaf index with ⟨hsame, -⟩ | ⟨w, hw, hindex, -⟩
  · exact .inl (hsame.trans hleaf)
  · exact absurd hlocked (hspared w hw leaf (hindex ▸ hleaf))

/-- A standard leaf in the place of an HTLC leaf breaks its lock, except in a release. -/
theorem spared_of_locksHold (h : Rewritten env ws t t')
    (hstandard : ∀ w ∈ ws, w.newLeaf.leafType = .standard)
    (hno : ∀ index leaf newLeaf, ¬ Releases env index leaf c newLeaf)
    (hlocks : LocksHold env t c t') : ∀ w ∈ ws, Unlocked t w.index := by
  intro w hw leaf hleaf hlocked
  rcases h.getLeaf w.index with ⟨-, hother⟩ | ⟨w', hw', -, hnow⟩
  · exact absurd rfl (hother w hw)
  · rcases hlocks w.index leaf hleaf hlocked with hkept | ⟨newLeaf, -, hreleases⟩
    · have heq : w'.newLeaf = leaf := Option.some_inj.mp (hnow.symm.trans hkept)
      have htype := hstandard w' hw'
      rw [heq, hlocked] at htype
      exact absurd htype (by decide)
    · exact absurd hreleases (hno _ _ _)

/-- A call that writes standard leaves, and is no release, keeps the locks if it writes to none. -/
theorem locksHold_iff_of_standard (h : Rewritten env ws t t')
    (hstandard : ∀ w ∈ ws, w.newLeaf.leafType = .standard)
    (hno : ∀ index leaf newLeaf, ¬ Releases env index leaf c newLeaf) :
    LocksHold env t c t' ↔ ∀ w ∈ ws, Unlocked t w.index :=
  ⟨spared_of_locksHold h hstandard hno, locksHold_of_spared h⟩

/-- A release writes to one leaf, whose lock it opens. -/
theorem locksHold_of_releases {w : Write} (h : Rewritten env [w] t t')
    (hleaf : t.getLeaf w.index = some w.prevLeaf)
    (hreleases : Releases env w.index w.prevLeaf c w.newLeaf) : LocksHold env t c t' := by
  intro index leaf hleaf' hlocked
  rcases h.getLeaf index with ⟨hsame, -⟩ | ⟨w', hw', hindex, hnow⟩
  · exact .inl (hsame.trans hleaf')
  · obtain rfl := List.mem_singleton.mp hw'
    subst hindex
    obtain rfl := Option.some_inj.mp (hleaf.symm.trans hleaf')
    exact .inr ⟨_, hnow, hreleases⟩

/-- An HTLC leaf in the place of an HTLC leaf keeps the lock if it is the same. -/
theorem locksHold_iff_of_htlc {w : Write} (h : Rewritten env [w] t t')
    (hleaf : t.getLeaf w.index = some w.prevLeaf)
    (hno : ∀ index leaf newLeaf, ¬ Releases env index leaf c newLeaf) :
    LocksHold env t c t' ↔ (w.prevLeaf.leafType = .htlc → w.prevLeaf = w.newLeaf) := by
  have hnow : t'.getLeaf w.index = some w.newLeaf := by
    rcases h.getLeaf w.index with ⟨-, hother⟩ | ⟨w', hw', -, hnow⟩
    · exact absurd rfl (hother _ List.mem_cons_self)
    · obtain rfl := List.mem_singleton.mp hw'
      exact hnow
  constructor
  · intro hlocks hlocked
    rcases hlocks w.index _ hleaf hlocked with hkept | ⟨newLeaf, -, hreleases⟩
    · exact Option.some_inj.mp (hkept.symm.trans hnow)
    · exact absurd hreleases (hno _ _ _)
  · intro hspares index leaf hleaf' hlocked
    rcases h.getLeaf index with ⟨hsame, -⟩ | ⟨w', hw', hindex, -⟩
    · exact .inl (hsame.trans hleaf')
    · obtain rfl := List.mem_singleton.mp hw'
      subst hindex
      obtain rfl := Option.some_inj.mp (hleaf.symm.trans hleaf')
      left
      rw [hnow, ← hspares hlocked]

/-- What one call does to the locks. -/
theorem locksHold_iff_of_exec (h : LeafCall.exec env c t = .ok t') :
    LocksHold env t c t' ↔ c.SparesLocks t := by
  obtain ⟨ws, hdoes, h, -⟩ := LeafCall.does_of_exec h
  cases hdoes with
  | @pipeline p move ws hdoes =>
    cases hdoes with
    | transferLeaf hleaf hfilled =>
      rw [locksHold_iff_of_standard h (by simp [UTXOLeaf.standard]) (by rintro _ _ _ ⟨⟩)]
      exact List.forall_mem_singleton
    | @partialTransfer srcIndex destIndex amount recipient srcLeaf destLeaf =>
      have hiff : (LeafCall.pipeline p (.partialTransfer srcIndex destIndex amount
          recipient)).SparesLocks t ↔ Unlocked t srcIndex ∧ Unlocked t destIndex := Iff.rfl
      rw [hiff, and_comm,
        locksHold_iff_of_standard h (by simp [UTXOLeaf.standard]) (by rintro _ _ _ ⟨⟩)]
      simp
    | @createHtlc index hashLock timelockSlot beneficiary _ _ prevLeaf hleaf =>
      rw [locksHold_iff_of_htlc h hleaf (by rintro _ _ _ ⟨⟩)]
      constructor
      · intro hspares leaf hleaf' hlocked
        obtain rfl := Option.some_inj.mp (hleaf.symm.trans hleaf')
        exact hspares hlocked
      · intro hspares hlocked
        exact hspares _ hleaf hlocked
    | resolveHtlc hleaf htype hopens hben =>
      exact iff_of_true (locksHold_of_releases h hleaf (.resolved hopens hben)) trivial
    | refundHtlc hleaf htype htime hexpired =>
      have hpast := UInt64.not_le.mp hexpired
      exact iff_of_true (locksHold_of_releases h hleaf (.refunded htime hpast)) trivial
  | @splitFromRest channelId restIdx targetIdx amount sequence signer =>
    have hiff : (LeafCall.splitFromRest channelId restIdx targetIdx amount sequence
        signer).SparesLocks t ↔ Unlocked t restIdx ∧ Unlocked t targetIdx := Iff.rfl
    rw [hiff, locksHold_iff_of_standard h (by simp [UTXOLeaf.standard]) (by rintro _ _ _ ⟨⟩)]
    simp
  | @mergeSpentLeaves channelId sourceIndices targetIdx sequence signer sources targetLeaf hsources =>
    have hiff : (LeafCall.mergeSpentLeaves channelId sourceIndices targetIdx sequence
        signer).SparesLocks t ↔
          Unlocked t targetIdx ∧ ∀ source ∈ sources, Unlocked t source.1 := by
      rw [LeafCall.SparesLocks, ← hsources.indices_eq, List.forall_mem_map]
    refine (locksHold_iff_of_standard h ?_ (by rintro _ _ _ ⟨⟩)).trans ?_
    · exact List.forall_mem_cons.mpr ⟨rfl, List.forall_mem_map.mpr fun _ _ => rfl⟩
    · rw [hiff, List.forall_mem_cons, List.forall_mem_map]

/-! ### Calls that fail -/

theorem fails_readLeaf_bind {α : Type} {index : ℕ} {f : UTXOLeaf → Method MerkleTree Failure α}
    {e : Failure} (h : Fails (readLeaf index >>= f) t e t') :
    t' = t ∨ ∃ leaf, t.getLeaf index = some leaf ∧ Fails (f leaf) t e t' := by
  simp only [readLeaf, bind_assoc, fails_get_bind, fails_orThrow_bind] at h
  rcases h with ⟨-, -, rfl⟩ | h
  · exact .inl rfl
  · exact .inr h

/-- Writing leaves that can be read, only the sequence can go wrong. -/
theorem writeAll_fails {channelId : Bytes 32} {signer : Keypair} {seq : UInt64} {e : Failure}
    (htree : IsTree env.sha t) (hindex : ∀ w ∈ ws, w.index < t.leaves.length)
    (h : Fails (writeAll env channelId signer ws seq) t e t') : e = .panic := by
  induction ws generalizing t seq with
  | nil => exact absurd h fails_pure
  | cons w ws ih =>
    obtain ⟨hw, hws⟩ := List.forall_mem_cons.mp hindex
    obtain ⟨t₁, hput⟩ := exists_put htree hw w.newLeaf
    have hreturns : Returns (putLeaf env w.index w.newLeaf) t () t₁ := putLeaf_returns.mpr hput
    rcases fails_bind.mp h with h | ⟨_, t₂, h₂, h⟩
    · exact absurd h hreturns.not_fails
    · obtain ⟨-, rfl⟩ := hreturns.unique h₂
      rcases fails_orThrow_bind.mp h with ⟨-, rfl, -⟩ | ⟨seq, -, h⟩
      · rfl
      · rcases fails_bind.mp h with h | ⟨_, t₃, -, h⟩
        · refine ih (hput.isTree htree).1 (fun w' hw' => ?_) h
          rw [hput.leaves_eq, List.length_set]
          exact hws w' hw'
        · exact absurd h fails_pure

theorem ownedSources_fails {signerPubkey : Pubkey} {indices : List ℕ} {total : UInt64} {e : Failure}
    (h : Fails (ownedSources signerPubkey indices total) t e t') : t' = t := by
  induction indices generalizing total with
  | nil => exact absurd h fails_pure
  | cons index indices ih =>
    rcases fails_readLeaf_bind h with rfl | ⟨leaf, hleaf, h⟩
    · rfl
    rcases fails_check_bind.mp h with ⟨-, -, rfl⟩ | ⟨howner, h⟩
    · rfl
    rcases fails_bind.mp h with h | ⟨_, t₁, -, h⟩
    · exact ih h
    · exact absurd h fails_pure

theorem getLeaf_lt {index : ℕ} {leaf : UTXOLeaf} (h : t.getLeaf index = some leaf) :
    index < t.leaves.length := (List.getElem?_eq_some_iff.mp h).1

/-- A call that returns an error has written nothing. -/
theorem LeafCall.error_unchanged {error : StateChannelError} (htree : IsTree env.sha t)
    (h : c.call env t = (.error (.error error), t')) : t' = t := by
  cases c with
  | pipeline p move =>
    obtain ⟨he, rfl⟩ := Prod.mk.inj h
    have hfails : Fails (move.method env) { p with tree := t } (.error error)
        ((move.method env).call { p with tree := t }).2 := Prod.ext he rfl
    exact congrArg Pipeline.tree (Move.fails_unchanged htree hfails)
  | splitFromRest channelId restIdx targetIdx amount sequence signer =>
    rcases fails_readLeaf_bind (of_map_eq_error h) with rfl | ⟨restLeaf, hrest, h⟩
    · rfl
    rcases fails_check_bind.mp h with ⟨-, -, rfl⟩ | ⟨-, h⟩
    · rfl
    rcases fails_check_bind.mp h with ⟨-, -, rfl⟩ | ⟨-, h⟩
    · rfl
    rcases fails_readLeaf_bind h with rfl | ⟨targetLeaf, htarget, h⟩
    · rfl
    rcases fails_check_bind.mp h with ⟨-, -, rfl⟩ | ⟨-, h⟩
    · rfl
    · have hpanic := writeAll_fails htree (by simp [getLeaf_lt hrest, getLeaf_lt htarget]) h
      exact absurd hpanic (by simp)
  | mergeSpentLeaves channelId sourceIndices targetIdx sequence signer =>
    rcases fails_bind.mp (of_map_eq_error h) with h | ⟨⟨sources, total⟩, t₁, hsources, h⟩
    · exact ownedSources_fails h
    obtain ⟨hread, -, rfl⟩ := sources_of_ownedSources hsources
    rcases fails_check_bind.mp h with ⟨-, -, rfl⟩ | ⟨-, h⟩
    · rfl
    rcases fails_readLeaf_bind h with rfl | ⟨targetLeaf, htarget, h⟩
    · rfl
    · have hindex : ∀ source ∈ sources, source.1 < t.leaves.length :=
        fun source hsource => getLeaf_lt (hread.read source hsource).1
      have hpanic := writeAll_fails htree
        (List.forall_mem_cons.mpr ⟨getLeaf_lt htarget, List.forall_mem_map.mpr hindex⟩) h
      exact absurd hpanic (by simp)

/-- In every run of the seven from a tree, a call that returns an error changes nothing, and the HTLC
leaves are released as their locks allow throughout exactly where all calls spare the locks. -/
theorem locksHold_iff (env : Env) (t₀ : MerkleTree) (htree : IsTree env.sha t₀)
    {h : List (MerkleTree × LeafCall)} {t : MerkleTree} (hrun : Run (LeafCall.exec env) t₀ h t) :
    (∀ (c : LeafCall) error t', c.call env t = (.error (.error error), t') → t' = t) ∧
    ((∀ c ∈ h, ∀ t', LeafCall.exec env c.2 c.1 = .ok t' → LocksHold env c.1 c.2 t') ↔
      ∀ c ∈ h, c.2.SparesLocks c.1) := by
  have hnow : IsTree env.sha t :=
    hrun.invariant htree fun _ _ _ htree hexec => LeafCall.isTree_of_exec hexec htree
  refine ⟨fun c error t' => LeafCall.error_unchanged hnow, ?_⟩
  constructor
  · intro hall c hc
    obtain ⟨-, t', -, -, hexec⟩ := hrun.of_mem hc
    exact (locksHold_iff_of_exec hexec).mp (hall c hc t' hexec)
  · intro hall c hc t' hexec
    exact (locksHold_iff_of_exec hexec).mpr (hall c hc)

end

/-! ### A lock broken, and locks that hold -/

namespace Sample

/-- Two leaves: the payer's deposit as an HTLC to the seller, and an empty one. -/
def lockedTree : Except Unit MerkleTree := orErr (MerkleTree.new env.sha [htlcLeaf] 1) ()

/-- The signatures on what becomes of the HTLC. -/
def released : List ((Pubkey × Bytes 32) × Bytes 64) := [
  ((payer, number 0x18d7bb7f1b9018913405f267761a8476d1b53396070a9bcdab74609472deecad),
    signature 0x78163414fcd8ef51649a39c36652e216effcb77ca506352c16183b8a4f259735
      0x0cc7dcf131546b4b8c10611a388301d91a50c9465a85d423deabd6d57eea9720),
  ((payer, number 0x62930aa38936a539d1e8824d011511bceed96f7873fa87be68c3c8f50022b5de),
    signature 0x5c3f7fd2a9c375873657d4461993889974335a83fa87ab9076f5ed0d34310e36
      0x059cb780a6e70fb32cd94c96041808c57e09f9edcbb942194ce3888dcf3eddbb),
  ((seller, number 0xe8f7549a6589f29f0483b729b68d4c3ac2d9a9b11f084178959446ea0247d8b0),
    signature 0xb07663814575b33f36fe3c61423acfcfc5168aeef5a10f362bb8f2906d4f4efd
      0x0eef8a16feecde123c1b621f4af5078d9e3990823250153f234158132b377367),
  ((seller, number 0xb9291cedb14eae03f1c51287045c4cd79e85b521609fdd9e3f02c71eb5b50f18),
    signature 0x8fb7341a0f5613b639c7fb59dc4b5213708ebaf67d6366cea55bc2a4e23f13e8
      0x0e143798f369ef6e8dd9ceeae8576b61f0319541f618a6d0fcc14e512f2442ce),
  ((seller, number 0xad3e86ac90ff6c8d81599209698bdaaaa66624aa99fe81fc8e26c106216b1a18),
    signature 0xb037aa46e3acfb50433e6f2092f852541ad75dedce87473b460b8f8356684632
      0x01fd7ad5dc51785047bd8f22f150dd7b59c46e50f4b4d717faa5e8873f856b18),
  ((seller, number 0x6ec4eb3f70e56887e4729ab30738866ea4797a46e4fa1b491153c2b3e5be8f78),
    signature 0xecae07c824088b35dd420b570e05375494e78b85f1dc15e4acd1f5cde82922de
      0x0c548508dbddf6d6d70db439c638abeb40a433c329a360cf5cc87a2b97f4553a)]

def sellerWith (more : List ((Pubkey × Bytes 32) × Bytes 64)) : Keypair :=
  ⟨seller, signAlso more seller⟩

/-- The payer moves a leaf. -/
def payerMoves (t : MerkleTree) (move : Move) : LeafCall :=
  .pipeline (.new t channelId 1 (payerWith released)) move

/-- The HTLC is resolved, and the seller splits the leaf and merges it again. -/
def releaseCalls (t : MerkleTree) : List LeafCall := [
  payerMoves t (.resolveHtlc 0 preimage),
  .splitFromRest channelId 0 1 4 2 (sellerWith released),
  .mergeSpentLeaves channelId [1] 0 4 (sellerWith released)]

end Sample

/-- The payer transfers the leaf that is locked for the seller to itself. -/
theorem transfer_breaks_lock : ∃ t t', Sample.lockedTree = .ok t ∧
    t.getLeaf 0 = some Sample.htlcLeaf ∧
    LeafCall.exec Sample.env (Sample.payerMoves t (.transferLeaf 0 Sample.payer)) t = .ok t' ∧
    t'.getLeaf 0 = some (.standard Sample.payer 10) ∧
    ¬ LocksHold Sample.env t (Sample.payerMoves t (.transferLeaf 0 Sample.payer)) t' := by
  have htest : Sample.lockedTree.toOption.any fun t =>
      decide (t.getLeaf 0 = some Sample.htlcLeaf) &&
      (LeafCall.exec Sample.env (Sample.payerMoves t (.transferLeaf 0 Sample.payer)) t).toOption.any
        fun t' => decide (t'.getLeaf 0 = some (.standard Sample.payer 10)) := by
    decide +kernel
  obtain ⟨t, ht, htest⟩ := exists_of_any htest
  obtain ⟨hbefore, htest⟩ := Bool.and_eq_true_iff.mp htest
  obtain ⟨t', hexec, hafter⟩ := exists_of_any htest
  have hbefore := of_decide_eq_true hbefore
  have hafter := of_decide_eq_true hafter
  refine ⟨t, t', ht, hbefore, hexec, hafter, fun hlocks => ?_⟩
  rcases hlocks 0 _ hbefore rfl with hkept | ⟨newLeaf, -, hreleases⟩
  · exact absurd (hafter.symm.trans hkept) (by decide)
  · cases hreleases

theorem locksHold_releaseCalls : ∃ t₀ h t, Sample.lockedTree = .ok t₀ ∧
    Run (LeafCall.exec Sample.env) t₀ h t ∧ h.map Prod.snd = (Sample.releaseCalls t₀).reverse ∧
    t.getLeaf 0 = some (.standard Sample.seller 10) ∧
    (∀ c ∈ h, ∀ t', LeafCall.exec Sample.env c.2 c.1 = .ok t' →
      LocksHold Sample.env c.1 c.2 t') := by
  have htest : Sample.lockedTree.toOption.any fun t₀ =>
      Run.tryAll (LeafCall.exec Sample.env) (fun t c => c.SparesLocks t)
        (fun t => t.getLeaf 0 = some (.standard Sample.seller 10)) (Sample.releaseCalls t₀) t₀ := by
    decide +kernel
  obtain ⟨t₀, ht₀, htest⟩ := exists_of_any htest
  obtain ⟨h, t, hrun, hcalls, hspares, hleaf⟩ := Run.exists_of_tryAll .start (by simp) htest
  rw [List.map_nil, List.append_nil] at hcalls
  have htree : IsTree Sample.env.sha t₀ := isTree_of_new (orErr_eq_ok.mp ht₀)
  exact ⟨t₀, h, t, ht₀, hrun, hcalls, hleaf,
    (locksHold_iff Sample.env t₀ htree hrun).2.mpr hspares⟩

end StateChannel
