/-
The Merkle tree of the state channel (`merkle.rs`).

`MerkleTree::new` pads the leaves to a power of two with empty ones and hashes
neighbours, sorted, level by level.  Leaves and inner nodes are hashed alike,
without a tag; a leaf differs from the 64 bytes of a pair by its length.  A
proof is the list of siblings on the way up from a position; the position
itself is no part of it.

* `IsTree` — what `new` builds, and `isTree_of_new`;
* `exists_updateLeaf` — rewriting the path of a leaf gives the tree of the new
  leaves;
* `climb_getProof` — the proof of a position climbs to the root;
* `getProof_inj` — from that position's leaf hash only;
* `exists_getProof_of_climb` — a leaf that climbs to the root is one of the
  tree, and its proof is that of a position where it stands.
-/
import IgnitePay.Lib.HashTree
import IgnitePay.Lib.Sha256
import IgnitePay.StateChannel.Leaf

namespace StateChannel

open Bytes HashTree

/-! ### Sorted pairs -/

/-- Two hashes in their order. -/
def sortPair (a b : Bytes 32) : Bytes 32 × Bytes 32 := if a.val < b.val then (a, b) else (b, a)

/-- What the parent of `a` and `b` hashes. -/
def pairPreimage (a b : Bytes 32) : List UInt8 := (sortPair a b).1.val ++ (sortPair a b).2.val

theorem length_pairPreimage (a b : Bytes 32) : (pairPreimage a b).length = 64 := by
  simp [pairPreimage]

theorem pairPreimage_comm (a b : Bytes 32) : pairPreimage a b = pairPreimage b a := by
  have hsort : sortPair a b = sortPair b a := by
    unfold sortPair
    by_cases hab : a.val < b.val
    · rw [if_pos hab, if_neg (List.lt_asymm hab)]
    · by_cases hba : b.val < a.val
      · rw [if_neg hab, if_pos hba]
      · have heq : a = b := Subtype.ext (List.le_antisymm hba hab)
        rw [heq]
  rw [pairPreimage, hsort, pairPreimage]

theorem sortPair_cases (a b : Bytes 32) : sortPair a b = (a, b) ∨ sortPair a b = (b, a) := by
  unfold sortPair
  split
  · exact .inl rfl
  · exact .inr rfl

theorem pairPreimage_inj {a b x y : Bytes 32} (h : pairPreimage a b = pairPreimage x y) :
    (a, b) = (x, y) ∨ (a, b) = (y, x) := by
  obtain ⟨h1, h2⟩ := List.append_inj h (by simp)
  have h1 := Subtype.ext h1
  have h2 := Subtype.ext h2
  rcases sortPair_cases a b with hab | hab <;> rcases sortPair_cases x y with hxy | hxy <;>
    rw [hab, hxy] at h1 h2
  · exact .inl (Prod.ext h1 h2)
  · exact .inr (Prod.ext h1 h2)
  · exact .inr (Prod.ext h2 h1)
  · exact .inl (Prod.ext h2 h1)

/-! ### The tree -/

structure MerkleTree where
  leaves : List UTXOLeaf
  leafHashes : List (Bytes 32)
  /-- `nodes[0]` are the leaf hashes, the last level is the root. -/
  nodes : List (List (Bytes 32))
  treeDepth : ℕ
  maxLeaves : ℕ
deriving DecidableEq

section Build

variable (sha : List UInt8 → Bytes 32)

/-- `hashv(&[&left, &right])` of the sorted pair. -/
def hashPair (a b : Bytes 32) : Bytes 32 := sha (pairPreimage a b)

/-- The inner loop of `new`, over `current_level.chunks(2)`; `none` is the panic
on `pair[1]`. -/
def parentLevel : List (Bytes 32) → Option (List (Bytes 32))
  | a :: b :: rest => (parentLevel rest).map (hashPair sha a b :: ·)
  | [_] => none
  | [] => some []

/-- The outer loop of `new`. -/
def buildNodes : ℕ → List (Bytes 32) → Option (List (List (Bytes 32)))
  | 0, currentLevel => some [currentLevel]
  | n + 1, currentLevel =>
    (parentLevel sha currentLevel).bind fun parentLevel =>
      (buildNodes n parentLevel).map (currentLevel :: ·)

/-- `MerkleTree::new`; `none` is `LeafIndexOutOfBounds`. -/
def MerkleTree.new (leaves : List UTXOLeaf) (treeDepth : ℕ) : Option MerkleTree :=
  let maxLeaves := 2 ^ treeDepth
  if leaves.length > maxLeaves then none
  else
    let allLeaves := leaves ++ List.replicate (maxLeaves - leaves.length) UTXOLeaf.empty
    let leafHashes := allLeaves.map (UTXOLeaf.hash sha)
    (buildNodes sha treeDepth leafHashes).map fun nodes =>
      { leaves := allLeaves, leafHashes, nodes, treeDepth, maxLeaves }

end Build

namespace MerkleTree

def root (t : MerkleTree) : Bytes 32 := (t.nodes.getLast?.bind List.head?).getD (fill 32 0)

def getLeaf (t : MerkleTree) (index : ℕ) : Option UTXOLeaf := t.leaves[index]?

def getLeafHash (t : MerkleTree) (index : ℕ) : Option (Bytes 32) := t.leafHashes[index]?

/-- The indices of the empty leaves. -/
def availableSlots (t : MerkleTree) : List ℕ :=
  (t.leaves.zipIdx.filter fun p => p.1.amount = 0).map Prod.snd

/-- The loop of `update_leaf`, from level 0 up, where `x` is to stand at
`currentIndex`; `none` is the panic on an index. -/
def setPath (sha : List UInt8 → Bytes 32) : ℕ → List (List (Bytes 32)) → ℕ → Bytes 32 →
    Option (List (List (Bytes 32)))
  | 0, level :: levels, currentIndex, x =>
    if currentIndex < level.length then some (level.set currentIndex x :: levels) else none
  | n + 1, level :: levels, currentIndex, x =>
    if currentIndex < level.length then do
      let sibling ← level[currentIndex ^^^ 1]?
      let levels ← setPath sha n levels (currentIndex / 2) (hashPair sha x sibling)
      some (level.set currentIndex x :: levels)
    else none
  | _, [], _, _ => none

/-- `update_leaf`, once the index is below `max_leaves`. -/
def updateLeaf (sha : List UInt8 → Bytes 32) (t : MerkleTree) (index : ℕ) (newLeaf : UTXOLeaf) :
    Option MerkleTree :=
  if index < t.leaves.length ∧ index < t.leafHashes.length then
    let newHash := newLeaf.hash sha
    (setPath sha t.treeDepth t.nodes index newHash).map fun nodes =>
      { t with
        leaves := t.leaves.set index newLeaf
        leafHashes := t.leafHashes.set index newHash
        nodes }
  else none

/-- The loop of `get_proof`, over the levels below the root. -/
def siblingsFrom : List (List (Bytes 32)) → ℕ → Option (List (Bytes 32))
  | [], _ => some []
  | level :: levels, currentIndex => do
    let sibling ← level[currentIndex ^^^ 1]?
    let proof ← siblingsFrom levels (currentIndex / 2)
    some (sibling :: proof)

def getProof (t : MerkleTree) (index : ℕ) : Option (List (Bytes 32)) :=
  if index ≥ t.maxLeaves then none else siblingsFrom (t.nodes.take t.treeDepth) index

/-- The strings that were hashed to build the tree. -/
def preimages (t : MerkleTree) : List (List UInt8) :=
  t.leaves.map UTXOLeaf.toVec ++
    t.nodes.flatMap fun level => (pairs level).map fun p => pairPreimage p.1 p.2

end MerkleTree

/-- The strings that the check of a proof hashes on its way up. -/
def proofPreimages (sha : List UInt8 → Bytes 32) (leafHash : Bytes 32)
    (proof : List (Bytes 32)) : List (List UInt8) :=
  (climbSteps (hashPair sha) leafHash proof).map fun p => pairPreimage p.1 p.2

/-! ### What `new` builds -/

section

variable {sha : List UInt8 → Bytes 32}

theorem hashPair_comm (a b : Bytes 32) : hashPair sha a b = hashPair sha b a := by
  rw [hashPair, pairPreimage_comm, hashPair]

theorem parentLevel_eq {m : ℕ} {l : List (Bytes 32)} (h : l.length = 2 * m) :
    parentLevel sha l = some (pairUp (hashPair sha) l) := by
  induction l using pairUp.induct generalizing m with
  | case1 a b rest ih =>
    have hrest : rest.length = 2 * (m - 1) := by
      simp only [List.length_cons] at h
      omega
    rw [parentLevel, ih hrest]
    rfl
  | case2 a =>
    simp only [List.length_singleton] at h
    omega
  | case3 => rfl

theorem buildNodes_eq {n : ℕ} {l : List (Bytes 32)} (h : l.length = 2 ^ n) :
    buildNodes sha n l = some (levels (hashPair sha) n l) := by
  induction n generalizing l with
  | zero => rfl
  | succ n ih =>
    rw [pow_succ'] at h
    have hnext : (pairUp (hashPair sha) l).length = 2 ^ n := by
      rw [length_pairUp]
      omega
    rw [buildNodes, parentLevel_eq h, Option.bind_some, ih hnext]
    rfl

/-- A tree of the state channel: every node is the hash of its children. -/
structure IsTree (sha : List UInt8 → Bytes 32) (t : MerkleTree) : Prop where
  length_leaves : t.leaves.length = 2 ^ t.treeDepth
  maxLeaves_eq : t.maxLeaves = 2 ^ t.treeDepth
  leafHashes_eq : t.leafHashes = t.leaves.map (UTXOLeaf.hash sha)
  nodes_eq : t.nodes = levels (hashPair sha) t.treeDepth t.leafHashes

theorem isTree_of_new {leaves : List UTXOLeaf} {depth : ℕ} {t : MerkleTree}
    (h : MerkleTree.new sha leaves depth = some t) : IsTree sha t := by
  simp only [MerkleTree.new] at h
  split at h
  · exact absurd h (by simp)
  next hle =>
  have hlen : (leaves ++ List.replicate (2 ^ depth - leaves.length) UTXOLeaf.empty).length
      = 2 ^ depth := by
    rw [List.length_append, List.length_replicate]
    omega
  rw [buildNodes_eq (by rw [List.length_map, hlen]), Option.map_some, Option.some_inj] at h
  subst h
  exact ⟨hlen, rfl, rfl, rfl⟩

theorem exists_new {leaves : List UTXOLeaf} {depth : ℕ} (hfits : leaves.length ≤ 2 ^ depth) :
    ∃ t, MerkleTree.new sha leaves depth = some t := by
  simp only [MerkleTree.new]
  rw [if_neg (not_lt.mpr hfits), buildNodes_eq]
  · exact ⟨_, rfl⟩
  · rw [List.length_map, List.length_append, List.length_replicate]
    omega

theorem treeDepth_of_new {leaves : List UTXOLeaf} {depth : ℕ} {t : MerkleTree}
    (h : MerkleTree.new sha leaves depth = some t) : t.treeDepth = depth := by
  simp only [MerkleTree.new] at h
  split at h
  · exact absurd h (by simp)
  · obtain ⟨nodes, -, rfl⟩ := Option.map_eq_some_iff.mp h
    rfl

namespace IsTree

variable {t : MerkleTree}

theorem length_leafHashes (ht : IsTree sha t) : t.leafHashes.length = 2 ^ t.treeDepth := by
  rw [ht.leafHashes_eq, List.length_map, ht.length_leaves]

/-- The top level holds the root alone. -/
theorem pairAll_eq (ht : IsTree sha t) :
    pairAll (hashPair sha) t.treeDepth t.leafHashes = [t.root] := by
  have hlen : (pairAll (hashPair sha) t.treeDepth t.leafHashes).length = 2 ^ 0 :=
    length_pairAll (by rw [ht.length_leafHashes, Nat.add_zero])
  obtain ⟨r, hr⟩ := List.length_eq_one_iff.mp hlen
  rw [MerkleTree.root, ht.nodes_eq, getLast?_levels, hr]
  rfl

theorem getElem?_leafHashes (ht : IsTree sha t) {i : ℕ} {l : UTXOLeaf}
    (h : t.getLeaf i = some l) : t.leafHashes[i]? = some (l.hash sha) := by
  rw [ht.leafHashes_eq, List.getElem?_map, show t.leaves[i]? = some l from h]
  rfl

theorem getLeafHash_eq (ht : IsTree sha t) (i : ℕ) :
    t.getLeafHash i = (t.getLeaf i).map (UTXOLeaf.hash sha) := by
  rw [MerkleTree.getLeafHash, ht.leafHashes_eq, List.getElem?_map]
  rfl

theorem exists_getLeaf (ht : IsTree sha t) {i : ℕ} {x : Bytes 32}
    (h : t.leafHashes[i]? = some x) : ∃ l, t.getLeaf i = some l ∧ x = l.hash sha := by
  rw [ht.leafHashes_eq, List.getElem?_map, Option.map_eq_some_iff] at h
  obtain ⟨l, hl, hx⟩ := h
  exact ⟨l, hl, hx.symm⟩

theorem mem_leaves_preimages {i : ℕ} {l : UTXOLeaf} (h : t.getLeaf i = some l) :
    l.toVec ∈ t.preimages :=
  List.mem_append_left _ (List.mem_map.mpr ⟨l, List.mem_of_getElem? h, rfl⟩)

theorem mem_pairs_preimages (ht : IsTree sha t) {n : ℕ} (hn : n ≤ t.treeDepth)
    {p : Bytes 32 × Bytes 32} (hp : p ∈ pairs (pairAll (hashPair sha) n t.leafHashes)) :
    pairPreimage p.1 p.2 ∈ t.preimages := by
  refine List.mem_append_right _ (List.mem_flatMap.mpr ⟨_, ?_, List.mem_map.mpr ⟨p, hp, rfl⟩⟩)
  rw [ht.nodes_eq, mem_levels]
  exact ⟨n, hn, rfl⟩

/-- Above the root there are no pairs. -/
theorem pairs_of_lt (ht : IsTree sha t) {n : ℕ} (hn : t.treeDepth < n) :
    pairs (pairAll (hashPair sha) n t.leafHashes) = [] := by
  obtain ⟨k, rfl⟩ : ∃ k, n = t.treeDepth + k := ⟨n - t.treeDepth, by omega⟩
  have hall : pairAll (hashPair sha) (t.treeDepth + k) t.leafHashes = [t.root] := by
    induction k with
    | zero => exact ht.pairAll_eq
    | succ k ih =>
      rw [← Nat.add_assoc, pairAll_succ]
      rcases Nat.eq_zero_or_pos k with rfl | hk
      · rw [Nat.add_zero, ht.pairAll_eq]
        rfl
      · rw [ih (by omega)]
        rfl
  rw [hall]
  rfl

end IsTree

/-! ### Rewriting a leaf -/

theorem leaves_updateLeaf {t t' : MerkleTree} {i : ℕ} {newLeaf : UTXOLeaf}
    (h : t.updateLeaf sha i newLeaf = some t') : t'.leaves = t.leaves.set i newLeaf := by
  rw [MerkleTree.updateLeaf] at h
  split at h
  · obtain ⟨nodes, -, rfl⟩ := Option.map_eq_some_iff.mp h
    rfl
  · exact absurd h (by simp)

theorem setPath_levels {n i : ℕ} {l : List (Bytes 32)} (hlen : l.length = 2 ^ n) (hi : i < 2 ^ n)
    (x : Bytes 32) : MerkleTree.setPath sha n (levels (hashPair sha) n l) i x
      = some (levels (hashPair sha) n (l.set i x)) := by
  induction n generalizing l i x with
  | zero =>
    rw [levels, MerkleTree.setPath, if_pos (hlen ▸ hi)]
    rfl
  | succ n ih =>
    have hsib : i ^^^ 1 < l.length := by
      rw [hlen]
      exact Nat.xor_lt_two_pow hi (Nat.one_lt_two_pow (Nat.succ_ne_zero n))
    have hs := List.getElem?_eq_getElem hsib
    have hup : (pairUp (hashPair sha) l).length = 2 ^ n := by
      rw [length_pairUp, hlen, pow_succ]
      omega
    have hhalf : i / 2 < 2 ^ n := by
      rw [pow_succ] at hi
      omega
    rw [levels, MerkleTree.setPath, if_pos (hlen ▸ hi), hs, levels,
      pairUp_set hashPair_comm x (hlen ▸ hi) hs]
    simp only [Option.bind_eq_bind, Option.bind_some]
    rw [ih hup hhalf, Option.bind_some]

namespace IsTree

variable {t t' : MerkleTree}

/-- A tree is made of its leaves. -/
theorem new_eq (ht : IsTree sha t) : MerkleTree.new sha t.leaves t.treeDepth = some t := by
  have hpad : t.leaves ++ List.replicate (2 ^ t.treeDepth - t.leaves.length) UTXOLeaf.empty
      = t.leaves := by
    rw [ht.length_leaves, Nat.sub_self, List.replicate_zero, List.append_nil]
  have hlen : (t.leaves.map (UTXOLeaf.hash sha)).length = 2 ^ t.treeDepth := by
    rw [List.length_map, ht.length_leaves]
  simp only [MerkleTree.new]
  rw [if_neg (by rw [ht.length_leaves]; exact lt_irrefl _), hpad, buildNodes_eq hlen,
    Option.map_some, ← ht.leafHashes_eq, ← ht.nodes_eq, ← ht.maxLeaves_eq]

theorem ext (ht : IsTree sha t) (ht' : IsTree sha t') (hleaves : t.leaves = t'.leaves)
    (hdepth : t.treeDepth = t'.treeDepth) : t = t' := by
  have h := ht.new_eq
  rw [hleaves, hdepth, ht'.new_eq] at h
  exact (Option.some_inj.mp h).symm

theorem getLeafHash_eq_some (ht : IsTree sha t) {i : ℕ} {x : Bytes 32}
    (h : t.getLeafHash i = some x) : i < 2 ^ t.treeDepth := by
  rw [← ht.length_leafHashes]
  exact (List.getElem?_eq_some_iff.mp h).1

/-- Rewriting a leaf gives the tree of the new leaves. -/
theorem exists_updateLeaf (ht : IsTree sha t) {i : ℕ} (hi : i < 2 ^ t.treeDepth)
    (newLeaf : UTXOLeaf) : ∃ t', t.updateLeaf sha i newLeaf = some t' ∧ IsTree sha t' ∧
      t'.leaves = t.leaves.set i newLeaf ∧ t'.treeDepth = t.treeDepth := by
  have hbounds : i < t.leaves.length ∧ i < t.leafHashes.length := by
    rw [ht.length_leaves, ht.length_leafHashes]
    exact ⟨hi, hi⟩
  have hpath := @setPath_levels sha _ _ _ ht.length_leafHashes hi (newLeaf.hash sha)
  rw [← ht.nodes_eq] at hpath
  rw [MerkleTree.updateLeaf, if_pos hbounds]
  simp only [hpath, Option.map_some]
  refine ⟨_, rfl, ⟨?_, ht.maxLeaves_eq, ?_, rfl⟩, rfl, rfl⟩
  · show (t.leaves.set i newLeaf).length = _
    rw [List.length_set, ht.length_leaves]
  · show t.leafHashes.set i (newLeaf.hash sha) = (t.leaves.set i newLeaf).map (UTXOLeaf.hash sha)
    rw [List.map_set, ht.leafHashes_eq]

theorem of_updateLeaf (ht : IsTree sha t) {i : ℕ} {newLeaf : UTXOLeaf}
    (h : t.updateLeaf sha i newLeaf = some t') : IsTree sha t' ∧
      t'.leaves = t.leaves.set i newLeaf ∧ t'.treeDepth = t.treeDepth := by
  have hi : i < 2 ^ t.treeDepth := by
    rw [MerkleTree.updateLeaf] at h
    split at h
    · next hbounds => exact ht.length_leaves ▸ hbounds.1
    · exact absurd h (by simp)
  obtain ⟨t₁, h₁, htree, hleaves, hdepth⟩ := ht.exists_updateLeaf hi newLeaf
  obtain rfl := Option.some_inj.mp (h₁.symm.trans h)
  exact ⟨htree, hleaves, hdepth⟩

end IsTree

/-! ### Proofs -/

theorem siblingsFrom_eq_some {n i : ℕ} {l sibs : List (Bytes 32)} :
    MerkleTree.siblingsFrom ((levels (hashPair sha) n l).take n) i = some sibs ↔
      sibs.length = n ∧ Path (hashPair sha) l i sibs := by
  induction n generalizing l i sibs with
  | zero =>
    rw [List.take_zero, MerkleTree.siblingsFrom, Option.some_inj]
    constructor
    · rintro rfl
      exact ⟨rfl, .here _ _⟩
    · rintro ⟨hlen, -⟩
      exact (List.length_eq_zero_iff.mp hlen).symm
  | succ n ih =>
    rw [levels, List.take_succ_cons, MerkleTree.siblingsFrom]
    simp only [Option.bind_eq_bind, Option.bind_eq_some_iff, ih, Option.some_inj]
    constructor
    · rintro ⟨s, hs, rest, ⟨hlen, hpath⟩, rfl⟩
      exact ⟨by rw [List.length_cons, hlen], .up hs hpath⟩
    · rintro ⟨hlen, hpath⟩
      cases hpath with
      | here => exact absurd hlen (by simp)
      | up hs hpath => exact ⟨_, hs, _, ⟨by simpa using hlen, hpath⟩, rfl⟩

namespace IsTree

variable {t : MerkleTree}

/-- `get_proof` gives the path of a position. -/
theorem getProof_eq_some (ht : IsTree sha t) {i : ℕ} {proof : List (Bytes 32)} :
    t.getProof i = some proof ↔
      i < 2 ^ t.treeDepth ∧ proof.length = t.treeDepth ∧
        Path (hashPair sha) t.leafHashes i proof := by
  rw [MerkleTree.getProof, ht.maxLeaves_eq, ht.nodes_eq]
  split
  · next hge => simp [Nat.not_lt.mpr hge]
  · next hlt => rw [siblingsFrom_eq_some, and_iff_right (not_le.mp hlt)]

theorem exists_getLeaf_of_getProof (ht : IsTree sha t) {i : ℕ} {proof : List (Bytes 32)}
    (h : t.getProof i = some proof) : ∃ l, t.getLeaf i = some l := by
  have hlt : i < t.leaves.length := by
    rw [ht.length_leaves]
    exact (ht.getProof_eq_some.mp h).1
  exact ⟨t.leaves[i], List.getElem?_eq_getElem hlt⟩

theorem exists_getProof (ht : IsTree sha t) {i : ℕ} {l : UTXOLeaf} (h : t.getLeaf i = some l) :
    ∃ proof, t.getProof i = some proof := by
  have hlt : i < 2 ^ t.treeDepth := by
    rw [← ht.length_leaves]
    exact (List.getElem?_eq_some_iff.mp h).1
  obtain ⟨proof, hlen, hpath⟩ := @exists_path _ (hashPair sha) _ _ _ ht.length_leafHashes hlt
  exact ⟨proof, ht.getProof_eq_some.mpr ⟨hlt, hlen, hpath⟩⟩

/-- The proof of a position climbs from its leaf to the root. -/
theorem climb_getProof (ht : IsTree sha t) {i : ℕ} {l : UTXOLeaf} {proof : List (Bytes 32)}
    (hproof : t.getProof i = some proof) (hl : t.getLeaf i = some l) :
    climb (hashPair sha) (l.hash sha) proof = t.root := by
  obtain ⟨hlt, hlen, hpath⟩ := ht.getProof_eq_some.mp hproof
  have h := hpath.climb hashPair_comm (ht.getElem?_leafHashes hl)
  rw [hlen, ht.pairAll_eq, Nat.div_eq_of_lt hlt] at h
  exact (Option.some_inj.mp h).symm

variable {known : Set (List UInt8)} {x : Bytes 32} {proof : List (Bytes 32)}

/-- A climb whose hashed strings do not collide with those of the tree. -/
theorem distinguishes (ht : IsTree sha t) (hfree : Sha256.CollisionFree sha known)
    (htree : ∀ s ∈ t.preimages, s ∈ known) (hx : ∀ s ∈ proofPreimages sha x proof, s ∈ known) :
    ∀ p ∈ climbSteps (hashPair sha) x proof, Distinguishes (hashPair sha) t.leafHashes p := by
  intro p hp n q hq h
  have hpk : pairPreimage p.1 p.2 ∈ known := hx _ (List.mem_map.mpr ⟨p, hp, rfl⟩)
  rcases Nat.lt_or_ge t.treeDepth n with hlt | hle
  · rw [ht.pairs_of_lt hlt] at hq
    exact absurd hq (by simp)
  · exact pairPreimage_inj (hfree hpk (htree _ (ht.mem_pairs_preimages hle hq)) h)

/-- The proof of a position climbs to the root from nothing but its leaf. -/
theorem getProof_inj (ht : IsTree sha t) (hfree : Sha256.CollisionFree sha known)
    (htree : ∀ s ∈ t.preimages, s ∈ known) (hx : ∀ s ∈ proofPreimages sha x proof, s ∈ known)
    {i : ℕ} {l : UTXOLeaf} (hproof : t.getProof i = some proof) (hl : t.getLeaf i = some l)
    (hclimb : climb (hashPair sha) x proof = t.root) : x = l.hash sha := by
  obtain ⟨-, -, hpath⟩ := ht.getProof_eq_some.mp hproof
  exact hpath.climb_inj hashPair_comm (ht.getElem?_leafHashes hl)
    (ht.distinguishes hfree htree hx) (hclimb.trans (ht.climb_getProof hproof hl).symm)

/-- A leaf that climbs to the root is a leaf of the tree, by the proof of a
position where it stands. -/
theorem exists_getProof_of_climb (ht : IsTree sha t) (hfree : Sha256.CollisionFree sha known)
    (htree : ∀ s ∈ t.preimages, s ∈ known) {l : UTXOLeaf} (hl : l.toVec ∈ known)
    (hx : ∀ s ∈ proofPreimages sha (l.hash sha) proof, s ∈ known)
    (hclimb : climb (hashPair sha) (l.hash sha) proof = t.root) :
    ∃ i, t.getProof i = some proof ∧ t.getLeaf i = some l := by
  -- A leaf's encoding is not as long as a pair, so it hashes to no inner node.
  have hne : ∀ p : Bytes 32 × Bytes 32, pairPreimage p.1 p.2 ∈ known → ∀ l' : UTXOLeaf,
      l'.toVec ∈ known → hashPair sha p.1 p.2 ≠ l'.hash sha := by
    intro p hp l' hl' h
    have hlen := congrArg List.length (hfree hp hl' h)
    rw [length_pairPreimage] at hlen
    exact l'.length_toVec_ne hlen.symm
  have hleaf : ∀ p ∈ climbSteps (hashPair sha) (l.hash sha) proof,
      hashPair sha p.1 p.2 ∉ t.leafHashes := by
    intro p hp hmem
    obtain ⟨j, hj⟩ := List.getElem?_of_mem hmem
    obtain ⟨l', hl', h⟩ := ht.exists_getLeaf hj
    exact hne p (hx _ (List.mem_map.mpr ⟨p, hp, rfl⟩)) l'
      (htree _ (mem_leaves_preimages hl')) h
  obtain ⟨hle, i, hget, hpath⟩ := exists_path_of_climb ht.length_leafHashes ht.pairAll_eq
    (ht.distinguishes hfree htree hx) hleaf hclimb
  -- The climb starts at the leaves: any level above holds hashes of pairs.
  have hzero : t.treeDepth - proof.length = 0 := by
    by_contra hpos
    obtain ⟨m, hm⟩ := Nat.exists_eq_succ_of_ne_zero hpos
    rw [hm, Nat.succ_eq_add_one, pairAll_succ] at hget
    have hlen : (pairAll (hashPair sha) m t.leafHashes).length = 2 * 2 ^ proof.length := by
      rw [← pow_succ']
      refine length_pairAll ?_
      rw [ht.length_leafHashes]
      congr 1
      omega
    obtain ⟨a, b, ha, hb, hab⟩ := exists_of_getElem?_pairUp hlen hget
    have hmem := (getElem?_pairUp (f := hashPair sha) ha hb).2
    exact hne (a, b) (htree _ (ht.mem_pairs_preimages (by omega) hmem)) l hl hab.symm
  rw [hzero, pairAll] at hget hpath
  -- The leaf that stands there has the hash of `l`, and so its encoding.
  obtain ⟨l', hl', h⟩ := ht.exists_getLeaf hget
  have heq : l = l' := UTXOLeaf.toVec_inj (hfree hl (htree _ (mem_leaves_preimages hl')) h)
  refine ⟨i, ht.getProof_eq_some.mpr ⟨?_, by omega, hpath⟩, heq ▸ hl'⟩
  rw [← ht.length_leafHashes]
  exact (List.getElem?_eq_some_iff.mp hget).1

end IsTree

end

end StateChannel
