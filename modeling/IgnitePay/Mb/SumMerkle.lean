/-
Sum-Merkle trees: the SDK's builder (`sdk/src/merkle.rs`) and the program's
proof check (`utils/merkle.rs`).

A node is a hash and a sum.  A leaf hashes 145 bytes that start with 0, an
inner node 81 bytes that start with 1 and contain its children, sorted by
hash, with their sums.  Both sides build the same bytes, so the program's
check climbs the tree the SDK builds:

* `exists_sumTree` — the SDK's levels are those of one binary tree over the
  vouchers, whose sum is exact when the total fits a `u64`;
* `exists_honestProof` — every voucher has a proof the program accepts;
* `proof_binds` — and an accepted proof starts at the leaf of a voucher, if no
  two of the hashed strings collide.
-/
import IgnitePay.Lib.HashTree
import IgnitePay.Lib.Sha256
import IgnitePay.Mb.State

namespace Mb

open Bytes Machine HashTree

/-- A signed payment voucher. -/
structure Voucher where
  channelId : Bytes 32
  seq : UInt64
  amount : UInt64
  buyerPubkey : Bytes 32
  buyerSig : Bytes 64
deriving DecidableEq

structure SumMerkleNode where
  hash : Bytes 32
  sum : UInt64
deriving DecidableEq

/-- What a leaf hashes. -/
def leafPreimage (channelId : Bytes 32) (seq amount : UInt64) (buyer : Bytes 32)
    (sig : Bytes 64) : List UInt8 :=
  [0x00] ++ channelId.val ++ u64Le seq ++ u64Le amount ++ buyer.val ++ sig.val

def Voucher.preimage (v : Voucher) : List UInt8 :=
  leafPreimage v.channelId v.seq v.amount v.buyerPubkey v.buyerSig

/-- What an inner node with children `lo` and `hi` hashes. -/
def internalPreimage (lo hi : SumMerkleNode) : List UInt8 :=
  [0x01] ++ lo.hash.val ++ u64Le lo.sum ++ hi.hash.val ++ u64Le hi.sum

/-- Two nodes in the order of their hashes. -/
def sortPair (a b : SumMerkleNode) : SumMerkleNode × SumMerkleNode :=
  if a.hash.val ≤ b.hash.val then (a, b) else (b, a)

/-- What the parent of `a` and `b` hashes. -/
def pairPreimage (a b : SumMerkleNode) : List UInt8 :=
  internalPreimage (sortPair a b).1 (sortPair a b).2

section Build

variable (sha : List UInt8 → Bytes 32)

/-- `hash_leaf`. -/
def hashLeaf (v : Voucher) : Bytes 32 := sha v.preimage

/-- `hash_internal`. -/
def hashInternal (lo hi : SumMerkleNode) : Bytes 32 := sha (internalPreimage lo hi)

def leafNode (v : Voucher) : SumMerkleNode := ⟨hashLeaf sha v, v.amount⟩

/-! ### The SDK's builder -/

/-- The inner `while` of `build_sum_merkle_tree`: one level from the one below.
`none` is the panic of `lo_sum + hi_sum`. -/
def nextLevel : List SumMerkleNode → Option (List SumMerkleNode)
  | a :: b :: rest => do
    let (lo, hi) := sortPair a b
    let sum ← checkedAdd lo.sum hi.sum
    let next ← nextLevel rest
    some (⟨hashInternal sha lo hi, sum⟩ :: next)
  | [a] => some [a]
  | [] => some []

/-- The outer `while`.  A level is shorter than the one below, so the number of
leaves bounds the number of levels. -/
def buildLevels : ℕ → List SumMerkleNode → Option (List (List SumMerkleNode))
  | 0, current => some [current]
  | fuel + 1, current =>
    if current.length > 1 then do
      let next ← nextLevel sha current
      let rest ← buildLevels fuel next
      some (current :: rest)
    else some [current]

structure MerkleTree where
  /-- `levels[0]` are the leaves, the last level is the root. -/
  levels : List (List SumMerkleNode)
deriving DecidableEq

/-- `build_sum_merkle_tree`; `none` is a panic. -/
def buildSumMerkleTree (vouchers : List Voucher) : Option MerkleTree :=
  if vouchers = [] then none
  else (buildLevels sha vouchers.length (vouchers.map (leafNode sha))).map MerkleTree.mk

/-- `levels.last().unwrap()[0]`. -/
def MerkleTree.root (t : MerkleTree) : Option SumMerkleNode :=
  (t.levels.getLast?).bind fun level => level[0]?

def MerkleTree.rootHash (t : MerkleTree) : Option (Bytes 32) := t.root.map (·.hash)

def MerkleTree.rootSum (t : MerkleTree) : Option UInt64 := t.root.map (·.sum)

/-- The strings that were hashed to build the tree. -/
def MerkleTree.preimages (t : MerkleTree) (vouchers : List Voucher) : List (List UInt8) :=
  vouchers.map Voucher.preimage ++
    t.levels.flatMap fun level => (pairs level).map fun p => pairPreimage p.1 p.2

/-! ### The program's check -/

/-- The loop of `verify_sum_merkle_proof`. -/
def climbProof : SumMerkleNode → List (Bytes 32) → List UInt64 → Except Error SumMerkleNode
  | current, [], _ => .ok current
  | _, _ :: _, [] => .error .panic
  | current, h :: hashes, s :: sums => do
    let (lo, hi) := sortPair current ⟨h, s⟩
    let sum ← orErr (checkedAdd current.sum s) (Error.code .arithmeticOverflow)
    climbProof ⟨sha (internalPreimage lo hi), sum⟩ hashes sums

/-- `verify_sum_merkle_proof`: whether the root matches, and the computed sum. -/
def verifySumMerkleProof (leafHash : Bytes 32) (leafAmount : UInt64)
    (siblingHashes : List (Bytes 32)) (siblingSums : List UInt64) (expectedRoot : Bytes 32) :
    Except Error (Bool × UInt64) := do
  let current ← climbProof sha ⟨leafHash, leafAmount⟩ siblingHashes siblingSums
  pure (decide (current.hash = expectedRoot), current.sum)

/-- The parent of two nodes, as both sides compute it when the sum fits. -/
def combine (a b : SumMerkleNode) : SumMerkleNode := ⟨sha (pairPreimage a b), a.sum + b.sum⟩

def siblings (hashes : List (Bytes 32)) (sums : List UInt64) : List SumMerkleNode :=
  List.zipWith SumMerkleNode.mk hashes sums

/-- The strings that the check of a proof hashes on its way up. -/
def proofPreimages (leafHash : Bytes 32) (leafAmount : UInt64) (hashes : List (Bytes 32))
    (sums : List UInt64) : List (List UInt8) :=
  (climbSteps (combine sha) ⟨leafHash, leafAmount⟩ (siblings hashes sums)).map
    fun p => pairPreimage p.1 p.2

end Build

/-! ### Preimages are read back -/

theorem leafPreimage_inj {c c' : Bytes 32} {s s' a a' : UInt64} {b b' : Bytes 32}
    {g g' : Bytes 64} (h : leafPreimage c s a b g = leafPreimage c' s' a' b' g') :
    c = c' ∧ s = s' ∧ a = a' ∧ b = b' ∧ g = g' := by
  obtain ⟨h, hg⟩ := List.append_inj h (by simp)
  obtain ⟨h, hb⟩ := List.append_inj h (by simp)
  obtain ⟨h, ha⟩ := List.append_inj h (by simp)
  obtain ⟨h, hs⟩ := List.append_inj h (by simp)
  obtain ⟨-, hc⟩ := List.append_inj h (by simp)
  exact ⟨Subtype.ext hc, u64Le_inj hs, u64Le_inj ha, Subtype.ext hb, Subtype.ext hg⟩

theorem internalPreimage_inj {lo lo' hi hi' : SumMerkleNode}
    (h : internalPreimage lo hi = internalPreimage lo' hi') : lo = lo' ∧ hi = hi' := by
  obtain ⟨h, hhs⟩ := List.append_inj h (by simp)
  obtain ⟨h, hhh⟩ := List.append_inj h (by simp)
  obtain ⟨h, hls⟩ := List.append_inj h (by simp)
  obtain ⟨-, hlh⟩ := List.append_inj h (by simp)
  refine ⟨?_, ?_⟩
  · cases lo
    cases lo'
    simp only [SumMerkleNode.mk.injEq]
    exact ⟨Subtype.ext hlh, u64Le_inj hls⟩
  · cases hi
    cases hi'
    simp only [SumMerkleNode.mk.injEq]
    exact ⟨Subtype.ext hhh, u64Le_inj hhs⟩

/-- Domain separation: a leaf's preimage starts with 0, an inner node's with 1. -/
theorem leafPreimage_ne_pairPreimage (c : Bytes 32) (s a : UInt64) (b : Bytes 32) (g : Bytes 64)
    (x y : SumMerkleNode) : leafPreimage c s a b g ≠ pairPreimage x y := by
  intro h
  have := congrArg List.head? h
  simp [leafPreimage, pairPreimage, internalPreimage] at this

theorem sortPair_cases (a b : SumMerkleNode) :
    sortPair a b = (a, b) ∨ sortPair a b = (b, a) := by
  unfold sortPair
  split
  · exact .inl rfl
  · exact .inr rfl

/-- Equal parents' preimages have the same two children. -/
theorem pairPreimage_inj {a b x y : SumMerkleNode} (h : pairPreimage a b = pairPreimage x y) :
    (a = x ∧ b = y) ∨ (a = y ∧ b = x) := by
  obtain ⟨hlo, hhi⟩ := internalPreimage_inj h
  rcases sortPair_cases a b with hab | hab <;> rcases sortPair_cases x y with hxy | hxy <;>
    rw [hab, hxy] at hlo hhi
  · exact .inl ⟨hlo, hhi⟩
  · exact .inr ⟨hlo, hhi⟩
  · exact .inr ⟨hhi, hlo⟩
  · exact .inl ⟨hhi, hlo⟩

/-- The order of two nodes does not matter, unless they agree in the hash and
not in the sum. -/
theorem pairPreimage_comm {a b : SumMerkleNode} (h : a.hash = b.hash → a = b) :
    pairPreimage b a = pairPreimage a b := by
  have hsort : sortPair b a = sortPair a b := by
    unfold sortPair
    split
    · next hba =>
      split
      · next hab =>
        have heq : a = b := h (Subtype.ext (List.le_antisymm hab hba))
        rw [heq]
      · rfl
    · next hba =>
      have hab : a.hash.val ≤ b.hash.val := (List.le_total _ _).resolve_right hba
      rw [if_pos hab]
  rw [pairPreimage, hsort, pairPreimage]

/-! ### The tree behind the levels -/

section Levels

variable {sha : List UInt8 → Bytes 32}

/-- The exact total of a list of vouchers. -/
def amountSum (vouchers : List Voucher) : ℕ := (vouchers.map fun v => v.amount.toNat).sum

@[simp] theorem amountSum_append (vs ws : List Voucher) :
    amountSum (vs ++ ws) = amountSum vs + amountSum ws := by
  simp [amountSum]

theorem amountSum_perm {vs ws : List Voucher} (h : vs.Perm ws) : amountSum vs = amountSum ws :=
  (h.map _).sum_eq

/-- The node the SDK computes for a tree of vouchers. -/
def nodeOf (sha : List UInt8 → Bytes 32) (t : MTree Voucher) : SumMerkleNode :=
  t.label (leafNode sha) (combine sha)

/-- The sum at a node is exact when it fits a `u64`. -/
theorem sum_nodeOf {t : MTree Voucher} (h : amountSum t.leaves < 2 ^ 64) :
    (nodeOf sha t).sum.toNat = amountSum t.leaves := by
  induction t with
  | leaf v => simp [nodeOf, MTree.label, leafNode, MTree.leaves, amountSum]
  | node l r ihl ihr =>
    rw [MTree.leaves, amountSum_append] at h ⊢
    have hl := ihl (by omega)
    have hr := ihr (by omega)
    show ((nodeOf sha l).sum + (nodeOf sha r).sum).toNat = _
    rw [toNat_add_of_lt (by omega), hl, hr]

theorem sum_map_nodeOf {ts : List (MTree Voucher)}
    (h : amountSum (ts.flatMap MTree.leaves) < 2 ^ 64) :
    ((ts.map (nodeOf sha)).map fun s => s.sum.toNat).sum = amountSum (ts.flatMap MTree.leaves) := by
  induction ts with
  | nil => rfl
  | cons t ts ih =>
    simp only [List.flatMap_cons, amountSum_append] at h
    simp only [List.map_cons, List.sum_cons, List.flatMap_cons, amountSum_append]
    rw [ih (by omega), sum_nodeOf (by omega)]

theorem checkedAdd_sortPair {a b : SumMerkleNode} (h : a.sum.toNat + b.sum.toNat < 2 ^ 64) :
    checkedAdd (sortPair a b).1.sum (sortPair a b).2.sum = some (a.sum + b.sum) := by
  rcases sortPair_cases a b with hab | hab
  · rw [hab]
    exact if_pos h
  · rw [hab, UInt64.add_comm]
    exact if_pos (by simpa [Nat.add_comm] using h)

/-- One round of the builder makes the level above, of trees as of nodes. -/
theorem nextLevel_nodeOf {ts : List (MTree Voucher)}
    (h : amountSum (ts.flatMap MTree.leaves) < 2 ^ 64) :
    nextLevel sha (ts.map (nodeOf sha)) = some ((pairUp MTree.node ts).map (nodeOf sha)) := by
  induction ts using pairUp.induct with
  | case1 a b rest ih =>
    simp only [List.flatMap_cons, amountSum_append] at h
    have hab : (nodeOf sha a).sum.toNat + (nodeOf sha b).sum.toNat < 2 ^ 64 := by
      rw [sum_nodeOf (by omega), sum_nodeOf (by omega)]
      omega
    simp only [List.map_cons, nextLevel, checkedAdd_sortPair hab, ih (by omega), pairUp]
    rfl
  | case2 a => rfl
  | case3 => rfl

/-- The loop of the builder: it ends, its last level holds the fully paired
trees, and an inner node above the first level was hashed on the way. -/
theorem buildLevels_nodeOf (sha : List UInt8 → Bytes 32) (fuel : ℕ) (ts : List (MTree Voucher))
    (h : amountSum (ts.flatMap MTree.leaves) < 2 ^ 64) :
    ∃ levels, buildLevels sha fuel (ts.map (nodeOf sha)) = some levels ∧
      levels.getLast? = some ((pairAll MTree.node fuel ts).map (nodeOf sha)) ∧
      ∀ t ∈ pairAll MTree.node fuel ts, ∀ a b, .node a b ∈ t.subtrees →
        (∃ t' ∈ ts, .node a b ∈ t'.subtrees) ∨
          pairPreimage (nodeOf sha a) (nodeOf sha b) ∈
            levels.flatMap fun level => (pairs level).map fun p => pairPreimage p.1 p.2 := by
  induction fuel generalizing ts with
  | zero => exact ⟨_, rfl, rfl, fun t ht a b hab => .inl ⟨t, ht, hab⟩⟩
  | succ fuel ih =>
    by_cases hlen : (ts.map (nodeOf sha)).length > 1
    · obtain ⟨levels, hbuild, hlast, hpre⟩ := ih (pairUp MTree.node ts)
        (by rwa [leaves_pairUp])
      refine ⟨ts.map (nodeOf sha) :: levels, ?_, ?_, fun t ht a b hab => ?_⟩
      · rw [buildLevels, if_pos hlen, nextLevel_nodeOf h]
        show (buildLevels sha fuel _).bind _ = _
        rw [hbuild]
        rfl
      · rw [List.getLast?_cons, hlast]
        rfl
      · rw [List.flatMap_cons]
        rcases hpre t ht a b hab with ⟨t', ht', hab'⟩ | hmem
        · rcases mem_subtrees_pairUp ht' hab' with h' | ⟨p, hp, heq⟩
          · exact .inl h'
          · -- The node pairs two neighbours of this very level.
            rw [MTree.node.injEq] at heq
            obtain ⟨rfl, rfl⟩ := heq
            refine .inr (List.mem_append_left _ ?_)
            rw [map_pairs]
            exact List.mem_map.mpr ⟨Prod.map (nodeOf sha) (nodeOf sha) p,
              List.mem_map_of_mem hp, rfl⟩
        · exact .inr (List.mem_append_right _ hmem)
    · -- A single node ends the loop, and pairing it further changes nothing.
      have hle : ts.length ≤ 1 := by simpa using hlen
      rw [pairAll_of_length_le_one hle]
      refine ⟨[ts.map (nodeOf sha)], ?_, rfl, fun t ht a b hab => .inl ⟨t, ht, hab⟩⟩
      rw [buildLevels, if_neg hlen]

/-- `t` is the tree whose levels the SDK holds: it pairs the vouchers' leaves
level by level, and its inner nodes were hashed on the way. -/
structure SumTree (sha : List UInt8 → Bytes 32) (vouchers : List Voucher) (tree : MerkleTree)
    (t : MTree Voucher) : Prop where
  build : buildSumMerkleTree sha vouchers = some tree
  paired : pairAll MTree.node vouchers.length (vouchers.map MTree.leaf) = [t]
  leaves : t.leaves = vouchers
  root : tree.root = some (nodeOf sha t)
  nodes : ∀ a b, .node a b ∈ t.subtrees →
    pairPreimage (nodeOf sha a) (nodeOf sha b) ∈ tree.preimages vouchers

/-- The SDK starts from the nodes of the vouchers' leaves. -/
theorem buildSumMerkleTree_eq {vouchers : List Voucher} (hne : vouchers ≠ []) :
    buildSumMerkleTree sha vouchers
      = (buildLevels sha vouchers.length
          ((vouchers.map MTree.leaf).map (nodeOf sha))).map MerkleTree.mk := by
  have hmap : (vouchers.map MTree.leaf).map (nodeOf sha) = vouchers.map (leafNode sha) := by
    rw [List.map_map]
    rfl
  rw [buildSumMerkleTree, if_neg hne, hmap]

theorem leaves_map_leaf (vouchers : List Voucher) :
    (vouchers.map MTree.leaf).flatMap MTree.leaves = vouchers := by
  simp [List.flatMap_map, MTree.leaves]

/-- The SDK builds a tree over exactly the vouchers it is given. -/
theorem exists_sumTree {vouchers : List Voucher} (hne : vouchers ≠ [])
    (hsum : amountSum vouchers < 2 ^ 64) : ∃ tree t, SumTree sha vouchers tree t := by
  obtain ⟨levels, hbuild, hlast, hpre⟩ :=
    buildLevels_nodeOf sha vouchers.length (vouchers.map MTree.leaf) (by rwa [leaves_map_leaf])
  obtain ⟨t, ht, htl⟩ := exists_tree hne vouchers.length.lt_two_pow_self.le
  refine ⟨⟨levels⟩, t, ?_, ht, htl, ?_, fun a b hab => ?_⟩
  · rw [buildSumMerkleTree_eq hne, hbuild]
    rfl
  · rw [MerkleTree.root, hlast, ht]
    rfl
  · refine List.mem_append_right _ ?_
    rcases hpre t (by simp [ht]) a b hab with ⟨t', ht', hab'⟩ | hmem
    · -- The first level is of leaves only.
      obtain ⟨v, -, rfl⟩ := List.mem_map.mp ht'
      exact absurd hab' (by simp [MTree.subtrees])
    · exact hmem

end Levels

/-! ### Proofs -/

section Proofs

variable {sha : List UInt8 → Bytes 32}

/-- A climb the program completes is the climb over the siblings as nodes. -/
theorem climbProof_eq_ok {x r : SumMerkleNode} {hashes : List (Bytes 32)} {sums : List UInt64}
    (h : climbProof sha x hashes sums = .ok r) :
    r = climb (combine sha) x (siblings hashes sums) := by
  induction hashes generalizing x sums with
  | nil =>
    simp only [climbProof, Except.ok.injEq] at h
    exact h.symm
  | cons hash hashes ih =>
    cases sums with
    | nil => exact absurd h (by simp [climbProof])
    | cons s sums =>
      simp only [climbProof, bind_eq_ok, orErr_eq_ok] at h
      obtain ⟨sum, hadd, h⟩ := h
      rw [eq_add_of_checkedAdd hadd] at h
      exact ih h

/-- A proof the program accepts climbs to the root's hash. -/
theorem climb_of_verifySumMerkleProof {leafHash root : Bytes 32} {leafAmount total : UInt64}
    {hashes : List (Bytes 32)} {sums : List UInt64}
    (h : verifySumMerkleProof sha leafHash leafAmount hashes sums root = .ok (true, total)) :
    (climb (combine sha) ⟨leafHash, leafAmount⟩ (siblings hashes sums)).hash = root := by
  simp only [verifySumMerkleProof, bind_eq_ok, pure, Except.pure, Except.ok.injEq,
    Prod.mk.injEq, decide_eq_true_eq] at h
  obtain ⟨r, hr, hhash, -⟩ := h
  rw [climbProof_eq_ok hr] at hhash
  exact hhash

/-- The program completes a climb whose total fits a `u64`. -/
theorem climbProof_of_fits {x : SumMerkleNode} {sibs : List SumMerkleNode}
    (h : x.sum.toNat + (sibs.map fun s => s.sum.toNat).sum < 2 ^ 64) :
    climbProof sha x (sibs.map (·.hash)) (sibs.map (·.sum)) = .ok (climb (combine sha) x sibs) := by
  induction sibs generalizing x with
  | nil => rfl
  | cons s sibs ih =>
    simp only [List.map_cons, List.sum_cons] at h ⊢
    have hlt : x.sum.toNat + s.sum.toNat < 2 ^ 64 := by omega
    have hadd : checkedAdd x.sum s.sum = some (x.sum + s.sum) := if_pos hlt
    rw [climbProof, hadd]
    apply ih
    rw [toNat_add_of_lt hlt]
    omega

theorem siblings_map (sibs : List SumMerkleNode) :
    siblings (sibs.map (·.hash)) (sibs.map (·.sum)) = sibs := by
  induction sibs with
  | nil => rfl
  | cons s sibs ih => rw [List.map_cons, List.map_cons, siblings, List.zipWith_cons_cons, ← siblings, ih]

/-- The hashed strings of a tree do not collide. -/
structure Distinct (sha : List UInt8 → Bytes 32) (known : Set (List UInt8))
    (t : MTree Voucher) : Prop where
  collisionFree : Sha256.CollisionFree sha known
  leaf : ∀ v ∈ t.leaves, v.preimage ∈ known
  node : ∀ a b, .node a b ∈ t.subtrees → pairPreimage (nodeOf sha a) (nodeOf sha b) ∈ known

variable {known : Set (List UInt8)} {t : MTree Voucher}

theorem SumTree.distinct {vouchers : List Voucher} {tree : MerkleTree}
    (ht : SumTree sha vouchers tree t) (hfree : Sha256.CollisionFree sha known)
    (hknown : ∀ x ∈ tree.preimages vouchers, x ∈ known) : Distinct sha known t where
  collisionFree := hfree
  leaf v hv := by
    rw [ht.leaves] at hv
    exact hknown _ (List.mem_append_left _ (List.mem_map_of_mem hv))
  node a b hab := hknown _ (ht.nodes a b hab)

/-- Two subtrees with one hash have one sum. -/
theorem Distinct.nodeOf_eq (hd : Distinct sha known t) {u u' : MTree Voucher}
    (hu : u ∈ t.subtrees) (hu' : u' ∈ t.subtrees)
    (h : (nodeOf sha u).hash = (nodeOf sha u').hash) : nodeOf sha u = nodeOf sha u' := by
  -- Equal hashes have equal preimages, and a leaf's is never as long as a pair's.
  cases u with
  | leaf v =>
    have hv := hd.leaf v (MTree.leaf_mem_subtrees.mp hu)
    cases u' with
    | leaf v' =>
      have hv' := hd.leaf v' (MTree.leaf_mem_subtrees.mp hu')
      have hpre : v.preimage = v'.preimage := hd.collisionFree hv hv' h
      obtain ⟨-, -, hamount, -, -⟩ := leafPreimage_inj hpre
      show (⟨_, v.amount⟩ : SumMerkleNode) = ⟨_, v'.amount⟩
      rw [hamount]
      exact congrArg (SumMerkleNode.mk · _) h
    | node a' b' =>
      exact absurd (hd.collisionFree hv (hd.node a' b' hu') h)
        (leafPreimage_ne_pairPreimage _ _ _ _ _ _ _)
  | node a b =>
    have hab := hd.node a b hu
    cases u' with
    | leaf v' =>
      have hv' := hd.leaf v' (MTree.leaf_mem_subtrees.mp hu')
      exact absurd (hd.collisionFree hab hv' h).symm (leafPreimage_ne_pairPreimage _ _ _ _ _ _ _)
    | node a' b' =>
      have hpre := hd.collisionFree hab (hd.node a' b' hu') h
      show combine sha (nodeOf sha a) (nodeOf sha b) = combine sha (nodeOf sha a') (nodeOf sha b')
      rcases pairPreimage_inj hpre with ⟨ha, hb⟩ | ⟨ha, hb⟩
      · rw [ha, hb]
      · rw [combine, hpre, ha, hb, UInt64.add_comm]
        rfl

theorem Distinct.pairPreimage_comm (hd : Distinct sha known t) {a b : MTree Voucher}
    (hab : .node a b ∈ t.subtrees) :
    pairPreimage (nodeOf sha b) (nodeOf sha a) = pairPreimage (nodeOf sha a) (nodeOf sha b) :=
  Mb.pairPreimage_comm fun h => hd.nodeOf_eq
    (MTree.subtrees_trans (MTree.left_mem_subtrees a b) hab)
    (MTree.subtrees_trans (MTree.right_mem_subtrees a b) hab) h

/-- The order in which the program meets two children does not matter. -/
theorem Distinct.combine_comm (hd : Distinct sha known t) {l r : MTree Voucher}
    (hlr : .node l r ∈ t.subtrees) :
    combine sha (nodeOf sha r) (nodeOf sha l) = combine sha (nodeOf sha l) (nodeOf sha r) := by
  rw [combine, hd.pairPreimage_comm hlr, UInt64.add_comm]
  rfl

/-- The program accepts the siblings that open a voucher in the tree, with the
total of the tree as the computed sum. -/
theorem verify_of_opens (hsum : amountSum t.leaves < 2 ^ 64) {v : Voucher}
    {sibs : List (MTree Voucher)}
    (hopen : Opens (leafNode sha) (combine sha) t (.leaf v) sibs) :
    verifySumMerkleProof sha (hashLeaf sha v) v.amount ((sibs.map (nodeOf sha)).map (·.hash))
      ((sibs.map (nodeOf sha)).map (·.sum)) (nodeOf sha t).hash
        = .ok (true, (nodeOf sha t).sum) := by
  have hclimb : climb (combine sha) (leafNode sha v) (sibs.map (nodeOf sha)) = nodeOf sha t :=
    hopen.climbs
  -- The siblings hold the other vouchers, so no sum on the way up exceeds the total.
  have htotal : amountSum (v :: sibs.flatMap MTree.leaves) = amountSum t.leaves :=
    amountSum_perm hopen.perm
  have hrest : amountSum (sibs.flatMap MTree.leaves) < 2 ^ 64 := by
    simp only [amountSum, List.map_cons, List.sum_cons] at htotal hsum ⊢
    omega
  have hfits : (leafNode sha v).sum.toNat
      + ((sibs.map (nodeOf sha)).map fun s => s.sum.toNat).sum < 2 ^ 64 := by
    rw [sum_map_nodeOf hrest]
    refine lt_of_eq_of_lt ?_ hsum
    rw [← htotal]
    rfl
  have hok : climbProof sha (leafNode sha v) _ _ = .ok _ := climbProof_of_fits hfits
  rw [hclimb] at hok
  show climbProof sha (leafNode sha v) _ _ >>= _ = _
  rw [hok]
  show Except.ok (decide _, _) = _
  rw [decide_eq_true rfl]

/-- Every voucher of the tree has a proof that the program accepts, with the
total of the tree as the computed sum; checking it hashes nothing new. -/
theorem exists_honestProof (hd : Distinct sha known t) (hsum : amountSum t.leaves < 2 ^ 64)
    {v : Voucher} (hv : v ∈ t.leaves) :
    ∃ hashes sums, hashes.length = sums.length ∧
      verifySumMerkleProof sha (hashLeaf sha v) v.amount hashes sums (nodeOf sha t).hash
        = .ok (true, (nodeOf sha t).sum) ∧
      ∀ x ∈ proofPreimages sha (hashLeaf sha v) v.amount hashes sums, x ∈ known := by
  obtain ⟨sibs, hopen⟩ : ∃ sibs, Opens (leafNode sha) (combine sha) t (.leaf v) sibs :=
    exists_opens (MTree.leaf_mem_subtrees.mpr hv) fun _ _ hlr => hd.combine_comm hlr
  refine ⟨(sibs.map (nodeOf sha)).map (·.hash), (sibs.map (nodeOf sha)).map (·.sum),
    by simp, verify_of_opens hsum hopen, fun x hx => ?_⟩
  rw [proofPreimages, siblings_map] at hx
  obtain ⟨p, hp, rfl⟩ := List.mem_map.mp hx
  obtain ⟨l, r, hlr, rfl | rfl⟩ := hopen.steps p hp
  · exact hd.node l r hlr
  · show pairPreimage (nodeOf sha r) (nodeOf sha l) ∈ known
    rw [hd.pairPreimage_comm hlr]
    exact hd.node l r hlr

/-- A climb that reaches the root's hash starts at the leaf of a voucher. -/
theorem proof_binds (hd : Distinct sha known t) {c : Bytes 32} {s a : UInt64} {b : Bytes 32}
    {g : Bytes 64} {hashes : List (Bytes 32)} {sums : List UInt64}
    (hleaf : leafPreimage c s a b g ∈ known)
    (hproof : ∀ x ∈ proofPreimages sha (sha (leafPreimage c s a b g)) a hashes sums, x ∈ known)
    (hclimb : (climb (combine sha) ⟨sha (leafPreimage c s a b g), a⟩ (siblings hashes sums)).hash
      = (nodeOf sha t).hash) :
    ∃ v ∈ t.leaves, leafPreimage c s a b g = v.preimage := by
  have hmem : ∀ p ∈ climbSteps (combine sha) ⟨sha (leafPreimage c s a b g), a⟩
      (siblings hashes sums), pairPreimage p.1 p.2 ∈ known :=
    fun p hp => hproof _ (List.mem_map.mpr ⟨p, hp, rfl⟩)
  -- A step that yields the hash of an inner node started at one of its children;
  have hnode : ∀ p ∈ climbSteps (combine sha) ⟨sha (leafPreimage c s a b g), a⟩
      (siblings hashes sums), ∀ l r, MTree.node l r ∈ t.subtrees →
        (combine sha p.1 p.2).hash = (combine sha (nodeOf sha l) (nodeOf sha r)).hash →
          p.1 = nodeOf sha l ∨ p.1 = nodeOf sha r := by
    intro p hp l r hlr h
    have hpre := hd.collisionFree (hmem p hp) (hd.node l r hlr) h
    rcases pairPreimage_inj hpre with ⟨h1, -⟩ | ⟨h1, -⟩
    · exact .inl h1
    · exact .inr h1
  -- and no step yields the hash of a leaf.
  have hleaf' : ∀ p ∈ climbSteps (combine sha) ⟨sha (leafPreimage c s a b g), a⟩
      (siblings hashes sums), ∀ v ∈ t.leaves,
        (combine sha p.1 p.2).hash ≠ (leafNode sha v).hash := by
    intro p hp v hv h
    exact leafPreimage_ne_pairPreimage _ _ _ _ _ _ _
      (hd.collisionFree (hd.leaf v hv) (hmem p hp) h.symm)
  obtain ⟨u, hu, hkey⟩ := climb_binds hnode hleaf' hclimb
  cases u with
  | leaf v =>
    have hv := MTree.leaf_mem_subtrees.mp hu
    exact ⟨v, hv, hd.collisionFree hleaf (hd.leaf v hv) hkey⟩
  | node l r =>
    exact absurd (hd.collisionFree hleaf (hd.node l r hu) hkey)
      (leafPreimage_ne_pairPreimage _ _ _ _ _ _ _)

end Proofs

end Mb
