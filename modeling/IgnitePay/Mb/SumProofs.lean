/-
The SDK's proofs (`generate_proof` of `sdk/src/merkle.rs`) and what the
program's check makes of them.

A level of odd length promotes its last node, and `generate_proof` skips the
sibling that this node does not have; so proofs of one tree differ in length.
The siblings it collects are those that open the voucher's leaf in the tree
behind the levels (`siblingsFrom_eq`), and a check of them climbs to the root.

* `generateProof_accepted` — every voucher's own proof is accepted, with the
  exact total;
* `accepted_only_listed` — nothing else is: an accepted proof, of any length,
  is for a listed voucher and computes the exact total.
-/
import IgnitePay.Mb.SumMerkle

namespace Mb

open Bytes Machine HashTree

/-- A Merkle proof for a single leaf. -/
structure MerkleProof where
  siblingHashes : List (Bytes 32)
  siblingSums : List UInt64
deriving DecidableEq

/-- The loop of `generate_proof`: the siblings it pushes, from the leaf to the root. -/
def siblingsFrom : List (List SumMerkleNode) → ℕ → List SumMerkleNode
  | [], _ => []
  | level :: levels, idx =>
    if level.length = 1 then []
    else
      let siblingIdx := if idx % 2 = 0 then idx + 1 else idx - 1
      if h : siblingIdx < level.length then level[siblingIdx] :: siblingsFrom levels (idx / 2)
      else siblingsFrom levels (idx / 2)

/-- `generate_proof`. -/
def MerkleTree.generateProof (t : MerkleTree) (voucherIndex : ℕ) : MerkleProof :=
  let siblings := siblingsFrom t.levels voucherIndex
  ⟨siblings.map (·.hash), siblings.map (·.sum)⟩

variable {sha : List UInt8 → Bytes 32}

/-- The neighbour that the SDK's index arithmetic names. -/
theorem siblingIdx_eq (idx : ℕ) : (if idx % 2 = 0 then idx + 1 else idx - 1) = idx ^^^ 1 := by
  rcases Nat.even_or_odd' idx with ⟨k, rfl | rfl⟩
  · rw [xor_one_two_mul, if_pos (by omega)]
  · rw [xor_one_two_mul_add_one, if_neg (by omega)]
    omega

/-- A sibling past the end of the level is skipped. -/
theorem siblingsFrom_cons (level : List SumMerkleNode) (levels : List (List SumMerkleNode))
    (idx : ℕ) : siblingsFrom (level :: levels) idx =
      if level.length = 1 then []
      else (level[idx ^^^ 1]?).toList ++ siblingsFrom levels (idx / 2) := by
  rw [siblingsFrom]
  simp only [siblingIdx_eq]
  split
  · rfl
  · split
    · next h =>
      rw [List.getElem?_eq_getElem h]
      rfl
    · next h =>
      rw [List.getElem?_eq_none (not_lt.mp h)]
      rfl

/-- On the levels of the builder, `generate_proof` collects what opens the
position in the trees these levels stand for. -/
theorem siblingsFrom_eq {fuel : ℕ} {ts : List (MTree Voucher)}
    {levels : List (List SumMerkleNode)} (hsum : amountSum (ts.flatMap MTree.leaves) < 2 ^ 64)
    (hne : ts ≠ []) (hlen : ts.length ≤ 2 ^ fuel)
    (h : buildLevels sha fuel (ts.map (nodeOf sha)) = some levels) (idx : ℕ) :
    siblingsFrom levels idx = (openingAt MTree.node fuel ts idx).map (nodeOf sha) := by
  induction fuel generalizing ts levels idx with
  | zero =>
    -- One tree is left: the root level ends the loop.
    have hone : (ts.map (nodeOf sha)).length = 1 := by
      have := List.length_pos_iff.mpr hne
      rw [List.length_map]
      omega
    obtain rfl := Option.some_inj.mp h
    rw [siblingsFrom, if_pos hone]
    rfl
  | succ fuel ih =>
    rw [buildLevels] at h
    by_cases hgt : (ts.map (nodeOf sha)).length > 1
    · rw [if_pos hgt, nextLevel_nodeOf hsum] at h
      obtain ⟨next, hnext, h⟩ := Option.bind_eq_some_iff.mp h
      obtain rfl := Option.some_inj.mp hnext
      obtain ⟨rest, hrest, h⟩ := Option.bind_eq_some_iff.mp h
      obtain rfl := Option.some_inj.mp h
      rw [List.length_map] at hgt
      have hup : pairUp MTree.node ts ≠ [] := pairAll_ne_nil (n := 1) hne
      have hle : (pairUp MTree.node ts).length ≤ 2 ^ fuel := by
        rw [length_pairUp]
        rw [pow_succ] at hlen
        omega
      have hne1 : ts.length ≠ 1 := by omega
      rw [siblingsFrom_cons, openingAt, List.length_map, if_neg hne1, if_neg hne1,
        ih (by rwa [leaves_pairUp]) hup hle hrest, List.getElem?_map, List.map_append,
        Option.toList_map]
    · rw [if_neg hgt] at h
      obtain rfl := Option.some_inj.mp h
      have hone : ts.length = 1 := by
        have := List.length_pos_iff.mpr hne
        rw [List.length_map] at hgt
        omega
      rw [siblingsFrom_cons, openingAt, List.length_map, if_pos hone, if_pos hone]
      rfl

/-- The proof of a position opens the voucher that stands there. -/
theorem SumTree.opens {vouchers : List Voucher} {tree : MerkleTree} {t : MTree Voucher}
    (ht : SumTree sha vouchers tree t) (hd : Distinct sha {x | x ∈ tree.preimages vouchers} t)
    (hsum : amountSum vouchers < 2 ^ 64) {i : ℕ} {v : Voucher} (hv : vouchers[i]? = some v) :
    ∃ sibs, Opens (leafNode sha) (combine sha) t (.leaf v) sibs ∧
      siblingsFrom tree.levels i = sibs.map (nodeOf sha) := by
  have hne : vouchers ≠ [] := by
    rintro rfl
    exact absurd hv (by simp)
  have hbuild := ht.build
  rw [buildSumMerkleTree_eq hne] at hbuild
  obtain ⟨levels, hlevels, rfl⟩ := Option.map_eq_some_iff.mp hbuild
  have hleaf : (vouchers.map MTree.leaf)[i]? = some (.leaf v) := by
    rw [List.getElem?_map, hv]
    rfl
  refine ⟨_, opens_openingAt ht.paired hleaf fun l r hlr => hd.combine_comm hlr, ?_⟩
  refine siblingsFrom_eq (by rwa [leaves_map_leaf]) (by simpa using hne) ?_ hlevels i
  rw [List.length_map]
  exact vouchers.length.lt_two_pow_self.le

/-- The total of the tree is the exact sum of the amounts. -/
theorem SumTree.rootSum {vouchers : List Voucher} {tree : MerkleTree} {t : MTree Voucher}
    (ht : SumTree sha vouchers tree t) (hsum : amountSum vouchers < 2 ^ 64) :
    (nodeOf sha t).sum = UInt64.ofNat (amountSum vouchers) := by
  apply UInt64.toNat_inj.mp
  rw [sum_nodeOf (by rwa [ht.leaves]), ht.leaves, UInt64.toNat_ofNat_of_lt' hsum]

/-- Every voucher of a batch is accepted by its own proof, with the exact total,
whatever the length of the batch. -/
theorem generateProof_accepted {vouchers : List Voucher} (hne : vouchers ≠ [])
    (hsum : amountSum vouchers < 2 ^ 64) :
    ∃ tree root, buildSumMerkleTree sha vouchers = some tree ∧ tree.rootHash = some root ∧
      tree.rootSum = some (UInt64.ofNat (amountSum vouchers)) ∧
      (Sha256.CollisionFree sha {x | x ∈ tree.preimages vouchers} →
        ∀ i v, vouchers[i]? = some v →
          verifySumMerkleProof sha (hashLeaf sha v) v.amount
              (tree.generateProof i).siblingHashes (tree.generateProof i).siblingSums root
            = .ok (true, UInt64.ofNat (amountSum vouchers))) := by
  obtain ⟨tree, t, ht⟩ := @exists_sumTree sha vouchers hne hsum
  refine ⟨tree, (nodeOf sha t).hash, ht.build, ?_, ?_, fun hfree i v hv => ?_⟩
  · rw [MerkleTree.rootHash, ht.root]
    rfl
  · rw [MerkleTree.rootSum, ht.root, ← ht.rootSum hsum]
    rfl
  · obtain ⟨sibs, hopen, hsibs⟩ := ht.opens (ht.distinct hfree fun _ hx => hx) hsum hv
    rw [MerkleTree.generateProof, hsibs, ← ht.rootSum hsum]
    exact verify_of_opens (by rwa [ht.leaves]) hopen

namespace ThreeVouchers

def voucher (seq amount : UInt64) : Voucher :=
  ⟨fill 32 1, seq, amount, fill 32 2, fill 64 seq.toUInt8⟩

/-- The third leaf has no sibling and is promoted. -/
def vouchers : List Voucher := [voucher 0 100, voucher 1 200, voucher 2 300]

theorem nodup : ∀ tree ∈ buildSumMerkleTree Sha256.sha256 vouchers,
    ((tree.preimages vouchers).map Sha256.sha256).Nodup := by
  decide +kernel

theorem collisionFree {tree : MerkleTree}
    (h : buildSumMerkleTree Sha256.sha256 vouchers = some tree) :
    Sha256.CollisionFree Sha256.sha256 {x | x ∈ tree.preimages vouchers} :=
  fun _ hx _ hy hxy => List.inj_on_of_nodup_map (nodup tree h) hx hy hxy

end ThreeVouchers

/-- The promoted voucher of three is accepted by a proof of one sibling. -/
theorem generateProof_accepted_promoted :
    ∃ tree root, buildSumMerkleTree Sha256.sha256 ThreeVouchers.vouchers = some tree ∧
      verifySumMerkleProof Sha256.sha256
          (hashLeaf Sha256.sha256 (ThreeVouchers.voucher 2 300)) 300
          (tree.generateProof 2).siblingHashes (tree.generateProof 2).siblingSums root
        = .ok (true, 600) := by
  obtain ⟨tree, root, hbuild, -, -, haccepted⟩ :=
    @generateProof_accepted Sha256.sha256 ThreeVouchers.vouchers (by decide) (by decide)
  exact ⟨tree, root, hbuild, haccepted (ThreeVouchers.collisionFree hbuild) 2 _ rfl⟩

/-- The sum that an accepted check returns is that of the last node it computes. -/
theorem sum_of_verifySumMerkleProof {leafHash root : Bytes 32} {leafAmount total : UInt64}
    {hashes : List (Bytes 32)} {sums : List UInt64}
    (h : verifySumMerkleProof sha leafHash leafAmount hashes sums root = .ok (true, total)) :
    (climb (combine sha) ⟨leafHash, leafAmount⟩ (siblings hashes sums)).sum = total := by
  simp only [verifySumMerkleProof, bind_eq_ok, pure, Except.pure, Except.ok.injEq,
    Prod.mk.injEq] at h
  obtain ⟨r, hr, -, hsum⟩ := h
  rw [climbProof_eq_ok hr] at hsum
  exact hsum

/-- A climb to the root's hash reaches the root: the last step hashed the
root's own two children, or there was none and the voucher is the root. -/
theorem climb_eq_root {known : Set (List UInt8)} {t : MTree Voucher} (hd : Distinct sha known t)
    {w : Voucher} {sibs : List SumMerkleNode} (hw : w.preimage ∈ known)
    (hsteps : ∀ p ∈ climbSteps (combine sha) (leafNode sha w) sibs, pairPreimage p.1 p.2 ∈ known)
    (hclimb : (climb (combine sha) (leafNode sha w) sibs).hash = (nodeOf sha t).hash) :
    climb (combine sha) (leafNode sha w) sibs = nodeOf sha t := by
  -- Equal hashes are hashes of equal strings, and a leaf's string is no pair's.
  rcases List.eq_nil_or_concat sibs with rfl | ⟨sibs, s, rfl⟩
  · cases t with
    | leaf v =>
      have hpre : w.preimage = v.preimage :=
        hd.collisionFree hw (hd.leaf v List.mem_cons_self) hclimb
      obtain ⟨-, -, hamount, -, -⟩ := leafPreimage_inj hpre
      show (⟨sha w.preimage, w.amount⟩ : SumMerkleNode) = ⟨sha v.preimage, v.amount⟩
      rw [hpre, hamount]
    | node l r =>
      exact absurd (hd.collisionFree hw (hd.node l r (MTree.self_mem_subtrees _)) hclimb)
        (leafPreimage_ne_pairPreimage _ _ _ _ _ _ _)
  · rw [List.concat_eq_append] at hsteps hclimb ⊢
    rw [climb_append_singleton] at hclimb ⊢
    have hlast : pairPreimage (climb (combine sha) (leafNode sha w) sibs) s ∈ known := by
      refine hsteps (_, s) ?_
      rw [climbSteps_append_singleton]
      exact List.mem_append_right _ List.mem_cons_self
    cases t with
    | leaf v =>
      exact absurd (hd.collisionFree (hd.leaf v List.mem_cons_self) hlast hclimb.symm)
        (leafPreimage_ne_pairPreimage _ _ _ _ _ _ _)
    | node l r =>
      have hpre := hd.collisionFree hlast (hd.node l r (MTree.self_mem_subtrees _)) hclimb
      show combine sha _ s = combine sha (nodeOf sha l) (nodeOf sha r)
      rcases pairPreimage_inj hpre with ⟨ha, hb⟩ | ⟨ha, hb⟩
      · rw [ha, hb]
      · rw [combine, hpre, ha, hb, UInt64.add_comm]
        rfl

/-- No proof, of any length, convinces the program of a voucher that is not in
the batch, or of a total that is not the batch's. -/
theorem accepted_only_listed {vouchers : List Voucher} {tree : MerkleTree} {root : Bytes 32}
    {w : Voucher} {hashes : List (Bytes 32)} {sums : List UInt64} {total : UInt64}
    (hne : vouchers ≠ []) (hsum : amountSum vouchers < 2 ^ 64)
    (hbuild : buildSumMerkleTree sha vouchers = some tree) (hroot : tree.rootHash = some root)
    (hfree : Sha256.CollisionFree sha {x | x ∈ tree.preimages vouchers ∨ x = w.preimage ∨
      x ∈ proofPreimages sha (hashLeaf sha w) w.amount hashes sums})
    (h : verifySumMerkleProof sha (hashLeaf sha w) w.amount hashes sums root
      = .ok (true, total)) :
    w ∈ vouchers ∧ total = UInt64.ofNat (amountSum vouchers) := by
  obtain ⟨tree', t, ht⟩ := @exists_sumTree sha vouchers hne hsum
  obtain rfl : tree = tree' := Option.some_inj.mp (hbuild.symm.trans ht.build)
  have hd := ht.distinct hfree fun _ hx => .inl hx
  have hrootEq : root = (nodeOf sha t).hash := by
    rw [MerkleTree.rootHash, ht.root] at hroot
    exact (Option.some_inj.mp hroot).symm
  have hclimb := climb_of_verifySumMerkleProof h
  rw [hrootEq] at hclimb
  constructor
  · obtain ⟨v, hv, hpre⟩ := proof_binds hd (.inr (.inl rfl)) (fun x hx => .inr (.inr hx)) hclimb
    obtain ⟨hc, hs, ha, hb, hg⟩ := leafPreimage_inj hpre
    obtain rfl : w = v := by
      cases w
      cases v
      simp only [Voucher.mk.injEq]
      exact ⟨hc, hs, ha, hb, hg⟩
    rwa [ht.leaves] at hv
  · have htop : climb (combine sha) (leafNode sha w) (siblings hashes sums) = nodeOf sha t :=
      climb_eq_root hd (.inr (.inl rfl))
        (fun p hp => .inr (.inr (List.mem_map_of_mem hp))) hclimb
    rw [← ht.rootSum hsum, ← htop]
    exact (sum_of_verifySumMerkleProof h).symm

namespace ThreeVouchers

def last : Voucher := voucher 2 300

/-- Checking the proof of the last voucher hashes nothing that the tree did not. -/
theorem proofPreimages_mem : ∀ tree ∈ buildSumMerkleTree Sha256.sha256 vouchers,
    ∀ x ∈ proofPreimages Sha256.sha256 (hashLeaf Sha256.sha256 last) 300
      (tree.generateProof 2).siblingHashes (tree.generateProof 2).siblingSums,
        x ∈ tree.preimages vouchers := by
  decide +kernel

theorem accepted : ∀ tree ∈ buildSumMerkleTree Sha256.sha256 vouchers, ∀ root ∈ tree.rootHash,
    verifySumMerkleProof Sha256.sha256 (hashLeaf Sha256.sha256 last) 300
      (tree.generateProof 2).siblingHashes (tree.generateProof 2).siblingSums root
        = .ok (true, 600) := by
  decide +kernel

end ThreeVouchers

/-- The promoted voucher of three, with its own proof. -/
theorem accepted_only_listed_promoted :
    ∃ tree root, buildSumMerkleTree Sha256.sha256 ThreeVouchers.vouchers = some tree ∧
      tree.rootHash = some root ∧
      ThreeVouchers.last ∈ ThreeVouchers.vouchers ∧
      (600 : UInt64) = UInt64.ofNat (amountSum ThreeVouchers.vouchers) := by
  have hsum : amountSum ThreeVouchers.vouchers < 2 ^ 64 := by decide
  obtain ⟨tree, t, ht⟩ := @exists_sumTree Sha256.sha256 ThreeVouchers.vouchers (by decide) hsum
  have hroot : tree.rootHash = some (nodeOf Sha256.sha256 t).hash := by
    rw [MerkleTree.rootHash, ht.root]
    rfl
  have hleaf : ThreeVouchers.last.preimage ∈ tree.preimages ThreeVouchers.vouchers :=
    List.mem_append_left _ (List.mem_map_of_mem (by decide))
  refine ⟨tree, _, ht.build, hroot, accepted_only_listed (by decide) hsum ht.build hroot ?_
    (ThreeVouchers.accepted tree ht.build _ hroot)⟩
  refine Set.InjOn.mono ?_ (ThreeVouchers.collisionFree ht.build)
  rintro x (hx | rfl | hx)
  · exact hx
  · exact hleaf
  · exact ThreeVouchers.proofPreimages_mem tree ht.build x hx

end Mb
