/-
The channel's tree as its callers see it (`merkle.rs`): a tree that is updated
leaf by leaf, and proofs that are checked against its root.

* `updates_rebuild` — after any calls of `update_leaf` the tree is the one that
  `new` builds from its leaves; so it survives storage, and every position has
  a proof;
* `verified_only_leaves` — a proof of any length that is checked against the
  root is the proof of a position, and for the leaf that stands there.
-/
import IgnitePay.StateChannel.Manager
import IgnitePay.StateChannel.Pipeline

namespace StateChannel

open Bytes Machine HashTree

variable {env : Env} {t : MerkleTree} {d : ℕ}

/-! ### Updates -/

/-- The tree that a list of `update_leaf` calls leaves, whether they succeed or not. -/
def afterUpdates (env : Env) (calls : List (ℕ × UTXOLeaf)) (t : MerkleTree) : MerkleTree :=
  calls.foldl (fun t c => ((putLeaf env c.1 c.2).call t).2) t

/-- The same calls on a plain list of leaves. -/
def writeLeaves (calls : List (ℕ × UTXOLeaf)) (leaves : List UTXOLeaf) : List UTXOLeaf :=
  calls.foldl (fun leaves c => leaves.set c.1 c.2) leaves

/-- A tree that is the one built from its own leaves. -/
structure Rebuilds (env : Env) (d : ℕ) (t : MerkleTree) : Prop where
  new_eq : MerkleTree.new env.sha t.leaves d = some t
  /-- What `persist_state` stores, `load_state` gives back. -/
  load_eq : ∀ (db : Db) (c : ChannelState), c.tree = t → c.metadata.treeDepth.toNat = d →
    (db.persist c).load env.sha c.metadata.channelId = .ok c
  verifies : ∀ i < 2 ^ d, ∃ leaf proof, t.getLeaf i = some leaf ∧
    t.getLeafHash i = some (leaf.hash env.sha) ∧ t.getProof i = some proof ∧
      verifyProof env.sha (leaf.hash env.sha) proof t.root = true
  /-- The next call writes an index below `2 ^ d`, and refuses any other. -/
  answers : ∀ i leaf, ((putLeaf env i leaf).call t).1 =
    if i < 2 ^ d then .ok () else .error (.error (.leafIndexOutOfBounds i (2 ^ d)))

/-- What one call does to a tree. -/
theorem putLeaf_call (ht : IsTree env.sha t) (i : ℕ) (leaf : UTXOLeaf) :
    ∃ t', (putLeaf env i leaf).call t =
        (if i < 2 ^ t.treeDepth then .ok ()
          else .error (.error (.leafIndexOutOfBounds i (2 ^ t.treeDepth))), t') ∧
      IsTree env.sha t' ∧ t'.treeDepth = t.treeDepth ∧ t'.leaves = t.leaves.set i leaf := by
  by_cases hi : i < 2 ^ t.treeDepth
  · obtain ⟨t', hwritten, htree, hleaves, hdepth⟩ := ht.exists_updateLeaf hi leaf
    have hput : Put env i leaf t t' := by
      refine ⟨?_, hwritten⟩
      rw [ht.maxLeaves_eq]
      exact not_le.mpr hi
    refine ⟨t', ?_, htree, hdepth, hleaves⟩
    rw [if_pos hi]
    exact putLeaf_returns.mpr hput
  · -- Past the end of the leaves there is nothing to write.
    refine ⟨t, ?_, ht, rfl, ?_⟩
    · rw [if_neg hi, ← ht.maxLeaves_eq]
      have hge : i ≥ t.maxLeaves := by
        rw [ht.maxLeaves_eq]
        exact not_lt.mp hi
      have hfails : Fails (putLeaf env i leaf) t (outOfBounds t i) t := by
        rw [putLeaf, fails_get_bind, fails_check_bind]
        exact .inl ⟨not_not.mpr hge, rfl, rfl⟩
      exact hfails
    · rw [List.set_eq_of_length_le]
      rw [ht.length_leaves]
      exact not_lt.mp hi

theorem isTree_afterUpdates (ht : IsTree env.sha t) (calls : List (ℕ × UTXOLeaf)) :
    IsTree env.sha (afterUpdates env calls t) ∧
      (afterUpdates env calls t).treeDepth = t.treeDepth ∧
      (afterUpdates env calls t).leaves = writeLeaves calls t.leaves := by
  induction calls generalizing t with
  | nil => exact ⟨ht, rfl, rfl⟩
  | cons c calls ih =>
    obtain ⟨t', hcall, ht', hdepth, hleaves⟩ := putLeaf_call ht c.1 c.2
    have hnext : afterUpdates env (c :: calls) t = afterUpdates env calls t' := by
      show afterUpdates env calls ((putLeaf env c.1 c.2).call t).2 = _
      rw [hcall]
    obtain ⟨htree, hdepth', hleaves'⟩ := ih ht'
    rw [hnext]
    refine ⟨htree, hdepth'.trans hdepth, ?_⟩
    rw [hleaves', hleaves]
    rfl

/-- What is stored of a channel is its leaves; its tree is built from them again. -/
theorem IsTree.load_persist (ht : IsTree env.sha t) (db : Db) {c : ChannelState}
    (hc : c.tree = t) (hdepth : c.metadata.treeDepth.toNat = t.treeDepth) :
    (db.persist c).load env.sha c.metadata.channelId = .ok c := by
  subst hc
  refine bind_eq_ok.mpr ⟨c.metadata, orErr_eq_ok.mpr (AList.lookup_insert _), ?_⟩
  refine bind_eq_ok.mpr ⟨c.tree.leaves, orErr_eq_ok.mpr (AList.lookup_insert _), ?_⟩
  refine bind_eq_ok.mpr ⟨c.tree, orErr_eq_ok.mpr (hdepth ▸ ht.new_eq), ?_⟩
  have hcosign : ((db.persist c).cosigns.lookup c.metadata.channelId).join = c.providerCosign := by
    rw [Db.persist, AList.lookup_insert]
    rfl
  rw [hcosign]
  rfl

theorem IsTree.rebuilds (ht : IsTree env.sha t) : Rebuilds env t.treeDepth t where
  new_eq := ht.new_eq
  load_eq db _ hc hdepth := ht.load_persist db hc hdepth
  verifies i hi := by
    rw [← ht.length_leaves] at hi
    have hleaf : t.getLeaf i = some t.leaves[i] := List.getElem?_eq_getElem hi
    obtain ⟨proof, hproof⟩ := ht.exists_getProof hleaf
    refine ⟨_, proof, hleaf, ?_, hproof, decide_eq_true (ht.climb_getProof hproof hleaf)⟩
    rw [ht.getLeafHash_eq, hleaf]
    rfl
  answers i leaf := by
    obtain ⟨t', hcall, -⟩ := putLeaf_call ht i leaf
    rw [hcall]

/-- Any calls of `update_leaf` lead to the tree of the leaves they wrote. -/
theorem updates_rebuild (env : Env) {leaves : List UTXOLeaf} {d : ℕ}
    (hfits : leaves.length ≤ 2 ^ d) :
    ∃ t, MerkleTree.new env.sha leaves d = some t ∧ ∀ calls,
      Rebuilds env d (afterUpdates env calls t) ∧
        (afterUpdates env calls t).leaves = writeLeaves calls t.leaves := by
  obtain ⟨t, hnew⟩ := @exists_new env.sha _ _ hfits
  refine ⟨t, hnew, fun calls => ?_⟩
  obtain ⟨htree, hdepth, hleaves⟩ := isTree_afterUpdates (isTree_of_new hnew) calls
  rw [treeDepth_of_new hnew] at hdepth
  exact ⟨hdepth ▸ htree.rebuilds, hleaves⟩

/-- A tree of one leaf and one empty slot. -/
theorem updates_rebuild_pair :
    ∃ t, MerkleTree.new Sample.env.sha [UTXOLeaf.standard Sample.payer 10] 1 = some t ∧
      ∀ calls, Rebuilds Sample.env 1 (afterUpdates Sample.env calls t) ∧
        (afterUpdates Sample.env calls t).leaves = writeLeaves calls t.leaves :=
  updates_rebuild Sample.env (by decide)

/-! ### Checked proofs -/

/-- A proof that is checked for a leaf against the root is the proof of a
position where the leaf stands, whatever its length. -/
theorem verified_only_leaves {sha : List UInt8 → Bytes 32} {leaves : List UTXOLeaf} {d : ℕ}
    {t : MerkleTree} {l : UTXOLeaf} {proof : List (Bytes 32)}
    (hnew : MerkleTree.new sha leaves d = some t)
    (hfree : Sha256.CollisionFree sha
      {s | s ∈ t.preimages ∨ s = l.toVec ∨ s ∈ proofPreimages sha (l.hash sha) proof})
    (h : verifyProof sha (l.hash sha) proof t.root = true) :
    l ∈ t.leaves ∧ proof.length = d ∧
      ∃ i, t.getLeaf i = some l ∧ t.getProof i = some proof := by
  have ht := isTree_of_new hnew
  obtain ⟨i, hproof, hleaf⟩ := ht.exists_getProof_of_climb hfree (fun _ hs => .inl hs)
    (.inr (.inl rfl)) (fun _ hs => .inr (.inr hs)) (of_decide_eq_true h)
  refine ⟨List.mem_of_getElem? hleaf, ?_, i, hleaf, hproof⟩
  rw [(ht.getProof_eq_some.mp hproof).2.1, treeDepth_of_new hnew]

namespace Sample

def filledLeaf : UTXOLeaf := .standard payer 10

/-- The filled leaf beside an empty slot. -/
def pairTree : Option MerkleTree := MerkleTree.new Sha256.sha256 [filledLeaf] 1

/-- The sibling of the filled leaf. -/
def emptySibling : List (Bytes 32) := [UTXOLeaf.empty.hash Sha256.sha256]

theorem pairTree_nodup : ∀ t ∈ pairTree, (t.preimages.map Sha256.sha256).Nodup := by
  decide +kernel

theorem pairTree_checked : ∀ t ∈ pairTree, filledLeaf.toVec ∈ t.preimages ∧
    (∀ s ∈ proofPreimages Sha256.sha256 (filledLeaf.hash Sha256.sha256) emptySibling,
      s ∈ t.preimages) ∧
    verifyProof Sha256.sha256 (filledLeaf.hash Sha256.sha256) emptySibling t.root = true := by
  decide +kernel

end Sample

/-- The filled leaf of a pair, by the hash of the empty one. -/
theorem verified_only_leaves_pair :
    ∃ t, MerkleTree.new Sha256.sha256 [Sample.filledLeaf] 1 = some t ∧
      Sample.filledLeaf ∈ t.leaves ∧ Sample.emptySibling.length = 1 ∧
      ∃ i, t.getLeaf i = some Sample.filledLeaf ∧ t.getProof i = some Sample.emptySibling := by
  have hfits : [Sample.filledLeaf].length ≤ 2 ^ 1 := by decide
  obtain ⟨t, hnew⟩ := @exists_new Sha256.sha256 _ _ hfits
  obtain ⟨hleaf, hproof, hverified⟩ := Sample.pairTree_checked t hnew
  refine ⟨t, hnew, verified_only_leaves hnew ?_ hverified⟩
  -- All that is hashed for the check was hashed for the tree.
  have hfree : Sha256.CollisionFree Sha256.sha256 {s | s ∈ t.preimages} :=
    fun _ hx _ hy hxy => List.inj_on_of_nodup_map (Sample.pairTree_nodup t hnew) hx hy hxy
  refine Set.InjOn.mono ?_ hfree
  rintro s (hs | rfl | hs)
  · exact hs
  · exact hleaf
  · exact hproof s hs

end StateChannel
