/-
What the root of the audit tree says about the entries under it (`audit_merkle.rs`).

The tree hashes a pair of nodes in the order of the hashes, promotes a node without a
neighbour, and hashes entries and nodes alike; it keeps its root only.  So the root of a list
is the label of a tree over its entries, and a root does not tell two trees apart that differ
in the order of children, or in an entry that spells what a node hashes.

* `label_eq_iff` — under a hash without collisions these are the only differences;
* `root_binds` — in terms of lists; and the siblings on the way up from an entry lead from
  this entry to the root, and from nothing else.
-/
import IgnitePay.Audit.LogChunk
import IgnitePay.StateChannel.MerkleTree

namespace Audit

open Machine HashTree
open StateChannel (pairPreimage pairPreimage_inj length_pairPreimage)

variable {sha : List UInt8 → Bytes 32}

/-! ### The tree behind the root -/

/-- The pairs are hashed as those of the channel's tree are. -/
theorem hashPair_eq (a b : Bytes 32) : hashPair sha a b = sha (pairPreimage a b) := by
  rw [hashPair, pairPreimage, StateChannel.sortPair]
  split
  · rfl
  · rfl

theorem hashPair_comm (a b : Bytes 32) : hashPair sha a b = hashPair sha b a := by
  rw [hashPair_eq, hashPair_eq, StateChannel.pairPreimage_comm]

/-- The tree over a list of entries; no entries are hashed as one empty entry is. -/
def entryTree (leaf_data : List (List UInt8)) : MTree (List UInt8) :=
  (pairAll MTree.node leaf_data.length (leaf_data.map MTree.leaf)).headD (.leaf [])

/-- The strings that are hashed for a tree. -/
def treePreimages (sha : List UInt8 → Bytes 32) : MTree (List UInt8) → List (List UInt8)
  | .leaf d => [d]
  | .node l r =>
    pairPreimage (l.label sha (hashPair sha)) (r.label sha (hashPair sha)) ::
      (treePreimages sha l ++ treePreimages sha r)

theorem map_pairAll {β γ : Type} {f : β → β → β} {f' : γ → γ → γ} {g : β → γ}
    (hg : ∀ a b, g (f a b) = f' (g a) (g b)) (n : ℕ) (l : List β) :
    (pairAll f n l).map g = pairAll f' n (l.map g) := by
  induction n generalizing l with
  | zero => rfl
  | succ n ih => rw [pairAll, ih, map_pairUp hg, pairAll]

theorem label_entryTree (leaf_data : List (List UInt8)) :
    (entryTree leaf_data).label sha (hashPair sha) = merkleRoot sha leaf_data := by
  have hmap : (pairAll MTree.node leaf_data.length (leaf_data.map MTree.leaf)).map
      (MTree.label sha (hashPair sha)) = pairAll (hashPair sha) leaf_data.length
        ((leaf_data.map MTree.leaf).map (MTree.label sha (hashPair sha))) :=
    map_pairAll (fun _ _ => rfl) _ _
  have hleaves : (leaf_data.map MTree.leaf).map (MTree.label sha (hashPair sha)) =
      leaf_data.map sha := by
    rw [List.map_map]
    rfl
  rw [merkleRoot, computeRoot, List.length_map, ← hleaves, ← hmap, entryTree]
  cases pairAll MTree.node leaf_data.length (leaf_data.map MTree.leaf) with
  | nil => rfl
  | cons t ts => rfl

/-- A list that is not empty is paired up to its tree. -/
theorem pairAll_entryTree {leaf_data : List (List UInt8)} (hne : leaf_data ≠ []) :
    pairAll MTree.node leaf_data.length (leaf_data.map MTree.leaf) = [entryTree leaf_data] ∧
      (entryTree leaf_data).leaves = leaf_data := by
  obtain ⟨t, hpair, hleaves⟩ := exists_tree hne Nat.lt_two_pow_self.le
  have htree : entryTree leaf_data = t := by
    rw [entryTree, hpair]
    rfl
  rw [htree]
  exact ⟨hpair, hleaves⟩

theorem mem_leaves_entryTree {leaf_data : List (List UInt8)} {d : List UInt8}
    (hd : d ∈ (entryTree leaf_data).leaves) : d ∈ leaf_data ∨ d = [] := by
  rcases eq_or_ne leaf_data [] with rfl | hne
  · exact .inr (List.mem_singleton.mp hd)
  · rw [(pairAll_entryTree hne).2] at hd
    exact .inl hd

/-! ### Trees with the same root -/

/-- What a root does not tell apart: the order of two children, and a node from an entry that
spells what the node hashes. -/
inductive SameRoot (sha : List UInt8 → Bytes 32) : MTree (List UInt8) → MTree (List UInt8) → Prop
  | entry (d : List UInt8) : SameRoot sha (.leaf d) (.leaf d)
  | spells {d : List UInt8} {l r : MTree (List UInt8)} :
      d = pairPreimage (l.label sha (hashPair sha)) (r.label sha (hashPair sha)) →
        SameRoot sha (.leaf d) (.node l r)
  | spelled {d : List UInt8} {l r : MTree (List UInt8)} :
      d = pairPreimage (l.label sha (hashPair sha)) (r.label sha (hashPair sha)) →
        SameRoot sha (.node l r) (.leaf d)
  | straight {l r l' r' : MTree (List UInt8)} :
      SameRoot sha l l' → SameRoot sha r r' → SameRoot sha (.node l r) (.node l' r')
  | crossed {l r l' r' : MTree (List UInt8)} :
      SameRoot sha l r' → SameRoot sha r l' → SameRoot sha (.node l r) (.node l' r')

theorem SameRoot.label_eq {t u : MTree (List UInt8)} (h : SameRoot sha t u) :
    t.label sha (hashPair sha) = u.label sha (hashPair sha) := by
  induction h with
  | entry d => rfl
  | spells hd => rw [MTree.label, MTree.label, hashPair_eq, hd]
  | spelled hd => rw [MTree.label, MTree.label, hashPair_eq, hd]
  | straight _ _ ihl ihr => rw [MTree.label, MTree.label, ihl, ihr]
  | crossed _ _ ihl ihr => rw [MTree.label, MTree.label, ihl, ihr, hashPair_comm]

/-- Without collisions trees of one label are the same but for what a root does not show. -/
theorem label_eq_iff {t u : MTree (List UInt8)}
    (hfree : Sha256.CollisionFree sha {s | s ∈ treePreimages sha t ∨ s ∈ treePreimages sha u}) :
    t.label sha (hashPair sha) = u.label sha (hashPair sha) ↔ SameRoot sha t u := by
  refine ⟨fun h => ?_, SameRoot.label_eq⟩
  induction t generalizing u with
  | leaf d =>
    cases u with
    | leaf d' =>
      obtain rfl : d = d' := hfree (.inl List.mem_cons_self) (.inr List.mem_cons_self) h
      exact .entry d
    | node l' r' =>
      rw [MTree.label, MTree.label, hashPair_eq] at h
      exact .spells (hfree (.inl List.mem_cons_self) (.inr List.mem_cons_self) h)
  | node l r ihl ihr =>
    cases u with
    | leaf d' =>
      rw [MTree.label, MTree.label, hashPair_eq] at h
      exact .spelled (hfree (.inl List.mem_cons_self) (.inr List.mem_cons_self) h).symm
    | node l' r' =>
      rw [MTree.label, MTree.label, hashPair_eq, hashPair_eq] at h
      have hpair := pairPreimage_inj
        (hfree (.inl List.mem_cons_self) (.inr List.mem_cons_self) h)
      -- A child of either root hashes nothing that the root's tree does not.
      have below : ∀ {c c' : MTree (List UInt8)},
          (∀ s ∈ treePreimages sha c, s ∈ treePreimages sha (.node l r)) →
          (∀ s ∈ treePreimages sha c', s ∈ treePreimages sha (.node l' r')) →
          Sha256.CollisionFree sha {s | s ∈ treePreimages sha c ∨ s ∈ treePreimages sha c'} :=
        fun hc hc' => hfree.mono fun s hs => hs.imp (hc s) (hc' s)
      have hl : ∀ {t t' : MTree (List UInt8)}, ∀ s ∈ treePreimages sha t,
          s ∈ treePreimages sha (.node t t') :=
        fun s hs => List.mem_cons_of_mem _ (List.mem_append_left _ hs)
      have hr : ∀ {t t' : MTree (List UInt8)}, ∀ s ∈ treePreimages sha t',
          s ∈ treePreimages sha (.node t t') :=
        fun s hs => List.mem_cons_of_mem _ (List.mem_append_right _ hs)
      rcases hpair with heq | heq
      · exact .straight (ihl (below hl hl) (congrArg Prod.fst heq))
          (ihr (below hr hr) (congrArg Prod.snd heq))
      · exact .crossed (ihl (below hl hr) (congrArg Prod.fst heq))
          (ihr (below hr hl) (congrArg Prod.snd heq))

/-- Where no entry is as long as a pair of hashes, the leaves are the same. -/
theorem SameRoot.leaves_perm {t u : MTree (List UInt8)} (h : SameRoot sha t u)
    (ht : ∀ d ∈ t.leaves, d.length ≠ 64) (hu : ∀ d ∈ u.leaves, d.length ≠ 64) :
    t.leaves.Perm u.leaves := by
  induction h with
  | entry d => exact List.Perm.refl _
  | spells hd => exact absurd (hd ▸ length_pairPreimage _ _) (ht _ (by simp [MTree.leaves]))
  | spelled hd => exact absurd (hd ▸ length_pairPreimage _ _) (hu _ (by simp [MTree.leaves]))
  | straight _ _ ihl ihr =>
    simp only [MTree.leaves, List.mem_append] at ht hu ⊢
    exact (ihl (fun d hd => ht d (.inl hd)) fun d hd => hu d (.inl hd)).append
      (ihr (fun d hd => ht d (.inr hd)) fun d hd => hu d (.inr hd))
  | crossed _ _ ihl ihr =>
    simp only [MTree.leaves, List.mem_append] at ht hu ⊢
    exact ((ihl (fun d hd => ht d (.inl hd)) fun d hd => hu d (.inr hd)).append
      (ihr (fun d hd => ht d (.inr hd)) fun d hd => hu d (.inl hd))).trans
        List.perm_append_comm

/-! ### The siblings of an entry -/

/-- The siblings met on the way up from an entry.  The tree itself makes no proofs; this is what
one would hold. -/
def siblings (sha : List UInt8 → Bytes 32) (leaf_data : List (List UInt8)) (i : ℕ) :
    List (Bytes 32) :=
  openingAt (hashPair sha) leaf_data.length (leaf_data.map sha) i

/-- The strings that are hashed to fold siblings into a hash. -/
def climbPreimages (sha : List UInt8 → Bytes 32) (x : Bytes 32) (sibs : List (Bytes 32)) :
    List (List UInt8) :=
  (climbSteps (hashPair sha) x sibs).map fun p => pairPreimage p.1 p.2

theorem climb_siblings {leaf_data : List (List UInt8)} {i : ℕ} {d : List UInt8}
    (hd : leaf_data[i]? = some d) :
    climb (hashPair sha) (sha d) (siblings sha leaf_data i) = merkleRoot sha leaf_data := by
  have hne : leaf_data ≠ [] := by
    rintro rfl
    exact absurd hd (by simp)
  have hleaf : (leaf_data.map MTree.leaf)[i]? = some (.leaf d) := by
    rw [List.getElem?_map, hd]
    rfl
  have hopens : Opens sha (hashPair sha) (entryTree leaf_data) (.leaf d)
      (openingAt MTree.node leaf_data.length (leaf_data.map MTree.leaf) i) :=
    opens_openingAt (pairAll_entryTree hne).1 hleaf fun l r _ => hashPair_comm _ _
  have hsibs : siblings sha leaf_data i =
      (openingAt MTree.node leaf_data.length (leaf_data.map MTree.leaf) i).map
        (MTree.label sha (hashPair sha)) := by
    rw [siblings, ← openingAt_map (f := MTree.node) (fun _ _ => rfl), List.map_map]
    rfl
  rw [hsibs, ← label_entryTree]
  exact hopens.climbs

/-- Siblings that lead two labels to one root lead one label to it. -/
theorem climb_inj {x y : Bytes 32} {sibs : List (Bytes 32)}
    (hfree : Sha256.CollisionFree sha
      {s | s ∈ climbPreimages sha x sibs ∨ s ∈ climbPreimages sha y sibs})
    (h : climb (hashPair sha) x sibs = climb (hashPair sha) y sibs) : x = y := by
  induction sibs generalizing x y with
  | nil => exact h
  | cons s sibs ih =>
    have hrest : Sha256.CollisionFree sha
        {v | v ∈ climbPreimages sha (hashPair sha x s) sibs ∨
          v ∈ climbPreimages sha (hashPair sha y s) sibs} :=
      hfree.mono fun v hv => hv.imp (List.mem_cons_of_mem _) (List.mem_cons_of_mem _)
    have hstep : hashPair sha x s = hashPair sha y s := ih hrest h
    rw [hashPair_eq, hashPair_eq] at hstep
    have hpair := hfree (.inl List.mem_cons_self) (.inr List.mem_cons_self) hstep
    rcases pairPreimage_inj hpair with heq | heq
    · exact congrArg Prod.fst heq
    · exact (congrArg Prod.fst heq).trans (congrArg Prod.snd heq)

/-! ### What a root binds -/

/-- All that is hashed for the root of a list. -/
def hashed (sha : List UInt8 → Bytes 32) (leaf_data : List (List UInt8)) : List (List UInt8) :=
  treePreimages sha (entryTree leaf_data)

/-- Two lists of one root are the same but for what the tree does not show of them; and the
siblings of an entry lead from this entry to the root, and from no other value. -/
theorem root_binds (sha : List UInt8 → Bytes 32) (leaf_data leaf_data' : List (List UInt8))
    (hfree : Sha256.CollisionFree sha {s | s ∈ hashed sha leaf_data ∨ s ∈ hashed sha leaf_data'}) :
    (merkleRoot sha leaf_data = merkleRoot sha leaf_data' ↔
      SameRoot sha (entryTree leaf_data) (entryTree leaf_data')) ∧
    ((∀ d ∈ leaf_data ++ leaf_data', d.length ≠ 64) →
      merkleRoot sha leaf_data = merkleRoot sha leaf_data' →
        leaf_data.Perm leaf_data' ∨ (leaf_data = [] ∧ leaf_data' = [[]]) ∨
          (leaf_data = [[]] ∧ leaf_data' = [])) ∧
    ∀ i d, leaf_data[i]? = some d →
      climb (hashPair sha) (sha d) (siblings sha leaf_data i) = merkleRoot sha leaf_data ∧
      ∀ d', Sha256.CollisionFree sha {s | s = d ∨ s = d' ∨
          s ∈ climbPreimages sha (sha d') (siblings sha leaf_data i) ∨
          s ∈ climbPreimages sha (sha d) (siblings sha leaf_data i)} →
        climb (hashPair sha) (sha d') (siblings sha leaf_data i) = merkleRoot sha leaf_data →
          d' = d := by
  have hroots : merkleRoot sha leaf_data = merkleRoot sha leaf_data' ↔
      SameRoot sha (entryTree leaf_data) (entryTree leaf_data') := by
    rw [← label_entryTree, ← label_entryTree]
    exact label_eq_iff hfree
  refine ⟨hroots, fun hlen h => ?_, fun i d hd => ⟨climb_siblings hd, fun d' hfree' h => ?_⟩⟩
  · have hperm : (entryTree leaf_data).leaves.Perm (entryTree leaf_data').leaves := by
      refine (hroots.mp h).leaves_perm (fun d hd => ?_) fun d hd => ?_
      · rcases mem_leaves_entryTree hd with hd | rfl
        · exact hlen d (List.mem_append_left _ hd)
        · simp
      · rcases mem_leaves_entryTree hd with hd | rfl
        · exact hlen d (List.mem_append_right _ hd)
        · simp
    rcases eq_or_ne leaf_data [] with rfl | hne
    · rcases eq_or_ne leaf_data' [] with rfl | hne'
      · exact .inl (List.Perm.refl _)
      · rw [(pairAll_entryTree hne').2] at hperm
        exact .inr (.inl ⟨rfl, List.perm_singleton.mp hperm.symm⟩)
    · rw [(pairAll_entryTree hne).2] at hperm
      rcases eq_or_ne leaf_data' [] with rfl | hne'
      · exact .inr (.inr ⟨List.perm_singleton.mp hperm, rfl⟩)
      · rw [(pairAll_entryTree hne').2] at hperm
        exact .inl hperm
  · -- First the hash that is folded is the entry's, then what was hashed is the entry.
    have hhash : sha d' = sha d := by
      refine climb_inj (hfree'.mono fun s hs => ?_) (h.trans (climb_siblings hd).symm)
      exact .inr (.inr hs)
    exact hfree' (.inr (.inl rfl)) (.inl rfl) hhash

namespace MerkleSample

def first : List UInt8 := [1]

def second : List UInt8 := [2]

def third : List UInt8 := [3]

/-- An entry of 64 bytes: the hashes of the first two, in their order. -/
def spelling : List UInt8 := pairPreimage (Sha256.sha256 first) (Sha256.sha256 second)

/-- All that is hashed for lists of one root. -/
def known : List (List UInt8) :=
  hashed Sha256.sha256 [first, second, third] ++ hashed Sha256.sha256 [second, first, third] ++
    hashed Sha256.sha256 [spelling, third]

theorem known_distinct : ∀ s ∈ known, ∀ s' ∈ known, Sha256.sha256 s = Sha256.sha256 s' → s = s' := by
  decide +kernel

theorem known_collisionFree : Sha256.CollisionFree Sha256.sha256 {s | s ∈ known} :=
  fun s hs s' hs' h => known_distinct s hs s' hs' h

end MerkleSample

/-- The first two entries in the other order. -/
theorem root_binds_swapped :
    SameRoot Sha256.sha256 (entryTree [MerkleSample.first, MerkleSample.second, MerkleSample.third])
        (entryTree [MerkleSample.second, MerkleSample.first, MerkleSample.third]) ∧
      [MerkleSample.first, MerkleSample.second, MerkleSample.third].Perm
        [MerkleSample.second, MerkleSample.first, MerkleSample.third] ∧
      climb (hashPair Sha256.sha256) (Sha256.sha256 MerkleSample.third)
          (siblings Sha256.sha256 [MerkleSample.first, MerkleSample.second, MerkleSample.third] 2)
        = merkleRoot Sha256.sha256 [MerkleSample.first, MerkleSample.second, MerkleSample.third] := by
  have hfree : Sha256.CollisionFree Sha256.sha256
      {s | s ∈ hashed Sha256.sha256 [MerkleSample.first, MerkleSample.second, MerkleSample.third] ∨
        s ∈ hashed Sha256.sha256 [MerkleSample.second, MerkleSample.first, MerkleSample.third]} := by
    refine MerkleSample.known_collisionFree.mono fun s hs => ?_
    exact List.mem_append_left _ (List.mem_append.mpr hs)
  have hroot : merkleRoot Sha256.sha256 [MerkleSample.first, MerkleSample.second, MerkleSample.third] =
      merkleRoot Sha256.sha256 [MerkleSample.second, MerkleSample.first, MerkleSample.third] := by
    decide +kernel
  obtain ⟨hsame, hperm, hsibs⟩ := root_binds Sha256.sha256 [MerkleSample.first, MerkleSample.second, MerkleSample.third]
    [MerkleSample.second, MerkleSample.first, MerkleSample.third] hfree
  refine ⟨hsame.mp hroot, ?_, (hsibs 2 MerkleSample.third rfl).1⟩
  rcases hperm (by decide) hroot with h | ⟨h, -⟩ | ⟨h, -⟩
  · exact h
  · exact absurd h (by simp)
  · exact absurd h (by decide)

/-- One root for two orders of the same entries, and for a list that is shorter. -/
theorem not_root_binds :
    (∃ leaf_data leaf_data', Sha256.CollisionFree Sha256.sha256
        {s | s ∈ hashed Sha256.sha256 leaf_data ∨ s ∈ hashed Sha256.sha256 leaf_data'} ∧
      merkleRoot Sha256.sha256 leaf_data = merkleRoot Sha256.sha256 leaf_data' ∧
        leaf_data.length = leaf_data'.length ∧ leaf_data ≠ leaf_data') ∧
    ∃ leaf_data leaf_data', Sha256.CollisionFree Sha256.sha256
        {s | s ∈ hashed Sha256.sha256 leaf_data ∨ s ∈ hashed Sha256.sha256 leaf_data'} ∧
      merkleRoot Sha256.sha256 leaf_data = merkleRoot Sha256.sha256 leaf_data' ∧
        leaf_data.length ≠ leaf_data'.length := by
  refine ⟨⟨[MerkleSample.first, MerkleSample.second, MerkleSample.third],
    [MerkleSample.second, MerkleSample.first, MerkleSample.third], ?_, by decide +kernel, rfl, by decide⟩,
    [MerkleSample.first, MerkleSample.second, MerkleSample.third], [MerkleSample.spelling, MerkleSample.third], ?_,
    by decide +kernel, by decide⟩
  · refine MerkleSample.known_collisionFree.mono fun s hs => ?_
    exact List.mem_append_left _ (List.mem_append.mpr hs)
  · refine MerkleSample.known_collisionFree.mono fun s hs => ?_
    rcases hs with hs | hs
    · exact List.mem_append_left _ (List.mem_append_left _ hs)
    · exact List.mem_append_right _ hs

end Audit
