/-
What the seven leaf operations do to the sum of the leaves (`pipeline.rs`,
`helpers.rs`).

Each operation moves amounts between leaves, in one write or in several, and
the comments say on which side of the total the writes in between stay.  Six of
the seven move exactly what they take.  A merge adds up its sources as they are
listed, with saturation, and clears each of them once.

* `conserves_iff` — the sum is kept, and stays on the promised side in between,
  by every operation but a merge that counts an amount twice or saturates.
-/
import IgnitePay.StateChannel.Conservation
import IgnitePay.StateChannel.Helpers

namespace StateChannel

open Bytes Machine Solana

/-! ### Amounts of a list of leaves -/

/-- What the leaf at an index holds. -/
def leafAmount (leaves : List UTXOLeaf) (i : ℕ) : ℕ :=
  (leaves[i]?.map fun l => l.amount.toNat).getD 0

section

variable {leaves : List UTXOLeaf} {i j : ℕ} {l : UTXOLeaf}

theorem leafAmount_of_getElem? (h : leaves[i]? = some l) : leafAmount leaves i = l.amount.toNat := by
  rw [leafAmount, h]
  rfl

theorem leafAmount_set_of_ne (h : i ≠ j) : leafAmount (leaves.set i l) j = leafAmount leaves j := by
  rw [leafAmount, List.getElem?_set_ne h, leafAmount]

theorem leafAmount_set_self (hi : i < leaves.length) :
    leafAmount (leaves.set i l) i = l.amount.toNat :=
  leafAmount_of_getElem? (List.getElem?_set_self hi)

/-- A write trades the amount that was there for the new one. -/
theorem leavesValue_set_add (hi : i < leaves.length) :
    leavesValue (leaves.set i l) + leafAmount leaves i = leavesValue leaves + l.amount.toNat := by
  have hget := List.getElem?_eq_getElem hi
  rw [leafAmount_of_getElem? hget]
  exact leavesValue_set hget

/-- Clear the leaves at some indices. -/
def clearLeaves (indices : List ℕ) (leaves : List UTXOLeaf) : List UTXOLeaf :=
  indices.foldl (fun leaves i => leaves.set i .empty) leaves

theorem leafAmount_clear (i j : ℕ) (leaves : List UTXOLeaf) :
    leafAmount (leaves.set i .empty) j = if j = i then 0 else leafAmount leaves j := by
  by_cases hij : j = i
  · subst hij
    rw [if_pos rfl]
    rcases Nat.lt_or_ge j leaves.length with hlt | hge
    · exact leafAmount_set_self hlt
    · rw [leafAmount, List.getElem?_eq_none (by simpa using hge)]
      rfl
  · rw [if_neg hij, leafAmount_set_of_ne (Ne.symm hij)]

theorem leavesValue_clear_add (i : ℕ) (leaves : List UTXOLeaf) :
    leavesValue (leaves.set i .empty) + leafAmount leaves i = leavesValue leaves := by
  rcases Nat.lt_or_ge i leaves.length with hlt | hge
  · have h := leavesValue_set_add (l := .empty) hlt
    have hzero : UTXOLeaf.empty.amount.toNat = 0 := rfl
    omega
  · rw [List.set_eq_of_length_le hge, leafAmount, List.getElem?_eq_none hge]
    rfl

/-- Clearing takes away what the indices hold, each counted once however often
it is listed. -/
theorem leavesValue_clearLeaves (indices : List ℕ) (leaves : List UTXOLeaf) :
    leavesValue (clearLeaves indices leaves) + ∑ i ∈ indices.toFinset, leafAmount leaves i
      = leavesValue leaves := by
  induction indices generalizing leaves with
  | nil => simp [clearLeaves]
  | cons i indices ih =>
    have hrest := ih (leaves.set i .empty)
    have hclear := leavesValue_clear_add i leaves
    -- What is cleared first counts as nothing when it is listed again.
    have hsum : ∑ j ∈ indices.toFinset, leafAmount (leaves.set i .empty) j
        = ∑ j ∈ indices.toFinset.erase i, leafAmount leaves j := by
      rw [← Finset.sum_subset (Finset.erase_subset i indices.toFinset)]
      · refine Finset.sum_congr rfl fun j hj => ?_
        rw [leafAmount_clear, if_neg (Finset.ne_of_mem_erase hj)]
      · intro j hj hnot
        have heq : j = i := by
          by_contra hne
          exact hnot (Finset.mem_erase.mpr ⟨hne, hj⟩)
        rw [leafAmount_clear, if_pos heq]
    have hinsert : ∑ j ∈ (i :: indices).toFinset, leafAmount leaves j
        = leafAmount leaves i + ∑ j ∈ indices.toFinset.erase i, leafAmount leaves j := by
      rw [List.toFinset_cons, ← Finset.sum_insert (Finset.notMem_erase i indices.toFinset)]
      refine Finset.sum_congr ?_ fun _ _ => rfl
      ext j
      simp only [Finset.mem_insert, Finset.mem_erase, List.mem_toFinset]
      tauto
    have hvalue : leavesValue (clearLeaves (i :: indices) leaves)
        = leavesValue (clearLeaves indices (leaves.set i .empty)) := rfl
    omega

theorem leavesValue_clearLeaves_le (indices : List ℕ) (leaves : List UTXOLeaf) :
    leavesValue (clearLeaves indices leaves) ≤ leavesValue leaves := by
  have h := leavesValue_clearLeaves indices leaves
  omega

/-- A list counts its entries at least once, and more than once exactly where an
entry that holds something is repeated. -/
theorem sum_toFinset_le (indices : List ℕ) (f : ℕ → ℕ) :
    ∑ i ∈ indices.toFinset, f i ≤ (indices.map f).sum := by
  rw [Finset.sum_list_map_count]
  refine Finset.sum_le_sum fun i hi => ?_
  rw [smul_eq_mul]
  exact Nat.le_mul_of_pos_left _ (List.count_pos_iff.mpr (List.mem_toFinset.mp hi))

theorem sum_toFinset_eq_iff (indices : List ℕ) (f : ℕ → ℕ) :
    ∑ i ∈ indices.toFinset, f i = (indices.map f).sum ↔
      ∀ i, f i ≠ 0 → indices.count i ≤ 1 := by
  have hcount : ∀ i ∈ indices.toFinset, 1 ≤ indices.count i := fun i hi =>
    List.count_pos_iff.mpr (List.mem_toFinset.mp hi)
  have hle : ∀ i ∈ indices.toFinset, f i ≤ indices.count i • f i := fun i hi => by
    rw [smul_eq_mul]
    exact Nat.le_mul_of_pos_left _ (hcount i hi)
  rw [Finset.sum_list_map_count, Finset.sum_eq_sum_iff_of_le hle]
  constructor
  · intro h i hi
    by_cases hmem : i ∈ indices.toFinset
    · have heq := h i hmem
      rw [smul_eq_mul] at heq
      have hone : indices.count i = 1 :=
        Nat.eq_of_mul_eq_mul_right (Nat.pos_of_ne_zero hi) (by rw [← heq, Nat.one_mul])
      exact hone.le
    · rw [List.count_eq_zero_of_not_mem (mt List.mem_toFinset.mpr hmem)]
      exact Nat.zero_le 1
  · intro h i hmem
    rcases Nat.eq_zero_or_pos (f i) with hzero | hpos
    · rw [hzero, smul_zero]
    · have hone : indices.count i = 1 := le_antisymm (h i (by omega)) (hcount i hmem)
      rw [hone, one_smul]

end

/-! ### The promises -/

namespace LeafCall

/-- What the comments say of the sum `now` while a call is under way from the sum `before`. -/
def Promises (before now : ℕ) : LeafCall → Prop
  | pipeline _ (.partialTransfer ..) => before ≤ now
  | pipeline _ _ => True
  | splitFromRest .. => now ≤ before
  | mergeSpentLeaves .. => before ≤ now

/-- The call from `t` to `t'` keeps the sum, and each of its updates, applied after the
ones before it, leaves the sum on the promised side.  (An update names its leaf by a `u32`.) -/
def Conserves (env : Env) (c : LeafCall) (t t' : MerkleTree) : Prop :=
  leavesValue t'.leaves = leavesValue t.leaves ∧
    (t.leaves.length ≤ 2 ^ 32 → ∀ k, c.Promises (leavesValue t.leaves)
      (leavesValue (leavesAfter t.leaves ((c.updates env t).take k))))

/-- The amounts of a merge fit one leaf, and no amount is listed twice; or they fill it. -/
def Exact (t : MerkleTree) : LeafCall → Prop
  | mergeSpentLeaves _ sourceIndices targetIdx _ _ =>
    let merged := leafAmount t.leaves targetIdx + ∑ i ∈ sourceIndices.toFinset, leafAmount t.leaves i
    merged = 2 ^ 64 - 1 ∨
      merged < 2 ^ 64 ∧ ∀ i, leafAmount t.leaves i ≠ 0 → sourceIndices.count i ≤ 1
  | _ => True

end LeafCall

/-! ### Writes -/

section

variable {env : Env} {t t' : MerkleTree} {ws : List Write} {c : LeafCall} {updates : List LeafUpdate}

/-- The leaves after some writes. -/
def afterWrites (ws : List Write) (leaves : List UTXOLeaf) : List UTXOLeaf :=
  ws.foldl (fun leaves w => leaves.set w.index w.newLeaf) leaves

theorem Rewritten.leaves_eq (h : Rewritten env ws t t') : t'.leaves = afterWrites ws t.leaves := by
  induction ws generalizing t with
  | nil => exact congrArg MerkleTree.leaves (show t = t' from h).symm
  | cons w ws ih =>
    obtain ⟨t₁, hput, h⟩ := h
    rw [ih h, hput.leaves_eq]
    rfl

theorem Rewritten.index_lt (h : Rewritten env ws t t') : ∀ w ∈ ws, w.index < t.leaves.length := by
  induction ws generalizing t with
  | nil => exact fun w hw => absurd hw (by simp)
  | cons w ws ih =>
    obtain ⟨t₁, hput, h⟩ := h
    refine List.forall_mem_cons.mpr ⟨hput.index_lt, fun w' hw' => ?_⟩
    have hlt := ih h w' hw'
    rwa [hput.leaves_eq, List.length_set] at hlt

/-- The updates write what the call wrote, where a `u32` can name the leaves. -/
theorem leavesAfter_take (hof : UpdatesOf ws updates) {leaves : List UTXOLeaf}
    (hindex : ∀ w ∈ ws, w.index < 2 ^ 32) (k : ℕ) :
    leavesAfter leaves (updates.take k) = afterWrites (ws.take k) leaves := by
  induction ws generalizing updates leaves k with
  | nil =>
    rw [List.map_eq_nil_iff.mp (show updates.map _ = [] from hof), List.take_nil, List.take_nil]
    rfl
  | cons w ws ih =>
    obtain ⟨update, updates, rfl, hhead, htail⟩ := List.map_eq_cons_iff.mp
      (show updates.map _ = _ :: ws.map _ from hof)
    obtain ⟨hw, hws⟩ := List.forall_mem_cons.mp hindex
    cases k with
    | zero => rfl
    | succ k =>
      rw [Prod.mk.injEq] at hhead
      have hput : leaves.set update.leafIndex.toNat update.newLeaf = leaves.set w.index w.newLeaf := by
        rw [hhead.1, hhead.2, UInt32.toNat_ofNat_of_lt' hw]
      have hrest := @ih updates htail (leaves.set w.index w.newLeaf) hws k
      rw [List.take_succ_cons, List.take_succ_cons, leavesAfter, List.foldl_cons, hput]
      exact hrest

/-- One write of the amount that was there. -/
theorem leavesValue_set_same {leaves : List UTXOLeaf} {i : ℕ} {prevLeaf newLeaf : UTXOLeaf}
    (h : leaves[i]? = some prevLeaf) (hamount : newLeaf.amount = prevLeaf.amount) :
    leavesValue (leaves.set i newLeaf) = leavesValue leaves := by
  have hset := @leavesValue_set leaves i prevLeaf newLeaf h
  rw [hamount] at hset
  omega

/-- Two writes that move an amount from one leaf to a free one, in either order; where
both are one leaf, it is free and there is nothing to move. -/
theorem leavesValue_move {leaves : List UTXOLeaf} {i j : ℕ} {source target : UTXOLeaf}
    {amount : UInt64} (source' target' : UTXOLeaf) (hsource : leaves[i]? = some source) (htarget : leaves[j]? = some target)
    (hcovered : ¬ source.amount < amount) (hfree : target.amount = 0)
    (hsource' : source'.amount = saturatingSub source.amount amount)
    (htarget' : target'.amount = amount) :
    leavesValue (leaves.set i source') + amount.toNat = leavesValue leaves ∧
      leavesValue (leaves.set j target') = leavesValue leaves + amount.toNat ∧
      leavesValue ((leaves.set i source').set j target') = leavesValue leaves ∧
      leavesValue ((leaves.set j target').set i source') = leavesValue leaves := by
  have hle : amount.toNat ≤ source.amount.toNat := not_lt.mp fun h => hcovered (UInt64.lt_iff_toNat_lt.mpr h)
  have hsub : source'.amount.toNat = source.amount.toNat - amount.toNat := by
    rw [hsource', toNat_saturatingSub]
  have hzero : target.amount.toNat = 0 := by
    rw [hfree]
    rfl
  have hnew : target'.amount.toNat = amount.toNat := by rw [htarget']
  have h1 := @leavesValue_set leaves i source source' hsource
  have h2 := @leavesValue_set leaves j target target' htarget
  have hi : i < leaves.length := (List.getElem?_eq_some_iff.mp hsource).1
  have hj : j < leaves.length := (List.getElem?_eq_some_iff.mp htarget).1
  by_cases hij : i = j
  · -- One free leaf: the amount is zero, and so is all that is written.
    subst hij
    obtain rfl : source = target := Option.some_inj.mp (hsource.symm.trans htarget)
    rw [List.set_set, List.set_set]
    refine ⟨?_, ?_, ?_, ?_⟩ <;> omega
  · have hsecond := @leavesValue_set (leaves.set i source') j target target'
      (by rw [List.getElem?_set_ne hij]; exact htarget)
    have hsecond' := @leavesValue_set (leaves.set j target') i source source'
      (by rw [List.getElem?_set_ne (Ne.symm hij)]; exact hsource)
    refine ⟨?_, ?_, ?_, ?_⟩ <;> omega

/-- The sums in between, of two writes. -/
theorem forall_take_two {α : Type} {a b : α} {p : List α → Prop} :
    (∀ k, p ([a, b].take k)) ↔ p [] ∧ p [a] ∧ p [a, b] := by
  constructor
  · intro h
    exact ⟨h 0, h 1, h 2⟩
  · rintro ⟨h0, h1, h2⟩ k
    match k with
    | 0 => exact h0
    | 1 => exact h1
    | k + 2 => simpa using h2

/-! ### A merge -/

/-- The writes of a merge: the target, and then the sources one after the other. -/
theorem afterWrites_cleared (sources : List (ℕ × UTXOLeaf)) (leaves : List UTXOLeaf) :
    afterWrites (sources.map fun source => ⟨source.1, source.2, .empty⟩) leaves
      = clearLeaves (sources.map Prod.fst) leaves := by
  rw [afterWrites, clearLeaves, List.foldl_map, List.foldl_map]

/-- What a merge leaves is the sum with the target's new amount, less the sources. -/
theorem leavesValue_merge {leaves : List UTXOLeaf} {sourceIndices : List ℕ} {targetIdx : ℕ}
    (newTarget : UTXOLeaf) (hapart : targetIdx ∉ sourceIndices) (htarget : targetIdx < leaves.length) :
    leavesValue (clearLeaves sourceIndices (leaves.set targetIdx newTarget))
        + (leafAmount leaves targetIdx + ∑ i ∈ sourceIndices.toFinset, leafAmount leaves i)
      = leavesValue leaves + newTarget.amount.toNat := by
  have hset := leavesValue_set_add (l := newTarget) htarget
  have hclear := leavesValue_clearLeaves sourceIndices (leaves.set targetIdx newTarget)
  have hsum : ∑ i ∈ sourceIndices.toFinset, leafAmount (leaves.set targetIdx newTarget) i
      = ∑ i ∈ sourceIndices.toFinset, leafAmount leaves i :=
    Finset.sum_congr rfl fun i hi => leafAmount_set_of_ne fun heq =>
      hapart (heq ▸ List.mem_toFinset.mp hi)
  omega

/-- The target holds what it should exactly where the sum neither saturates nor counts
an amount twice, or where it is full in any case. -/
theorem merged_iff {leaves : List UTXOLeaf} {sourceIndices : List ℕ} {a : ℕ} :
    min (a + (sourceIndices.map (leafAmount leaves)).sum) (2 ^ 64 - 1)
        = a + ∑ i ∈ sourceIndices.toFinset, leafAmount leaves i ↔
      a + ∑ i ∈ sourceIndices.toFinset, leafAmount leaves i = 2 ^ 64 - 1 ∨
        a + ∑ i ∈ sourceIndices.toFinset, leafAmount leaves i < 2 ^ 64 ∧
          ∀ i, leafAmount leaves i ≠ 0 → sourceIndices.count i ≤ 1 := by
  have hle := sum_toFinset_le sourceIndices (leafAmount leaves)
  rw [← sum_toFinset_eq_iff]
  omega

/-- Clearing fewer of the sources leaves no less. -/
theorem leavesValue_clearLeaves_take (indices : List ℕ) (k : ℕ) (leaves : List UTXOLeaf) :
    leavesValue (clearLeaves indices leaves) ≤ leavesValue (clearLeaves (indices.take k) leaves) := by
  have hsplit : clearLeaves indices leaves
      = clearLeaves (indices.drop k) (clearLeaves (indices.take k) leaves) := by
    rw [clearLeaves, clearLeaves, clearLeaves, ← List.foldl_append, List.take_append_drop]
  rw [hsplit]
  exact leavesValue_clearLeaves_le _ _

/-- What the sources of a merge hold, as the tree has it. -/
theorem Sources.sum_eq {signerPubkey : Pubkey} {indices : List ℕ} {sources : List (ℕ × UTXOLeaf)}
    (h : Sources t signerPubkey indices sources) :
    (sources.map fun source => source.2.amount.toNat).sum
      = (indices.map (leafAmount t.leaves)).sum := by
  rw [← h.indices_eq, List.map_map]
  congr 1
  refine List.map_congr_left fun source hsource => ?_
  exact (leafAmount_of_getElem? (h.read source hsource).1).symm

theorem conserves_merge_iff {channelId : Bytes 32} {sourceIndices : List ℕ} {targetIdx : ℕ}
    {sequence : UInt64} {signer : Keypair} {sources : List (ℕ × UTXOLeaf)}
    {targetLeaf : UTXOLeaf} (newTarget : UTXOLeaf)
    (hsources : Sources t signer.publicKey sourceIndices sources) (hapart : targetIdx ∉ sourceIndices)
    (htarget : t.getLeaf targetIdx = some targetLeaf)
    (hamount : newTarget.amount = saturatingAdd targetLeaf.amount
      (sources.foldl (fun acc source => saturatingAdd acc source.2.amount) 0))
    (hleaves : t'.leaves = clearLeaves sourceIndices (t.leaves.set targetIdx newTarget))
    (hbetween : t.leaves.length ≤ 2 ^ 32 → ∀ k, leavesAfter t.leaves
        (((LeafCall.mergeSpentLeaves channelId sourceIndices targetIdx sequence signer).updates
          env t).take (k + 1))
      = clearLeaves (sourceIndices.take k) (t.leaves.set targetIdx newTarget)) :
    (LeafCall.mergeSpentLeaves channelId sourceIndices targetIdx sequence signer).Conserves env t t' ↔
      (LeafCall.mergeSpentLeaves channelId sourceIndices targetIdx sequence signer).Exact t := by
  have hread := leafAmount_of_getElem? htarget
  have hlt : targetIdx < t.leaves.length := (List.getElem?_eq_some_iff.mp htarget).1
  have hvalue := leavesValue_merge newTarget hapart hlt
  have hnew : newTarget.amount.toNat
      = min (leafAmount t.leaves targetIdx + (sourceIndices.map (leafAmount t.leaves)).sum)
          (2 ^ 64 - 1) := by
    have hzero : (0 : UInt64).toNat = 0 := rfl
    rw [hamount, toNat_saturatingAdd, toNat_foldl_saturatingAdd, hsources.sum_eq, hread, hzero]
    omega
  have hiff : leavesValue t'.leaves = leavesValue t.leaves ↔
      (LeafCall.mergeSpentLeaves channelId sourceIndices targetIdx sequence signer).Exact t := by
    refine Iff.trans ?_ (@merged_iff t.leaves sourceIndices (leafAmount t.leaves targetIdx))
    rw [← hnew, hleaves]
    omega
  refine ⟨fun h => hiff.mp h.1, fun h => ⟨hiff.mpr h, fun hlen k => ?_⟩⟩
  show leavesValue t.leaves ≤ _
  cases k with
  | zero => exact le_refl _
  | succ k =>
    -- The sum goes up with the first write, and down to where it was with the others.
    rw [hbetween hlen k, ← hiff.mpr h, hleaves]
    exact leavesValue_clearLeaves_take sourceIndices k _

end

/-- Every successful operation keeps the sum of the leaves, and its comment's promise
about the sums in between, unless a merge saturates or counts an amount twice. -/
theorem conserves_iff {env : Env} {c : LeafCall} {t t' : MerkleTree}
    (h : c.exec env t = .ok t') : c.Conserves env t t' ↔ c.Exact t := by
  obtain ⟨ws, hdoes, hrewritten, hof⟩ := LeafCall.does_of_exec h
  have hleaves := hrewritten.leaves_eq
  have hbetween : t.leaves.length ≤ 2 ^ 32 → ∀ k,
      leavesAfter t.leaves ((c.updates env t).take k) = afterWrites (ws.take k) t.leaves :=
    fun hlen k => leavesAfter_take hof
      (fun w hw => lt_of_lt_of_le (hrewritten.index_lt w hw) hlen) k
  have one_write : ∀ {i prevLeaf newLeaf}, ws = [⟨i, prevLeaf, newLeaf⟩] →
      t.getLeaf i = some prevLeaf → newLeaf.amount = prevLeaf.amount →
        leavesValue t'.leaves = leavesValue t.leaves := by
    intro i prevLeaf newLeaf hws hleaf hamount
    rw [hleaves, hws]
    exact leavesValue_set_same hleaf hamount
  cases hdoes with
  | pipeline hdoes =>
    refine iff_of_true ?_ trivial
    cases hdoes with
    | transferLeaf hleaf => exact ⟨one_write rfl hleaf rfl, fun _ _ => trivial⟩
    | createHtlc hleaf => exact ⟨one_write rfl hleaf rfl, fun _ _ => trivial⟩
    | resolveHtlc hleaf => exact ⟨one_write rfl hleaf rfl, fun _ _ => trivial⟩
    | refundHtlc hleaf => exact ⟨one_write rfl hleaf rfl, fun _ _ => trivial⟩
    | @partialTransfer srcIndex destIndex amount recipient srcLeaf destLeaf hsrc hdest hcovered hfree =>
      obtain ⟨-, hup, -, hboth⟩ := leavesValue_move
        (.standard srcLeaf.owner (saturatingSub srcLeaf.amount amount))
        (.standard recipient amount) hsrc hdest hcovered hfree rfl rfl
      refine ⟨hleaves ▸ hboth, fun hlen k => ?_⟩
      rw [hbetween hlen k]
      refine (forall_take_two (p := fun ws => leavesValue t.leaves
        ≤ leavesValue (afterWrites ws t.leaves))).mpr ⟨le_refl _, ?_, ?_⟩ k
      · exact le_of_le_of_eq (Nat.le_add_right _ _) hup.symm
      · exact hboth.ge
  | @splitFromRest channelId restIdx targetIdx amount sequence signer restLeaf targetLeaf hrest
      hcovered howner htarget hfree =>
    refine iff_of_true ?_ trivial
    obtain ⟨hdown, -, hboth, -⟩ := leavesValue_move
      (.standard restLeaf.owner (saturatingSub restLeaf.amount amount))
      (.standard signer.publicKey amount) hrest htarget hcovered hfree rfl rfl
    refine ⟨hleaves ▸ hboth, fun hlen k => ?_⟩
    rw [hbetween hlen k]
    refine (forall_take_two (p := fun ws => leavesValue (afterWrites ws t.leaves)
      ≤ leavesValue t.leaves)).mpr ⟨le_refl _, ?_, ?_⟩ k
    · exact le_of_le_of_eq (Nat.le_add_right _ _) hdown
    · exact hboth.le
  | @mergeSpentLeaves channelId sourceIndices targetIdx sequence signer sources targetLeaf hsources
      hapart htarget =>
    refine conserves_merge_iff (.standard
      (if targetLeaf.amount = 0 then signer.publicKey else targetLeaf.owner)
      (saturatingAdd targetLeaf.amount
        (sources.foldl (fun acc source => saturatingAdd acc source.2.amount) 0)))
      hsources hapart htarget rfl ?_ fun hlen k => ?_
    · rw [hleaves, ← hsources.indices_eq, ← afterWrites_cleared]
      rfl
    · rw [hbetween hlen (k + 1), List.take_succ_cons, ← hsources.indices_eq, ← List.map_take,
        ← List.map_take, ← afterWrites_cleared]
      rfl

/-! ### A source listed twice -/

namespace Sample

/-- An empty leaf, and one of 5 of the payer. -/
def mergeTree : Except Unit MerkleTree :=
  orErr (MerkleTree.new env.sha [.empty, .standard payer 5] 1) ()

/-- The payer merges its leaf, listed as often as in `sources`, into the empty one. -/
def mergeInto (sources : List ℕ) : LeafCall := .mergeSpentLeaves (fill 32 1) sources 0 1 payerKeypair

/-- The leaf is worth twice as much when it is listed twice. -/
theorem merged_twice : mergeTree.toOption.any fun t =>
    ((mergeInto [1, 1]).exec env t).toOption.any fun t' =>
      decide (leavesValue t.leaves = 5 ∧ leavesValue t'.leaves = 10) := by
  decide

end Sample

theorem merge_creates :
    ¬ ∀ (env : Env) (c : LeafCall) (t t' : MerkleTree), IsTree env.sha t →
      c.exec env t = .ok t' → c.Conserves env t t' := by
  intro hall
  obtain ⟨t, ht, htest⟩ := exists_of_any Sample.merged_twice
  obtain ⟨t', hexec, hvalues⟩ := exists_of_any htest
  obtain ⟨hbefore, hafter⟩ := of_decide_eq_true hvalues
  have hkept := (hall _ _ _ _ (isTree_of_new (orErr_eq_ok.mp ht)) hexec).1
  omega

/-- Listed once, the leaf is moved as it is. -/
theorem conserves_iff_once : ∃ t t', Sample.mergeTree = .ok t ∧
    (Sample.mergeInto [1]).exec Sample.env t = .ok t' ∧
    ((Sample.mergeInto [1]).Conserves Sample.env t t' ↔ (Sample.mergeInto [1]).Exact t) := by
  have htest : Sample.mergeTree.toOption.any fun t =>
      ((Sample.mergeInto [1]).exec Sample.env t).toOption.any fun _ => true := by
    decide
  obtain ⟨t, ht, htest⟩ := exists_of_any htest
  obtain ⟨t', hexec, -⟩ := exists_of_any htest
  exact ⟨t, t', ht, hexec, conserves_iff hexec⟩

end StateChannel
