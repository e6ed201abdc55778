/-
The leaves of an open channel against its deposits.

Opening and funding put what was deposited into the tree, and a split is checked for
its sum.  A leaf update is not: the manager checks who signed it and what it
replaces, and not the amount.

* `leavesValue_set` — what a write does to the sum of the leaves;
* `reachable_solvent` — the sum stays within the deposits as long as the accepted
  updates, and the accepted batches as a whole, keep it there;
* `covered_of_value` — then every claim of a leaf is covered.
-/
import IgnitePay.StateChannel.Payouts
import IgnitePay.StateChannel.Pipeline

namespace StateChannel

open Bytes Machine Solana

/-! ### The sum of the leaves -/

/-- The sum of the amounts, without bound. -/
def leavesValue (leaves : List UTXOLeaf) : ℕ := (leaves.map fun l => l.amount.toNat).sum

theorem leavesValue_cons (l : UTXOLeaf) (leaves : List UTXOLeaf) :
    leavesValue (l :: leaves) = l.amount.toNat + leavesValue leaves := rfl

theorem leavesValue_set {leaves : List UTXOLeaf} {i : ℕ} {prevLeaf newLeaf : UTXOLeaf}
    (h : leaves[i]? = some prevLeaf) :
    leavesValue (leaves.set i newLeaf) + prevLeaf.amount.toNat
      = leavesValue leaves + newLeaf.amount.toNat := by
  induction leaves generalizing i with
  | nil => exact absurd h (by simp)
  | cons l leaves ih =>
    cases i with
    | zero =>
      rw [List.getElem?_cons_zero, Option.some_inj] at h
      subst h
      rw [List.set_cons_zero, leavesValue_cons, leavesValue_cons]
      omega
    | succ i =>
      rw [List.getElem?_cons_succ] at h
      rw [List.set_cons_succ, leavesValue_cons, leavesValue_cons]
      have ih := ih h
      omega

theorem leavesValue_of_new {sha : List UInt8 → Bytes 32} {leaves : List UTXOLeaf} {depth : ℕ}
    {t : MerkleTree} (h : MerkleTree.new sha leaves depth = some t) :
    leavesValue t.leaves = leavesValue leaves := by
  have hpad : ∀ n, leavesValue (leaves ++ List.replicate n UTXOLeaf.empty) = leavesValue leaves := by
    intro n
    have hzero : UTXOLeaf.empty.amount.toNat = 0 := rfl
    rw [leavesValue, leavesValue, List.map_append, List.map_replicate, List.sum_append, hzero,
      List.sum_replicate]
    simp
  simp only [MerkleTree.new] at h
  split at h
  · exact absurd h (by simp)
  · obtain ⟨nodes, -, rfl⟩ := Option.map_eq_some_iff.mp h
    exact hpad _

/-- The saturating sum of some amounts. -/
theorem toNat_foldl_saturatingAdd {β : Type} (amount : β → UInt64) (xs : List β) (acc : UInt64) :
    (xs.foldl (fun acc x => saturatingAdd acc (amount x)) acc).toNat
      = min (acc.toNat + (xs.map fun x => (amount x).toNat).sum) (2 ^ 64 - 1) := by
  induction xs generalizing acc with
  | nil =>
    have hlt := acc.toNat_lt
    simp only [List.foldl_nil, List.map_nil, List.sum_nil]
    omega
  | cons x xs ih =>
    rw [List.foldl_cons, ih, toNat_saturatingAdd, List.map_cons, List.sum_cons]
    omega

theorem toNat_foldAmounts_min (leaves : List UTXOLeaf) :
    (foldAmounts leaves).toNat = min (leavesValue leaves) (2 ^ 64 - 1) := by
  have hzero : (0 : UInt64).toNat = 0 := rfl
  rw [foldAmounts, toNat_foldl_saturatingAdd, hzero, Nat.zero_add, leavesValue]

/-- Where the sum fits, the saturating one is exact. -/
theorem toNat_foldAmounts {leaves : List UTXOLeaf} (h : leavesValue leaves < 2 ^ 64) :
    (foldAmounts leaves).toNat = leavesValue leaves := by
  rw [toNat_foldAmounts_min]
  omega

/-! ### Open channels -/

namespace ChannelState

/-- The leaves of the tree. -/
def value (c : ChannelState) : ℕ := leavesValue c.tree.leaves

/-- While the channel is open, its leaves are within its deposits. -/
def Solvent (c : ChannelState) : Prop :=
  c.metadata.status = .opened → c.value ≤ c.metadata.totalDeposited.toNat

instance (c : ChannelState) : Decidable c.Solvent := inferInstanceAs (Decidable (_ → _))

end ChannelState

/-- A write that is accepted leaves no more in the tree than was deposited; a batch may do so in
between.  The sum of a split must not saturate. -/
def Request.Conserves (env : Env) (c : ChannelState) : Request → Prop
  | applyLeafUpdate update signerPubkey => Accepts env c update signerPubkey →
    leavesValue (leavesAfter c.tree.leaves [update]) ≤ c.metadata.totalDeposited.toNat
  | applyLeafUpdateBatch _ updates signerPubkey => (∃ c', Batched env signerPubkey c updates c') →
    leavesValue (leavesAfter c.tree.leaves updates) ≤ c.metadata.totalDeposited.toNat
  | constructSplitTree leaves _ _ => Splits c leaves → leavesValue leaves < 2 ^ 64
  | _ => True

section

variable {env : Env} {s s' : Session} {r : Request} {c c' : ChannelState} {updates : List LeafUpdate}
  {signerPubkey : Pubkey}

theorem leaves_of_batched (h : Batched env signerPubkey c updates c') :
    c'.tree.leaves = leavesAfter c.tree.leaves updates := by
  induction h with
  | nil => rfl
  | cons _ hwrites _ ih =>
    rw [ih, leavesAfter, leavesAfter, List.foldl_cons]
    congr 1
    exact leaves_updateLeaf hwrites.2

/-- A free slot holds nothing. -/
theorem amount_of_freeSlot {tree : MerkleTree} {requested : Option ℕ} {index : ℕ}
    {prevLeaf : UTXOLeaf} (hslot : FreeSlot tree requested index)
    (hleaf : tree.getLeaf index = some prevLeaf) : prevLeaf.amount = 0 := by
  cases requested with
  | some idx =>
    obtain ⟨rfl, leaf, hleaf', hzero⟩ := hslot
    obtain rfl := Option.some_inj.mp (hleaf.symm.trans hleaf')
    exact hzero
  | none =>
    have hmem : index ∈ tree.availableSlots := List.mem_of_head? hslot
    obtain ⟨⟨leaf, i⟩, hfree, rfl⟩ := List.mem_map.mp hmem
    obtain ⟨hpair, hzero⟩ := List.mem_filter.mp hfree
    have hleaf' : tree.leaves[i]? = some leaf := List.mk_mem_zipIdx_iff_getElem?.mp hpair
    obtain rfl := Option.some_inj.mp (hleaf.symm.trans hleaf')
    exact of_decide_eq_true hzero

/-- The provider's deposit goes into the tree, and to the deposits. -/
theorem solvent_of_funds {providerKeypair : Keypair} {depositB : UInt64} {requested : Option ℕ}
    (hsolvent : s.channel.Solvent)
    (hexec : exec env (.fundChannel providerKeypair depositB requested) s = .ok s') :
    s'.channel.Solvent := by
  rw [exec] at hexec
  rcases hcall : ((Request.fundChannel providerKeypair depositB requested).method env).call s with
    ⟨(e | e) | u, s₁⟩
  · rw [hcall] at hexec
    obtain rfl := Except.ok.inj hexec
    have hfails : Fails ((Request.fundChannel providerKeypair depositB requested).method env) s
        (.error e) s₁ := hcall
    rw [fails_toLocal id id hfails]
    exact hsolvent
  · rw [hcall] at hexec
    exact absurd hexec (by simp)
  · rw [hcall] at hexec
    obtain rfl := Except.ok.inj hexec
    obtain ⟨_, _, hr, rfl⟩ := returns_quietly.mp hcall
    obtain ⟨hfunds, index, prevLeaf, newSequence, tree, hslot, hprev, -, -, htree, -, rfl⟩ :=
      fundChannel_returns.mp hr
    intro _
    have hvalue := @leavesValue_set _ _ _ (.standard providerKeypair.publicKey depositB) hprev
    rw [← leaves_updateLeaf htree, amount_of_freeSlot hslot hprev] at hvalue
    have hbefore : leavesValue s.channel.tree.leaves ≤ s.channel.metadata.totalDeposited.toNat :=
      hsolvent hfunds.status_eq
    have hfits := UInt64.le_iff_toNat_le.mp (UInt64.not_lt.mp hfunds.fits)
    rw [toNat_saturatingSub, UInt64.toNat_ofNat_of_lt' (by decide)] at hfits
    have hdeposited := UInt64.toNat_lt s.channel.metadata.totalDeposited
    show leavesValue tree.leaves ≤ (saturatingAdd s.channel.metadata.totalDeposited depositB).toNat
    rw [toNat_saturatingAdd_of_lt (by omega)]
    have hleaf : (UTXOLeaf.standard providerKeypair.publicKey depositB).amount.toNat = depositB.toNat :=
      rfl
    have hzero : (0 : UInt64).toNat = 0 := rfl
    omega

theorem solvent_of_effect (hfund : ∀ k d i, r ≠ .fundChannel k d i) (h : Effect env c r c')
    (hsolvent : c.Solvent) (hconserves : r.Conserves env c) : c'.Solvent := by
  have closed : c'.metadata.status ≠ .opened → c'.Solvent := fun hne hopen => absurd hopen hne
  cases h with
  | stays => exact hsolvent
  | funds => exact absurd rfl (hfund _ _ _)
  | @splits leaves _ _ tree _ hsplits htree =>
    intro _
    show leavesValue tree.leaves ≤ c.metadata.totalDeposited.toNat
    rw [leavesValue_of_new htree, ← hsplits.total_eq, toNat_foldAmounts (hconserves hsplits)]
  | updates haccepts hwrites =>
    intro _
    show leavesValue _ ≤ c.metadata.totalDeposited.toNat
    have hleaves := leaves_updateLeaf hwrites.2
    exact hleaves ▸ hconserves haccepts
  | batch hbatched =>
    intro _
    have hdeposited : c'.metadata.totalDeposited = c.metadata.totalDeposited := by
      rw [batched_eq hbatched]
    rw [ChannelState.value, leaves_of_batched hbatched, hdeposited]
    exact hconserves ⟨c', hbatched⟩
  | cosigns => exact hsolvent
  | autoCloses => exact hsolvent
  | pays => exact hsolvent
  | closes => exact closed (by simp [ChannelState.settled])
  | autoSettles => exact closed (by simp [ChannelState.settled])
  | timesOut => exact closed (by simp [ChannelState.settled])
  | triggers => exact closed (by simp [ChannelState.triggered])
  | finalizes => exact closed (by simp [ChannelState.finalized])
  | counters hcounters => exact closed (by simp [ChannelState.countered, hcounters.status_eq])
  | rebuilds hcounters =>
    exact closed (by simp [ChannelState.rebuilt, ChannelState.countered, hcounters.status_eq])
  | halfCounters hcounters => exact closed (by simp [ChannelState.countered, hcounters.status_eq])

theorem holds_solvent_of_exec (hs : Holds env ChannelState.Solvent s) (hexec : exec env r s = .ok s')
    (hconserves : r.Conserves env s.channel) : Holds env ChannelState.Solvent s' := by
  refine holds_of_step hs hexec fun hload => ?_
  by_cases hfund : ∃ k d i, r = .fundChannel k d i
  · obtain ⟨k, d, i, rfl⟩ := hfund
    exact solvent_of_funds hs.memory hexec
  · refine solvent_of_effect (fun k d i heq => hfund ⟨k, d, i, heq⟩) ?_ hs.memory hconserves
    exact effect_of_exec hs.valid hexec hload

theorem leavesValue_eq_sum (leaves : List UTXOLeaf) : leavesValue leaves
    = ∑ i ∈ Finset.range leaves.length, ((leaves[i]?).map fun l => l.amount.toNat).getD 0 := by
  induction leaves with
  | nil => rfl
  | cons l leaves ih =>
    rw [leavesValue_cons, ih, List.length_cons, Finset.sum_range_succ', add_comm]
    rfl

/-- Some of the leaves are worth no more than all. -/
theorem sum_amountAt_le (tree : MerkleTree) (indices : Finset UInt32) :
    ∑ i ∈ indices, amountAt tree i ≤ leavesValue tree.leaves := by
  let f := fun i : ℕ => ((tree.leaves[i]?).map fun l => l.amount.toNat).getD 0
  have hinj : Set.InjOn UInt32.toNat indices := fun i _ j _ h => UInt32.toNat_inj.mp h
  calc ∑ i ∈ indices, amountAt tree i
      = ∑ i ∈ indices.image UInt32.toNat, f i := (Finset.sum_image (f := f) hinj).symm
    _ ≤ ∑ i ∈ Finset.range tree.leaves.length, f i := by
      refine Finset.sum_le_sum_of_ne_zero fun i _ hne => Finset.mem_range.mpr ?_
      by_contra hout
      have hnone : tree.leaves[i]? = none := List.getElem?_eq_none (by omega)
      exact hne (by simp [f, hnone])
    _ = leavesValue tree.leaves := (leavesValue_eq_sum tree.leaves).symm

/-- The claimed leaves and another one are within the sum of all. -/
theorem claimedSum_add_le {i : UInt32} {leaf : UTXOLeaf} (hleaf : c.tree.getLeaf i.toNat = some leaf)
    (hfree : i ∉ c.metadata.claimedLeaves) : c.claimedSum + leaf.amount.toNat ≤ c.value := by
  have hamount : amountAt c.tree i = leaf.amount.toNat := by
    rw [amountAt, hleaf]
    rfl
  have hinsert : ∑ j ∈ insert i c.metadata.claimedLeaves, amountAt c.tree j
      = amountAt c.tree i + c.claimedSum := Finset.sum_insert hfree
  rw [add_comm, ← hamount, ← hinsert]
  exact sum_amountAt_le c.tree _

/-- So the claim of a leaf is covered, as long as what was claimed is counted exactly. -/
theorem covered_of_value (hvalue : c.value ≤ c.metadata.totalDeposited.toNat) (hexact : c.Exact)
    {i : UInt32} {leaf : UTXOLeaf} (hleaf : c.tree.getLeaf i.toNat = some leaf)
    (hfree : i ∉ c.metadata.claimedLeaves) : Covered c leaf.amount := by
  have hsum := claimedSum_add_le hleaf hfree
  have hbound := UInt64.toNat_lt c.metadata.totalDeposited
  rw [← hexact] at hsum
  rw [Covered, UInt64.not_lt, UInt64.le_iff_toNat_le, toNat_saturatingAdd_of_lt (by omega)]
  omega

end

/-! ### A payment out of nothing, and one that is covered -/

namespace Sample

/-- The payer's updates: 4 of 10 are taken out of the first leaf, and then paid. -/
def deducting : List ((Pubkey × Bytes 32) × Bytes 64) := [
  ((payer, number 0x05b6a2d988708de462a657a5dff782ae50f72b9193aaf3e22345f6e27f1abb87),
    signature 0x543c24653a42f8f9ad9a2f7e6fa13d5d2bb0dc00128ec90d19f0a91c21b3896f
      0x0890086fcf2605833496869ca82044eeb3b964d1ba676b42504fccdc881d8488),
  ((payer, number 0x0377dd43d18f8dfc39084e330c639132bd8173f9438c640e82b0ae8fff203df7),
    signature 0xc02a71d902045dfe291e4f4f30d963839fe8f93f153c7d41092570449931e344
      0x000dccd24e209c5217f0935979bb1ef41efd6f80fc3b0c4f1e72b94e89dd5fb6)]

/-- The deduction and the payment. -/
def coveredCalls : List Request := [
  .applyLeafUpdate (signLeafUpdate (envWith deducting) channelId 1 0 (.standard payer 10)
    (.standard payer 6) (payerWith deducting)) payer,
  .applyLeafUpdate (signLeafUpdate (envWith deducting) channelId 2 1 .empty (.standard seller 4)
    (payerWith deducting)) payer]

/-- The call is an update that leaves no more than was deposited. -/
def backed (s : Session) : Request → Bool
  | .applyLeafUpdate update _ => leavesValue (leavesAfter s.channel.tree.leaves [update])
      ≤ s.channel.metadata.totalDeposited.toNat
  | _ => false

theorem conserves_of_backed {env : Env} {s : Session} {r : Request} (h : backed s r = true) :
    r.Conserves env s.channel := by
  cases r with
  | applyLeafUpdate => exact fun _ => of_decide_eq_true h
  | _ => exact absurd h (by simp [backed])

end Sample

end StateChannel
