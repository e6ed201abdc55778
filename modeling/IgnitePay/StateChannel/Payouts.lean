/-
What claims add up to, and whether the two ways to claim a leaf agree.

* `claims_exact_iff` — over any run of claims, the running total is the sum of
  the claimed leaves exactly as long as no addition saturates; each leaf is
  claimed once, and the refunds give back the rest of the deposits;
* `claims_saturate` — a run where one does;
* `claimLeaf_iff_withProof` — `claim_leaf` is the way with a proof and, on top, a
  check of the leaf's type;
* `paths_agree_iff` — a claim with the tree's own proof goes the way of
  `claim_leaf`, except on a leaf that is not a standard one and passes all else.
-/
import IgnitePay.Lib.Share
import IgnitePay.StateChannel.Roots

namespace StateChannel

open Bytes Machine Solana HashTree

/-! ### The sum of the claimed leaves -/

/-- The amount of the leaf at an index. -/
def amountAt (tree : MerkleTree) (i : UInt32) : ℕ :=
  ((tree.getLeaf i.toNat).map fun l => l.amount.toNat).getD 0

/-- The sum over the claimed leaves, without bound. -/
def ChannelState.claimedSum (c : ChannelState) : ℕ :=
  ∑ i ∈ c.metadata.claimedLeaves, amountAt c.tree i

/-- The running total is that sum. -/
def ChannelState.Exact (c : ChannelState) : Prop := c.metadata.totalClaimed.toNat = c.claimedSum

/-- The sum with the next leaf fits an `u64`. -/
def ClaimCall.Fits (l : Local) (call : ClaimCall) : Prop :=
  l.channel.metadata.totalClaimed.toNat + amountAt l.channel.tree call.leafIndex < 2 ^ 64

/-- A claim on the channel; one that fails changes nothing. -/
def execClaim (env : Env) (call : ClaimCall) (l : Local) : Except Failure Local :=
  match (call.method env).call l with
  | (.ok _, l') => .ok l'
  | (.error e, _) => .error e

section

variable {env : Env} {l l' l₀ : Local} {call : ClaimCall} {h : List (Local × ClaimCall)}

theorem execClaim_eq_ok : execClaim env call l = .ok l' ↔ Returns (call.method env) l () l' := by
  rw [execClaim, Returns]
  rcases (call.method env).call l with ⟨e | u, l₁⟩
  · simp
  · simp

/-- What a claim that goes through does. -/
theorem execClaim_pays (hexec : execClaim env call l = .ok l') : ∃ leaf,
    Pays l.channel call.leafIndex leaf ∧ l' = l.saved (l.channel.claimed call.leafIndex leaf.amount) :=
  ClaimCall.pays_of_returns (execClaim_eq_ok.mp hexec)

theorem amountAt_of_pays {c : ChannelState} {leafIndex : UInt32} {leaf : UTXOLeaf}
    (h : Pays c leafIndex leaf) : amountAt c.tree leafIndex = leaf.amount.toNat := by
  rw [amountAt, h.leaf_eq]
  rfl

theorem claimedSum_claimed {c : ChannelState} {leafIndex : UInt32} {leaf : UTXOLeaf}
    (h : Pays c leafIndex leaf) :
    (c.claimed leafIndex leaf.amount).claimedSum = c.claimedSum + leaf.amount.toNat := by
  rw [ChannelState.claimedSum, ChannelState.claimedSum, ← amountAt_of_pays h, Nat.add_comm]
  exact Finset.sum_insert h.unclaimed

/-- A claim keeps the total exact if and only if its addition does not saturate. -/
theorem exact_step (hexact : l.channel.Exact) (hexec : execClaim env call l = .ok l') :
    l'.channel.Exact ↔ call.Fits l := by
  obtain ⟨leaf, hpays, rfl⟩ := execClaim_pays hexec
  have htotal : (l.saved (l.channel.claimed call.leafIndex leaf.amount)).channel.metadata.totalClaimed
      = saturatingAdd l.channel.metadata.totalClaimed leaf.amount := rfl
  rw [ChannelState.Exact, ClaimCall.Fits, amountAt_of_pays hpays, htotal]
  have hsum : (l.saved (l.channel.claimed call.leafIndex leaf.amount)).channel.claimedSum
      = l.channel.metadata.totalClaimed.toNat + leaf.amount.toNat := by
    rw [hexact]
    exact claimedSum_claimed hpays
  rw [hsum]
  by_cases hfits : l.channel.metadata.totalClaimed.toNat + leaf.amount.toNat < 2 ^ 64
  · exact iff_of_true (toNat_saturatingAdd_of_lt hfits) hfits
  · refine iff_of_false (fun heq => hfits ?_) hfits
    rw [← heq]
    exact UInt64.toNat_lt _

/-- What every claim leaves behind, exact or not. -/
structure Follows (c c' : ChannelState) : Prop where
  tree_eq : c'.tree = c.tree
  claimed_subset : c.metadata.claimedLeaves ⊆ c'.metadata.claimedLeaves
  totalDeposited_eq : c'.metadata.totalDeposited = c.metadata.totalDeposited

theorem follows_of_claimed (hrun : Run (execClaim env) l₀ h l) : Follows l₀.channel l.channel := by
  induction hrun with
  | start => exact ⟨rfl, Finset.Subset.refl _, rfl⟩
  | step _ hexec ih =>
    obtain ⟨leaf, -, rfl⟩ := execClaim_pays hexec
    exact ⟨ih.tree_eq, ih.claimed_subset.trans (Finset.subset_insert _ _), ih.totalDeposited_eq⟩

/-- Every index that was claimed is claimed in the end, and none twice. -/
theorem claimed_once (hrun : Run (execClaim env) l₀ h l) :
    (h.map fun c => c.2.leafIndex).Nodup ∧
      ∀ c ∈ h, c.2.leafIndex ∉ l₀.channel.metadata.claimedLeaves ∧
        c.2.leafIndex ∈ l.channel.metadata.claimedLeaves := by
  induction hrun with
  | start => exact ⟨List.nodup_nil, fun c hc => absurd hc (by simp)⟩
  | @step h s s' call hrun hexec ih =>
    obtain ⟨leaf, hpays, rfl⟩ := execClaim_pays hexec
    obtain ⟨hnodup, hall⟩ := ih
    refine ⟨List.nodup_cons.mpr ⟨fun hmem => ?_, hnodup⟩, fun c hc => ?_⟩
    · obtain ⟨c, hc, heq⟩ := List.mem_map.mp hmem
      have hclaimed : c.2.leafIndex ∈ s.channel.metadata.claimedLeaves := (hall c hc).2
      rw [show c.2.leafIndex = call.leafIndex from heq] at hclaimed
      exact hpays.unclaimed hclaimed
    · rcases List.mem_cons.mp hc with rfl | hc
      · have hsubset := (follows_of_claimed hrun).claimed_subset
        exact ⟨fun hmem => hpays.unclaimed (hsubset hmem), Finset.mem_insert_self _ _⟩
      · exact ⟨(hall c hc).1, Finset.mem_insert_of_mem (hall c hc).2⟩

/-- The total stays within the deposits. -/
theorem totalClaimed_le (hstart : l₀.channel.metadata.totalClaimed ≤ l₀.channel.metadata.totalDeposited)
    (hrun : Run (execClaim env) l₀ h l) :
    l.channel.metadata.totalClaimed ≤ l.channel.metadata.totalDeposited := by
  cases hrun with
  | start => exact hstart
  | step _ hexec =>
    obtain ⟨leaf, hpays, rfl⟩ := execClaim_pays hexec
    exact UInt64.not_lt.mp hpays.covered

end

/-! ### What finalizing gives back -/

theorem le_saturatingAdd (a b : UInt64) : a.toNat ≤ (saturatingAdd a b).toNat := by
  have ha := a.toNat_lt
  rw [toNat_saturatingAdd]
  omega

/-- The two refunds are what is left of the deposits. -/
theorem refunds_add {m : ChannelMetadata} (hle : m.totalClaimed ≤ m.totalDeposited) :
    (refunds m).1.toNat + (refunds m).2.toNat + m.totalClaimed.toNat = m.totalDeposited.toNat := by
  have hle' : m.totalClaimed.toNat ≤ m.totalDeposited.toNat := UInt64.le_iff_toNat_le.mp hle
  have hunclaimed := toNat_saturatingSub m.totalDeposited m.totalClaimed
  rw [refunds]
  set unclaimed := saturatingSub m.totalDeposited m.totalClaimed
  dsimp only
  split
  · next hpos =>
    set refundA := UInt64.ofNat
      (unclaimed.toNat * m.depositA.toNat / (saturatingAdd m.depositA m.depositB).toNat)
    -- A share of the unclaimed rest is no more than the rest.
    have hshare : Share.floorShare unclaimed.toNat m.depositA.toNat
        (saturatingAdd m.depositA m.depositB).toNat ≤ unclaimed.toNat :=
      Share.floorShare_le (le_saturatingAdd _ _)
    have hrefundA : refundA.toNat ≤ unclaimed.toNat :=
      (UInt64.toNat_ofNat_of_lt' (hshare.trans_lt unclaimed.toNat_lt)).trans_le hshare
    have hrefundB := toNat_saturatingSub unclaimed refundA
    show refundA.toNat + (saturatingSub unclaimed refundA).toNat + _ = _
    omega
  · show unclaimed.toNat + 0 + _ = _
    omega

/-- What a run of claims leaves: the total is the sum, within the deposits, in
every state; the tree is the one it started with; no leaf was claimed twice; and
a finalization that goes through refunds the rest. -/
structure ClaimsExact (env : Env) (l₀ : Local) (h : List (Local × ClaimCall)) (l : Local) : Prop where
  exact : ∀ l' ∈ Run.states h l, l'.channel.Exact
  covered : ∀ l' ∈ Run.states h l,
    l'.channel.metadata.totalClaimed ≤ l'.channel.metadata.totalDeposited
  tree_eq : l.channel.tree = l₀.channel.tree
  once : (h.map fun c => c.2.leafIndex).Nodup
  unclaimed : ∀ c ∈ h, c.2.leafIndex ∉ l₀.channel.metadata.claimedLeaves
  refunded : ∀ currentSlot callerPubkey callerSignature r l',
    Returns (finalizeSettlement env currentSlot callerPubkey callerSignature) l r l' →
      r.1.toNat + r.2.toNat + l'.channel.metadata.totalClaimed.toNat
        = l'.channel.metadata.totalDeposited.toNat

/-- A run of claims is exact if and only if the total was right when it started
and no claim took the sum past `u64`. -/
theorem claims_exact_iff (env : Env) (l₀ l : Local) (h : List (Local × ClaimCall))
    (hrun : Run (execClaim env) l₀ h l) :
    ClaimsExact env l₀ h l ↔ l₀.channel.Exact ∧
      l₀.channel.metadata.totalClaimed ≤ l₀.channel.metadata.totalDeposited ∧
      ∀ c ∈ h, c.2.Fits c.1 := by
  have hexact_iff : l₀.channel.Exact →
      ((∀ l' ∈ Run.states h l, l'.channel.Exact) ↔ ∀ c ∈ h, c.2.Fits c.1) := by
    intro hstart
    have hstep : ∀ h s call s', Run (execClaim env) l₀ h s → s.channel.Exact → True →
        execClaim env call s = .ok s' → (s'.channel.Exact ↔ call.Fits s) :=
      fun _ _ _ _ _ hexact _ hexec => exact_step hexact hexec
    exact @Run.forall_states_iff _ _ _ _ _ _ _ (fun l => l.channel.Exact)
      (fun s call => call.Fits s) (fun _ _ => True) hstart hstep hrun fun _ _ => trivial
  constructor
  · intro hall
    have hstart := hall.exact l₀ hrun.start_mem_states
    exact ⟨hstart, hall.covered l₀ hrun.start_mem_states, (hexact_iff hstart).mp hall.exact⟩
  · rintro ⟨hstart, hcovered, hfits⟩
    obtain ⟨hnodup, hindices⟩ := claimed_once hrun
    have hle : ∀ l' ∈ Run.states h l,
        l'.channel.metadata.totalClaimed ≤ l'.channel.metadata.totalDeposited :=
      Run.forall_states (fun _ _ hrun => totalClaimed_le hcovered hrun) hrun
    refine ⟨(hexact_iff hstart).mpr hfits, hle, (follows_of_claimed hrun).tree_eq, hnodup,
      fun c hc => (hindices c hc).1, ?_⟩
    intro currentSlot callerPubkey callerSignature r l' hfinal
    obtain ⟨-, rfl, rfl⟩ := finalizeSettlement_returns.mp hfinal
    exact refunds_add (hle l List.mem_cons_self)

namespace Sample

/-- The payer's claim of the first leaf. -/
def claimFirstLeaf (amount : UInt64) : ClaimCall :=
  .leaf 0 amount payer 5 (signClaim payerKeypair 0 amount)

/-- The seller's claim of the second. -/
def claimSecondLeaf : ClaimCall := .leaf 1 4 seller 5 (signClaim sellerKeypair 1 4)

end Sample

theorem claims_exact_first : ∃ s₀ l₀ h l, Opened Sample.env (Sample.openArgs 10) s₀ ∧
    exec Sample.env Sample.closeByItself s₀ = .ok l₀ ∧
    Run (execClaim Sample.env) l₀.toLocal h l ∧
    h.map Prod.snd = [Sample.claimFirstLeaf 10] ∧
    (ClaimsExact Sample.env l₀.toLocal h l ↔ l₀.channel.Exact ∧
      l₀.channel.metadata.totalClaimed ≤ l₀.channel.metadata.totalDeposited ∧
      ∀ c ∈ h, c.2.Fits c.1) := by
  have htest : (Sample.opened 10 none).toOption.any fun s₀ =>
      (exec Sample.env Sample.closeByItself s₀).toOption.any fun l₀ =>
        (Run.execAll (execClaim Sample.env) [Sample.claimFirstLeaf 10] l₀.toLocal).toOption.any
          fun _ => decide True := by
    decide +kernel
  obtain ⟨s₀, hs₀, htest⟩ := exists_of_any htest
  obtain ⟨l₀, hl₀, htest⟩ := exists_of_any htest
  obtain ⟨h, l, hrun, hcalls, -⟩ := Run.exists_of_test htest
  exact ⟨s₀, l₀, h, l, ⟨_, _, Sample.openChannel_of_opened hs₀⟩, hl₀, hrun, hcalls,
    claims_exact_iff Sample.env l₀.toLocal l h hrun⟩

/-- The first leaf is all that an `u64` holds, and the second adds 4: the total
stays at the deposits. -/
theorem claims_saturate : ∃ s₀ h₀ l₀ h l,
    Opened Sample.env (Sample.openArgs (UInt64.ofNat (2 ^ 64 - 1))) s₀ ∧
    Run (exec Sample.env) s₀ h₀ l₀ ∧
    h₀.map Prod.snd = [Sample.closeByItself, .applyLeafUpdate Sample.payment Sample.payer] ∧
    l₀.channel.metadata.status = .settling ∧
    Run (execClaim Sample.env) l₀.toLocal h l ∧
    h.map Prod.snd = [Sample.claimSecondLeaf,
      Sample.claimFirstLeaf (UInt64.ofNat (2 ^ 64 - 1))] ∧
    l.channel.metadata.totalClaimed.toNat = 2 ^ 64 - 1 ∧ l.channel.claimedSum = 2 ^ 64 + 3 := by
  obtain ⟨s₀, h₀, l₀, hopened, hrun₀, hcalls₀, hsettling, htest⟩ :=
    @Sample.exists_run (UInt64.ofNat (2 ^ 64 - 1)) [.applyLeafUpdate Sample.payment Sample.payer,
      Sample.closeByItself] (fun l₀ => l₀.channel.metadata.status = .settling ∧
        (Run.execAll (execClaim Sample.env) [Sample.claimFirstLeaf (UInt64.ofNat (2 ^ 64 - 1)),
          Sample.claimSecondLeaf] l₀.toLocal).toOption.any fun l =>
            decide (l.channel.metadata.totalClaimed.toNat = 2 ^ 64 - 1 ∧
              l.channel.claimedSum = 2 ^ 64 + 3)) _ (by decide +kernel)
  obtain ⟨h, l, hrun, hcalls, htotal, hsum⟩ := Run.exists_of_test htest
  exact ⟨s₀, h₀, l₀, h, l, hopened, hrun₀, hcalls₀, hsettling, hrun, hcalls, htotal, hsum⟩

/-! ### Two ways to claim a leaf -/

section

variable (env : Env) (l : Local) (leafIndex : UInt32) (claimAmount : UInt64) (claimerPubkey : Pubkey)
  (currentSlot : UInt64) (claimerSignature : Bytes 64) (proof : List (Bytes 32))

/-- Both ways go through for the same claims, and leave the same. -/
def PathsAgree : Prop :=
  ∀ l', Returns (claimLeaf env leafIndex claimAmount claimerPubkey currentSlot claimerSignature) l () l' ↔
    Returns (claimLeafWithProof env leafIndex claimAmount claimerPubkey currentSlot claimerSignature
      proof) l () l'

/-- Neither way pays a leaf that is not a standard one. -/
def PaysStandardOnly : Prop :=
  ∀ leaf l', l.channel.tree.getLeaf leafIndex.toNat = some leaf → leaf.leafType ≠ .standard →
    ¬ Returns (claimLeaf env leafIndex claimAmount claimerPubkey currentSlot claimerSignature) l () l' ∧
    ¬ Returns (claimLeafWithProof env leafIndex claimAmount claimerPubkey currentSlot claimerSignature
      proof) l () l'

/-- The leaf is a standard one, or the claim fails a check that both ways make. -/
def StandardOrRefused : Prop :=
  ∀ leaf, l.channel.tree.getLeaf leafIndex.toNat = some leaf → leaf.leafType = .standard ∨
    ¬ (Claims env l.channel leafIndex claimAmount claimerPubkey currentSlot claimerSignature ∧
      leaf.amount ≠ 0 ∧ leaf.owner = claimerPubkey ∧ claimAmount = leaf.amount ∧
      Covered l.channel claimAmount)

variable {env l leafIndex claimAmount claimerPubkey currentSlot claimerSignature proof}

/-- With the tree's own proof, the way with a proof goes through exactly where the
checks of both are passed. -/
theorem claimLeafWithProof_own {leaf : UTXOLeaf} {l' : Local}
    (hleaf : l.channel.tree.getLeaf leafIndex.toNat = some leaf)
    (hverified : verifyProof env.sha (leaf.hash env.sha) proof l.channel.metadata.currentRoot) :
    Returns (claimLeafWithProof env leafIndex claimAmount claimerPubkey currentSlot claimerSignature
        proof) l () l' ↔
      (Claims env l.channel leafIndex claimAmount claimerPubkey currentSlot claimerSignature ∧
        leaf.amount ≠ 0 ∧ leaf.owner = claimerPubkey ∧ claimAmount = leaf.amount ∧
        Covered l.channel claimAmount) ∧ l' = l.saved (l.channel.claimed leafIndex claimAmount) := by
  rw [claimLeafWithProof_returns]
  constructor
  · rintro ⟨hclaims, ⟨leaf', hl⟩, hcovered, hl'⟩
    obtain rfl := Option.some_inj.mp (hl.leaf_eq.symm.trans hleaf)
    exact ⟨⟨hclaims, hl.nonempty, hl.owner_eq, hl.amount_eq, hcovered⟩, hl'⟩
  · rintro ⟨⟨hclaims, hne, howner, hamount, hcovered⟩, hl'⟩
    exact ⟨hclaims, ⟨leaf, hleaf, hne, howner, hamount, hverified⟩, hcovered, hl'⟩

/-- The other way checks the type as well. -/
theorem claimLeaf_iff_withProof {leaf : UTXOLeaf} {l' : Local}
    (hleaf : l.channel.tree.getLeaf leafIndex.toNat = some leaf)
    (hproof : l.channel.tree.getProof leafIndex.toNat = some proof)
    (hverified : verifyProof env.sha (leaf.hash env.sha) proof l.channel.metadata.currentRoot) :
    Returns (claimLeaf env leafIndex claimAmount claimerPubkey currentSlot claimerSignature) l () l' ↔
      leaf.leafType = .standard ∧ Returns (claimLeafWithProof env leafIndex claimAmount claimerPubkey
        currentSlot claimerSignature proof) l () l' := by
  rw [claimLeafWithProof_own hleaf hverified, claimLeaf_returns]
  constructor
  · rintro ⟨hclaims, ⟨leaf', proof', hl⟩, hcovered, hl'⟩
    obtain rfl := Option.some_inj.mp (hl.leaf_eq.symm.trans hleaf)
    exact ⟨hl.type_eq, ⟨hclaims, hl.nonempty, hl.owner_eq, hl.amount_eq, hcovered⟩, hl'⟩
  · rintro ⟨htype, ⟨hclaims, hne, howner, hamount, hcovered⟩, hl'⟩
    exact ⟨hclaims, ⟨leaf, proof, hleaf, hne, htype, howner, hamount, hproof, hverified⟩, hcovered,
      hl'⟩

end

/-- On a channel whose root is its tree's, for any claim and the tree's proof. -/
theorem paths_agree_iff (env : Env) (l : Local) (leafIndex : UInt32) (claimAmount : UInt64)
    (claimerPubkey : Pubkey) (currentSlot : UInt64) (claimerSignature : Bytes 64)
    (proof : List (Bytes 32)) (htree : IsTree env.sha l.channel.tree)
    (hroot : l.channel.metadata.currentRoot = l.channel.tree.root)
    (hproof : l.channel.tree.getProof leafIndex.toNat = some proof) :
    (PathsAgree env l leafIndex claimAmount claimerPubkey currentSlot claimerSignature proof ∧
      PaysStandardOnly env l leafIndex claimAmount claimerPubkey currentSlot claimerSignature proof) ↔
      StandardOrRefused env l leafIndex claimAmount claimerPubkey currentSlot claimerSignature := by
  obtain ⟨leaf, hleaf⟩ := htree.exists_getLeaf_of_getProof hproof
  have honly : ∀ leaf', l.channel.tree.getLeaf leafIndex.toNat = some leaf' → leaf' = leaf :=
    fun leaf' h => Option.some_inj.mp (h.symm.trans hleaf)
  have hverified : verifyProof env.sha (leaf.hash env.sha) proof l.channel.metadata.currentRoot := by
    rw [hroot]
    exact decide_eq_true (htree.climb_getProof hproof hleaf)
  constructor
  · rintro ⟨-, hstandard⟩ leaf' hleaf'
    obtain rfl := honly leaf' hleaf'
    by_cases htype : leaf'.leafType = .standard
    · exact .inl htype
    · exact .inr fun hchecks =>
        (hstandard leaf' _ hleaf htype).2 ((claimLeafWithProof_own hleaf hverified).mpr ⟨hchecks, rfl⟩)
  · intro hcond
    rcases hcond leaf hleaf with htype | hrefused
    · refine ⟨fun l' => ?_, fun leaf' l' hleaf' htype' => ?_⟩
      · rw [claimLeaf_iff_withProof hleaf hproof hverified, and_iff_right htype]
      · obtain rfl := honly leaf' hleaf'
        exact absurd htype htype'
    · have hnever : ∀ l', ¬ Returns (claimLeafWithProof env leafIndex claimAmount claimerPubkey
          currentSlot claimerSignature proof) l () l' :=
        fun l' h => hrefused ((claimLeafWithProof_own hleaf hverified).mp h).1
      have hnever' : ∀ l', ¬ Returns (claimLeaf env leafIndex claimAmount claimerPubkey currentSlot
          claimerSignature) l () l' :=
        fun l' h => hnever l' ((claimLeaf_iff_withProof hleaf hproof hverified).mp h).2
      exact ⟨fun l' => iff_of_false (hnever' l') (hnever l'),
        fun leaf' l' _ _ => ⟨hnever' l', hnever l'⟩⟩

theorem paths_agree_first : ∃ s₀ s proof, Opened Sample.env (Sample.openArgs 10) s₀ ∧
    exec Sample.env Sample.closeByItself s₀ = .ok s ∧ s.channel.tree.getProof 0 = some proof ∧
    ((PathsAgree Sample.env s.toLocal 0 10 Sample.payer 5 (Sample.signClaim Sample.payerKeypair 0 10)
        proof ∧
      PaysStandardOnly Sample.env s.toLocal 0 10 Sample.payer 5
        (Sample.signClaim Sample.payerKeypair 0 10) proof) ↔
      StandardOrRefused Sample.env s.toLocal 0 10 Sample.payer 5
        (Sample.signClaim Sample.payerKeypair 0 10)) := by
  have htest : (Sample.opened 10 none).toOption.any fun s₀ =>
      (exec Sample.env Sample.closeByItself s₀).toOption.any fun s =>
        decide (s.channel.Agrees ∧ (s.channel.tree.getProof 0).isSome) := by
    decide +kernel
  obtain ⟨s₀, hs₀, htest⟩ := exists_of_any htest
  obtain ⟨s, hs, htest⟩ := exists_of_any htest
  obtain ⟨hagrees, hproof⟩ := of_decide_eq_true htest
  obtain ⟨proof, hproof⟩ := Option.isSome_iff_exists.mp hproof
  have hopened : Opened Sample.env (Sample.openArgs 10) s₀ :=
    ⟨_, _, Sample.openChannel_of_opened hs₀⟩
  have hvalid := reachable_valid hopened (.step .start hs)
  exact ⟨s₀, s, proof, hopened, hs, hproof,
    paths_agree_iff Sample.env s.toLocal 0 10 Sample.payer 5
      (Sample.signClaim Sample.payerKeypair 0 10) proof hvalid.isTree hagrees hproof⟩

/-- The payer takes the locked deposit back with its proof, long before its time. -/
theorem htlc_paid_to_owner : ∃ s₀ h s proof l' e l'', Opened Sample.env (Sample.openArgs 10) s₀ ∧
    Run (exec Sample.env) s₀ h s ∧ h.map Prod.snd = [Sample.closeByItself, Sample.lock] ∧
    s.channel.Agrees ∧ s.channel.tree.getProof 0 = some proof ∧
    s.channel.tree.getLeaf 0 = some Sample.htlcLeaf ∧
    Returns (claimLeafWithProof Sample.env 0 10 Sample.payer 5
      (Sample.signClaim Sample.payerKeypair 0 10) proof) s.toLocal () l' ∧
    Fails (claimLeaf Sample.env 0 10 Sample.payer 5
      (Sample.signClaim Sample.payerKeypair 0 10)) s.toLocal e l'' := by
  obtain ⟨s₀, h, s, hopened, hrun, hcalls, hagrees, hleaf, proof, hproof, hpasses, hstops⟩ :=
    @Sample.exists_run 10 [Sample.lock, Sample.closeByItself]
      (fun s => s.channel.Agrees ∧ s.channel.tree.getLeaf 0 = some Sample.htlcLeaf ∧
        ∃ proof ∈ s.channel.tree.getProof 0,
          (claimLeafWithProof Sample.env 0 10 Sample.payer 5
            (Sample.signClaim Sample.payerKeypair 0 10) proof).passes s.toLocal (fun _ => true) ∧
          (claimLeaf Sample.env 0 10 Sample.payer 5
            (Sample.signClaim Sample.payerKeypair 0 10)).stops s.toLocal fun _ _ => true) _
      (by decide +kernel)
  obtain ⟨_, l', hreturns, -⟩ := exists_of_passes hpasses
  obtain ⟨e, l'', hfails, -⟩ := exists_of_stops hstops
  exact ⟨s₀, h, s, proof, l', e, l'', hopened, hrun, hcalls, hagrees, hproof, hleaf, hreturns, hfails⟩

end StateChannel
