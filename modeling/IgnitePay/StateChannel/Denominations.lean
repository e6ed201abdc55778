/-
Splitting a deposit into leaves: what `generate_leaves` makes of it
(`helpers.rs`), and what `construct_split_tree` takes (`channel.rs`).

Generation checks every product and every sum.  The check of a split adds with
saturation, and asks first whether a leaf is the user's, so the provider's
leaves are not counted where the two are one.

* `leavesValue_generateLeaves` — generated leaves are worth the deposit;
* `splits_exact_iff` — a split that passes is worth what the deposits say,
  exactly where its sum fits and the two parties differ;
* `split_construction_iff` — both, and that generated leaves are accepted.
-/
import IgnitePay.StateChannel.Conservation

namespace StateChannel

open Bytes Machine Solana

/-! ### Generating leaves -/

/-- `count` leaves of `amount`. -/
structure DenominationTier where
  count : UInt64
  amount : UInt64

inductive DenominationStrategy
  | uniform (count amount : UInt64)
  | mixed (tiers : List DenominationTier)
  | restFirst (smallCount smallAmount : UInt64)

/-- `a.checked_mul(b)`. -/
def checkedMul (a b : UInt64) : Option UInt64 :=
  if a.toNat * b.toNat < 2 ^ 64 then some (a * b) else none

/-- One tier and the rest; the text names the tier. -/
def oneTier (tier : String) (owner : Pubkey) (deposit count amount : UInt64) :
    Except Failure (List UTXOLeaf) := do
  let total ← orErr (checkedMul amount count) (.other "amount overflow")
  require (¬ total > deposit) (.other s!"{tier} total {total} exceeds deposit {deposit}")
  let rest := deposit - total
  return List.replicate count.toNat (.standard owner amount) ++ [.standard owner rest]

/-- The loop over the tiers of a mixed split: their total, and their leaves. -/
def allTiers (owner : Pubkey) (deposit : UInt64) :
    List DenominationTier → UInt64 → List UTXOLeaf → Except Failure (UInt64 × List UTXOLeaf)
  | [], total, leaves => return (total, leaves)
  | tier :: tiers, total, leaves => do
    let tierTotal ← orErr (checkedMul tier.amount tier.count) (.other "tier overflow")
    let total ← orErr (checkedAdd total tierTotal) (.other "total overflow")
    require (¬ total > deposit) (.other s!"mixed tier total {total} exceeds deposit {deposit}")
    allTiers owner deposit tiers total
      (leaves ++ List.replicate tier.count.toNat (.standard owner tier.amount))

/-- `generate_leaves`. -/
def DenominationStrategy.generateLeaves (owner : Pubkey) (deposit : UInt64) :
    DenominationStrategy → Except Failure (List UTXOLeaf)
  | uniform count amount => oneTier "uniform tier" owner deposit count amount
  | mixed tiers => do
    let (total, leaves) ← allTiers owner deposit tiers 0 []
    let rest := deposit - total
    return leaves ++ [.standard owner rest]
  | restFirst smallCount smallAmount => oneTier "small leaf" owner deposit smallCount smallAmount

section

variable {owner : Pubkey} {deposit total : UInt64} {leaves leaves' : List UTXOLeaf}

theorem leavesValue_append (leaves leaves' : List UTXOLeaf) :
    leavesValue (leaves ++ leaves') = leavesValue leaves + leavesValue leaves' := by
  rw [leavesValue, List.map_append, List.sum_append, leavesValue, leavesValue]

theorem leavesValue_replicate (n : ℕ) (l : UTXOLeaf) :
    leavesValue (List.replicate n l) = n * l.amount.toNat := by
  rw [leavesValue, List.map_replicate, List.sum_replicate, smul_eq_mul]

theorem toNat_of_checkedMul {a b c : UInt64} (h : checkedMul a b = some c) :
    c.toNat = a.toNat * b.toNat := by
  rw [checkedMul] at h
  split at h
  · next hlt =>
    obtain rfl := Option.some_inj.mp h
    rw [UInt64.toNat_mul, Nat.mod_eq_of_lt hlt]
  · exact absurd h (by simp)

/-- Some leaves, and one with what is left of the deposit. -/
theorem leavesValue_rest (hvalue : leavesValue leaves = total.toNat) (hle : ¬ total > deposit) :
    leavesValue (leaves ++ [.standard owner (deposit - total)]) = deposit.toNat := by
  have hle' : total ≤ deposit := UInt64.not_lt.mp hle
  have hnat : total.toNat ≤ deposit.toNat := UInt64.le_iff_toNat_le.mp hle'
  have hone : leavesValue [UTXOLeaf.standard owner (deposit - total)] = (deposit - total).toNat := by
    rw [leavesValue_cons]
    rfl
  rw [leavesValue_append, hvalue, hone, UInt64.toNat_sub_of_le _ _ hle']
  omega

/-- What is generated: leaves of the owner, worth the deposit. -/
def Generates (owner : Pubkey) (deposit : UInt64) (leaves : List UTXOLeaf) : Prop :=
  (∀ l ∈ leaves, l.owner = owner) ∧ leavesValue leaves = deposit.toNat

theorem generates_oneTier {tier : String} {count amount : UInt64}
    (h : oneTier tier owner deposit count amount = .ok leaves) : Generates owner deposit leaves := by
  simp only [oneTier, bind_eq_ok, orErr_eq_ok, require_eq_ok, pure, Except.pure,
    Except.ok.injEq] at h
  obtain ⟨total, htotal, -, hle, rfl⟩ := h
  refine ⟨fun l hl => ?_, leavesValue_rest ?_ hle⟩
  · rcases List.mem_append.mp hl with hl | hl
    · rw [List.eq_of_mem_replicate hl]
      rfl
    · rw [List.mem_singleton.mp hl]
      rfl
  · rw [leavesValue_replicate, toNat_of_checkedMul htotal, Nat.mul_comm]
    rfl

/-- The loop keeps its total in step with its leaves, and within the deposit. -/
theorem allTiers_ok {tiers : List DenominationTier} {r : UInt64 × List UTXOLeaf}
    (h : allTiers owner deposit tiers total leaves = .ok r)
    (howner : ∀ l ∈ leaves, l.owner = owner) (hvalue : leavesValue leaves = total.toNat)
    (hle : ¬ total > deposit) :
    (∀ l ∈ r.2, l.owner = owner) ∧ leavesValue r.2 = r.1.toNat ∧ ¬ r.1 > deposit := by
  induction tiers generalizing total leaves with
  | nil =>
    obtain rfl := Except.ok.inj h
    exact ⟨howner, hvalue, hle⟩
  | cons tier tiers ih =>
    simp only [allTiers, bind_eq_ok, orErr_eq_ok, require_eq_ok] at h
    obtain ⟨tierTotal, htier, total', hadd, -, hle', h⟩ := h
    refine ih h (fun l hl => ?_) ?_ hle'
    · rcases List.mem_append.mp hl with hl | hl
      · exact howner l hl
      · rw [List.eq_of_mem_replicate hl]
        rfl
    · rw [leavesValue_append, leavesValue_replicate, hvalue, checkedAdd_eq_some.mp hadd,
        toNat_of_checkedMul htier, Nat.mul_comm]
      rfl

theorem generates_generateLeaves {strategy : DenominationStrategy}
    (h : strategy.generateLeaves owner deposit = .ok leaves) : Generates owner deposit leaves := by
  cases strategy with
  | uniform count amount => exact generates_oneTier h
  | restFirst smallCount smallAmount => exact generates_oneTier h
  | mixed tiers =>
    simp only [DenominationStrategy.generateLeaves, bind_eq_ok, pure, Except.pure,
      Except.ok.injEq] at h
    obtain ⟨⟨total, tierLeaves⟩, htiers, rfl⟩ := h
    have hzero : ¬ (0 : UInt64) > deposit := UInt64.not_lt.mpr (UInt64.le_iff_toNat_le.mpr
      (Nat.zero_le _))
    obtain ⟨howner, hvalue, hle⟩ := allTiers_ok htiers (by simp) rfl hzero
    refine ⟨fun l hl => ?_, leavesValue_rest hvalue hle⟩
    rcases List.mem_append.mp hl with hl | hl
    · exact howner l hl
    · rw [List.mem_singleton.mp hl]
      rfl

end

/-! ### Checking a split -/

/-- What the leaves of an owner are worth. -/
def ownedValue (owner : Pubkey) (leaves : List UTXOLeaf) : ℕ :=
  leavesValue (leaves.filter fun l => l.owner = owner)

/-- The worth of the leaves that the check counts for the provider. -/
def restValue (userPubkey providerPubkey : Pubkey) (leaves : List UTXOLeaf) : ℕ :=
  leavesValue (leaves.filter fun l => l.owner ≠ userPubkey ∧ l.owner = providerPubkey)

section

variable {userPubkey providerPubkey : Pubkey} {leaves : List UTXOLeaf}

theorem leavesValue_filter_cons (p : UTXOLeaf → Prop) [DecidablePred p] (l : UTXOLeaf)
    (leaves : List UTXOLeaf) : leavesValue ((l :: leaves).filter fun l => p l)
      = (if p l then l.amount.toNat else 0) + leavesValue (leaves.filter fun l => p l) := by
  rw [List.filter_cons]
  by_cases hp : p l
  · rw [if_pos (decide_eq_true hp), if_pos hp, leavesValue_cons]
  · rw [if_neg (by simpa using hp), if_neg hp, Nat.zero_add]

/-- The totals that the loop over the owners ends with; and every leaf that holds
something is counted on one side. -/
theorem ownerTotals_ok {i : ℕ} {totals r : UInt64 × UInt64}
    (h : ownerTotals userPubkey providerPubkey i leaves totals = .ok r) :
    r.1.toNat = min (totals.1.toNat + ownedValue userPubkey leaves) (2 ^ 64 - 1) ∧
      r.2.toNat = min (totals.2.toNat + restValue userPubkey providerPubkey leaves) (2 ^ 64 - 1) ∧
      leavesValue leaves
        = ownedValue userPubkey leaves + restValue userPubkey providerPubkey leaves := by
  induction leaves generalizing i totals with
  | nil =>
    obtain rfl := Except.ok.inj h
    have h1 := totals.1.toNat_lt
    have h2 := totals.2.toNat_lt
    have hnil : ownedValue userPubkey [] = 0 := rfl
    have hnil' : restValue userPubkey providerPubkey [] = 0 := rfl
    have hnone : leavesValue [] = 0 := rfl
    rw [hnil, hnil', hnone]
    refine ⟨?_, ?_, ?_⟩ <;> omega
  | cons leaf leaves ih =>
    obtain ⟨userTotal, providerTotal⟩ := totals
    have huser := leavesValue_filter_cons (fun l => l.owner = userPubkey) leaf leaves
    have hrest := leavesValue_filter_cons
      (fun l => l.owner ≠ userPubkey ∧ l.owner = providerPubkey) leaf leaves
    rw [ownerTotals] at h
    rw [leavesValue_cons]
    unfold ownedValue restValue at ih ⊢
    rw [huser, hrest]
    split at h
    · next hempty =>
      -- An empty leaf counts for nothing, whoever owns it.
      obtain ⟨h1, h2, h3⟩ := ih h
      have hzero : leaf.amount.toNat = 0 := by
        rw [hempty]
        rfl
      rw [hzero, ite_self, ite_self]
      refine ⟨?_, ?_, ?_⟩ <;> omega
    · split at h
      · next howner =>
        obtain ⟨h1, h2, h3⟩ := ih h
        rw [if_pos howner, if_neg (fun hand => hand.1 howner)]
        rw [toNat_saturatingAdd] at h1
        refine ⟨?_, ?_, ?_⟩ <;> dsimp only at h1 h2 ⊢ <;> omega
      · next hother =>
        split at h
        · next howner =>
          obtain ⟨h1, h2, h3⟩ := ih h
          rw [if_neg hother, if_pos ⟨hother, howner⟩]
          rw [toNat_saturatingAdd] at h2
          refine ⟨?_, ?_, ?_⟩ <;> dsimp only at h1 h2 ⊢ <;> omega
        · exact absurd h (by simp)

/-- A leaf that is not counted for the user counts for the provider, if it is not
also the user's. -/
theorem restValue_eq (hne : userPubkey ≠ providerPubkey) :
    restValue userPubkey providerPubkey leaves = ownedValue providerPubkey leaves := by
  unfold restValue ownedValue
  congr 1
  refine List.filter_congr fun l _ => ?_
  rw [decide_eq_decide]
  exact and_iff_right_of_imp fun h heq => hne (heq.symm.trans h)

theorem restValue_self : restValue userPubkey userPubkey leaves = 0 := by
  have hnone : leaves.filter (fun l => l.owner ≠ userPubkey ∧ l.owner = userPubkey) = [] := by
    rw [List.filter_eq_nil_iff]
    intro l _
    simp
  rw [restValue, hnone]
  rfl

/-- A split is worth exactly what the deposits say. -/
def ExactSplit (m : ChannelMetadata) (leaves : List UTXOLeaf) : Prop :=
  ownedValue m.userPubkey leaves = m.depositA.toNat ∧
    ownedValue m.providerPubkey leaves = m.depositB.toNat ∧
    leavesValue leaves = m.totalDeposited.toNat

theorem splits_exact_iff {c : ChannelState} (h : Splits c leaves) :
    ExactSplit c.metadata leaves ↔ leavesValue leaves < 2 ^ 64 ∧
      (c.metadata.userPubkey = c.metadata.providerPubkey → leavesValue leaves = 0) := by
  have htotal := congrArg UInt64.toNat h.total_eq
  rw [toNat_foldAmounts_min] at htotal
  obtain ⟨h1, h2, hsum⟩ := ownerTotals_ok h.totals_eq
  have hzero : (0 : UInt64).toNat = 0 := rfl
  dsimp only at h1 h2
  rw [hzero, Nat.zero_add] at h1 h2
  have hlt := c.metadata.totalDeposited.toNat_lt
  unfold ExactSplit
  by_cases hsame : c.metadata.userPubkey = c.metadata.providerPubkey
  · -- The leaves of one are those of the other, and all of them are counted for the user.
    rw [← hsame] at hsum h2 ⊢
    rw [restValue_self] at hsum h2
    simp only [forall_const]
    omega
  · rw [restValue_eq hsame] at hsum h2
    rw [and_iff_left fun heq => absurd heq hsame]
    omega

/-! ### Generated leaves are accepted -/

theorem saturatingAdd_zero (a : UInt64) : saturatingAdd a 0 = a := by
  rw [saturatingAdd, if_pos (by simpa using a.toNat_lt), UInt64.add_zero]

/-- Leaves of the user alone are all counted for the user. -/
theorem ownerTotals_of_owned (howner : ∀ l ∈ leaves, l.owner = userPubkey) (i : ℕ)
    (userTotal providerTotal : UInt64) :
    ownerTotals userPubkey providerPubkey i leaves (userTotal, providerTotal)
      = .ok (leaves.foldl (fun acc l => saturatingAdd acc l.amount) userTotal, providerTotal) := by
  induction leaves generalizing i userTotal with
  | nil => rfl
  | cons leaf leaves ih =>
    obtain ⟨hleaf, hleaves⟩ := List.forall_mem_cons.mp howner
    rw [ownerTotals, List.foldl_cons]
    split
    · next hempty => rw [ih hleaves, hempty, saturatingAdd_zero]
    · exact ih hleaves _ _

/-- A channel that only the user has funded. -/
structure UserFunded (m : ChannelMetadata) : Prop where
  status_eq : m.status = .opened
  depositA_eq : m.depositA = m.totalDeposited
  depositB_eq : m.depositB = 0

instance (m : ChannelMetadata) : Decidable (UserFunded m) :=
  decidable_of_iff (m.status = .opened ∧ m.depositA = m.totalDeposited ∧ m.depositB = 0)
    ⟨fun h => ⟨h.1, h.2.1, h.2.2⟩, fun h => ⟨h.status_eq, h.depositA_eq, h.depositB_eq⟩⟩

/-- What is generated for the user's deposit passes the check of a split. -/
theorem splits_of_generates {c : ChannelState} (hfunded : UserFunded c.metadata)
    (h : Generates c.metadata.userPubkey c.metadata.totalDeposited leaves) : Splits c leaves := by
  have htotal : foldAmounts leaves = c.metadata.totalDeposited := by
    apply UInt64.toNat_inj.mp
    rw [toNat_foldAmounts (by rw [h.2]; exact UInt64.toNat_lt _), h.2]
  refine ⟨htotal, ?_⟩
  rw [ownerTotals_of_owned h.1, hfunded.depositA_eq, hfunded.depositB_eq, ← htotal]
  rfl

theorem addU64_one_isSome_iff {overflowChecks : Bool} {a : UInt64} :
    (∃ b, addU64 overflowChecks a 1 = some b) ↔
      (overflowChecks = true → a.toNat + 1 < 2 ^ 64) := by
  have hone : (1 : UInt64).toNat = 1 := rfl
  rw [addU64]
  cases overflowChecks with
  | false => simp
  | true =>
    rw [if_pos rfl, checkedAdd, hone]
    split
    · next h => exact iff_of_true ⟨_, rfl⟩ fun _ => h
    · next h => exact iff_of_false (by simp) fun hall => h (hall rfl)

end

/-- Generated leaves are worth the deposit, and a channel that only the user has funded
takes them where it can count its sequence up; and a split that is taken is worth what
the deposits say exactly where its sum fits a `u64` and no provider's leaf is the user's. -/
theorem split_construction_iff (env : Env) (l : Local) (userKeypair providerKeypair : Keypair) :
    (∀ (strategy : DenominationStrategy) owner deposit leaves,
      strategy.generateLeaves owner deposit = .ok leaves → leavesValue leaves = deposit.toNat) ∧
    (∀ (strategy : DenominationStrategy) leaves, UserFunded l.channel.metadata →
      strategy.generateLeaves l.channel.metadata.userPubkey l.channel.metadata.totalDeposited
        = .ok leaves →
      leaves.length ≤ 2 ^ l.channel.metadata.treeDepth.toNat →
        ((∃ r l', Returns (constructSplitTree env leaves userKeypair providerKeypair) l r l') ↔
          (env.overflowChecks = true → l.channel.metadata.sequence.toNat + 1 < 2 ^ 64))) ∧
    (∀ leaves r l', Returns (constructSplitTree env leaves userKeypair providerKeypair) l r l' →
      (ExactSplit l.channel.metadata leaves ↔ leavesValue leaves < 2 ^ 64 ∧
        (l.channel.metadata.userPubkey = l.channel.metadata.providerPubkey →
          leavesValue leaves = 0))) := by
  refine ⟨fun _ _ _ _ h => (generates_generateLeaves h).2, fun strategy leaves hfunded h hfits => ?_,
    fun leaves r l' h => splits_exact_iff (constructSplitTree_returns.mp h).1⟩
  have hsplits := splits_of_generates hfunded (generates_generateLeaves h)
  obtain ⟨tree, htree⟩ := @exists_new env.sha _ _ hfits
  rw [← addU64_one_isSome_iff]
  constructor
  · rintro ⟨r, l', hreturns⟩
    obtain ⟨-, _, newSequence, -, hseq, -⟩ := constructSplitTree_returns.mp hreturns
    exact ⟨newSequence, hseq⟩
  · rintro ⟨newSequence, hseq⟩
    exact ⟨_, _, constructSplitTree_returns.mpr ⟨hsplits, tree, newSequence, htree, hseq, rfl, rfl⟩⟩

/-! ### A split that saturates -/

namespace Sample

def inMemory (s : Session) : Local := ⟨s.channel, s.db⟩

/-- The payer's deposit of all that a `u64` holds, and one more. -/
def overfull : List UTXOLeaf :=
  [.standard payer (UInt64.ofNat (2 ^ 64 - 1)), .standard payer 1]

theorem overfull_taken : (opened (UInt64.ofNat (2 ^ 64 - 1)) none).toOption.any fun s =>
    (constructSplitTree env overfull payerKeypair sellerKeypair).passes (inMemory s) fun _ => true := by
  decide

/-- One leaf of 4, and the rest. -/
def oneOfFour : DenominationStrategy := .uniform 1 4

theorem oneOfFour_fits : (opened 10 none).toOption.any fun s =>
    decide (UserFunded s.channel.metadata ∧
      oneOfFour.generateLeaves s.channel.metadata.userPubkey s.channel.metadata.totalDeposited
        = .ok [.standard payer 4, .standard payer 6] ∧ s.channel.metadata.treeDepth = 1) := by
  decide

end Sample

theorem split_overspends :
    ¬ ∀ (env : Env) (l : Local) (userKeypair providerKeypair : Keypair) (leaves : List UTXOLeaf)
      (r : SignedState) (l' : Local),
      Returns (constructSplitTree env leaves userKeypair providerKeypair) l r l' →
        ExactSplit l.channel.metadata leaves := by
  intro hall
  obtain ⟨s, -, htest⟩ := exists_of_any Sample.overfull_taken
  obtain ⟨r, l', hreturns, -⟩ := exists_of_passes htest
  have hexact := (hall _ _ _ _ _ r l' hreturns).2.2
  have hvalue : leavesValue Sample.overfull = 2 ^ 64 := by decide
  have hlt := (Sample.inMemory s).channel.metadata.totalDeposited.toNat_lt
  omega

/-- A deposit of 10 as a leaf of 4 and the rest. -/
theorem split_construction_iff_uniform : ∃ s, Sample.opened 10 none = .ok s ∧
    ∃ r l', Returns (constructSplitTree Sample.env [.standard Sample.payer 4, .standard Sample.payer 6]
      Sample.payerKeypair Sample.sellerKeypair) (Sample.inMemory s) r l' := by
  obtain ⟨s, hs, htest⟩ := exists_of_any Sample.oneOfFour_fits
  obtain ⟨hfunded, hgenerated, hdepth⟩ := of_decide_eq_true htest
  refine ⟨s, hs, ((split_construction_iff Sample.env (Sample.inMemory s) Sample.payerKeypair
    Sample.sellerKeypair).2.1 Sample.oneOfFour _ hfunded hgenerated ?_).mpr ?_⟩
  · show 2 ≤ 2 ^ s.channel.metadata.treeDepth.toNat
    rw [hdepth]
    decide
  · intro hchecks
    exact absurd hchecks (by decide)

end StateChannel
