/-
The timelocks of a payment over several hops (`create_payment` in `multihop.rs`, `create_htlc` in
`pipeline.rs`).

Hop `i` gets `base - i * HOP_MARGIN`, where the base leaves `3 * HOP_MARGIN` after the challenge
of the last hop.  All sums saturate.  Once the base does, it is short of what the hops take off
it, and the last of them can fall below the end of the challenge.

* `toNat_baseTimelock`, `toNat_timelockSlot` — the timelocks as numbers;
* `createHtlc_accepts` — the margin that `create_htlc` asks for;
* `timelocks_leave_time` — what the hops of a payment have between them, and after the challenge.
-/
import IgnitePay.StateChannel.MultiHop
import IgnitePay.StateChannel.Pipeline

namespace StateChannel

open Bytes Machine Solana

section

variable {env : Env} {hops : List HopMetadata} {currentSlot challengeDuration : UInt64}
  {random hashLock preimage : Bytes 32} {m m' : MultiHopManager} {payment : MultiHopPayment}

/-! ### Timelocks as numbers -/

theorem toNat_hopMargin : hopMargin.toNat = 1000 := rfl

theorem toNat_minTimelock (challengeDuration : UInt64) :
    (minTimelock challengeDuration).toNat = min (challengeDuration.toNat + 3000) (2 ^ 64 - 1) := by
  have hmargin : (3 * hopMargin).toNat = 3000 := rfl
  rw [minTimelock, toNat_saturatingAdd, hmargin]

theorem toNat_times_hopMargin {n : ℕ} (h : n * 1000 < 2 ^ 64) :
    (UInt64.ofNat n * hopMargin).toNat = n * 1000 := by
  rw [UInt64.toNat_mul, toNat_hopMargin, UInt64.toNat_ofNat']
  have hn : n % 2 ^ 64 = n := Nat.mod_eq_of_lt (by omega)
  rw [hn]
  exact Nat.mod_eq_of_lt h

theorem toNat_baseTimelock {n : ℕ} (h : (n - 1) * 1000 < 2 ^ 64)
    (currentSlot challengeDuration : UInt64) :
    (MultiHopPayment.baseTimelock n currentSlot challengeDuration).toNat
      = min (currentSlot.toNat + challengeDuration.toNat + 3000 + (n - 1) * 1000) (2 ^ 64 - 1) := by
  rw [MultiHopPayment.baseTimelock, toNat_saturatingAdd, toNat_saturatingAdd, toNat_minTimelock,
    toNat_times_hopMargin h]
  omega

/-- The hops of a payment, by their index. -/
theorem getElem?_hops (h : Returns (MultiHopManager.createPayment random hashLock preimage hops
      currentSlot challengeDuration) m payment m') (i : ℕ) : payment.hops[i]?
    = hops[i]?.map fun hop => MultiHopPayment.entry hashLock
        (MultiHopPayment.baseTimelock hops.length currentSlot challengeDuration) hop i := by
  simp only [MultiHopManager.createPayment, returns_check_bind, MultiHopManager.persistPayment,
    returns_modify_bind, returns_pure] at h
  obtain ⟨-, rfl, -⟩ := h
  rw [List.getElem?_map, List.getElem?_zipIdx, Option.map_map]
  simp [Function.comp_def]

/-- The timelock of the hop at an index. -/
theorem toNat_timelockSlot (h : Returns (MultiHopManager.createPayment random hashLock preimage hops
      currentSlot challengeDuration) m payment m') (hfits : (hops.length - 1) * 1000 < 2 ^ 64) {i : ℕ}
    {hop : MultiHopEntry} (hhop : payment.hops[i]? = some hop) : i < hops.length ∧
      hop.timelockSlot.toNat = min (currentSlot.toNat + challengeDuration.toNat + 3000
        + (hops.length - 1) * 1000) (2 ^ 64 - 1) - i * 1000 := by
  rw [getElem?_hops h] at hhop
  obtain ⟨metadata, hmetadata, rfl⟩ := Option.map_eq_some_iff.mp hhop
  have hi := (List.getElem?_eq_some_iff.mp hmetadata).1
  have hmargin : i * 1000 < 2 ^ 64 :=
    lt_of_le_of_lt (Nat.mul_le_mul_right 1000 (Nat.le_pred_of_lt hi)) hfits
  refine ⟨hi, ?_⟩
  show (saturatingSub _ _).toNat = _
  rw [toNat_saturatingSub, toNat_baseTimelock hfits, toNat_times_hopMargin hmargin]

theorem length_hops (h : Returns (MultiHopManager.createPayment random hashLock preimage hops
      currentSlot challengeDuration) m payment m') : payment.hops.length = hops.length := by
  simp only [MultiHopManager.createPayment, returns_check_bind, MultiHopManager.persistPayment,
    returns_modify_bind, returns_pure] at h
  obtain ⟨-, rfl, -⟩ := h
  simp

theorem exists_createPayment (hne : hops ≠ []) : ∃ payment m',
    Returns (MultiHopManager.createPayment random hashLock preimage hops currentSlot
      challengeDuration) m payment m' := by
  simp only [MultiHopManager.createPayment, returns_check_bind, MultiHopManager.persistPayment,
    returns_modify_bind, returns_pure]
  exact ⟨_, _, fun hzero => hne (List.length_eq_zero_iff.mp hzero), rfl, rfl⟩

/-! ### What `create_htlc` accepts -/

/-- A leaf with an amount can be locked until any slot past the challenge and the safety margin. -/
theorem createHtlc_accepts {p : Pipeline} {index : ℕ} {leaf : UTXOLeaf} {timelockSlot : UInt64}
    (htree : IsTree env.sha p.tree) (hleaf : p.tree.getLeaf index = some leaf)
    (hfilled : leaf.amount ≠ 0)
    (hlater : currentSlot.toNat + challengeDuration.toNat + 1000 < timelockSlot.toNat)
    (hashLock : Bytes 32) (beneficiary : Pubkey) : ∃ p',
      Returns (Pipeline.createHtlc env index hashLock timelockSlot beneficiary currentSlot
        challengeDuration) p () p' := by
  have hmargin : htlcSafetyMargin.toNat = 1000 := rfl
  have hlate : ¬ timelockSlot ≤
      saturatingAdd (saturatingAdd currentSlot challengeDuration) htlcSafetyMargin := by
    rw [UInt64.le_iff_toNat_le, toNat_saturatingAdd, toNat_saturatingAdd, hmargin]
    omega
  have hdoes : (Move.createHtlc index hashLock timelockSlot beneficiary currentSlot
      challengeDuration).Does env p.tree _ := .createHtlc hleaf hfilled hlate
  obtain ⟨p', hrecords⟩ := Pipeline.exists_records htree hdoes.index_lt
  exact ⟨p', Move.returns_iff.mpr ⟨_, hdoes, hrecords⟩⟩

/-! ### The time between the hops -/

/-- The timelocks fall by `HOP_MARGIN` from hop to hop. -/
def FallsByMargin (hops : List MultiHopEntry) : Prop :=
  ∀ (i : ℕ) (hop next : MultiHopEntry), hops[i]? = some hop → hops[i + 1]? = some next →
    hop.timelockSlot.toNat = next.timelockSlot.toNat + 1000

/-- They do not rise. -/
def NeverRises (hops : List MultiHopEntry) : Prop :=
  ∀ (i j : ℕ) (hop later : MultiHopEntry), i ≤ j → hops[i]? = some hop → hops[j]? = some later →
    later.timelockSlot ≤ hop.timelockSlot

/-- No hop expires before the challenge has ended. -/
def AfterChallenge (currentSlot challengeDuration : UInt64) (hops : List MultiHopEntry) : Prop :=
  ∀ hop ∈ hops, currentSlot.toNat + challengeDuration.toNat ≤ hop.timelockSlot.toNat

/-- `create_htlc` locks any leaf with an amount until the hop's timelock. -/
def Accepted (env : Env) (currentSlot challengeDuration : UInt64) (hop : MultiHopEntry) : Prop :=
  ∀ (p : Pipeline) index leaf, IsTree env.sha p.tree → p.tree.getLeaf index = some leaf →
    leaf.amount ≠ 0 → ∃ p', Returns (Pipeline.createHtlc env index hop.hashLock hop.timelockSlot
      hop.beneficiary currentSlot challengeDuration) p () p'

/-- The base timelock is not cut off at the largest `u64`. -/
def BaseFits (hops : ℕ) (currentSlot challengeDuration : UInt64) : Prop :=
  currentSlot.toNat + challengeDuration.toNat + 3 * 1000 + (hops - 1) * 1000 < 2 ^ 64

/-- A payment can be created over any hops.  Where the base timelock fits, each of its hops has a
margin before the next, the last three after the challenge, and `create_htlc` accepts them all.
In any case the timelocks do not rise, and they stay after the challenge exactly while the margins
that come off the base fit on top of it. -/
theorem timelocks_leave_time (env : Env) (m : MultiHopManager) (random hashLock preimage : Bytes 32)
    (hopsMetadata : List HopMetadata) (currentSlot challengeDuration : UInt64)
    (hne : hopsMetadata ≠ []) (hfits : (hopsMetadata.length - 1) * 1000 < 2 ^ 64) :
    ∃ payment m', Returns (MultiHopManager.createPayment random hashLock preimage hopsMetadata
        currentSlot challengeDuration) m payment m' ∧
      payment.hops.length = hopsMetadata.length ∧
      (BaseFits hopsMetadata.length currentSlot challengeDuration →
        FallsByMargin payment.hops ∧
        (∀ last, payment.hops.getLast? = some last →
          currentSlot.toNat + challengeDuration.toNat + 3 * 1000 ≤ last.timelockSlot.toNat) ∧
        ∀ hop ∈ payment.hops, Accepted env currentSlot challengeDuration hop) ∧
      NeverRises payment.hops ∧
      (currentSlot.toNat + challengeDuration.toNat < 2 ^ 64 →
        (AfterChallenge currentSlot challengeDuration payment.hops ↔
          currentSlot.toNat + challengeDuration.toNat + (hopsMetadata.length - 1) * 1000
            < 2 ^ 64)) := by
  obtain ⟨payment, m', h⟩ : ∃ payment m', Returns (MultiHopManager.createPayment random hashLock
    preimage hopsMetadata currentSlot challengeDuration) m payment m' := exists_createPayment hne
  have hlength := length_hops h
  have hpos : 0 < hopsMetadata.length := List.length_pos_of_ne_nil hne
  have htimelock : ∀ {i : ℕ} {hop : MultiHopEntry}, payment.hops[i]? = some hop →
      i < hopsMetadata.length ∧ hop.timelockSlot.toNat = min (currentSlot.toNat
        + challengeDuration.toNat + 3000 + (hopsMetadata.length - 1) * 1000) (2 ^ 64 - 1) - i * 1000 :=
    fun hhop => toNat_timelockSlot h hfits hhop
  refine ⟨payment, m', h, hlength, fun hbase => ⟨?_, ?_, ?_⟩, ?_, fun hchallenge => ?_⟩
  · intro i hop next hhop hnext
    rw [BaseFits] at hbase
    obtain ⟨-, ht⟩ := htimelock hhop
    obtain ⟨hi, hn⟩ := htimelock hnext
    omega
  · intro last hlast
    rw [BaseFits] at hbase
    rw [List.getLast?_eq_getElem?, hlength] at hlast
    obtain ⟨-, ht⟩ := htimelock hlast
    omega
  · intro hop hmem p index leaf htree hleaf hfilled
    rw [BaseFits] at hbase
    obtain ⟨i, hhop⟩ := List.getElem?_of_mem hmem
    obtain ⟨hi, ht⟩ := htimelock hhop
    exact createHtlc_accepts htree hleaf hfilled (by omega) _ _
  · intro i j hop later hij hhop hlater
    obtain ⟨-, ht⟩ := htimelock hhop
    obtain ⟨-, hl⟩ := htimelock hlater
    rw [UInt64.le_iff_toNat_le]
    omega
  · constructor
    · -- The last hop is the one that the margins push down the most.
      intro hafter
      have hlast : hopsMetadata.length - 1 < payment.hops.length := by omega
      have hhop := List.getElem?_eq_getElem hlast
      obtain ⟨-, ht⟩ := htimelock hhop
      have hle := hafter _ (List.mem_of_getElem? hhop)
      omega
    · intro hmargins hop hmem
      obtain ⟨i, hhop⟩ := List.getElem?_of_mem hmem
      obtain ⟨hi, ht⟩ := htimelock hhop
      omega

/-- So many hops that the product of their number and the margin wraps: the last timelock is above
the second one. -/
theorem rises_of_wrapped {n : ℕ} (hn : n = 18446744073709553) {hop : HopMetadata}
    (h : Returns (MultiHopManager.createPayment random hashLock preimage (List.replicate n hop) 0 0)
      m payment m') : ¬ NeverRises payment.hops := by
  have hentry : ∀ i, i < n → payment.hops[i]? = some (MultiHopPayment.entry hashLock
      (MultiHopPayment.baseTimelock n 0 0) hop i) := by
    intro i hi
    rw [getElem?_hops h, List.getElem?_replicate_of_lt hi, List.length_replicate, Option.map_some]
  have hfirst : (1 : ℕ) < n := by omega
  have hlast : 18446744073709552 < n := by omega
  intro hnever
  subst hn
  have hle : saturatingSub (MultiHopPayment.baseTimelock 18446744073709553 0 0)
        (UInt64.ofNat 18446744073709552 * hopMargin)
      ≤ saturatingSub (MultiHopPayment.baseTimelock 18446744073709553 0 0)
        (UInt64.ofNat 1 * hopMargin) :=
    hnever 1 18446744073709552 _ _ (by omega) (hentry _ hfirst) (hentry _ hlast)
  exact absurd hle (by decide)

end

/-! ### The end of the range, and its middle -/

namespace Sample

/-- A hub between the payer and the seller. -/
def hubHop : HopMetadata := ⟨payer, fill 32 5, 11, 0, fill 32 7⟩

end Sample

/-- Eleven slots before the last one, the second of two hops expires before a challenge of no length
has ended; and over as many hops as make the product wrap, the timelocks rise. -/
theorem timelocks_out_of_range :
    (∃ payment m', Returns (MultiHopManager.createPayment (fill 32 9)
        (Sample.env.sha Sample.preimage.val) Sample.preimage Sample.hubHops 18446744073709551605 0)
        Sample.noPayments payment m' ∧
      (18446744073709551605 : UInt64).toNat + (0 : UInt64).toNat < 2 ^ 64 ∧
      ¬ AfterChallenge 18446744073709551605 0 payment.hops) ∧
    ∃ payment m', Returns (MultiHopManager.createPayment (fill 32 9)
        (Sample.env.sha Sample.preimage.val) Sample.preimage
        (List.replicate 18446744073709553 Sample.hubHop) 0 0) Sample.noPayments payment m' ∧
      ¬ NeverRises payment.hops := by
  constructor
  · obtain ⟨payment, m', h⟩ : ∃ payment m', Returns (MultiHopManager.createPayment (fill 32 9)
        (Sample.env.sha Sample.preimage.val) Sample.preimage Sample.hubHops 18446744073709551605 0)
        Sample.noPayments payment m' := exists_createPayment (by simp [Sample.hubHops])
    refine ⟨payment, m', h, by decide, fun hafter => ?_⟩
    have hone : 1 < payment.hops.length := (length_hops h).symm ▸ (by decide)
    have hhop := List.getElem?_eq_getElem hone
    obtain ⟨-, ht⟩ := toNat_timelockSlot h (by decide) hhop
    have hle := hafter _ (List.mem_of_getElem? hhop)
    rw [ht] at hle
    exact absurd hle (by decide)
  · obtain ⟨payment, m', h⟩ : ∃ payment m', Returns (MultiHopManager.createPayment (fill 32 9)
        (Sample.env.sha Sample.preimage.val) Sample.preimage
        (List.replicate 18446744073709553 Sample.hubHop) 0 0) Sample.noPayments payment m' :=
      exists_createPayment (List.ne_nil_of_length_eq_add_one List.length_replicate)
    exact ⟨payment, m', h, rises_of_wrapped rfl h⟩

/-- The payment over the hub: a margin between its two hops, and three after the challenge. -/
theorem hub_leaves_time : ∃ payment m', Returns (MultiHopManager.createPayment (fill 32 9)
      (Sample.env.sha Sample.preimage.val) Sample.preimage Sample.hubHops 1000 500)
      Sample.noPayments payment m' ∧
    FallsByMargin payment.hops ∧ (∀ hop ∈ payment.hops, Accepted Sample.env 1000 500 hop) ∧
    AfterChallenge 1000 500 payment.hops := by
  obtain ⟨payment, m', h, -, hbase, -, hafter⟩ := timelocks_leave_time Sample.env Sample.noPayments
    (fill 32 9) (Sample.env.sha Sample.preimage.val) Sample.preimage Sample.hubHops 1000 500
    (by simp [Sample.hubHops]) (by decide)
  obtain ⟨hfalls, -, haccepted⟩ := hbase (by rw [BaseFits]; decide)
  exact ⟨payment, m', h, hfalls, haccepted, (hafter (by decide)).mpr (by decide)⟩

end StateChannel
