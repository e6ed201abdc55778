/-
What the hubs of a route take, counted in two ways (`build_route` in `routing.rs`,
`compute_hop_amounts` in `multihop.rs`).

`compute_hop_amounts` goes back from the destination: each hop carries the amount of the next one
and a fee on that.  `build_route` goes forward: it adds up the fees on the destination's amount,
and asks each hub for the amount and the fees so far.  The first hub carries the most, and is
asked for the least.

* `computeHopAmounts_eq` — the amounts are the exact ones, where those fit;
* `covers_of_addHops` — what a route with sufficient liquidity is known to have;
* `liquidity_agrees_iff` — and that this covers the amounts exactly where the hubs between the
  first and the last charge nothing.
-/
import IgnitePay.StateChannel.Denominations
import IgnitePay.StateChannel.Routing

namespace StateChannel

open Bytes Machine Solana

/-- `compute_hop_amounts`, for the hops from some hop on: the last carries the full amount, and
each of the others a fee on top of what the next one carries. -/
def computeHopAmounts (destinationAmount : UInt64) : List UInt16 → Option (List UInt64)
  | [] => none
  | [_] => some [destinationAmount]
  | feeRate :: feeRate' :: feeRates => do
    let amounts ← computeHopAmounts destinationAmount (feeRate' :: feeRates)
    let downstream ← amounts.head?
    let product ← checkedMul downstream feeRate.toUInt64
    let amount ← checkedAdd downstream (product / 10000)
    return amount :: amounts

/-! ### The exact amounts -/

/-- A fee without a bound on numbers. -/
def exactFee (amount : ℕ) (feeRate : UInt16) : ℕ := amount * feeRate.toNat / 10000

/-- What the first of some hops carries. -/
def exactAmount (amount : ℕ) : List UInt16 → ℕ
  | [] => amount
  | [_] => amount
  | feeRate :: feeRate' :: feeRates =>
    exactAmount amount (feeRate' :: feeRates)
      + exactFee (exactAmount amount (feeRate' :: feeRates)) feeRate

/-- What each of them carries. -/
def exactAmounts (amount : ℕ) : List UInt16 → List ℕ
  | [] => []
  | [_] => [amount]
  | feeRate :: feeRate' :: feeRates =>
    exactAmount amount (feeRate :: feeRate' :: feeRates) :: exactAmounts amount (feeRate' :: feeRates)

/-- Some product or sum on the way does not fit in a `u64`. -/
def Overflows (amount : ℕ) : List UInt16 → Prop
  | [] => False
  | [_] => False
  | feeRate :: feeRate' :: feeRates =>
    Overflows amount (feeRate' :: feeRates) ∨
      2 ^ 64 ≤ exactAmount amount (feeRate' :: feeRates) * feeRate.toNat ∨
      2 ^ 64 ≤ exactAmount amount (feeRate :: feeRate' :: feeRates)

/-- The hubs between the first and the last charge nothing on the amount. -/
def FreeBetween (amount : ℕ) (feeRates : List UInt16) : Prop :=
  ∀ feeRate ∈ feeRates.tail.dropLast, exactFee amount feeRate = 0

instance (amount : ℕ) (feeRates : List UInt16) : Decidable (FreeBetween amount feeRates) :=
  List.decidableBAll (fun feeRate => exactFee amount feeRate = 0) feeRates.tail.dropLast

theorem exactFee_mono {amount amount' : ℕ} (h : amount ≤ amount') (feeRate : UInt16) :
    exactFee amount feeRate ≤ exactFee amount' feeRate :=
  Nat.div_le_div_right (Nat.mul_le_mul_right _ h)

theorem le_exactAmount (amount : ℕ) (feeRates : List UInt16) :
    amount ≤ exactAmount amount feeRates := by
  induction feeRates with
  | nil => exact le_refl _
  | cons feeRate feeRates ih =>
    cases feeRates with
    | nil => exact le_refl _
    | cons feeRate' feeRates =>
      rw [exactAmount]
      omega

/-- Hops that charge nothing carry the amount itself. -/
theorem exactAmount_eq_iff (amount : ℕ) (feeRates : List UInt16) :
    exactAmount amount feeRates = amount ↔ ∀ feeRate ∈ feeRates.dropLast, exactFee amount feeRate = 0 := by
  induction feeRates with
  | nil => exact iff_of_true rfl (by simp)
  | cons feeRate feeRates ih =>
    cases feeRates with
    | nil => exact iff_of_true rfl (by simp)
    | cons feeRate' feeRates =>
      have hdrop : (feeRate :: feeRate' :: feeRates).dropLast
          = feeRate :: (feeRate' :: feeRates).dropLast := rfl
      have hle := le_exactAmount amount (feeRate' :: feeRates)
      rw [exactAmount, hdrop, List.forall_mem_cons, ← ih]
      constructor
      · intro h
        have heq : exactAmount amount (feeRate' :: feeRates) = amount := by omega
        rw [heq] at h
        exact ⟨by omega, heq⟩
      · rintro ⟨hfree, heq⟩
        rw [heq, hfree, Nat.add_zero]

theorem head_exactAmounts (amount : ℕ) (feeRate : UInt16) (feeRates : List UInt16) :
    (exactAmounts amount (feeRate :: feeRates)).head? = some (exactAmount amount (feeRate :: feeRates)) := by
  cases feeRates with
  | nil => rfl
  | cons feeRate' feeRates => rfl

theorem length_exactAmounts (amount : ℕ) (feeRates : List UInt16) :
    (exactAmounts amount feeRates).length = feeRates.length := by
  induction feeRates with
  | nil => rfl
  | cons feeRate feeRates ih =>
    cases feeRates with
    | nil => rfl
    | cons feeRate' feeRates => rw [exactAmounts, List.length_cons, ih, ← List.length_cons]

theorem getLast_exactAmounts (amount : ℕ) {feeRates : List UInt16} (hne : feeRates ≠ []) :
    (exactAmounts amount feeRates).getLast? = some amount := by
  induction feeRates with
  | nil => exact absurd rfl hne
  | cons feeRate feeRates ih =>
    cases feeRates with
    | nil => rfl
    | cons feeRate' feeRates =>
      rw [exactAmounts, List.getLast?_cons, ih (List.cons_ne_nil _ _)]
      rfl

/-- Each hop carries the amount of the next one and a fee on that. -/
theorem step_exactAmounts {amount : ℕ} {feeRates : List UInt16} {i a b : ℕ} {feeRate : UInt16}
    (ha : (exactAmounts amount feeRates)[i]? = some a)
    (hb : (exactAmounts amount feeRates)[i + 1]? = some b) (hrate : feeRates[i]? = some feeRate) :
    a = b + exactFee b feeRate := by
  induction feeRates generalizing i with
  | nil => exact absurd hrate (by simp)
  | cons first feeRates ih =>
    cases feeRates with
    | nil => exact absurd hb (by simp [exactAmounts])
    | cons second feeRates =>
      rw [exactAmounts, List.getElem?_cons_succ] at hb
      cases i with
      | zero =>
        rw [← List.head?_eq_getElem?, head_exactAmounts] at hb
        obtain rfl := Option.some_inj.mp hb
        obtain rfl : first = feeRate := Option.some_inj.mp hrate
        exact (Option.some_inj.mp ha).symm
      | succ i => exact ih ha hb hrate

/-- Behind hubs that charge nothing, each hop carries the amount itself. -/
theorem exactAmounts_of_free {amount : ℕ} {feeRates : List UInt16}
    (hfree : ∀ feeRate ∈ feeRates.dropLast, exactFee amount feeRate = 0) :
    ∀ a ∈ exactAmounts amount feeRates, a = amount := by
  induction feeRates with
  | nil => exact fun a ha => absurd ha List.not_mem_nil
  | cons feeRate feeRates ih =>
    cases feeRates with
    | nil => exact fun a ha => List.mem_singleton.mp ha
    | cons feeRate' feeRates =>
      rw [exactAmounts]
      refine List.forall_mem_cons.mpr ⟨(exactAmount_eq_iff _ _).mpr hfree, ih fun rate hrate => ?_⟩
      exact hfree rate (List.mem_cons_of_mem _ hrate)

/-! ### The amounts that are computed -/

section

variable {amount : UInt64} {amounts : List UInt64} {feeRates : List UInt16}

theorem checkedMul_eq {a b : UInt64} (h : a.toNat * b.toNat < 2 ^ 64) :
    checkedMul a b = some (a * b) ∧ (a * b).toNat = a.toNat * b.toNat :=
  ⟨if_pos h, by rw [UInt64.toNat_mul, Nat.mod_eq_of_lt h]⟩

/-- One hop before those whose amounts are known. -/
theorem computeHopAmounts_cons {feeRate feeRate' : UInt16} {downstream : UInt64}
    (hrest : computeHopAmounts amount (feeRate' :: feeRates) = some amounts)
    (hhead : amounts.head? = some downstream) :
    computeHopAmounts amount (feeRate :: feeRate' :: feeRates) =
      ((checkedMul downstream feeRate.toUInt64).bind fun product =>
        (checkedAdd downstream (product / 10000)).map (· :: amounts)) := by
  rw [computeHopAmounts, hrest, Option.bind_eq_bind, Option.bind_some, hhead, Option.bind_eq_bind,
    Option.bind_some]
  rcases checkedMul downstream feeRate.toUInt64 with _ | product
  · rfl
  · rw [Option.bind_some, Option.bind_some]
    rcases checkedAdd downstream (product / 10000) with _ | first
    · rfl
    · rfl

/-- The amounts are the exact ones, where nothing overflows; else there are none. -/
theorem computeHopAmounts_eq (hne : feeRates ≠ []) :
    (Overflows amount.toNat feeRates → computeHopAmounts amount feeRates = none) ∧
    (¬ Overflows amount.toNat feeRates → ∃ amounts, computeHopAmounts amount feeRates = some amounts ∧
      amounts.map UInt64.toNat = exactAmounts amount.toNat feeRates) := by
  induction feeRates with
  | nil => exact absurd rfl hne
  | cons feeRate feeRates ih =>
    cases feeRates with
    | nil => exact ⟨fun h => h.elim, fun _ => ⟨[amount], rfl, rfl⟩⟩
    | cons feeRate' feeRates =>
      obtain ⟨hover, hfits⟩ := ih (List.cons_ne_nil _ _)
      by_cases hrest : Overflows amount.toNat (feeRate' :: feeRates)
      · have hnone : computeHopAmounts amount (feeRate :: feeRate' :: feeRates) = none := by
          rw [computeHopAmounts, hover hrest]
          rfl
        exact ⟨fun _ => hnone, fun h => absurd (.inl hrest) h⟩
      obtain ⟨amounts, hamounts, hexact⟩ := hfits hrest
      have hhead := head_exactAmounts amount.toNat feeRate' feeRates
      rw [← hexact, List.head?_map] at hhead
      obtain ⟨downstream, hdownstream, hd⟩ := Option.map_eq_some_iff.mp hhead
      have hfirst : exactAmount amount.toNat (feeRate :: feeRate' :: feeRates)
          = downstream.toNat + downstream.toNat * feeRate.toNat / 10000 := by
        rw [exactAmount, ← hd, exactFee]
      rw [Overflows, or_iff_right hrest, ← hd, hfirst, computeHopAmounts_cons hamounts hdownstream]
      by_cases hproduct : downstream.toNat * feeRate.toUInt64.toNat < 2 ^ 64
      · obtain ⟨hmul, hvalue⟩ := checkedMul_eq hproduct
        have hquotient : (downstream * feeRate.toUInt64 / 10000).toNat
            = downstream.toNat * feeRate.toNat / 10000 := by
          rw [UInt64.toNat_div, hvalue, UInt16.toNat_toUInt64]
          rfl
        rw [UInt16.toNat_toUInt64] at hproduct
        rw [hmul, Option.bind_some]
        by_cases hsum : downstream.toNat + (downstream * feeRate.toUInt64 / 10000).toNat < 2 ^ 64
        · obtain ⟨first, hfirst', hvalue'⟩ := exists_checkedAdd hsum
          rw [hfirst', Option.map_some]
          rw [hquotient] at hsum hvalue'
          refine ⟨fun h => absurd h (by omega), fun _ => ⟨_, rfl, ?_⟩⟩
          rw [exactAmounts, hfirst, List.map_cons, hvalue', hexact]
        · rw [checkedAdd, if_neg hsum]
          rw [hquotient] at hsum
          exact ⟨fun _ => rfl, fun h => absurd (.inr (not_lt.mp hsum)) h⟩
      · rw [checkedMul, if_neg hproduct]
        rw [UInt16.toNat_toUInt64] at hproduct
        exact ⟨fun _ => rfl, fun h => absurd (.inl (not_lt.mp hproduct)) h⟩

theorem toNat_head {amount : ℕ} {feeRate : UInt16} {first : UInt64}
    (hexact : amounts.map UInt64.toNat = exactAmounts amount (feeRate :: feeRates))
    (hfirst : amounts.head? = some first) : first.toNat = exactAmount amount (feeRate :: feeRates) := by
  have h := head_exactAmounts amount feeRate feeRates
  rw [← hexact, List.head?_map, hfirst] at h
  exact Option.some_inj.mp h

end

/-! ### What a route asks of its hubs -/

namespace RouteService

/-- The fee rates of the hubs of a path. -/
def feeRates (s : RouteService) (path : List (Bytes 32)) : List UInt16 :=
  path.filterMap fun didHash => (s.hubManager.getMetrics didHash).map HubMetrics.feeRateBps

/-- The same hubs with the same fee rates, whatever their liquidity. -/
structure SameFees (s s' : RouteService) : Prop where
  hubs_eq : s'.hubManager.hubs = s.hubManager.hubs
  rate_eq : ∀ didHash, (s'.hubManager.getMetrics didHash).map HubMetrics.feeRateBps
    = (s.hubManager.getMetrics didHash).map HubMetrics.feeRateBps

/-- Where a route has sufficient liquidity and the amounts of its hops can be computed, each hub has
what its hop carries, and the total fee covers what the first hop carries on top. -/
def LiquidityAgrees (s : RouteService) (path : List (Bytes 32)) (req : RouteRequest) : Prop :=
  ∀ route, s.buildRoute path req = some route → route.sufficientLiquidity →
    ∀ amounts, computeHopAmounts req.amount (s.feeRates path) = some amounts →
      (∀ (i : ℕ) (hop : RouteHop) (carried : UInt64), route.hops[i]? = some hop →
        amounts[i]? = some carried → carried ≤ hop.liquidity) ∧
      ∀ first, amounts.head? = some first →
        first.toNat - req.amount.toNat ≤ route.totalFee.toNat

section

variable {s s' : RouteService} {req : RouteRequest} {path : List (Bytes 32)} {didHash : Bytes 32}
  {hubs : HubManager} {amount : UInt64} {r r' : RouteSoFar}

theorem SameFees.registered (h : SameFees s s') (hreg : s.Registered didHash) :
    s'.Registered didHash := by
  refine ⟨?_, ?_⟩
  · rw [HubManager.getHub, h.hubs_eq]
    exact hreg.1
  · rw [← Option.isSome_map (f := HubMetrics.feeRateBps), h.rate_eq, Option.isSome_map]
    exact hreg.2

theorem SameFees.feeRates_eq (h : SameFees s s') (path : List (Bytes 32)) :
    s'.feeRates path = s.feeRates path := by
  rw [feeRates, feeRates, funext h.rate_eq]

theorem feeRates_cons {metrics : HubMetrics} (h : s.hubManager.getMetrics didHash = some metrics)
    (path : List (Bytes 32)) :
    s.feeRates (didHash :: path) = metrics.feeRateBps :: s.feeRates path :=
  List.filterMap_cons_some (by rw [h]; rfl)

theorem length_feeRates (hreg : ∀ didHash ∈ path, s.Registered didHash) :
    (s.feeRates path).length = path.length := by
  induction path with
  | nil => rfl
  | cons didHash path ih =>
    obtain ⟨hfirst, hpath⟩ := List.forall_mem_cons.mp hreg
    obtain ⟨metrics, hmetrics⟩ := Option.isSome_iff_exists.mp hfirst.2
    rw [feeRates_cons hmetrics, List.length_cons, ih hpath, List.length_cons]

/-- A round of the loop. -/
theorem addHops_cons (h : addHops hubs amount (didHash :: path) r = some r') : ∃ hop metrics,
    hubs.getMetrics didHash = some metrics ∧ hop.liquidity = metrics.availableLiquidity ∧
      addHops hubs amount path {
        hops := r.hops ++ [hop]
        totalFee := saturatingAdd r.totalFee (hubFee amount metrics.feeRateBps)
        maxLatencyMs := max r.maxLatencyMs metrics.avgLatencyMs
        sufficientLiquidity := r.sufficientLiquidity && ! decide (metrics.availableLiquidity <
          saturatingAdd amount (saturatingAdd r.totalFee (hubFee amount metrics.feeRateBps))) }
        = some r' := by
  obtain ⟨hub, hhub, h⟩ := Option.bind_eq_some_iff.mp h
  obtain ⟨metrics, hmetrics, h⟩ := Option.bind_eq_some_iff.mp h
  exact ⟨_, metrics, hmetrics, rfl, h⟩

/-- A hub with less than the amount and the fees so far makes the route insufficient. -/
theorem covered_of_round {before : Bool} {liquidity fees : UInt64}
    (h : (before && ! decide (liquidity < saturatingAdd amount fees)) = true) :
    before ∧ (saturatingAdd amount fees).toNat ≤ liquidity.toNat := by
  obtain ⟨hbefore, hcovered⟩ := Bool.and_eq_true_iff.mp h
  rw [Bool.not_eq_true', decide_eq_false_iff_not, UInt64.not_lt] at hcovered
  exact ⟨hbefore, UInt64.le_iff_toNat_le.mp hcovered⟩

/-- A route with sufficient liquidity has the amount at every hub that is added. -/
theorem covers_of_addHops (h : addHops hubs amount path r = some r') (hs : r'.sufficientLiquidity) :
    r.sufficientLiquidity ∧ r.totalFee.toNat ≤ r'.totalFee.toNat ∧
      ∃ added, r'.hops = r.hops ++ added ∧ ∀ hop ∈ added, amount.toNat ≤ hop.liquidity.toNat := by
  induction path generalizing r with
  | nil =>
    obtain rfl := Option.some_inj.mp h
    exact ⟨hs, le_refl _, [], by simp, by simp⟩
  | cons didHash path ih =>
    obtain ⟨hop, metrics, -, hliquidity, h⟩ := addHops_cons h
    obtain ⟨hround, hfee, added, hadded, hcovers⟩ := ih h
    obtain ⟨hbefore, hcovered⟩ := covered_of_round hround
    have hlt := amount.toNat_lt
    have hlt' := r.totalFee.toNat_lt
    rw [toNat_saturatingAdd] at hcovered
    refine ⟨hbefore, ?_, hop :: added, ?_, List.forall_mem_cons.mpr ⟨?_, hcovers⟩⟩
    · dsimp only at hfee
      rw [toNat_saturatingAdd] at hfee
      omega
    · rw [hadded, List.append_assoc, List.singleton_append]
    · rw [hliquidity]
      omega

/-- Hubs with the most liquidity there can be never make a route insufficient. -/
theorem sufficient_of_addHops (h : addHops hubs amount path r = some r')
    (hmax : ∀ didHash ∈ path, ∀ metrics, hubs.getMetrics didHash = some metrics →
      metrics.availableLiquidity.toNat = 2 ^ 64 - 1) :
    r'.sufficientLiquidity = r.sufficientLiquidity := by
  induction path generalizing r with
  | nil => rw [Option.some_inj.mp h]
  | cons didHash path ih =>
    obtain ⟨hfirst, hpath⟩ := List.forall_mem_cons.mp hmax
    obtain ⟨hop, metrics, hmetrics, -, h⟩ := addHops_cons h
    rw [ih h hpath]
    have hnot : ¬ metrics.availableLiquidity < saturatingAdd amount
        (saturatingAdd r.totalFee (hubFee amount metrics.feeRateBps)) := by
      rw [UInt64.lt_iff_toNat_lt, hfirst metrics hmetrics]
      have hlt := (saturatingAdd amount
        (saturatingAdd r.totalFee (hubFee amount metrics.feeRateBps))).toNat_lt
      omega
    dsimp only
    rw [decide_eq_false hnot, Bool.not_false, Bool.and_true]

theorem toNat_hubFee {feeRate : UInt16} (h : amount.toNat * feeRate.toNat < 2 ^ 64) :
    (hubFee amount feeRate).toNat = exactFee amount.toNat feeRate := by
  have hrate : feeRate.toUInt64.toNat = feeRate.toNat := UInt16.toNat_toUInt64 feeRate
  rw [hubFee, saturatingMul, if_pos (hrate.symm ▸ h), UInt64.toNat_div, UInt64.toNat_mul, hrate,
    Nat.mod_eq_of_lt h]
  rfl

/-- What the first hub of a route with sufficient liquidity has, and what the route costs. -/
theorem first_of_buildRoute {route : Route} (h : s.buildRoute (didHash :: path) req = some route)
    (hs : route.sufficientLiquidity) : ∃ hop metrics added,
      s.hubManager.getMetrics didHash = some metrics ∧ route.hops = hop :: added ∧
      hop.liquidity = metrics.availableLiquidity ∧
      (saturatingAdd req.amount (hubFee req.amount metrics.feeRateBps)).toNat ≤ hop.liquidity.toNat ∧
      (∀ hop ∈ added, req.amount.toNat ≤ hop.liquidity.toNat) ∧
      (hubFee req.amount metrics.feeRateBps).toNat ≤ route.totalFee.toNat := by
  obtain ⟨r, hr, h⟩ := Option.bind_eq_some_iff.mp h
  obtain rfl := Option.some_inj.mp h
  obtain ⟨hop, metrics, hmetrics, hliquidity, hr⟩ := addHops_cons hr
  obtain ⟨hround, hfee, added, hadded, hcovers⟩ := covers_of_addHops hr hs
  have hzero : saturatingAdd 0 (hubFee req.amount metrics.feeRateBps)
      = hubFee req.amount metrics.feeRateBps := by
    have hlt := (hubFee req.amount metrics.feeRateBps).toNat_lt
    have hnat : (0 : UInt64).toNat = 0 := rfl
    rw [← UInt64.toNat_inj, toNat_saturatingAdd, hnat]
    omega
  dsimp only at hround hfee hadded
  rw [hzero] at hround hfee
  exact ⟨hop, metrics, added, hmetrics, hadded, hliquidity, hliquidity ▸ (covered_of_round hround).2,
    hcovers, hfee⟩

/-- Where the hubs between charge nothing, the two counts agree. -/
theorem agrees_of_free (hfree : FreeBetween req.amount.toNat (s.feeRates path)) :
    s.LiquidityAgrees path req := by
  intro route hroute hs amounts hamounts
  cases path with
  | nil => exact absurd hamounts (by simp [feeRates, computeHopAmounts])
  | cons didHash path =>
    obtain ⟨hop, metrics, added, hmetrics, hhops, -, hfirst, hrest, hfee⟩ :=
      first_of_buildRoute hroute hs
    rw [feeRates_cons hmetrics] at hfree hamounts
    have hfits : ¬ Overflows req.amount.toNat (metrics.feeRateBps :: s.feeRates path) := by
      intro hover
      rw [(computeHopAmounts_eq (List.cons_ne_nil _ _)).1 hover] at hamounts
      exact absurd hamounts (by simp)
    obtain ⟨amounts', hamounts', hexact⟩ := (computeHopAmounts_eq (List.cons_ne_nil _ _)).2 hfits
    obtain rfl := Option.some_inj.mp (hamounts.symm.trans hamounts')
    -- The first hop carries at most the amount and the first fee, the others the amount.
    have hcarried : exactAmount req.amount.toNat (metrics.feeRateBps :: s.feeRates path)
          ≤ (saturatingAdd req.amount (hubFee req.amount metrics.feeRateBps)).toNat ∧
        exactAmount req.amount.toNat (metrics.feeRateBps :: s.feeRates path) - req.amount.toNat
          ≤ (hubFee req.amount metrics.feeRateBps).toNat ∧
        ∀ a ∈ (exactAmounts req.amount.toNat (metrics.feeRateBps :: s.feeRates path)).tail,
          a = req.amount.toNat := by
      have hlt := req.amount.toNat_lt
      rw [toNat_saturatingAdd]
      rcases hrates : s.feeRates path with _ | ⟨rate, rates⟩
      · refine ⟨?_, ?_, by simp [exactAmounts]⟩
        · rw [exactAmount]
          omega
        · rw [exactAmount]
          omega
      · rw [hrates] at hfree hfits
        have hsame := (exactAmount_eq_iff req.amount.toNat (rate :: rates)).mpr hfree
        obtain ⟨-, hproduct, hsum⟩ : ¬ Overflows req.amount.toNat (rate :: rates) ∧
            ¬ 2 ^ 64 ≤ exactAmount req.amount.toNat (rate :: rates) * metrics.feeRateBps.toNat ∧
            ¬ 2 ^ 64 ≤ exactAmount req.amount.toNat (metrics.feeRateBps :: rate :: rates) := by
          rw [Overflows] at hfits
          tauto
        rw [hsame] at hproduct
        rw [exactAmount, hsame] at hsum ⊢
        rw [toNat_hubFee (not_le.mp hproduct)]
        exact ⟨by omega, by omega, exactAmounts_of_free hfree⟩
    obtain ⟨hone, htotal, htail⟩ := hcarried
    have hhead := fun first => @toNat_head amounts (s.feeRates path) req.amount.toNat metrics.feeRateBps
      first hexact
    constructor
    · intro i hop' carried hhop hcarries
      rw [UInt64.le_iff_toNat_le]
      rw [hhops] at hhop
      cases i with
      | zero =>
        obtain rfl := Option.some_inj.mp hhop
        rw [hhead carried (List.head?_eq_getElem? ▸ hcarries)]
        omega
      | succ i =>
        have hmem : carried.toNat ∈ (exactAmounts req.amount.toNat
            (metrics.feeRateBps :: s.feeRates path)).tail := by
          rw [← hexact, ← List.map_tail]
          refine List.mem_map_of_mem (List.mem_of_getElem? (i := i) ?_)
          rw [List.getElem?_tail]
          exact hcarries
        rw [htail _ hmem]
        exact hrest hop' (List.mem_of_getElem? hhop)
    · intro first hfirst
      rw [hhead first hfirst]
      omega

/-! ### Liquidity that is just enough for the check -/

/-- The first hub has the amount and its fee on it, and all others the most there can be. -/
def withLeast (s : RouteService) (didHash : Bytes 32) (metrics : HubMetrics) (amount : UInt64) :
    RouteService :=
  { s with
    hubManager := { s.hubManager with
      metrics := (Store.mapValues
          (fun m => { m with availableLiquidity := UInt64.ofNat (2 ^ 64 - 1) })
          s.hubManager.metrics).insert didHash
        { metrics with availableLiquidity := saturatingAdd amount (hubFee amount metrics.feeRateBps) } } }

theorem getMetrics_withLeast (metrics : HubMetrics) (d : Bytes 32) :
    (s.withLeast didHash metrics amount).hubManager.getMetrics d
      = if d = didHash then some { metrics with
            availableLiquidity := saturatingAdd amount (hubFee amount metrics.feeRateBps) }
        else (s.hubManager.getMetrics d).map fun m =>
          { m with availableLiquidity := UInt64.ofNat (2 ^ 64 - 1) } := by
  rw [HubManager.getMetrics, withLeast, Store.lookup_insert_eq, Store.lookup_mapValues]
  rfl

theorem sameFees_withLeast {metrics : HubMetrics}
    (hmetrics : s.hubManager.getMetrics didHash = some metrics) :
    SameFees s (s.withLeast didHash metrics amount) := by
  refine ⟨rfl, fun d => ?_⟩
  rw [getMetrics_withLeast]
  split
  · next heq =>
    rw [heq, hmetrics]
    rfl
  · rw [Option.map_map]
    rfl

/-- The route over it has sufficient liquidity. -/
theorem sufficient_withLeast {metrics : HubMetrics} {route : Route} (hfresh : didHash ∉ path)
    (h : (s.withLeast didHash metrics req.amount).buildRoute (didHash :: path) req = some route) :
    route.sufficientLiquidity := by
  obtain ⟨r, hr, h⟩ := Option.bind_eq_some_iff.mp h
  obtain rfl := Option.some_inj.mp h
  obtain ⟨hop, metrics', hmetrics', -, hr⟩ := addHops_cons hr
  rw [getMetrics_withLeast, if_pos rfl] at hmetrics'
  obtain rfl := Option.some_inj.mp hmetrics'
  have hzero : saturatingAdd 0 (hubFee req.amount metrics.feeRateBps)
      = hubFee req.amount metrics.feeRateBps := by
    have hlt := (hubFee req.amount metrics.feeRateBps).toNat_lt
    have hnat : (0 : UInt64).toNat = 0 := rfl
    rw [← UInt64.toNat_inj, toNat_saturatingAdd, hnat]
    omega
  have hsame := sufficient_of_addHops hr fun d hd m hm => by
    rw [getMetrics_withLeast, if_neg (ne_of_mem_of_not_mem hd hfresh)] at hm
    obtain ⟨m', -, rfl⟩ := Option.map_eq_some_iff.mp hm
    rfl
  dsimp only at hsame ⊢
  rw [hsame, hzero]
  simp

/-- Where the first hop carries more than the amount and the first fee, that is too little. -/
theorem free_of_agrees {metrics : HubMetrics} (hmetrics : s.hubManager.getMetrics didHash = some metrics)
    (hfresh : didHash ∉ path) (hreg : ∀ d ∈ didHash :: path, s.Registered d)
    (hfits : ¬ Overflows req.amount.toNat (s.feeRates (didHash :: path)))
    (hagrees : (s.withLeast didHash metrics req.amount).LiquidityAgrees (didHash :: path) req) :
    FreeBetween req.amount.toNat (s.feeRates (didHash :: path)) := by
  have hfees : SameFees s (s.withLeast didHash metrics req.amount) := sameFees_withLeast hmetrics
  obtain ⟨route, hroute⟩ := exists_buildRoute (fun d hd => hfees.registered (hreg d hd)) req
  have hs := sufficient_withLeast hfresh hroute
  obtain ⟨amounts, hamounts, hexact⟩ := (computeHopAmounts_eq (by
    rw [feeRates_cons hmetrics]
    exact List.cons_ne_nil _ _)).2 hfits
  obtain ⟨hcarries, -⟩ := hagrees route hroute hs amounts (hfees.feeRates_eq _ ▸ hamounts)
  obtain ⟨hop, metrics', added, hmetrics', hhops, hliquidity, -⟩ := first_of_buildRoute hroute hs
  rw [getMetrics_withLeast, if_pos rfl] at hmetrics'
  obtain rfl := Option.some_inj.mp hmetrics'
  rw [feeRates_cons hmetrics] at hexact hfits ⊢
  rcases hrates : s.feeRates path with _ | ⟨rate, rates⟩
  · exact fun feeRate hfeeRate => absurd hfeeRate List.not_mem_nil
  rw [hrates] at hexact hfits
  obtain ⟨first, hfirst⟩ : ∃ first, amounts.head? = some first := by
    have h := head_exactAmounts req.amount.toNat metrics.feeRateBps (rate :: rates)
    rw [← hexact, List.head?_map] at h
    obtain ⟨first, hfirst, -⟩ := Option.map_eq_some_iff.mp h
    exact ⟨first, hfirst⟩
  have hle := UInt64.le_iff_toNat_le.mp (hcarries 0 hop first (by rw [hhops]; rfl)
    (List.head?_eq_getElem? ▸ hfirst))
  have hproduct : ¬ 2 ^ 64 ≤ exactAmount req.amount.toNat (rate :: rates)
      * metrics.feeRateBps.toNat := by
    rw [Overflows] at hfits
    tauto
  have hmore := le_exactAmount req.amount.toNat (rate :: rates)
  have hsmall : req.amount.toNat * metrics.feeRateBps.toNat < 2 ^ 64 :=
    lt_of_le_of_lt (Nat.mul_le_mul_right _ hmore) (not_le.mp hproduct)
  have hmono := exactFee_mono hmore metrics.feeRateBps
  rw [toNat_head hexact hfirst, hliquidity, toNat_saturatingAdd, toNat_hubFee hsmall, exactAmount]
    at hle
  exact (exactAmount_eq_iff req.amount.toNat (rate :: rates)).mp (by omega)

/-- A route over registered hubs, none of them twice.  The amounts of its hops are none where a
product or a sum overflows, and otherwise each is the next and its fee; and in all routes over hubs
with these fee rates, sufficient liquidity covers the amounts, exactly where they overflow or the
hubs between the first and the last charge nothing on the amount. -/
theorem liquidity_agrees_iff (s : RouteService) (req : RouteRequest) (path : List (Bytes 32))
    (hne : path ≠ []) (hnodup : path.Nodup) (hreg : ∀ didHash ∈ path, s.Registered didHash) :
    (computeHopAmounts req.amount (s.feeRates path) = none ↔
      Overflows req.amount.toNat (s.feeRates path)) ∧
    (∀ amounts, computeHopAmounts req.amount (s.feeRates path) = some amounts →
      amounts.length = path.length ∧ amounts.getLast? = some req.amount ∧
      ∀ (i : ℕ) (a b : UInt64) (feeRate : UInt16), amounts[i]? = some a → amounts[i + 1]? = some b →
        (s.feeRates path)[i]? = some feeRate →
          a.toNat = b.toNat + b.toNat * feeRate.toNat / 10000) ∧
    ((∀ s', SameFees s s' → s'.LiquidityAgrees path req) ↔
      Overflows req.amount.toNat (s.feeRates path) ∨
        FreeBetween req.amount.toNat (s.feeRates path)) := by
  obtain ⟨didHash, path, rfl⟩ := List.exists_cons_of_ne_nil hne
  obtain ⟨metrics, hmetrics⟩ := Option.isSome_iff_exists.mp (hreg didHash List.mem_cons_self).2
  have hrates : s.feeRates (didHash :: path) ≠ [] := by
    rw [feeRates_cons hmetrics]
    exact List.cons_ne_nil _ _
  obtain ⟨hover, hfits⟩ := @computeHopAmounts_eq req.amount (s.feeRates (didHash :: path)) hrates
  refine ⟨⟨fun hnone => ?_, hover⟩, fun amounts hamounts => ?_, fun hall => ?_, ?_⟩
  · by_contra hno
    obtain ⟨amounts, hamounts, -⟩ := hfits hno
    rw [hamounts] at hnone
    exact absurd hnone (by simp)
  · have hno : ¬ Overflows req.amount.toNat (s.feeRates (didHash :: path)) := fun hoverflows => by
      rw [hover hoverflows] at hamounts
      exact absurd hamounts (by simp)
    obtain ⟨amounts', hamounts', hexact⟩ := hfits hno
    obtain rfl := Option.some_inj.mp (hamounts.symm.trans hamounts')
    refine ⟨?_, ?_, fun i a b feeRate ha hb hrate => ?_⟩
    · rw [← length_feeRates hreg, ← length_exactAmounts req.amount.toNat, ← hexact, List.length_map]
    · have hlast := getLast_exactAmounts req.amount.toNat hrates
      rw [← hexact, List.getLast?_map] at hlast
      obtain ⟨last, hlast, heq⟩ := Option.map_eq_some_iff.mp hlast
      rw [hlast, UInt64.toNat_inj.mp heq]
    · refine @step_exactAmounts req.amount.toNat _ i _ _ feeRate ?_ ?_ hrate
      · rw [← hexact, List.getElem?_map, ha]
        rfl
      · rw [← hexact, List.getElem?_map, hb]
        rfl
  · refine or_iff_not_imp_left.mpr fun hno => ?_
    exact free_of_agrees hmetrics (List.nodup_cons.mp hnodup).1 hreg hno
      (hall _ (sameFees_withLeast hmetrics))
  · rintro (hoverflows | hfree) s' hfees
    · intro route _ _ amounts hamounts
      rw [hfees.feeRates_eq, hover hoverflows] at hamounts
      exact absurd hamounts (by simp)
    · refine agrees_of_free ?_
      rw [hfees.feeRates_eq]
      exact hfree

end

end RouteService

/-! ### Three hubs that charge a tenth -/

namespace Sample

/-- The middle hub charges a fee of `middle` basis points, the two others a tenth; the first hub has
what `build_route` asks of it for an amount of 1000. -/
def tenths (middle : UInt16) : RouteService where
  hubManager := {
    hubs := triangle.hubManager.hubs
    metrics := ((triangle.hubManager.metrics.insert (hub 1) ⟨9900, 20, 1100, 1000⟩).insert (hub 2)
      ⟨9900, 20, 5000, middle⟩).insert (hub 3) ⟨9900, 20, 5000, 1000⟩ }
  channelGraph := triangle.channelGraph

def thousand : RouteRequest := { overTwo with amount := 1000 }

def overAll : List (Bytes 32) := [hub 1, hub 2, hub 3]

end Sample

/-- The route has sufficient liquidity, and the first hub has 1100 of the 1210 that it carries. -/
theorem first_hub_short : ¬ (Sample.tenths 1000).LiquidityAgrees Sample.overAll Sample.thousand := by
  intro hagrees
  have htest : ((Sample.tenths 1000).buildRoute Sample.overAll Sample.thousand).any fun route =>
      route.sufficientLiquidity && (route.hops.head?.any fun hop => hop.liquidity = 1100) := by
    decide
  obtain ⟨route, hroute, htest⟩ := (Option.any_eq_true _ _).mp htest
  obtain ⟨hs, hhop⟩ := Bool.and_eq_true_iff.mp htest
  obtain ⟨hop, hhop, hliquidity⟩ := (Option.any_eq_true _ _).mp hhop
  have hliquidity := of_decide_eq_true hliquidity
  obtain ⟨hcarries, -⟩ := hagrees route hroute hs [1210, 1100, 1000] (by decide)
  have hle := hcarries 0 hop 1210 (List.head?_eq_getElem? ▸ hhop) rfl
  rw [hliquidity] at hle
  exact absurd hle (by decide)

/-- With a middle hub that charges nothing, it has what it carries. -/
theorem first_hub_covered :
    ((Sample.tenths 0).buildRoute Sample.overAll Sample.thousand).any Route.sufficientLiquidity ∧
      (Sample.tenths 0).LiquidityAgrees Sample.overAll Sample.thousand := by
  obtain ⟨-, -, hiff⟩ := RouteService.liquidity_agrees_iff (Sample.tenths 0) Sample.thousand
    Sample.overAll (by decide) (by decide) (by decide)
  exact ⟨by decide, hiff.mpr (.inr (by decide)) _ ⟨rfl, fun _ => rfl⟩⟩

end StateChannel
