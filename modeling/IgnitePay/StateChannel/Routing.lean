/-
Routes over hubs (`routing.rs`).

`discover_routes` searches the channel graph depth first.  It keeps the path to the hub that it
is at and the set of the hubs on it, and takes both back when it leaves the hub; a path that has
come to the destination is made into a route.

The search recurses here on fuel, and gives nothing where that runs out.

* `dfsRoutes_eq` — a call adds a route for each simple path on from its hub, in the order of the
  enumeration, and restores path and visited hubs;
* `discovers_all` — so more fuel than `max_hops` finds one route for each simple path.
-/
import IgnitePay.Lib.Machine
import IgnitePay.Lib.SimplePaths
import IgnitePay.Lib.Solana
import IgnitePay.Lib.Store

namespace StateChannel

open Bytes Machine Solana SimplePaths

/-! ### Hubs -/

structure HubLeaf where
  hubDidHash : Bytes 32
  activePubkey : Pubkey
deriving DecidableEq

structure HubMetrics where
  successRate : UInt16
  avgLatencyMs : UInt32
  availableLiquidity : UInt64
  feeRateBps : UInt16
deriving DecidableEq

/-- The records under `hub:{did}` and `hub_metrics:{did}`. -/
structure HubManager where
  hubs : Store.Map (Bytes 32) HubLeaf
  metrics : Store.Map (Bytes 32) HubMetrics

namespace HubManager

/-- `get_hub`. -/
def getHub (m : HubManager) (hubDidHash : Bytes 32) : Option HubLeaf := m.hubs.lookup hubDidHash

/-- `get_metrics`. -/
def getMetrics (m : HubManager) (hubDidHash : Bytes 32) : Option HubMetrics :=
  m.metrics.lookup hubDidHash

end HubManager

/-! ### Routes -/

structure RouteHop where
  hubPubkey : Pubkey
  hubDidHash : Bytes 32
  fee : UInt64
  latencyMs : UInt32
  liquidity : UInt64

structure Route where
  hops : List RouteHop
  totalFee : UInt64
  maxLatencyMs : UInt32
  score : Float
  sufficientLiquidity : Bool

/-- The hubs of a route, in order. -/
def Route.path (r : Route) : List (Bytes 32) := r.hops.map RouteHop.hubDidHash

structure RouteRequest where
  fromDidHash : Bytes 32
  toDidHash : Bytes 32
  amount : UInt64
  maxHops : ℕ

/-- A node of the graph with those it has channels to. -/
abbrev ChannelGraph := Store.Map (Bytes 32) (List (Bytes 32))

structure RouteService where
  hubManager : HubManager
  channelGraph : ChannelGraph

/-- `saturating_mul`. -/
def saturatingMul (a b : UInt64) : UInt64 :=
  if a.toNat * b.toNat < 2 ^ 64 then a * b else UInt64.ofNat (2 ^ 64 - 1)

/-- What a hub charges for an amount: `req.amount.saturating_mul(fee_rate_bps) / 10000`. -/
def hubFee (amount : UInt64) (feeRateBps : UInt16) : UInt64 :=
  saturatingMul amount feeRateBps.toUInt64 / 10000

/-- The variables of the loop of `build_route`. -/
structure RouteSoFar where
  hops : List RouteHop
  totalFee : UInt64
  maxLatencyMs : UInt32
  sufficientLiquidity : Bool

/-- `score_route_from_metrics`. -/
def scoreRouteFromMetrics (metrics : List HubMetrics) (totalFee : UInt64) (maxLatencyMs : UInt32)
    (amount : UInt64) : Float :=
  if metrics.isEmpty then 0.0
  else
    let feeScore :=
      if totalFee = 0 then 1.0
      else if amount = 0 then 0.0
      else 1.0 / (1.0 + totalFee.toFloat / amount.toFloat)
    let latencyScore :=
      if maxLatencyMs = 0 then 1.0 else 1.0 / (1.0 + maxLatencyMs.toFloat / 1000.0)
    let minSuccess := metrics.foldl (fun acc m => min acc (m.successRate.toFloat / 10000.0)) (1.0 / 0.0)
    0.3 * feeScore + 0.3 * latencyScore + 0.4 * minSuccess

namespace RouteService

/-- The loop of `build_route`. -/
def addHops (hubs : HubManager) (amount : UInt64) : List (Bytes 32) → RouteSoFar → Option RouteSoFar
  | [], r => some r
  | didHash :: path, r => do
    let hub ← hubs.getHub didHash
    let metrics ← hubs.getMetrics didHash
    let fee := hubFee amount metrics.feeRateBps
    let totalFee := saturatingAdd r.totalFee fee
    addHops hubs amount path {
      hops := r.hops ++ [{
        hubPubkey := hub.activePubkey
        hubDidHash := didHash
        fee
        latencyMs := metrics.avgLatencyMs
        liquidity := metrics.availableLiquidity }]
      totalFee
      maxLatencyMs := max r.maxLatencyMs metrics.avgLatencyMs
      sufficientLiquidity := r.sufficientLiquidity &&
        ! decide (metrics.availableLiquidity < saturatingAdd amount totalFee) }

/-- `build_route`. -/
def buildRoute (s : RouteService) (path : List (Bytes 32)) (req : RouteRequest) : Option Route := do
  let r ← addHops s.hubManager req.amount path ⟨[], 0, 0, true⟩
  let metrics := path.filterMap s.hubManager.getMetrics
  return {
    hops := r.hops
    totalFee := r.totalFee
    maxLatencyMs := r.maxLatencyMs
    score := scoreRouteFromMetrics metrics r.totalFee r.maxLatencyMs req.amount
    sufficientLiquidity := r.sufficientLiquidity }

/-- What the recursive calls of the search share. -/
structure Search where
  path : List (Bytes 32)
  visited : Finset (Bytes 32)
  routes : List Route

/-- `path.push` and `visited.insert`. -/
def Search.enter (search : Search) (current : Bytes 32) : Search :=
  { search with
    path := search.path ++ [current]
    visited := insert current search.visited }

/-- `path.pop` and `visited.remove`. -/
def Search.leave (search : Search) (current : Bytes 32) : Search :=
  { search with
    path := search.path.dropLast
    visited := search.visited.erase current }

/-- The path is made into a route, if all its hubs are known. -/
def addRoute (s : RouteService) (req : RouteRequest) (search : Search) : Search :=
  match s.buildRoute search.path req with
  | some route => { search with routes := search.routes ++ [route] }
  | none => search

/-- The hubs that a hub has channels to. -/
def neighbors (s : RouteService) (didHash : Bytes 32) : List (Bytes 32) :=
  (s.channelGraph.lookup didHash).getD []

/-- `dfs_routes`. -/
def dfsRoutes (s : RouteService) (req : RouteRequest) : ℕ → Bytes 32 → Search → Option Search
  | 0, _, _ => none
  | fuel + 1, current, search => do
    let search := search.enter current
    let search ←
      if current = req.toDidHash ∧ search.path.length > 1 then some (s.addRoute req search)
      else if search.path.length - 1 < req.maxHops then
        (s.neighbors current).foldlM (fun search neighbor =>
          if neighbor ∉ search.visited then dfsRoutes s req fuel neighbor search else some search)
          search
      else some search
    return search.leave current

/-- `discover_routes`: the routes that are found, the best first. -/
def discoverRoutes (s : RouteService) (fuel : ℕ) (req : RouteRequest) : Option (List Route) := do
  let search ← s.dfsRoutes req fuel req.fromDidHash ⟨[], ∅, []⟩
  return search.routes.mergeSort fun a b => ! decide (a.score < b.score)

/-- The hub is registered, and has metrics. -/
def Registered (s : RouteService) (didHash : Bytes 32) : Prop :=
  (s.hubManager.getHub didHash).isSome ∧ (s.hubManager.getMetrics didHash).isSome

instance (s : RouteService) (didHash : Bytes 32) : Decidable (s.Registered didHash) :=
  inferInstanceAs (Decidable (_ ∧ _))

/-! ### Building a route -/

variable {s : RouteService} {req : RouteRequest} {path : List (Bytes 32)} {route : Route}
  {hubs : HubManager} {amount : UInt64} {r r' : RouteSoFar}

theorem path_of_addHops (h : addHops hubs amount path r = some r') :
    r'.hops.map RouteHop.hubDidHash = r.hops.map RouteHop.hubDidHash ++ path := by
  induction path generalizing r with
  | nil =>
    obtain rfl := Option.some_inj.mp h
    rw [List.append_nil]
  | cons didHash path ih =>
    obtain ⟨hub, -, h⟩ := Option.bind_eq_some_iff.mp h
    obtain ⟨metrics, -, h⟩ := Option.bind_eq_some_iff.mp h
    rw [ih h, List.map_append, List.append_assoc]
    rfl

theorem exists_addHops (h : ∀ didHash ∈ path, s.Registered didHash) (r : RouteSoFar) :
    ∃ r', addHops s.hubManager amount path r = some r' := by
  induction path generalizing r with
  | nil => exact ⟨r, rfl⟩
  | cons didHash path ih =>
    obtain ⟨⟨hhub, hmetrics⟩, hpath⟩ := List.forall_mem_cons.mp h
    obtain ⟨hub, hhub⟩ := Option.isSome_iff_exists.mp hhub
    obtain ⟨metrics, hmetrics⟩ := Option.isSome_iff_exists.mp hmetrics
    obtain ⟨r', hr'⟩ := ih hpath _
    refine ⟨r', ?_⟩
    rw [addHops, hhub, hmetrics]
    exact hr'

theorem path_of_buildRoute (h : s.buildRoute path req = some route) : route.path = path := by
  obtain ⟨r, hr, h⟩ := Option.bind_eq_some_iff.mp h
  obtain rfl := Option.some_inj.mp h
  exact path_of_addHops hr

theorem exists_buildRoute (h : ∀ didHash ∈ path, s.Registered didHash) (req : RouteRequest) :
    ∃ route, s.buildRoute path req = some route := by
  obtain ⟨r, hr⟩ := exists_addHops h ⟨[], 0, 0, true⟩
  exact ⟨_, Option.bind_eq_some_iff.mpr ⟨r, hr, rfl⟩⟩

/-! ### What a call of the search does -/

variable {fuel n : ℕ} {current : Bytes 32} {search search' : Search} {visited : Finset (Bytes 32)}
  {routes : List Route}

/-- The loop over the neighbors, where each call adds its routes and restores the rest. -/
theorem foldlM_neighbors {found : Bytes 32 → List Route} {nodes : List (Bytes 32)}
    (hcall : ∀ b routes, b ∉ visited → s.dfsRoutes req fuel b ⟨path, visited, routes⟩
      = some ⟨path, visited, routes ++ found b⟩) :
    nodes.foldlM (fun search neighbor =>
        if neighbor ∉ search.visited then s.dfsRoutes req fuel neighbor search else some search)
        (Search.mk path visited routes)
      = some ⟨path, visited, routes ++ (nodes.filter (· ∉ visited)).flatMap found⟩ := by
  induction nodes generalizing routes with
  | nil => simp
  | cons b nodes ih =>
    rw [List.foldlM_cons]
    by_cases hb : b ∉ visited
    · have hfilter : (b :: nodes).filter (· ∉ visited) = b :: nodes.filter (· ∉ visited) :=
        List.filter_cons_of_pos (decide_eq_true hb)
      rw [if_pos hb, hcall b routes hb, Option.bind_eq_bind, Option.bind_some, ih, hfilter,
        List.flatMap_cons, List.append_assoc]
    · have hfilter : (b :: nodes).filter (· ∉ visited) = nodes.filter (· ∉ visited) :=
        List.filter_cons_of_neg (by simpa using hb)
      rw [if_neg hb, Option.bind_eq_bind, Option.bind_some, ih, hfilter]

theorem addRoute_eq (s : RouteService) (req : RouteRequest) (path : List (Bytes 32))
    (visited : Finset (Bytes 32)) (routes : List Route) : s.addRoute req ⟨path, visited, routes⟩
      = ⟨path, visited, routes ++ (s.buildRoute path req).toList⟩ := by
  rw [addRoute]
  rcases s.buildRoute path req with _ | route
  · simp
  · rfl

theorem leave_enter (hfresh : current ∉ visited) (routes : List Route) :
    (Search.mk (path ++ [current]) (insert current visited) routes).leave current
      = ⟨path, visited, routes⟩ := by
  rw [Search.leave, List.dropLast_concat, Finset.erase_insert hfresh]

/-- A call adds a route for each simple path on from its hub, and restores path and visited hubs. -/
theorem dfsRoutes_eq (hfuel : n < fuel) (hdepth : path.length + n = req.maxHops)
    (hfresh : current ∉ visited) (hstart : current = req.toDidHash → path ≠ []) :
    s.dfsRoutes req fuel current ⟨path, visited, routes⟩ = some ⟨path, visited, routes ++
      (pathsTo s.neighbors req.toDidHash n visited current).filterMap
        fun p => s.buildRoute (path ++ p) req⟩ := by
  induction fuel generalizing n current path visited routes with
  | zero => exact absurd hfuel (Nat.not_lt_zero n)
  | succ fuel ih =>
    have hlength : (path ++ [current]).length = path.length + 1 := List.length_append
    rw [dfsRoutes, Search.enter]
    dsimp only
    rw [hlength]
    by_cases hgoal : current = req.toDidHash
    · have hpos := List.length_pos_of_ne_nil (hstart hgoal)
      rw [if_pos ⟨hgoal, by omega⟩, addRoute_eq, ← hgoal, pathsTo_goal]
      refine congrArg some ((leave_enter hfresh _).trans ?_)
      rw [List.filterMap_cons, List.filterMap_nil]
      rcases s.buildRoute (path ++ [current]) req with _ | route
      · rfl
      · rfl
    · rw [if_neg fun h => hgoal h.1]
      cases n with
      | zero =>
        rw [if_neg (by omega), pathsTo, if_neg hgoal, List.filterMap_nil, List.append_nil]
        exact congrArg some (leave_enter hfresh routes)
      | succ n =>
        have hcall : ∀ b routes, b ∉ insert current visited →
            s.dfsRoutes req fuel b ⟨path ++ [current], insert current visited, routes⟩
              = some ⟨path ++ [current], insert current visited, routes ++
                  (pathsTo s.neighbors req.toDidHash n (insert current visited) b).filterMap
                    fun p => s.buildRoute (path ++ [current] ++ p) req⟩ :=
          fun b routes hb => ih (by omega) (by omega) hb fun _ => List.concat_ne_nil _ _
        rw [if_pos (by omega), foldlM_neighbors hcall, pathsTo, if_neg hgoal, List.filterMap_flatMap]
        refine congrArg some ((leave_enter hfresh _).trans ?_)
        simp only [List.filterMap_map, Function.comp_def, List.append_assoc, List.singleton_append]

/-- Path and visited hubs are as before. -/
def Restored (search search' : Search) : Prop :=
  search'.path = search.path ∧ search'.visited = search.visited

theorem foldlM_restores {nodes : List (Bytes 32)}
    (hcall : ∀ b search search', b ∉ search.visited →
      s.dfsRoutes req fuel b search = some search' → Restored search search')
    (h : nodes.foldlM (fun search neighbor =>
        if neighbor ∉ search.visited then s.dfsRoutes req fuel neighbor search else some search)
        search = some search') : Restored search search' := by
  induction nodes generalizing search with
  | nil =>
    obtain rfl := Option.some_inj.mp h
    exact ⟨rfl, rfl⟩
  | cons b nodes ih =>
    rw [List.foldlM_cons] at h
    obtain ⟨search₁, hfirst, h⟩ := Option.bind_eq_some_iff.mp h
    have hrest := ih h
    split at hfirst
    · next hb =>
      have hone := hcall b search search₁ hb hfirst
      exact ⟨hrest.1.trans hone.1, hrest.2.trans hone.2⟩
    · rw [Option.some_inj.mp hfirst]
      exact hrest

theorem addRoute_restores : Restored search (s.addRoute req search) := by
  rw [addRoute]
  split
  · exact ⟨rfl, rfl⟩
  · exact ⟨rfl, rfl⟩

theorem Restored.leave (hfresh : current ∉ search.visited)
    (h : Restored (search.enter current) search') : Restored search (search'.leave current) := by
  refine ⟨?_, ?_⟩
  · rw [Search.leave, h.1]
    exact List.dropLast_concat
  · rw [Search.leave, h.2]
    exact Finset.erase_insert hfresh

/-- Whatever a call at a new hub does, it restores path and visited hubs. -/
theorem dfsRoutes_restores (hfresh : current ∉ search.visited)
    (h : s.dfsRoutes req fuel current search = some search') : Restored search search' := by
  induction fuel generalizing current search search' with
  | zero => exact absurd h (by simp [dfsRoutes])
  | succ fuel ih =>
    rw [dfsRoutes] at h
    dsimp only at h
    split at h
    · rw [← Option.some_inj.mp h]
      exact addRoute_restores.leave hfresh
    · split at h
      · obtain ⟨inside, hinside, h⟩ := Option.bind_eq_some_iff.mp h
        rw [← Option.some_inj.mp h]
        exact (foldlM_restores (fun b search search' hb h => ih hb h) hinside).leave hfresh
      · rw [← Option.some_inj.mp h]
        exact Restored.leave hfresh ⟨rfl, rfl⟩

/-! ### Discovery -/

/-- Every hub on a channel is registered, so all those of a path over channels are. -/
theorem registered_of_walk (hreg : ∀ a, ∀ b ∈ s.neighbors a, s.Registered a ∧ s.Registered b)
    {goal a : Bytes 32} (h : Walk s.neighbors goal a path) (hgoal : s.Registered goal) :
    ∀ didHash ∈ path, s.Registered didHash := by
  induction h with
  | arrived => exact List.forall_mem_singleton.mpr hgoal
  | step hedge _ ih => exact List.forall_mem_cons.mpr ⟨(hreg _ _ hedge).1, ih⟩

/-- The goal of a path that is not there from the start is the end of a channel. -/
theorem registered_goal (hreg : ∀ a, ∀ b ∈ s.neighbors a, s.Registered a ∧ s.Registered b)
    {goal a : Bytes 32} (h : Walk s.neighbors goal a path) (hne : a ≠ goal) : s.Registered goal := by
  induction h with
  | arrived => exact absurd rfl hne
  | @step a b p hedge _ ih =>
    by_cases heq : b = goal
    · exact heq ▸ (hreg _ _ hedge).2
    · exact ih heq

/-- A simple path of the request, over at most `max_hops` channels. -/
def RoutePath (s : RouteService) (req : RouteRequest) (path : List (Bytes 32)) : Prop :=
  Simple s.neighbors req.toDidHash req.fromDidHash path ∧ path.length ≤ req.maxHops + 1

theorem map_path_filterMap {paths : List (List (Bytes 32))}
    (h : ∀ path ∈ paths, ∃ route, s.buildRoute path req = some route) :
    (paths.filterMap fun p => s.buildRoute p req).map Route.path = paths := by
  induction paths with
  | nil => rfl
  | cons path paths ih =>
    obtain ⟨⟨route, hroute⟩, hpaths⟩ := List.forall_mem_cons.mp h
    have hfirst : (path :: paths).filterMap (fun p => s.buildRoute p req)
        = route :: paths.filterMap fun p => s.buildRoute p req := List.filterMap_cons_some hroute
    rw [hfirst, List.map_cons, path_of_buildRoute hroute, ih hpaths]

theorem dfsRoutes_start (hne : req.fromDidHash ≠ req.toDidHash) (hfuel : req.maxHops < fuel) :
    s.dfsRoutes req fuel req.fromDidHash ⟨[], ∅, []⟩ = some ⟨[], ∅,
      (pathsTo s.neighbors req.toDidHash req.maxHops ∅ req.fromDidHash).filterMap
        fun p => s.buildRoute p req⟩ :=
  dfsRoutes_eq hfuel (Nat.zero_add _) (Finset.notMem_empty _) fun h => absurd h hne

/-- With each hub's channels listed once and all hubs registered, a request between two hubs finds
one route for each simple path of at most `max_hops` channels, and no other. -/
theorem discovers_all (s : RouteService) (req : RouteRequest)
    (hadj : ∀ a, (s.neighbors a).Nodup)
    (hreg : ∀ a, ∀ b ∈ s.neighbors a, s.Registered a ∧ s.Registered b)
    (hne : req.fromDidHash ≠ req.toDidHash) :
    (∃ routes, (∀ fuel, req.maxHops < fuel → s.discoverRoutes fuel req = some routes) ∧
      (∀ path, s.RoutePath req path ↔ path ∈ routes.map Route.path) ∧
      (routes.map Route.path).Nodup ∧
      ∀ route ∈ routes, s.buildRoute route.path req = some route) ∧
    ∀ fuel current search search', current ∉ search.visited →
      s.dfsRoutes req fuel current search = some search' → Restored search search' := by
  refine ⟨?_, fun fuel current search search' hfresh h => dfsRoutes_restores hfresh h⟩
  set paths := pathsTo s.neighbors req.toDidHash req.maxHops ∅ req.fromDidHash with hpaths
  have hmem : ∀ path, path ∈ paths ↔ s.RoutePath req path := by
    intro path
    rw [hpaths, mem_pathsTo, RoutePath]
    simp
  have hbuilds : ∀ path ∈ paths, ∃ route, s.buildRoute path req = some route := by
    intro path hpath
    have hwalk := ((hmem path).mp hpath).1.walk
    exact exists_buildRoute (registered_of_walk hreg hwalk (registered_goal hreg hwalk hne)) req
  have hroutes : (paths.filterMap fun p => s.buildRoute p req).map Route.path = paths :=
    map_path_filterMap hbuilds
  refine ⟨(paths.filterMap fun p => s.buildRoute p req).mergeSort
    fun a b => ! decide (a.score < b.score), fun fuel hfuel => ?_, fun path => ?_, ?_, ?_⟩
  · rw [discoverRoutes, dfsRoutes_start hne hfuel]
    rfl
  · rw [← hmem, ((List.mergeSort_perm _ _).map Route.path).mem_iff, hroutes]
  · rw [((List.mergeSort_perm _ _).map Route.path).nodup_iff, hroutes]
    exact nodup_pathsTo hadj
  · intro route hroute
    obtain ⟨path, -, hbuilt⟩ := List.mem_filterMap.mp ((List.mergeSort_perm _ _).mem_iff.mp hroute)
    rw [path_of_buildRoute hbuilt]
    exact hbuilt

/-- What every stored list meets, and the empty one, the neighbors of each hub meet. -/
theorem forall_neighbors {P : Bytes 32 → List (Bytes 32) → Prop} (hnil : ∀ a, P a [])
    (h : ∀ e ∈ s.channelGraph.entries, P e.1 e.2) (a : Bytes 32) : P a (s.neighbors a) := by
  rw [neighbors]
  rcases hl : s.channelGraph.lookup a with _ | l
  · exact hnil a
  · exact h ⟨a, l⟩ (AList.mem_lookup_iff.mp hl)

end RouteService

/-! ### A triangle of hubs -/

namespace Sample

def hub (n : UInt8) : Bytes 32 := fill 32 n

/-- Three hubs, with channels from each to the others. -/
def triangle : RouteService where
  hubManager := {
    hubs := [1, 2, 3].foldl (fun hubs n => hubs.insert (hub n) ⟨hub n, fill 32 (n + 10)⟩) ∅
    metrics := [1, 2, 3].foldl (fun m n => m.insert (hub n) ⟨9900, 20, 5000000, 10⟩) ∅ }
  channelGraph := (((∅ : ChannelGraph).insert (hub 1) [hub 2, hub 3]).insert (hub 2)
    [hub 3, hub 1]).insert (hub 3) [hub 1, hub 2]

/-- From the first hub to the third, over at most two channels. -/
def overTwo : RouteRequest where
  fromDidHash := hub 1
  toDidHash := hub 3
  amount := 1000000
  maxHops := 2

end Sample

/-- The direct route is found, and the one over the second hub, and none more. -/
theorem discovers_triangle : ∃ routes,
    RouteService.discoverRoutes Sample.triangle 3 Sample.overTwo = some routes ∧
    (routes.map Route.path).Perm
      [[Sample.hub 1, Sample.hub 2, Sample.hub 3], [Sample.hub 1, Sample.hub 3]] := by
  have hadj : ∀ a, (Sample.triangle.neighbors a).Nodup :=
    RouteService.forall_neighbors (P := fun _ l => l.Nodup) (fun _ => List.nodup_nil)
      (by decide)
  have hreg : ∀ a, ∀ b ∈ Sample.triangle.neighbors a,
      Sample.triangle.Registered a ∧ Sample.triangle.Registered b :=
    RouteService.forall_neighbors
      (P := fun a l => ∀ b ∈ l, Sample.triangle.Registered a ∧ Sample.triangle.Registered b)
      (fun _ _ hb => absurd hb List.not_mem_nil) (by decide)
  obtain ⟨⟨routes, hfound, hmem, hnodup, -⟩, -⟩ := RouteService.discovers_all Sample.triangle
    Sample.overTwo hadj hreg (by decide)
  refine ⟨routes, hfound 3 (by decide), ?_⟩
  have hpaths : pathsTo Sample.triangle.neighbors Sample.overTwo.toDidHash Sample.overTwo.maxHops ∅
      Sample.overTwo.fromDidHash
        = [[Sample.hub 1, Sample.hub 2, Sample.hub 3], [Sample.hub 1, Sample.hub 3]] := by
    decide
  rw [List.perm_ext_iff_of_nodup hnodup (by decide)]
  intro path
  rw [← hmem, ← hpaths, mem_pathsTo, RouteService.RoutePath]
  simp

end StateChannel
