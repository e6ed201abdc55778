/-
The handler `resolve_hop` of the channel service (`handlers/multihop.rs`).

It takes the manager's lock twice: under the first lock it loads the payment and picks
the first hop that is not resolved, under the second it has the manager resolve that hop.
Any number of requests may be under way; a run of turns lets them go on in any order.
What a request has read may then be out of date when it comes to resolve.

* `advances_of_next` — what a section of a request does;
* `unresolved_of_run` — the hops that are left are those that no request resolved;
* `resolved_in_turn_iff` — hops are resolved once each, from the last one back, exactly
  if every request resolves the last hop that is left when it has the second lock; in
  every run that is so exactly if the payment has at most one hop left to resolve.
-/
import IgnitePay.Lib.Tasks
import IgnitePay.Service.State
import IgnitePay.StateChannel.MultiHop

namespace StateChannel

namespace MultiHopPayment

variable {p : MultiHopPayment} {hopIndex i : ℕ}

/-- The hops left to resolve, the first one first. -/
def unresolved (p : MultiHopPayment) : List ℕ :=
  (List.range p.hops.length).filter fun i => (p.hops[i]?).any fun hop => !hop.resolved

/-- `hops.iter().filter(|h| h.resolved).count()`. -/
def resolvedHops (p : MultiHopPayment) : ℕ := (p.hops.filter fun hop => hop.resolved).length

theorem mem_unresolved :
    i ∈ p.unresolved ↔ ∃ hop, p.hops[i]? = some hop ∧ hop.resolved = false := by
  rw [unresolved, List.mem_filter, List.mem_range, Option.any_eq_true]
  constructor
  · rintro ⟨-, hop, hhop, hresolved⟩
    exact ⟨hop, hhop, by simpa using hresolved⟩
  · rintro ⟨hop, hhop, hresolved⟩
    exact ⟨(List.getElem?_eq_some_iff.mp hhop).1, hop, hhop, by simpa using hresolved⟩

theorem nodup_unresolved (p : MultiHopPayment) : p.unresolved.Nodup := List.nodup_range.filter _

theorem length_hops_resolve : (p.resolve hopIndex).hops.length = p.hops.length := by
  rw [hops_resolve, List.length_modify]

theorem unresolved_resolve :
    (p.resolve hopIndex).unresolved = p.unresolved.filter fun i => decide (i ≠ hopIndex) := by
  rw [unresolved, unresolved, List.filter_filter, length_hops_resolve]
  refine List.filter_congr fun i _ => ?_
  rw [getElem?_resolve]
  rcases p.hops[i]? with _ | hop
  · simp
  · by_cases h : hopIndex = i
    · simp [h]
    · simp [h, Ne.symm h]

theorem allResolved_iff : p.AllResolved ↔ p.unresolved = [] := by
  rw [List.eq_nil_iff_forall_not_mem]
  constructor
  · intro hall i hi
    obtain ⟨hop, hhop, hresolved⟩ := mem_unresolved.mp hi
    rw [hall hop (List.mem_of_getElem? hhop)] at hresolved
    exact absurd hresolved (by simp)
  · intro hnone hop hmem
    obtain ⟨i, hhop⟩ := List.mem_iff_getElem?.mp hmem
    by_contra hresolved
    exact hnone i (mem_unresolved.mpr ⟨hop, hhop, by simpa using hresolved⟩)

theorem resolvedHops_add (p : MultiHopPayment) :
    p.resolvedHops + p.unresolved.length = p.hops.length := by
  have hcount : ∀ l : List MultiHopEntry, ((List.range l.length).filter fun i =>
      (l[i]?).any fun hop => !hop.resolved).length = (l.filter fun hop => !hop.resolved).length := by
    intro l
    induction l with
    | nil => rfl
    | cons hop l ih =>
      rw [List.length_cons, List.range_succ_eq_map, List.filter_cons, List.filter_cons,
        List.filter_map]
      have htail : ((List.range l.length).filter
          ((fun i => ((hop :: l)[i]?).any fun hop => !hop.resolved) ∘ Nat.succ)).length
          = (l.filter fun hop => !hop.resolved).length := ih
      cases hresolved : hop.resolved with
      | false => simp [hresolved, htail]
      | true => simp [hresolved, htail]
  rw [resolvedHops, unresolved, hcount]
  have := List.length_eq_length_filter_add (l := p.hops) fun hop => hop.resolved
  omega

end MultiHopPayment

end StateChannel

namespace Service

open Bytes Machine StateChannel

/-! ### The handler -/

/-- What the handler answers. -/
structure ResolveHopResponse where
  paymentId : Bytes 32
  resolvedHop : ℕ
  status : MultiHopStatus
  resolvedHops : ℕ
  totalHops : ℕ
deriving DecidableEq

/-- A section of a handler works on the manager, under its lock. -/
abbrev MultiHopHandler := Method MultiHopManager HandlerFailure

/-- A method of the manager, with its error passed on. -/
def onMultiHopManager {α : Type} (x : MultiHopOp α) : MultiHopHandler α :=
  x.handle fun e => throw (.error (.stateChannel e))

/-- `resolve_hop` up to the release of the first lock: the first unresolved hop. -/
def chooseHop (paymentId : Bytes 32) : MultiHopHandler ℕ := do
  let payment ← onMultiHopManager (MultiHopManager.loadPayment paymentId)
  orThrow (payment.hops.findIdx? fun hop => !hop.resolved)
    (HandlerFailure.badRequest "all hops already resolved")

/-- `resolve_hop` under the second lock. -/
def resolveChosenHop (paymentId : Bytes 32) (hopIndex : ℕ) : MultiHopHandler ResolveHopResponse := do
  let updated ← onMultiHopManager (MultiHopManager.resolveHop paymentId hopIndex)
  return {
    paymentId
    resolvedHop := hopIndex
    status := updated.status
    resolvedHops := updated.resolvedHops
    totalHops := updated.hops.length }

/-- How far a request has come. -/
inductive ResolveHopProgress
  | arrived
  | chose (hopIndex : ℕ)
  | answered (response : Except HandlerFailure ResolveHopResponse)

structure ResolveHopRequest where
  paymentId : Bytes 32
  progress : ResolveHopProgress

namespace ResolveHopRequest

/-- The next section of a request; there is none after the answer. -/
def next (r : ResolveHopRequest) (m : MultiHopManager) :
    Except Unit (ResolveHopRequest × MultiHopManager) :=
  match r.progress with
  | .arrived =>
    match (chooseHop r.paymentId).call m with
    | (.ok hopIndex, m') => .ok ({ r with progress := .chose hopIndex }, m')
    | (.error e, m') => .ok ({ r with progress := .answered (.error e) }, m')
  | .chose hopIndex =>
    let (response, m') := (resolveChosenHop r.paymentId hopIndex).call m
    .ok ({ r with progress := .answered response }, m')
  | .answered _ => .error ()

/-- The hop of the payment that a request has answered to have resolved. -/
def answer (id : Bytes 32) (r : ResolveHopRequest) : Option ℕ :=
  match r.progress with
  | .answered (.ok response) => if r.paymentId = id then some response.resolvedHop else none
  | _ => none

/-- The hop of the payment that a request resolves in its next section. -/
def resolution (id : Bytes 32) (r : ResolveHopRequest) (m : MultiHopManager) : Option ℕ :=
  match r.next m with
  | .ok (r', _) => r'.answer id
  | .error _ => none

/-! ### What a section does -/

/-- A request and the manager before and after a section. -/
inductive Advances (id : Bytes 32) (m : MultiHopManager) :
    ResolveHopProgress → ResolveHopProgress → MultiHopManager → Prop
  | chooses {p : MultiHopPayment} {hopIndex : ℕ} (stored : m.db.lookup id = some p)
      (unresolved : hopIndex ∈ p.unresolved) : Advances id m .arrived (.chose hopIndex) m
  | resolves {p : MultiHopPayment} {hopIndex : ℕ} {response : ResolveHopResponse}
      (stored : m.db.lookup id = some p) (status_eq : p.status = .resolving)
      (index_lt : hopIndex < p.hops.length) (resolvedHop_eq : response.resolvedHop = hopIndex) :
      Advances id m (.chose hopIndex) (.answered (.ok response)) (m.put (p.resolve hopIndex))
  | refused {progress : ResolveHopProgress} (e : HandlerFailure) :
      Advances id m progress (.answered (.error e)) m

end ResolveHopRequest

section

variable {α : Type} {m m' : MultiHopManager} {id : Bytes 32} {hopIndex : ℕ} {a : α}
  {r r' : ResolveHopRequest}

theorem returns_onMultiHopManager {x : MultiHopOp α} :
    Returns (onMultiHopManager x) m a m' ↔ Returns x m a m' := by
  rw [onMultiHopManager, returns_handle]
  constructor
  · rintro (h | ⟨e, m₁, -, h⟩)
    · exact h
    · exact absurd h returns_throw
  · exact .inl

theorem mem_unresolved_of_findIdx? {p : MultiHopPayment}
    (h : (p.hops.findIdx? fun hop => !hop.resolved) = some hopIndex) :
    hopIndex ∈ p.unresolved := by
  obtain ⟨hlt, hfound, -⟩ := List.findIdx?_eq_some_iff_getElem.mp h
  exact MultiHopPayment.mem_unresolved.mpr
    ⟨p.hops[hopIndex], List.getElem?_eq_getElem hlt, by simpa using hfound⟩

theorem loadPayment_returns {p : MultiHopPayment} :
    Returns (MultiHopManager.loadPayment id) m p m' ↔ m.db.lookup id = some p ∧ m' = m := by
  rw [MultiHopManager.loadPayment, returns_get_bind, returns_orThrow]
  exact and_congr_right fun _ => eq_comm

theorem chooseHop_returns : Returns (chooseHop id) m hopIndex m' ↔
    ∃ p, m.db.lookup id = some p ∧ (p.hops.findIdx? fun hop => !hop.resolved) = some hopIndex ∧
      m' = m := by
  simp only [chooseHop, returns_bind, returns_onMultiHopManager, loadPayment_returns,
    returns_orThrow]
  constructor
  · rintro ⟨p, m₁, ⟨hp, rfl⟩, hindex, rfl⟩
    exact ⟨p, hp, hindex, rfl⟩
  · rintro ⟨p, hp, hindex, rfl⟩
    exact ⟨p, _, ⟨hp, rfl⟩, hindex, rfl⟩

theorem resolveChosenHop_returns {response : ResolveHopResponse} :
    Returns (resolveChosenHop id hopIndex) m response m' ↔
      ∃ p, m.db.lookup id = some p ∧ p.status = .resolving ∧ hopIndex < p.hops.length ∧
        response = ⟨id, hopIndex, (p.resolve hopIndex).status, (p.resolve hopIndex).resolvedHops,
          (p.resolve hopIndex).hops.length⟩ ∧ m' = m.put (p.resolve hopIndex) := by
  simp only [resolveChosenHop, returns_bind, returns_onMultiHopManager,
    MultiHopManager.resolveHop_returns, returns_pure]
  constructor
  · rintro ⟨_, _, ⟨p, hp, hstatus, hindex, rfl, rfl⟩, rfl, rfl⟩
    exact ⟨p, hp, hstatus, hindex, rfl, rfl⟩
  · rintro ⟨p, hp, hstatus, hindex, rfl, rfl⟩
    exact ⟨_, _, ⟨p, hp, hstatus, hindex, rfl, rfl⟩, rfl, rfl⟩

/-- A section that fails leaves the manager as it was. -/
theorem fails_onMultiHopManager {x : MultiHopOp α} {e : HandlerFailure}
    (hclean : Clean (fun _ => True) x) (h : Fails (onMultiHopManager x) m e m') : m' = m := by
  obtain ⟨e', m₁, hx, h⟩ := fails_handle.mp h
  rw [← (fails_throw.mp h).2]
  exact hclean m e' m₁ trivial hx

theorem chooseHop_fails {e : HandlerFailure} (h : Fails (chooseHop id) m e m') : m' = m := by
  have hload : Clean (fun _ => True) (MultiHopManager.loadPayment id) := by
    rw [MultiHopManager.loadPayment]
    refine .get fun m => ?_
    rw [← bind_pure (orThrow _ _)]
    exact .orThrow fun _ => (total_pure _).clean
  rcases fails_bind.mp h with h | ⟨p, m₁, hp, h⟩
  · exact fails_onMultiHopManager hload h
  · rw [returns_onMultiHopManager, loadPayment_returns] at hp
    rw [← bind_pure (orThrow _ _), fails_orThrow_bind] at h
    rcases h with ⟨-, -, rfl⟩ | ⟨_, -, h⟩
    · exact hp.2
    · exact absurd h fails_pure

theorem resolveChosenHop_fails {e : HandlerFailure} (h : Fails (resolveChosenHop id hopIndex) m e m') :
    m' = m := by
  have hresolve : Clean (fun _ => True) (MultiHopManager.resolveHop id hopIndex) := by
    rw [MultiHopManager.resolveHop, MultiHopManager.loadPayment, bind_assoc]
    refine .get fun m => .orThrow fun p => .check (.check (Total.clean ?_))
    exact (total_modify _).bind fun _ => total_pure _
  rcases fails_bind.mp h with h | ⟨_, _, -, h⟩
  · exact fails_onMultiHopManager hresolve h
  · exact absurd h fails_pure

namespace ResolveHopRequest

theorem advances_of_next (h : r.next m = .ok (r', m')) :
    r'.paymentId = r.paymentId ∧ Advances r.paymentId m r.progress r'.progress m' := by
  obtain ⟨paymentId, progress⟩ := r
  cases progress with
  | arrived =>
    rcases hcall : (chooseHop paymentId).call m with ⟨e | hopIndex, m₁⟩
    · dsimp only [next] at h
      rw [hcall] at h
      obtain ⟨rfl, rfl⟩ := Prod.mk.inj (Except.ok.inj h)
      obtain rfl := chooseHop_fails hcall
      exact ⟨rfl, .refused e⟩
    · dsimp only [next] at h
      rw [hcall] at h
      obtain ⟨rfl, rfl⟩ := Prod.mk.inj (Except.ok.inj h)
      obtain ⟨p, hp, hfound, rfl⟩ := chooseHop_returns.mp hcall
      exact ⟨rfl, .chooses hp (mem_unresolved_of_findIdx? hfound)⟩
  | chose hopIndex =>
    rcases hcall : (resolveChosenHop paymentId hopIndex).call m with ⟨e | response, m₁⟩
    · dsimp only [next] at h
      rw [hcall] at h
      obtain ⟨rfl, rfl⟩ := Prod.mk.inj (Except.ok.inj h)
      obtain rfl := resolveChosenHop_fails hcall
      exact ⟨rfl, .refused e⟩
    · dsimp only [next] at h
      rw [hcall] at h
      obtain ⟨rfl, rfl⟩ := Prod.mk.inj (Except.ok.inj h)
      obtain ⟨p, hp, hstatus, hindex, rfl, rfl⟩ := resolveChosenHop_returns.mp hcall
      exact ⟨rfl, .resolves hp hstatus hindex rfl⟩
  | answered response => exact absurd h (by simp [next])

/-- A section either resolves a hop of the payment or leaves the payment alone. -/
theorem stored_of_next {p : MultiHopPayment} (hp : m.db.lookup id = some p)
    (h : r.next m = .ok (r', m')) :
    (r.resolution id m = none ∧ m'.db.lookup id = some p) ∨
    ∃ hopIndex, r.resolution id m = some hopIndex ∧ r.paymentId = id ∧
      r.progress = .chose hopIndex ∧ p.status = .resolving ∧
      m'.db.lookup id = some (p.resolve hopIndex) := by
  obtain ⟨hid, hadvances⟩ := advances_of_next h
  obtain ⟨paymentId, progress⟩ := r
  obtain ⟨paymentId', progress'⟩ := r'
  obtain rfl : paymentId' = paymentId := hid
  have hresolution : resolution id ⟨paymentId', progress⟩ m
      = answer id ⟨paymentId', progress'⟩ := by
    rw [resolution, h]
  cases hadvances with
  | chooses => exact .inl ⟨hresolution, hp⟩
  | refused => exact .inl ⟨hresolution, hp⟩
  | @resolves p₁ hopIndex response hp₁ hstatus hindex hresponse =>
    have hput : ∀ id', (m.put (p₁.resolve hopIndex)).db.lookup id'
        = if id' = paymentId' then some (p₁.resolve hopIndex) else m.db.lookup id' := by
      intro id'
      rw [MultiHopManager.lookup_put, MultiHopPayment.paymentId_resolve, m.keyed _ _ hp₁]
    by_cases hid : paymentId' = id
    · subst hid
      obtain rfl := Option.some_inj.mp (hp.symm.trans hp₁)
      refine .inr ⟨hopIndex, ?_, rfl, rfl, hstatus, by rw [hput, if_pos rfl]⟩
      rw [hresolution]
      exact (if_pos rfl).trans (congrArg some hresponse)
    · exact .inl ⟨hresolution.trans (if_neg hid), by rw [hput, if_neg (Ne.symm hid), hp]⟩

theorem next_of_chooseHop (h : Returns (chooseHop id) m hopIndex m') :
    next ⟨id, .arrived⟩ m = .ok (⟨id, .chose hopIndex⟩, m') := by
  rw [Returns] at h
  rw [next]
  dsimp only
  rw [h]

theorem next_of_resolveChosenHop {response : ResolveHopResponse}
    (h : Returns (resolveChosenHop id hopIndex) m response m') :
    next ⟨id, .chose hopIndex⟩ m = .ok (⟨id, .answered (.ok response)⟩, m') := by
  rw [Returns] at h
  rw [next]
  dsimp only
  rw [h]

/-- A request that has chosen a hop of the payment resolves it, if the payment is resolving. -/
theorem resolution_of_chose {p : MultiHopPayment} (hp : m.db.lookup id = some p)
    (hstatus : p.status = .resolving) (hindex : hopIndex < p.hops.length) :
    resolution id ⟨id, .chose hopIndex⟩ m = some hopIndex := by
  have hnext := next_of_resolveChosenHop
    (resolveChosenHop_returns.mpr ⟨p, hp, hstatus, hindex, rfl, rfl⟩)
  rw [resolution, hnext]
  exact if_pos rfl

end ResolveHopRequest

end

/-! ### Interleavings -/

section

variable {s₀ s : System MultiHopManager ResolveHopRequest} {id : Bytes 32} {p₀ p : MultiHopPayment}
  {h : List (System MultiHopManager ResolveHopRequest × ℕ)} {resolved : List ℕ} {hopIndex : ℕ}

/-- The service with the payment stored, and requests that have just arrived. -/
structure Arrived (p₀ : MultiHopPayment) (s₀ : System MultiHopManager ResolveHopRequest) : Prop where
  stored : s₀.shared.db.lookup p₀.paymentId = some p₀
  arrived : ∀ i, (s₀.tasks i).progress = .arrived

/-- The hops that the successful requests about a payment have resolved, the latest first. -/
def resolutions (id : Bytes 32) (h : List (System MultiHopManager ResolveHopRequest × ℕ)) : List ℕ :=
  h.filterMap fun c => (c.1.tasks c.2).resolution id c.1.shared

/-- From the payment `p₀` to `p`, the requests that resolved the hops `resolved`, the latest first,
each resolved one of its own, from the last hop back. -/
structure ResolvedInTurn (p₀ : MultiHopPayment) (resolved : List ℕ) (p : MultiHopPayment) : Prop where
  distinct : resolved.Nodup
  counted : p.resolvedHops = p₀.resolvedHops + resolved.length
  ordered : resolved.reverse <+: p₀.unresolved.reverse

/-- A request that comes to the second lock while the payment is resolving has chosen the last hop
that is left. -/
def TakesLast (id : Bytes 32) (c : System MultiHopManager ResolveHopRequest × ℕ) : Prop :=
  (c.1.tasks c.2).paymentId = id → ∀ hopIndex, (c.1.tasks c.2).progress = .chose hopIndex →
    ∀ p ∈ c.1.shared.db.lookup id, p.status = .resolving → p.unresolved.getLast? = some hopIndex

/-- What the hops `resolved` leave of the payment. -/
structure LeftBy (p₀ : MultiHopPayment) (resolved : List ℕ) (p : MultiHopPayment) : Prop where
  length_eq : p.hops.length = p₀.hops.length
  unresolved_eq : p.unresolved = p₀.unresolved.filter fun i => decide (i ∉ resolved)

theorem LeftBy.resolve (hp : LeftBy p₀ resolved p) (hopIndex : ℕ) :
    LeftBy p₀ (hopIndex :: resolved) (p.resolve hopIndex) := by
  refine ⟨MultiHopPayment.length_hops_resolve.trans hp.length_eq, ?_⟩
  rw [MultiHopPayment.unresolved_resolve, hp.unresolved_eq, List.filter_filter]
  refine List.filter_congr fun i _ => ?_
  simp only [List.mem_cons, not_or, ← Bool.decide_and]

/-- Resolved in turn: the hops that are left, and then the resolved ones, are all there were. -/
theorem resolvedInTurn_iff (hp : LeftBy p₀ resolved p) :
    ResolvedInTurn p₀ resolved p ↔ p₀.unresolved = p.unresolved ++ resolved := by
  constructor
  · rintro ⟨-, -, hordered⟩
    obtain ⟨left, hleft⟩ := List.reverse_prefix.mp hordered
    have hnodup : (left ++ resolved).Nodup := hleft ▸ p₀.nodup_unresolved
    rw [hp.unresolved_eq, ← hleft, List.filter_append]
    have hkept : left.filter (fun i => decide (i ∉ resolved)) = left :=
      List.filter_eq_self.mpr fun i hi =>
        decide_eq_true fun hmem => (List.disjoint_of_nodup_append hnodup) hi hmem
    have hgone : resolved.filter (fun i => decide (i ∉ resolved)) = [] :=
      List.filter_eq_nil_iff.mpr fun i hi => by simpa using hi
    rw [hkept, hgone, List.append_nil]
  · intro hall
    have hnodup : (p.unresolved ++ resolved).Nodup := hall ▸ p₀.nodup_unresolved
    have hlength := congrArg List.length hall
    rw [List.length_append] at hlength
    have hcount := p.resolvedHops_add
    have hcount₀ := p₀.resolvedHops_add
    rw [hp.length_eq] at hcount
    exact ⟨hnodup.of_append_right, by omega, List.reverse_prefix.mpr ⟨_, hall.symm⟩⟩

/-- One more hop is resolved in turn exactly if it is the last that was left. -/
theorem resolvedInTurn_cons_iff (hp : LeftBy p₀ resolved p) (hopIndex : ℕ) :
    ResolvedInTurn p₀ (hopIndex :: resolved) (p.resolve hopIndex) ↔
      ResolvedInTurn p₀ resolved p ∧ p.unresolved.getLast? = some hopIndex := by
  rw [resolvedInTurn_iff hp, resolvedInTurn_iff (hp.resolve hopIndex),
    MultiHopPayment.unresolved_resolve]
  constructor
  · intro hall
    have hnodup := hall ▸ p₀.nodup_unresolved
    have hdisjoint := List.disjoint_of_nodup_append hnodup
    have hfresh := (List.nodup_cons.mp hnodup.of_append_right).1
    have hleft : p.unresolved = (p.unresolved.filter fun i => decide (i ≠ hopIndex)) ++ [hopIndex] := by
      conv_lhs => rw [hp.unresolved_eq, hall]
      rw [List.filter_append, List.filter_cons_of_pos (by simpa using hfresh)]
      have hkept : (p.unresolved.filter fun i => decide (i ≠ hopIndex)).filter
          (fun i => decide (i ∉ resolved)) = p.unresolved.filter fun i => decide (i ≠ hopIndex) :=
        List.filter_eq_self.mpr fun i hi =>
          decide_eq_true fun hmem => hdisjoint hi (List.mem_cons_of_mem _ hmem)
      have hgone : resolved.filter (fun i => decide (i ∉ resolved)) = [] :=
        List.filter_eq_nil_iff.mpr fun i hi => by simpa using hi
      rw [hkept, hgone]
    refine ⟨?_, by rw [hleft, List.getLast?_concat]⟩
    conv_rhs => rw [hleft]
    rw [hall, List.append_assoc]
    rfl
  · rintro ⟨hall, hlast⟩
    obtain ⟨left, hleft⟩ := List.getLast?_eq_some_iff.mp hlast
    have hnodup := hleft ▸ p.nodup_unresolved
    have hkept : left.filter (fun i => decide (i ≠ hopIndex)) = left :=
      List.filter_eq_self.mpr fun i hi => decide_eq_true fun heq =>
        (List.disjoint_of_nodup_append hnodup) hi (List.mem_singleton.mpr heq)
    rw [hall, hleft, List.filter_append, hkept]
    simp

theorem resolutions_cons_none {i : ℕ} (h₁ : (s.tasks i).resolution id s.shared = none) :
    resolutions id ((s, i) :: h) = resolutions id h := by
  simp only [resolutions, List.filterMap_cons, h₁]

theorem resolutions_cons_some {i : ℕ} (h₁ : (s.tasks i).resolution id s.shared = some hopIndex) :
    resolutions id ((s, i) :: h) = hopIndex :: resolutions id h := by
  simp only [resolutions, List.filterMap_cons, h₁]

theorem leftBy_of_run (hstored : s₀.shared.db.lookup id = some p₀)
    (hrun : Run (System.turn ResolveHopRequest.next) s₀ h s) :
    ∃ p, s.shared.db.lookup id = some p ∧ LeftBy p₀ (resolutions id h) p := by
  induction hrun with
  | start => exact ⟨p₀, hstored, rfl, (List.filter_eq_self.mpr fun i _ => by simp [resolutions]).symm⟩
  | @step h s s' i _ hturn ih =>
    obtain ⟨p, hp, hleft⟩ := ih
    obtain ⟨r', m', hnext, rfl⟩ := System.turn_eq_ok.mp hturn
    rcases ResolveHopRequest.stored_of_next hp hnext with ⟨hnone, hp'⟩ | ⟨k, hsome, -, -, -, hp'⟩
    · refine ⟨p, hp', ?_⟩
      rwa [resolutions_cons_none hnone]
    · refine ⟨p.resolve k, hp', ?_⟩
      rw [resolutions_cons_some hsome]
      exact hleft.resolve k

/-- What a request has chosen was there to resolve. -/
theorem chosen_of_run (hstart : Arrived p₀ s₀)
    (hrun : Run (System.turn ResolveHopRequest.next) s₀ h s) (i : ℕ)
    (hid : (s.tasks i).paymentId = p₀.paymentId) (hchose : (s.tasks i).progress = .chose hopIndex) :
    hopIndex ∈ p₀.unresolved := by
  -- The hops left are always some of those left at the start.
  have hinv := System.invariant (s := s)
    (J := fun m => ∃ p, m.db.lookup p₀.paymentId = some p ∧ p.unresolved ⊆ p₀.unresolved)
    (K := fun _ r => r.paymentId = p₀.paymentId → ∀ k, r.progress = .chose k → k ∈ p₀.unresolved)
    ?_ ?_ (fun _ _ _ _ _ _ _ _ hu => hu) ⟨p₀, hstart.stored, fun _ hk => hk⟩ ?_ hrun
  · exact hinv.2 i hid hopIndex hchose
  · rintro m r r' m' ⟨p, hp, hsub⟩ - hnext
    rcases ResolveHopRequest.stored_of_next hp hnext with ⟨-, hp'⟩ | ⟨k, -, -, -, -, hp'⟩
    · exact ⟨p, hp', hsub⟩
    · refine ⟨_, hp', fun j hj => hsub ?_⟩
      rw [MultiHopPayment.unresolved_resolve] at hj
      exact (List.mem_filter.mp hj).1
  · rintro m r r' m' ⟨p, hp, hsub⟩ - hnext hid' k hk
    obtain ⟨hsame, hadvances⟩ := ResolveHopRequest.advances_of_next hnext
    rw [← hsame, hid', hk] at hadvances
    generalize r.progress = progress at hadvances
    cases hadvances with
    | chooses hp₁ hunresolved =>
      obtain rfl := Option.some_inj.mp (hp.symm.trans hp₁)
      exact hsub hunresolved
  · intro j _ k hk
    exact absurd ((hstart.arrived j).symm.trans hk) (by simp)

theorem resolvedInTurn_iff_of_run (hstart : Arrived p₀ s₀)
    (hrun : Run (System.turn ResolveHopRequest.next) s₀ h s)
    (hp : s.shared.db.lookup p₀.paymentId = some p) :
    ResolvedInTurn p₀ (resolutions p₀.paymentId h) p ↔ ∀ c ∈ h, TakesLast p₀.paymentId c := by
  induction hrun generalizing p with
  | start =>
    obtain rfl := Option.some_inj.mp (hstart.stored.symm.trans hp)
    refine iff_of_true ⟨List.nodup_nil, rfl, List.nil_prefix⟩ fun c hc => absurd hc (by simp)
  | @step h s s' i hrun hturn ih =>
    obtain ⟨p₁, hp₁, hleft⟩ := leftBy_of_run hstart.stored hrun
    obtain ⟨r', m', hnext, rfl⟩ := System.turn_eq_ok.mp hturn
    rw [List.forall_mem_cons, ← ih hp₁]
    rcases ResolveHopRequest.stored_of_next hp₁ hnext
      with ⟨hnone, hp'⟩ | ⟨k, hsome, hid, hchose, hstatus, hp'⟩
    · obtain rfl := Option.some_inj.mp (hp'.symm.trans hp)
      rw [resolutions_cons_none hnone]
      refine (and_iff_right fun hid k hk p₂ hp₂ hstatus => ?_).symm
      -- A request with a hop of a resolving payment would have resolved it.
      obtain rfl := Option.some_inj.mp (hp₁.symm.trans hp₂)
      have hchosen := chosen_of_run hstart hrun i hid hk
      obtain ⟨hop, hhop, -⟩ := MultiHopPayment.mem_unresolved.mp hchosen
      have hindex := (List.getElem?_eq_some_iff.mp hhop).1
      rw [← hleft.length_eq] at hindex
      have hsome := ResolveHopRequest.resolution_of_chose hp₁ hstatus hindex
      have htask : s.tasks i = ⟨p₀.paymentId, .chose k⟩ := by
        rw [← hid, ← hk]
      rw [htask, hsome] at hnone
      exact absurd hnone (by simp)
    · obtain rfl := Option.some_inj.mp (hp'.symm.trans hp)
      rw [resolutions_cons_some hsome]
      refine (resolvedInTurn_cons_iff hleft k).trans (and_comm.trans (and_congr_left fun _ => ?_))
      constructor
      · intro hlast _ j hj p₂ hp₂ _
        obtain rfl := Option.some_inj.mp (hp₁.symm.trans hp₂)
        rw [hchose] at hj
        cases hj
        exact hlast
      · intro htakes
        exact htakes hid k hchose _ hp₁ hstatus

/-- With one hop left at the start, the payment is resolving only until that hop is resolved. -/
theorem eq_of_resolving (hstart : Arrived p₀ s₀) (hone : p₀.unresolved = [hopIndex])
    (hrun : Run (System.turn ResolveHopRequest.next) s₀ h s)
    (hp : s.shared.db.lookup p₀.paymentId = some p) (hstatus : p.status = .resolving) : p = p₀ := by
  induction hrun generalizing p with
  | start => exact Option.some_inj.mp (hp.symm.trans hstart.stored)
  | @step h s s' i hrun hturn ih =>
    obtain ⟨p₁, hp₁, -⟩ := leftBy_of_run hstart.stored hrun
    obtain ⟨r', m', hnext, rfl⟩ := System.turn_eq_ok.mp hturn
    rcases ResolveHopRequest.stored_of_next hp₁ hnext with ⟨-, hp'⟩ | ⟨k, -, hid, hchose, hbefore, hp'⟩
    · obtain rfl := Option.some_inj.mp (hp'.symm.trans hp)
      exact ih hp₁ hstatus
    · obtain rfl := Option.some_inj.mp (hp'.symm.trans hp)
      have hk := chosen_of_run hstart hrun i hid hchose
      rw [hone, List.mem_singleton] at hk
      have hdone : (p₁.resolve k).AllResolved := by
        rw [MultiHopPayment.allResolved_iff, MultiHopPayment.unresolved_resolve, ih hp₁ hbefore,
          hone, hk]
        simp
      rcases @MultiHopPayment.status_resolve p₁ k with ⟨hcompleted, -⟩ | ⟨-, hall⟩
      · exact absurd (hcompleted.symm.trans hstatus) (by simp)
      · exact absurd hdone hall

/-- With one hop left at most, a request takes the last one. -/
theorem takesLast_of_run (hstart : Arrived p₀ s₀) (hone : p₀.unresolved.length ≤ 1)
    (hrun : Run (System.turn ResolveHopRequest.next) s₀ h s) (i : ℕ) :
    TakesLast p₀.paymentId (s, i) := by
  intro hid k hk p hp hstatus
  have hchosen := chosen_of_run hstart hrun i hid hk
  obtain ⟨u, hu⟩ := List.length_eq_one_iff.mp (le_antisymm hone (List.length_pos_of_mem hchosen))
  obtain rfl : k = u := by rwa [hu, List.mem_singleton] at hchosen
  rw [eq_of_resolving hstart hu hrun hp hstatus, hu]
  rfl

theorem findIdx?_of_unresolved {rest : List ℕ} (h : p.unresolved = hopIndex :: rest) :
    (p.hops.findIdx? fun hop => !hop.resolved) = some hopIndex := by
  have hmem : hopIndex ∈ p.unresolved := h ▸ List.mem_cons_self
  obtain ⟨hop, hhop, hresolved⟩ := MultiHopPayment.mem_unresolved.mp hmem
  obtain ⟨hlt, rfl⟩ := List.getElem?_eq_some_iff.mp hhop
  refine List.findIdx?_eq_some_iff_getElem.mpr ⟨hlt, by simpa using hresolved, fun i hi => ?_⟩
  -- An unresolved hop before it would stand before it in the list.
  intro hunresolved
  have hi' : i ∈ p.unresolved := MultiHopPayment.mem_unresolved.mpr
    ⟨_, List.getElem?_eq_getElem (hi.trans hlt), by simpa using hunresolved⟩
  have hsorted : p.unresolved.Pairwise (· < ·) := List.pairwise_lt_range.filter _
  rw [h] at hi' hsorted
  rcases List.mem_cons.mp hi' with rfl | hi'
  · omega
  · have := (List.pairwise_cons.mp hsorted).1 i hi'
    omega

/-- With more than one hop left, a single request already takes the first one before the last. -/
theorem exists_first_taken {k k' : ℕ} {rest : List ℕ} (hstatus : p₀.status = .resolving)
    (hmany : p₀.unresolved = k :: k' :: rest) : ∃ s₀ : System MultiHopManager ResolveHopRequest,
    Arrived p₀ s₀ ∧ ∃ h s, Run (System.turn ResolveHopRequest.next) s₀ h s ∧
      ∀ p, s.shared.db.lookup p₀.paymentId = some p →
        ¬ ResolvedInTurn p₀ (resolutions p₀.paymentId h) p := by
  have hfound := findIdx?_of_unresolved hmany
  obtain ⟨hindex, -⟩ := List.findIdx?_eq_some_iff_getElem.mp hfound
  -- The request has the payment stored, then its choice made, then its answer.
  let m := Sample.noPayments.put p₀
  let s₀ : System MultiHopManager ResolveHopRequest := ⟨m, fun _ => ⟨p₀.paymentId, .arrived⟩⟩
  have hstored : m.db.lookup p₀.paymentId = some p₀ := by
    rw [MultiHopManager.lookup_put, if_pos rfl]
  have hstart : Arrived p₀ s₀ := ⟨hstored, fun _ => rfl⟩
  have hchoose : Returns (chooseHop p₀.paymentId) m k m :=
    chooseHop_returns.mpr ⟨p₀, hstored, hfound, rfl⟩
  have hresolve := resolveChosenHop_returns.mpr ⟨p₀, hstored, hstatus, hindex, rfl, rfl⟩
  let s₁ : System MultiHopManager ResolveHopRequest :=
    ⟨m, Function.update s₀.tasks 0 ⟨p₀.paymentId, .chose k⟩⟩
  have htask : s₁.tasks 0 = ⟨p₀.paymentId, .chose k⟩ := by
    show Function.update s₀.tasks 0 _ 0 = _
    exact Function.update_self ..
  have hturn : System.turn ResolveHopRequest.next 0 s₀ = .ok s₁ :=
    System.turn_of_next (ResolveHopRequest.next_of_chooseHop hchoose)
  have hnext := ResolveHopRequest.next_of_resolveChosenHop hresolve
  rw [← htask] at hnext
  have hturn' := System.turn_of_next (s := s₁) hnext
  have hrun := Run.step (Run.step .start hturn) hturn'
  refine ⟨s₀, hstart, _, _, hrun, fun p hp hinTurn => ?_⟩
  have htakes := (resolvedInTurn_iff_of_run hstart hrun hp).mp hinTurn (s₁, 0) List.mem_cons_self
  have hlast : p₀.unresolved.getLast? = some k :=
    htakes (by rw [htask]) k (by rw [htask]) p₀ hstored hstatus
  rw [hmany, List.getLast?_cons_cons] at hlast
  have hnodup := hmany ▸ p₀.nodup_unresolved
  exact (List.nodup_cons.mp hnodup).1 (List.mem_of_getLast? hlast)

end

/-! ### Two requests for one hop -/

namespace Sample

/-- The payment over the hub, after its preimage was revealed. -/
def resolvingPayment : MultiHopPayment := { StateChannel.Sample.hubPayment with status := .resolving }

/-- Requests for this payment. -/
def hubRequests : System MultiHopManager ResolveHopRequest :=
  ⟨StateChannel.Sample.noPayments.put resolvingPayment, fun _ => ⟨fill 32 9, .arrived⟩⟩

/-- The same, after the hub's outgoing hop was resolved. -/
def lastHopPayment : MultiHopPayment := resolvingPayment.resolve 1

def lastHopRequests : System MultiHopManager ResolveHopRequest :=
  ⟨StateChannel.Sample.noPayments.put lastHopPayment, fun _ => ⟨fill 32 9, .arrived⟩⟩

end Sample

end Service
