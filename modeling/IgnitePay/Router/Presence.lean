/-
Which connection a DID is reached at.

The session manager keeps one sender for each DID, and the two tasks of a connection end
in their own ways: the task that receives takes the sender of its DID out of the
manager, whichever connection that is by then, and where the sending task ends first the
other is aborted and takes nothing out.

* `accurate_iff` — the manager holds the sender of the latest connection of each DID, as
  long as it is open, in exactly the runs in which no older connection ends on its
  receiving side while the latest is open, and no latest connection on its sending side.
-/
import IgnitePay.Lib.Run
import IgnitePay.Lib.Store

namespace Router

open Machine

/-- `SessionManager`; a sender is told by the number of its connection. -/
structure SessionManager where
  sessions : Store.Map String ℕ

namespace SessionManager

instance : EmptyCollection SessionManager := ⟨⟨∅⟩⟩

/-- Register a session. If the DID already had a session, the old one is replaced. -/
def register (m : SessionManager) (did : String) (sender : ℕ) : SessionManager :=
  ⟨m.sessions.insert did sender⟩

/-- Unregister a session when the WebSocket disconnects. -/
def unregister (m : SessionManager) (did : String) : SessionManager := ⟨m.sessions.erase did⟩

/-- The sender that a text for a DID goes to. -/
def sender (m : SessionManager) (did : String) : Option ℕ := m.sessions.lookup did

/-- Check if a DID is currently connected. -/
def isOnline (m : SessionManager) (did : String) : Bool := (m.sender did).isSome

@[simp] theorem sender_empty (did : String) : (∅ : SessionManager).sender did = none := rfl

theorem sender_register (m : SessionManager) (did did' : String) (i : ℕ) :
    (m.register did i).sender did' = if did' = did then some i else m.sender did' :=
  Store.lookup_insert_eq _ _ _ _

theorem sender_unregister (m : SessionManager) (did did' : String) :
    (m.unregister did).sender did' = if did' = did then none else m.sender did' := by
  show (m.sessions.erase did).lookup did' = _
  by_cases h : did' = did
  · rw [if_pos h, h, AList.lookup_erase]
  · rw [if_neg h]
    exact AList.lookup_erase_ne h

end SessionManager

/-! ### Connections -/

/-- A connection, as `handle_socket` sees it. -/
inductive Connection
  | none
  | authenticating
  | rejected
  | opened (session_did : String)
  | closed
  deriving DecidableEq

/-- The manager and the connections; `latest` is the connection that was the last to
authenticate for a DID. -/
structure Presence where
  manager : SessionManager
  connections : ℕ → Connection
  latest : String → Option ℕ

def Presence.start : Presence := ⟨∅, fun _ => .none, fun _ => none⟩

inductive SocketEvent
  | connects (i : ℕ)
  | authenticates (i : ℕ) (did : String)
  | fails (i : ℕ)
  /-- The receiving task comes to its end: the peer closed, or the stream broke. -/
  | receiverEnds (i : ℕ)
  /-- The sending task comes to its end, and the receiving one is aborted. -/
  | senderEnds (i : ℕ)
  deriving DecidableEq

namespace Presence

def setConnection (p : Presence) (i : ℕ) (c : Connection) : Presence :=
  { p with connections := Function.update p.connections i c }

/-- What happens to a connection; nothing happens to one that is not there to do it. -/
def step (e : SocketEvent) (p : Presence) : Except Unit Presence :=
  match e with
  | .connects i =>
    match p.connections i with
    | .none => .ok (p.setConnection i .authenticating)
    | _ => .error ()
  | .authenticates i did =>
    match p.connections i with
    | .authenticating => .ok {
        manager := p.manager.register did i
        connections := Function.update p.connections i (.opened did)
        latest := Function.update p.latest did (some i) }
    | _ => .error ()
  | .fails i =>
    match p.connections i with
    | .authenticating => .ok (p.setConnection i .rejected)
    | _ => .error ()
  | .receiverEnds i =>
    match p.connections i with
    | .opened did => .ok { p.setConnection i .closed with manager := p.manager.unregister did }
    | _ => .error ()
  | .senderEnds i =>
    match p.connections i with
    | .opened _ => .ok (p.setConnection i .closed)
    | .rejected => .ok (p.setConnection i .closed)
    | _ => .error ()

/-- The sender that is held for a DID is that of its latest connection, if that is open. -/
def Accurate (p : Presence) : Prop :=
  ∀ did i, p.manager.sender did = some i ↔
    p.latest did = some i ∧ p.connections i = .opened did

/-- An older connection does not end on its receiving side while the latest is open, and the
latest does not end on its sending side. -/
def EndsWell (p : Presence) : SocketEvent → Prop
  | .receiverEnds i => ∀ did j, p.connections i = .opened did → p.latest did = some j → j ≠ i →
    p.connections j ≠ .opened did
  | .senderEnds i => ∀ did, p.connections i = .opened did → p.latest did ≠ some i
  | _ => True

variable {p p' : Presence}

theorem accurate_start : start.Accurate := by
  intro did i
  show none = some i ↔ none = some i ∧ _
  simp

/-- A connection that is not open before or after may change. -/
theorem Accurate.setConnection (h : p.Accurate) {i : ℕ} {c : Connection}
    (hbefore : ∀ did, p.connections i ≠ .opened did) (hafter : ∀ did, c ≠ .opened did) :
    (p.setConnection i c).Accurate := by
  intro did j
  show p.manager.sender did = some j ↔
    p.latest did = some j ∧ Function.update p.connections i c j = .opened did
  rw [h did j, Function.update_apply]
  split
  · next hj =>
    subst hj
    simp [hbefore did, hafter did]
  · rfl

theorem Accurate.authenticates (h : p.Accurate) {i : ℕ} {did : String}
    (hi : p.connections i = .authenticating) :
    Accurate ⟨p.manager.register did i, Function.update p.connections i (.opened did),
      Function.update p.latest did (some i)⟩ := by
  intro did' j
  show (p.manager.register did i).sender did' = some j ↔
    Function.update p.latest did (some i) did' = some j ∧
      Function.update p.connections i (.opened did) j = .opened did'
  rw [SessionManager.sender_register, Function.update_apply, Function.update_apply]
  by_cases hdid : did' = did
  · subst hdid
    rw [if_pos rfl, if_pos rfl]
    constructor
    · intro hj
      obtain rfl := Option.some_inj.mp hj
      exact ⟨rfl, if_pos rfl⟩
    · exact And.left
  · rw [if_neg hdid, if_neg hdid, h did' j]
    by_cases hj : j = i
    · subst hj
      rw [hi, if_pos rfl]
      constructor
      · rintro ⟨-, hopen⟩
        exact absurd hopen (by simp)
      · rintro ⟨-, hopen⟩
        exact absurd (Connection.opened.inj hopen).symm hdid
    · rw [if_neg hj]

theorem accurate_receiverEnds_iff (h : p.Accurate) {i : ℕ} {did : String}
    (hi : p.connections i = .opened did) :
    Accurate { p.setConnection i .closed with manager := p.manager.unregister did } ↔
      p.EndsWell (.receiverEnds i) := by
  have hsender : ∀ did', did' ≠ did →
      (p.manager.unregister did).sender did' = p.manager.sender did' := by
    intro did' hne
    rw [SessionManager.sender_unregister, if_neg hne]
  constructor
  · intro hnew did' j hopen hlatest hne hj
    obtain rfl : did = did' := Connection.opened.inj (hi.symm.trans hopen)
    have hheld := (hnew did j).mpr ⟨hlatest, by
      show Function.update p.connections i _ j = _
      rw [Function.update_of_ne hne, hj]⟩
    rw [SessionManager.sender_unregister, if_pos rfl] at hheld
    exact absurd hheld (by simp)
  · intro hwell did' j
    show (p.manager.unregister did).sender did' = some j ↔
      p.latest did' = some j ∧ Function.update p.connections i .closed j = .opened did'
    rw [Function.update_apply]
    by_cases hdid : did' = did
    · subst hdid
      rw [SessionManager.sender_unregister, if_pos rfl]
      constructor
      · intro hnone
        exact absurd hnone (by simp)
      · rintro ⟨hlatest, hopen⟩
        split at hopen
        · exact absurd hopen (by simp)
        · next hne => exact absurd hopen (hwell did' j hi hlatest hne)
    · rw [hsender did' hdid, h did' j]
      split
      · next hj =>
        subst hj
        rw [hi]
        constructor
        · rintro ⟨-, hopen⟩
          exact absurd (Connection.opened.inj hopen).symm hdid
        · rintro ⟨-, hopen⟩
          exact absurd hopen (by simp)
      · rfl

theorem accurate_senderEnds_iff (h : p.Accurate) {i : ℕ} {did : String}
    (hi : p.connections i = .opened did) :
    (p.setConnection i .closed).Accurate ↔ p.EndsWell (.senderEnds i) := by
  constructor
  · intro hnew did' hopen hlatest
    have hheld : p.manager.sender did' = some i := (h did' i).mpr ⟨hlatest, hopen⟩
    obtain ⟨-, hclosed⟩ := (hnew did' i).mp hheld
    have hclosed : Function.update p.connections i .closed i = .opened did' := hclosed
    rw [Function.update_self] at hclosed
    exact absurd hclosed (by simp)
  · intro hwell did' j
    show p.manager.sender did' = some j ↔
      p.latest did' = some j ∧ Function.update p.connections i .closed j = .opened did'
    rw [h did' j, Function.update_apply]
    split
    · next hj =>
      subst hj
      constructor
      · rintro ⟨hlatest, hopen⟩
        exact absurd hlatest (hwell did' hopen)
      · rintro ⟨-, hopen⟩
        exact absurd hopen (by simp)
    · rfl

/-- From a state in which the manager is accurate. -/
theorem accurate_step_iff (h : p.Accurate) {e : SocketEvent} (hstep : step e p = .ok p') :
    p'.Accurate ↔ p.EndsWell e := by
  cases e with
  | connects i =>
    rw [step] at hstep
    split at hstep
    · next hi =>
      obtain rfl := Except.ok.inj hstep
      exact iff_of_true (h.setConnection (by simp [hi]) (by simp)) trivial
    · exact absurd hstep (by simp)
  | authenticates i did =>
    rw [step] at hstep
    split at hstep
    · next hi =>
      obtain rfl := Except.ok.inj hstep
      exact iff_of_true (h.authenticates hi) trivial
    · exact absurd hstep (by simp)
  | fails i =>
    rw [step] at hstep
    split at hstep
    · next hi =>
      obtain rfl := Except.ok.inj hstep
      exact iff_of_true (h.setConnection (by simp [hi]) (by simp)) trivial
    · exact absurd hstep (by simp)
  | receiverEnds i =>
    rw [step] at hstep
    split at hstep
    · next did hi =>
      obtain rfl := Except.ok.inj hstep
      exact accurate_receiverEnds_iff h hi
    · exact absurd hstep (by simp)
  | senderEnds i =>
    rw [step] at hstep
    split at hstep
    · next did hi =>
      obtain rfl := Except.ok.inj hstep
      exact accurate_senderEnds_iff h hi
    · next hi =>
      obtain rfl := Except.ok.inj hstep
      refine iff_of_true (h.setConnection (by simp [hi]) (by simp)) fun did hopen => ?_
      exact absurd (hi.symm.trans hopen) (by simp)
    · exact absurd hstep (by simp)

end Presence

theorem accurate_iff {h : List (Presence × SocketEvent)} {p : Presence}
    (hrun : Run Presence.step .start h p) :
    (∀ p' ∈ Run.states h p, p'.Accurate) ↔ ∀ c ∈ h, c.1.EndsWell c.2 :=
  @Run.forall_states_iff _ _ _ _ _ _ _ Presence.Accurate Presence.EndsWell (fun _ _ => True)
    Presence.accurate_start (fun _ _ _ _ _ hp _ hstep => Presence.accurate_step_iff hp hstep) hrun
    fun _ _ => trivial

namespace Sample

/-- A connection of a DID, and then another one. -/
def reconnect : List SocketEvent :=
  [.connects 0, .authenticates 0 "did", .connects 1, .authenticates 1 "did"]

end Sample

/-- The newer connection ends on its receiving side, and then the older one. -/
theorem accurate_reconnect : ∃ h p, Run Presence.step .start h p ∧
    h.map Prod.snd = .receiverEnds 0 :: .receiverEnds 1 :: Sample.reconnect.reverse ∧
    ∀ p' ∈ Run.states h p, p'.Accurate := by
  have hrun := Run.step (Run.step (Run.step (Run.step (Run.step (Run.step
    (@Run.start _ _ _ Presence.step .start) (i := .connects 0) rfl) (i := .authenticates 0 "did") rfl)
    (i := .connects 1) rfl) (i := .authenticates 1 "did") rfl) (i := .receiverEnds 1) rfl)
    (i := .receiverEnds 0) rfl
  refine ⟨_, _, hrun, rfl, (accurate_iff hrun).mpr ?_⟩
  intro c hc
  simp only [List.mem_cons, List.not_mem_nil, or_false] at hc
  rcases hc with rfl | rfl | rfl | rfl | rfl | rfl
  · intro did j hopen hlatest _
    obtain rfl : "did" = did := Connection.opened.inj hopen
    obtain rfl : 1 = j := Option.some_inj.mp hlatest
    show Connection.closed ≠ _
    simp
  · intro did j hopen hlatest hne
    obtain rfl : "did" = did := Connection.opened.inj hopen
    exact absurd (Option.some_inj.mp hlatest).symm hne
  · trivial
  · trivial
  · trivial
  · trivial

/-- The older connection ends, and takes the newer one offline. -/
theorem not_accurate_reconnect :
    ¬ ∀ h p, Run Presence.step .start h p → p.Accurate := by
  intro hall
  have hrun := Run.step (Run.step (Run.step (Run.step (Run.step
    (@Run.start _ _ _ Presence.step .start) (i := .connects 0) rfl) (i := .authenticates 0 "did") rfl)
    (i := .connects 1) rfl) (i := .authenticates 1 "did") rfl) (i := .receiverEnds 0) rfl
  have hheld := (hall _ _ hrun "did" 1).mpr ⟨rfl, rfl⟩
  exact absurd hheld (by decide)

end Router
