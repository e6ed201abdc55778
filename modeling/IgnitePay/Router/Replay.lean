/-
Dispatches that run at the same time, and the ids they handle.

A dispatch reads the clock for the checks of the times and again for the record, looks
the id up in the record and, in a step of its own, enters it.  In between, others run and
time goes on.

* `handledOnce` — if a dispatch that is about to handle an id again has seen what was handled
  before, and the window of that had to close before its record expired, then no id is handled
  twice while the checks of the times accept the message that it was handled for.
-/
import IgnitePay.Lib.Run
import IgnitePay.Lib.Tasks
import IgnitePay.Router.Dispatch

namespace Router

open Machine

/-- A message that was handled, the clock that its record was counted from, and the time. -/
structure Handling where
  msg : Message
  now : ℕ
  time : ℕ

/-- When the record of it expires. -/
def Handling.expiry (e : Handling) : ℕ := e.now + ttl

/-- What the dispatches share, and the messages handled so far, the latest first. -/
structure Shared where
  clock : ℕ
  seen : SeenIds
  handled : List Handling

/-- How far a dispatch has come; `before` is what was handled when it looked the id up. -/
inductive Dispatch
  | idle
  | received (msg : Message)
  | timely (msg : Message)
  | counted (msg : Message) (now : ℕ) (full : Bool)
  | pruned (msg : Message) (now : ℕ)
  | unseen (msg : Message) (now : ℕ) (before : List Handling)
  | finished

section

variable (overflowChecks : Bool) (max_age : UInt64)

/-- `route_message`, from one access to the record to the next. -/
def dispatchSection : Dispatch → Shared → Except Unit (Dispatch × Shared)
  | .received msg, s =>
    match checkTimes overflowChecks max_age s.clock msg with
    | .ok _ => .ok (.timely msg, s)
    | .error _ => .ok (.finished, s)
  | .timely msg, s => .ok (.counted msg s.clock (isFull s.seen), s)
  | .counted msg now full, s =>
    .ok (.pruned msg now, if full then { s with seen := dropExpired now s.seen } else s)
  | .pruned msg now, s =>
    match checkSeen now s.seen msg.id with
    | .ok _ => .ok (.unseen msg now s.handled, s)
    | .error _ => .ok (.finished, s)
  | .unseen msg now _, s =>
    .ok (.finished, { s with
      seen := markSeen now msg.id s.seen
      handled := ⟨msg, now, s.clock⟩ :: s.handled })
  | .idle, _ => .error ()
  | .finished, _ => .error ()

inductive ReplayEvent
  | arrives (i : ℕ) (msg : Message)
  | turn (i : ℕ)
  | tick (now : ℕ)

/-- The clock does not go back. -/
def replayStep (e : ReplayEvent) (s : System Shared Dispatch) :
    Except Unit (System Shared Dispatch) :=
  match e with
  | .arrives i msg =>
    match s.tasks i with
    | .idle => .ok { s with tasks := Function.update s.tasks i (.received msg) }
    | _ => .error ()
  | .turn i => System.turn (dispatchSection overflowChecks max_age) i s
  | .tick now => do
    require (s.shared.clock ≤ now) ()
    pure { s with shared := { s.shared with clock := now } }

/-- When an id is handled again, the checks accept no longer what it was handled for before. -/
def HandledOnce (s : Shared) : Prop :=
  s.handled.Pairwise fun later earlier => later.msg.id = earlier.msg.id →
    ¬ Accepts overflowChecks max_age later.time earlier.msg

/-- A dispatch that is to handle an id again looked it up after all earlier messages with the
id were handled, and the windows of these close before their records expire. -/
def Spaced (s : System Shared Dispatch) : ReplayEvent → Prop
  | .turn i =>
    match s.tasks i with
    | .unseen msg _ before => ∀ e ∈ s.shared.handled, e.msg.id = msg.id →
      e ∈ before ∧ ¬ Accepts overflowChecks max_age e.expiry e.msg
    | _ => True
  | _ => True

end

/-- Of each handled message there is a record, until it has expired. -/
def Recorded (s : Shared) : Prop :=
  ∀ e ∈ s.handled, e.expiry ≤ s.clock ∨ ∃ y, s.seen.lookup e.msg.id = some y ∧ e.expiry ≤ y

/-- What a dispatch knows: its clock was read before, and what was handled when it looked its
id up has expired. -/
def Knows (s : Shared) : Dispatch → Prop
  | .counted _ now _ => now ≤ s.clock
  | .pruned _ now => now ≤ s.clock
  | .unseen msg now before =>
    now ≤ s.clock ∧ ∀ e ∈ before, e.msg.id = msg.id → e.expiry ≤ s.clock
  | _ => True

variable {overflowChecks : Bool} {max_age : UInt64}

theorem Knows.mono {s s' : Shared} {d : Dispatch} (h : Knows s d) (hclock : s.clock ≤ s'.clock) :
    Knows s' d := by
  cases d with
  | counted msg now full => exact le_trans h hclock
  | pruned msg now => exact le_trans h hclock
  | unseen msg now before =>
    exact ⟨h.1.trans hclock, fun e he hid => (h.2 e he hid).trans hclock⟩
  | idle | received | timely | finished => trivial

/-- Pruning takes no record that is still needed. -/
theorem Recorded.dropExpired {s : Shared} (h : Recorded s) {now : ℕ} (hnow : now ≤ s.clock) :
    Recorded { s with seen := dropExpired now s.seen } := by
  intro e he
  rcases h e he with hexpired | ⟨y, hy, hle⟩
  · exact .inl hexpired
  · by_cases hlive : now < y
    · refine .inr ⟨y, ?_, hle⟩
      show (Store.retain _ s.seen).lookup e.msg.id = some y
      rw [Store.lookup_retain, hy]
      simp [Option.filter, hlive]
    · exact .inl (hle.trans ((not_lt.mp hlive).trans hnow))

/-- Looking an id up: what was handled for it has expired. -/
theorem expired_of_checkSeen {s : Shared} (h : Recorded s) {now : ℕ} (hnow : now ≤ s.clock)
    {id : String} (hcheck : checkSeen now s.seen id = .ok ()) :
    ∀ e ∈ s.handled, e.msg.id = id → e.expiry ≤ s.clock := by
  rintro e he rfl
  rcases h e he with hexpired | ⟨y, hy, hle⟩
  · exact hexpired
  · rw [checkSeen, hy] at hcheck
    exact hle.trans ((require_eq_ok.mp hcheck).trans hnow)

/-- Handling a message whose id has no record that is still needed. -/
theorem Recorded.markSeen {s : Shared} (h : Recorded s) {now : ℕ} {msg : Message}
    (hexpired : ∀ e ∈ s.handled, e.msg.id = msg.id → e.expiry ≤ s.clock) :
    Recorded { s with
      seen := markSeen now msg.id s.seen
      handled := ⟨msg, now, s.clock⟩ :: s.handled } := by
  intro e he
  rcases List.mem_cons.mp he with rfl | he
  · exact .inr ⟨now + ttl, AList.lookup_insert _, le_rfl⟩
  · by_cases hid : e.msg.id = msg.id
    · exact .inl (hexpired e he hid)
    · refine (h e he).imp_right ?_
      rintro ⟨y, hy, hle⟩
      exact ⟨y, (AList.lookup_insert_ne hid).trans hy, hle⟩

/-- The invariant of a run. -/
structure ReplayInv (overflowChecks : Bool) (max_age : UInt64) (s : System Shared Dispatch) :
    Prop where
  recorded : Recorded s.shared
  knows : ∀ i, Knows s.shared (s.tasks i)
  once : HandledOnce overflowChecks max_age s.shared

namespace ReplayInv

variable {s : System Shared Dispatch}

/-- A task that goes on, while the clock does not go back. -/
theorem knows_update (h : ReplayInv overflowChecks max_age s) {shared : Shared} {i : ℕ}
    {d : Dispatch} (hclock : s.shared.clock ≤ shared.clock) (hd : Knows shared d) :
    ∀ j, Knows shared (Function.update s.tasks i d j) := by
  intro j
  rw [Function.update_apply]
  split
  · exact hd
  · exact (h.knows j).mono hclock

theorem turn (h : ReplayInv overflowChecks max_age s) {i : ℕ} {s' : System Shared Dispatch}
    (hspaced : Spaced overflowChecks max_age s (.turn i))
    (hturn : System.turn (dispatchSection overflowChecks max_age) i s = .ok s') :
    ReplayInv overflowChecks max_age s' := by
  obtain ⟨d, shared, hnext, rfl⟩ := System.turn_eq_ok.mp hturn
  have hknows := h.knows i
  rcases hi : s.tasks i with _ | msg | msg | ⟨msg, now, full⟩ | ⟨msg, now⟩ | ⟨msg, now, before⟩ | _
  · rw [hi] at hnext
    exact absurd hnext (by simp [dispatchSection])
  · rw [hi, dispatchSection] at hnext
    split at hnext
    · obtain ⟨rfl, rfl⟩ := Prod.ext_iff.mp (Except.ok.inj hnext)
      exact ⟨h.recorded, h.knows_update le_rfl trivial, h.once⟩
    · obtain ⟨rfl, rfl⟩ := Prod.ext_iff.mp (Except.ok.inj hnext)
      exact ⟨h.recorded, h.knows_update le_rfl trivial, h.once⟩
  · rw [hi] at hnext
    obtain ⟨rfl, rfl⟩ := Prod.ext_iff.mp (Except.ok.inj hnext)
    exact ⟨h.recorded, h.knows_update le_rfl le_rfl, h.once⟩
  · rw [hi] at hnext hknows
    obtain ⟨rfl, rfl⟩ := Prod.ext_iff.mp (Except.ok.inj hnext)
    cases full with
    | false => exact ⟨h.recorded, h.knows_update le_rfl hknows, h.once⟩
    | true => exact ⟨h.recorded.dropExpired hknows, h.knows_update le_rfl hknows, h.once⟩
  · rw [hi] at hnext hknows
    rw [dispatchSection] at hnext
    split at hnext
    · next hcheck =>
      obtain ⟨rfl, rfl⟩ := Prod.ext_iff.mp (Except.ok.inj hnext)
      exact ⟨h.recorded, h.knows_update le_rfl
        ⟨hknows, expired_of_checkSeen h.recorded hknows hcheck⟩, h.once⟩
    · obtain ⟨rfl, rfl⟩ := Prod.ext_iff.mp (Except.ok.inj hnext)
      exact ⟨h.recorded, h.knows_update le_rfl trivial, h.once⟩
  · rw [hi] at hnext hknows
    obtain ⟨rfl, rfl⟩ := Prod.ext_iff.mp (Except.ok.inj hnext)
    have hspaced : ∀ e ∈ s.shared.handled, e.msg.id = msg.id →
        e ∈ before ∧ ¬ Accepts overflowChecks max_age e.expiry e.msg := by
      rw [Spaced, hi] at hspaced
      exact hspaced
    have hexpired : ∀ e ∈ s.shared.handled, e.msg.id = msg.id → e.expiry ≤ s.shared.clock :=
      fun e he hid => hknows.2 e (hspaced e he hid).1 hid
    refine ⟨h.recorded.markSeen hexpired, h.knows_update le_rfl trivial, ?_⟩
    refine List.pairwise_cons.mpr ⟨fun e he hid haccepts => ?_, h.once⟩
    exact (hspaced e he hid.symm).2 (accepts_of_le (hexpired e he hid.symm) haccepts)
  · rw [hi] at hnext
    exact absurd hnext (by simp [dispatchSection])

theorem step (h : ReplayInv overflowChecks max_age s) {e : ReplayEvent} {s' : System Shared Dispatch}
    (hspaced : Spaced overflowChecks max_age s e)
    (hstep : replayStep overflowChecks max_age e s = .ok s') :
    ReplayInv overflowChecks max_age s' := by
  cases e with
  | arrives i msg =>
    rw [replayStep] at hstep
    split at hstep
    · obtain rfl := Except.ok.inj hstep
      exact ⟨h.recorded, h.knows_update le_rfl trivial, h.once⟩
    · exact absurd hstep (by simp)
  | turn i => exact h.turn hspaced hstep
  | tick now =>
    obtain ⟨_, hrequire, hnext⟩ := bind_eq_ok.mp hstep
    have hle : s.shared.clock ≤ now := require_eq_ok.mp hrequire
    obtain rfl := Except.ok.inj hnext
    refine ⟨fun e he => ?_, fun i => (h.knows i).mono hle, h.once⟩
    exact (h.recorded e he).imp_left fun hexpired => hexpired.trans hle

end ReplayInv

/-- No dispatch has begun, at a time. -/
def replayStart (clock : ℕ) : System Shared Dispatch := ⟨⟨clock, ∅, []⟩, fun _ => .idle⟩

namespace Sample

/-- A message that was created at time zero. -/
def hello : Message := ⟨"m", "hello", none, .null, some 0, none, none, []⟩

/-- It arrives, and its dispatch runs to the end. -/
def dispatched (i : ℕ) : List ReplayEvent :=
  [.arrives i hello, .turn i, .turn i, .turn i, .turn i, .turn i]

/-- Two messages with one id were handled, the earlier of which is accepted at the later time. -/
def handledAgain : List Handling → Bool
  | [later, earlier] => decide (later.msg.id = earlier.msg.id) &&
    (checkTimes true 86400 later.time earlier.msg).toBool
  | _ => false

end Sample

end Router
