/-
What becomes of the messages that the router takes in.

The requests are served one after the other here.  An envelope that is forwarded makes one copy if
its owner is reached, and otherwise one for each key of the owner, with one more if the recipient
wants its messages over WebSocket and is reached.  Every copy is later delivered once, in a batch or
by itself, or waits, or is lost: to a message that comes into a full queue, by its age, or because
the batch that it is picked up in has nowhere to go.

* `Books` — how a step changes the number of copies of an envelope;
* `books_handler` — what each request makes and loses;
* `envelopes_accounted` — so in every run, what is delivered, what waits and what was lost is what was made.
-/
import IgnitePay.Router.Recipients

namespace Router

open Machine Handler

/-! ### Copies -/

/-- The copies of an envelope in a queue. -/
def inQueue (e : String) (q : List QueuedMessage) : ℕ := q.countP fun m => m.encrypted_envelope = e

/-- What one text counts. -/
def copy (e text : String) : ℕ := if text = e then 1 else 0

theorem inQueue_singleton (e : String) (q : QueuedMessage) :
    inQueue e [q] = copy e q.encrypted_envelope := by
  simp [inQueue, copy, List.countP_cons]

theorem count_envelopes (e : String) (q : List QueuedMessage) :
    (q.map QueuedMessage.encrypted_envelope).count e = inQueue e q := by
  rw [List.count, List.countP_map]
  exact List.countP_congr (by simp)

theorem inQueue_append (e : String) (q q' : List QueuedMessage) :
    inQueue e (q ++ q') = inQueue e q + inQueue e q' := List.countP_append

theorem inQueue_filter (e : String) (p : QueuedMessage → Bool) (q : List QueuedMessage) :
    inQueue e (q.filter p) + inQueue e (q.filter fun m => !p m) = inQueue e q := by
  simp only [inQueue, List.countP_filter]
  induction q with
  | nil => rfl
  | cons m q ih =>
    simp only [List.countP_cons]
    cases p m with
    | false => simp; omega
    | true => simp; omega

/-- A queue is divided by a test, and what does not pass it by a limit. -/
theorem inQueue_divide (e : String) (p : QueuedMessage → Bool) (limit : ℕ) (q : List QueuedMessage) :
    inQueue e ((q.filter fun m => !p m).drop limit) + inQueue e ((q.filter fun m => !p m).take limit) +
      inQueue e (q.filter p) = inQueue e q := by
  rw [Nat.add_comm (inQueue e (List.drop _ _)), ← inQueue_append, List.take_append_drop, Nat.add_comm,
    inQueue_filter]

namespace Mediator

/-- The copies of an envelope that wait. -/
def waiting (e : String) (m : Mediator) : ℕ :=
  Store.weight (fun _ q => inQueue e q) m.message_store.queues

/-- The copies of an envelope that were put into the channel of a connection. -/
def delivered (e : String) (m : Mediator) : ℕ := (m.sent.flatMap fun p => p.2.envelopes).count e

def held (e : String) (m : Mediator) : ℕ := m.delivered e + m.waiting e

variable {e : String} {m : Mediator}

theorem waiting_setQueue (key : String) (q : List QueuedMessage) :
    ({ m with message_store := m.message_store.setQueue key q }).waiting e +
      inQueue e (m.message_store.queue key) = m.waiting e + inQueue e q := by
  have hinsert := Store.weight_insert (fun _ q => inQueue e q) m.message_store.queues key q
  have hold : Store.contribution (fun _ q => inQueue e q) m.message_store.queues key =
      inQueue e (m.message_store.queue key) := by
    rw [Store.contribution, InMemoryMessageStore.queue]
    rcases m.message_store.queues.lookup key with _ | q'
    · rfl
    · rfl
  rwa [hold] at hinsert

theorem sendTo_eq (did : String) (out : Outgoing) : (m.sendTo did out).2 =
    match m.reached did with
    | some i => { m with sent := (i, out) :: m.sent }
    | none => m := by
  rw [sendTo, reached]
  rcases m.sessions.sender did with _ | i
  · rfl
  · by_cases hi : i ∈ m.dropped
    · simp [hi]
    · simp [hi]

theorem sendTo_error (did : String) (out : Outgoing) :
    (∃ err, (m.sendTo did out).1 = .error err) ↔ m.reached did = none := by
  rw [sendTo, reached]
  rcases m.sessions.sender did with _ | i
  · simp
  · by_cases hi : i ∈ m.dropped
    · simp [hi]
    · simp [hi]

theorem reached_of_offline {did : String} (h : m.isOnline did = false) : m.reached did = none := by
  rw [isOnline, SessionManager.isOnline, Option.isSome_eq_false_iff, Option.isNone_iff_eq_none] at h
  rw [reached, h]

end Mediator

/-- From one state to the other some copies of an envelope are made and some are lost. -/
structure Books (e : String) (m m' : Mediator) (made lost : ℕ) : Prop where
  total : m'.held e + lost = m.held e + made
  bound : m'.message_store.max_queued = m.message_store.max_queued

section

variable {e : String} {m m' m'' : Mediator} {made lost made' lost' : ℕ}

theorem Books.refl : Books e m m 0 0 := ⟨rfl, rfl⟩

theorem Books.trans (h : Books e m m' made lost) (h' : Books e m' m'' made' lost') :
    Books e m m'' (made + made') (lost + lost') := by
  refine ⟨?_, h'.bound.trans h.bound⟩
  have := h.total
  have := h'.total
  omega

/-- Copies can be made and lost at once. -/
theorem Books.balance (h : Books e m m' made lost) (heq : made + lost' = made' + lost) :
    Books e m m' made' lost' := by
  refine ⟨?_, h.bound⟩
  have := h.total
  omega

theorem Books.congr (h : Books e m m' made lost) (hmade : made = made') (hlost : lost = lost') :
    Books e m m' made' lost' := hmade ▸ hlost ▸ h

/-- What touches neither the queues nor the channels. -/
theorem Books.of_same (hsent : m'.sent = m.sent) (hstore : m'.message_store = m.message_store) :
    Books e m m' 0 0 := by
  refine ⟨?_, by rw [hstore]⟩
  rw [Mediator.held, Mediator.held, Mediator.delivered, Mediator.delivered, Mediator.waiting,
    Mediator.waiting, hsent, hstore]

theorem books_sendTo (did : String) (out : Outgoing) : Books e m (m.sendTo did out).2
    (if (m.reached did).isSome then out.envelopes.count e else 0) 0 := by
  rw [Mediator.sendTo_eq]
  rcases m.reached did with _ | i
  · exact .refl
  · refine ⟨?_, rfl⟩
    have hdelivered : ({ m with sent := (i, out) :: m.sent }).delivered e =
        out.envelopes.count e + m.delivered e := by
      rw [Mediator.delivered, List.flatMap_cons, List.count_append, Mediator.delivered]
    have hwaiting : ({ m with sent := (i, out) :: m.sent }).waiting e = m.waiting e := rfl
    dsimp only
    rw [Mediator.held, hdelivered, hwaiting, Mediator.held, Option.isSome_some, if_pos rfl]
    omega

theorem books_answerTo (did : String) (a : Answer) : Books e m ((answerTo did a).run m).2
    (if (m.reached did).isSome then (Outgoing.answer a).envelopes.count e else 0) 0 := by
  rw [answerTo, run_read]
  rcases honline : m.isOnline did
  · rw [Mediator.reached_of_offline honline]
    exact .refl
  · exact books_sendTo did (.answer a)

/-! ### Storing -/

namespace Mediator

def isExpired (m : Mediator) (q : QueuedMessage) : Bool :=
  q.isExpired m.clock m.message_store.max_message_age_secs

/-- The copies that are lost where a message is put into the queue of a key: itself if it has
expired, the first of the queue if that is full. -/
def displaced (e : String) (q : QueuedMessage) (m : Mediator) (key : String) : ℕ :=
  if m.isExpired q then copy e q.encrypted_envelope
  else if m.message_store.max_queued ≤ (m.message_store.queue key).length then
    inQueue e ((m.message_store.queue key).take 1)
  else 0

/-- A message is put into the queues of some keys. -/
def storeEach (q : QueuedMessage) (keys : List String) (m : Mediator) : Mediator :=
  keys.foldl (fun m key => (m.storeForUser key q).2) m

end Mediator

/-- In a store with room for a message it is stored, if it has not expired. -/
theorem books_storeForUser (hbound : 0 < m.message_store.max_queued) (key : String) (q : QueuedMessage) :
    (m.storeForUser key q).1 = true ∧
      Books e m (m.storeForUser key q).2 (copy e q.encrypted_envelope) (m.displaced e q key) ∧
      ∀ key', key' ≠ key → ∀ q', (m.storeForUser key q).2.displaced e q' key' = m.displaced e q' key' := by
  rw [Mediator.storeForUser, InMemoryMessageStore.storeForUser, InMemoryMessageStore.enqueue,
    Mediator.displaced, Mediator.isExpired]
  split
  · next s hs =>
    split at hs
    · next hexpired =>
      obtain rfl := Option.some.inj hs
      rw [if_pos hexpired]
      exact ⟨rfl, ⟨Nat.add_comm _ _ ▸ rfl, rfl⟩, fun _ _ _ => rfl⟩
    · next hexpired =>
      rw [if_neg hexpired]
      -- The rest of the queue, with the message at its end, takes the place of the queue.
      obtain ⟨rest, hrest, rfl⟩ : ∃ rest, inQueue e rest +
          (if m.message_store.max_queued ≤ (m.message_store.queue key).length then
            inQueue e ((m.message_store.queue key).take 1) else 0) =
              inQueue e (m.message_store.queue key) ∧
          m.message_store.setQueue key (rest ++ [q]) = s := by
        split at hs
        · next hfull =>
          split at hs
          · cases hs
          · next first rest hqueue =>
            refine ⟨rest, ?_, Option.some.inj hs⟩
            rw [if_pos hfull, hqueue, List.take_succ_cons, List.take_zero, Nat.add_comm,
              ← inQueue_append]
            rfl
        · next hroom => exact ⟨_, by rw [if_neg hroom]; rfl, Option.some.inj hs⟩
      refine ⟨rfl, ⟨?_, rfl⟩, fun key' hne q' => ?_⟩
      · have hwaiting := m.waiting_setQueue (e := e) key (rest ++ [q])
        rw [inQueue_append, inQueue_singleton] at hwaiting
        have hdelivered : ({ m with
            message_store := m.message_store.setQueue key (rest ++ [q]) }).delivered e =
              m.delivered e := rfl
        dsimp only
        rw [Mediator.held, Mediator.held, hdelivered]
        omega
      · rw [Mediator.displaced, Mediator.displaced, Mediator.isExpired, Mediator.isExpired]
        dsimp only
        rw [InMemoryMessageStore.queue_setQueue, if_neg hne]
        rfl
  · next hs =>
    split at hs
    · cases hs
    · split at hs
      · next hfull =>
        split at hs
        · next hempty =>
          rw [hempty] at hfull
          exact absurd hfull (Nat.not_le.mpr hbound)
        · cases hs
      · cases hs

theorem run_storeAll (hbound : 0 < m.message_store.max_queued) (q : QueuedMessage) (k : Task)
    {keys : List String} (hkeys : keys.Nodup) :
    (storeAll q k keys).run m = k.run (m.storeEach q keys) ∧
      Books e m (m.storeEach q keys) (keys.length * copy e q.encrypted_envelope)
        (keys.map (m.displaced e q)).sum := by
  induction keys generalizing m with
  | nil => exact ⟨rfl, Books.refl.congr (Nat.zero_mul _).symm rfl⟩
  | cons key keys ih =>
    obtain ⟨hnew, hkeys⟩ := List.nodup_cons.mp hkeys
    obtain ⟨hstored, hbooks, hothers⟩ := books_storeForUser (e := e) hbound key q
    obtain ⟨hrun, hrest⟩ := ih (m := (m.storeForUser key q).2) (hbooks.bound ▸ hbound) hkeys
    have hdisplaced : keys.map ((m.storeForUser key q).2.displaced e q) =
        keys.map (m.displaced e q) :=
      List.map_congr_left fun key' hkey' => hothers key' (fun h => hnew (h ▸ hkey')) q
    rw [hdisplaced] at hrest
    constructor
    · rw [storeAll, run_call, run_check_pos hstored, hrun]
      rfl
    · refine (hbooks.trans hrest).congr ?_ ?_
      · rw [List.length_cons, Nat.succ_mul, Nat.add_comm]
      · rw [List.map_cons, List.sum_cons]

/-- A push is sent, if the channel is WebSocket and the DID is reached. -/
def pushed (m : Mediator) (did : String) : ℕ :=
  if m.device_token_store.getPushChannel did = "websocket" ∧ (m.reached did).isSome then 1 else 0

theorem books_notify (did msg_id : String) : Books e m ((notify did msg_id).run m).2 0 0 := by
  rw [notify, run_read]
  split
  · exact .of_same rfl rfl
  · exact .refl

/-- What is queued for a DID makes a copy for each key, and one more if it is pushed. -/
theorem books_queueFor (hbound : 0 < m.message_store.max_queued) (did : String) (q : QueuedMessage)
    {keys : List String} (hkeys : keys.Nodup) : Books e m ((queueFor did keys q).run m).2
      ((pushed m did + keys.length) * copy e q.encrypted_envelope) (keys.map (m.displaced e q)).sum := by
  rw [queueFor, run_read, pushed]
  by_cases hchannel : m.device_token_store.getPushChannel did = "websocket"
  · rw [if_pos hchannel, run_read]
    rcases honline : m.isOnline did
    · obtain ⟨hrun, hbooks⟩ := run_storeAll (e := e) hbound q (.answer (.ok ())) hkeys
      rw [hrun, Mediator.reached_of_offline honline]
      exact hbooks.congr (by simp) rfl
    · have hsend := books_sendTo (e := e) (m := m) did (.envelope q.encrypted_envelope)
      obtain ⟨hrun, hbooks⟩ := run_storeAll (e := e) (m := (m.sendTo did _).2)
        (hsend.bound ▸ hbound) q (.answer (.ok ())) hkeys
      have hdisplaced : (m.sendTo did (.envelope q.encrypted_envelope)).2.displaced e q =
          m.displaced e q := by
        rw [Mediator.sendTo_eq]
        split
        · rfl
        · rfl
      rw [hdisplaced] at hbooks
      have hcount : [q.encrypted_envelope].count e = copy e q.encrypted_envelope := by
        simp [copy, List.count_singleton]
      refine (congrArg (fun r : Reply × Mediator => Books e m r.2 _ _) hrun).mpr
        ((hsend.trans hbooks).congr ?_ (Nat.zero_add _))
      rw [show (Outgoing.envelope q.encrypted_envelope).envelopes = [q.encrypted_envelope] from rfl,
        hcount, Nat.add_mul]
      split
      · next hreached => rw [if_pos ⟨hchannel, hreached⟩, Nat.one_mul]
      · next hreached => rw [if_neg fun h => hreached h.2, Nat.zero_mul]
  · obtain ⟨hrun, hbooks⟩ := run_storeAll (e := e) hbound q (notify did q.id) hkeys
    rw [if_neg hchannel, if_neg fun h => hchannel h.1, hrun, Nat.zero_add]
    exact (hbooks.trans (books_notify did q.id)).congr rfl rfl

/-! ### Picking up -/

namespace Mediator

/-- The messages of a key that have not expired. -/
def valid (m : Mediator) (key : String) : List QueuedMessage :=
  (m.message_store.queue key).filter fun q => !m.isExpired q

/-- The copies of an envelope that have expired in the queue of a key. -/
def expired (e : String) (m : Mediator) (key : String) : ℕ :=
  inQueue e ((m.message_store.queue key).filter m.isExpired)

/-- What is taken from the queues of some keys, and what is left. -/
def dequeueEach (limit : ℕ) : List String → Mediator → List QueuedMessage × Mediator
  | [], m => ([], m)
  | key :: keys, m =>
    let r := m.dequeueBatch key limit
    let r' := dequeueEach limit keys r.2
    (r.1 ++ r'.1, r'.2)

end Mediator

theorem run_dequeueAll (limit : ℕ) (k : List QueuedMessage → Task) (keys : List String)
    (all_messages : List QueuedMessage) :
    (dequeueAll limit k keys all_messages).run m =
      (k (all_messages ++ (m.dequeueEach limit keys).1)).run (m.dequeueEach limit keys).2 := by
  induction keys generalizing m all_messages with
  | nil => rw [Mediator.dequeueEach, List.append_nil]; rfl
  | cons key keys ih =>
    rw [dequeueAll, run_call, ih, List.append_assoc]
    rfl

/-- The queue of the key loses what is taken and what has expired. -/
theorem books_dequeueBatch (key : String) (limit : ℕ) :
    (m.dequeueBatch key limit).1 = (m.valid key).take limit ∧
      Books e m (m.dequeueBatch key limit).2 0
        (inQueue e ((m.valid key).take limit) + m.expired e key) ∧
      ∀ key', key' ≠ key → (m.dequeueBatch key limit).2.valid key' = m.valid key' ∧
        (m.dequeueBatch key limit).2.expired e key' = m.expired e key' := by
  have hbounds := InMemoryMessageStore.dequeueBatch_bounds m.message_store m.clock key limit
  obtain ⟨hbatch, hqueue⟩ := InMemoryMessageStore.dequeueBatch_eq m.clock key limit m.message_store
  refine ⟨hbatch, ⟨?_, hbounds.1⟩, fun key' hne => ?_⟩
  · have hdivide := inQueue_divide e m.isExpired limit (m.message_store.queue key)
    have hdelivered : (m.dequeueBatch key limit).2.delivered e = m.delivered e := rfl
    have hwaiting : (m.dequeueBatch key limit).2.waiting e + inQueue e (m.message_store.queue key) =
        m.waiting e + inQueue e ((m.valid key).drop limit) := by
      rcases hlookup : m.message_store.queues.lookup key with _ | q
      · have hempty : m.message_store.queue key = [] := by
          rw [InMemoryMessageStore.queue, hlookup, Option.getD_none]
        rw [Mediator.valid, hempty, Mediator.dequeueBatch, InMemoryMessageStore.dequeueBatch, hlookup,
          List.filter_nil, List.drop_nil]
      · have hq : m.message_store.queue key = q := by
          rw [InMemoryMessageStore.queue, hlookup, Option.getD_some]
        rw [← m.waiting_setQueue key, Mediator.dequeueBatch, InMemoryMessageStore.dequeueBatch, hlookup,
          Mediator.valid, hq]
        rfl
    rw [Mediator.held, Mediator.held, hdelivered, Mediator.expired]
    rw [← Mediator.valid] at hdivide
    omega
  · have hold : (m.dequeueBatch key limit).2.message_store.queue key' = m.message_store.queue key' := by
      rw [show (m.dequeueBatch key limit).2.message_store.queue key' = _ from hqueue key', if_neg hne]
    have hage : (m.dequeueBatch key limit).2.isExpired = m.isExpired := by
      funext q
      rw [Mediator.isExpired, Mediator.isExpired,
        show (m.dequeueBatch key limit).2.message_store.max_message_age_secs = _ from hbounds.2]
      rfl
    rw [Mediator.valid, Mediator.expired, hold, hage]
    exact ⟨rfl, rfl⟩

theorem books_dequeueEach (limit : ℕ) {keys : List String} (hkeys : keys.Nodup) :
    inQueue e (m.dequeueEach limit keys).1 =
        (keys.map fun key => inQueue e ((m.valid key).take limit)).sum ∧
      Books e m (m.dequeueEach limit keys).2 0
        ((keys.map fun key => inQueue e ((m.valid key).take limit)).sum +
          (keys.map (m.expired e)).sum) := by
  induction keys generalizing m with
  | nil => exact ⟨rfl, .refl⟩
  | cons key keys ih =>
    obtain ⟨hnew, hkeys⟩ := List.nodup_cons.mp hkeys
    obtain ⟨hbatch, hbooks, hothers⟩ := books_dequeueBatch (e := e) (m := m) key limit
    obtain ⟨htaken, hrest⟩ := ih (m := (m.dequeueBatch key limit).2) hkeys
    have hvalid : (keys.map fun key' => inQueue e (((m.dequeueBatch key limit).2.valid key').take limit)) =
        keys.map fun key' => inQueue e ((m.valid key').take limit) :=
      List.map_congr_left fun key' hkey' => by rw [(hothers key' fun h => hnew (h ▸ hkey')).1]
    have hexpired : keys.map ((m.dequeueBatch key limit).2.expired e) = keys.map (m.expired e) :=
      List.map_congr_left fun key' hkey' => (hothers key' fun h => hnew (h ▸ hkey')).2
    rw [hvalid] at htaken
    rw [hvalid, hexpired] at hrest
    rw [List.map_cons, List.sum_cons, List.map_cons, List.sum_cons, Mediator.dequeueEach]
    dsimp only
    constructor
    · rw [inQueue_append, hbatch, htaken]
    · exact (hbooks.trans hrest).congr rfl (by omega)

/-- What is lost where the keys of a DID are picked up: what has expired, and all that is taken if the
DID is not reached. -/
def pickupLoss (c : Settings) (e : String) (m : Mediator) (sender : String) (limit : ℕ) : ℕ :=
  let keys := c.order.visit (m.keylist_store.listKeys sender)
  (keys.map (m.expired e)).sum +
    if (m.reached sender).isSome then 0
    else (keys.map fun key => inQueue e ((m.valid key).take limit)).sum

theorem reached_dequeueEach (limit : ℕ) (keys : List String) (did : String) :
    (m.dequeueEach limit keys).2.reached did = m.reached did := by
  induction keys generalizing m with
  | nil => rfl
  | cons key keys ih => exact ih.trans rfl

end

/-! ### Requests -/

section

variable (c : Settings) (e : String) (m : Mediator)

/-- The session that a forward is for. -/
def ownerOf (next_did : String) : Option String :=
  (m.keylist_store.resolveSession next_did).or
    (m.keylist_store.resolveSessionPrefix c.order next_did)

def keysOf (next_did : String) : List String :=
  match ownerOf c m next_did with
  | some owner => c.order.visit (m.keylist_store.listKeys owner)
  | none => [next_did]

/-- Who a forward is for and what it carries; nothing if it is refused. -/
def carried (msg : Message) : Option (String × String) :=
  match forwardNext msg, extractInnerForward msg with
  | .ok next_did, .ok inner_msg => if Previewable inner_msg then some (next_did, inner_msg) else none
  | _, _ => none

/-- The copies that a forward makes: one if the owner is reached. -/
def forwardMade (next_did inner_msg : String) : ℕ :=
  if ((ownerOf c m next_did).bind m.reached).isSome then copy e inner_msg
  else (pushed m next_did + (keysOf c m next_did).length) * copy e inner_msg

def forwardLost (next_did : String) (q : QueuedMessage) : ℕ :=
  if ((ownerOf c m next_did).bind m.reached).isSome then 0
  else ((keysOf c m next_did).map (m.displaced e q)).sum

/-- The message that a forward stores. -/
def forwardedMessage (msg_id : String) (msg : Message) (p : String × String) : QueuedMessage :=
  ⟨msg_id, msg.sender.getD "unknown", p.1, p.2, m.clock⟩

/-- What a message makes, once it is handled. -/
def messageMade (msg : Message) : ℕ :=
  if msg.typ = forward then (carried msg).elim 0 fun p => forwardMade c e m p.1 p.2 else 0

def messageLost (msg_id : String) (session_did : Option String) (msg : Message) : ℕ :=
  if msg.typ = forward then
    (carried msg).elim 0 fun p => forwardLost c e m p.1 (forwardedMessage m msg_id msg p)
  else if msg.typ = batchPickup then
    match requester "batch-pickup" msg session_did with
    | .ok sender => pickupLoss c e m sender (pickupLimit msg)
    | .error _ => 0
  else 0

/-- The ids that are still recorded when a message is checked. -/
def recorded : SeenIds :=
  if isFull m.seen_message_ids then dropExpired m.seconds m.seen_message_ids else m.seen_message_ids

/-- A message passes the checks of its times and of its id. -/
def Admitted (msg : Message) : Prop :=
  checkTimes c.overflowChecks c.max_age m.seconds msg = .ok () ∧
    checkSeen m.seconds (recorded m) msg.id = .ok ()

instance (msg : Message) : Decidable (Admitted c m msg) := inferInstanceAs (Decidable (_ ∧ _))

def dispatchMade (text : String) : ℕ :=
  match c.parseMessage text with
  | .ok msg => if Admitted c m msg then messageMade c e m msg else 0
  | .error _ => 0

def dispatchLost (msg_id : String) (session_did : Option String) (text : String) : ℕ :=
  match c.parseMessage text with
  | .ok msg => if Admitted c m msg then messageLost c e m msg_id session_did msg else 0
  | .error _ => 0

/-- The copies that a text makes for the user that an agent is bound to. -/
def applicationMade (jwe sender : String) : ℕ :=
  (m.agent_binding_store.getUserForAgent sender).elim 0 fun user_did =>
    (pushed m user_did + 1) * copy e jwe

def applicationLost (msg_id jwe sender : String) : ℕ :=
  (m.agent_binding_store.getUserForAgent sender).elim 0 fun user_did =>
    m.displaced e ⟨msg_id, sender, user_did, jwe, m.clock⟩ user_did

namespace Request

/-- The copies of an envelope that a request makes. -/
def made : Request → ℕ
  | receives session_did msg_id text =>
    let r := (dispatch c msg_id (some session_did) text).run m
    dispatchMade c e m text + if fallsBack c text r.1 then applicationMade e r.2 text session_did else 0
  | posts _ text => dispatchMade c e m text
  | commands _ _ agent_id jwe_envelope =>
    if m.isOnline agent_id = true ∧ m.reached agent_id = none then 0 else copy e jwe_envelope
  | _ => 0

/-- The copies of an envelope that are lost at a request. -/
def lost : Request → ℕ
  | receives session_did msg_id text =>
    let r := (dispatch c msg_id (some session_did) text).run m
    dispatchLost c e m msg_id (some session_did) text +
      if fallsBack c text r.1 then applicationLost e r.2 msg_id text session_did else 0
  | posts msg_id text => dispatchLost c e m msg_id none text
  | commands msg_id auth_did agent_id jwe_envelope =>
    if m.isOnline agent_id then 0
    else m.displaced e ⟨msg_id, auth_did, agent_id, jwe_envelope, m.clock⟩ agent_id
  | _ => 0

end Request

end

section

variable {c : Settings} {e : String} {m : Mediator}

theorem run_resolveOwner (next_did : String) (k : Option String → Task) :
    (resolveOwner c.order next_did k).run m = (k (ownerOf c m next_did)).run m := by
  rw [resolveOwner, run_read, ownerOf]
  rcases m.keylist_store.resolveSession next_did with _ | session
  · rfl
  · rfl

theorem run_storageKeys (next_did : String) (k : List String → Task) :
    (storageKeys c.order (ownerOf c m next_did) next_did k).run m = (k (keysOf c m next_did)).run m := by
  rw [keysOf]
  rcases ownerOf c m next_did with _ | owner
  · rfl
  · rfl

/-- Where the owner is reached nothing else is done. -/
theorem books_deliverOnline {owner : Option String} {inner_msg : String} {k : Task} {made lost : ℕ}
    (hk : Books e m (k.run m).2 made lost) :
    Books e m ((deliverOnline owner inner_msg k).run m).2
      (if (owner.bind m.reached).isSome then copy e inner_msg else made)
      (if (owner.bind m.reached).isSome then 0 else lost) := by
  rcases owner with _ | did
  · exact hk
  · rw [deliverOnline, run_read, Option.bind_some]
    rcases honline : m.isOnline did
    · rw [Mediator.reached_of_offline honline]
      exact hk
    · dsimp only
      rw [run_call]
      have hsend := books_sendTo (e := e) (m := m) did (.envelope inner_msg)
      rcases hreply : (m.sendTo did (.envelope inner_msg)).1 with err | ⟨⟩
      · have hreached := (Mediator.sendTo_error did _).mp ⟨err, hreply⟩
        rw [Mediator.sendTo_eq, hreached]
        exact hk
      · have hreached : (m.reached did).isSome = true := by
          rw [Option.isSome_iff_ne_none]
          intro hnone
          obtain ⟨err, herr⟩ := (Mediator.sendTo_error did (.envelope inner_msg)).mpr hnone
          rw [hreply] at herr
          cases herr
        rw [if_pos hreached, if_pos hreached]
        rw [if_pos hreached] at hsend
        refine hsend.congr ?_ rfl
        rw [copy, show (Outgoing.envelope inner_msg).envelopes = [inner_msg] from rfl,
          List.count_singleton]
        simp

theorem books_handleForward (hbound : 0 < m.message_store.max_queued) (msg_id : String)
    (msg : Message) : Books e m ((handleForward c.order msg_id msg).run m).2
      ((carried msg).elim 0 fun p => forwardMade c e m p.1 p.2)
      ((carried msg).elim 0 fun p => forwardLost c e m p.1 (forwardedMessage m msg_id msg p)) := by
  rw [handleForward, carried]
  rcases forwardNext msg with err | next_did
  · exact .refl
  · rcases extractInnerForward msg with err | inner_msg
    · exact .refl
    · dsimp only [orFail]
      rw [run_check]
      split
      · rw [run_resolveOwner]
        refine books_deliverOnline ?_
        have hkeys : (keysOf c m next_did).Nodup := by
          rw [keysOf]
          split
          · exact c.order.nodup _
          · exact List.nodup_singleton _
        have hqueue := books_queueFor (e := e) hbound next_did
          (forwardedMessage m msg_id msg (next_did, inner_msg)) hkeys
        rw [run_storageKeys]
        exact hqueue
      · exact .refl

theorem books_handleBatchPickup (msg : Message) (session_did : Option String) :
    Books e m ((handleBatchPickup c.order msg session_did).run m).2 0
      (match requester "batch-pickup" msg session_did with
        | .ok sender => pickupLoss c e m sender (pickupLimit msg)
        | .error _ => 0) := by
  rw [handleBatchPickup]
  rcases requester "batch-pickup" msg session_did with err | sender
  · exact .refl
  · dsimp only [orFail]
    rw [run_read, run_dequeueAll, List.nil_append]
    have hkeys := c.order.nodup (m.keylist_store.listKeys sender)
    obtain ⟨htaken, hbooks⟩ := books_dequeueEach (e := e) (m := m) (pickupLimit msg) hkeys
    have hanswer := books_answerTo (e := e) (m := (m.dequeueEach (pickupLimit msg)
      (c.order.visit (m.keylist_store.listKeys sender))).2) sender {
        typ := batch
        sender := some "didcomm-router"
        recipient := sender
        thid := msg.id
        body := batchBody ((m.dequeueEach (pickupLimit msg)
          (c.order.visit (m.keylist_store.listKeys sender))).1.map QueuedMessage.encrypted_envelope) }
    rw [Outgoing.envelopes_batch rfl, readBatch_batchBody, reached_dequeueEach, count_envelopes,
      htaken] at hanswer
    refine (hbooks.trans hanswer).balance ?_
    rw [pickupLoss]
    split
    · omega
    · omega

/-- A handler that does not touch the queues and sends no batch. -/
theorem books_handleStatusRequest (msg : Message) (session_did : Option String) :
    Books e m ((handleStatusRequest c.order msg session_did).run m).2 0 0 := by
  rw [handleStatusRequest]
  rcases requester "status-request" msg session_did with err | sender
  · exact .refl
  · dsimp only [orFail]
    rw [run_read]
    have hcount : ∀ (k : ℕ → Task) keys n, ∃ n', (countAll k keys n).run m = (k n').run m := by
      intro k keys
      induction keys with
      | nil => exact fun n => ⟨n, rfl⟩
      | cons key keys ih => exact fun n => ih _
    obtain ⟨n, hn⟩ := hcount (fun total_count => answerTo sender {
      typ := status
      sender := some "didcomm-router"
      recipient := sender
      thid := msg.id
      body := .object [("message_count", .integer total_count), ("duration", .string "PT0S"),
        ("live_delivery", .bool (msg.typ = liveDeliveryRequest))] })
      (c.order.visit (m.keylist_store.listKeys sender)) 0
    rw [hn]
    refine (books_answerTo _ _).congr ?_ rfl
    rw [Outgoing.envelopes_answer (show status ≠ batch by decide), List.count_nil, ite_self]

theorem books_handleMediateRequest (msg : Message) (session_did : Option String) :
    Books e m ((handleMediateRequest msg session_did).run m).2 0 0 := by
  rw [handleMediateRequest]
  rcases requester "mediate-request" msg session_did with err | sender
  · exact .refl
  · dsimp only [orFail]
    have hsend : ∀ did, Books e m (m.sendTo did (.answer {
        typ := mediateGrant
        sender := none
        recipient := sender
        thid := msg.id
        body := .object [("mediator_did", .string "didcomm-router")] })).2 0 0 := by
      intro did
      refine (books_sendTo _ _).congr ?_ rfl
      rw [Outgoing.envelopes_answer (show mediateGrant ≠ batch by decide), List.count_nil, ite_self]
    rcases session_did with _ | session
    · exact hsend sender
    · dsimp only
      rw [run_read]
      split
      · exact hsend session
      · exact hsend sender

theorem books_handleKeylistUpdate (msg : Message) (session_did : Option String) :
    Books e m ((handleKeylistUpdate msg session_did).run m).2 0 0 := by
  rw [handleKeylistUpdate]
  rcases requester "keylist-update" msg session_did with err | sender
  · exact .refl
  · rcases readUpdates msg with err | updates
    · exact .refl
    · dsimp only [orFail]
      have hupdate : ∀ (k : List Json → Task), (∀ results m, Books e m ((k results).run m).2 0 0) →
          ∀ updates results m, Books e m ((updateAll sender k updates results).run m).2 0 0 := by
        intro k hk updates
        induction updates with
        | nil => exact hk
        | cons update updates ih =>
          intro results m
          rw [updateAll]
          dsimp only
          have hkeylist : ∀ keylist_store, Books e m { m with keylist_store } 0 0 :=
            fun _ => .of_same rfl rfl
          split
          · exact (hkeylist _).trans (ih _ _)
          · split
            · exact (hkeylist _).trans (ih _ _)
            · exact ih _ m
      refine hupdate _ (fun results m => ?_) updates [] m
      refine (books_answerTo _ _).congr ?_ rfl
      rw [Outgoing.envelopes_answer (show keylistUpdateResponse ≠ batch by decide), List.count_nil,
        ite_self]

theorem books_handleTyped (hbound : 0 < m.message_store.max_queued) (msg_id : String)
    (session_did : Option String) (msg : Message) :
    Books e m ((handleTyped c msg_id session_did msg).run m).2 (messageMade c e m msg)
      (messageLost c e m msg_id session_did msg) := by
  rw [handleTyped, messageMade, messageLost]
  by_cases hforward : msg.typ = forward
  · rw [hforward, if_neg (by decide), if_neg (by decide), if_pos rfl, if_pos rfl, if_pos rfl]
    exact books_handleForward hbound msg_id msg
  · rw [if_neg hforward, if_neg hforward, if_neg hforward]
    by_cases hpickup : msg.typ = batchPickup
    · rw [hpickup, if_neg (by decide), if_neg (by decide), if_neg (by decide), if_pos rfl, if_pos rfl]
      exact books_handleBatchPickup msg session_did
    · rw [if_neg hpickup, if_neg hpickup]
      split
      · exact books_handleMediateRequest msg session_did
      · split
        · exact books_handleKeylistUpdate msg session_did
        · split
          · exact books_handleStatusRequest msg session_did
          · exact .refl

/-- The ids that are recorded have nothing to do with the queues. -/
theorem books_dispatch (hbound : 0 < m.message_store.max_queued) (msg_id : String)
    (session_did : Option String) (text : String) :
    Books e m ((dispatch c msg_id session_did text).run m).2 (dispatchMade c e m text)
      (dispatchLost c e m msg_id session_did text) := by
  rw [dispatch, dispatchMade, dispatchLost]
  rcases c.parseMessage text with err | msg
  · exact .refl
  · dsimp only [Except.mapError, orFail]
    rw [routeMessage, run_read]
    rcases htimes : checkTimes c.overflowChecks c.max_age m.seconds msg with err | ⟨⟩
    · have hrefused : ¬ Admitted c m msg := fun h => by cases htimes.symm.trans h.1
      rw [if_neg hrefused, if_neg hrefused]
      exact .refl
    · dsimp only [orFail]
      rw [run_read]
      have hprune : ∀ k : Task, (prune m.seconds k).run m =
          k.run { m with seen_message_ids := recorded m } := by
        intro k
        rw [prune, run_read, recorded]
        rcases isFull m.seen_message_ids
        · rfl
        · rfl
      rw [hprune, run_read]
      dsimp only
      rcases hseen : checkSeen m.seconds (recorded m) msg.id with err | ⟨⟩
      · have hrefused : ¬ Admitted c m msg := fun h => by cases hseen.symm.trans h.2
        rw [if_neg hrefused, if_neg hrefused]
        exact .of_same rfl rfl
      · rw [if_pos ⟨htimes, hseen⟩, if_pos ⟨htimes, hseen⟩]
        dsimp only [orFail]
        rw [run_modify]
        have hmarked : Books e m { m with
            seen_message_ids := markSeen m.seconds msg.id (recorded m) } 0 0 := .of_same rfl rfl
        refine (hmarked.trans (books_handleTyped ?_ msg_id session_did msg)).congr
          (Nat.zero_add _) (Nat.zero_add _)
        exact hbound

theorem books_routeApplicationMessage (hbound : 0 < m.message_store.max_queued)
    (msg_id jwe sender : String) :
    Books e m ((routeApplicationMessage msg_id jwe sender).run m).2 (applicationMade e m jwe sender)
      (applicationLost e m msg_id jwe sender) := by
  rw [routeApplicationMessage, run_read, applicationMade, applicationLost]
  rcases m.agent_binding_store.getUserForAgent sender with _ | user_did
  · exact .refl
  · refine (books_queueFor hbound user_did ⟨msg_id, sender, user_did, jwe, m.clock⟩
      (List.nodup_singleton user_did)).congr rfl ?_
    rw [List.map_singleton, List.sum_singleton]
    rfl

theorem books_submitCommand (hbound : 0 < m.message_store.max_queued)
    (msg_id auth_did agent_id jwe_envelope : String) :
    Books e m ((submitCommand msg_id auth_did agent_id jwe_envelope).run m).2
      (if m.isOnline agent_id = true ∧ m.reached agent_id = none then 0 else copy e jwe_envelope)
      (if m.isOnline agent_id then 0
        else m.displaced e ⟨msg_id, auth_did, agent_id, jwe_envelope, m.clock⟩ agent_id) := by
  rw [submitCommand, run_read]
  rcases m.isOnline agent_id
  · obtain ⟨hrun, hbooks⟩ := run_storeAll (e := e) hbound
      ⟨msg_id, auth_did, agent_id, jwe_envelope, m.clock⟩ (.answer (.ok ()))
      (List.nodup_singleton agent_id)
    refine (congrArg (fun r : Reply × Mediator => Books e m r.2 _ _) hrun).mpr (hbooks.congr ?_ ?_)
    · simp
    · simp
  · refine (books_sendTo _ _).congr ?_ rfl
    rcases m.reached agent_id with _ | i
    · simp
    · simp [Outgoing.envelopes, copy, List.count_singleton]

/-- What each request makes and loses. -/
theorem books_handler (hbound : 0 < m.message_store.max_queued) (r : Request) :
    Books e m ((r.handler c).run m).2 (r.made c e m) (r.lost c e m) := by
  cases r with
  | receives session_did msg_id text =>
    have hdispatch := books_dispatch (c := c) (e := e) hbound msg_id (some session_did) text
    rw [Request.handler, receive, run_bind, Request.made, Request.lost]
    revert hdispatch
    rcases (dispatch c msg_id (some session_did) text).run m with ⟨reply, m'⟩
    intro hdispatch
    have hbound' : 0 < m'.message_store.max_queued := hdispatch.bound ▸ hbound
    refine hdispatch.trans ?_
    by_cases hfalls : fallsBack c text reply = true
    · rw [if_pos hfalls, if_pos hfalls, if_pos hfalls]
      exact books_routeApplicationMessage hbound' msg_id text session_did
    · rw [if_neg hfalls, if_neg hfalls, if_neg hfalls]
      exact .refl
  | posts msg_id text => exact books_dispatch hbound msg_id none text
  | commands msg_id auth_did agent_id jwe_envelope => exact books_submitCommand hbound _ _ _ _
  | tokens auth_did fcm_token push_channel =>
    cases fcm_token with
    | none => exact .of_same rfl rfl
    | some token => exact .of_same rfl rfl
  | _ => exact .of_same rfl rfl

end

/-- The requests are served one after the other. -/
def serve (c : Settings) (r : Request) (m : Mediator) : Except Empty Mediator :=
  .ok ((r.handler c).run m).2

/-- In every run, the copies of an envelope that were delivered, that wait and that were lost are those
that were made. -/
theorem envelopes_accounted (c : Settings) {clock : ℤ} {max_queued : ℕ} {age : UInt64} (hbound : 0 < max_queued)
    {h : List (Mediator × Request)} {m : Mediator}
    (hrun : Run (serve c) (.start clock max_queued age) h m) (e : String) :
    m.delivered e + m.waiting e + (h.map fun p => p.2.lost c e p.1).sum =
      (h.map fun p => p.2.made c e p.1).sum := by
  have hbooks : Books e (.start clock max_queued age) m (h.map fun p => p.2.made c e p.1).sum
      (h.map fun p => p.2.lost c e p.1).sum := by
    induction hrun with
    | start => exact .refl
    | @step h m m' r _ hserve ih =>
      obtain rfl := Except.ok.inj hserve
      have hr := books_handler (c := c) (e := e) (ih.bound ▸ hbound : 0 < m.message_store.max_queued) r
      rw [List.map_cons, List.sum_cons, List.map_cons, List.sum_cons, Nat.add_comm (r.made c e m),
        Nat.add_comm (r.lost c e m)]
      exact ih.trans hr
  have htotal := hbooks.total
  have hstart : (Mediator.start clock max_queued age).held e = 0 := rfl
  rw [hstart, Nat.zero_add, Mediator.held] at htotal
  exact htotal

namespace Mailroom

def served (r : List (Mediator × Request) × Mediator) : Bool := r.2.delivered "jwe" = 1

theorem served_requests :
    (Run.record (serve settings) [requests 0, requests 1, requests 2] []
      (.start 0 10 86400)).toOption.any served = true := by decide +kernel

end Mailroom

theorem envelopes_accounted_mailroom : ∃ h m, Run (serve Mailroom.settings) (.start 0 10 86400) h m ∧
    m.delivered "jwe" = 1 ∧
      m.delivered "jwe" + m.waiting "jwe" + (h.map fun p => p.2.lost Mailroom.settings "jwe" p.1).sum =
        (h.map fun p => p.2.made Mailroom.settings "jwe" p.1).sum := by
  obtain ⟨h, m, hrun, htest⟩ := Run.exists_of_record Mailroom.served_requests
  exact ⟨h, m, hrun, of_decide_eq_true htest, envelopes_accounted Mailroom.settings (by decide) hrun "jwe"⟩

end Router
