/-
The two message stores of the DIDComm router.

In memory the messages of a recipient stand in a list, in the order they came in.  On
sled each recipient has a tree, whose keys are the message ids; an iteration visits the
messages by increasing id.  A time is a count of nanoseconds.

* `trim_entries` — what the eviction loop leaves;
* `collect_spec`, `page_true`, `page_false` — what the loops of `dequeue_batch` and
  `list_messages` read.
-/
import IgnitePay.Lib.Paging
import IgnitePay.Lib.SortedTree

namespace Router

/-- A queued DIDComm message waiting for pickup or online delivery. -/
structure QueuedMessage where
  id : String
  sender_did : String
  recipient_did : String
  encrypted_envelope : String
  queued_at : ℤ
  deriving DecidableEq

/-- The age in whole seconds, rounded toward zero, against a limit that is cast to `i64`. -/
def QueuedMessage.isExpired (now : ℤ) (max_age_secs : UInt64) (m : QueuedMessage) : Bool :=
  decide (max_age_secs.toInt64.toInt < (now - m.queued_at).tdiv 1000000000)

/-! ### In memory -/

/-- `InMemoryMessageStore`. -/
structure InMemoryMessageStore where
  /-- recipient_did -> Vec<QueuedMessage> -/
  queues : Store.Map String (List QueuedMessage)
  max_queued : ℕ
  max_message_age_secs : UInt64

namespace InMemoryMessageStore

def withMaxAge (max_queued : ℕ) (max_message_age_secs : UInt64) : InMemoryMessageStore :=
  ⟨∅, max_queued, max_message_age_secs⟩

/-- The queue of a recipient; it is empty where there is none. -/
def queue (s : InMemoryMessageStore) (recipient_did : String) : List QueuedMessage :=
  (s.queues.lookup recipient_did).getD []

def setQueue (s : InMemoryMessageStore) (recipient_did : String) (q : List QueuedMessage) :
    InMemoryMessageStore := { s with queues := s.queues.insert recipient_did q }

/-- `queue.remove(0)` panics on an empty queue. -/
def enqueue (now : ℤ) (recipient_did : String) (msg : QueuedMessage) (s : InMemoryMessageStore) :
    Option InMemoryMessageStore :=
  if msg.isExpired now s.max_message_age_secs then some s
  else if s.max_queued ≤ (s.queue recipient_did).length then
    match s.queue recipient_did with
    | [] => none
    | _ :: rest => some (s.setQueue recipient_did (rest ++ [msg]))
  else some (s.setQueue recipient_did (s.queue recipient_did ++ [msg]))

/-- The same queue as for `enqueue`. -/
def storeForUser (now : ℤ) (recipient_did : String) (msg : QueuedMessage)
    (s : InMemoryMessageStore) : Option InMemoryMessageStore := enqueue now recipient_did msg s

def dequeueBatch (now : ℤ) (recipient_did : String) (limit : ℕ) (s : InMemoryMessageStore) :
    List QueuedMessage × InMemoryMessageStore :=
  match s.queues.lookup recipient_did with
  | none => ([], s)
  | some queue =>
    let valid := queue.filter fun m => !m.isExpired now s.max_message_age_secs
    (valid.take limit, s.setQueue recipient_did (valid.drop limit))

def count (s : InMemoryMessageStore) (recipient_did : String) : ℕ := (s.queue recipient_did).length

def remove (msg_id : String) (s : InMemoryMessageStore) : InMemoryMessageStore :=
  { s with queues := Store.mapValues (fun q => q.filter fun m => m.id ≠ msg_id) s.queues }

def getMessage (s : InMemoryMessageStore) (recipient_did msg_id : String) : Option QueuedMessage :=
  (s.queue recipient_did).find? fun m => m.id = msg_id

def listMessages (s : InMemoryMessageStore) (recipient_did : String) (after_id : Option String)
    (limit : ℕ) : List QueuedMessage :=
  let queue := s.queue recipient_did
  match after_id with
  | some after =>
    let start := ((queue.findIdx? fun m => m.id = after).map (· + 1)).getD 0
    (queue.drop start).take limit
  | none => queue.take limit

@[simp] theorem queue_withMaxAge (n : ℕ) (a : UInt64) (r : String) :
    (withMaxAge n a).queue r = [] := rfl

theorem queue_setQueue (s : InMemoryMessageStore) (r r' : String) (q : List QueuedMessage) :
    (s.setQueue r q).queue r' = if r' = r then q else s.queue r' := by
  rw [queue, setQueue, Store.lookup_insert_eq]
  split
  · rfl
  · rfl

theorem queue_remove (s : InMemoryMessageStore) (id r : String) :
    (s.remove id).queue r = (s.queue r).filter fun m => m.id ≠ id := by
  rw [queue, remove, Store.lookup_mapValues, queue]
  rcases s.queues.lookup r with _ | q
  · rfl
  · rfl

theorem dequeueBatch_eq (now : ℤ) (r : String) (limit : ℕ) (s : InMemoryMessageStore) :
    let valid := (s.queue r).filter fun m => !m.isExpired now s.max_message_age_secs
    (s.dequeueBatch now r limit).1 = valid.take limit ∧
      ∀ r', (s.dequeueBatch now r limit).2.queue r' =
        if r' = r then valid.drop limit else s.queue r' := by
  rw [dequeueBatch]
  rcases hq : s.queues.lookup r with _ | q
  · have hnone : s.queue r = [] := by rw [queue, hq, Option.getD_none]
    simp [hnone]
  · have hsome : s.queue r = q := by rw [queue, hq, Option.getD_some]
    rw [hsome]
    exact ⟨rfl, fun r' => queue_setQueue s r r' _⟩

theorem dequeueBatch_bounds (s : InMemoryMessageStore) (now : ℤ) (r : String) (limit : ℕ) :
    (s.dequeueBatch now r limit).2.max_queued = s.max_queued ∧
      (s.dequeueBatch now r limit).2.max_message_age_secs = s.max_message_age_secs := by
  rw [dequeueBatch]
  rcases s.queues.lookup r with _ | q
  · exact ⟨rfl, rfl⟩
  · exact ⟨rfl, rfl⟩

/-- With a cursor that is in the queue, a page starts right after it. -/
theorem listMessages_eq (s : InMemoryMessageStore) (r : String) {after_id : Option String}
    (limit : ℕ) (h : ∀ id, after_id = some id → id ∈ (s.queue r).map QueuedMessage.id) :
    s.listMessages r after_id limit =
      (Paging.after QueuedMessage.id after_id (s.queue r)).take limit := by
  cases after_id with
  | none => rfl
  | some id =>
    rw [Paging.after_eq_drop QueuedMessage.id (h id rfl)]
    rfl

end InMemoryMessageStore

/-! ### On sled -/

/-- `SledMessageStore`, and the trees that the other stores keep in the same database.
The values of a queue tree are the messages themselves: they are written as JSON and read
back. -/
structure SledMessageStore where
  queues : Database String String QueuedMessage
  others : Database String String String
  max_queued : ℕ
  max_message_age_secs : UInt64

/-- The name of a queue tree. -/
def queueTree (recipient_did : String) : String := "msg:" ++ recipient_did

theorem queueTree_injective : Function.Injective queueTree := by
  intro r r' h
  have htext := congrArg String.toList h
  rw [queueTree, queueTree, String.toList_append, String.toList_append] at htext
  exact String.toList_injective (List.append_cancel_left htext)

/-- `while tree.len() > max { tree.remove(first) }`, in at most `fuel` rounds. -/
def trimLoop (max : ℕ) : ℕ → SortedTree String QueuedMessage → SortedTree String QueuedMessage
  | 0, t => t
  | fuel + 1, t =>
    if max < t.len then
      match t.first with
      | some oldest => trimLoop max fuel (t.remove oldest.1)
      | none => t
    else t

/-- Each round takes an entry, so as many rounds as there are entries are enough. -/
def trim (max : ℕ) (t : SortedTree String QueuedMessage) : SortedTree String QueuedMessage :=
  trimLoop max t.len t

/-- The loop of `dequeue_batch`: the messages, and the keys to remove. -/
def collect (expired : QueuedMessage → Bool) (limit : ℕ) :
    List (String × QueuedMessage) → List QueuedMessage → List String →
      List QueuedMessage × List String
  | [], messages, keys => (messages, keys)
  | (k, msg) :: items, messages, keys =>
    if expired msg then collect expired limit items messages (keys ++ [k])
    else if limit ≤ (messages ++ [msg]).length then (messages ++ [msg], keys ++ [k])
    else collect expired limit items (messages ++ [msg]) (keys ++ [k])

/-- The loop of `list_messages`. -/
def page (after_id : Option String) (limit : ℕ) :
    List (String × QueuedMessage) → Bool → List QueuedMessage → List QueuedMessage
  | [], _, messages => messages
  | (_, msg) :: items, false, messages =>
    page after_id limit items (decide (msg.id = after_id.getD "")) messages
  | (_, msg) :: items, true, messages =>
    if limit ≤ (messages ++ [msg]).length then messages ++ [msg]
    else page after_id limit items true (messages ++ [msg])

namespace SledMessageStore

def new (others : Database String String String) (max_queued : ℕ)
    (max_message_age_secs : UInt64) : SledMessageStore :=
  ⟨∅, others, max_queued, max_message_age_secs⟩

/-- The queue tree of a recipient. -/
def tree (s : SledMessageStore) (recipient_did : String) : SortedTree String QueuedMessage :=
  Database.tree s.queues (queueTree recipient_did)

def modifyTree (s : SledMessageStore) (recipient_did : String)
    (f : SortedTree String QueuedMessage → SortedTree String QueuedMessage) : SledMessageStore :=
  { s with queues := Database.modify s.queues (queueTree recipient_did) f }

def enqueue (now : ℤ) (recipient_did : String) (msg : QueuedMessage) (s : SledMessageStore) :
    SledMessageStore :=
  if msg.isExpired now s.max_message_age_secs then s
  else s.modifyTree recipient_did fun t => trim s.max_queued (t.insert msg.id msg)

/-- Same as `enqueue`. -/
def storeForUser (now : ℤ) (recipient_did : String) (msg : QueuedMessage) (s : SledMessageStore) :
    SledMessageStore := enqueue now recipient_did msg s

def dequeueBatch (now : ℤ) (recipient_did : String) (limit : ℕ) (s : SledMessageStore) :
    List QueuedMessage × SledMessageStore :=
  let r := collect (QueuedMessage.isExpired now s.max_message_age_secs) limit
    (s.tree recipient_did).entries [] []
  (r.1, s.modifyTree recipient_did fun t => t.removeAll r.2)

def count (s : SledMessageStore) (recipient_did : String) : ℕ := (s.tree recipient_did).len

/-- The trees are searched in the order of `names`, up to the first that has the id as a key. -/
def removeFrom (msg_id : String) : List String → SledMessageStore → SledMessageStore
  | [], s => s
  | n :: names, s =>
    if ((Database.tree s.queues n).get msg_id).isSome then
      { s with queues := Database.modify s.queues n fun t => t.remove msg_id }
    else if ((Database.tree s.others n).get msg_id).isSome then
      { s with others := Database.modify s.others n fun t => t.remove msg_id }
    else removeFrom msg_id names s

/-- `tree_names` lists the trees of the database in an order of its own. -/
def remove (tree_names : SledMessageStore → List String) (msg_id : String)
    (s : SledMessageStore) : SledMessageStore := removeFrom msg_id (tree_names s) s

def getMessage (s : SledMessageStore) (recipient_did msg_id : String) : Option QueuedMessage :=
  (s.tree recipient_did).get msg_id

def listMessages (s : SledMessageStore) (recipient_did : String) (after_id : Option String)
    (limit : ℕ) : List QueuedMessage :=
  page after_id limit (s.tree recipient_did).entries after_id.isNone []

end SledMessageStore

/-- The entry of a queue tree that holds a message. -/
def entry (m : QueuedMessage) : String × QueuedMessage := (m.id, m)

theorem map_snd_entry (l : List QueuedMessage) : (l.map entry).map Prod.snd = l := by
  rw [List.map_map]
  exact List.map_id _

theorem map_fst_entry (l : List QueuedMessage) :
    (l.map entry).map Prod.fst = l.map QueuedMessage.id := by
  rw [List.map_map]
  rfl

/-! ### The loops -/

theorem trimLoop_entries {max fuel : ℕ} {t : SortedTree String QueuedMessage}
    (h : t.len ≤ max + fuel) : (trimLoop max fuel t).entries = t.entries.drop (t.len - max) := by
  induction fuel generalizing t with
  | zero =>
    have hzero : t.len - max = 0 := by omega
    rw [hzero, List.drop_zero, trimLoop]
  | succ fuel ih =>
    rw [trimLoop]
    by_cases hlt : max < t.len
    · rw [if_pos hlt]
      rcases hentries : t.entries with _ | ⟨e, l⟩
      · rw [SortedTree.len, hentries] at hlt
        exact absurd hlt (Nat.not_lt_zero _)
      · have hfirst : t.first = some e := by rw [SortedTree.first, hentries, List.head?_cons]
        have hrest : (t.remove e.1).entries = l :=
          @SortedTree.entries_removeAll_append _ _ _ t [e] l hentries
        have hlen : t.len = (t.remove e.1).len + 1 := by
          rw [SortedTree.len, SortedTree.len, hrest, hentries, List.length_cons]
        have hdrop : t.len - max = (t.remove e.1).len - max + 1 := by omega
        rw [hfirst]
        show (trimLoop max fuel (t.remove e.1)).entries = _
        rw [ih (by omega), hrest, hdrop, List.drop_succ_cons]
    · have hzero : t.len - max = 0 := by omega
      rw [if_neg hlt, hzero, List.drop_zero]

theorem trim_entries (max : ℕ) (t : SortedTree String QueuedMessage) :
    (trim max t).entries = t.entries.drop (t.len - max) :=
  trimLoop_entries (Nat.le_add_left _ _)

/-- With a positive limit, the loop goes through the entries up to the one with which the
limit is reached, takes those of them that are not expired and removes them all. -/
theorem collect_spec {expired : QueuedMessage → Bool} {limit : ℕ}
    (items : List (String × QueuedMessage)) {messages : List QueuedMessage} (keys : List String)
    (hlt : messages.length < limit) :
    ∃ front back, items = front ++ back ∧
      collect expired limit items messages keys =
        (messages ++ (front.map Prod.snd).filter fun m => !expired m, keys ++ front.map Prod.fst) ∧
      messages.length + ((front.map Prod.snd).filter fun m => !expired m).length ≤ limit ∧
      (back ≠ [] →
        messages.length + ((front.map Prod.snd).filter fun m => !expired m).length = limit) := by
  induction items generalizing messages keys with
  | nil => exact ⟨[], [], rfl, by simp [collect], by simpa using hlt.le, fun h => absurd rfl h⟩
  | cons e items ih =>
    obtain ⟨k, msg⟩ := e
    have hlength : (messages ++ [msg]).length = messages.length + 1 := by simp
    rw [collect]
    by_cases hmsg : expired msg = true
    · obtain ⟨front, back, rfl, hcollect, hle, heq⟩ := ih (keys ++ [k]) hlt
      have hfront : (((k, msg) :: front).map Prod.snd).filter (fun m => !expired m) =
          (front.map Prod.snd).filter fun m => !expired m := by simp [hmsg]
      refine ⟨(k, msg) :: front, back, rfl, ?_, ?_, ?_⟩
      · rw [if_pos hmsg, hcollect, hfront, List.append_assoc]
        rfl
      · rw [hfront]
        exact hle
      · rw [hfront]
        exact heq
    · have hvalid : (!expired msg) = true := by simpa using hmsg
      rw [if_neg hmsg, hlength]
      by_cases hlimit : limit ≤ messages.length + 1
      · have hfront : ([(k, msg)].map Prod.snd).filter (fun m => !expired m) = [msg] := by
          simp [hvalid]
        refine ⟨[(k, msg)], items, rfl, ?_, ?_, fun _ => ?_⟩
        · rw [if_pos hlimit, hfront]
          rfl
        · rw [hfront, List.length_singleton]
          omega
        · rw [hfront, List.length_singleton]
          omega
      · obtain ⟨front, back, rfl, hcollect, hle, heq⟩ :=
          @ih (messages ++ [msg]) (keys ++ [k]) (by omega)
        have hfront : (((k, msg) :: front).map Prod.snd).filter (fun m => !expired m) =
            msg :: (front.map Prod.snd).filter fun m => !expired m := by simp [hvalid]
        rw [hlength] at hle heq
        refine ⟨(k, msg) :: front, back, rfl, ?_, ?_, fun hback => ?_⟩
        · rw [if_neg hlimit, hcollect, hfront, List.append_assoc, List.append_assoc]
          rfl
        · rw [hfront, List.length_cons]
          omega
        · have hlast := heq hback
          rw [hfront, List.length_cons]
          omega

theorem page_true {after_id : Option String} {limit : ℕ} {items : List (String × QueuedMessage)}
    {messages : List QueuedMessage} (hlt : messages.length < limit) :
    page after_id limit items true messages =
      messages ++ (items.map Prod.snd).take (limit - messages.length) := by
  induction items generalizing messages with
  | nil => simp [page]
  | cons e items ih =>
    obtain ⟨k, msg⟩ := e
    have hlength : (messages ++ [msg]).length = messages.length + 1 := by simp
    obtain ⟨n, hn⟩ : ∃ n, limit - messages.length = n + 1 := ⟨limit - messages.length - 1, by omega⟩
    rw [page, hlength, hn, List.map_cons, List.take_succ_cons]
    by_cases hlimit : limit ≤ messages.length + 1
    · have hzero : n = 0 := by omega
      rw [if_pos hlimit, hzero, List.take_zero]
    · have hnext : limit - (messages ++ [msg]).length = n := by omega
      rw [if_neg hlimit, ih (by omega), hnext, List.append_assoc, List.singleton_append]

theorem page_false {id : String} {limit : ℕ} {items : List (String × QueuedMessage)}
    (hlimit : 0 < limit) : page (some id) limit items false [] =
      (Paging.after QueuedMessage.id (some id) (items.map Prod.snd)).take limit := by
  induction items with
  | nil => simp [page, Paging.after]
  | cons e items ih =>
    obtain ⟨k, msg⟩ := e
    rw [page, Option.getD_some, List.map_cons, Paging.after]
    by_cases hid : msg.id = id
    · rw [decide_eq_true hid, page_true hlimit, List.dropWhile_cons_of_neg (by simpa using hid)]
      rfl
    · rw [decide_eq_false hid, ih, List.dropWhile_cons_of_pos (by simpa using hid)]
      rfl

namespace SledMessageStore

@[simp] theorem tree_new (others : Database String String String) (n : ℕ) (a : UInt64)
    (r : String) : (new others n a).tree r = ∅ := rfl

theorem tree_modifyTree (s : SledMessageStore) (r r' : String)
    (f : SortedTree String QueuedMessage → SortedTree String QueuedMessage) :
    (s.modifyTree r f).tree r' = if r' = r then f (s.tree r) else s.tree r' := by
  rw [tree, modifyTree, Database.tree_modify]
  by_cases h : r' = r
  · rw [if_pos h, if_pos (congrArg queueTree h)]
    rfl
  · rw [if_neg h, if_neg fun heq => h (queueTree_injective heq)]
    rfl

theorem listMessages_eq (s : SledMessageStore) (r : String) (after_id : Option String) {limit : ℕ}
    (hlimit : 0 < limit) : s.listMessages r after_id limit =
      (Paging.after QueuedMessage.id after_id (s.tree r).values).take limit := by
  rw [listMessages]
  cases after_id with
  | none =>
    rw [Option.isNone_none, page_true hlimit]
    rfl
  | some id => exact page_false hlimit

end SledMessageStore

/-! ### The trait -/

/-- The trait `MessageStore`, for a store of type `S`; `enqueue` gives nothing where it
panics. -/
structure MessageStore (S : Type) where
  enqueue : ℤ → String → QueuedMessage → S → Option S
  dequeueBatch : ℤ → String → ℕ → S → List QueuedMessage × S
  count : S → String → ℕ
  remove : String → S → S
  storeForUser : ℤ → String → QueuedMessage → S → Option S
  getMessage : S → String → String → Option QueuedMessage
  listMessages : S → String → Option String → ℕ → List QueuedMessage

def inMemoryMessageStore : MessageStore InMemoryMessageStore where
  enqueue := InMemoryMessageStore.enqueue
  dequeueBatch := InMemoryMessageStore.dequeueBatch
  count := InMemoryMessageStore.count
  remove := InMemoryMessageStore.remove
  storeForUser := InMemoryMessageStore.storeForUser
  getMessage := InMemoryMessageStore.getMessage
  listMessages := InMemoryMessageStore.listMessages

/-- An order in which the trees of a database are listed. -/
structure TreeOrder where
  names : SledMessageStore → List String
  mem_names : ∀ s n, n ∈ names s ↔ n ∈ s.queues.keys ∨ n ∈ s.others.keys

/-- One such order. -/
def TreeOrder.asStored : TreeOrder where
  names s := s.queues.keys ++ s.others.keys
  mem_names _ _ := List.mem_append

def sledMessageStore (order : TreeOrder) : MessageStore SledMessageStore where
  enqueue now r msg s := some (s.enqueue now r msg)
  dequeueBatch := SledMessageStore.dequeueBatch
  count := SledMessageStore.count
  remove := SledMessageStore.remove order.names
  storeForUser now r msg s := some (s.storeForUser now r msg)
  getMessage := SledMessageStore.getMessage
  listMessages := SledMessageStore.listMessages

end Router
