/-
A client that synchronizes by cursor.

The client asks for what follows the last message it has received, page by page, while
messages come in.  It has everything when it sees an empty page, as long as new
messages are listed behind its cursor: in memory if no message comes in under the id of
an earlier one, on sled if a message's id is above the cursor as well, because a tree
lists by id.

* `sync_complete` — in such runs a page is empty only when every message that was
  stored before has been returned, once.
-/
import IgnitePay.Lib.Run
import IgnitePay.Router.MessageStores

namespace Router

open Machine

/-- The number of messages on a page over HTTP. -/
def pageLimit (query_limit : Option ℕ) : ℕ := min (query_limit.getD 100) 1000

/-- `GET` of the message list: one message more is read, to see whether there are more. -/
def httpListMessages {S : Type} (M : MessageStore S) (s : S) (did : String)
    (after_id : Option String) (query_limit : Option ℕ) : List QueuedMessage × Bool :=
  let limit := pageLimit query_limit
  let messages := M.listMessages s did after_id (limit + 1)
  (messages.take limit, decide (limit < messages.length))

/-- A store with the messages that it took in for the client, and those that the client has
received. -/
structure Sync (S : Type) where
  store : S
  stored : List QueuedMessage
  received : List QueuedMessage

inductive SyncEvent
  | enqueue (now : ℤ) (recipient_did : String) (msg : QueuedMessage)
  | listMessages (limit : ℕ)
  | httpListMessages (query_limit : Option ℕ)

section

variable {S : Type} (M : MessageStore S) (age : UInt64) (did : String)

/-- The page that an event returns to the client. -/
def Sync.page (s : Sync S) : SyncEvent → Option (List QueuedMessage)
  | .enqueue _ _ _ => none
  | .listMessages limit =>
    some (M.listMessages s.store did (Paging.cursor QueuedMessage.id s.received) limit)
  | .httpListMessages query_limit =>
    some (Router.httpListMessages M s.store did (Paging.cursor QueuedMessage.id s.received)
      query_limit).1

def syncStep (e : SyncEvent) (s : Sync S) : Except Unit (Sync S) :=
  match e with
  | .enqueue now r msg =>
    match M.enqueue now r msg s.store with
    | none => .error ()
    | some store =>
      .ok { s with
        store := store
        stored := if r = did ∧ msg.isExpired now age = false then s.stored ++ [msg] else s.stored }
  | e => .ok { s with received := s.received ++ (s.page M did e).getD [] }

end

theorem syncStep_enqueue {S : Type} {M : MessageStore S} {age : UInt64} {did : String} {now : ℤ}
    {r : String} {msg : QueuedMessage} {s s' : Sync S}
    (h : syncStep M age did (.enqueue now r msg) s = .ok s') :
    ∃ store, M.enqueue now r msg s.store = some store ∧ s' = { s with
      store := store
      stored := if r = did ∧ msg.isExpired now age = false then s.stored ++ [msg]
        else s.stored } := by
  rw [syncStep] at h
  split at h
  · exact absurd h (by simp)
  · next store hstore => exact ⟨store, hstore, (Except.ok.inj h).symm⟩

section

variable {S : Type} (M : MessageStore S) (bound : ℕ) (age : UInt64) (did : String)

/-- Limits are positive, and a message is not expired and evicts no other. -/
def Undisturbed (s : Sync S) : SyncEvent → Prop
  | .enqueue now r msg => r = did → msg.isExpired now age = false → M.count s.store did < bound
  | .listMessages limit => 0 < limit
  | .httpListMessages query_limit => 0 < pageLimit query_limit

instance (s : Sync S) : DecidablePred (Undisturbed M bound age did s)
  | .enqueue now r msg => inferInstanceAs (Decidable
      (r = did → msg.isExpired now age = false → M.count s.store did < bound))
  | .listMessages limit => inferInstanceAs (Decidable (0 < limit))
  | .httpListMessages query_limit => inferInstanceAs (Decidable (0 < pageLimit query_limit))

/-- A message has an id of its own. -/
def FreshId (s : Sync S) : SyncEvent → Prop
  | .enqueue now r msg =>
    r = did → msg.isExpired now age = false → msg.id ∉ s.stored.map QueuedMessage.id
  | _ => True

instance (s : Sync S) : DecidablePred (FreshId age did s)
  | .enqueue now r msg => inferInstanceAs (Decidable
      (r = did → msg.isExpired now age = false → msg.id ∉ s.stored.map QueuedMessage.id))
  | .listMessages _ => inferInstanceAs (Decidable True)
  | .httpListMessages _ => inferInstanceAs (Decidable True)

/-- A message has an id above that of the last message the client has received. -/
def AboveCursor (s : Sync S) : SyncEvent → Prop
  | .enqueue now r msg => r = did → msg.isExpired now age = false →
    ∀ id ∈ Paging.cursor QueuedMessage.id s.received, id < msg.id
  | _ => True

instance (s : Sync S) : DecidablePred (AboveCursor age did s)
  | .enqueue now r msg => inferInstanceAs (Decidable
      (r = did → msg.isExpired now age = false →
        ∀ id ∈ Paging.cursor QueuedMessage.id s.received, id < msg.id))
  | .listMessages _ => inferInstanceAs (Decidable True)
  | .httpListMessages _ => inferInstanceAs (Decidable True)

end

/-- `rest` is what the client is still to receive. -/
structure Pending {S : Type} (M : MessageStore S) (did : String) (s : Sync S)
    (rest : List QueuedMessage) : Prop where
  stored_mem : ∀ m ∈ s.stored, m ∈ s.received ++ rest
  mem_stored : ∀ m ∈ s.received ++ rest, m ∈ s.stored
  nodup : ((s.received ++ rest).map QueuedMessage.id).Nodup
  list_eq : ∀ limit, 0 < limit →
    M.listMessages s.store did (Paging.cursor QueuedMessage.id s.received) limit = rest.take limit

namespace Pending

variable {S : Type} {M : MessageStore S} {bound : ℕ} {age : UInt64} {did : String} {s : Sync S}
  {rest : List QueuedMessage}

theorem page_eq (h : Pending M did s rest) {e : SyncEvent} {l : List QueuedMessage}
    (hpage : s.page M did e = some l) (hcalm : Undisturbed M bound age did s e) :
    ∃ limit, 0 < limit ∧ l = rest.take limit := by
  cases e with
  | enqueue now r msg => exact absurd hpage (by simp [Sync.page])
  | listMessages limit =>
    have hpos : 0 < limit := hcalm
    refine ⟨limit, hpos, ?_⟩
    rw [← h.list_eq limit hpos]
    exact (Option.some_inj.mp hpage).symm
  | httpListMessages query_limit =>
    have hpos : 0 < pageLimit query_limit := hcalm
    refine ⟨pageLimit query_limit, hpos, ?_⟩
    rw [← Option.some_inj.mp hpage, httpListMessages, h.list_eq _ (Nat.succ_pos _),
      List.take_take, Nat.min_eq_left (Nat.le_succ _)]

/-- An empty page means that nothing is left. -/
theorem count_eq_one (h : Pending M did s rest) {e : SyncEvent}
    (hpage : s.page M did e = some []) (hcalm : Undisturbed M bound age did s e) :
    ∀ m ∈ s.stored, s.received.count m = 1 := by
  obtain ⟨limit, hpos, hempty⟩ := h.page_eq hpage hcalm
  have hrest : rest = [] := by
    rcases List.take_eq_nil_iff.mp hempty.symm with hzero | hrest
    · omega
    · exact hrest
  subst hrest
  intro m hm
  have hreceived := h.stored_mem m hm
  have hnodup := h.nodup
  rw [List.append_nil] at hreceived hnodup
  exact List.count_eq_one_of_mem hnodup.of_map hreceived

end Pending

/-- At every empty page, each message stored before has been returned once. -/
def Complete {S : Type} (M : MessageStore S) (did : String) (h : List (Sync S × SyncEvent)) : Prop :=
  ∀ c ∈ h, c.1.page M did c.2 = some [] → ∀ m ∈ c.1.stored, c.1.received.count m = 1

section

variable {S : Type} {M : MessageStore S} {bound : ℕ} {age : UInt64} {did : String}

/-- It is enough to know of each store what is still to come after a message was stored. -/
theorem complete_of_step {Holds : Sync S → List QueuedMessage → Prop}
    (allowed : Sync S → SyncEvent → Prop)
    (hpending : ∀ s rest, Holds s rest → Pending M did s rest)
    (hread : ∀ s rest n, Holds s rest →
      Holds { s with received := s.received ++ rest.take n } (rest.drop n))
    (henqueue : ∀ s rest now r msg s', Holds s rest →
      Undisturbed M bound age did s (.enqueue now r msg) → allowed s (.enqueue now r msg) →
      syncStep M age did (.enqueue now r msg) s = .ok s' → ∃ rest', Holds s' rest')
    {s₀ s : Sync S} {h : List (Sync S × SyncEvent)} (hstart : Holds s₀ [])
    (hrun : Run (syncStep M age did) s₀ h s)
    (hundisturbed : ∀ c ∈ h, Undisturbed M bound age did c.1 c.2)
    (hallowed : ∀ c ∈ h, allowed c.1 c.2) : Complete M did h := by
  intro c hc hpage
  obtain ⟨h₁, s₁, hbefore, hsub, -⟩ := hrun.of_mem hc
  have hholds : ∃ rest, Holds c.1 rest := by
    refine hbefore.invariant_of (P := fun s => ∃ rest, Holds s rest)
      (fun s e => Undisturbed M bound age did s e ∧ allowed s e) ⟨[], hstart⟩ ?_
      fun c hc => ⟨hundisturbed c (hsub hc), hallowed c (hsub hc)⟩
    rintro s e s' ⟨rest, hrest⟩ ⟨hcalm, hallow⟩ hstep
    have hpages : ∀ l, s.page M did e = some l →
        ∃ rest', Holds { s with received := s.received ++ l } rest' := by
      intro l hl
      obtain ⟨limit, -, rfl⟩ := (hpending s rest hrest).page_eq hl hcalm
      exact ⟨_, hread s rest limit hrest⟩
    cases e with
    | enqueue now r msg => exact henqueue s rest now r msg s' hrest hcalm hallow hstep
    | listMessages limit => exact Except.ok.inj hstep ▸ hpages _ rfl
    | httpListMessages query_limit => exact Except.ok.inj hstep ▸ hpages _ rfl
  obtain ⟨rest, hrest⟩ := hholds
  exact (hpending c.1 rest hrest).count_eq_one hpage (hundisturbed c hc)

end

/-! ### In memory -/

structure InMemoryPending (bound : ℕ) (age : UInt64) (did : String) (s : Sync InMemoryMessageStore)
    (rest : List QueuedMessage) : Prop where
  bound_eq : s.store.max_queued = bound
  age_eq : s.store.max_message_age_secs = age
  queue_eq : s.store.queue did = s.received ++ rest
  stored_eq : s.stored = s.received ++ rest
  nodup : ((s.received ++ rest).map QueuedMessage.id).Nodup

namespace InMemoryPending

variable {bound : ℕ} {age : UInt64} {did : String} {s : Sync InMemoryMessageStore}
  {rest : List QueuedMessage}

theorem pending (h : InMemoryPending bound age did s rest) :
    Pending inMemoryMessageStore did s rest where
  stored_mem m hm := h.stored_eq ▸ hm
  mem_stored m hm := h.stored_eq ▸ hm
  nodup := h.nodup
  list_eq limit _ := by
    show s.store.listMessages did _ limit = _
    rw [s.store.listMessages_eq did limit, h.queue_eq, Paging.after_append _ h.nodup]
    intro id hid
    obtain ⟨m, hm, rfl⟩ := Option.map_eq_some_iff.mp hid
    rw [h.queue_eq]
    exact List.mem_map_of_mem (List.mem_append_left _ (List.mem_of_getLast? hm))

theorem enqueue (h : InMemoryPending bound age did s rest) {now : ℤ} {msg : QueuedMessage}
    (hmsg : msg.isExpired now age = false) (hroom : s.store.count did < bound)
    (hid : msg.id ∉ s.stored.map QueuedMessage.id) :
    ∃ store, s.store.enqueue now did msg = some store ∧
      InMemoryPending bound age did { s with store := store, stored := s.stored ++ [msg] }
        (rest ++ [msg]) := by
  have hlength : ¬ bound ≤ (s.store.queue did).length := not_le.mpr hroom
  refine ⟨s.store.setQueue did (s.store.queue did ++ [msg]), ?_, ?_⟩
  · rw [InMemoryMessageStore.enqueue, h.age_eq, hmsg, if_neg (by simp), h.bound_eq, if_neg hlength]
  · refine ⟨h.bound_eq, h.age_eq, ?_, ?_, ?_⟩
    · rw [InMemoryMessageStore.queue_setQueue, if_pos rfl, h.queue_eq, List.append_assoc]
    · show s.stored ++ [msg] = _
      rw [h.stored_eq, List.append_assoc]
    · rw [h.stored_eq] at hid
      rw [← List.append_assoc, List.map_append]
      refine List.nodup_append.mpr ⟨h.nodup, List.nodup_singleton _, ?_⟩
      rintro a ha b hb rfl
      exact hid (List.mem_singleton.mp hb ▸ ha)

/-- Messages for others do not matter. -/
theorem enqueue_other (h : InMemoryPending bound age did s rest) {now : ℤ} {r : String}
    {msg : QueuedMessage} {store : InMemoryMessageStore} (hr : r ≠ did)
    (henqueue : s.store.enqueue now r msg = some store) :
    InMemoryPending bound age did { s with store := store } rest := by
  have hset : ∀ l, InMemoryPending bound age did { s with store := s.store.setQueue r l } rest := by
    intro l
    refine ⟨h.bound_eq, h.age_eq, ?_, h.stored_eq, h.nodup⟩
    rw [InMemoryMessageStore.queue_setQueue, if_neg hr.symm]
    exact h.queue_eq
  rw [InMemoryMessageStore.enqueue] at henqueue
  split at henqueue
  · exact Option.some_inj.mp henqueue ▸ h
  · split at henqueue
    · split at henqueue
      · exact absurd henqueue (by simp)
      · exact Option.some_inj.mp henqueue ▸ hset _
    · exact Option.some_inj.mp henqueue ▸ hset _

theorem read (h : InMemoryPending bound age did s rest) (n : ℕ) :
    InMemoryPending bound age did { s with received := s.received ++ rest.take n }
      (rest.drop n) := by
  have hsplit : (s.received ++ rest.take n) ++ rest.drop n = s.received ++ rest := by
    rw [List.append_assoc, List.take_append_drop]
  exact ⟨h.bound_eq, h.age_eq, h.queue_eq.trans hsplit.symm, h.stored_eq.trans hsplit.symm,
    hsplit ▸ h.nodup⟩

theorem step (h : InMemoryPending bound age did s rest) {now : ℤ} {r : String}
    {msg : QueuedMessage} {s' : Sync InMemoryMessageStore}
    (hcalm : Undisturbed inMemoryMessageStore bound age did s (.enqueue now r msg))
    (hfresh : FreshId age did s (.enqueue now r msg))
    (hstep : syncStep inMemoryMessageStore age did (.enqueue now r msg) s = .ok s') :
    ∃ rest', InMemoryPending bound age did s' rest' := by
  obtain ⟨store, hstore, rfl⟩ := syncStep_enqueue hstep
  have hstore : s.store.enqueue now r msg = some store := hstore
  by_cases hr : r = did
  · subst hr
    rcases hmsg : msg.isExpired now age with _ | _
    · obtain ⟨store', hstore', hnew⟩ :=
        h.enqueue hmsg (hcalm rfl hmsg) (hfresh rfl hmsg)
      obtain rfl := Option.some_inj.mp (hstore'.symm.trans hstore)
      rw [if_pos ⟨rfl, rfl⟩]
      exact ⟨_, hnew⟩
    · rw [InMemoryMessageStore.enqueue, h.age_eq, hmsg, if_pos rfl] at hstore
      obtain rfl := Option.some_inj.mp hstore
      rw [if_neg fun h => absurd h.2 (by simp)]
      exact ⟨rest, h⟩
  · rw [if_neg fun h => hr h.1]
    exact ⟨rest, h.enqueue_other hr hstore⟩

end InMemoryPending

/-! ### On sled -/

structure SledPending (bound : ℕ) (age : UInt64) (did : String) (s : Sync SledMessageStore)
    (rest : List QueuedMessage) : Prop where
  bound_eq : s.store.max_queued = bound
  age_eq : s.store.max_message_age_secs = age
  entries_eq : (s.store.tree did).entries = (s.received ++ rest).map entry
  mem_iff : ∀ m, m ∈ s.stored ↔ m ∈ s.received ++ rest

namespace SledPending

variable {bound : ℕ} {age : UInt64} {did : String} {s : Sync SledMessageStore}
  {rest : List QueuedMessage} {order : TreeOrder}

theorem nodup (h : SledPending bound age did s rest) :
    ((s.received ++ rest).map QueuedMessage.id).Nodup := by
  have hkeys := (s.store.tree did).nodup_keys
  rwa [SortedTree.keys, h.entries_eq, map_fst_entry] at hkeys

theorem pending (h : SledPending bound age did s rest) :
    Pending (sledMessageStore order) did s rest where
  stored_mem m hm := (h.mem_iff m).mp hm
  mem_stored m hm := (h.mem_iff m).mpr hm
  nodup := h.nodup
  list_eq limit hlimit := by
    show s.store.listMessages did _ limit = _
    rw [s.store.listMessages_eq did _ hlimit, SortedTree.values, h.entries_eq, map_snd_entry,
      Paging.after_append _ h.nodup]

/-- Above the cursor is above all that was received. -/
theorem received_lt (h : SledPending bound age did s rest) {id : String}
    (hid : ∀ id' ∈ Paging.cursor QueuedMessage.id s.received, id' < id) :
    ∀ m ∈ s.received, m.id < id := by
  rcases List.eq_nil_or_concat s.received with hnil | ⟨init, last, hlast⟩
  · intro m hm
    exact absurd (hnil ▸ hm) List.not_mem_nil
  · rw [List.concat_eq_append] at hlast
    have hcursor : last.id < id := hid last.id (by rw [Paging.cursor, hlast, List.getLast?_concat]; rfl)
    have hsorted : (s.received.map entry).Pairwise fun e e' => e.1 < e'.1 := by
      have hall := (s.store.tree did).sorted
      rw [h.entries_eq, List.map_append] at hall
      exact (List.pairwise_append.mp hall).1
    rw [hlast, List.map_append] at hsorted
    intro m hm
    rw [hlast] at hm
    rcases List.mem_append.mp hm with hm | hm
    · have hle := (List.pairwise_append.mp hsorted).2.2 (entry m) (List.mem_map_of_mem hm)
        (entry last) (List.mem_singleton_self _)
      exact lt_trans hle hcursor
    · exact List.mem_singleton.mp hm ▸ hcursor

theorem exists_put (msg : QueuedMessage) (l : List QueuedMessage) :
    ∃ l' : List QueuedMessage, SortedTree.put msg.id msg (l.map entry) = l'.map entry := by
  induction l with
  | nil => exact ⟨[msg], rfl⟩
  | cons m l ih =>
    obtain ⟨l', hl'⟩ := ih
    rw [List.map_cons, SortedTree.put]
    split
    · exact ⟨msg :: m :: l, rfl⟩
    · split
      · exact ⟨msg :: l, rfl⟩
      · exact ⟨m :: l', by rw [hl', List.map_cons]⟩

theorem mem_map_entry {m : QueuedMessage} {l : List QueuedMessage} :
    entry m ∈ l.map entry ↔ m ∈ l := by
  refine List.mem_map_of_injective fun a b h => ?_
  exact (Prod.ext_iff.mp h).2

theorem enqueue (h : SledPending bound age did s rest) {now : ℤ} {msg : QueuedMessage}
    (hmsg : msg.isExpired now age = false) (hroom : s.store.count did < bound)
    (hfresh : msg.id ∉ s.stored.map QueuedMessage.id)
    (hcursor : ∀ id ∈ Paging.cursor QueuedMessage.id s.received, id < msg.id) :
    ∃ rest', SledPending bound age did
      { s with store := s.store.enqueue now did msg, stored := s.stored ++ [msg] } rest' := by
  have hbelow : ∀ e ∈ s.received.map entry, e.1 < msg.id := by
    intro e he
    obtain ⟨m, hm, rfl⟩ := List.mem_map.mp he
    exact h.received_lt hcursor m hm
  obtain ⟨rest', hrest'⟩ := exists_put msg rest
  have hinsert : ((s.store.tree did).insert msg.id msg).entries =
      (s.received ++ rest').map entry := by
    show SortedTree.put msg.id msg (s.store.tree did).entries = _
    rw [h.entries_eq, List.map_append, SortedTree.put_append msg hbelow, hrest', List.map_append]
  have hlen : ((s.store.tree did).insert msg.id msg).len ≤ bound := by
    have hput := SortedTree.length_put_le msg.id msg (s.store.tree did).entries
    exact hput.trans hroom
  have htree : (s.store.enqueue now did msg).tree did =
      trim bound ((s.store.tree did).insert msg.id msg) := by
    rw [SledMessageStore.enqueue, h.age_eq, hmsg, if_neg (by simp), SledMessageStore.tree_modifyTree,
      if_pos rfl, h.bound_eq]
  have hbounds : (s.store.enqueue now did msg).max_queued = bound ∧
      (s.store.enqueue now did msg).max_message_age_secs = age := by
    rw [SledMessageStore.enqueue, h.age_eq, hmsg, if_neg (by simp)]
    exact ⟨h.bound_eq, h.age_eq⟩
  refine ⟨rest', hbounds.1, hbounds.2, ?_, fun m => ?_⟩
  · rw [htree, trim_entries, Nat.sub_eq_zero_of_le hlen, List.drop_zero, hinsert]
  · have hmem := SortedTree.mem_entries_insert (t := s.store.tree did) (a := msg.id) (b := msg)
      (e := entry m)
    rw [hinsert, h.entries_eq, mem_map_entry, mem_map_entry] at hmem
    rw [hmem, ← h.mem_iff, List.mem_append, List.mem_singleton]
    constructor
    · rintro (hstored | rfl)
      · refine .inr ⟨hstored, fun heq => hfresh ?_⟩
        exact List.mem_map.mpr ⟨m, hstored, heq⟩
      · exact .inl rfl
    · rintro (heq | ⟨hstored, -⟩)
      · exact .inr (Prod.ext_iff.mp heq).2
      · exact .inl hstored

theorem enqueue_other (h : SledPending bound age did s rest) {now : ℤ} {r : String}
    {msg : QueuedMessage} (hr : r ≠ did) :
    SledPending bound age did { s with store := s.store.enqueue now r msg } rest := by
  rw [SledMessageStore.enqueue]
  split
  · exact h
  · refine ⟨h.bound_eq, h.age_eq, ?_, h.mem_iff⟩
    rw [SledMessageStore.tree_modifyTree, if_neg hr.symm]
    exact h.entries_eq

theorem read (h : SledPending bound age did s rest) (n : ℕ) :
    SledPending bound age did { s with received := s.received ++ rest.take n } (rest.drop n) := by
  have hsplit : (s.received ++ rest.take n) ++ rest.drop n = s.received ++ rest := by
    rw [List.append_assoc, List.take_append_drop]
  exact ⟨h.bound_eq, h.age_eq, hsplit ▸ h.entries_eq, hsplit ▸ h.mem_iff⟩

theorem step (h : SledPending bound age did s rest) {now : ℤ} {r : String} {msg : QueuedMessage}
    {s' : Sync SledMessageStore}
    (hcalm : Undisturbed (sledMessageStore order) bound age did s (.enqueue now r msg))
    (hfresh : FreshId age did s (.enqueue now r msg))
    (habove : AboveCursor age did s (.enqueue now r msg))
    (hstep : syncStep (sledMessageStore order) age did (.enqueue now r msg) s = .ok s') :
    ∃ rest', SledPending bound age did s' rest' := by
  obtain ⟨store, hstore, rfl⟩ := syncStep_enqueue hstep
  obtain rfl : s.store.enqueue now r msg = store := Option.some_inj.mp hstore
  by_cases hr : r = did
  · subst hr
    rcases hmsg : msg.isExpired now age with _ | _
    · rw [if_pos ⟨rfl, rfl⟩]
      exact h.enqueue hmsg (hcalm rfl hmsg) (hfresh rfl hmsg) (habove rfl hmsg)
    · rw [if_neg fun h => absurd h.2 (by simp), SledMessageStore.enqueue, h.age_eq, hmsg, if_pos rfl]
      exact ⟨rest, h⟩
  · rw [if_neg fun h => hr h.1]
    exact ⟨rest, h.enqueue_other hr⟩

end SledPending

theorem sync_complete (order : TreeOrder) (others : Database String String String) (bound : ℕ)
    (age : UInt64) (did : String) :
    (∀ h s, Run (syncStep inMemoryMessageStore age did) ⟨.withMaxAge bound age, [], []⟩ h s →
      (∀ c ∈ h, Undisturbed inMemoryMessageStore bound age did c.1 c.2) →
      (∀ c ∈ h, FreshId age did c.1 c.2) → Complete inMemoryMessageStore did h) ∧
    ∀ h s, Run (syncStep (sledMessageStore order) age did) ⟨.new others bound age, [], []⟩ h s →
      (∀ c ∈ h, Undisturbed (sledMessageStore order) bound age did c.1 c.2) →
      (∀ c ∈ h, FreshId age did c.1 c.2 ∧ AboveCursor age did c.1 c.2) →
      Complete (sledMessageStore order) did h := by
  constructor
  · intro h s hrun hcalm hallowed
    refine complete_of_step (FreshId age did) (fun _ _ => InMemoryPending.pending)
      (fun _ _ n (hs : InMemoryPending bound age did _ _) => hs.read n) ?_ ?_ hrun hcalm hallowed
    · intro s rest now r msg s' hs hcalm hfresh hstep
      exact hs.step hcalm hfresh hstep
    · exact ⟨rfl, rfl, rfl, rfl, List.nodup_nil⟩
  · intro h s hrun hcalm hallowed
    refine complete_of_step (fun s e => FreshId age did s e ∧ AboveCursor age did s e)
      (fun _ _ => SledPending.pending)
      (fun _ _ n (hs : SledPending bound age did _ _) => hs.read n) ?_ ?_ hrun hcalm hallowed
    · intro s rest now r msg s' hs hcalm hallow hstep
      exact hs.step hcalm hallow.1 hallow.2 hstep
    · exact ⟨rfl, rfl, rfl, fun m => Iff.rfl⟩

namespace Sample

/-- A message to `did`, queued at time zero. -/
def post (id : String) : QueuedMessage := ⟨id, "sender", "did", "envelope", 0⟩

/-- One message, a page, another message and two pages. -/
def events (first second : String) : List SyncEvent :=
  [.enqueue 0 "did" (post first), .listMessages 10, .enqueue 1 "did" (post second),
    .httpListMessages none, .listMessages 10]

def start : Sync SledMessageStore := ⟨.new ∅ 10 86400, [], []⟩

end Sample

/-- By increasing id, the last page is empty and the client has both messages. -/
theorem sync_complete_two : ∃ h s,
    Run (syncStep (sledMessageStore .asStored) 86400 "did") Sample.start h s ∧
      Complete (sledMessageStore .asStored) "did" h ∧
      s.received = [Sample.post "a", Sample.post "b"] := by
  have htest : (Run.record (syncStep (sledMessageStore .asStored) 86400 "did")
      (Sample.events "a" "b") [] Sample.start).toOption.any (fun r =>
        decide ((∀ c ∈ r.1, Undisturbed (sledMessageStore .asStored) 10 86400 "did" c.1 c.2) ∧
          (∀ c ∈ r.1, FreshId 86400 "did" c.1 c.2 ∧ AboveCursor 86400 "did" c.1 c.2) ∧
          r.2.received = [Sample.post "a", Sample.post "b"])) = true := by decide
  obtain ⟨h, s, hrun, hpassed⟩ := Run.exists_of_record htest
  obtain ⟨hcalm, hallowed, hreceived⟩ := of_decide_eq_true hpassed
  exact ⟨h, s, hrun,
    (sync_complete .asStored ∅ 10 86400 "did").2 h s hrun hcalm hallowed, hreceived⟩

/-- By decreasing id, the second message is behind the cursor and is never returned. -/
theorem sync_incomplete :
    ¬ ∀ (order : TreeOrder) (bound : ℕ) (age : UInt64) (did : String) (h : _) (s : _),
      Run (syncStep (sledMessageStore order) age did) ⟨.new ∅ bound age, [], []⟩ h s →
      (∀ c ∈ h, Undisturbed (sledMessageStore order) bound age did c.1 c.2) →
      (∀ c ∈ h, FreshId age did c.1 c.2) → Complete (sledMessageStore order) did h := by
  intro hall
  have htest : (Run.record (syncStep (sledMessageStore .asStored) 86400 "did")
      (Sample.events "b" "a") [] Sample.start).toOption.any (fun r =>
        decide ((∀ c ∈ r.1, Undisturbed (sledMessageStore .asStored) 10 86400 "did" c.1 c.2) ∧
          (∀ c ∈ r.1, FreshId 86400 "did" c.1 c.2) ∧
          ∃ c ∈ r.1, c.1.page (sledMessageStore .asStored) "did" c.2 = some [] ∧
            ∃ m ∈ c.1.stored, c.1.received.count m ≠ 1)) = true := by decide
  obtain ⟨h, s, hrun, hpassed⟩ := Run.exists_of_record htest
  obtain ⟨hcalm, hfresh, c, hc, hpage, m, hm, hcount⟩ := of_decide_eq_true hpassed
  exact hcount (hall .asStored 10 86400 "did" h s hrun hcalm hfresh c hc hpage m hm)

end Router
