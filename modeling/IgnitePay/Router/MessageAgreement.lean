/-
The two message stores side by side with what they are for: a queue for each recipient,
first in first out, from which a message that does not fit drops the oldest.

On sled a message stands where its id puts it.  As long as a new id is above those that
wait, that is at the end, and the trees hold what the lists in memory hold.  The two
also part at limits and bounds of zero, at a cursor that is not in the queue, where
a message has expired behind the last one that is taken, and where the same id waits
for two recipients (`Regular` leaves these out).

* `messageStores_agree` — both stores answer as the queues do.
-/
import IgnitePay.Lib.Answers
import IgnitePay.Router.MessageStores

namespace Router

open Machine

inductive MessageOp
  | enqueue (now : ℤ) (recipient_did : String) (msg : QueuedMessage)
  | dequeueBatch (now : ℤ) (recipient_did : String) (limit : ℕ)
  | listMessages (recipient_did : String) (after_id : Option String) (limit : ℕ)
  | remove (msg_id : String)
  deriving DecidableEq

inductive MessageReply
  | done
  | panicked
  | messages (found : List QueuedMessage)
  deriving DecidableEq

/-- An operation, on either store. -/
def messageStep {S : Type} (M : MessageStore S) : MessageOp → S → MessageReply × S
  | .enqueue now r msg, s =>
    match M.enqueue now r msg s with
    | some s' => (.done, s')
    | none => (.panicked, s)
  | .dequeueBatch now r limit, s =>
    (.messages (M.dequeueBatch now r limit s).1, (M.dequeueBatch now r limit s).2)
  | .listMessages r after_id limit, s => (.messages (M.listMessages s r after_id limit), s)
  | .remove id, s => (.done, M.remove id s)

/-! ### The queues -/

/-- The waiting messages of each recipient, the oldest first. -/
abbrev Mailboxes := String → List QueuedMessage

/-- The messages that are not expired. -/
def fresh (now : ℤ) (age : UInt64) (l : List QueuedMessage) : List QueuedMessage :=
  l.filter fun m => !m.isExpired now age

/-- The newest `bound` messages. -/
def newest (bound : ℕ) (l : List QueuedMessage) : List QueuedMessage := l.drop (l.length - bound)

def queueStep (bound : ℕ) (age : UInt64) : MessageOp → Mailboxes → MessageReply × Mailboxes
  | .enqueue now r msg, q =>
    (.done, if msg.isExpired now age then q else Function.update q r (newest bound (q r ++ [msg])))
  | .dequeueBatch now r limit, q =>
    (.messages ((fresh now age (q r)).take limit),
      Function.update q r ((fresh now age (q r)).drop limit))
  | .listMessages r after_id limit, q =>
    (.messages ((Paging.after QueuedMessage.id after_id (q r)).take limit), q)
  | .remove id, q => (.done, fun r => (q r).filter fun m => m.id ≠ id)

/-- An operation that the stores answer alike: what comes in is the last by its id as well, and
there is room for at least one message; a limit is positive, nothing has expired behind
the last message taken, and the cursor is in the queue; what is removed waits for one
recipient only. -/
def Regular (others : Database String String String) (bound : ℕ) (age : UInt64) (q : Mailboxes) :
    MessageOp → Prop
  | .enqueue now r msg =>
    msg.isExpired now age = true ∨ 0 < bound ∧ ∀ m ∈ q r, m.id < msg.id
  | .dequeueBatch now r limit =>
    q r = [] ∨ 0 < limit ∧ ∀ front back, q r = front ++ back →
      limit ≤ (fresh now age front).length → ∀ m ∈ back, m.isExpired now age = false
  | .listMessages r after_id limit =>
    q r = [] ∨ 0 < limit ∧ ∀ id, after_id = some id → id ∈ (q r).map QueuedMessage.id
  | .remove id =>
    (∀ r r', id ∈ (q r).map QueuedMessage.id → id ∈ (q r').map QueuedMessage.id → r = r') ∧
      ∀ n, (Database.tree others n).get id = none

variable {others : Database String String String} {bound : ℕ} {age : UInt64} {q : Mailboxes}

theorem length_newest_le (l : List QueuedMessage) : (newest bound l).length ≤ bound := by
  rw [newest, List.length_drop]
  omega

/-! ### In memory -/

structure InMemoryHolds (bound : ℕ) (age : UInt64) (q : Mailboxes) (s : InMemoryMessageStore) :
    Prop where
  bound_eq : s.max_queued = bound
  age_eq : s.max_message_age_secs = age
  queue_eq : ∀ r, s.queue r = q r
  length_le : ∀ r, (q r).length ≤ bound

namespace InMemoryHolds

variable {s : InMemoryMessageStore}

theorem enqueue (h : InMemoryHolds bound age q s) {now : ℤ} {r : String} {msg : QueuedMessage}
    (hmsg : msg.isExpired now age = false) (hbound : 0 < bound) :
    ∃ s', s.enqueue now r msg = some s' ∧
      InMemoryHolds bound age (Function.update q r (newest bound (q r ++ [msg]))) s' := by
  have hset : ∀ l, l = newest bound (q r ++ [msg]) →
      InMemoryHolds bound age (Function.update q r (newest bound (q r ++ [msg])))
        (s.setQueue r l) := by
    rintro l rfl
    refine ⟨h.bound_eq, h.age_eq, fun r' => ?_, fun r' => ?_⟩
    · rw [InMemoryMessageStore.queue_setQueue, Function.update_apply, h.queue_eq]
    · rw [Function.update_apply]
      split
      · exact length_newest_le _
      · exact h.length_le r'
  have hlength := h.length_le r
  rw [InMemoryMessageStore.enqueue, h.age_eq, hmsg, if_neg (by simp), h.bound_eq, h.queue_eq]
  by_cases hfull : bound ≤ (q r).length
  · rw [if_pos hfull]
    rcases hq : q r with _ | ⟨oldest, rest⟩
    · rw [hq, List.length_nil] at hfull
      omega
    · have hone : (oldest :: rest ++ [msg]).length - bound = 1 := by
        rw [hq, List.length_cons] at hfull hlength
        simp only [List.cons_append, List.length_cons, List.length_append, List.length_nil]
        omega
      refine ⟨_, rfl, ?_⟩
      rw [← hq]
      refine hset _ ?_
      rw [hq, newest, hone]
      rfl
  · refine ⟨_, if_neg hfull, hset _ ?_⟩
    have hzero : (q r ++ [msg]).length - bound = 0 := by
      rw [List.length_append, List.length_singleton]
      omega
    rw [newest, hzero, List.drop_zero]

theorem step (h : InMemoryHolds bound age q s) {op : MessageOp} (hop : Regular others bound age q op) :
    (queueStep bound age op q).1 = (messageStep inMemoryMessageStore op s).1 ∧
      InMemoryHolds bound age (queueStep bound age op q).2 (messageStep inMemoryMessageStore op s).2 := by
  cases op with
  | enqueue now r msg =>
    rw [queueStep, messageStep]
    rcases hmsg : msg.isExpired now age with _ | _
    · have hbound : 0 < bound := by
        rcases hop with hexp | ⟨hbound, -⟩
        · exact absurd (hmsg.symm.trans hexp) (by simp)
        · exact hbound
      obtain ⟨s', hs', hholds⟩ := h.enqueue (r := r) hmsg hbound
      have henqueue : inMemoryMessageStore.enqueue now r msg s = some s' := hs'
      rw [henqueue]
      exact ⟨rfl, hholds⟩
    · have hskip : inMemoryMessageStore.enqueue now r msg s = some s := by
        show s.enqueue now r msg = some s
        rw [InMemoryMessageStore.enqueue, h.age_eq, hmsg, if_pos rfl]
      rw [hskip]
      exact ⟨rfl, h⟩
  | dequeueBatch now r limit =>
    obtain ⟨hfound, hleft⟩ := InMemoryMessageStore.dequeueBatch_eq now r limit s
    rw [h.queue_eq, h.age_eq] at hfound hleft
    refine ⟨congrArg MessageReply.messages hfound.symm, ?_, ?_, fun r' => ?_, fun r' => ?_⟩
    · exact (s.dequeueBatch_bounds now r limit).1.trans h.bound_eq
    · exact (s.dequeueBatch_bounds now r limit).2.trans h.age_eq
    · show (s.dequeueBatch now r limit).2.queue r' =
        Function.update q r ((fresh now age (q r)).drop limit) r'
      rw [hleft r', Function.update_apply, h.queue_eq]
      rfl
    · show (Function.update q r _ r').length ≤ bound
      rw [Function.update_apply]
      split
      · have hfresh : (fresh now age (q r)).length ≤ (q r).length := List.length_filter_le _ _
        have hlength := h.length_le r
        rw [List.length_drop]
        omega
      · exact h.length_le r'
  | listMessages r after_id limit =>
    refine ⟨congrArg MessageReply.messages ?_, h⟩
    show _ = s.listMessages r after_id limit
    rcases hop with hempty | ⟨-, hin⟩
    · have hqueue : s.queue r = [] := (h.queue_eq r).trans hempty
      rcases after_id with _ | id
      · simp [InMemoryMessageStore.listMessages, Paging.after, hempty, hqueue]
      · simp [InMemoryMessageStore.listMessages, Paging.after, hempty, hqueue]
    · rw [← h.queue_eq] at hin ⊢
      exact (s.listMessages_eq r limit hin).symm
  | remove id =>
    refine ⟨rfl, h.bound_eq, h.age_eq, fun r => ?_, fun r => ?_⟩
    · show (s.remove id).queue r = _
      rw [InMemoryMessageStore.queue_remove, h.queue_eq]
      rfl
    · exact (List.length_filter_le _ _).trans (h.length_le r)

end InMemoryHolds

/-! ### On sled -/

structure SledHolds (others : Database String String String) (bound : ℕ) (age : UInt64)
    (q : Mailboxes) (s : SledMessageStore) : Prop where
  bound_eq : s.max_queued = bound
  age_eq : s.max_message_age_secs = age
  others_eq : s.others = others
  entries_eq : ∀ r, (s.tree r).entries = (q r).map entry
  tree_eq_empty : ∀ n, (∀ r, n ≠ queueTree r) → Database.tree s.queues n = ∅
  length_le : ∀ r, (q r).length ≤ bound

namespace SledHolds

variable {s : SledMessageStore}

/-- One queue tree is changed as its queue is. -/
theorem modify (h : SledHolds others bound age q s) {r : String} {l : List QueuedMessage}
    {f : SortedTree String QueuedMessage → SortedTree String QueuedMessage}
    (hf : (f (s.tree r)).entries = l.map entry) (hl : l.length ≤ bound) :
    SledHolds others bound age (Function.update q r l) (s.modifyTree r f) where
  bound_eq := h.bound_eq
  age_eq := h.age_eq
  others_eq := h.others_eq
  entries_eq r' := by
    rw [SledMessageStore.tree_modifyTree, Function.update_apply]
    split
    · exact hf
    · exact h.entries_eq r'
  tree_eq_empty n hn := by
    show Database.tree (Database.modify _ _ _) n = ∅
    rw [Database.tree_modify_of_ne _ _ (hn r)]
    exact h.tree_eq_empty n hn
  length_le r' := by
    rw [Function.update_apply]
    split
    · exact hl
    · exact h.length_le r'

theorem enqueue (h : SledHolds others bound age q s) {now : ℤ} {r : String} {msg : QueuedMessage}
    (hmsg : msg.isExpired now age = false) (hid : ∀ m ∈ q r, m.id < msg.id) :
    SledHolds others bound age (Function.update q r (newest bound (q r ++ [msg])))
      (s.enqueue now r msg) := by
  rw [SledMessageStore.enqueue, h.age_eq, hmsg, if_neg (by simp), h.bound_eq]
  refine h.modify ?_ (length_newest_le _)
  have habove : ∀ e ∈ (s.tree r).entries, e.1 < msg.id := by
    intro e he
    rw [h.entries_eq] at he
    obtain ⟨m, hm, rfl⟩ := List.mem_map.mp he
    exact hid m hm
  have hlast : ((s.tree r).insert msg.id msg).entries = (q r ++ [msg]).map entry := by
    rw [SortedTree.entries_insert_of_lt msg habove, h.entries_eq, List.map_append]
    rfl
  rw [trim_entries, SortedTree.len, hlast, List.length_map, newest, List.map_drop]

theorem dequeueBatch (h : SledHolds others bound age q s) {now : ℤ} {r : String} {limit : ℕ}
    (hlimit : 0 < limit) (hback : ∀ front back, q r = front ++ back →
      limit ≤ (fresh now age front).length → ∀ m ∈ back, m.isExpired now age = false) :
    (s.dequeueBatch now r limit).1 = (fresh now age (q r)).take limit ∧
      SledHolds others bound age (Function.update q r ((fresh now age (q r)).drop limit))
        (s.dequeueBatch now r limit).2 := by
  obtain ⟨front, back, hentries, hcollect, hle, heq⟩ :=
    @collect_spec (QueuedMessage.isExpired now age) limit (s.tree r).entries [] [] hlimit
  rw [List.length_nil, Nat.zero_add] at hle heq
  rw [h.entries_eq] at hentries
  obtain ⟨front, back, hq, rfl, rfl⟩ := List.map_eq_append_iff.mp hentries
  have hvalues : (front.map entry).map Prod.snd = front := map_snd_entry front
  have hkeys : (s.tree r).entries = front.map entry ++ back.map entry := by
    rw [h.entries_eq, hq, List.map_append]
  have hfresh : fresh now age (q r) = fresh now age front ++ fresh now age back := by
    rw [hq]
    exact List.filter_append ..
  rw [hvalues] at hcollect hle heq
  rw [SledMessageStore.dequeueBatch, h.age_eq, hcollect]
  have htaken : (fresh now age (q r)).take limit = fresh now age front ∧
      (fresh now age (q r)).drop limit = back := by
    by_cases hnil : back = []
    · subst hnil
      have hall : fresh now age (q r) = fresh now age front := by
        rw [hfresh]
        exact List.append_nil _
      rw [hall]
      exact ⟨List.take_of_length_le hle, List.drop_of_length_le hle⟩
    · have hfull : (fresh now age front).length = limit :=
        heq fun hmap => hnil (List.map_eq_nil_iff.mp hmap)
      have hvalid : fresh now age back = back := by
        refine List.filter_eq_self.mpr fun m hm => ?_
        rw [hback front back hq hfull.ge m hm]
        rfl
      rw [hfresh, hvalid, ← hfull]
      exact ⟨List.take_left, List.drop_left⟩
  refine ⟨htaken.1.symm, h.modify ?_ ?_⟩
  · rw [htaken.2]
    exact SortedTree.entries_removeAll_append hkeys
  · have hlength := h.length_le r
    rw [htaken.2]
    rw [hq, List.length_append] at hlength
    omega

theorem get_eq_none_iff (h : SledHolds others bound age q s) (id r : String) :
    (s.tree r).get id = none ↔ id ∉ (q r).map QueuedMessage.id := by
  rw [← not_iff_not, not_not, ← ne_eq, Option.ne_none_iff_exists']
  constructor
  · rintro ⟨m, hm⟩
    rw [SortedTree.get_eq_some_iff, h.entries_eq] at hm
    obtain ⟨m', hm', heq⟩ := List.mem_map.mp hm
    exact List.mem_map.mpr ⟨m', hm', (Prod.ext_iff.mp heq).1⟩
  · intro hid
    obtain ⟨m, hm, rfl⟩ := List.mem_map.mp hid
    refine ⟨m, SortedTree.get_eq_some_iff.mpr ?_⟩
    rw [h.entries_eq]
    exact List.mem_map.mpr ⟨m, hm, rfl⟩

end SledHolds

/-- The search stops at the one tree that has the id, and otherwise changes nothing. -/
theorem removeFrom_eq {s : SledMessageStore} {id n₀ : String} {names : List String}
    (hothers : ∀ n, (Database.tree s.others n).get id = none)
    (hqueues : ∀ n, n ≠ n₀ → (Database.tree s.queues n).get id = none)
    (hn₀ : (Database.tree s.queues n₀).get id ≠ none → n₀ ∈ names) :
    ∃ queues, SledMessageStore.removeFrom id names s = { s with queues := queues } ∧
      ∀ n, Database.tree queues n = (Database.tree s.queues n).remove id := by
  have hself : ∀ t : SortedTree String QueuedMessage, t.get id = none → t = t.remove id :=
    fun t ht => (SortedTree.remove_of_get_none ht).symm
  induction names with
  | nil =>
    refine ⟨s.queues, rfl, fun n => hself _ ?_⟩
    by_cases hn : n = n₀
    · by_contra hget
      exact absurd (hn₀ (hn ▸ hget)) List.not_mem_nil
    · exact hqueues n hn
  | cons m names ih =>
    rw [SledMessageStore.removeFrom]
    by_cases hm : (Database.tree s.queues m).get id = none
    · rw [hm, hothers, if_neg (by simp), if_neg (by simp)]
      refine ih fun hget => ?_
      rcases List.mem_cons.mp (hn₀ hget) with rfl | hmem
      · exact absurd hm hget
      · exact hmem
    · have hsome : ((Database.tree s.queues m).get id).isSome = true :=
        Option.isSome_iff_ne_none.mpr hm
      have hmn₀ : m = n₀ := by
        by_contra hne
        exact hm (hqueues m hne)
      rw [if_pos hsome]
      refine ⟨_, rfl, fun n => ?_⟩
      rw [Database.tree_modify]
      split
      · next hn => rw [hn]
      · next hn => exact hself _ (hqueues n fun heq => hn (heq.trans hmn₀.symm))

namespace SledHolds

variable {s : SledMessageStore}

theorem remove (h : SledHolds others bound age q s) (order : TreeOrder) {id : String}
    (hone : ∀ r r', id ∈ (q r).map QueuedMessage.id → id ∈ (q r').map QueuedMessage.id → r = r')
    (hothers : ∀ n, (Database.tree others n).get id = none) :
    SledHolds others bound age (fun r => (q r).filter fun m => m.id ≠ id)
      (s.remove order.names id) := by
  -- The tree that has the id, if there is one; otherwise any.
  have hexists : ∃ r₀, ∀ r, r ≠ r₀ → (s.tree r).get id = none := by
    by_cases hany : ∃ r₀, id ∈ (q r₀).map QueuedMessage.id
    · obtain ⟨r₀, hr₀⟩ := hany
      refine ⟨r₀, fun r hr => (h.get_eq_none_iff id r).mpr fun hmem => ?_⟩
      exact hr (hone r r₀ hmem hr₀)
    · exact ⟨"", fun r _ => (h.get_eq_none_iff id r).mpr fun hmem => hany ⟨r, hmem⟩⟩
  obtain ⟨r₀, hr₀⟩ := hexists
  have hqueues : ∀ n, n ≠ queueTree r₀ → (Database.tree s.queues n).get id = none := by
    intro n hn
    by_cases hname : ∃ r, n = queueTree r
    · obtain ⟨r, rfl⟩ := hname
      exact hr₀ r fun heq => hn (congrArg queueTree heq)
    · rw [h.tree_eq_empty n fun r heq => hname ⟨r, heq⟩]
      exact SortedTree.get_empty id
  have hlisted : (Database.tree s.queues (queueTree r₀)).get id ≠ none →
      queueTree r₀ ∈ order.names s := by
    intro hget
    refine (order.mem_names s _).mpr (.inl ?_)
    by_contra hkey
    have hnone : s.queues.lookup (queueTree r₀) = none := AList.lookup_eq_none.mpr hkey
    rw [Database.tree, hnone, Option.getD_none] at hget
    exact hget (SortedTree.get_empty id)
  obtain ⟨queues, hremove, htree⟩ :=
    removeFrom_eq (fun n => (h.others_eq ▸ hothers n)) hqueues hlisted
  rw [SledMessageStore.remove, hremove]
  refine ⟨h.bound_eq, h.age_eq, h.others_eq, fun r => ?_, fun n hn => ?_, fun r => ?_⟩
  · show (Database.tree queues (queueTree r)).entries = _
    rw [htree]
    show (s.tree r).entries.filter _ = _
    rw [h.entries_eq, List.filter_map]
    rfl
  · show Database.tree queues n = ∅
    rw [htree, h.tree_eq_empty n hn]
    rfl
  · exact (List.length_filter_le _ _).trans (h.length_le r)

theorem listMessages (h : SledHolds others bound age q s) (r : String) (after_id : Option String)
    (limit : ℕ) (hlimit : q r = [] ∨ 0 < limit) :
    s.listMessages r after_id limit =
      (Paging.after QueuedMessage.id after_id (q r)).take limit := by
  have hvalues : (s.tree r).values = q r := by
    rw [SortedTree.values, h.entries_eq, map_snd_entry]
  rcases hlimit with hempty | hlimit
  · have hentries : (s.tree r).entries = [] := by rw [h.entries_eq, hempty, List.map_nil]
    rw [SledMessageStore.listMessages, hentries, hempty]
    rcases after_id with _ | id
    · rw [Paging.after, List.take_nil]
      rfl
    · rw [Paging.after, List.dropWhile_nil, List.tail_nil, List.take_nil]
      rfl
  · rw [s.listMessages_eq r after_id hlimit, hvalues]

theorem step (h : SledHolds others bound age q s) (order : TreeOrder) {op : MessageOp}
    (hop : Regular others bound age q op) :
    (queueStep bound age op q).1 = (messageStep (sledMessageStore order) op s).1 ∧
      SledHolds others bound age (queueStep bound age op q).2 (messageStep (sledMessageStore order) op s).2 := by
  cases op with
  | enqueue now r msg =>
    refine ⟨rfl, ?_⟩
    show SledHolds others bound age (if msg.isExpired now age then q else _) (s.enqueue now r msg)
    rcases hmsg : msg.isExpired now age with _ | _
    · rcases hop with hexp | ⟨-, hid⟩
      · exact absurd (hmsg.symm.trans hexp) (by simp)
      · exact h.enqueue hmsg hid
    · have hskip : s.enqueue now r msg = s := by
        rw [SledMessageStore.enqueue, h.age_eq, hmsg, if_pos rfl]
      rw [hskip]
      exact h
  | dequeueBatch now r limit =>
    rcases hop with hempty | ⟨hlimit, hback⟩
    · have hentries : (s.tree r).entries = [] := by rw [h.entries_eq, hempty, List.map_nil]
      have hcollect : s.dequeueBatch now r limit = ([], s.modifyTree r fun t => t.removeAll []) := by
        rw [SledMessageStore.dequeueBatch, hentries]
        rfl
      have hfresh : fresh now age (q r) = [] := by rw [hempty]; rfl
      have hholds := h.modify (r := r) (l := []) (f := fun t => t.removeAll []) hentries
        (Nat.zero_le _)
      rw [queueStep, hfresh, List.take_nil, List.drop_nil]
      show _ = MessageReply.messages (s.dequeueBatch now r limit).1 ∧
        SledHolds others bound age _ (s.dequeueBatch now r limit).2
      rw [hcollect]
      exact ⟨rfl, hholds⟩
    · obtain ⟨hfound, hholds⟩ := h.dequeueBatch hlimit hback
      exact ⟨congrArg MessageReply.messages hfound.symm, hholds⟩
  | listMessages r after_id limit =>
    refine ⟨congrArg MessageReply.messages (h.listMessages r after_id limit ?_).symm, h⟩
    exact hop.imp_right And.left
  | remove id => exact ⟨rfl, h.remove order hop.1 hop.2⟩

end SledHolds

theorem messageStores_agree (order : TreeOrder) (others : Database String String String) (bound : ℕ)
    (age : UInt64) (ops : List MessageOp)
    (hops : AllCalls (queueStep bound age) (Regular others bound age) ops fun _ => []) :
    answers (messageStep inMemoryMessageStore) ops (.withMaxAge bound age) =
        answers (queueStep bound age) ops (fun _ => []) ∧
      answers (messageStep (sledMessageStore order)) ops (.new others bound age) =
        answers (queueStep bound age) ops fun _ => [] := by
  have hmemory : InMemoryHolds bound age (fun _ => []) (.withMaxAge bound age) :=
    ⟨rfl, rfl, fun _ => rfl, fun _ => Nat.zero_le _⟩
  have hsled : SledHolds others bound age (fun _ => []) (.new others bound age) :=
    ⟨rfl, rfl, rfl, fun _ => rfl, fun _ _ => rfl, fun _ => Nat.zero_le _⟩
  constructor
  · obtain ⟨hanswers, -⟩ := forall₂_answers (R := InMemoryHolds bound age) hops hmemory
      fun _ _ _ h hop => h.step hop
    rw [List.forall₂_eq_eq_eq] at hanswers
    exact hanswers.symm
  · obtain ⟨hanswers, -⟩ := forall₂_answers (R := SledHolds others bound age) hops hsled
      fun _ _ _ h hop => h.step order hop
    rw [List.forall₂_eq_eq_eq] at hanswers
    exact hanswers.symm

namespace Sample

/-- A message to `r`, queued at time zero. -/
def message (id : String) : QueuedMessage := ⟨id, "s", "r", "envelope", 0⟩

end Sample

/-- Two messages by increasing id; one is read, then the older one is taken. -/
theorem messageStores_agree_two :
    answers (messageStep inMemoryMessageStore)
        [.remove "a", .enqueue 0 "r" (Sample.message "a"), .enqueue 1 "r" (Sample.message "b"),
          .listMessages "r" (some "a") 1, .dequeueBatch 2 "r" 1] (.withMaxAge 10 86400) =
      [.done, .done, .done, .messages [Sample.message "b"], .messages [Sample.message "a"]] := by
  refine (messageStores_agree .asStored ∅ 10 86400 _ ?_).1.trans (by decide)
  refine ⟨⟨fun r r' h => absurd h List.not_mem_nil, fun n => rfl⟩, .inr ?_, .inr ?_, .inr ?_,
    .inr ⟨by decide, fun front back hq _ m hm => ?_⟩, trivial⟩
  · exact ⟨by decide, fun m hm => absurd hm List.not_mem_nil⟩
  · exact ⟨by decide, by decide⟩
  · refine ⟨by decide, fun id hid => ?_⟩
    obtain rfl := Option.some_inj.mp hid
    decide
  · have hfresh : ∀ m ∈ [Sample.message "a", Sample.message "b"],
        m.isExpired 2 86400 = false := by decide
    have hboth : front ++ back = [Sample.message "a", Sample.message "b"] :=
      hq.symm.trans (by decide)
    exact hfresh m (hboth ▸ List.mem_append_right front hm)

/-- Two messages by decreasing id: in memory the first one in is listed first, on sled the other. -/
theorem messageStores_disagree :
    ¬ ∀ (order : TreeOrder) (bound : ℕ) (age : UInt64) (ops : List MessageOp),
      answers (messageStep inMemoryMessageStore) ops (.withMaxAge bound age) =
        answers (messageStep (sledMessageStore order)) ops (.new ∅ bound age) := by
  intro h
  have hops := h .asStored 10 86400 [.enqueue 0 "r" (Sample.message "b"),
    .enqueue 1 "r" (Sample.message "a"), .listMessages "r" none 10]
  exact absurd hops (by decide)

end Router
