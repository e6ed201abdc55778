/-
Who can get hold of a message that the router carries.

Any number of requests run at the same time, in any interleaving of their accesses to the stores.
What has been asked for bounds what any of them can find in a store, and so where an envelope can
go: to the DID it is addressed to, and to a DID that has listed a key under which it is stored.
Such a key is the one that it is addressed to, or one that an owner of that has listed.

Who lists a key is told by `from` alone, so this is as much as the router can promise.

* `Sound` — what the stores hold has been asked for;
* `keeps_handler` — every access of every request keeps that;
* `sent_only_to_recipients` — an envelope goes only to connections of DIDs that it can reach.
-/
import IgnitePay.Router.Mediation

namespace Router

open Machine Handler

/-- The envelopes in the body of a batch. -/
def readBatch (body : Json) : List String :=
  (((body.get "messages").bind Json.asArray).getD []).filterMap fun m =>
    (m.get "message").bind Json.asString

theorem readBatch_batchBody (envelopes : List String) : readBatch (batchBody envelopes) = envelopes := by
  show (envelopes.map _).filterMap _ = _
  rw [List.filterMap_map]
  exact List.filterMap_some

/-- The envelopes that a text delivers. -/
def Outgoing.envelopes : Outgoing → List String
  | .envelope text => [text]
  | .answer a => if a.typ = batch then readBatch a.body else []

theorem Outgoing.envelopes_answer {a : Answer} (h : a.typ ≠ batch) :
    (Outgoing.answer a).envelopes = [] := if_neg h

theorem Outgoing.envelopes_batch {a : Answer} (h : a.typ = batch) :
    (Outgoing.answer a).envelopes = readBatch a.body := if_pos h

/-! ### What is asked for -/

section

variable (c : Settings) (asked : Set Request)

/-- A message comes in, on the connection of a DID or over HTTP. -/
inductive Arrives : Option String → Message → Prop
  | received {session_did msg_id text : String} {msg : Message} :
      .receives session_did msg_id text ∈ asked → c.parseMessage text = .ok msg →
        Arrives (some session_did) msg
  | posted {msg_id text : String} {msg : Message} :
      .posts msg_id text ∈ asked → c.parseMessage text = .ok msg → Arrives none msg

/-- A message in the name of `did` adds `key` to its keylist. -/
def Lists (did key : String) : Prop :=
  ∃ session_did msg updates, Arrives c asked session_did msg ∧ msg.typ = keylistUpdate ∧
    requester "keylist-update" msg session_did = .ok did ∧ readUpdates msg = .ok updates ∧
      ∃ update ∈ updates, readUpdate update = (key, "add")

/-- A forward carries an envelope to `next_did`. -/
def Forwards (envelope next_did : String) : Prop :=
  ∃ session_did msg, Arrives c asked session_did msg ∧ forwardNext msg = .ok next_did ∧
    extractInnerForward msg = .ok envelope

/-- An envelope is given to the router for a DID: it is forwarded to it, is a command for it, or
comes from an agent that is bound to it. -/
inductive Addressed : String → String → Prop
  | forwarded {envelope did : String} : Forwards c asked envelope did → Addressed envelope did
  | commanded {msg_id auth_did did envelope : String} :
      .commands msg_id auth_did did envelope ∈ asked → Addressed envelope did
  | applied {session_did msg_id did envelope : String} :
      .receives session_did msg_id envelope ∈ asked → .binds did session_did ∈ asked →
        Addressed envelope did

/-- A key that starts with `next_did` is listed for `did`. -/
def Owns (did next_did : String) : Prop :=
  ∃ key, Lists c asked did key ∧ next_did.toList <+: key.toList

/-- An envelope can be stored under a key. -/
def Stores (envelope key : String) : Prop :=
  Addressed c asked envelope key ∨
    ∃ next_did owner, Forwards c asked envelope next_did ∧ Owns c asked owner next_did ∧
      Lists c asked owner key

/-- An envelope can reach a DID. -/
def Reaches (envelope did : String) : Prop :=
  Addressed c asked envelope did ∨ ∃ key, Lists c asked did key ∧ Stores c asked envelope key

variable {c asked}

/-- What is forwarded reaches the owners of the key. -/
theorem reaches_owner {envelope next_did owner : String} (hforward : Forwards c asked envelope next_did)
    (howns : Owns c asked owner next_did) : Reaches c asked envelope owner := by
  obtain ⟨key, hlists, hprefix⟩ := howns
  exact .inr ⟨key, hlists, .inr ⟨next_did, owner, hforward, ⟨key, hlists, hprefix⟩, hlists⟩⟩

variable (c asked)

/-- What the stores hold has been asked for. -/
structure Sound (m : Mediator) : Prop where
  registered : ∀ did i, m.sessions.sender did = some i → .registers did i ∈ asked
  listed : ∀ did key, key ∈ m.keylist_store.listKeys did → Lists c asked did key
  resolved : ∀ key did, m.keylist_store.resolveSession key = some did → Lists c asked did key
  bound : ∀ agent user, m.agent_binding_store.getUserForAgent agent = some user →
    .binds user agent ∈ asked
  queued : ∀ key, ∀ q ∈ m.message_store.queue key, Stores c asked q.encrypted_envelope key
  sent : ∀ p ∈ m.sent, ∀ envelope ∈ p.2.envelopes,
    ∃ did, .registers did p.1 ∈ asked ∧ Reaches c asked envelope did

variable {c asked}

theorem sound_start (clock : ℤ) (n : ℕ) (age : UInt64) : Sound c asked (.start clock n age) where
  registered _ _ h := by cases h
  listed _ _ h := by cases h
  resolved _ _ h := by cases h
  bound _ _ h := by cases h
  queued _ _ h := by cases h
  sent _ h := by cases h

/-! ### The accesses -/

variable {m : Mediator}

theorem Sound.sendTo (hm : Sound c asked m) {did : String} {out : Outgoing}
    (hout : ∀ envelope ∈ out.envelopes, Reaches c asked envelope did) :
    Sound c asked (m.sendTo did out).2 := by
  rw [Mediator.sendTo]
  split
  · next i hsender =>
    split
    · exact hm
    · refine { hm with sent := fun p hp envelope henvelope => ?_ }
      rcases List.mem_cons.mp hp with rfl | hp
      · exact ⟨did, hm.registered did i hsender, hout envelope henvelope⟩
      · exact hm.sent p hp envelope henvelope
  · exact hm

theorem Sound.storeForUser (hm : Sound c asked m) {key : String} {q : QueuedMessage}
    (hq : Stores c asked q.encrypted_envelope key) : Sound c asked (m.storeForUser key q).2 := by
  rw [Mediator.storeForUser]
  split
  · next s hs =>
    refine { hm with queued := fun key' q' hq' => ?_ }
    -- The queue of the key gets the message at its end, and may lose its first.
    have hold : q' ∈ m.message_store.queue key' ∨ q' = q ∧ key' = key := by
      simp only [InMemoryMessageStore.storeForUser, InMemoryMessageStore.enqueue] at hs
      split at hs
      · exact .inl (Option.some.inj hs ▸ hq')
      · split at hs
        · split at hs
          · cases hs
          · next first rest hqueue =>
            rw [← Option.some.inj hs, InMemoryMessageStore.queue_setQueue] at hq'
            split at hq'
            · next hkey =>
              rcases List.mem_append.mp hq' with hq' | hq'
              · exact .inl (by rw [hkey, hqueue]; exact List.mem_cons_of_mem _ hq')
              · exact .inr ⟨List.mem_singleton.mp hq', hkey⟩
            · exact .inl hq'
        · rw [← Option.some.inj hs, InMemoryMessageStore.queue_setQueue] at hq'
          split at hq'
          · next hkey =>
            rcases List.mem_append.mp hq' with hq' | hq'
            · exact .inl (by rw [hkey]; exact hq')
            · exact .inr ⟨List.mem_singleton.mp hq', hkey⟩
          · exact .inl hq'
    rcases hold with hold | ⟨rfl, rfl⟩
    · exact hm.queued key' q' hold
    · exact hq
  · exact hm

theorem Sound.dequeueBatch (hm : Sound c asked m) (key : String) (limit : ℕ) :
    Sound c asked (m.dequeueBatch key limit).2 := by
  refine { hm with queued := fun key' q hq => ?_ }
  obtain ⟨-, hqueue⟩ := InMemoryMessageStore.dequeueBatch_eq m.clock key limit m.message_store
  rw [show (m.dequeueBatch key limit).2.message_store.queue key' = _ from hqueue key'] at hq
  split at hq
  · next hkey =>
    exact hm.queued key' q (hkey ▸ List.mem_of_mem_filter (List.mem_of_mem_drop hq))
  · exact hm.queued key' q hq

/-- What is taken out of a queue was in it. -/
theorem mem_dequeueBatch {key : String} {limit : ℕ} {q : QueuedMessage}
    (hq : q ∈ (m.dequeueBatch key limit).1) : q ∈ m.message_store.queue key := by
  obtain ⟨hbatch, -⟩ := InMemoryMessageStore.dequeueBatch_eq m.clock key limit m.message_store
  rw [show (m.dequeueBatch key limit).1 = _ from hbatch] at hq
  exact List.mem_of_mem_filter (List.mem_of_mem_take hq)

theorem Sound.addKey (hm : Sound c asked m) {did key : String} (hlists : Lists c asked did key) :
    Sound c asked { m with keylist_store := m.keylist_store.addKey did key } where
  registered := hm.registered
  listed did' key' h := by
    rw [show Mediator.keylist_store _ = _ from rfl, InMemoryKeylistStore.listKeys_addKey] at h
    split at h
    · next hdid =>
      rcases Finset.mem_insert.mp h with rfl | h
      · exact hdid ▸ hlists
      · exact hm.listed did' key' (hdid ▸ h)
    · exact hm.listed did' key' h
  resolved key' did' h := by
    rw [show Mediator.keylist_store _ = m.keylist_store.addKey did key from rfl,
      InMemoryKeylistStore.resolveSession_addKey] at h
    split at h
    · next hkey => exact hkey ▸ Option.some.inj h ▸ hlists
    · exact hm.resolved key' did' h
  bound := hm.bound
  queued := hm.queued
  sent := hm.sent

theorem Sound.removeKey (hm : Sound c asked m) (did key : String) :
    Sound c asked { m with keylist_store := m.keylist_store.removeKey did key } where
  registered := hm.registered
  listed did' key' h := by
    rw [show Mediator.keylist_store _ = m.keylist_store.removeKey did key from rfl,
      InMemoryKeylistStore.listKeys_removeKey] at h
    split at h
    · next hdid => exact hm.listed did' key' (hdid ▸ Finset.mem_of_mem_erase h)
    · exact hm.listed did' key' h
  resolved key' did' h := by
    rw [show Mediator.keylist_store _ = m.keylist_store.removeKey did key from rfl,
      InMemoryKeylistStore.resolveSession_removeKey] at h
    split at h
    · cases h
    · exact hm.resolved key' did' h
  bound := hm.bound
  queued := hm.queued
  sent := hm.sent

/-! ### The handlers -/

theorem keeps_orFail {β : Type} {x : Except RouterError β} {k : β → Task}
    (hk : ∀ b, x = .ok b → Keeps (Sound c asked) (k b)) : Keeps (Sound c asked) (orFail x k) := by
  cases x with
  | ok b => exact hk b rfl
  | error e => trivial

/-- An answer that is no batch can go to anyone. -/
theorem keeps_answerTo {did : String} {a : Answer}
    (ha : ∀ envelope ∈ (Outgoing.answer a).envelopes, Reaches c asked envelope did) :
    Keeps (Sound c asked) (answerTo did a) := by
  refine keeps_read fun m _ => ?_
  split
  · exact keeps_call (fun _ hm => hm.sendTo ha) fun _ _ => keeps_answer _
  · exact keeps_answer _

theorem keeps_storeAll {q : QueuedMessage} {k : Task} {keys : List String}
    (hkeys : ∀ key ∈ keys, Stores c asked q.encrypted_envelope key) (hk : Keeps (Sound c asked) k) :
    Keeps (Sound c asked) (storeAll q k keys) := by
  induction keys with
  | nil => exact hk
  | cons key keys ih =>
    obtain ⟨hkey, hkeys⟩ := List.forall_mem_cons.mp hkeys
    exact keeps_call (fun _ hm => hm.storeForUser hkey) fun _ _ => keeps_check fun _ => ih hkeys

theorem keeps_notify (did msg_id : String) : Keeps (Sound c asked) (notify did msg_id) := by
  refine keeps_read fun m _ => ?_
  split
  · exact keeps_modify (fun _ hm => { hm with }) (keeps_answer _)
  · exact keeps_answer _

/-- What is queued for a DID is also sent to it. -/
theorem keeps_queueFor {did : String} {keys : List String} {q : QueuedMessage}
    (hdid : Addressed c asked q.encrypted_envelope did)
    (hkeys : ∀ key ∈ keys, Stores c asked q.encrypted_envelope key) :
    Keeps (Sound c asked) (queueFor did keys q) := by
  have hout : ∀ envelope ∈ (Outgoing.envelope q.encrypted_envelope).envelopes,
      Reaches c asked envelope did := by
    intro envelope henvelope
    rw [List.mem_singleton.mp henvelope]
    exact .inl hdid
  refine keeps_read fun m _ => ?_
  split
  · refine keeps_read fun m _ => ?_
    split
    · exact keeps_call (fun _ hm => hm.sendTo hout) fun _ _ =>
        keeps_storeAll hkeys (keeps_answer _)
    · exact keeps_storeAll hkeys (keeps_answer _)
  · exact keeps_storeAll hkeys (keeps_notify _ _)

theorem keeps_resolveOwner (order : VisitOrder) {next_did : String} {k : Option String → Task}
    (hk : ∀ owner, (∀ did, owner = some did → Owns c asked did next_did) →
      Keeps (Sound c asked) (k owner)) :
    Keeps (Sound c asked) (resolveOwner order next_did k) := by
  refine keeps_read fun m hm => ?_
  split
  · next session hsession =>
    refine hk _ fun did hdid => ?_
    obtain rfl := Option.some.inj hdid
    exact ⟨next_did, hm.resolved next_did session hsession, List.prefix_rfl⟩
  · refine keeps_read fun m hm => hk _ fun did hdid => ?_
    obtain ⟨p, hfind, rfl⟩ := Option.map_eq_some_iff.mp hdid
    have hprefix := List.find?_some hfind
    have hlookup := (order.mem_visitMap _ p).mp (List.mem_of_find?_eq_some hfind)
    exact ⟨p.1, hm.resolved p.1 p.2 hlookup, List.isPrefixOf_iff_prefix.mp hprefix⟩

theorem keeps_deliverOnline {owner : Option String} {inner_msg : String} {k : Task}
    (howner : ∀ did, owner = some did → Reaches c asked inner_msg did)
    (hk : Keeps (Sound c asked) k) : Keeps (Sound c asked) (deliverOnline owner inner_msg k) := by
  rcases owner with _ | did
  · exact hk
  · rw [deliverOnline]
    refine keeps_read fun m _ => ?_
    split
    · exact hk
    · refine keeps_call (fun _ hm => hm.sendTo fun envelope henvelope => ?_) fun _ _ => ?_
      · rw [List.mem_singleton.mp henvelope]
        exact howner did rfl
      · split
        · exact keeps_answer _
        · exact hk

theorem keeps_handleForward (order : VisitOrder) {session_did : Option String} {msg_id : String}
    {msg : Message} (harrives : Arrives c asked session_did msg) :
    Keeps (Sound c asked) (handleForward order msg_id msg) := by
  refine keeps_orFail fun next_did hnext => keeps_orFail fun inner_msg hinner => ?_
  have hforward : Forwards c asked inner_msg next_did := ⟨session_did, msg, harrives, hnext, hinner⟩
  refine keeps_check fun _ => keeps_resolveOwner order fun owner howner => ?_
  have hqueue : Keeps (Sound c asked) (storageKeys order owner next_did fun keys =>
      read Mediator.clock fun queued_at =>
        queueFor next_did keys ⟨msg_id, msg.sender.getD "unknown", next_did, inner_msg, queued_at⟩) := by
    rcases owner with _ | did
    · refine keeps_read fun _ _ => keeps_queueFor (.forwarded hforward) fun key hkey => ?_
      obtain rfl := List.mem_singleton.mp hkey
      exact .inl (.forwarded hforward)
    · refine keeps_read fun m hm => keeps_read fun _ _ =>
        keeps_queueFor (.forwarded hforward) fun key hkey => ?_
      exact .inr ⟨next_did, did, hforward, howner did rfl,
        hm.listed did key ((order.mem_visit _ key).mp hkey)⟩
  exact keeps_deliverOnline (fun did hdid => reaches_owner hforward (howner did hdid)) hqueue

theorem keeps_countAll {k : ℕ → Task} (hk : ∀ n, Keeps (Sound c asked) (k n)) (keys : List String)
    (n : ℕ) : Keeps (Sound c asked) (countAll k keys n) := by
  induction keys generalizing n with
  | nil => exact hk n
  | cons key keys ih => exact keeps_read fun _ _ => ih _

theorem keeps_handleStatusRequest (order : VisitOrder) (msg : Message) (session_did : Option String) :
    Keeps (Sound c asked) (handleStatusRequest order msg session_did) := by
  refine keeps_orFail fun sender _ => keeps_read fun _ _ => keeps_countAll (fun n => ?_) _ _
  refine keeps_answerTo fun envelope henvelope => ?_
  rw [Outgoing.envelopes_answer (show status ≠ batch by decide)] at henvelope
  cases henvelope

/-- What is collected for a pickup was stored under the keys. -/
theorem keeps_dequeueAll {limit : ℕ} {k : List QueuedMessage → Task} {did : String}
    (hk : ∀ msgs : List QueuedMessage, (∀ q ∈ msgs, Reaches c asked q.encrypted_envelope did) →
      Keeps (Sound c asked) (k msgs)) {keys : List String} (hkeys : ∀ key ∈ keys, Lists c asked did key)
    {msgs : List QueuedMessage} (hmsgs : ∀ q ∈ msgs, Reaches c asked q.encrypted_envelope did) :
    Keeps (Sound c asked) (dequeueAll limit k keys msgs) := by
  induction keys generalizing msgs with
  | nil => exact hk msgs hmsgs
  | cons key keys ih =>
    obtain ⟨hkey, hkeys⟩ := List.forall_mem_cons.mp hkeys
    refine keeps_call (fun _ hm => hm.dequeueBatch key limit) fun m hm => ih hkeys fun q hq => ?_
    rcases List.mem_append.mp hq with hq | hq
    · exact hmsgs q hq
    · exact .inr ⟨key, hkey, hm.queued key q (mem_dequeueBatch hq)⟩

theorem keeps_handleBatchPickup (order : VisitOrder) (msg : Message) (session_did : Option String) :
    Keeps (Sound c asked) (handleBatchPickup order msg session_did) := by
  refine keeps_orFail fun sender _ => keeps_read fun m hm => ?_
  refine keeps_dequeueAll (fun msgs hmsgs => keeps_answerTo fun envelope he => ?_)
    (fun key hkey => hm.listed sender key ((order.mem_visit _ key).mp hkey)) (by simp)
  rw [Outgoing.envelopes_batch rfl, readBatch_batchBody] at he
  obtain ⟨q, hq, rfl⟩ := List.mem_map.mp he
  exact hmsgs q hq

theorem keeps_handleMediateRequest (msg : Message) (session_did : Option String) :
    Keeps (Sound c asked) (handleMediateRequest msg session_did) := by
  refine keeps_orFail fun sender _ => ?_
  have hout : ∀ (did : String), ∀ envelope ∈ (Outgoing.answer {
      typ := mediateGrant
      sender := none
      recipient := sender
      thid := msg.id
      body := .object [("mediator_did", .string "didcomm-router")] }).envelopes,
      Reaches c asked envelope did := by
    intro did envelope henvelope
    rw [Outgoing.envelopes_answer (show mediateGrant ≠ batch by decide)] at henvelope
    cases henvelope
  rcases session_did with _ | session
  · exact keeps_call (fun _ hm => hm.sendTo (hout sender)) fun _ _ => keeps_answer _
  · refine keeps_read fun _ _ => ?_
    split
    · exact keeps_call (fun _ hm => hm.sendTo (hout session)) fun _ _ => keeps_answer _
    · exact keeps_call (fun _ hm => hm.sendTo (hout sender)) fun _ _ => keeps_answer _

theorem keeps_updateAll {sender : String} {k : List Json → Task}
    (hk : ∀ results, Keeps (Sound c asked) (k results)) {updates : List Json}
    (hupdates : ∀ update ∈ updates, ∀ key, readUpdate update = (key, "add") →
      Lists c asked sender key) (results : List Json) :
    Keeps (Sound c asked) (updateAll sender k updates results) := by
  induction updates generalizing results with
  | nil => exact hk results
  | cons update updates ih =>
    obtain ⟨hupdate, hupdates⟩ := List.forall_mem_cons.mp hupdates
    rw [updateAll]
    rcases hread : readUpdate update with ⟨key, action⟩
    dsimp only
    split
    · next haction =>
      subst haction
      exact keeps_modify (fun _ hm => hm.addKey (hupdate key hread)) (ih hupdates _)
    · split
      · exact keeps_modify (fun _ hm => hm.removeKey sender key) (ih hupdates _)
      · exact ih hupdates _

theorem keeps_handleKeylistUpdate {session_did : Option String} {msg : Message}
    (harrives : Arrives c asked session_did msg) (htyp : msg.typ = keylistUpdate) :
    Keeps (Sound c asked) (handleKeylistUpdate msg session_did) := by
  refine keeps_orFail fun sender hsender => keeps_orFail fun updates hupdates => ?_
  refine keeps_updateAll (fun results => keeps_answerTo fun envelope henvelope => ?_)
    (fun update hmem key hread => ?_) _
  · rw [Outgoing.envelopes_answer (show keylistUpdateResponse ≠ batch by decide)] at henvelope
    cases henvelope
  · exact ⟨session_did, msg, updates, harrives, htyp, hsender, hupdates, update, hmem, hread⟩

theorem keeps_handleTyped {session_did : Option String} {msg_id : String} {msg : Message}
    (harrives : Arrives c asked session_did msg) :
    Keeps (Sound c asked) (handleTyped c msg_id session_did msg) := by
  rw [handleTyped]
  split
  · exact keeps_handleMediateRequest msg session_did
  · split
    · next htyp => exact keeps_handleKeylistUpdate harrives htyp
    · split
      · exact keeps_handleForward c.order harrives
      · split
        · exact keeps_handleStatusRequest c.order msg session_did
        · split
          · exact keeps_handleBatchPickup c.order msg session_did
          · exact keeps_answer _

theorem keeps_dispatch {session_did : Option String} {msg_id text : String}
    (harrives : ∀ msg, c.parseMessage text = .ok msg → Arrives c asked session_did msg) :
    Keeps (Sound c asked) (dispatch c msg_id session_did text) := by
  refine keeps_orFail fun msg hmsg => ?_
  have harrives : Arrives c asked session_did msg := by
    rcases hparse : c.parseMessage text with e | msg'
    · rw [hparse] at hmsg
      cases hmsg
    · rw [hparse] at hmsg
      obtain rfl := Except.ok.inj hmsg
      exact harrives _ hparse
  refine keeps_read fun _ _ => keeps_orFail fun _ _ => keeps_read fun _ _ => keeps_read fun _ _ => ?_
  have hrest : ∀ now, Keeps (Sound c asked) (read Mediator.seen_message_ids fun seen =>
      orFail (checkSeen now seen msg.id) fun () =>
      modify (fun m => { m with seen_message_ids := markSeen now msg.id m.seen_message_ids })
        (handleTyped c msg_id session_did msg)) := by
    intro now
    refine keeps_read fun _ _ => keeps_orFail fun _ _ => ?_
    exact keeps_modify (fun _ hm => { hm with }) (keeps_handleTyped harrives)
  split
  · exact keeps_modify (fun _ hm => { hm with }) (hrest _)
  · exact hrest _

theorem keeps_receive {session_did msg_id text : String}
    (hasked : .receives session_did msg_id text ∈ asked) :
    Keeps (Sound c asked) (receive c msg_id session_did text) := by
  refine keeps_bind (keeps_dispatch fun msg hmsg => .received hasked hmsg) fun reply => ?_
  split
  · refine keeps_read fun m hm => ?_
    split
    · exact keeps_answer _
    · next user huser =>
      have happlied : Addressed c asked text user := .applied hasked (hm.bound session_did user huser)
      refine keeps_read fun _ _ => keeps_queueFor happlied fun key hkey => ?_
      obtain rfl := List.mem_singleton.mp hkey
      exact .inl happlied
  · exact keeps_answer _

theorem keeps_submitCommand {msg_id auth_did agent_id jwe_envelope : String}
    (hasked : .commands msg_id auth_did agent_id jwe_envelope ∈ asked) :
    Keeps (Sound c asked) (submitCommand msg_id auth_did agent_id jwe_envelope) := by
  refine keeps_read fun _ _ => ?_
  split
  · refine keeps_call (fun _ hm => hm.sendTo fun envelope henvelope => ?_) fun _ _ => keeps_answer _
    rw [List.mem_singleton.mp henvelope]
    exact .inl (.commanded hasked)
  · refine keeps_read fun _ _ => keeps_storeAll (fun key hkey => ?_) (keeps_answer _)
    obtain rfl := List.mem_singleton.mp hkey
    exact .inl (.commanded hasked)

/-- Every access of every request keeps the stores sound. -/
theorem keeps_handler {r : Request} (hasked : r ∈ asked) : Keeps (Sound c asked) (r.handler c) := by
  cases r with
  | registers did i =>
    refine keeps_modify (fun m hm => { hm with registered := fun did' i' h => ?_ }) (keeps_answer _)
    rw [show Mediator.sessions _ = m.sessions.register did i from rfl,
      SessionManager.sender_register] at h
    split at h
    · next hdid => exact hdid ▸ Option.some.inj h ▸ hasked
    · exact hm.registered did' i' h
  | unregisters did =>
    refine keeps_modify (fun m hm => { hm with registered := fun did' i' h => ?_ }) (keeps_answer _)
    rw [show Mediator.sessions _ = m.sessions.unregister did from rfl,
      SessionManager.sender_unregister] at h
    split at h
    · cases h
    · exact hm.registered did' i' h
  | drops i => exact keeps_modify (fun _ hm => { hm with }) (keeps_answer _)
  | receives session_did msg_id text => exact keeps_receive hasked
  | posts msg_id text => exact keeps_dispatch fun msg hmsg => .posted hasked hmsg
  | commands msg_id auth_did agent_id jwe_envelope => exact keeps_submitCommand hasked
  | binds auth_did agent_did =>
    refine keeps_modify (fun m hm => { hm with bound := fun agent user h => ?_ }) (keeps_answer _)
    rw [InMemoryAgentBindingStore.getUserForAgent,
      show InMemoryAgentBindingStore.agent_to_user _ =
        m.agent_binding_store.agent_to_user.insert agent_did auth_did from rfl,
      Store.lookup_insert_eq] at h
    split at h
    · next hagent => exact hagent ▸ Option.some.inj h ▸ hasked
    · exact hm.bound agent user h
  | tokens auth_did fcm_token push_channel =>
    refine keeps_modify (fun _ hm => { hm with }) ?_
    split
    · exact keeps_modify (fun _ hm => { hm with }) (keeps_answer _)
    · exact keeps_answer _
  | ticks clock => exact keeps_modify (fun _ hm => { hm with }) (keeps_answer _)

end

/-- However requests come in between each other, an envelope goes only to a connection of a DID that
it is addressed to, or that has listed a key under which it is stored. -/
theorem sent_only_to_recipients (c : Settings) (requests : ℕ → Request) {clock : ℤ} {max_queued : ℕ}
    {age : UInt64} {h : List (System Mediator Task × ℕ)} {s : System Mediator Task}
    (hrun : Run (System.turn next)
      ⟨.start clock max_queued age, fun j => (requests j).handler c⟩ h s) :
    ∀ p ∈ s.shared.sent, ∀ envelope ∈ p.2.envelopes, ∃ did,
      .registers did p.1 ∈ Set.range requests ∧ Reaches c (Set.range requests) envelope did :=
  (invariant_of_keeps (P := Sound c (Set.range requests)) (sound_start clock max_queued age)
    (fun j => keeps_handler (Set.mem_range_self j)) hrun).sent

namespace Mailroom

/-- The phone lists its key. -/
def listing : Message where
  id := "1"
  typ := keylistUpdate
  sender := some "phone"
  body := .object [("updates", .array [.object [("recipient_key", .string "phone#key-1")]])]
  created_time := none
  expires_time := none
  attachments := none
  extra := []

/-- An agent forwards to the phone; the keylist has the DID with a fragment. -/
def forwarding : Message where
  id := "2"
  typ := forward
  sender := some "agent"
  body := .object [("next", .string "phone")]
  created_time := none
  expires_time := none
  attachments := some [⟨none, some "jwe"⟩]
  extra := []

def settings : Settings where
  order := { SetOrder.sorted with
    visitMap := fun s => s.entries.map fun e => (e.1, e.2)
    mem_visitMap := fun s p => by
      rw [← Option.mem_def, AList.mem_lookup_iff, List.mem_map]
      constructor
      · rintro ⟨e, he, rfl⟩
        exact he
      · intro hp
        exact ⟨⟨p.1, p.2⟩, hp, rfl⟩ }
  overflowChecks := false
  max_age := 86400
  parseMessage text := .ok (if text = "listing" then listing else forwarding)
  isJwe _ := false

def requests : ℕ → Request
  | 0 => .registers "phone" 7
  | 1 => .posts "u1" "listing"
  | _ => .posts "u2" "forwarding"

def start : System Mediator Task := ⟨.start 0 10 86400, fun j => (requests j).handler settings⟩

/-- The listing and the forward in turns, up to where the forward looks for its owner. -/
def turns : List ℕ := [0, 1, 2, 1, 2, 1, 2, 1, 2, 1, 2, 1, 2, 1, 2, 2, 2, 1]

def delivers (i : ℕ) (text : String) (r : List (System Mediator Task × ℕ) × System Mediator Task) :
    Bool :=
  r.2.shared.sent.any fun p => p.1 = i && p.2.envelopes.any (· = text)

theorem delivers_turns :
    (Run.record (System.turn next) turns [] start).toOption.any (delivers 7 "jwe") = true := by
  decide +kernel

end Mailroom

/-- The forward finds the key that is listed in the meantime. -/
theorem sent_only_to_recipients_mailroom : ∃ h s, Run (System.turn next) Mailroom.start h s ∧
    ∃ p ∈ s.shared.sent, "jwe" ∈ p.2.envelopes ∧ p.1 = 7 ∧ ∃ did,
      .registers did p.1 ∈ Set.range Mailroom.requests ∧
        Reaches Mailroom.settings (Set.range Mailroom.requests) "jwe" did := by
  obtain ⟨h, s, hrun, htest⟩ := Run.exists_of_record Mailroom.delivers_turns
  obtain ⟨p, hp, htest⟩ := List.any_eq_true.mp htest
  simp only [Bool.and_eq_true, decide_eq_true_eq, List.any_eq_true] at htest
  obtain ⟨hi, text, htext, rfl⟩ := htest
  exact ⟨h, s, hrun, p, hp, htext, hi,
    sent_only_to_recipients Mailroom.settings Mailroom.requests hrun p hp _ htext⟩

end Router
