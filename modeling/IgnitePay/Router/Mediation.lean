/-
What the router does with a message (`protocols/`, `transport/ws.rs`, `transport/http.rs`).

A peer asks for mediation, lists keys, has messages forwarded to the owner of a key, asks how many
wait and picks them up.  A forwarded message goes straight to the owner, if it is connected, and is
otherwise stored under every key that the owner has listed.  Who a message comes from is what it
says in `from`; the DID of the connection is only used where it says nothing.

The handlers run at the same time: each is a `Handler` over the stores, and another may come in
between any two accesses.  Texts that are put into the channel of a connection are recorded in
`sent`.  The stores are the ones in memory.

* `routeMessage`, `receive`, `submitCommand` — the entries over WebSocket and HTTP;
* `handleForward`, `handleStatusRequest`, `handleBatchPickup`, `handleMediateRequest`,
  `handleKeylistUpdate`, `routeApplicationMessage` — the handlers;
* `Request` — everything that the router is asked to do, as one type.
-/
import IgnitePay.Lib.Handlers
import IgnitePay.Lib.Text
import IgnitePay.Router.Dispatch
import IgnitePay.Router.KeylistAgreement
import IgnitePay.Router.MessageStores
import IgnitePay.Router.Presence

namespace Router

open Machine

/-! ### The state -/

/-- `InMemoryDeviceTokenStore`. -/
structure InMemoryDeviceTokenStore where
  /-- user_did -> fcm_device_token -/
  tokens : Store.Map String String
  /-- user_did -> push_channel -/
  push_channels : Store.Map String String

namespace InMemoryDeviceTokenStore

instance : EmptyCollection InMemoryDeviceTokenStore := ⟨⟨∅, ∅⟩⟩

def registerDeviceToken (user_did fcm_token : String) (d : InMemoryDeviceTokenStore) :
    InMemoryDeviceTokenStore := { d with tokens := d.tokens.insert user_did fcm_token }

def getDeviceToken (d : InMemoryDeviceTokenStore) (user_did : String) : Option String :=
  d.tokens.lookup user_did

def setPushChannel (user_did channel : String) (d : InMemoryDeviceTokenStore) :
    InMemoryDeviceTokenStore := { d with push_channels := d.push_channels.insert user_did channel }

def getPushChannel (d : InMemoryDeviceTokenStore) (user_did : String) : String :=
  (d.push_channels.lookup user_did).getD "fcm"

end InMemoryDeviceTokenStore

/-- An order in which the maps and sets of the stores are visited. -/
structure VisitOrder extends SetOrder where
  visitMap : Store.Map String String → List (String × String)
  mem_visitMap : ∀ s p, p ∈ visitMap s ↔ s.lookup p.1 = some p.2

/-- `KeylistStore::resolve_session_prefix`: the first key that starts so. -/
def InMemoryKeylistStore.resolveSessionPrefix (order : VisitOrder) (k : InMemoryKeylistStore)
    (recipientDidPrefix : String) : Option String :=
  ((order.visitMap k.reverse).find? fun p =>
    recipientDidPrefix.toList.isPrefixOf p.1.toList).map Prod.snd

/-- A message of the router itself; its `id` is random. -/
structure Answer where
  typ : String
  sender : Option String
  recipient : String
  thid : String
  body : Json

/-- A text that is put into the channel of a connection. -/
inductive Outgoing
  | envelope (text : String)
  | answer (a : Answer)

/-- `RouterState`, the clock in nanoseconds since 1970, and what has left the router. -/
structure Mediator where
  clock : ℤ
  sessions : SessionManager
  /-- The connections whose sending task is gone. -/
  dropped : Finset ℕ
  keylist_store : InMemoryKeylistStore
  message_store : InMemoryMessageStore
  agent_binding_store : InMemoryAgentBindingStore
  device_token_store : InMemoryDeviceTokenStore
  seen_message_ids : SeenIds
  /-- What went to which connection, the latest first. -/
  sent : List (ℕ × Outgoing)
  /-- The device tokens and message ids of the push notifications, the latest first. -/
  signals : List (String × String)

namespace Mediator

def start (clock : ℤ) (max_queued : ℕ) (max_message_age_secs : UInt64) : Mediator where
  clock
  sessions := ∅
  dropped := ∅
  keylist_store := ∅
  message_store := .withMaxAge max_queued max_message_age_secs
  agent_binding_store := ∅
  device_token_store := ∅
  seen_message_ids := ∅
  sent := []
  signals := []

/-- `Utc::now().timestamp()`. -/
def seconds (m : Mediator) : ℕ := (m.clock / 1000000000).toNat

def isOnline (did : String) (m : Mediator) : Bool := m.sessions.isOnline did

/-- The connection that a text for the DID goes to. -/
def reached (m : Mediator) (did : String) : Option ℕ :=
  match m.sessions.sender did with
  | some i => if i ∈ m.dropped then none else some i
  | none => none

/-- `SessionManager::send_to`. -/
def sendTo (did : String) (out : Outgoing) (m : Mediator) : Except RouterError Unit × Mediator :=
  match m.sessions.sender did with
  | some i =>
    if i ∈ m.dropped then (.error (.sessionNotFound "channel closed"), m)
    else (.ok (), { m with sent := (i, out) :: m.sent })
  | none => (.error (.sessionNotFound did), m)

/-- Whether the message could be stored; in memory it can unless the bound is 0. -/
def storeForUser (key : String) (queued : QueuedMessage) (m : Mediator) : Bool × Mediator :=
  match m.message_store.storeForUser m.clock key queued with
  | some s => (true, { m with message_store := s })
  | none => (false, m)

def dequeueBatch (key : String) (limit : ℕ) (m : Mediator) : List QueuedMessage × Mediator :=
  let r := m.message_store.dequeueBatch m.clock key limit
  (r.1, { m with message_store := r.2 })

def sendSignal (device_token msg_id : String) (m : Mediator) : Mediator :=
  { m with signals := (device_token, msg_id) :: m.signals }

end Mediator

abbrev Reply := Except RouterError Unit

abbrev Task := Handler Mediator Reply

open Handler

/-- `?` on a result. -/
def orFail {β : Type} (x : Except RouterError β) (k : β → Task) : Task :=
  match x with
  | .ok b => k b
  | .error e => .answer (.error e)

/-! ### Forwards -/

/-- `value_to_raw_string`. -/
def valueToRawString : Json → String
  | .string s => s
  | other => String.ofList other.compact

/-- Extract the inner message from the attachments, structured or not. -/
def extractInnerForward (msg : Message) : Except RouterError String :=
  let structured := (msg.attachments.bind List.head?).bind fun first =>
    (first.json.map valueToRawString).or first.base64
  let extra := do
    let attachments ← msg.extra.lookup "attachments"
    let first ← (← attachments.asArray).head?
    pure (valueToRawString (← (← first.get "data").get "json"))
  orErr (structured.or extra) (.protocol "Forward message has no inner message in attachments")

def forwardNext (msg : Message) : Except RouterError String :=
  orErr ((msg.body.get "next").bind Json.asString) (.protocol "Forward message missing 'next' in body")

/-- The preview in the log is cut off after 200 bytes, which panics inside a character. -/
def Previewable (inner_msg : String) : Prop :=
  200 < inner_msg.utf8ByteSize → Text.isCharBoundary inner_msg 200 = true

instance (inner_msg : String) : Decidable (Previewable inner_msg) :=
  inferInstanceAs (Decidable (_ → _))

section

variable (order : VisitOrder)

/-- Exact match first, then prefix match. -/
def resolveOwner (next_did : String) (k : Option String → Task) : Task :=
  read (fun m => m.keylist_store.resolveSession next_did) fun
    | some session => k (some session)
    | none => read (fun m => m.keylist_store.resolveSessionPrefix order next_did) k

/-- Deliver online to the owner, and go on where this cannot be done. -/
def deliverOnline (owner_session : Option String) (inner_msg : String) (k : Task) : Task :=
  match owner_session with
  | none => k
  | some owner_did => read (Mediator.isOnline owner_did) fun
    | false => k
    | true => call (Mediator.sendTo owner_did (.envelope inner_msg)) fun
      | .ok () => .answer (.ok ())
      | .error _ => k

/-- The keys that a message is stored under. -/
def storageKeys (owner_session : Option String) (next_did : String) (k : List String → Task) : Task :=
  match owner_session with
  | some owner => read (fun m => m.keylist_store.listKeys owner) fun keys => k (order.visit keys)
  | none => k [next_did]

def storeAll (queued : QueuedMessage) (k : Task) : List String → Task
  | [] => k
  | key :: keys => call (Mediator.storeForUser key queued) fun stored =>
    check (stored = true) (.error .panicked) (storeAll queued k keys)

/-- Send a push notification, if a device token is registered. -/
def notify (did msg_id : String) : Task :=
  read (fun m => m.device_token_store.getDeviceToken did) fun
    | some device_token => modify (Mediator.sendSignal device_token msg_id) (.answer (.ok ()))
    | none => .answer (.ok ())

/-- Queue a message for a recipient under some keys, as its push channel wants it: over WebSocket
it is sent at once as well. -/
def queueFor (did : String) (keys : List String) (queued : QueuedMessage) : Task :=
  read (fun m => m.device_token_store.getPushChannel did) fun channel =>
    if channel = "websocket" then
      read (Mediator.isOnline did) fun
        | true => call (Mediator.sendTo did (.envelope queued.encrypted_envelope)) fun _ =>
          storeAll queued (.answer (.ok ())) keys
        | false => storeAll queued (.answer (.ok ())) keys
    else storeAll queued (notify did queued.id) keys

def handleForward (msg_id : String) (msg : Message) : Task :=
  orFail (forwardNext msg) fun next_did =>
  orFail (extractInnerForward msg) fun inner_msg =>
  check (Previewable inner_msg) (.error .panicked) <|
  resolveOwner order next_did fun owner_session =>
  deliverOnline owner_session inner_msg <|
  storageKeys order owner_session next_did fun keys =>
  read Mediator.clock fun queued_at =>
  queueFor next_did keys ⟨msg_id, msg.sender.getD "unknown", next_did, inner_msg, queued_at⟩

/-! ### Pickup -/

/-- Who a message is from. -/
def requester (what : String) (msg : Message) (session_did : Option String) :
    Except RouterError String :=
  orErr (msg.sender.or session_did) (.unauthorized (what ++ " requires a 'from' field"))

def mediateRequest : String := "https://didcomm.org/coordinate-mediation/2.0/mediate-request"
def mediateGrant : String := "https://didcomm.org/coordinate-mediation/2.0/mediate-grant"
def keylistUpdate : String := "https://didcomm.org/coordinate-mediation/2.0/keylist-update"
def keylistUpdateResponse : String :=
  "https://didcomm.org/coordinate-mediation/2.0/keylist-update-response"
def forward : String := "https://didcomm.org/routing/2.0/forward"
def statusRequest : String := "https://didcomm.org/messagepickup/3.0/status-request"
def status : String := "https://didcomm.org/messagepickup/3.0/status"
def batchPickup : String := "https://didcomm.org/messagepickup/3.0/batch-pickup"
def batch : String := "https://didcomm.org/messagepickup/3.0/batch"
def liveDeliveryRequest : String := "https://didcomm.org/messagepickup/3.0/live-delivery-request"

/-- Send an answer to a DID that is connected, and pass it over in silence if it is not. -/
def answerTo (did : String) (a : Answer) : Task :=
  read (Mediator.isOnline did) fun
    | true => call (Mediator.sendTo did (.answer a)) .answer
    | false => .answer (.ok ())

def countAll (k : ℕ → Task) : List String → ℕ → Task
  | [], total_count => k total_count
  | key :: keys, total_count => read (fun m => m.message_store.count key) fun n =>
    countAll k keys (total_count + n)

def handleStatusRequest (msg : Message) (session_did : Option String) : Task :=
  orFail (requester "status-request" msg session_did) fun sender =>
  read (fun m => m.keylist_store.listKeys sender) fun keys =>
  countAll (fun total_count => answerTo sender {
      typ := status
      sender := some "didcomm-router"
      recipient := sender
      thid := msg.id
      body := .object [("message_count", .integer total_count), ("duration", .string "PT0S"),
        ("live_delivery", .bool (msg.typ = liveDeliveryRequest))] })
    (order.visit keys) 0

/-- How many messages are asked for; a queue cannot be longer than the largest `usize`. -/
def pickupLimit (msg : Message) : ℕ := ((msg.body.get "count").bind Json.asU64).getD 10

def dequeueAll (limit : ℕ) (k : List QueuedMessage → Task) : List String → List QueuedMessage → Task
  | [], all_messages => k all_messages
  | key :: keys, all_messages => call (Mediator.dequeueBatch key limit) fun msgs =>
    dequeueAll limit k keys (all_messages ++ msgs)

/-- The envelopes, as they stand in the body of a batch. -/
def batchBody (envelopes : List String) : Json :=
  .object [("messages", .array (envelopes.map fun e => .object [("message", .string e)]))]

def handleBatchPickup (msg : Message) (session_did : Option String) : Task :=
  orFail (requester "batch-pickup" msg session_did) fun sender =>
  read (fun m => m.keylist_store.listKeys sender) fun keys =>
  dequeueAll (pickupLimit msg) (fun all_messages => answerTo sender {
      typ := batch
      sender := some "didcomm-router"
      recipient := sender
      thid := msg.id
      body := batchBody (all_messages.map QueuedMessage.encrypted_envelope) })
    (order.visit keys) []

end

/-! ### Mediation -/

def handleMediateRequest (msg : Message) (session_did : Option String) : Task :=
  orFail (requester "mediate-request" msg session_did) fun sender =>
  let grant : Answer := {
    typ := mediateGrant
    sender := none
    recipient := sender
    thid := msg.id
    body := .object [("mediator_did", .string "didcomm-router")] }
  let fallback : Task := call (Mediator.sendTo sender (.answer grant)) fun _ => .answer (.ok ())
  match session_did with
  | some session => read (Mediator.isOnline session) fun
    | true => call (Mediator.sendTo session (.answer grant)) .answer
    | false => fallback
  | none => fallback

/-- The key and the action of an entry. -/
def readUpdate (update : Json) : String × String :=
  (((update.get "recipient_key").bind Json.asString).getD "",
    ((update.get "action").bind Json.asString).getD "add")

def updateAll (sender : String) (k : List Json → Task) : List Json → List Json → Task
  | [], results => k results
  | update :: updates, results =>
    let (recipient_key, action) := readUpdate update
    let result : Json := .object [("recipient_key", .string recipient_key),
      ("action", .string action), ("result", .string "success")]
    if action = "add" then
      modify (fun m => { m with keylist_store := m.keylist_store.addKey sender recipient_key })
        (updateAll sender k updates (results ++ [result]))
    else if action = "remove" then
      modify (fun m => { m with keylist_store := m.keylist_store.removeKey sender recipient_key })
        (updateAll sender k updates (results ++ [result]))
    else
      updateAll sender k updates (results ++ [.object [("recipient_key", .string recipient_key),
        ("action", .string action), ("result", .string "client_error"),
        ("error", .string ("Unknown action: " ++ action))]])

def readUpdates (msg : Message) : Except RouterError (List Json) :=
  orErr ((msg.body.get "updates").bind Json.asArray) (.protocol "Missing 'updates' array in body")

def handleKeylistUpdate (msg : Message) (session_did : Option String) : Task :=
  orFail (requester "keylist-update" msg session_did) fun sender =>
  orFail (readUpdates msg) fun updates =>
  updateAll sender (fun results => answerTo sender {
      typ := keylistUpdateResponse
      sender := none
      recipient := sender
      thid := msg.id
      body := .object [("updated", .array results)] })
    updates []

/-! ### Entries -/

/-- What is fixed when the router starts. -/
structure Settings where
  order : VisitOrder
  overflowChecks : Bool
  max_age : UInt64
  /-- `serde_json::from_str`, into a message. -/
  parseMessage : String → Except String Message
  /-- Whether a text is an object with ciphertext and recipients. -/
  isJwe : String → Bool

variable (c : Settings)

/-- The entries that have expired are dropped from time to time. -/
def prune (now : ℕ) (k : Task) : Task :=
  read (fun m => isFull m.seen_message_ids) fun
    | true => modify (fun m => { m with seen_message_ids := dropExpired now m.seen_message_ids }) k
    | false => k

/-- The handler of a type. -/
def handleTyped (msg_id : String) (session_did : Option String) (msg : Message) : Task :=
  if msg.typ = mediateRequest then handleMediateRequest msg session_did
  else if msg.typ = keylistUpdate then handleKeylistUpdate msg session_did
  else if msg.typ = forward then handleForward c.order msg_id msg
  else if msg.typ = statusRequest ∨ msg.typ = liveDeliveryRequest then
    handleStatusRequest c.order msg session_did
  else if msg.typ = batchPickup then handleBatchPickup c.order msg session_did
  else .answer (.error (.protocol ("Unknown message type: " ++ msg.typ)))

/-- Route a message to its handler, after the checks of its times and of its id. -/
def routeMessage (msg_id : String) (session_did : Option String) (msg : Message) : Task :=
  read Mediator.seconds fun now_secs =>
  orFail (checkTimes c.overflowChecks c.max_age now_secs msg) fun () =>
  read Mediator.seconds fun now =>
  prune now <|
  read Mediator.seen_message_ids fun seen =>
  orFail (checkSeen now seen msg.id) fun () =>
  modify (fun m => { m with seen_message_ids := markSeen now msg.id m.seen_message_ids }) <|
  handleTyped c msg_id session_did msg

/-- `dispatch`; `msg_id` is the id that a queued message gets. -/
def dispatch (msg_id : String) (session_did : Option String) (text : String) : Task :=
  orFail ((c.parseMessage text).mapError fun e => .didcomm ("Invalid message: " ++ e)) <|
    routeMessage c msg_id session_did

/-- Route a text from a connected agent to the user that it is bound to. -/
def routeApplicationMessage (msg_id jwe sender : String) : Task :=
  read (fun m => m.agent_binding_store.getUserForAgent sender) fun
    | none => .answer (.error (.protocol
        ("Agent " ++ sender ++ " has no bound user for message routing")))
    | some user_did => read Mediator.clock fun queued_at =>
      queueFor user_did [user_did] ⟨msg_id, sender, user_did, jwe, queued_at⟩

/-- Where the dispatch of a text fails it may be for the bound user; a panic ends everything. -/
def fallsBack (text : String) : Reply → Bool
  | .ok () => false
  | .error .panicked => false
  | .error _ => c.isJwe text

/-- What is done with a text on a connection. -/
def receive (msg_id session_did text : String) : Task :=
  (dispatch c msg_id (some session_did) text).bind fun reply =>
    if fallsBack c text reply then routeApplicationMessage msg_id text session_did
    else .answer reply

/-- `POST /v1/agents/{agent_id}/command`. -/
def submitCommand (msg_id auth_did agent_id jwe_envelope : String) : Task :=
  read (Mediator.isOnline agent_id) fun
    | true => call (Mediator.sendTo agent_id (.envelope jwe_envelope)) .answer
    | false => read Mediator.clock fun queued_at =>
      storeAll ⟨msg_id, auth_did, agent_id, jwe_envelope, queued_at⟩ (.answer (.ok ())) [agent_id]

/-- Everything that happens to the router. -/
inductive Request
  | registers (did : String) (i : ℕ)
  | unregisters (did : String)
  /-- The sending task of a connection ends. -/
  | drops (i : ℕ)
  /-- A text comes in on the connection of a DID. -/
  | receives (session_did msg_id text : String)
  /-- `post_message`. -/
  | posts (msg_id text : String)
  | commands (msg_id auth_did agent_id jwe_envelope : String)
  /-- `bind_agent`, with a DID. -/
  | binds (auth_did agent_did : String)
  /-- `register_device_token`. -/
  | tokens (auth_did : String) (fcm_token push_channel : Option String)
  | ticks (clock : ℤ)

namespace Request

def handler : Request → Task
  | registers did i =>
    modify (fun m => { m with sessions := m.sessions.register did i }) (.answer (.ok ()))
  | unregisters did =>
    modify (fun m => { m with sessions := m.sessions.unregister did }) (.answer (.ok ()))
  | drops i => modify (fun m => { m with dropped := insert i m.dropped }) (.answer (.ok ()))
  | receives session_did msg_id text => receive c msg_id session_did text
  | posts msg_id text => dispatch c msg_id none text
  | commands msg_id auth_did agent_id jwe_envelope =>
    submitCommand msg_id auth_did agent_id jwe_envelope
  | binds auth_did agent_did =>
    modify (fun m => { m with
        agent_binding_store := m.agent_binding_store.bind agent_did auth_did }) (.answer (.ok ()))
  | tokens auth_did fcm_token push_channel =>
    modify (fun m => { m with device_token_store :=
        m.device_token_store.setPushChannel auth_did (push_channel.getD "fcm") }) <|
      match fcm_token with
      | some token => modify (fun m => { m with device_token_store :=
          m.device_token_store.registerDeviceToken auth_did token }) (.answer (.ok ()))
      | none => .answer (.ok ())
  | ticks clock => modify (fun m => { m with clock }) (.answer (.ok ()))

end Request

end Router
