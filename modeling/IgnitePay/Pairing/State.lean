/-
An agent that is paired with a phone (`MediatorConnection`, `MerchantMediator`).

A phone asks to be paired, the agent answers, and the phone confirms with a signature.
What an agent keeps of this is in its memory and in its database, and an agent that starts
has what the database holds.  The payer's agent does more for its phone: a text may answer
what a task waits for, or hand a command to one of the tasks of `main`.  The signatures that
the holders of keys make, at an agent or elsewhere, are kept with what happens at the agent.
-/
import IgnitePay.Pairing.Messages

namespace Pairing

open Machine Bytes Solana
open Router (Primitives ResolvedIdentity)

/-- What the sled database holds of the pairing. -/
structure Database where
  pairedPhone : Option String := none
  mediatorHttpUrl : Option String := none
  didDoc : Option Json := none

/-- Which of the writes to the database take effect, and whether the response is sent.  Errors are
ignored; an agent that ends in between leaves the rest undone. -/
structure Outcomes where
  savesDoc : Bool
  savesPhone : Bool
  savesUrl : Bool
  posts : Bool

/-- What happens at an agent and with the keys of the phones. -/
inductive Event
  /-- The agent took a request as pending; whether it sent its connection-response. -/
  | requested (phone : String) (responded : Bool)
  /-- The holder of the key signed a message. -/
  | signed (key : Pubkey) (message : String)
  | paired (phone nonce : String)
  | resolvedAuth (paymentId : String) (response : AuthResponse)
  | resolvedFund (sessionKey : String) (response : FundResponse)
  | resolvedRenew (oldSessionKey : String) (response : RenewResponse)
  /-- A task of `main` took the command. -/
  | executed (cmd : Command)
deriving DecidableEq

structure State where
  paired : Option String := none
  pending : Option String := none
  mediatorHttpUrl : Option String := none
  peers : Peers := ∅
  db : Database := {}
  pendingAuth : List String := []
  pendingFund : List String := []
  pendingRenew : List String := []
  /-- The commands that no task has taken yet, the oldest first. -/
  queue : List Command := []
  /-- The latest first. -/
  events : List Event := []

/-- The value that is stored, if the write takes effect. -/
def stored {α : Type} (takes : Bool) (new old : α) : α := if takes then new else old

/-! ### The pairing -/

section Pairing

variable (role : Role) (c : Primitives) (o : Outcomes)

/-- A connection-request is taken unless there is a paired phone.  Only the payer's agent saves the
document, and the phone itself before it has confirmed. -/
def connect (phone : String) (httpUrl : Option String) (document : Option Json) (s : State) :
    State :=
  match s.paired with
  | some _ => s
  | none =>
    let resolved := document.bind (c.parseDidDocument phone)
    let payer := decide (role = .payer)
    { s with
      pending := some phone
      peers := (resolved.map fun peer => s.peers.insert peer.did peer).getD s.peers
      mediatorHttpUrl := httpUrl.or s.mediatorHttpUrl
      db := {
        didDoc := stored (payer && resolved.isSome && o.savesDoc) document s.db.didDoc
        pairedPhone := stored (payer && o.savesPhone) (some phone) s.db.pairedPhone
        mediatorHttpUrl :=
          stored (httpUrl.isSome && o.savesUrl) httpUrl s.db.mediatorHttpUrl }
      events := .requested phone (httpUrl.isSome && o.posts) :: s.events }

/-- `&phone_nonce[..phone_nonce.len().min(8)]` does not panic. -/
def printable (nonce : String) : Prop := Text.isCharBoundary nonce (min nonce.utf8ByteSize 8) = true

instance (nonce : String) : Decidable (printable nonce) := inferInstanceAs (Decidable (_ = true))

inductive Panic
  | notACharBoundary
  | noCommand
deriving DecidableEq

/-- A connection-confirm of the pending phone, with a signature over a nonce of its own. -/
def confirm (phone nonce signature : String) (s : State) : Except Panic State := do
  require (printable nonce) .notACharBoundary
  pure (
    if s.pending = some phone then
      if c.verifyDidSignature phone nonce signature then
        { s with
          paired := some phone
          pending := none
          db := { s.db with pairedPhone := stored o.savesPhone (some phone) s.db.pairedPhone }
          events := .paired phone nonce :: s.events }
      else { s with pending := none }
    else s)

/-- `apply_phone_mediator_update`: the phone is the one that the message names. -/
def applyPhoneMediatorUpdate (phone httpUrl : String) (s : State) : State :=
  if s.paired = some phone then
    { s with
      mediatorHttpUrl := some httpUrl
      db := { s.db with
        mediatorHttpUrl := stored o.savesUrl (some httpUrl) s.db.mediatorHttpUrl } }
  else s

end Pairing

/-! ### What tasks wait for -/

/-- `PendingAuthStore::resolve`. -/
def resolveAuth (paymentId : String) (response : AuthResponse) (s : State) : State :=
  if paymentId ∈ s.pendingAuth then
    { s with
      pendingAuth := s.pendingAuth.filter (· ≠ paymentId)
      events := .resolvedAuth paymentId response :: s.events }
  else s

/-- `PendingFundStore::resolve`. -/
def resolveFund (sessionKey : String) (response : FundResponse) (s : State) : State :=
  if sessionKey ∈ s.pendingFund then
    { s with
      pendingFund := s.pendingFund.filter (· ≠ sessionKey)
      events := .resolvedFund sessionKey response :: s.events }
  else s

/-- `PendingRenewStore::resolve`. -/
def resolveRenew (oldSessionKey : String) (response : RenewResponse) (s : State) : State :=
  if oldSessionKey ∈ s.pendingRenew then
    { s with
      pendingRenew := s.pendingRenew.filter (· ≠ oldSessionKey)
      events := .resolvedRenew oldSessionKey response :: s.events }
  else s

/-- The channel on which a command is sent. -/
inductive Channel
  | mbDeposit
  | qrPayment
  | sessionRotate
deriving DecidableEq

def Command.channel : Command → Channel
  | .mbDeposit _ => .mbDeposit
  | .qrPayment _ => .qrPayment
  | .sessionRotate _ => .sessionRotate

/-! ### The agent -/

structure Connection where
  role : Role
  lib : Libraries

namespace Connection

variable (a : Connection)

/-- What a text is taken for. -/
def request (s : State) (t : String) : Option Request := a.lib.request a.role s.peers t

/-- The DID with whose key the text was made. -/
def authenticatedBy (s : State) (t : String) : Option String := a.lib.authenticatedBy s.peers t

/-- What an agent does that takes a text for a request. -/
def handle (o : Outcomes) (r : Request) (s : State) : Except Panic State :=
  match r with
  | .connect phone httpUrl document =>
    .ok (connect a.role a.lib.toPrimitives o phone httpUrl document s)
  | .confirm phone nonce signature => confirm a.lib.toPrimitives o phone nonce signature s
  | .mediatorUpdate phone httpUrl =>
    .ok (match httpUrl with
      | some httpUrl => applyPhoneMediatorUpdate o phone httpUrl s
      | none => s)
  | .authResponse paymentId response => .ok (resolveAuth paymentId response s)
  | .fundResponse sessionKey response => .ok (resolveFund sessionKey response s)
  | .renewResponse oldSessionKey response => .ok (resolveRenew oldSessionKey response s)
  | .command cmd => .ok { s with queue := s.queue ++ [cmd] }

/-- `handle_incoming_message`. -/
def arrive (t : String) (o : Outcomes) (s : State) : Except Panic State :=
  match a.request s t with
  | some r => a.handle o r s
  | none => .ok s

/-- The peer that is known from the database, which the merchant's agent does not ask. -/
def restoredPeers (db : Database) : Peers :=
  match a.role with
  | .payer =>
    let resolved := db.pairedPhone.bind fun phone => db.didDoc.bind (a.lib.parseDidDocument phone)
    (resolved.map fun peer => (∅ : Peers).insert peer.did peer).getD ∅
  | .merchant => ∅

/-- The agent starts: `new`. -/
def start (s : State) : State where
  paired := s.db.pairedPhone
  mediatorHttpUrl := s.db.mediatorHttpUrl
  peers := a.restoredPeers s.db
  db := s.db
  events := s.events

end Connection

/-! ### The system -/

inductive Call
  | arrives (t : String) (o : Outcomes)
  /-- The holder of a key signs a message, wherever it is. -/
  | signs (key : Pubkey) (message : String)
  /-- The agent gets to know the document of a DID otherwise. -/
  | meets (peer : ResolvedIdentity)
  | registersAuth (paymentId : String)
  | registersFund (sessionKey : String)
  | registersRenew (oldSessionKey : String)
  /-- The task of `main` that listens to the channel takes a command and executes it. -/
  | executes (channel : Channel)
  | restarts

def Connection.exec (a : Connection) : Call → State → Except Panic State
  | .arrives t o, s => a.arrive t o s
  | .signs key message, s => .ok { s with events := .signed key message :: s.events }
  | .meets peer, s => .ok { s with peers := s.peers.insert peer.did peer }
  | .registersAuth paymentId, s => .ok { s with pendingAuth := paymentId :: s.pendingAuth }
  | .registersFund sessionKey, s => .ok { s with pendingFund := sessionKey :: s.pendingFund }
  | .registersRenew old, s => .ok { s with pendingRenew := old :: s.pendingRenew }
  | .executes channel, s => do
    let cmd ← orErr (s.queue.find? fun cmd => cmd.channel = channel) .noCommand
    pure { s with queue := s.queue.erase cmd, events := .executed cmd :: s.events }
  | .restarts, s => .ok (a.start s)

end Pairing
