/-
What it takes to be the phone of an agent, and to stay it.

* `exec_pairing` — the five things that can happen to a pairing, and nothing else does;
* `pending_none_of_paired` — an agent that has a phone waits for no other;
* `Authentic` — every pairing was completed with a signature that the phone made after the
  agent's response to its request, and a phone that the agent has completed a pairing;
* `pairing_stands_iff` — with ideal signatures this, and that the phone alone changes what
  is stored of it, holds in exactly the runs in which the database names no phone that did
  not confirm, no signature from before is used again, and the phone's own updates are the
  only ones that name it.
-/
import IgnitePay.Lib.Run
import IgnitePay.Pairing.State

namespace Pairing

open Machine Bytes Solana
open Agent (extractPubkeyFromDid)

/-! ### What a call does to the pairing -/

/-- What the agent has of its phone is the same. -/
structure SamePairing (s s' : State) : Prop where
  paired : s'.paired = s.paired
  mediatorHttpUrl : s'.mediatorHttpUrl = s.mediatorHttpUrl
  db : s'.db = s.db

theorem SamePairing.rfl {s : State} : SamePairing s s := ⟨Eq.refl _, Eq.refl _, Eq.refl _⟩

def Event.isPaired : Event → Bool
  | .paired _ _ => true
  | _ => false

def Event.isRequested : Event → Bool
  | .requested _ _ => true
  | _ => false

/-- Events in which no pairing is completed. -/
structure Adds (s s' : State) : Prop where
  events : s'.events = s.events ∨ ∃ e, e.isPaired = false ∧ s'.events = e :: s.events

variable (a : Connection)

inductive PairingStep : Call → State → State → Prop
  | restarted (s : State) : PairingStep .restarts s (a.start s)
  | requested {t : String} {o : Outcomes} {s : State} {phone : String} {httpUrl : Option String}
      {document : Option Json} (hr : a.request s t = some (.connect phone httpUrl document))
      (hfree : s.paired = none) :
      PairingStep (.arrives t o) s (connect a.role a.lib.toPrimitives o phone httpUrl document s)
  | confirmed {t : String} {o : Outcomes} {s s' : State} {phone nonce signature : String}
      (hr : a.request s t = some (.confirm phone nonce signature)) (hprint : printable nonce)
      (hpending : s.pending = some phone)
      (hverified : a.lib.verifyDidSignature phone nonce signature = true)
      (hpaired : s'.paired = some phone) (hnone : s'.pending = none)
      (hevents : s'.events = .paired phone nonce :: s.events) : PairingStep (.arrives t o) s s'
  | updated {t : String} {o : Outcomes} {s s' : State} {phone httpUrl : String}
      (hr : a.request s t = some (.mediatorUpdate phone (some httpUrl)))
      (hphone : s.paired = some phone) (hs : s' = applyPhoneMediatorUpdate o phone httpUrl s) :
      PairingStep (.arrives t o) s s'
  | other {i : Call} {s s' : State} (hsame : SamePairing s s')
      (hpending : s'.pending = s.pending ∨ s'.pending = none) (hadds : Adds s s') :
      PairingStep i s s'

variable {a}

/-- A step that leaves the pairing alone. -/
theorem PairingStep.of_same {i : Call} {s s' : State} (hpaired : s'.paired = s.paired)
    (hpending : s'.pending = s.pending) (hurl : s'.mediatorHttpUrl = s.mediatorHttpUrl)
    (hdb : s'.db = s.db)
    (hevents : s'.events = s.events ∨ ∃ e, e.isPaired = false ∧ s'.events = e :: s.events) :
    PairingStep a i s s' := .other ⟨hpaired, hurl, hdb⟩ (.inl hpending) ⟨hevents⟩

theorem PairingStep.refl {i : Call} {s : State} : PairingStep a i s s :=
  .other .rfl (.inl rfl) ⟨.inl rfl⟩

theorem handle_pairing {t : String} {o : Outcomes} {r : Request} {s s' : State}
    (hr : a.request s t = some r) (he : a.handle o r s = .ok s') :
    PairingStep a (.arrives t o) s s' := by
  cases r with
  | connect phone httpUrl document =>
    obtain rfl := Except.ok.inj he
    rcases hfree : s.paired with - | d
    · exact .requested hr hfree
    · have hkept : connect a.role a.lib.toPrimitives o phone httpUrl document s = s := by
        simp only [connect, hfree]
      rw [hkept]
      exact .refl
  | confirm phone nonce signature =>
    simp only [Connection.handle, confirm, bind_eq_ok, require_eq_ok, exists_const] at he
    obtain ⟨hprint, he⟩ := he
    obtain rfl := Except.ok.inj he
    split
    · next hpending =>
      split
      · next hverified =>
        exact .confirmed hr hprint hpending hverified rfl rfl rfl
      · -- A signature that does not verify ends the request.
        exact .other ⟨rfl, rfl, rfl⟩ (.inr rfl) ⟨.inl rfl⟩
    · exact .refl
  | mediatorUpdate phone httpUrl =>
    obtain rfl := Except.ok.inj he
    cases httpUrl with
    | none => exact .refl
    | some httpUrl =>
      by_cases hphone : s.paired = some phone
      · exact .updated hr hphone rfl
      · have hkept : applyPhoneMediatorUpdate o phone httpUrl s = s := if_neg hphone
        show PairingStep a _ s (applyPhoneMediatorUpdate o phone httpUrl s)
        rw [hkept]
        exact .refl
  | authResponse paymentId response =>
    obtain rfl := Except.ok.inj he
    rw [resolveAuth]
    split
    · exact .of_same rfl rfl rfl rfl (.inr ⟨_, rfl, rfl⟩)
    · exact .refl
  | fundResponse sessionKey response =>
    obtain rfl := Except.ok.inj he
    rw [resolveFund]
    split
    · exact .of_same rfl rfl rfl rfl (.inr ⟨_, rfl, rfl⟩)
    · exact .refl
  | renewResponse old response =>
    obtain rfl := Except.ok.inj he
    rw [resolveRenew]
    split
    · exact .of_same rfl rfl rfl rfl (.inr ⟨_, rfl, rfl⟩)
    · exact .refl
  | command cmd =>
    obtain rfl := Except.ok.inj he
    exact .of_same rfl rfl rfl rfl (.inl rfl)

theorem exec_pairing {i : Call} {s s' : State} (he : a.exec i s = .ok s') :
    PairingStep a i s s' := by
  cases i with
  | arrives t o =>
    rw [Connection.exec, Connection.arrive] at he
    split at he
    · next r hr => exact handle_pairing hr he
    · obtain rfl := Except.ok.inj he
      exact .refl
  | signs key message =>
    obtain rfl := Except.ok.inj he
    exact .of_same rfl rfl rfl rfl (.inr ⟨_, rfl, rfl⟩)
  | meets peer =>
    obtain rfl := Except.ok.inj he
    exact .of_same rfl rfl rfl rfl (.inl rfl)
  | registersAuth paymentId =>
    obtain rfl := Except.ok.inj he
    exact .of_same rfl rfl rfl rfl (.inl rfl)
  | registersFund sessionKey =>
    obtain rfl := Except.ok.inj he
    exact .of_same rfl rfl rfl rfl (.inl rfl)
  | registersRenew old =>
    obtain rfl := Except.ok.inj he
    exact .of_same rfl rfl rfl rfl (.inl rfl)
  | executes channel =>
    simp only [Connection.exec, bind_eq_ok, orErr_eq_ok] at he
    obtain ⟨cmd, -, he⟩ := he
    obtain rfl := Except.ok.inj he
    exact .of_same rfl rfl rfl rfl (.inr ⟨_, rfl, rfl⟩)
  | restarts =>
    obtain rfl := Except.ok.inj he
    exact .restarted s

/-! ### A phone, and one that waits -/

/-- A phone is paired only where none waits, and waits only where none is paired. -/
theorem pending_none_of_paired {h : List (State × Call)} {s : State} (hrun : Run a.exec {} h s) :
    s.paired = none ∨ s.pending = none := by
  refine Run.invariant (P := fun s => s.paired = none ∨ s.pending = none) ?_ ?_ hrun
  · exact .inl rfl
  · intro s i s' hs he
    cases exec_pairing he with
    | restarted => exact .inr rfl
    | requested hr hfree =>
      left
      simp only [connect, hfree]
    | confirmed hr hprint hpending hverified hpaired hnone hevents => exact .inr hnone
    | updated hr hphone hs' =>
      subst hs'
      rw [applyPhoneMediatorUpdate, if_pos hphone]
      exact hs
    | other hsame hpending hadds =>
      rcases hpending with hpending | hnone
      · rw [hsame.paired, hpending]
        exact hs
      · exact .inr hnone

/-! ### Authentic pairings -/

/-- The last request that the agent took is of this phone, and it sent its connection-response:
what has happened since, and before. -/
structure Responded (phone : String) (events since before : List Event) : Prop where
  split : events = since ++ .requested phone true :: before
  last : ∀ e ∈ since, e.isRequested = false

/-- The phone's key signed the nonce after the agent's response to its request. -/
def SignedSince (phone nonce : String) (events : List Event) : Prop :=
  ∃ key since before, extractPubkeyFromDid phone = some key ∧ Responded phone events since before ∧
    .signed key nonce ∈ since

structure Authentic (s : State) : Prop where
  /-- Each connection-confirm that completed a pairing was signed after the agent's response. -/
  signed : ∀ after phone nonce before, s.events = after ++ .paired phone nonce :: before →
    SignedSince phone nonce before
  /-- The phone that the agent regards as its own has completed a pairing. -/
  completed : ∀ phone, s.paired = some phone → ∃ nonce, .paired phone nonce ∈ s.events

/-- What is true of the pairings of a list stays so with an event that is none. -/
theorem forall_paired_cons {Q : String → String → List Event → Prop} {e : Event} {l : List Event} :
    (∀ after phone nonce before, e :: l = after ++ .paired phone nonce :: before →
      Q phone nonce before) ↔
    (∀ phone nonce, e = .paired phone nonce → Q phone nonce l) ∧
      ∀ after phone nonce before, l = after ++ .paired phone nonce :: before →
        Q phone nonce before := by
  constructor
  · intro h
    constructor
    · rintro phone nonce rfl
      exact h [] phone nonce l rfl
    · rintro after phone nonce before rfl
      exact h (e :: after) phone nonce before rfl
  · rintro ⟨hhead, htail⟩ (- | ⟨e', after⟩) phone nonce before heq
    · obtain ⟨rfl, rfl⟩ := List.cons.inj heq
      exact hhead phone nonce rfl
    · exact htail after phone nonce before (List.cons.inj heq).2

/-- An event that completes no pairing changes nothing for an agent that has the same phone, or
none. -/
theorem Authentic.of_adds {s s' : State} (hs : Authentic s) (hadds : Adds s s')
    (hpaired : s'.paired = s.paired ∨ s'.paired = none) : Authentic s' := by
  have hmem : ∀ e ∈ s.events, e ∈ s'.events := by
    intro e he
    rcases hadds.events with h | ⟨e', -, h⟩
    · exact h ▸ he
    · exact h ▸ List.mem_cons_of_mem _ he
  constructor
  · rcases hadds.events with h | ⟨e, hne, h⟩
    · rw [h]
      exact hs.signed
    · rw [h, forall_paired_cons]
      refine ⟨?_, hs.signed⟩
      rintro phone nonce rfl
      exact absurd hne (by simp [Event.isPaired])
  · intro phone hphone
    rcases hpaired with h | h
    · obtain ⟨nonce, hnonce⟩ := hs.completed phone (h ▸ hphone)
      exact ⟨nonce, hmem _ hnonce⟩
    · exact absurd (h.symm.trans hphone) (by simp)

/-! ### The condition -/

variable (a)

/-- Ideal signatures: what verifies with the key of a DID was signed with that key. -/
def Unforged (s : State) (i : Call) : Prop :=
  ∀ t o phone nonce signature, i = .arrives t o → a.request s t = some (.confirm phone nonce signature) →
    a.lib.verifyDidSignature phone nonce signature = true →
    ∃ key, extractPubkeyFromDid phone = some key ∧ .signed key nonce ∈ s.events

/-- A confirm of the phone that waits, whose signature verifies, answers a response that was sent,
and its nonce was not signed before it, unless it was again since. -/
def NotReplayed (s : State) (i : Call) : Prop :=
  ∀ t o phone nonce signature, i = .arrives t o → a.request s t = some (.confirm phone nonce signature) →
    printable nonce → s.pending = some phone →
    a.lib.verifyDidSignature phone nonce signature = true →
    ∃ since before, Responded phone s.events since before ∧
      ∀ key, extractPubkeyFromDid phone = some key → .signed key nonce ∈ before →
        .signed key nonce ∈ since

/-- An agent that starts finds in its database no phone, or one that has completed a pairing. -/
def StartsPaired (s : State) (i : Call) : Prop :=
  i = .restarts → ∀ phone, s.db.pairedPhone = some phone → ∃ nonce, .paired phone nonce ∈ s.events

/-- An update that names the phone is made with its key, or says what is stored. -/
def OwnUpdate (s : State) (i : Call) : Prop :=
  ∀ t o phone httpUrl, i = .arrives t o → a.request s t = some (.mediatorUpdate phone (some httpUrl)) →
    s.paired = some phone → a.authenticatedBy s t ≠ some phone →
    s.mediatorHttpUrl = some httpUrl ∧ (o.savesUrl = true → s.db.mediatorHttpUrl = some httpUrl)

/-- A text that was not made with the key of the phone leaves what the agent has of it. -/
def Stable (s : State) (i : Call) : Prop :=
  ∀ t o phone s', i = .arrives t o → s.paired = some phone → a.authenticatedBy s t ≠ some phone →
    a.exec i s = .ok s' → SamePairing s s'

variable {a}

/-! ### One step -/

/-- A pairing is completed. -/
theorem exec_confirm {s : State} {t : String} {o : Outcomes} {phone nonce signature : String}
    (hr : a.request s t = some (.confirm phone nonce signature)) (hprint : printable nonce)
    (hpending : s.pending = some phone)
    (hverified : a.lib.verifyDidSignature phone nonce signature = true) :
    a.exec (.arrives t o) s = .ok { s with
      paired := some phone
      pending := none
      db := { s.db with pairedPhone := stored o.savesPhone (some phone) s.db.pairedPhone }
      events := .paired phone nonce :: s.events } := by
  rw [Connection.exec, Connection.arrive, hr]
  show confirm a.lib.toPrimitives o phone nonce signature s = _
  rw [confirm, require, if_pos hprint, if_pos hpending, if_pos hverified]
  rfl

theorem authentic_of_step {s s' : State} {i : Call} (hs : Authentic s) (hideal : Unforged a s i)
    (hfresh : NotReplayed a s i) (hdb : StartsPaired s i) (he : a.exec i s = .ok s') :
    Authentic s' := by
  cases exec_pairing he with
  | restarted => exact ⟨hs.signed, fun phone hphone => hdb rfl phone hphone⟩
  | @requested t o _ phone httpUrl document hr hfree =>
    refine hs.of_adds ⟨.inr ⟨.requested phone (httpUrl.isSome && o.posts), rfl, ?_⟩⟩ (.inr ?_)
    · simp only [connect, hfree]
    · simp only [connect, hfree]
  | @confirmed t o _ _ phone nonce signature hr hprint hpending hverified hpaired hnone hevents =>
    constructor
    · rw [hevents, forall_paired_cons]
      refine ⟨?_, hs.signed⟩
      rintro phone' nonce' hsame
      obtain ⟨rfl, rfl⟩ := Event.paired.inj hsame
      -- The signature was made by the holder of the key, and what remains is when.
      obtain ⟨key, hkey, hsigned⟩ := hideal t o phone nonce signature rfl hr hverified
      obtain ⟨since, before, hresponded, hbefore⟩ :=
        hfresh t o phone nonce signature rfl hr hprint hpending hverified
      refine ⟨key, since, before, hkey, hresponded, ?_⟩
      rw [hresponded.split, List.mem_append, List.mem_cons] at hsigned
      rcases hsigned with hsince | hrequest | hold
      · exact hsince
      · exact absurd hrequest (by simp)
      · exact hbefore key hkey hold
    · intro phone' hphone'
      obtain rfl := Option.some.inj (hpaired.symm.trans hphone')
      exact ⟨nonce, hevents ▸ List.mem_cons_self⟩
  | updated hr hphone hs' =>
    subst hs'
    rw [applyPhoneMediatorUpdate, if_pos hphone]
    exact hs.of_adds ⟨.inl rfl⟩ (.inl rfl)
  | other hsame hpending hadds => exact hs.of_adds hadds (.inl hsame.paired)

/-- A state with authentic pairings was reached by a confirm that was not replayed. -/
theorem notReplayed_of_authentic {s s' : State} {i : Call} (he : a.exec i s = .ok s')
    (hs' : Authentic s') : NotReplayed a s i := by
  rintro t o phone nonce signature rfl hr hprint hpending hverified
  rw [exec_confirm hr hprint hpending hverified] at he
  obtain rfl := Except.ok.inj he
  obtain ⟨key, since, before, hkey, hresponded, hsigned⟩ := hs'.signed [] phone nonce s.events rfl
  refine ⟨since, before, hresponded, fun key' hkey' _ => ?_⟩
  obtain rfl := Option.some.inj (hkey.symm.trans hkey')
  exact hsigned

theorem startsPaired_of_authentic {s s' : State} {i : Call} (he : a.exec i s = .ok s')
    (hs' : Authentic s') : StartsPaired s i := by
  rintro rfl phone hphone
  obtain rfl := Except.ok.inj he
  exact hs'.completed phone hphone

theorem authentic_step {s s' : State} {i : Call} (hs : Authentic s) (hideal : Unforged a s i)
    (he : a.exec i s = .ok s') : Authentic s' ↔ NotReplayed a s i ∧ StartsPaired s i := by
  constructor
  · intro hs'
    exact ⟨notReplayed_of_authentic he hs', startsPaired_of_authentic he hs'⟩
  · rintro ⟨hfresh, hdb⟩
    exact authentic_of_step hs hideal hfresh hdb he

/-- A text takes the phone's record to another one only by an update in the phone's name. -/
theorem stable_iff {s : State} {i : Call} (halone : s.paired = none ∨ s.pending = none) :
    Stable a s i ↔ OwnUpdate a s i := by
  constructor
  · rintro hstable t o phone httpUrl rfl hr hphone hother
    have he : a.exec (.arrives t o) s = .ok (applyPhoneMediatorUpdate o phone httpUrl s) := by
      rw [Connection.exec, Connection.arrive, hr]
      rfl
    have hsame := hstable t o phone _ rfl hphone hother he
    rw [applyPhoneMediatorUpdate, if_pos hphone] at hsame
    refine ⟨hsame.mediatorHttpUrl.symm, fun hsaves => ?_⟩
    have hdb := congrArg Database.mediatorHttpUrl hsame.db
    simp only [stored, hsaves, if_true] at hdb
    exact hdb.symm
  · rintro hown t o phone s' rfl hphone hother he
    cases exec_pairing he with
    | requested hr hfree => exact absurd (hphone.symm.trans hfree) (by simp)
    | confirmed hr hprint hpending =>
      -- No phone waits while another is paired.
      rcases halone with hnone | hnone
      · exact absurd (hphone.symm.trans hnone) (by simp)
      · exact absurd (hpending.symm.trans hnone) (by simp)
    | @updated _ _ _ _ phone' httpUrl hr hphone' hs' =>
      obtain rfl := Option.some.inj (hphone.symm.trans hphone')
      obtain ⟨hurl, hdb⟩ := hown t o phone httpUrl rfl hr hphone hother
      subst hs'
      rw [applyPhoneMediatorUpdate, if_pos hphone]
      refine ⟨rfl, hurl.symm, ?_⟩
      show ({ s.db with mediatorHttpUrl := _ } : Database) = s.db
      rcases hsaves : o.savesUrl with - | -
      · rfl
      · rw [stored, if_pos rfl, ← hdb hsaves]
    | other hsame hpending hadds => exact hsame

/-! ### Whole runs -/

/-- The pairing of an agent is authentic and stable in exactly the runs in which every confirm answers
the response that was sent to its phone with a nonce that was not signed before, every start finds a
phone that has confirmed, and every update in the name of the phone is its own. -/
theorem pairing_stands_iff (a : Connection) {h : List (State × Call)} {s : State}
    (hrun : Run a.exec {} h s) (hideal : ∀ c ∈ h, Unforged a c.1 c.2) :
    ((∀ s' ∈ Run.states h s, Authentic s') ∧ ∀ c ∈ h, Stable a c.1 c.2) ↔
      ∀ c ∈ h, NotReplayed a c.1 c.2 ∧ StartsPaired c.1 c.2 ∧ OwnUpdate a c.1 c.2 := by
  have hstart : Authentic {} := by
    constructor
    · intro after phone nonce before hsplit
      exact absurd hsplit (by simp)
    · intro phone hphone
      exact absurd hphone (by simp)
  have hauthentic : (∀ s' ∈ Run.states h s, Authentic s') ↔
      ∀ c ∈ h, NotReplayed a c.1 c.2 ∧ StartsPaired c.1 c.2 :=
    @Run.forall_states_iff _ _ _ _ _ _ _ Authentic
      (fun s i => NotReplayed a s i ∧ StartsPaired s i) (Unforged a) hstart
      (fun _ _ _ _ _ hs hi he => authentic_step hs hi he) hrun hideal
  have hstable : (∀ c ∈ h, Stable a c.1 c.2) ↔ ∀ c ∈ h, OwnUpdate a c.1 c.2 := by
    refine forall₂_congr fun c hc => ?_
    obtain ⟨h₁, s₁, hbefore, -, -⟩ := hrun.of_mem hc
    exact stable_iff (pending_none_of_paired hbefore)
  rw [hauthentic, hstable]
  constructor
  · rintro ⟨hfresh, hown⟩ c hc
    exact ⟨(hfresh c hc).1, (hfresh c hc).2, hown c hc⟩
  · intro hall
    exact ⟨fun c hc => ⟨(hall c hc).1, (hall c hc).2.1⟩, fun c hc => (hall c hc).2.2⟩

namespace Sample

open Router.Sample (victim nonce victimKey victimSignature_b64)

/-- A text of the phone, and what `serde_json` makes of it. -/
def phoneText (typ body : String) : String :=
  "\x7b\"type\":\"https://didcomm.org/ignite-pay/1.0/" ++ typ ++ "\",\"from\":\"" ++ victim ++
    "\",\"body\":\x7b" ++ body ++ "\x7d\x7d"

def phoneMessage (typ : String) (body : List (String × Json)) : Json :=
  .object [("type", .string ("https://didcomm.org/ignite-pay/1.0/" ++ typ)), ("from", .string victim),
    ("body", .object body)]

def requestText : String :=
  phoneText "connection-request" "\"mediator_http_url\":\"https://mediator.example/\""

def confirmText : String :=
  phoneText "connection-confirm"
    ("\"phone_nonce\":\"" ++ nonce ++ "\",\"phone_signature\":\"" ++ victimSignature_b64 ++ "\"")

def authText : String :=
  phoneText "payment-auth-response" "\"payment_id\":\"p1\",\"authorized\":true"

def parseJson (t : String) : Except String Json :=
  if t = requestText then
    .ok (phoneMessage "connection-request" [("mediator_http_url", .string "https://mediator.example/")])
  else if t = confirmText then
    .ok (phoneMessage "connection-confirm"
      [("phone_nonce", .string nonce), ("phone_signature", .string victimSignature_b64)])
  else if t = authText then
    .ok (phoneMessage "payment-auth-response"
      [("payment_id", .string "p1"), ("authorized", .bool true)])
  else .error "expected value at line 1 column 1"

/-- The payer's agent; no text of the sample is encrypted. -/
def payer : Connection where
  role := .payer
  lib := { Router.Sample.honest with parseJson := parseJson, unpack := fun _ _ => none }

def allTakeEffect : Outcomes := ⟨true, true, true, true⟩

/-- A call of a pairing as it should be: the confirm comes right after the phone has signed its nonce. -/
def asItShould (c : State × Call) : Bool :=
  match c.2 with
  | .signs _ _ => true
  | .arrives t _ =>
    match payer.request c.1 t with
    | some (.connect _ _ _) => true
    | some (.confirm phone phoneNonce _) =>
      decide (phone = victim ∧ phoneNonce = nonce ∧
        c.1.events = [.signed victimKey nonce, .requested victim true])
    | _ => false
  | _ => false

theorem extract_victim : extractPubkeyFromDid victim = some victimKey := by decide +kernel

theorem unforged_of_asItShould {s : State} {i : Call} (h : asItShould (s, i) = true) :
    Unforged payer s i := by
  rintro t o phone nonce' signature rfl hr -
  rw [asItShould] at h
  simp only [hr] at h
  obtain ⟨rfl, rfl, hevents⟩ := of_decide_eq_true h
  exact ⟨victimKey, extract_victim, by rw [hevents]; exact List.mem_cons_self⟩

theorem allowed_of_asItShould {s : State} {i : Call} (h : asItShould (s, i) = true) :
    NotReplayed payer s i ∧ StartsPaired s i ∧ OwnUpdate payer s i := by
  refine ⟨?_, ?_, ?_⟩
  · rintro t o phone nonce' signature rfl hr - - -
    rw [asItShould] at h
    simp only [hr] at h
    obtain ⟨rfl, rfl, hevents⟩ := of_decide_eq_true h
    refine ⟨[.signed victimKey nonce], [], ⟨hevents, ?_⟩, ?_⟩
    · intro e he
      obtain rfl := List.mem_singleton.mp he
      rfl
    · intro key _ hold
      exact absurd hold (by simp)
  · rintro rfl
    exact absurd h (by simp [asItShould])
  · rintro t o phone httpUrl rfl hr
    rw [asItShould] at h
    simp only [hr] at h
    exact absurd h (by simp)

end Sample

/-- A phone asks, signs and confirms: its pairing stands. -/
theorem pairing_stands : ∃ h s, Run Sample.payer.exec {} h s ∧
    s.paired = some Router.Sample.victim ∧
    (∀ s' ∈ Run.states h s, Authentic s') ∧ ∀ c ∈ h, Stable Sample.payer c.1 c.2 := by
  have htest : (Run.record Sample.payer.exec
      [.arrives Sample.requestText Sample.allTakeEffect,
        .signs Router.Sample.victimKey Router.Sample.nonce,
        .arrives Sample.confirmText Sample.allTakeEffect] [] {}).toOption.any
      (fun r => decide (r.2.paired = some Router.Sample.victim) && r.1.all Sample.asItShould) = true := by
    decide +kernel
  obtain ⟨h, s, hrun, htest⟩ := Run.exists_of_record htest
  obtain ⟨hpaired, hcalls⟩ := Bool.and_eq_true_iff.mp htest
  have hcalls := List.all_eq_true.mp hcalls
  have hideal : ∀ c ∈ h, Unforged Sample.payer c.1 c.2 :=
    fun c hc => Sample.unforged_of_asItShould (hcalls c hc)
  exact ⟨h, s, hrun, of_decide_eq_true hpaired, (pairing_stands_iff Sample.payer hrun hideal).mpr
    fun c hc => Sample.allowed_of_asItShould (hcalls c hc)⟩

/-- A phone that has only asked is the one that the agent finds when it starts again. -/
theorem pairing_falls : ¬ ∀ (a : Connection) (h : List (State × Call)) (s : State),
    Run a.exec {} h s → (∀ c ∈ h, Unforged a c.1 c.2) →
      (∀ s' ∈ Run.states h s, Authentic s') ∧ ∀ c ∈ h, Stable a c.1 c.2 := by
  intro hall
  have htest : (Run.record Sample.payer.exec
      [.arrives Sample.requestText Sample.allTakeEffect, .restarts] [] {}).toOption.any
      (fun r => decide (r.2.paired = some Router.Sample.victim) &&
        decide (r.2.events = [.requested Router.Sample.victim true]) &&
        r.1.all fun c => match c.2 with
          | .restarts => true
          | _ => Sample.asItShould c) = true := by decide +kernel
  obtain ⟨h, s, hrun, htest⟩ := Run.exists_of_record htest
  obtain ⟨htest, hcalls⟩ := Bool.and_eq_true_iff.mp htest
  obtain ⟨hpaired, hevents⟩ := Bool.and_eq_true_iff.mp htest
  have hideal : ∀ c ∈ h, Unforged Sample.payer c.1 c.2 := by
    rintro ⟨s', i⟩ hc
    have hcall := List.all_eq_true.mp hcalls _ hc
    cases i with
    | restarts => exact fun t o phone nonce signature hi => nomatch hi
    | _ => exact Sample.unforged_of_asItShould hcall
  have hauthentic := (hall Sample.payer h s hrun hideal).1 s List.mem_cons_self
  obtain ⟨nonce, hnonce⟩ := hauthentic.completed _ (of_decide_eq_true hpaired)
  rw [of_decide_eq_true hevents] at hnonce
  exact absurd hnonce (by simp)

end Pairing
