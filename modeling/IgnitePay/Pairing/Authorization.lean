/-
Who can make the payer's agent pay.

A text can answer what a task of the agent waits for, or hand it a command; none of the
branches that do so asks who made the text.

* `exec_outcomes` — what a call adds to what has happened and to the queue comes from the
  text that arrived, or was in the queue;
* `spending_backed` — in the runs in which each text that has such an effect was made with
  the key of the phone that is paired, nothing is authorized or executed without one.
-/
import IgnitePay.Pairing.Handshake

namespace Pairing

open Machine

/-! ### What spends -/

/-- A payment is authorized, a session is funded or renewed, or a command is executed. -/
def Event.Spends : Event → Prop
  | .resolvedAuth _ response => response.authorized = true
  | .resolvedFund _ response => response.funded = true
  | .resolvedRenew _ response => response.renewed = true
  | .executed _ => True
  | .requested _ _ => False
  | .signed _ _ => False
  | .paired _ _ => False

/-- What comes of a request, now or when a task takes the command. -/
def Request.outcome : Request → Option Event
  | .authResponse paymentId response => some (.resolvedAuth paymentId response)
  | .fundResponse sessionKey response => some (.resolvedFund sessionKey response)
  | .renewResponse old response => some (.resolvedRenew old response)
  | .command cmd => some (.executed cmd)
  | .connect _ _ _ => none
  | .confirm _ _ _ => none
  | .mediatorUpdate _ _ => none

/-- A request that is a command, or says yes to what a task waits for. -/
def Request.Spends (s : State) : Request → Prop
  | .authResponse paymentId response => paymentId ∈ s.pendingAuth ∧ response.authorized = true
  | .fundResponse sessionKey response => sessionKey ∈ s.pendingFund ∧ response.funded = true
  | .renewResponse old response => old ∈ s.pendingRenew ∧ response.renewed = true
  | .command _ => True
  | .connect _ _ _ => False
  | .confirm _ _ _ => False
  | .mediatorUpdate _ _ => False

variable (a : Connection)

/-- The call brings a text that was made with the key of the phone that is paired, and the event comes
of what it asks for. -/
def Backs (c : State × Call) (e : Event) : Prop :=
  ∃ t o r phone, c.2 = .arrives t o ∧ c.1.paired = some phone ∧
    a.authenticatedBy c.1 t = some phone ∧ a.request c.1 t = some r ∧ r.outcome = some e

/-- A text that spends is made with the key of the phone that is paired. -/
def FromPhone (s : State) (i : Call) : Prop :=
  ∀ t o r, i = .arrives t o → a.request s t = some r → r.Spends s →
    ∃ phone, s.paired = some phone ∧ a.authenticatedBy s t = some phone

/-! ### One step -/

/-- Where what spends comes from. -/
structure Outcome (i : Call) (s s' : State) : Prop where
  events : ∀ e ∈ s'.events, e.Spends → e ∈ s.events ∨ (∃ cmd ∈ s.queue, e = .executed cmd) ∨
    ∃ t o r, i = .arrives t o ∧ a.request s t = some r ∧ r.Spends s ∧ r.outcome = some e
  queue : ∀ cmd ∈ s'.queue, cmd ∈ s.queue ∨
    ∃ t o, i = .arrives t o ∧ a.request s t = some (.command cmd)

variable {a}

/-- A call that leaves the queue, or drops it, and adds at most an event that does not spend. -/
theorem Outcome.of_quiet {i : Call} {s s' : State}
    (hevents : s'.events = s.events ∨ ∃ e, ¬ e.Spends ∧ s'.events = e :: s.events)
    (hqueue : s'.queue = s.queue ∨ s'.queue = []) : Outcome a i s s' := by
  constructor
  · intro e he hspends
    rcases hevents with h | ⟨e', hquiet, h⟩
    · exact .inl (h ▸ he)
    · rw [h] at he
      rcases List.mem_cons.mp he with rfl | he
      · exact absurd hspends hquiet
      · exact .inl he
  · intro cmd hcmd
    rcases hqueue with h | h
    · exact .inl (h ▸ hcmd)
    · exact absurd (h ▸ hcmd) List.not_mem_nil

/-- The event of a request that was waited for. -/
theorem Outcome.of_resolved {t : String} {o : Outcomes} {r : Request} {s s' : State} {e : Event}
    (hr : a.request s t = some r) (hout : r.outcome = some e) (hspends : e.Spends → r.Spends s)
    (hevents : s'.events = e :: s.events) (hqueue : s'.queue = s.queue) :
    Outcome a (.arrives t o) s s' := by
  constructor
  · intro e' he' hspends'
    rw [hevents] at he'
    rcases List.mem_cons.mp he' with rfl | he'
    · exact .inr (.inr ⟨t, o, r, rfl, hr, hspends hspends', hout⟩)
    · exact .inl he'
  · intro cmd hcmd
    exact .inl (hqueue ▸ hcmd)

theorem handle_outcomes {t : String} {o : Outcomes} {r : Request} {s s' : State}
    (hr : a.request s t = some r) (he : a.handle o r s = .ok s') :
    Outcome a (.arrives t o) s s' := by
  cases r with
  | connect phone httpUrl document =>
    obtain rfl := Except.ok.inj he
    rcases hfree : s.paired with - | d
    · simp only [connect, hfree]
      exact .of_quiet (.inr ⟨_, id, rfl⟩) (.inl rfl)
    · simp only [connect, hfree]
      exact .of_quiet (.inl rfl) (.inl rfl)
  | confirm phone nonce signature =>
    simp only [Connection.handle, confirm, bind_eq_ok, require_eq_ok, exists_const] at he
    obtain ⟨-, he⟩ := he
    obtain rfl := Except.ok.inj he
    split
    · split
      · exact .of_quiet (.inr ⟨_, id, rfl⟩) (.inl rfl)
      · exact .of_quiet (.inl rfl) (.inl rfl)
    · exact .of_quiet (.inl rfl) (.inl rfl)
  | mediatorUpdate phone httpUrl =>
    obtain rfl := Except.ok.inj he
    cases httpUrl with
    | none => exact .of_quiet (.inl rfl) (.inl rfl)
    | some httpUrl =>
      show Outcome a _ s (applyPhoneMediatorUpdate o phone httpUrl s)
      rw [applyPhoneMediatorUpdate]
      split
      · exact .of_quiet (.inl rfl) (.inl rfl)
      · exact .of_quiet (.inl rfl) (.inl rfl)
  | authResponse paymentId response =>
    obtain rfl := Except.ok.inj he
    rw [resolveAuth]
    split
    · next hpending => exact .of_resolved hr rfl (fun hyes => ⟨hpending, hyes⟩) rfl rfl
    · exact .of_quiet (.inl rfl) (.inl rfl)
  | fundResponse sessionKey response =>
    obtain rfl := Except.ok.inj he
    rw [resolveFund]
    split
    · next hpending => exact .of_resolved hr rfl (fun hyes => ⟨hpending, hyes⟩) rfl rfl
    · exact .of_quiet (.inl rfl) (.inl rfl)
  | renewResponse old response =>
    obtain rfl := Except.ok.inj he
    rw [resolveRenew]
    split
    · next hpending => exact .of_resolved hr rfl (fun hyes => ⟨hpending, hyes⟩) rfl rfl
    · exact .of_quiet (.inl rfl) (.inl rfl)
  | command cmd =>
    obtain rfl := Except.ok.inj he
    refine ⟨fun e he _ => .inl he, ?_⟩
    intro cmd' hcmd'
    rcases List.mem_append.mp hcmd' with hcmd' | hcmd'
    · exact .inl hcmd'
    · obtain rfl := List.mem_singleton.mp hcmd'
      exact .inr ⟨t, o, rfl, hr⟩

theorem exec_outcomes {i : Call} {s s' : State} (he : a.exec i s = .ok s') : Outcome a i s s' := by
  cases i with
  | arrives t o =>
    rw [Connection.exec, Connection.arrive] at he
    split at he
    · next r hr => exact handle_outcomes hr he
    · obtain rfl := Except.ok.inj he
      exact .of_quiet (.inl rfl) (.inl rfl)
  | signs key message =>
    obtain rfl := Except.ok.inj he
    exact .of_quiet (.inr ⟨_, id, rfl⟩) (.inl rfl)
  | executes channel =>
    simp only [Connection.exec, bind_eq_ok, orErr_eq_ok] at he
    obtain ⟨cmd, hfind, he⟩ := he
    obtain rfl := Except.ok.inj he
    constructor
    · intro e he' _
      rcases List.mem_cons.mp he' with rfl | he'
      · exact .inr (.inl ⟨cmd, List.mem_of_find?_eq_some hfind, rfl⟩)
      · exact .inl he'
    · intro cmd' hcmd'
      exact .inl (List.mem_of_mem_erase hcmd')
  | restarts =>
    obtain rfl := Except.ok.inj he
    exact .of_quiet (.inl rfl) (.inr rfl)
  | _ =>
    obtain rfl := Except.ok.inj he
    exact .of_quiet (.inl rfl) (.inl rfl)

/-! ### Whole runs -/

/-- Of all that has happened and all that waits to be executed, what spends is backed. -/
structure Backed (a : Connection) (h : List (State × Call)) (s : State) : Prop where
  events : ∀ e ∈ s.events, e.Spends → ∃ c ∈ h, Backs a c e
  queue : ∀ cmd ∈ s.queue, ∃ c ∈ h, Backs a c (.executed cmd)

theorem Backed.step {h : List (State × Call)} {i : Call} {s s' : State} (hs : Backed a h s)
    (hi : FromPhone a s i) (he : a.exec i s = .ok s') : Backed a ((s, i) :: h) s' := by
  have hout := exec_outcomes he
  have hearlier : ∀ e, (∃ c ∈ h, Backs a c e) → ∃ c ∈ (s, i) :: h, Backs a c e :=
    fun e ⟨c, hc, hback⟩ => ⟨c, List.mem_cons_of_mem _ hc, hback⟩
  -- The text that arrives backs what it asks for.
  have hnow : ∀ t o r e, i = .arrives t o → a.request s t = some r → r.Spends s →
      r.outcome = some e → ∃ c ∈ (s, i) :: h, Backs a c e := by
    intro t o r e ht hr hspends hr'
    obtain ⟨phone, hphone, hmade⟩ := hi t o r ht hr hspends
    exact ⟨(s, i), List.mem_cons_self, t, o, r, phone, ht, hphone, hmade, hr, hr'⟩
  constructor
  · intro e he' hspends
    rcases hout.events e he' hspends with hold | ⟨cmd, hcmd, rfl⟩ | ⟨t, o, r, ht, hr, hyes, hr'⟩
    · exact hearlier e (hs.events e hold hspends)
    · exact hearlier _ (hs.queue cmd hcmd)
    · exact hnow t o r e ht hr hyes hr'
  · intro cmd hcmd
    rcases hout.queue cmd hcmd with hold | ⟨t, o, ht, hr⟩
    · exact hearlier _ (hs.queue cmd hold)
    · exact hnow t o _ _ ht hr trivial rfl

theorem backed_of_run {h : List (State × Call)} {s : State} (hrun : Run a.exec {} h s)
    (hall : ∀ c ∈ h, FromPhone a c.1 c.2) : Backed a h s := by
  induction hrun with
  | start =>
    refine ⟨fun e he _ => ?_, fun cmd hcmd => ?_⟩
    · exact absurd he List.not_mem_nil
    · exact absurd hcmd List.not_mem_nil
  | step _ he ih =>
    obtain ⟨hlast, hrest⟩ := List.forall_mem_cons.mp hall
    exact (ih hrest).step hlast he

namespace Sample

open Router.Sample (victim nonce victimKey)

def jweText : String :=
  "\x7b\"ciphertext\":\"q1lFq0\",\"recipients\":[\x7b\"encrypted_key\":\"Bv9f\"\x7d]\x7d"

def qrMessage : Message where
  typ := "https://didcomm.org/ignite-pay/1.0/qr-payment-request"
  sender := some victim
  body := .object [("merchant_did", .string "did:ignite:z6MkMerchant"), ("amount", .integer 2500000),
    ("order_id", .string "o-17")]

/-- The payer's agent, with a text that was encrypted for it by the phone. -/
def encrypted : Connection where
  role := .payer
  lib := { payer.lib with
    parseJson := fun t =>
      if t = jweText then
        .ok (.object [("ciphertext", .string "q1lFq0"),
          ("recipients", .array [.object [("encrypted_key", .string "Bv9f")]])])
      else parseJson t
    unpack := fun _ t => if t = jweText then some ⟨qrMessage, some victim⟩ else none }

/-- The calls of the pairing. -/
def handshake : List Call :=
  [.arrives requestText allTakeEffect, .signs victimKey nonce, .arrives confirmText allTakeEffect]

/-- A call that asks for nothing that spends, or comes from the phone. -/
def fromPhone (c : State × Call) : Bool :=
  match c.2 with
  | .arrives t _ =>
    match encrypted.request c.1 t with
    | some (.connect _ _ _) => true
    | some (.confirm _ _ _) => true
    | _ => decide (c.1.paired = some victim ∧ encrypted.authenticatedBy c.1 t = some victim)
  | _ => true

theorem fromPhone_of {s : State} {i : Call} (h : fromPhone (s, i) = true) :
    FromPhone encrypted s i := by
  rintro t o r rfl hr hspends
  rw [fromPhone] at h
  simp only [hr] at h
  cases r with
  | connect => exact hspends.elim
  | confirm => exact hspends.elim
  | _ => exact ⟨victim, of_decide_eq_true h⟩

end Sample

end Pairing
