/-
What a section of a payment task can do.

`Effect` lists, stage by stage, what becomes of the task and of the shared state; nothing after this
unfolds a section.

* `effect_of_next` — every section has the effect that is listed for its stage;
* `turned_of_exec` — what a turn does to the world;
* `Exclusive.of_exec` — the task that holds the mutex is the one that is in `execute_payment_atomic`;
* `heldBy_of_turn` — what is only in the hands of that task.
-/
import IgnitePay.Agent.Program

namespace Agent

open Machine Solana

/-! ### The effect of a section -/

/-- A session as it is stored first, with nothing spent. -/
structure SessionTokenData.Fresh (d : SessionTokenData) (now : ℕ) : Prop where
  spent : d.currentSpent = 0
  count : d.currentDailyCount = 0
  reset : d.lastDailyReset = todayStart now

/-- A session may have been stored under one of the keys. -/
def Opened (keys : Pubkey → Prop) (x x' : Shared) : Prop :=
  x' = x ∨ ∃ k d, keys k ∧ d.Fresh x.now ∧ x' = x.setSession k d

/-- A session may have been removed. -/
def Closed (x x' : Shared) : Prop :=
  x' = x ∨ ∃ k, x' = { x with sessions := x.sessions.erase k }

/-- How the client's payment ends. -/
inductive ClientDone (a : Answer) (e : Execution) (y : Shared) : Stage → Shared → Prop
  | goesOn (replied : a.replied = true) : ClientDone a e y (.agentReads e .txSignature) y
  | stops (silent : a.replied = false) : ClientDone a e y (.done (.error .noSignature)) y.release

/-- What a section makes of its task and of the shared state. -/
inductive Effect (server : Server) (i : ℕ) (a : Answer) (t : Task) (x : Shared) :
    Stage → Shared → Prop
  | blocks (here : t.stage = .arrived)
      (verdict_eq : x.lists.riskCheck a.lists x.now t.merchantDid t.amount = .ok .blocked) :
      Effect server i a t x (.done (.rejected .blacklisted)) x
  | checks {verdict : Verdict} (here : t.stage = .arrived)
      (verdict_eq : x.lists.riskCheck a.lists x.now t.merchantDid t.amount = verdict)
      (passes : verdict ≠ .ok .blocked) : Effect server i a t x (.checked verdict) x
  | approves {verdict : Verdict} {max : Option UInt64} {label : Option String}
      {session : Option SessionKeypair} (here : t.stage = .checked verdict)
      (verdict_eq : verdict = .ok (.autoApproved max label)) :
      Effect server i a t x (.ready ⟨some verdict, .whitelist, session, none, none⟩) x
  | bypasses {verdict : Verdict} {path : Path} (here : t.stage = .checked verdict)
      (unapproved : ∀ max label, verdict ≠ .ok (.autoApproved max label))
      (ground : path = .autoApprove ∧ autoApproves server t.amount = true ∨
        path = .activeSession ∧ autoApproves server t.amount = false ∧
          (getActiveSession server a x).any (paysDirectly t.amount x.now) = true) :
      Effect server i a t x (.ready ⟨some verdict, path, getActiveSession server a x, none, none⟩) x
  | asks {verdict : Verdict} (here : t.stage = .checked verdict)
      (below : autoApproves server t.amount = false)
      (outside : (getActiveSession server a x).any (paysDirectly t.amount x.now) = false) :
      Effect server i a t x (.requesting verdict) x
  | scans {method : Option PaymentMethod} (here : t.stage = .scanned method) :
      Effect server i a t x (.ready ⟨none, .qr, getActiveSession server a x, method, none⟩) x
  | requests {verdict : Verdict} {created : Option Pubkey} {x' : Shared}
      (here : t.stage = .requesting verdict) (opened : Opened (· = a.newKey) x x') :
      Effect server i a t x (.awaiting verdict created) x'
  | notRequested {verdict : Verdict} {r : X402Result} {x' : Shared}
      (here : t.stage = .requesting verdict) (opened : Opened (· = a.newKey) x x') :
      Effect server i a t x (.done r) x'
  | authorized {verdict : Verdict} {created : Option Pubkey} {resp : AuthResponse}
      {session : Option SessionKeypair} {x' : Shared} (here : t.stage = .awaiting verdict created)
      (phone : a.phone = .responds resp) (granted : resp.authorized = true)
      (opened : Opened (fun k => ∃ session, resp.session = some session ∧ session.pubkey = k) x x') :
      Effect server i a t x
        (.ready ⟨some verdict, .phone, session, resp.paymentMethod, some resp⟩) x'
  | declined {verdict : Verdict} {created : Option Pubkey} {r : X402Result} {x' : Shared}
      (here : t.stage = .awaiting verdict created) (closed : Closed x x') :
      Effect server i a t x (.done r) x'
  | locks {e : Execution} {stage' : Stage} (here : t.stage = .ready e) (free : x.mutex = none)
      (next : stage' = .funding e ∨
        stage' = .executing e ∧ checkSessionBalance e.session t.amount = true) :
      Effect server i a t x stage' { x with mutex := some i }
  | funded {e : Execution} (here : t.stage = .funding e)
      (balance : checkSessionBalance e.session t.amount = true) :
      Effect server i a t x (.executing e) x
  | stops {e : Execution} {r : X402Result} (here : t.stage = .funding e ∨ t.stage = .executing e)
      (unpaid : t.stage = .executing e → executePaymentAuto server a e t.amount x.now = none) :
      Effect server i a t x (.done r) x.release
  | pays {e : Execution} {proof : PaymentProof} (here : t.stage = .executing e)
      (paid : executePaymentAuto server a e t.amount x.now ≠ none) :
      Effect server i a t x (.agentReads e proof) (pay i e none t x)
  | transfers {e : Execution} {k : Pubkey} (here : t.stage = .executing e)
      (paid : executePaymentAuto server a e t.amount x.now = some (.transfer k)) :
      Effect server i a t x (.clientReads e k) (pay i e (some k) t x)
  | clientFails {e : Execution} {k : Pubkey}
      (here : t.stage = .clientReads e k ∨ ∃ d, t.stage = .clientWrites e k d)
      (unstored : a.stored = false) :
      Effect server i a t x (.done (.error .notRecorded)) x.release
  | clientReads {e : Execution} {k : Pubkey} {d : SessionTokenData}
      (here : t.stage = .clientReads e k) (read : x.sessions.lookup k = some d) :
      Effect server i a t x (.clientWrites e k d) x
  | clientSkips {e : Execution} {k : Pubkey} {stage' : Stage} {x' : Shared}
      (here : t.stage = .clientReads e k) (absent : x.sessions.lookup k = none)
      (ends : ClientDone a e x stage' x') : Effect server i a t x stage' x'
  | clientWrites {e : Execution} {k : Pubkey} {d : SessionTokenData} {stage' : Stage} {x' : Shared}
      (here : t.stage = .clientWrites e k d)
      (ends : ClientDone a e (x.setSession k (d.recordSpent t.amount x.now)) stage' x') :
      Effect server i a t x stage' x'
  | agentReads {e : Execution} {proof : PaymentProof} {k : Pubkey} {d : SessionTokenData}
      (here : t.stage = .agentReads e proof) (read : x.sessions.lookup k = some d) :
      Effect server i a t x (.agentWrites e proof k d) x
  | agentSkips {e : Execution} {proof : PaymentProof} (here : t.stage = .agentReads e proof) :
      Effect server i a t x (.recordingMerchant e proof) x
  | agentWrites {e : Execution} {proof : PaymentProof} {k : Pubkey} {d : SessionTokenData}
      {x' : Shared} (here : t.stage = .agentWrites e proof k d)
      (left : x' = x ∨ x' = x.setSession k (d.recordSpent t.amount x.now)) :
      Effect server i a t x (.recordingMerchant e proof) x'
  | records {e : Execution} {proof : PaymentProof} {stage' : Stage} {lists : ListStore}
      (here : t.stage = .recordingMerchant e proof)
      (ends : (∃ r, stage' = .done r) ∨ ∃ action resp, stage' = .listing proof action resp)
      (lists_eq : lists = if t.merchantDid ≠ "" ∧ a.stored = true then
        x.lists.recordMerchantSpent t.merchantDid t.amount else x.lists) :
      Effect server i a t x stage' { x with lists, mutex := none }
  | listed {proof : PaymentProof} {action : ListAction} {resp : AuthResponse} {lists : ListStore}
      (here : t.stage = .listing proof action resp)
      (same : lists.merchantSpending = x.lists.merchantSpending) :
      Effect server i a t x (.done (.success proof)) { x with lists }

section

variable {server : Server} {i : ℕ} {a : Answer} {t t' : Task} {x x' : Shared}

theorem Opened.same {keys : Pubkey → Prop} (h : Opened keys x x') :
    x'.mutex = x.mutex ∧ x'.payments = x.payments ∧ x'.lists = x.lists ∧ x'.now = x.now := by
  rcases h with rfl | ⟨k, d, -, -, rfl⟩ <;> exact ⟨rfl, rfl, rfl, rfl⟩

theorem Closed.same (h : Closed x x') :
    x'.mutex = x.mutex ∧ x'.payments = x.payments ∧ x'.lists = x.lists ∧ x'.now = x.now := by
  rcases h with rfl | ⟨k, rfl⟩ <;> exact ⟨rfl, rfl, rfl, rfl⟩

theorem effect_of_checkRisk (here : t.stage = .arrived) :
    ∃ stage', checkRisk a t x = t.to stage' ∧ Effect server i a t x stage' x := by
  unfold checkRisk
  split
  · next h => exact ⟨_, rfl, .blocks here h⟩
  · next h => exact ⟨_, rfl, .checks here rfl h⟩

theorem effect_of_choosePath {verdict : Verdict} (here : t.stage = .checked verdict) :
    ∃ stage', choosePath server a verdict t x = t.to stage' ∧ Effect server i a t x stage' x := by
  unfold choosePath
  split
  · next h => exact ⟨_, rfl, .approves here rfl⟩
  · next h =>
    by_cases hauto : autoApproves server t.amount = true
    · rw [if_pos hauto]
      exact ⟨_, rfl, .bypasses here h (.inl ⟨rfl, hauto⟩)⟩
    · have hbelow := Bool.eq_false_of_not_eq_true hauto
      rw [if_neg hauto]
      by_cases hsession : (getActiveSession server a x).any (paysDirectly t.amount x.now) = true
      · rw [if_pos hsession]
        exact ⟨_, rfl, .bypasses here h (.inr ⟨rfl, hbelow, hsession⟩)⟩
      · rw [if_neg hsession]
        exact ⟨_, rfl, .asks here hbelow (Bool.eq_false_of_not_eq_true hsession)⟩

theorem effect_of_requestAuthorization {verdict : Verdict} (here : t.stage = .requesting verdict) :
    ∃ stage', (requestAuthorization server a verdict t x).1 = t.to stage' ∧
      Effect server i a t x stage' (requestAuthorization server a verdict t x).2 := by
  unfold requestAuthorization
  by_cases hphone : a.phoneDid = false
  · rw [if_pos hphone]
    exact ⟨_, rfl, .notRequested here (.inl rfl)⟩
  · rw [if_neg hphone]
    dsimp only
    generalize ((getActiveSession server a x).isNone && server.hasClient && a.stored) = creates
    have hopened : Opened (· = a.newKey) x (if creates = true then
        x.setSession a.newKey (createSessionKey server t.amount x.now) else x) := by
      cases creates with
      | false => exact .inl rfl
      | true => exact .inr ⟨_, _, rfl, ⟨rfl, rfl, rfl⟩, rfl⟩
    by_cases hsent : a.sent = false
    · rw [if_pos hsent]
      exact ⟨_, rfl, .notRequested here hopened⟩
    · rw [if_neg hsent]
      exact ⟨_, rfl, .requests here hopened⟩

theorem closed_clearCreated (created : Option Pubkey) : Closed x (clearCreated a created x) := by
  unfold clearCreated
  split
  · split
    · exact .inr ⟨_, rfl⟩
    · exact .inl rfl
  · exact .inl rfl

theorem effect_of_receiveAuthorization {verdict : Verdict} {created : Option Pubkey}
    (here : t.stage = .awaiting verdict created) :
    ∃ stage', (receiveAuthorization server a verdict created t x).1 = t.to stage' ∧
      Effect server i a t x stage' (receiveAuthorization server a verdict created t x).2 := by
  unfold receiveAuthorization
  split
  · next resp hphone =>
    by_cases hauth : resp.authorized = true
    · rw [if_pos hauth]
      unfold startAuthorized
      split
      · next session hsession =>
        refine ⟨_, rfl, .authorized here hphone hauth ?_⟩
        unfold storeAuthSession
        dsimp only
        split
        · exact .inr ⟨_, _, ⟨session, hsession, rfl⟩, ⟨rfl, rfl, rfl⟩, rfl⟩
        · exact .inl rfl
      · exact ⟨_, rfl, .authorized here hphone hauth (.inl rfl)⟩
    · rw [if_neg hauth]
      exact ⟨_, rfl, .declined here (closed_clearCreated created)⟩
  · exact ⟨_, rfl, .declined here (.inl rfl)⟩
  · exact ⟨_, rfl, .declined here (closed_clearCreated created)⟩

theorem effect_of_lockPayment {e : Execution} (here : t.stage = .ready e) (free : x.mutex = none) :
    ∃ stage', (lockPayment i e t x).1 = t.to stage' ∧
      Effect server i a t x stage' (lockPayment i e t x).2 := by
  unfold lockPayment
  by_cases hbalance : checkSessionBalance e.session t.amount = true
  · rw [if_pos hbalance]
    exact ⟨_, rfl, .locks here free (.inr ⟨rfl, hbalance⟩)⟩
  · rw [if_neg hbalance]
    exact ⟨_, rfl, .locks here free (.inl rfl)⟩

theorem effect_of_receiveFunds {e : Execution} (here : t.stage = .funding e) :
    ∃ stage', (receiveFunds a e t x).1 = t.to stage' ∧
      Effect server i a t x stage' (receiveFunds a e t x).2 := by
  have hunpaid : t.stage = .executing e → executePaymentAuto server a e t.amount x.now = none := by
    rw [here]
    intro h
    exact absurd h (by simp)
  unfold receiveFunds
  by_cases hfunded : a.funded = false
  · rw [if_pos hfunded]
    exact ⟨_, rfl, .stops (.inl here) hunpaid⟩
  · rw [if_neg hfunded]
    by_cases hbalance : checkSessionBalance e.session t.amount = true
    · rw [if_pos hbalance]
      exact ⟨_, rfl, .funded here hbalance⟩
    · rw [if_neg hbalance]
      exact ⟨_, rfl, .stops (.inl here) hunpaid⟩

theorem effect_of_execute {e : Execution} (here : t.stage = .executing e) :
    ∃ stage', (execute server i a e t x).1 = t.to stage' ∧
      Effect server i a t x stage' (execute server i a e t x).2 := by
  unfold execute
  rcases hpaid : executePaymentAuto server a e t.amount x.now with _ | _ | _ | k
  · exact ⟨_, rfl, .stops (.inr here) fun _ => hpaid⟩
  · exact ⟨_, rfl, .pays here (by rw [hpaid]; simp)⟩
  · exact ⟨_, rfl, .pays here (by rw [hpaid]; simp)⟩
  · exact ⟨_, rfl, .transfers here hpaid⟩

theorem clientDone_iff (e : Execution) (y : Shared) :
    ∃ stage', (clientDone a e t y).1 = t.to stage' ∧
      ClientDone a e y stage' (clientDone a e t y).2 := by
  unfold clientDone
  by_cases hreplied : a.replied = false
  · rw [if_pos hreplied]
    exact ⟨_, rfl, .stops hreplied⟩
  · rw [if_neg hreplied]
    exact ⟨_, rfl, .goesOn (by simpa using hreplied)⟩

theorem effect_of_clientRead {e : Execution} {k : Pubkey} (here : t.stage = .clientReads e k) :
    ∃ stage', (clientRead a e k t x).1 = t.to stage' ∧
      Effect server i a t x stage' (clientRead a e k t x).2 := by
  unfold clientRead
  by_cases hstored : a.stored = false
  · rw [if_pos hstored]
    exact ⟨_, rfl, .clientFails (.inl here) hstored⟩
  · rw [if_neg hstored]
    rcases hread : x.sessions.lookup k with _ | d
    · obtain ⟨stage', hto, hends⟩ := clientDone_iff (a := a) (t := t) e x
      exact ⟨stage', hto, .clientSkips here hread hends⟩
    · exact ⟨_, rfl, .clientReads here hread⟩

theorem effect_of_clientWrite {e : Execution} {k : Pubkey} {d : SessionTokenData}
    (here : t.stage = .clientWrites e k d) :
    ∃ stage', (clientWrite a e k d t x).1 = t.to stage' ∧
      Effect server i a t x stage' (clientWrite a e k d t x).2 := by
  unfold clientWrite
  by_cases hstored : a.stored = false
  · rw [if_pos hstored]
    exact ⟨_, rfl, .clientFails (.inr ⟨d, here⟩) hstored⟩
  · rw [if_neg hstored]
    obtain ⟨stage', hto, hends⟩ := clientDone_iff (a := a) (t := t) e
      (x.setSession k (d.recordSpent t.amount x.now))
    exact ⟨stage', hto, .clientWrites here hends⟩

theorem effect_of_agentRead {e : Execution} {proof : PaymentProof}
    (here : t.stage = .agentReads e proof) :
    ∃ stage', agentRead server a e proof t x = t.to stage' ∧ Effect server i a t x stage' x := by
  unfold agentRead
  by_cases haccess : server.hasClient = true ∧ a.stored = true
  · simp only [if_pos haccess]
    split
    · next k d hread =>
      obtain ⟨sk, -, hmap⟩ := Option.bind_eq_some_iff.mp hread
      obtain ⟨d', hlookup, hpair⟩ := Option.map_eq_some_iff.mp hmap
      obtain ⟨rfl, rfl⟩ := Prod.mk.inj hpair
      exact ⟨_, rfl, .agentReads here hlookup⟩
    · exact ⟨_, rfl, .agentSkips here⟩
  · simp only [if_neg haccess]
    exact ⟨_, rfl, .agentSkips here⟩

theorem effect_of_agentWrite {e : Execution} {proof : PaymentProof} {k : Pubkey}
    {d : SessionTokenData} (here : t.stage = .agentWrites e proof k d) :
    ∃ stage', (agentWrite a e proof k d t x).1 = t.to stage' ∧
      Effect server i a t x stage' (agentWrite a e proof k d t x).2 := by
  refine ⟨_, rfl, .agentWrites here ?_⟩
  unfold agentWrite
  dsimp only
  split
  · exact .inr rfl
  · exact .inl rfl

theorem effect_of_recordMerchant {e : Execution} {proof : PaymentProof}
    (here : t.stage = .recordingMerchant e proof) :
    ∃ stage', (recordMerchant a e proof t x).1 = t.to stage' ∧
      Effect server i a t x stage' (recordMerchant a e proof t x).2 := by
  have hends : ∃ stage', afterPayment e proof t = t.to stage' ∧
      ((∃ r, stage' = .done r) ∨ ∃ action resp, stage' = .listing proof action resp) := by
    unfold afterPayment
    split
    · split
      · split
        · exact ⟨_, rfl, .inl ⟨_, rfl⟩⟩
        · exact ⟨_, rfl, .inr ⟨_, _, rfl⟩⟩
      · exact ⟨_, rfl, .inl ⟨_, rfl⟩⟩
    · exact ⟨_, rfl, .inl ⟨_, rfl⟩⟩
  obtain ⟨stage', hto, hends⟩ := hends
  exact ⟨stage', hto, .records here hends rfl⟩

theorem effect_of_updateLists {proof : PaymentProof} {action : ListAction} {resp : AuthResponse}
    (here : t.stage = .listing proof action resp) :
    ∃ stage', (updateLists a proof action resp t x).1 = t.to stage' ∧
      Effect server i a t x stage' (updateLists a proof action resp t x).2 := by
  refine ⟨_, rfl, ?_⟩
  unfold updateLists
  dsimp only
  split
  · refine .listed here ?_
    cases action <;> rfl
  · exact .listed here rfl

/-- Every section has the effect that is listed for its stage. -/
theorem effect_of_next (h : t.next server i a x = .ok (t', x')) :
    ∃ stage', t' = t.to stage' ∧ Effect server i a t x stage' x' := by
  -- A section gives the task and the shared state as a pair.
  have hpair : ∀ {r : Task × Shared} {R : Stage → Shared → Prop},
      (∃ stage', r.1 = t.to stage' ∧ R stage' r.2) → (.ok r : Except Unit _) = .ok (t', x') →
        ∃ stage', t' = t.to stage' ∧ R stage' x' := by
    rintro r R hr hok
    obtain rfl := Except.ok.inj hok
    exact hr
  unfold Task.next at h
  split at h
  · next here => exact hpair (effect_of_checkRisk here) h
  · next here => exact hpair (effect_of_choosePath here) h
  · next here => exact hpair ⟨_, rfl, .scans here⟩ h
  · next here => exact hpair (effect_of_requestAuthorization here) h
  · next here => exact hpair (effect_of_receiveAuthorization here) h
  · next here =>
    split at h
    · next free => exact hpair (effect_of_lockPayment here free) h
    · exact absurd h (by simp)
  · next here => exact hpair (effect_of_receiveFunds here) h
  · next here => exact hpair (effect_of_execute here) h
  · next here => exact hpair (effect_of_clientRead here) h
  · next here => exact hpair (effect_of_clientWrite here) h
  · next here => exact hpair (effect_of_agentRead here) h
  · next here => exact hpair (effect_of_agentWrite here) h
  · next here => exact hpair (effect_of_recordMerchant here) h
  · next here => exact hpair (effect_of_updateLists here) h
  · exact absurd h (by simp)

end

/-! ### Turns, and the mutex -/

namespace Stage

/-- The task is in `execute_payment_atomic`, with the mutex. -/
def locked : Stage → Bool
  | .funding _ | .executing _ | .clientReads _ _ | .clientWrites _ _ _ | .agentReads _ _
  | .agentWrites _ _ _ _ | .recordingMerchant _ _ => true
  | _ => false

/-- The payment has been made, and not yet been recorded for the merchant. -/
def paid : Stage → Bool
  | .clientReads _ _ | .clientWrites _ _ _ | .agentReads _ _ | .agentWrites _ _ _ _
  | .recordingMerchant _ _ => true
  | _ => false

end Stage

/-- The mutex is with the task that is in `execute_payment_atomic`, if there is one. -/
def Exclusive (s : World) : Prop := ∀ i, (s.tasks i).stage.locked = true ↔ s.shared.mutex = some i

section

variable {server : Server} {i : ℕ} {a : Answer} {t : Task} {x x' : Shared} {stage' : Stage}

/-- A section keeps the mutex, takes it or releases it. -/
theorem Effect.mutex (h : Effect server i a t x stage' x') :
    (x'.mutex = x.mutex ∧ stage'.locked = t.stage.locked) ∨
    (x.mutex = none ∧ x'.mutex = some i ∧ t.stage.locked = false ∧ stage'.locked = true) ∨
    (x'.mutex = none ∧ t.stage.locked = true ∧ stage'.locked = false) := by
  cases h with
  | blocks here | checks here | approves here | bypasses here | asks here | scans here | funded here
  | pays here | transfers here | clientReads here | agentReads here | agentSkips here | listed here =>
    exact .inl ⟨rfl, by rw [here]; rfl⟩
  | requests here opened | notRequested here opened | authorized here _ _ opened =>
    exact .inl ⟨opened.same.1, by rw [here]; rfl⟩
  | declined here closed => exact .inl ⟨closed.same.1, by rw [here]; rfl⟩
  | locks here free next =>
    rcases next with rfl | ⟨rfl, -⟩
    · exact .inr (.inl ⟨free, rfl, by rw [here]; rfl, rfl⟩)
    · exact .inr (.inl ⟨free, rfl, by rw [here]; rfl, rfl⟩)
  | stops here =>
    rcases here with here | here <;> exact .inr (.inr ⟨rfl, by rw [here]; rfl, rfl⟩)
  | clientFails here =>
    rcases here with here | ⟨d, here⟩ <;> exact .inr (.inr ⟨rfl, by rw [here]; rfl, rfl⟩)
  | clientSkips here _ ends | clientWrites here ends =>
    cases ends with
    | goesOn => exact .inl ⟨rfl, by rw [here]; rfl⟩
    | stops => exact .inr (.inr ⟨rfl, by rw [here]; rfl, rfl⟩)
  | agentWrites here left =>
    rcases left with rfl | rfl <;> exact .inl ⟨rfl, by rw [here]; rfl⟩
  | records here ends =>
    refine .inr (.inr ⟨rfl, by rw [here]; rfl, ?_⟩)
    rcases ends with ⟨r, rfl⟩ | ⟨action, resp, rfl⟩ <;> rfl

variable {s s₀ s' : World} {ev : Event} {h : List (World × Event)}

/-- What an event does to the world. -/
inductive Turned (server : Server) (s : World) : Event → World → Prop
  | runs {i : ℕ} {a : Answer} {stage' : Stage} {x' : Shared}
      (effect : Effect server i a (s.tasks i) s.shared stage' x') :
      Turned server s (.runs i a) ⟨x', Function.update s.tasks i ((s.tasks i).to stage')⟩
  | ticks {now : ℕ} : Turned server s (.ticks now) ⟨{ s.shared with now }, s.tasks⟩

theorem turned_of_exec (h : exec server ev s = .ok s') : Turned server s ev s' := by
  cases ev with
  | runs i a =>
    obtain ⟨t', x', hnext, rfl⟩ := System.turn_eq_ok.mp h
    obtain ⟨stage', rfl, effect⟩ := effect_of_next hnext
    exact .runs effect
  | ticks now =>
    obtain rfl := Except.ok.inj h
    exact .ticks

theorem Exclusive.of_exec (hs : Exclusive s) (h : exec server ev s = .ok s') : Exclusive s' := by
  cases turned_of_exec h with
  | ticks => exact hs
  | @runs i a stage' x' effect =>
    intro j
    have hi := hs i
    have hj := hs j
    by_cases hji : j = i
    · subst hji
      show (Function.update s.tasks j ((s.tasks j).to stage') j).stage.locked = true
        ↔ x'.mutex = some j
      rw [Function.update_self]
      show stage'.locked = true ↔ x'.mutex = some j
      rcases effect.mutex with ⟨hmutex, hstage⟩ | ⟨-, hmutex, -, hstage⟩ | ⟨hmutex, -, hstage⟩
      · rw [hstage, hmutex]
        exact hj
      · simp [hstage, hmutex]
      · simp [hstage, hmutex]
    · show (Function.update s.tasks i ((s.tasks i).to stage') j).stage.locked = true
        ↔ x'.mutex = some j
      rw [Function.update_of_ne hji, hj]
      rcases effect.mutex with ⟨hmutex, -⟩ | ⟨hfree, hmutex, -⟩ | ⟨hmutex, hlocked, -⟩
      · rw [hmutex]
      · simp [hfree, hmutex, Ne.symm hji]
      · simp [hmutex, hi.mp hlocked, Ne.symm hji]

/-- What the task that holds the mutex has, or else `z`. -/
def heldBy {α : Type} (z : α) (f : Task → α) (s : World) : α :=
  s.shared.mutex.elim z fun i => f (s.tasks i)

theorem heldBy_of_free {α : Type} {z : α} {f : Task → α} (h : s.shared.mutex = none) :
    heldBy z f s = z := by
  rw [heldBy, h]
  rfl

theorem heldBy_of_holder {α : Type} {z : α} {f : Task → α} (h : s.shared.mutex = some i) :
    heldBy z f s = f (s.tasks i) := by
  rw [heldBy, h]
  rfl

/-- Where only a task that holds the mutex has anything, the turn of a task changes what is held as it
changes what the task has. -/
theorem heldBy_of_turn {α : Type} {z : α} {f : Task → α}
    (hz : ∀ t : Task, t.stage.locked = false → f t = z) (hs : Exclusive s)
    (effect : Effect server i a (s.tasks i) s.shared stage' x') :
    (heldBy z f s = f (s.tasks i) ∧
      heldBy z f ⟨x', Function.update s.tasks i ((s.tasks i).to stage')⟩
        = f ((s.tasks i).to stage')) ∨
    ((s.tasks i).stage.locked = false ∧ stage'.locked = false ∧
      heldBy z f ⟨x', Function.update s.tasks i ((s.tasks i).to stage')⟩ = heldBy z f s) := by
  have hself : (Function.update s.tasks i ((s.tasks i).to stage')) i = (s.tasks i).to stage' :=
    Function.update_self ..
  have hi := hs i
  rcases effect.mutex with ⟨hmutex, hlocked⟩ | ⟨hfree, hmutex, hlocked, -⟩ | ⟨hmutex, hlocked, hlocked'⟩
  · by_cases hheld : s.shared.mutex = some i
    · exact .inl ⟨heldBy_of_holder hheld, (heldBy_of_holder (hmutex.trans hheld)).trans (congrArg f hself)⟩
    · have hunlocked : (s.tasks i).stage.locked = false := by
        by_contra h
        exact hheld (hi.mp (by simpa using h))
      refine .inr ⟨hunlocked, hlocked.trans hunlocked, ?_⟩
      rw [heldBy, heldBy, hmutex]
      rcases hholder : s.shared.mutex with _ | j
      · rfl
      · have hji : j ≠ i := by
          rintro rfl
          exact hheld hholder
        show f (Function.update s.tasks i ((s.tasks i).to stage') j) = f (s.tasks j)
        rw [Function.update_of_ne hji]
  · exact .inl ⟨(heldBy_of_free hfree).trans (hz _ hlocked).symm,
      (heldBy_of_holder hmutex).trans (congrArg f hself)⟩
  · exact .inl ⟨heldBy_of_holder (hi.mp hlocked), (heldBy_of_free hmutex).trans (hz _ hlocked').symm⟩

/-- Before any payment: no task is in `execute_payment_atomic`. -/
structure Idle (s : World) : Prop where
  outside : ∀ i, (s.tasks i).stage.locked = false
  free : s.shared.mutex = none
  payments_eq : s.shared.payments = []

theorem Idle.exclusive (h : Idle s₀) : Exclusive s₀ := by
  intro i
  rw [h.outside i, h.free]
  simp

end

namespace Sample

open Bytes

def merchant : String := "did:ignite:zMerchant1"

/-- Nothing is paid without asking but for the lists and the sessions. -/
def server : Server := ⟨0, fill 32 1, true⟩

/-- Everything goes through, and payments go out as vouchers. -/
def answer : Answer where
  lists := ⟨true, true, true⟩
  stored := true
  phoneDid := true
  sent := true
  newKey := fill 32 2
  phone := .timeout
  funded := false
  voucher := true
  confirmed := true
  replied := true

/-- A merchant that is whitelisted with 100 asks for the amount in every challenge. -/
def challenges (spent : Store.Map String UInt64) (sessions : SessionStore) (amount : UInt64) :
    World where
  shared := {
    lists := {
      whitelist := (∅ : Store.Map String MerchantListEntry).insert merchant ⟨some 100, none, none⟩
      blacklist := ∅
      merchantSpending := spent }
    sessions
    now := 1000
    mutex := none
    payments := [] }
  tasks := fun _ => ⟨merchant, amount, .arrived⟩

def turns (l : List (ℕ × Answer)) : List Event := l.map fun e => .runs e.1 e.2

theorem idle_challenges (spent : Store.Map String UInt64) (sessions : SessionStore)
    (amount : UInt64) : Idle (challenges spent sessions amount) :=
  ⟨fun _ => rfl, rfl, rfl⟩

end Sample

end Agent
