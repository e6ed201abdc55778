/-
What becomes of a challenge.

However the tasks of the agent are interleaved, a task pays at most once, and its result says
whether it has: a success and a payment that could not be recorded have paid once, the amount and
the merchant that they were asked for, and everything else has paid nothing.  A task has at most
thirteen turns, and whatever the phone, the chain and the stores answer, it comes to a result: the
only thing that a task waits for is the payment mutex, and every way out of it gives it back.

* `payment_of_next` — a section pays only where the stage says so afterwards;
* `results_truthful` — the payments of every task, in every state of a run;
* `oneLock` — the mutex is the only thing that tasks wait for;
* `challenges_end` — every task comes to its result, within its turns.
-/
import IgnitePay.Agent.Spec

namespace Agent

open Machine Solana

/-! ### What a stage says was paid -/

/-- Whether something was paid, and then whether it was paid from a session. -/
def X402Result.paid : X402Result → Option Bool
  | .success proof => some (decide (proof = .txSignature))
  | .error .notRecorded | .error .noSignature => some true
  | .rejected _ | .error _ => none

/-- The same of a task that is at the stage. -/
def Stage.payment : Stage → Option Bool
  | .clientReads _ _ | .clientWrites _ _ _ => some true
  | .agentReads _ proof | .agentWrites _ proof _ _ | .recordingMerchant _ proof
  | .listing proof _ _ =>
    some (decide (proof = .txSignature))
  | .done result => result.paid
  | _ => none

/-- The payments of a task are what its stage says: none, or one of what was asked for. -/
def Told (t : Task) (payments : List Payment) : Prop :=
  match t.stage.payment with
  | none => payments = []
  | some fromSession => ∃ p, payments = [p] ∧ p.merchantDid = t.merchantDid ∧ p.amount = t.amount ∧
      p.session.isSome = fromSession

def Shared.paymentsOf (x : Shared) (i : ℕ) : List Payment :=
  x.payments.filter fun p => p.task = i

/-- Before anything has happened. -/
structure Fresh (s : World) : Prop where
  waiting : ∀ i, (s.tasks i).stage = .arrived ∨ ∃ method, (s.tasks i).stage = .scanned method
  free : s.shared.mutex = none
  payments_eq : s.shared.payments = []

section

variable {server : Server} {i : ℕ} {a : Answer} {t t' : Task} {x x' : Shared} {e : Execution}

/-! ### What a section pays -/

/-- A section pays nothing, and then the stage says what it said, or it pays what the stage says. -/
def PaysAsTold (i : ℕ) (t : Task) (x : Shared) (t' : Task) (x' : Shared) : Prop :=
  (x'.payments = x.payments ∧ t'.stage.payment = t.stage.payment) ∨
    ∃ e session, x' = pay i e session t x ∧ t.stage.payment = none ∧
      t'.stage.payment = some session.isSome

theorem payment_checkRisk : (checkRisk a t x).stage.payment = none := by
  unfold checkRisk
  split <;> rfl

theorem payment_choosePath (verdict : Verdict) :
    (choosePath server a verdict t x).stage.payment = none := by
  unfold choosePath
  dsimp only
  split
  · rfl
  · split
    · rfl
    · split <;> rfl

theorem payment_requestAuthorization (verdict : Verdict) :
    (requestAuthorization server a verdict t x).1.stage.payment = none ∧
      (requestAuthorization server a verdict t x).2.payments = x.payments := by
  unfold requestAuthorization
  split
  · exact ⟨rfl, rfl⟩
  · dsimp only
    generalize ((getActiveSession server a x).isNone && server.hasClient && a.stored) = creates
    have hsame : (if creates = true then
        x.setSession a.newKey (createSessionKey server t.amount x.now) else x).payments =
          x.payments := by
      cases creates <;> rfl
    split <;> exact ⟨rfl, hsame⟩

theorem payment_receiveAuthorization (verdict : Verdict) (created : Option Pubkey) :
    (receiveAuthorization server a verdict created t x).1.stage.payment = none ∧
      (receiveAuthorization server a verdict created t x).2.payments = x.payments := by
  have hclear : (clearCreated a created x).payments = x.payments :=
    (closed_clearCreated created).same.2.1
  unfold receiveAuthorization
  split
  · split
    · unfold startAuthorized storeAuthSession
      split
      · refine ⟨rfl, ?_⟩
        dsimp only
        split <;> rfl
      · exact ⟨rfl, rfl⟩
    · exact ⟨rfl, hclear⟩
  · exact ⟨rfl, rfl⟩
  · exact ⟨rfl, hclear⟩

theorem payment_lockPayment :
    (lockPayment i e t x).1.stage.payment = none ∧
      (lockPayment i e t x).2.payments = x.payments := by
  unfold lockPayment
  split <;> exact ⟨rfl, rfl⟩

theorem payment_receiveFunds :
    (receiveFunds a e t x).1.stage.payment = none ∧
      (receiveFunds a e t x).2.payments = x.payments := by
  unfold receiveFunds
  split
  · exact ⟨rfl, rfl⟩
  · split <;> exact ⟨rfl, rfl⟩

theorem payment_clientDone (y : Shared) :
    (clientDone a e t y).1.stage.payment = some true ∧
      (clientDone a e t y).2.payments = y.payments := by
  unfold clientDone
  split <;> exact ⟨rfl, rfl⟩

theorem payment_clientRead (k : Pubkey) :
    (clientRead a e k t x).1.stage.payment = some true ∧
      (clientRead a e k t x).2.payments = x.payments := by
  unfold clientRead
  split
  · exact ⟨rfl, rfl⟩
  · split
    · exact ⟨rfl, rfl⟩
    · exact payment_clientDone x

theorem payment_clientWrite (k : Pubkey) (d : SessionTokenData) :
    (clientWrite a e k d t x).1.stage.payment = some true ∧
      (clientWrite a e k d t x).2.payments = x.payments := by
  unfold clientWrite
  split
  · exact ⟨rfl, rfl⟩
  · exact payment_clientDone (x.setSession k (d.recordSpent t.amount x.now))

theorem payment_agentRead (proof : PaymentProof) :
    (agentRead server a e proof t x).stage.payment = some (decide (proof = .txSignature)) := by
  unfold agentRead
  dsimp only
  split <;> rfl

theorem payment_agentWrite (proof : PaymentProof) (k : Pubkey) (d : SessionTokenData) :
    (agentWrite a e proof k d t x).1.stage.payment = some (decide (proof = .txSignature)) ∧
      (agentWrite a e proof k d t x).2.payments = x.payments := by
  unfold agentWrite
  refine ⟨rfl, ?_⟩
  dsimp only
  split <;> rfl

theorem payment_recordMerchant (proof : PaymentProof) :
    (recordMerchant a e proof t x).1.stage.payment = some (decide (proof = .txSignature)) ∧
      (recordMerchant a e proof t x).2.payments = x.payments := by
  refine ⟨?_, rfl⟩
  show (afterPayment e proof t).stage.payment = _
  unfold afterPayment
  split
  · split
    · split <;> rfl
    · rfl
  · rfl

theorem payment_updateLists (proof : PaymentProof) (action : ListAction) (resp : AuthResponse) :
    (updateLists a proof action resp t x).1.stage.payment = some (decide (proof = .txSignature)) ∧
      (updateLists a proof action resp t x).2.payments = x.payments := by
  unfold updateLists
  refine ⟨rfl, ?_⟩
  dsimp only
  split <;> rfl

theorem paysAsTold_execute (here : t.stage = .executing e) :
    PaysAsTold i t x (execute server i a e t x).1 (execute server i a e t x).2 := by
  have hnone : t.stage.payment = none := by
    rw [here]
    rfl
  unfold execute
  rcases executePaymentAuto server a e t.amount x.now with _ | _ | _ | k
  · exact .inl ⟨rfl, hnone.symm⟩
  · exact .inr ⟨e, none, rfl, hnone, rfl⟩
  · exact .inr ⟨e, none, rfl, hnone, rfl⟩
  · exact .inr ⟨e, some k, rfl, hnone, rfl⟩

/-- A section pays only where the stage says so afterwards. -/
theorem payment_of_next (h : t.next server i a x = .ok (t', x')) : PaysAsTold i t x t' x' := by
  -- All sections but one pay nothing and leave what the stage says.
  have quiet : ∀ {r : Task × Shared} {said : Option Bool}, t.stage.payment = said →
      r.1.stage.payment = said ∧ r.2.payments = x.payments →
        (.ok r : Except Unit _) = .ok (t', x') → PaysAsTold i t x t' x' := by
    rintro r said hsaid ⟨hstage, hpayments⟩ hok
    obtain rfl := Except.ok.inj hok
    exact .inl ⟨hpayments, hstage.trans hsaid.symm⟩
  unfold Task.next at h
  split at h
  · next here => exact quiet (by rw [here]; rfl) ⟨payment_checkRisk, rfl⟩ h
  · next verdict here => exact quiet (by rw [here]; rfl) ⟨payment_choosePath verdict, rfl⟩ h
  · next here => exact quiet (by rw [here]; rfl) ⟨rfl, rfl⟩ h
  · next verdict here => exact quiet (by rw [here]; rfl) (payment_requestAuthorization verdict) h
  · next verdict created here =>
    exact quiet (by rw [here]; rfl) (payment_receiveAuthorization verdict created) h
  · next here =>
    split at h
    · exact quiet (by rw [here]; rfl) payment_lockPayment h
    · exact absurd h (by simp)
  · next here => exact quiet (by rw [here]; rfl) payment_receiveFunds h
  · next here =>
    have hpays : PaysAsTold i t x (execute server i a _ t x).1 (execute server i a _ t x).2 :=
      paysAsTold_execute here
    have hpair := Except.ok.inj h
    rw [hpair] at hpays
    exact hpays
  · next k here => exact quiet (by rw [here]; rfl) (payment_clientRead k) h
  · next k d here => exact quiet (by rw [here]; rfl) (payment_clientWrite k d) h
  · next proof here => exact quiet (by rw [here]; rfl) ⟨payment_agentRead proof, rfl⟩ h
  · next proof k d here => exact quiet (by rw [here]; rfl) (payment_agentWrite proof k d) h
  · next proof here => exact quiet (by rw [here]; rfl) (payment_recordMerchant proof) h
  · next proof action resp here =>
    exact quiet (by rw [here]; rfl) (payment_updateLists proof action resp) h
  · exact absurd h (by simp)

/-! ### Runs -/

variable {s s₀ s' : World} {ev : Event} {h : List (World × Event)}

theorem told_congr {payments : List Payment} {stage' : Stage} (ht : Told t payments)
    (hsame : stage'.payment = t.stage.payment) : Told (t.to stage') payments := by
  unfold Told at ht ⊢
  rw [show (t.to stage').stage.payment = t.stage.payment from hsame]
  exact ht

/-- A turn of task `i` pays for task `i` only, and its stage tells. -/
theorem told_of_exec (hs : ∀ i, Told (s.tasks i) (s.shared.paymentsOf i))
    (hok : exec server ev s = .ok s') : ∀ i, Told (s'.tasks i) (s'.shared.paymentsOf i) := by
  cases ev with
  | ticks now =>
    obtain rfl := Except.ok.inj hok
    exact hs
  | runs i a =>
    obtain ⟨t', x', hnext, rfl⟩ := System.turn_eq_ok.mp hok
    obtain ⟨stage', rfl, -⟩ := effect_of_next hnext
    intro j
    by_cases hji : j = i
    · subst hji
      show Told (Function.update s.tasks j ((s.tasks j).to stage') j) (x'.paymentsOf j)
      rw [Function.update_self]
      rcases payment_of_next hnext with ⟨hpayments, hstage⟩ | ⟨e, session, rfl, hbefore, hafter⟩
      · rw [Shared.paymentsOf, hpayments]
        exact told_congr (hs j) hstage
      · have hnone := hs j
        unfold Told at hnone ⊢
        rw [hbefore] at hnone
        rw [hafter]
        have hnil : s.shared.paymentsOf j = [] := hnone
        have hown : decide ((paymentOf j e session (s.tasks j) s.shared).task = j) = true :=
          decide_eq_true rfl
        have hcons : (pay j e session (s.tasks j) s.shared).paymentsOf j =
            paymentOf j e session (s.tasks j) s.shared :: s.shared.paymentsOf j :=
          List.filter_cons_of_pos hown
        rw [hnil] at hcons
        exact ⟨paymentOf j e session (s.tasks j) s.shared, hcons, rfl, rfl, rfl⟩
    · show Told (Function.update s.tasks i ((s.tasks i).to stage') j) (x'.paymentsOf j)
      rw [Function.update_of_ne hji]
      have hsame : x'.paymentsOf j = s.shared.paymentsOf j := by
        rcases payment_of_next hnext with ⟨hpayments, -⟩ | ⟨e, session, rfl, -⟩
        · rw [Shared.paymentsOf, hpayments]
          rfl
        · have hother : ¬ decide ((paymentOf i e session (s.tasks i) s.shared).task = j) = true :=
            fun hj => hji (of_decide_eq_true hj).symm
          exact List.filter_cons_of_neg hother
      rw [hsame]
      exact hs j

theorem Fresh.told (hfresh : Fresh s₀) (i : ℕ) : Told (s₀.tasks i) (s₀.shared.paymentsOf i) := by
  unfold Told
  rw [Shared.paymentsOf, hfresh.payments_eq]
  rcases hfresh.waiting i with here | ⟨method, here⟩ <;> rw [here] <;> rfl

namespace Sample

/-- Nothing is recorded and there are no sessions; every challenge asks for 60. -/
def unspent : World := challenges ∅ ∅ 60

theorem fresh_unspent : Fresh unspent := ⟨fun _ => .inl rfl, rfl, rfl⟩

/-- The first challenge is paid, the second has the mutex. -/
def firstPaid : List Event := turns ([1, 1, 0, 0, 0, 0, 0, 0, 1].map (·, answer))

theorem reached_firstPaid : ∃ h s, Run (exec Sample.server) unspent h s ∧
    h.map Prod.snd = firstPaid.reverse ∧
    ((s.tasks 0).stage.payment, (s.tasks 1).stage.payment, s.shared.mutex)
      = (some false, none, some 1) :=
  Run.exists_of_test (by decide +kernel)

end Sample

/-- How many turns a task has left at most. -/
def Stage.rank : Stage → ℕ
  | .arrived => 13
  | .checked _ | .scanned _ => 12
  | .requesting _ => 11
  | .awaiting _ _ => 10
  | .ready _ => 9
  | .funding _ => 8
  | .executing _ => 7
  | .clientReads _ _ => 6
  | .clientWrites _ _ _ => 5
  | .agentReads _ _ => 4
  | .agentWrites _ _ _ _ => 3
  | .recordingMerchant _ _ => 2
  | .listing _ _ _ => 1
  | .done _ => 0

theorem done_of_rank {stage : Stage} (h : stage.rank = 0) : ∃ result, stage = .done result := by
  cases stage with
  | done result => exact ⟨result, rfl⟩
  | _ => exact absurd h (by simp [Stage.rank])

/-- A task that has the mutex is not done. -/
theorem rank_pos_of_locked {stage : Stage} (h : stage.locked = true) : 0 < stage.rank := by
  cases stage with
  | done result => exact absurd h (by simp [Stage.locked])
  | _ => simp [Stage.rank]

/-- Every turn is one less. -/
theorem rank_of_effect {stage' : Stage} (h : Effect server i a t x stage' x') :
    stage'.rank < t.stage.rank := by
  cases h with
  | blocks here | checks here | approves here | bypasses here | asks here | scans here | funded here
  | pays here | transfers here | clientReads here | agentReads here | agentSkips here | listed here
  | requests here | notRequested here | authorized here | declined here | agentWrites here =>
    rw [here]
    simp [Stage.rank]
  | locks here _ next =>
    rw [here]
    rcases next with rfl | ⟨rfl, -⟩ <;> simp [Stage.rank]
  | stops here => rcases here with here | here <;> rw [here] <;> simp [Stage.rank]
  | clientFails here => rcases here with here | ⟨d, here⟩ <;> rw [here] <;> simp [Stage.rank]
  | clientSkips here _ ends | clientWrites here ends =>
    rw [here]
    cases ends <;> simp [Stage.rank]
  | records here ends =>
    rw [here]
    rcases ends with ⟨r, rfl⟩ | ⟨action, resp, rfl⟩ <;> simp [Stage.rank]

/-- The task at the turn. -/
def Event.task : Event → Option ℕ
  | .runs i _ => some i
  | .ticks _ => none

/-- A turn of task `i` is one less for it, and nothing for the others. -/
theorem rank_of_exec (hok : exec server ev s = .ok s') (i : ℕ) :
    (s'.tasks i).stage.rank + (decide (ev.task = some i)).toNat ≤ (s.tasks i).stage.rank := by
  cases turned_of_exec hok with
  | ticks => exact Nat.le_refl _
  | @runs j a stage' x' effect =>
    by_cases hij : i = j
    · subst hij
      have hlt := rank_of_effect effect
      show (Function.update s.tasks i ((s.tasks i).to stage') i).stage.rank + _ ≤ _
      rw [Function.update_self]
      have hone : (decide (Event.task (.runs i a) = some i)).toNat = 1 := by simp [Event.task]
      rw [hone]
      exact hlt
    · show (Function.update s.tasks j ((s.tasks j).to stage') i).stage.rank + _ ≤ _
      rw [Function.update_of_ne hij]
      have hzero : (decide (Event.task (.runs j a) = some i)).toNat = 0 := by
        simp [Event.task, Ne.symm hij]
      rw [hzero]
      exact Nat.le_refl _

/-- A task that is not done has a turn, unless it waits for the mutex and that is taken. -/
theorem next_of_rank_pos (hrank : 0 < t.stage.rank)
    (hmutex : ∀ e, t.stage = .ready e → x.mutex = none) :
    ∃ r, t.next server i a x = .ok r := by
  unfold Task.next
  split
  case h_6 e here => exact ⟨_, if_pos (hmutex e here)⟩
  case h_15 here =>
    rw [here] at hrank
    exact absurd hrank (by simp [Stage.rank])
  all_goals exact ⟨_, rfl⟩

theorem turn_of_rank_pos (hrank : 0 < (s.tasks i).stage.rank)
    (hmutex : ∀ e, (s.tasks i).stage = .ready e → s.shared.mutex = none) :
    ∃ s', exec server (.runs i a) s = .ok s' := by
  have hnext : ∃ r, (s.tasks i).next server i a s.shared = .ok r := next_of_rank_pos hrank hmutex
  obtain ⟨⟨t', x'⟩, hnext⟩ := hnext
  exact ⟨_, System.turn_of_next hnext⟩

/-- Tasks wait for nothing but the mutex, and who has it gives it back; `answers` says what a task is
answered in a state. -/
theorem oneLock (server : Server) (answers : World → ℕ → Answer) :
    OneLock (exec server) (fun s i => .runs i (answers s i)) (fun s i => (s.tasks i).stage.rank)
      (fun s => s.shared.mutex) Exclusive where
  keeps s i s' hs hok := hs.of_exec hok
  sinks s i s' hok := by
    have hlt := rank_of_exec hok i
    have hone : (decide (Event.task (.runs i (answers s i)) = some i)).toNat = 1 := by
      simp [Event.task]
    rw [hone] at hlt
    exact hlt
  others s i s' j hok hji := by
    obtain ⟨t', x', -, rfl⟩ := System.turn_eq_ok.mp hok
    show (Function.update s.tasks i t' j).stage.rank = _
    rw [Function.update_of_ne hji]
  moves s i hs hrank := by
    rcases hmutex : s.shared.mutex with _ | j
    · exact .inl (turn_of_rank_pos hrank fun _ _ => hmutex)
    · by_cases hready : ∃ e, (s.tasks i).stage = .ready e
      · refine .inr ⟨j, ?_, rfl⟩
        rintro rfl
        obtain ⟨e, here⟩ := hready
        have hlocked := (hs j).mpr hmutex
        rw [here] at hlocked
        exact absurd hlocked (by simp [Stage.locked])
      · exact .inl (turn_of_rank_pos hrank fun e here => absurd ⟨e, here⟩ hready)
  holds s j hs hholder := by
    have hlocked := (hs j).mpr hholder
    refine turn_of_rank_pos (rank_pos_of_locked hlocked) fun e here => ?_
    rw [here] at hlocked
    exact absurd hlocked (by simp [Stage.locked])
  releases s j s' hs hholder hok := by
    obtain ⟨t', x', hnext, rfl⟩ := System.turn_eq_ok.mp hok
    obtain ⟨stage', rfl, effect⟩ := effect_of_next hnext
    rcases effect.mutex with ⟨hmutex, -⟩ | ⟨hfree, -⟩ | ⟨hmutex, -⟩
    · exact .inl (hmutex.trans hholder)
    · rw [hholder] at hfree
      exact absurd hfree (by simp)
    · exact .inr hmutex

theorem Fresh.exclusive (hfresh : Fresh s₀) : Exclusive s₀ := by
  intro i
  rw [hfresh.free]
  rcases hfresh.waiting i with here | ⟨method, here⟩ <;> rw [here] <;> simp [Stage.locked]

theorem rank_le (stage : Stage) : stage.rank ≤ 13 := by
  cases stage <;> simp [Stage.rank]

/-- A task has at most thirteen turns in a run, and from every state of a run it comes to its result,
whatever all tasks are answered, and does not keep the mutex. -/
theorem challenges_end (hfresh : Fresh s₀) (hrun : Run (exec server) s₀ h s) (i : ℕ)
    (answers : World → ℕ → Answer) :
    h.countP (fun p => decide (p.2.task = some i)) ≤ 13 ∧
      ∃ s' result, OneLock.Reaches (exec server) (fun s i => .runs i (answers s i)) s s' ∧
        (s'.tasks i).stage = .done result ∧ s'.shared.mutex ≠ some i := by
  constructor
  · have hcount : h.countP (fun p => decide (p.2.task = some i)) + (s.tasks i).stage.rank ≤
        (s₀.tasks i).stage.rank :=
      @count_add_le World Event Unit (exec server) s₀ s (fun p => decide (p.2.task = some i))
        (fun s => (s.tasks i).stage.rank) (fun s ev s' hok => rank_of_exec hok i) h hrun
    have hle := rank_le (s₀.tasks i).stage
    omega
  · have hexclusive : Exclusive s :=
      hrun.invariant (P := Exclusive) hfresh.exclusive fun _ _ _ hs hok => hs.of_exec hok
    obtain ⟨s', hreach, hs', hend⟩ := (oneLock server answers).ends hexclusive i
    obtain ⟨result, hdone⟩ := done_of_rank hend
    refine ⟨s', result, hreach, hdone, fun hmutex => ?_⟩
    have hlocked := (hs' i).mpr hmutex
    rw [hdone] at hlocked
    exact absurd hlocked (by simp [Stage.locked])

theorem challenges_end_waiting : ∃ h s, Run (exec Sample.server) Sample.unspent h s ∧
    h.map Prod.snd = Sample.firstPaid.reverse ∧
    h.countP (fun p => decide (p.2.task = some 2)) ≤ 13 ∧
      ∃ s' result, OneLock.Reaches (exec Sample.server) (fun _ i => .runs i Sample.answer) s s' ∧
        (s'.tasks 2).stage = .done result ∧ s'.shared.mutex ≠ some 2 := by
  obtain ⟨h, s, hrun, hcalls, -⟩ := Sample.reached_firstPaid
  exact ⟨h, s, hrun, hcalls, challenges_end Sample.fresh_unspent hrun 2 fun _ _ => Sample.answer⟩

end

end Agent
