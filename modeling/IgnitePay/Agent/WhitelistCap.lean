/-
The cap of a whitelisted merchant.

The risk check compares the recorded amount of a merchant with the cap of its entry; a payment is
executed under the mutex, but the check is not made again there.  What is recorded is added up under
the mutex, and never loses a payment that was executed, as long as the records can be written.

* `Effect.accounted` — what a section adds to the payments and to the record;
* `accounted_of_run` — the record is the sum of the payments, but for the one under way;
* `cap_kept_iff` — the cap is kept exactly if it is, by the record, whenever a payment is executed;
* `cap_exceeded` — two challenges that are checked one after the other, and then both paid.
-/
import IgnitePay.Agent.Spec

namespace Agent

open Bytes Machine Solana

/-! ### What is paid, and what is recorded -/

/-- The payments for a merchant on the verdict of the whitelist. -/
def approvedAt (m : String) (payments : List Payment) : ℕ :=
  ((payments.filter fun p => decide (p.merchantDid = m ∧ p.path = .whitelist)).map
    fun p => p.amount.toNat).sum

/-- The recorded cumulative amount. -/
def recordedAt (m : String) (x : Shared) : ℕ := ((x.lists.merchantSpending.lookup m).getD 0).toNat

/-- The amount that a section pays for the merchant. -/
def Task.pays (server : Server) (m : String) (a : Answer) (x : Shared) (t : Task) : Option UInt64 :=
  match t.stage with
  | .executing e =>
    if t.merchantDid = m ∧ (executePaymentAuto server a e t.amount x.now).isSome then some t.amount
    else none
  | _ => none

/-- The amount that an event pays for the merchant. -/
def paidBy (server : Server) (m : String) (s : World) : Event → Option UInt64
  | .runs i a => (s.tasks i).pays server m a s.shared
  | .ticks _ => none

/-- A section for the merchant that executes a payment does so on the verdict of the whitelist, and
one that comes after does not give up before the payment is recorded. -/
def Task.orderly (server : Server) (m : String) (a : Answer) (x : Shared) (t : Task) : Bool :=
  match t.stage with
  | .executing e => decide ((t.pays server m a x).isSome → e.path = .whitelist)
  | .clientReads _ _ | .clientWrites _ _ _ =>
    decide (t.merchantDid = m → a.stored = true ∧ a.replied = true)
  | .recordingMerchant _ _ => decide (t.merchantDid = m → a.stored = true)
  | _ => true

def orderly (server : Server) (m : String) (s : World) : Event → Bool
  | .runs i a => (s.tasks i).orderly server m a s.shared
  | .ticks _ => true

/-- What a task has paid for the merchant and not yet recorded. -/
def Task.unrecorded (m : String) (t : Task) : ℕ :=
  if t.stage.paid = true ∧ t.merchantDid = m then t.amount.toNat else 0

/-- Only the task that holds the mutex has paid something that is not recorded. -/
def unrecorded (m : String) (s : World) : ℕ :=
  heldBy 0 (Task.unrecorded m) s

/-- What is approved and paid has been recorded, but for the payment under way; the record stops at
the highest number. -/
def Accounted (m : String) (s : World) : Prop :=
  ∃ r, approvedAt m s.shared.payments = r + unrecorded m s ∧
    recordedAt m s.shared = min r (2 ^ 64 - 1)

/-! ### One section -/

section

variable {server : Server} {i : ℕ} {a : Answer} {t : Task} {x x' : Shared} {stage' : Stage}
  {m : String}

theorem Stage.locked_of_paid {stage : Stage} (h : stage.paid = true) : stage.locked = true := by
  cases stage <;> first | rfl | exact absurd h (by simp [Stage.paid])

theorem unrecorded_of_unpaid (h : t.stage.paid = false) : t.unrecorded m = 0 := by
  refine if_neg ?_
  rintro ⟨hpaid, -⟩
  rw [h] at hpaid
  exact absurd hpaid (by simp)

theorem unrecorded_of_paid (h : t.stage.paid = true) :
    t.unrecorded m = if t.merchantDid = m then t.amount.toNat else 0 := by
  rw [Task.unrecorded, h]
  simp only [true_and]

theorem unrecorded_of_unlocked (h : t.stage.locked = false) : t.unrecorded m = 0 := by
  refine unrecorded_of_unpaid ?_
  by_contra hpaid
  rw [Stage.locked_of_paid (by simpa using hpaid)] at h
  exact absurd h (by simp)

theorem approvedAt_pay {e : Execution} {session : Option Pubkey} :
    approvedAt m (pay i e session t x).payments
      = approvedAt m x.payments
        + if t.merchantDid = m ∧ e.path = .whitelist then t.amount.toNat else 0 := by
  show approvedAt m (paymentOf i e session t x :: x.payments) = _
  rw [approvedAt, List.filter_cons]
  by_cases h : t.merchantDid = m ∧ e.path = .whitelist
  · have hpaid : decide ((paymentOf i e session t x).merchantDid = m ∧
        (paymentOf i e session t x).path = .whitelist) = true := decide_eq_true h
    rw [if_pos hpaid, if_pos h, List.map_cons, List.sum_cons, approvedAt]
    show t.amount.toNat + _ = _
    omega
  · have hpaid : ¬ decide ((paymentOf i e session t x).merchantDid = m ∧
        (paymentOf i e session t x).path = .whitelist) = true := fun hd => h (of_decide_eq_true hd)
    rw [if_neg hpaid, if_neg h, approvedAt]
    omega

theorem recordedAt_recordMerchantSpent {l : ListStore} {did : String} {amount : UInt64} {y : Shared} :
    recordedAt m { y with lists := l.recordMerchantSpent did amount }
      = if m = did then min (recordedAt did { y with lists := l } + amount.toNat) (2 ^ 64 - 1)
        else recordedAt m { y with lists := l } := by
  unfold recordedAt ListStore.recordMerchantSpent
  dsimp only
  rw [Store.lookup_insert_eq]
  by_cases h : m = did
  · rw [if_pos h, if_pos h]
    exact toNat_saturatingAdd _ _
  · rw [if_neg h, if_neg h]

theorem recordedAt_congr (h : x'.lists.merchantSpending = x.lists.merchantSpending) :
    recordedAt m x' = recordedAt m x := by
  rw [recordedAt, recordedAt, h]

/-- What a section pays for the merchant and what it records: the difference is left with the task. -/
structure Accounts (server : Server) (m : String) (a : Answer) (t : Task) (x : Shared)
    (stage' : Stage) (x' : Shared) (recorded : ℕ) : Prop where
  approved_eq : approvedAt m x'.payments
    = approvedAt m x.payments + ((t.pays server m a x).map UInt64.toNat).getD 0
  recorded_eq : recordedAt m x' = min (recordedAt m x + recorded) (2 ^ 64 - 1)
  left_eq : t.unrecorded m + ((t.pays server m a x).map UInt64.toNat).getD 0
    = (t.to stage').unrecorded m + recorded

theorem recordedAt_le (m : String) (x : Shared) : recordedAt m x ≤ 2 ^ 64 - 1 := by
  have := UInt64.toNat_lt ((x.lists.merchantSpending.lookup m).getD 0)
  rw [recordedAt]
  omega

/-- A section that neither pays nor records. -/
theorem accounts_of_same (hpays : t.pays server m a x = none) (hpayments : x'.payments = x.payments)
    (hrecord : x'.lists.merchantSpending = x.lists.merchantSpending)
    (hleft : (t.to stage').unrecorded m = t.unrecorded m) : Accounts server m a t x stage' x' 0 := by
  have hle := recordedAt_le m x
  refine ⟨?_, ?_, ?_⟩
  · rw [hpays, hpayments]
    rfl
  · rw [recordedAt_congr hrecord]
    omega
  · rw [hpays, hleft]
    rfl

/-- A section that makes a payment, for this merchant or another. -/
theorem accounts_of_pay {e : Execution} {session : Option Pubkey} (here : t.stage = .executing e)
    (hpaid : executePaymentAuto server a e t.amount x.now ≠ none)
    (horderly : t.orderly server m a x = true) (hstage : stage'.paid = true) :
    Accounts server m a t x stage' (pay i e session t x) 0 := by
  have hle := recordedAt_le m x
  have hsome : (executePaymentAuto server a e t.amount x.now).isSome = true :=
    Option.isSome_iff_ne_none.mpr hpaid
  have hbefore : t.unrecorded m = 0 := unrecorded_of_unpaid (by rw [here]; rfl)
  have hafter := @unrecorded_of_paid (t.to stage') m hstage
  by_cases hm : t.merchantDid = m
  · have hpays : t.pays server m a x = some t.amount := by
      rw [Task.pays, here]
      exact if_pos ⟨hm, hsome⟩
    have hpath : e.path = .whitelist := by
      rw [Task.orderly, here, hpays] at horderly
      exact of_decide_eq_true horderly rfl
    refine ⟨?_, ?_, ?_⟩
    · rw [approvedAt_pay, if_pos ⟨hm, hpath⟩, hpays]
      rfl
    · show recordedAt m x = _
      omega
    · rw [hbefore, hafter, hpays]
      show 0 + t.amount.toNat = (if t.merchantDid = m then t.amount.toNat else 0) + 0
      rw [if_pos hm]
      omega
  · have hpays : t.pays server m a x = none := by
      rw [Task.pays, here]
      exact if_neg fun h => hm h.1
    refine ⟨?_, ?_, ?_⟩
    · rw [approvedAt_pay, if_neg fun h => hm h.1, hpays]
      rfl
    · show recordedAt m x = _
      omega
    · rw [hbefore, hafter, hpays]
      show 0 + 0 = (if t.merchantDid = m then t.amount.toNat else 0) + 0
      rw [if_neg hm]

/-- A section that records a payment, for this merchant or another. -/
theorem accounts_of_record {e : Execution} {proof : PaymentProof} {lists : ListStore} (hm : m ≠ "")
    (here : t.stage = .recordingMerchant e proof) (horderly : t.orderly server m a x = true)
    (hstage : stage'.paid = false)
    (hlists : lists = if t.merchantDid ≠ "" ∧ a.stored = true then
      x.lists.recordMerchantSpent t.merchantDid t.amount else x.lists) :
    ∃ recorded, Accounts server m a t x stage' { x with lists, mutex := none } recorded := by
  have hle := recordedAt_le m x
  have hpays : t.pays server m a x = none := by rw [Task.pays, here]
  have hbefore := @unrecorded_of_paid t m (by rw [here]; rfl)
  have hafter : (t.to stage').unrecorded m = 0 := unrecorded_of_unpaid hstage
  by_cases hmerchant : t.merchantDid = m
  · have hstored : a.stored = true := by
      rw [Task.orderly, here] at horderly
      exact of_decide_eq_true horderly hmerchant
    rw [if_pos ⟨hmerchant ▸ hm, hstored⟩] at hlists
    subst hlists
    refine ⟨t.amount.toNat, ?_, ?_, ?_⟩
    · rw [hpays]
      rfl
    · have hrecorded := @recordedAt_recordMerchantSpent m x.lists t.merchantDid t.amount
        { x with mutex := none }
      rw [if_pos hmerchant.symm, hmerchant] at hrecorded
      rw [hmerchant]
      exact hrecorded
    · rw [hbefore, hafter, hpays, if_pos hmerchant]
      show t.amount.toNat + 0 = 0 + t.amount.toNat
      omega
  · refine ⟨0, ?_, ?_, ?_⟩
    · rw [hpays]
      rfl
    · have hsame : recordedAt m { x with lists, mutex := none } = recordedAt m x := by
        rw [hlists]
        split
        · have hrecorded := @recordedAt_recordMerchantSpent m x.lists t.merchantDid t.amount
            { x with mutex := none }
          rw [if_neg fun h => hmerchant h.symm] at hrecorded
          exact hrecorded
        · rfl
      rw [hsame]
      omega
    · rw [hbefore, hafter, hpays, if_neg hmerchant]
      rfl

/-- A section that gives up the mutex before the payment is recorded: another merchant's. -/
theorem accounts_of_giveUp {r : X402Result} {y : Shared} (hpaid : t.stage.paid = true)
    (hpays : t.pays server m a x = none) (hother : t.merchantDid ≠ m)
    (hpayments : y.payments = x.payments)
    (hrecord : y.lists.merchantSpending = x.lists.merchantSpending) :
    Accounts server m a t x (.done r) y 0 := by
  have hbefore := @unrecorded_of_paid t m hpaid
  rw [if_neg hother] at hbefore
  have hafter : (t.to (.done r)).unrecorded m = 0 := unrecorded_of_unpaid rfl
  exact accounts_of_same hpays hpayments hrecord (hafter.trans hbefore.symm)

/-- Every section, as long as it is orderly. -/
theorem Effect.accounted (hm : m ≠ "") (h : Effect server i a t x stage' x')
    (horderly : t.orderly server m a x = true) :
    ∃ recorded, Accounts server m a t x stage' x' recorded := by
  -- Outside the stages of a payment nothing is paid or recorded.
  have hunpaid : ∀ {stage stage' : Stage} {x' : Shared}, t.stage = stage →
      t.pays server m a x = none → stage.paid = false → stage'.paid = false →
      x'.payments = x.payments → x'.lists.merchantSpending = x.lists.merchantSpending →
        ∃ recorded, Accounts server m a t x stage' x' recorded := by
    intro stage stage' x' here hpays hpaid hpaid' hpayments hrecord
    have hbefore : t.unrecorded m = 0 := unrecorded_of_unpaid (here ▸ hpaid)
    have hafter : (t.to stage').unrecorded m = 0 := unrecorded_of_unpaid hpaid'
    exact ⟨0, accounts_of_same hpays hpayments hrecord (hafter.trans hbefore.symm)⟩
  -- Between the payment and the record the amount stays with the task.
  have hwithin : ∀ {stage stage' : Stage} {x' : Shared}, t.stage = stage →
      t.pays server m a x = none → stage.paid = true → stage'.paid = true →
      x'.payments = x.payments → x'.lists.merchantSpending = x.lists.merchantSpending →
        ∃ recorded, Accounts server m a t x stage' x' recorded := by
    intro stage stage' x' here hpays hpaid hpaid' hpayments hrecord
    have hbefore := @unrecorded_of_paid t m (here ▸ hpaid)
    have hafter := @unrecorded_of_paid (t.to stage') m hpaid'
    exact ⟨0, accounts_of_same hpays hpayments hrecord (hafter.trans hbefore.symm)⟩
  have hends : ∀ {e : Execution} {y : Shared} {stage stage' : Stage} {x' : Shared},
      t.stage = stage → t.pays server m a x = none → stage.paid = true →
      (t.merchantDid = m → a.stored = true ∧ a.replied = true) →
      y.payments = x.payments → y.lists.merchantSpending = x.lists.merchantSpending →
      ClientDone a e y stage' x' → ∃ recorded, Accounts server m a t x stage' x' recorded := by
    intro e y stage stage' x' here hpays hpaid hwrites hpayments hrecord ends
    cases ends with
    | goesOn replied => exact hwithin here hpays hpaid rfl hpayments hrecord
    | stops silent =>
      have hother : t.merchantDid ≠ m := by
        intro hmerchant
        rw [(hwrites hmerchant).2] at silent
        exact absurd silent (by simp)
      exact ⟨0, accounts_of_giveUp (here ▸ hpaid) hpays hother hpayments hrecord⟩
  cases h with
  | blocks here | checks here | approves here | bypasses here | asks here | scans here | funded here =>
    exact hunpaid here (by rw [Task.pays, here]) rfl rfl rfl rfl
  | listed here same => exact hunpaid here (by rw [Task.pays, here]) rfl rfl rfl same
  | requests here opened | notRequested here opened | authorized here _ _ opened =>
    exact hunpaid here (by rw [Task.pays, here]) rfl rfl opened.same.2.1
      (congrArg ListStore.merchantSpending opened.same.2.2.1)
  | declined here closed =>
    exact hunpaid here (by rw [Task.pays, here]) rfl rfl closed.same.2.1
      (congrArg ListStore.merchantSpending closed.same.2.2.1)
  | locks here free next =>
    rcases next with rfl | ⟨rfl, -⟩ <;>
      exact hunpaid here (by rw [Task.pays, here]) rfl rfl rfl rfl
  | stops here unpaid =>
    rcases here with here | here
    · exact hunpaid here (by rw [Task.pays, here]) rfl rfl rfl rfl
    · have hpays : t.pays server m a x = none := by
        rw [Task.pays, here]
        dsimp only
        rw [unpaid here]
        exact if_neg fun h => absurd h.2 (by simp)
      exact hunpaid here hpays rfl rfl rfl rfl
  | pays here paid => exact ⟨0, accounts_of_pay here paid horderly rfl⟩
  | transfers here paid =>
    exact ⟨0, accounts_of_pay here (by rw [paid]; simp) horderly rfl⟩
  | clientFails here unstored =>
    have hother : t.merchantDid ≠ m := by
      intro hmerchant
      have hstored : a.stored = true := by
        rcases here with here | ⟨d, here⟩ <;> rw [Task.orderly, here] at horderly <;>
          exact (of_decide_eq_true horderly hmerchant).1
      rw [unstored] at hstored
      exact absurd hstored (by simp)
    rcases here with here | ⟨d, here⟩
    · exact ⟨0, accounts_of_giveUp (by rw [here]; rfl) (by rw [Task.pays, here]) hother rfl rfl⟩
    · exact ⟨0, accounts_of_giveUp (by rw [here]; rfl) (by rw [Task.pays, here]) hother rfl rfl⟩
  | clientReads here | agentReads here | agentSkips here =>
    exact hwithin here (by rw [Task.pays, here]) rfl rfl rfl rfl
  | clientSkips here _ ends =>
    rw [Task.orderly, here] at horderly
    exact hends here (by rw [Task.pays, here]) rfl (of_decide_eq_true horderly) rfl rfl ends
  | clientWrites here ends =>
    rw [Task.orderly, here] at horderly
    exact @hends _ (x.setSession _ _) _ _ _ here (by rw [Task.pays, here]) rfl
      (of_decide_eq_true horderly) rfl rfl ends
  | agentWrites here left =>
    rcases left with rfl | rfl <;> exact hwithin here (by rw [Task.pays, here]) rfl rfl rfl rfl
  | records here ends lists_eq =>
    refine accounts_of_record hm here horderly ?_ lists_eq
    rcases ends with ⟨r, rfl⟩ | ⟨action, resp, rfl⟩ <;> rfl

end

/-! ### Runs -/

section

variable {server : Server} {m : String} {M : UInt64} {s₀ s s' : World} {ev : Event}
  {h : List (World × Event)}

/-- What the turn of a task changes of what is unrecorded is what it changes of the task's own. -/
theorem unrecorded_of_turn {i : ℕ} {a : Answer} {stage' : Stage} {x' : Shared} (hs : Exclusive s)
    (effect : Effect server i a (s.tasks i) s.shared stage' x') :
    unrecorded m ⟨x', Function.update s.tasks i ((s.tasks i).to stage')⟩ + (s.tasks i).unrecorded m
      = unrecorded m s + ((s.tasks i).to stage').unrecorded m := by
  rcases heldBy_of_turn (fun _ => unrecorded_of_unlocked) hs effect with
    ⟨hbefore, hafter⟩ | ⟨hlocked, hlocked', hsame⟩
  · rw [unrecorded, unrecorded, hbefore, hafter, Nat.add_comm]
  · have hbefore : (s.tasks i).unrecorded m = 0 := unrecorded_of_unlocked hlocked
    have hafter : ((s.tasks i).to stage').unrecorded m = 0 := unrecorded_of_unlocked hlocked'
    rw [unrecorded, unrecorded, hbefore, hafter, hsame]

/-- The payments of one event, and the account that is kept of them. -/
theorem accounted_of_exec (hm : m ≠ "") (hs : Exclusive s) (horderly : orderly server m s ev = true)
    (hexec : exec server ev s = .ok s') :
    approvedAt m s'.shared.payments
      = approvedAt m s.shared.payments + ((paidBy server m s ev).map UInt64.toNat).getD 0 ∧
    (Accounted m s → Accounted m s') := by
  cases turned_of_exec hexec with
  | ticks => exact ⟨rfl, fun haccounted => haccounted⟩
  | @runs i a stage' x' effect =>
    obtain ⟨recorded, happroved, hrecorded, hleft⟩ := effect.accounted hm horderly
    refine ⟨happroved, ?_⟩
    rintro ⟨r, htotal, hrecord⟩
    have hturn := @unrecorded_of_turn server m s i a stage' x' hs effect
    refine ⟨r + recorded, ?_, ?_⟩
    · show approvedAt m x'.payments = _
      omega
    · show recordedAt m x' = _
      omega

theorem accounted_of_run (hm : m ≠ "") (hstart : Idle s₀) (hrecorded : recordedAt m s₀.shared = 0)
    (hrun : Run (exec server) s₀ h s) (horderly : ∀ c ∈ h, orderly server m c.1 c.2 = true) :
    Exclusive s ∧ Accounted m s := by
  refine Run.invariant_of (P := fun s => Exclusive s ∧ Accounted m s)
    (fun s ev => orderly server m s ev = true) ⟨hstart.exclusive, 0, ?_, ?_⟩ ?_ hrun horderly
  · rw [hstart.payments_eq, unrecorded, heldBy_of_free hstart.free]
    rfl
  · rw [hrecorded]
    rfl
  · rintro s ev s' ⟨hexclusive, haccounted⟩ hall hexec
    exact ⟨hexclusive.of_exec hexec, (accounted_of_exec hm hexclusive hall hexec).2 haccounted⟩

/-- The total of the approved payments is within the cap, and where none is under way it is what is
recorded. -/
structure CapKept (m : String) (M : UInt64) (s : World) : Prop where
  approved_le : approvedAt m s.shared.payments ≤ M.toNat
  recorded_eq : s.shared.mutex = none → recordedAt m s.shared = approvedAt m s.shared.payments

/-- The recorded amount leaves room for the amount that is paid. -/
def RoomLeft (server : Server) (m : String) (M : UInt64) (s : World) (ev : Event) : Prop :=
  ∀ amount, paidBy server m s ev = some amount → recordedAt m s.shared + amount.toNat ≤ M.toNat

/-- Whoever pays for the merchant has recorded all that was paid before. -/
theorem recorded_of_paidBy {amount : UInt64} (hs : Exclusive s) (haccounted : Accounted m s)
    (hle : approvedAt m s.shared.payments ≤ M.toNat) (hpaid : paidBy server m s ev = some amount) :
    recordedAt m s.shared = approvedAt m s.shared.payments := by
  obtain ⟨r, htotal, hrecord⟩ := haccounted
  have hM := UInt64.toNat_lt M
  have hnone : unrecorded m s = 0 := by
    cases ev with
    | ticks now => exact absurd hpaid (by simp [paidBy])
    | runs i a =>
      rw [paidBy, Task.pays] at hpaid
      split at hpaid
      · next here =>
        have hlocked := (hs i).mp (by rw [here]; rfl)
        have hunpaid : (s.tasks i).unrecorded m = 0 := unrecorded_of_unpaid (by rw [here]; rfl)
        rw [unrecorded, heldBy_of_holder hlocked]
        exact hunpaid
      · exact absurd hpaid (by simp)
  omega

theorem capKept_of_exec_iff (hm : m ≠ "") (hs : Exclusive s) (haccounted : Accounted m s)
    (hkept : CapKept m M s) (horderly : orderly server m s ev = true)
    (hexec : exec server ev s = .ok s') : CapKept m M s' ↔ RoomLeft server m M s ev := by
  obtain ⟨happroved, hnext⟩ := accounted_of_exec hm hs horderly hexec
  obtain ⟨r, htotal, hrecord⟩ := hnext haccounted
  have hM := UInt64.toNat_lt M
  -- In either direction all comes down to the total after the event.
  have hiff : approvedAt m s'.shared.payments ≤ M.toNat ↔ RoomLeft server m M s ev := by
    rcases hpaid : paidBy server m s ev with _ | amount
    · rw [hpaid] at happroved
      constructor
      · intro _ amount hsome
        rw [hpaid] at hsome
        exact absurd hsome (by simp)
      · intro _
        exact happroved ▸ hkept.approved_le
    · rw [hpaid] at happroved
      have hrecorded := recorded_of_paidBy hs haccounted hkept.approved_le hpaid
      have htotal' : approvedAt m s'.shared.payments
          = approvedAt m s.shared.payments + amount.toNat := happroved
      constructor
      · intro hle amount' hsome
        obtain rfl := Option.some.inj (hpaid.symm.trans hsome)
        omega
      · intro hroom
        have := hroom amount hpaid
        omega
  rw [← hiff]
  constructor
  · exact fun hkept' => hkept'.approved_le
  · intro hle
    refine ⟨hle, fun hfree => ?_⟩
    have hnone : unrecorded m s' = 0 := heldBy_of_free hfree
    omega

end

/-- The cap is kept throughout a run exactly if every payment finds room for it in the record when it
is executed. -/
theorem cap_kept_iff {server : Server} {m : String} (hm : m ≠ "") (M : UInt64) {s₀ s : World}
    {h : List (World × Event)} (hstart : Idle s₀) (hrecorded : recordedAt m s₀.shared = 0)
    (hrun : Run (exec server) s₀ h s) (horderly : ∀ c ∈ h, orderly server m c.1 c.2 = true) :
    (∀ s' ∈ Run.states h s, CapKept m M s') ↔ ∀ c ∈ h, RoomLeft server m M c.1 c.2 := by
  refine Run.forall_states_iff_given (fun s ev => orderly server m s ev = true) ?_ ?_ hrun horderly
  · refine ⟨?_, fun _ => ?_⟩
    · rw [hstart.payments_eq]
      exact Nat.zero_le _
    · rw [hrecorded, hstart.payments_eq]
      rfl
  · intro h s ev s' hr hall hkept hlast hexec
    obtain ⟨hexclusive, haccounted⟩ := accounted_of_run hm hstart hrecorded hr hall
    exact capKept_of_exec_iff hm hexclusive haccounted hkept hlast hexec

namespace Sample

/-- Nothing has been paid to the merchant; the challenges ask for 60. -/
def uncharged : World := challenges ∅ ∅ 60

end Sample

/-- Two challenges of 60 are approved before either is paid, and then both are paid. -/
theorem cap_exceeded : ∃ h s, Run (exec Sample.server) Sample.uncharged h s ∧
    h.map Prod.snd
      = (Sample.turns ([0, 1, 0, 1, 0, 0, 0, 0, 1, 1, 1, 1].map (·, Sample.answer))).reverse ∧
    approvedAt Sample.merchant s.shared.payments = 120 ∧
    (s.shared.lists.whitelist.lookup Sample.merchant).map MerchantListEntry.maxAmount
      = some (some 100) :=
  Run.exists_of_test (by decide +kernel)

/-- One after the other: the second challenge finds no room any more. -/
theorem cap_kept_in_turn : ∃ h s, Run (exec Sample.server) Sample.uncharged h s ∧
    approvedAt Sample.merchant s.shared.payments = 60 ∧
    ∀ s' ∈ Run.states h s, CapKept Sample.merchant 100 s' := by
  have ht : (Run.record (exec Sample.server)
      (Sample.turns ([0, 0, 0, 0, 0, 0, 1, 1].map (·, Sample.answer))) []
      Sample.uncharged).toOption.any (fun r =>
        (decide (approvedAt Sample.merchant r.2.shared.payments = 60) &&
          r.1.all fun c => orderly Sample.server Sample.merchant c.1 c.2) &&
        r.1.all fun c => (paidBy Sample.server Sample.merchant c.1 c.2).all fun amount =>
          decide (recordedAt Sample.merchant c.1.shared + amount.toNat ≤ 100)) = true := by
    decide +kernel
  obtain ⟨h, s, hrun, ht⟩ := Run.exists_of_record ht
  obtain ⟨ht, hroom⟩ := Bool.and_eq_true_iff.mp ht
  obtain ⟨htotal, horderly⟩ := Bool.and_eq_true_iff.mp ht
  refine ⟨h, s, hrun, of_decide_eq_true htotal, ?_⟩
  refine (cap_kept_iff (by decide) 100 (Sample.idle_challenges ∅ ∅ 60) rfl hrun
    (List.all_eq_true.mp horderly)).mpr fun c hc amount hpaid => ?_
  have hall := List.all_eq_true.mp hroom c hc
  rw [hpaid] at hall
  exact of_decide_eq_true hall

end Agent
