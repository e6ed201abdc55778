/-
What becomes of a challenge that the risk check does not approve.

A blocked challenge ends there.  One that the check sends to the phone, or that it fails on, is tried
against the global threshold and the active session first, and only then is the phone asked.

* `settled_of_effect` — once those two are passed, only the phone leads to a payment;
* `waits_of_run` — in every run in which they are passed, a payment follows an authorization;
* `pays_of_bypass` — where they are not, a payment without the phone can follow;
* `verdicts_stand_iff` — all of it, from the risk check on;
* `paid_over_cap` — a challenge over the cap and one with the lists unreadable, paid by the threshold.
-/
import IgnitePay.Agent.Spec

namespace Agent

open Bytes Machine Solana

/-- The entry of the merchant is good for the amount alone, but not for the cumulative amount. -/
def OverCap (l : ListStore) (ok : ListAccess) (now : ℕ) (did : String) (amount : UInt64) : Prop :=
  l.riskCheck ok now did amount = .ok .needsAuth ∧
    ∃ entry max, l.whitelist.lookup did = some entry ∧ entry.expired now = false ∧
      entry.maxAmount = some max ∧ amount ≤ max ∧ l.cumulativeExceeds ok did amount max = true

/-- The risk check sends the merchant to the phone for its cap, or fails. -/
def Unapproved (l : ListStore) (ok : ListAccess) (now : ℕ) (did : String) (amount : UInt64) : Prop :=
  OverCap l ok now did amount ∨ ∃ e, l.riskCheck ok now did amount = .error e

/-- The threshold or the active session lets the payment go on, and the session that was read has
the balance for it. -/
def bypassed (server : Server) (a : Answer) (x : Shared) (amount : UInt64) : Bool :=
  let session := getActiveSession server a x
  if autoApproves server amount then checkSessionBalance session amount
  else session.any (paysDirectly amount x.now)

/-- The task has paid. -/
def Pays (i : ℕ) (s : World) : Prop := ∃ p ∈ s.shared.payments, p.task = i

/-- The phone has authorized the task's payment in the course of the run. -/
def PhoneAuthorized (i : ℕ) (h : List (World × Event)) : Prop :=
  ∃ c ∈ h, ∃ a verdict created resp, c.2 = .runs i a ∧
    (c.1.tasks i).stage = .awaiting verdict created ∧ a.phone = .responds resp ∧
    resp.authorized = true

/-- If the task chooses its path now, it chooses the phone. -/
def ChoosesPhone (server : Server) (i : ℕ) (s : World) (ev : Event) : Prop :=
  ∀ a verdict, ev = .runs i a → (s.tasks i).stage = .checked verdict →
    bypassed server a s.shared (s.tasks i).amount = false

/-- Nothing but the phone leads from here to a payment. -/
def Stage.settled (amount : UInt64) : Stage → Prop
  | .requesting _ | .awaiting _ _ | .done _ => True
  | .ready e | .funding e => checkSessionBalance e.session amount = false
  | _ => False

/-- The path has been chosen. -/
def Stage.decided : Stage → Prop
  | .arrived | .checked _ => False
  | _ => True

section

variable {server : Server} {i j : ℕ} {a : Answer} {t : Task} {x x' : Shared} {stage' : Stage}
  {s s' : World} {ev : Event} {h : List (World × Event)} {verdict : Verdict}

/-! ### One section -/

theorem remaining_of_paysDirectly {amount : UInt64} {now : ℕ} {session : Option SessionKeypair}
    (hpays : session.any (paysDirectly amount now) = true) :
    checkSessionBalance session amount = true := by
  obtain ⟨sk, rfl, hpays⟩ := (Option.any_eq_true _ _).mp hpays
  obtain ⟨-, hwithin⟩ := Bool.and_eq_true_iff.mp hpays
  obtain ⟨hboth, -⟩ := Bool.and_eq_true_iff.mp hwithin
  exact (Bool.and_eq_true_iff.mp hboth).1

/-- The choice of the path, where it falls on the phone in the end. -/
theorem settled_of_choice (here : t.stage = .checked verdict)
    (hunapproved : ∀ max label, verdict ≠ .ok (.autoApproved max label))
    (hbypass : bypassed server a x t.amount = false)
    (h : Effect server i a t x stage' x') : stage'.settled t.amount ∧ x'.payments = x.payments := by
  have hstage : ∀ {stage : Stage}, t.stage = stage → stage = .checked verdict := by
    rintro stage rfl
    exact here
  cases h with
  | approves here' hverdict =>
    obtain rfl := Stage.checked.inj (hstage here')
    exact absurd hverdict (hunapproved _ _)
  | bypasses _ _ ground =>
    refine ⟨?_, rfl⟩
    show checkSessionBalance (getActiveSession server a x) t.amount = false
    rw [bypassed] at hbypass
    rcases ground with ⟨-, hauto⟩ | ⟨-, hbelow, hsession⟩
    · rw [if_pos hauto] at hbypass
      exact hbypass
    · rw [if_neg (by rw [hbelow]; simp), hsession] at hbypass
      exact absurd hbypass (by simp)
  | asks => exact ⟨trivial, rfl⟩
  | blocks here' | checks here' | scans here' | requests here' | notRequested here'
  | authorized here' | declined here' | locks here' | funded here' | pays here' | transfers here'
  | clientReads here' | clientSkips here' | clientWrites here' | agentReads here' | agentSkips here'
  | agentWrites here' | records here' | listed here' =>
    exact absurd (hstage here') (by simp)
  | stops here' =>
    rcases here' with here' | here' <;> exact absurd (hstage here') (by simp)
  | clientFails here' =>
    rcases here' with here' | ⟨d, here'⟩ <;> exact absurd (hstage here') (by simp)

/-- From a settled stage a task pays nothing, and the stage after is settled as well, unless the phone
has authorized the payment. -/
theorem settled_of_effect (hsettled : t.stage.settled t.amount) (h : Effect server i a t x stage' x') :
    x'.payments = x.payments ∧ (stage'.settled t.amount ∨ ∃ verdict created resp,
      t.stage = .awaiting verdict created ∧ a.phone = .responds resp ∧ resp.authorized = true) := by
  cases h with
  | requests here opened | notRequested here opened => exact ⟨opened.same.2.1, .inl trivial⟩
  | declined here closed => exact ⟨closed.same.2.1, .inl trivial⟩
  | authorized here phone granted opened =>
    exact ⟨opened.same.2.1, .inr ⟨_, _, _, here, phone, granted⟩⟩
  | locks here free next =>
    rw [here] at hsettled
    rcases next with rfl | ⟨rfl, hbalance⟩
    · exact ⟨rfl, .inl hsettled⟩
    · exact absurd (hsettled.symm.trans hbalance) (by simp)
  | funded here hbalance =>
    rw [here] at hsettled
    exact absurd (hsettled.symm.trans hbalance) (by simp)
  | stops => exact ⟨rfl, .inl trivial⟩
  | blocks here | checks here | approves here | bypasses here | asks here | scans here | pays here
  | transfers here | clientReads here | clientSkips here | clientWrites here | agentReads here
  | agentSkips here | agentWrites here | records here | listed here =>
    rw [here] at hsettled
    exact hsettled.elim
  | clientFails here =>
    rcases here with here | ⟨d, here⟩ <;> rw [here] at hsettled <;> exact hsettled.elim

/-- Nothing leads back to the choice. -/
theorem decided_of_effect (harrived : t.stage ≠ .arrived) (h : Effect server i a t x stage' x') :
    stage'.decided := by
  cases h with
  | checks here => exact absurd here harrived
  | locks _ _ next => rcases next with rfl | ⟨rfl, -⟩ <;> exact trivial
  | clientSkips _ _ ends | clientWrites _ ends => cases ends <;> exact trivial
  | records _ ends => rcases ends with ⟨r, rfl⟩ | ⟨action, resp, rfl⟩ <;> exact trivial
  | blocks | approves | bypasses | asks | scans | requests | notRequested | authorized | declined
  | funded | stops | pays | transfers | clientFails | clientReads | agentReads | agentSkips
  | agentWrites | listed => exact trivial

/-- A task pays for itself alone. -/
theorem task_of_payment (h : Effect server i a t x stage' x') {p : Payment} (hp : p ∈ x'.payments)
    (hne : p.task ≠ i) : p ∈ x.payments := by
  have hpaid : ∀ {e : Execution} {session : Option Pubkey},
      p ∈ (pay i e session t x).payments → p ∈ x.payments := by
    intro e session hp
    rcases List.mem_cons.mp hp with rfl | hp
    · exact absurd rfl hne
    · exact hp
  cases h with
  | requests _ opened | notRequested _ opened | authorized _ _ _ opened => exact opened.same.2.1 ▸ hp
  | declined _ closed => exact closed.same.2.1 ▸ hp
  | pays | transfers => exact hpaid hp
  | clientSkips _ _ ends | clientWrites _ ends => cases ends <;> exact hp
  | agentWrites _ left => rcases left with rfl | rfl <;> exact hp
  | blocks | checks | approves | bypasses | asks | scans | locks | funded | stops | clientFails
  | clientReads | agentReads | agentSkips | records | listed => exact hp

/-! ### Runs -/

/-- The task has not paid, and waits to choose its path, or has chosen the phone. -/
structure Waits (i : ℕ) (verdict : Verdict) (s : World) : Prop where
  unpaid : ¬ Pays i s
  stage : (s.tasks i).stage = .checked verdict ∨ (s.tasks i).stage.settled (s.tasks i).amount

/-- What the others do leaves the task as it is. -/
theorem unpaid_of_other (hunpaid : ¬ Pays i s) (hji : i ≠ j)
    (h : Effect server j a (s.tasks j) s.shared stage' x') {tasks : ℕ → Task} :
    ¬ Pays i ⟨x', tasks⟩ := by
  rintro ⟨p, hp, htask⟩
  exact hunpaid ⟨p, task_of_payment h hp (by rw [htask]; exact hji), htask⟩

theorem waits_of_exec (hunapproved : ∀ max label, verdict ≠ .ok (.autoApproved max label))
    (hwaits : Waits i verdict s) (hchooses : ChoosesPhone server i s ev)
    (hexec : exec server ev s = .ok s') : Waits i verdict s' ∨ PhoneAuthorized i [(s, ev)] := by
  cases turned_of_exec hexec with
  | ticks => exact .inl ⟨hwaits.unpaid, hwaits.stage⟩
  | @runs j a stage' x' effect =>
    by_cases hji : j = i
    · subst hji
      have hself : (Function.update s.tasks j ((s.tasks j).to stage')) j = (s.tasks j).to stage' :=
        Function.update_self ..
      have hwaits' : x'.payments = s.shared.payments → stage'.settled (s.tasks j).amount →
          Waits j verdict ⟨x', Function.update s.tasks j ((s.tasks j).to stage')⟩ := by
        intro hpayments hsettled
        refine ⟨?_, .inr ?_⟩
        · rintro ⟨p, hp, htask⟩
          exact hwaits.unpaid ⟨p, hpayments ▸ hp, htask⟩
        · show ((Function.update s.tasks j ((s.tasks j).to stage')) j).stage.settled
            ((Function.update s.tasks j ((s.tasks j).to stage')) j).amount
          rw [hself]
          exact hsettled
      rcases hwaits.stage with here | hsettled
      · obtain ⟨hsettled, hpayments⟩ :=
          settled_of_choice here hunapproved (hchooses a verdict rfl here) effect
        exact .inl (hwaits' hpayments hsettled)
      · obtain ⟨hpayments, hsettled | ⟨verdict', created, resp, here, hphone, hgranted⟩⟩ :=
          settled_of_effect hsettled effect
        · exact .inl (hwaits' hpayments hsettled)
        · exact .inr ⟨_, List.mem_singleton_self _, a, verdict', created, resp, rfl, here, hphone,
            hgranted⟩
    · refine .inl ⟨unpaid_of_other hwaits.unpaid (Ne.symm hji) effect, ?_⟩
      show ((Function.update s.tasks j ((s.tasks j).to stage')) i).stage = .checked verdict ∨
        ((Function.update s.tasks j ((s.tasks j).to stage')) i).stage.settled
          ((Function.update s.tasks j ((s.tasks j).to stage')) i).amount
      rw [Function.update_of_ne (Ne.symm hji)]
      exact hwaits.stage

/-- In a run in which the task chooses the phone, it pays after an authorization or not at all. -/
theorem waits_of_run {s₁ : World} (hunapproved : ∀ max label, verdict ≠ .ok (.autoApproved max label))
    (hwaits : Waits i verdict s₁) (hrun : Run (exec server) s₁ h s)
    (hchooses : ∀ c ∈ h, ChoosesPhone server i c.1 c.2) :
    Waits i verdict s ∨ PhoneAuthorized i h := by
  induction hrun with
  | start => exact .inl hwaits
  | @step h s s' ev _ hexec ih =>
    obtain ⟨hlast, hrest⟩ := List.forall_mem_cons.mp hchooses
    rcases ih hrest with hwaits | ⟨c, hc, hauthorized⟩
    · rcases waits_of_exec hunapproved hwaits hlast hexec with hwaits' | ⟨c, hc, hauthorized⟩
      · exact .inl hwaits'
      · obtain rfl := List.mem_singleton.mp hc
        exact .inr ⟨_, List.mem_cons_self, hauthorized⟩
    · exact .inr ⟨c, List.mem_cons_of_mem _ hc, hauthorized⟩

theorem decided_of_exec (hdecided : (s.tasks i).stage.decided) (hexec : exec server ev s = .ok s') :
    (s'.tasks i).stage.decided := by
  cases turned_of_exec hexec with
  | ticks => exact hdecided
  | @runs j a stage' x' effect =>
    show ((Function.update s.tasks j ((s.tasks j).to stage')) i).stage.decided
    by_cases hji : j = i
    · subst hji
      rw [Function.update_self]
      refine decided_of_effect (fun harrived => ?_) effect
      rw [harrived] at hdecided
      exact hdecided
    · rw [Function.update_of_ne (Ne.symm hji)]
      exact hdecided

/-- The turn of a task that has been checked is the choice of its path. -/
theorem decided_of_choice (here : (s.tasks i).stage = .checked verdict)
    (hexec : exec server (.runs i a) s = .ok s') : (s'.tasks i).stage.decided := by
  cases turned_of_exec hexec with
  | @runs _ _ stage' x' effect =>
    show ((Function.update s.tasks i ((s.tasks i).to stage')) i).stage.decided
    rw [Function.update_self]
    exact decided_of_effect (by rw [here]; simp) effect

/-- As long as a task has not chosen its path, it is as the risk check has left it. -/
theorem undecided_of_run {s₁ : World} (here : (s₁.tasks i).stage = .checked verdict)
    (hunpaid : ¬ Pays i s₁) (hrun : Run (exec server) s₁ h s) :
    ((s.tasks i).stage = .checked verdict ∧ ¬ Pays i s) ∨ (s.tasks i).stage.decided := by
  refine Run.invariant (P := fun s => ((s.tasks i).stage = .checked verdict ∧ ¬ Pays i s) ∨
    (s.tasks i).stage.decided) (.inl ⟨here, hunpaid⟩) ?_ hrun
  rintro s ev s' (⟨here, hunpaid⟩ | hdecided) hexec
  · cases ev with
    | ticks now =>
      obtain rfl := Except.ok.inj hexec
      exact .inl ⟨here, hunpaid⟩
    | runs j a =>
      by_cases hji : j = i
      · subst hji
        exact .inr (decided_of_choice here hexec)
      · cases turned_of_exec hexec with
        | @runs _ _ stage' x' effect =>
          refine .inl ⟨?_, unpaid_of_other hunpaid (Ne.symm hji) effect⟩
          show (Function.update s.tasks j ((s.tasks j).to stage') i).stage = .checked verdict
          rw [Function.update_of_ne (Ne.symm hji)]
          exact here
  · exact .inr (decided_of_exec hdecided hexec)

/-- A task that has chosen its path does not come to choose one again. -/
theorem choosesPhone_of_decided {s₁ : World} (hdecided : (s₁.tasks i).stage.decided)
    (hrun : Run (exec server) s₁ h s) : ∀ c ∈ h, ChoosesPhone server i c.1 c.2 := by
  rintro c hc a verdict - here
  obtain ⟨h₁, -, hbefore, -, -⟩ := hrun.of_mem hc
  have hd : (c.1.tasks i).stage.decided :=
    Run.invariant (P := fun s => (s.tasks i).stage.decided) hdecided
      (fun _ _ _ hs hexec => decided_of_exec hs hexec) hbefore
  rw [here] at hd
  exact hd.elim

/-- A task that has ended pays nothing more. -/
theorem unpaid_of_done {s₁ : World} {r : X402Result} (hdone : (s₁.tasks i).stage = .done r)
    (hunpaid : ¬ Pays i s₁) (hrun : Run (exec server) s₁ h s) : ¬ Pays i s := by
  have hboth : (s.tasks i).stage = .done r ∧ ¬ Pays i s := by
    refine Run.invariant (P := fun s => (s.tasks i).stage = .done r ∧ ¬ Pays i s) ⟨hdone, hunpaid⟩
      ?_ hrun
    rintro s ev s' ⟨hdone, hunpaid⟩ hexec
    cases ev with
    | ticks now =>
      obtain rfl := Except.ok.inj hexec
      exact ⟨hdone, hunpaid⟩
    | runs j a =>
      obtain ⟨t', x', hnext, rfl⟩ := System.turn_eq_ok.mp hexec
      by_cases hji : j = i
      · subst hji
        rw [Task.next, hdone] at hnext
        exact absurd hnext (by simp)
      · obtain ⟨stage', rfl, effect⟩ := effect_of_next hnext
        refine ⟨?_, unpaid_of_other hunpaid (Ne.symm hji) effect⟩
        show ((Function.update s.tasks j ((s.tasks j).to stage')) i).stage = .done r
        rw [Function.update_of_ne (Ne.symm hji)]
        exact hdone
  exact hboth.2

/-! ### Where the phone is bypassed -/

/-- The answer that signs a voucher. -/
def Answer.voucherSigned (a : Answer) : Answer := { a with voucher := true }

/-- A task that is ready, with the balance in its session and no preference for a method: it takes the
mutex and pays. -/
theorem pays_of_ready {e : Execution} (a : Answer) (here : (s.tasks i).stage = .ready e)
    (hmethod : e.method = none) (hbalance : checkSessionBalance e.session (s.tasks i).amount = true)
    (hfree : s.shared.mutex = none) :
    ∃ h s', Run (exec server) s h s' ∧ Pays i s' ∧ ¬ PhoneAuthorized i h := by
  have hlock : exec server (.runs i a) s = .ok ⟨{ s.shared with mutex := some i },
      Function.update s.tasks i ((s.tasks i).to (.executing e))⟩ := by
    refine System.turn_of_next ?_
    rw [Task.next, here]
    dsimp only
    rw [if_pos hfree, lockPayment, if_pos hbalance]
  generalize hs₁ : (⟨{ s.shared with mutex := some i },
    Function.update s.tasks i ((s.tasks i).to (.executing e))⟩ : World) = s₁ at hlock
  have htask : s₁.tasks i = (s.tasks i).to (.executing e) := by
    rw [← hs₁]
    exact Function.update_self ..
  have hpay : exec server (.runs i a.voucherSigned) s₁ = .ok ⟨pay i e none (s₁.tasks i) s₁.shared,
      Function.update s₁.tasks i ((s₁.tasks i).to (.agentReads e .voucher))⟩ := by
    refine System.turn_of_next ?_
    have here₁ : (s₁.tasks i).stage = .executing e := by rw [htask]; rfl
    have hvoucher : executePaymentAuto server a.voucherSigned e (s₁.tasks i).amount s₁.shared.now
        = some .voucher := by
      rw [executePaymentAuto, hmethod]
      exact if_pos rfl
    rw [Task.next, here₁]
    dsimp only
    rw [execute, hvoucher]
  refine ⟨_, _, .step (.step .start hlock) hpay, ⟨_, List.mem_cons_self, rfl⟩, ?_⟩
  rintro ⟨c, hc, a', verdict, created, resp, -, hawaiting, -⟩
  rcases List.mem_cons.mp hc with rfl | hc
  · rw [htask] at hawaiting
    exact absurd hawaiting (by simp [Task.to])
  · obtain rfl := List.mem_singleton.mp hc
    rw [here] at hawaiting
    exact absurd hawaiting (by simp)

theorem choosePath_of_bypassed (hunapproved : ∀ max label, verdict ≠ .ok (.autoApproved max label))
    (hbypass : bypassed server a x t.amount = true) :
    ∃ e, choosePath server a verdict t x = t.to (.ready e) ∧ e.method = none ∧
      checkSessionBalance e.session t.amount = true := by
  rw [bypassed] at hbypass
  unfold choosePath
  split
  · next max label => exact absurd rfl (hunapproved max label)
  · by_cases hauto : autoApproves server t.amount = true
    · rw [if_pos hauto] at hbypass ⊢
      exact ⟨_, rfl, rfl, hbypass⟩
    · rw [if_neg hauto] at hbypass ⊢
      rw [if_pos hbypass]
      exact ⟨_, rfl, rfl, remaining_of_paysDirectly hbypass⟩

/-- Where the choice does not fall on the phone, a payment without it can follow. -/
theorem pays_of_bypass {s₁ : World} (hunapproved : ∀ max label, verdict ≠ .ok (.autoApproved max label))
    (here : (s.tasks i).stage = .checked verdict) (hfree : s.shared.mutex = none)
    (hbypass : bypassed server a s.shared (s.tasks i).amount = true)
    (hexec : exec server (.runs i a) s = .ok s₁) :
    ∃ h s', Run (exec server) s₁ h s' ∧ Pays i s' ∧ ¬ PhoneAuthorized i h := by
  obtain ⟨t', x', hnext, rfl⟩ := System.turn_eq_ok.mp hexec
  rw [Task.next, here] at hnext
  obtain ⟨rfl, rfl⟩ := Prod.mk.inj (Except.ok.inj hnext)
  obtain ⟨e, hpath, hmethod, hbalance⟩ := choosePath_of_bypassed hunapproved hbypass
  have htask : (Function.update s.tasks i (choosePath server a verdict (s.tasks i) s.shared)) i
      = (s.tasks i).to (.ready e) := by
    rw [Function.update_self]
    exact hpath
  refine @pays_of_ready server i ⟨s.shared, _⟩ e a ?_ hmethod ?_ hfree
  · show ((Function.update s.tasks i (choosePath server a verdict (s.tasks i) s.shared)) i).stage = _
    rw [htask]
    rfl
  · show checkSessionBalance e.session
      ((Function.update s.tasks i (choosePath server a verdict (s.tasks i) s.shared)) i).amount = true
    rw [htask]
    exact hbalance

/-- From the choice on, the task pays after an authorization only exactly if it chooses the phone. -/
theorem authorized_iff_of_choice {s₁ : World}
    (hunapproved : ∀ max label, verdict ≠ .ok (.autoApproved max label))
    (here : (s.tasks i).stage = .checked verdict) (hunpaid : ¬ Pays i s) (hfree : s.shared.mutex = none)
    (hexec : exec server (.runs i a) s = .ok s₁) :
    (∀ h s', Run (exec server) s₁ h s' → Pays i s' → PhoneAuthorized i h) ↔
      bypassed server a s.shared (s.tasks i).amount = false := by
  constructor
  · intro hall
    by_contra hbypass
    obtain ⟨h, s', hrun, hpays, hnot⟩ :=
      pays_of_bypass hunapproved here hfree (by simpa using hbypass) hexec
    exact hnot (hall h s' hrun hpays)
  · intro hbypass h s' hrun hpays
    have hchooses : ChoosesPhone server i s (.runs i a) := by
      intro a' verdict' hev _
      obtain ⟨-, rfl⟩ := Event.runs.inj hev
      exact hbypass
    have hlater := choosesPhone_of_decided (decided_of_choice here hexec) hrun
    rcases waits_of_exec hunapproved ⟨hunpaid, .inl here⟩ hchooses hexec with hwaits | hauthorized
    · rcases waits_of_run hunapproved hwaits hrun hlater with hwaits' | hauthorized'
      · exact absurd hpays hwaits'.unpaid
      · exact hauthorized'
    · -- The choice itself is no answer of the phone.
      obtain ⟨c, hc, -, verdict', created, resp, -, hawaiting, -⟩ := hauthorized
      obtain rfl := List.mem_singleton.mp hc
      exact absurd (here.symm.trans hawaiting) (by simp)

theorem unapproved_verdict {l : ListStore} {ok : ListAccess} {now : ℕ} {did : String} {amount : UInt64}
    (h : Unapproved l ok now did amount) :
    l.riskCheck ok now did amount ≠ .ok .blocked ∧
      ∀ max label, l.riskCheck ok now did amount ≠ .ok (.autoApproved max label) := by
  rcases h with ⟨hneeds, -⟩ | ⟨e, herror⟩
  · rw [hneeds]
    exact ⟨by simp, by simp⟩
  · rw [herror]
    exact ⟨by simp, by simp⟩

end

/-- A challenge from its risk check on, whatever else happens.  A blocked one is never paid.  One that
is not approved is paid after an authorization in every run in which it chooses the phone; where it
comes to choose, it is paid only so in all that follows exactly if it does. -/
theorem verdicts_stand_iff {server : Server} {i : ℕ} {a : Answer} {s s₁ : World}
    (harrived : (s.tasks i).stage = .arrived) (hunpaid : ¬ Pays i s)
    (hrisk : exec server (.runs i a) s = .ok s₁) :
    (s.shared.lists.riskCheck a.lists s.shared.now (s.tasks i).merchantDid (s.tasks i).amount
        = .ok .blocked → ∀ h s', Run (exec server) s₁ h s' → ¬ Pays i s') ∧
    (Unapproved s.shared.lists a.lists s.shared.now (s.tasks i).merchantDid (s.tasks i).amount →
      (∀ h s', Run (exec server) s₁ h s' → (∀ c ∈ h, ChoosesPhone server i c.1 c.2) →
        Pays i s' → PhoneAuthorized i h) ∧
      ∀ h s₂ a' s₃ verdict, Run (exec server) s₁ h s₂ → (s₂.tasks i).stage = .checked verdict →
        s₂.shared.mutex = none → exec server (.runs i a') s₂ = .ok s₃ →
        ((∀ h' s', Run (exec server) s₃ h' s' → Pays i s' → PhoneAuthorized i h') ↔
          bypassed server a' s₂.shared (s₂.tasks i).amount = false)) := by
  obtain ⟨t', x', hnext, rfl⟩ := System.turn_eq_ok.mp hrisk
  rw [Task.next, harrived] at hnext
  obtain ⟨rfl, rfl⟩ := Prod.mk.inj (Except.ok.inj hnext)
  generalize hs₁ : (⟨s.shared, Function.update s.tasks i (checkRisk a (s.tasks i) s.shared)⟩ : World)
    = s₁ at hrisk ⊢
  have htask : s₁.tasks i = checkRisk a (s.tasks i) s.shared := by
    rw [← hs₁]
    exact Function.update_self ..
  have hunpaid₁ : ¬ Pays i s₁ := by
    rw [← hs₁]
    exact hunpaid
  constructor
  · intro hblocked h s' hrun
    have hdone : (s₁.tasks i).stage = .done (.rejected .blacklisted) := by
      rw [htask, checkRisk, hblocked]
      rfl
    exact unpaid_of_done hdone hunpaid₁ hrun
  · intro hunapproved
    obtain ⟨hpasses, hnotAuto⟩ := unapproved_verdict hunapproved
    have hchecked : (s₁.tasks i).stage = .checked (s.shared.lists.riskCheck a.lists s.shared.now
        (s.tasks i).merchantDid (s.tasks i).amount) := by
      rw [htask]
      unfold checkRisk
      split
      · next hblocked => exact absurd hblocked hpasses
      · rfl
    generalize s.shared.lists.riskCheck a.lists s.shared.now (s.tasks i).merchantDid
      (s.tasks i).amount = verdict₀ at hnotAuto hchecked
    constructor
    · intro h s' hrun hchooses hpays
      rcases waits_of_run hnotAuto ⟨hunpaid₁, .inl hchecked⟩ hrun hchooses with hwaits | hauthorized
      · exact absurd hpays hwaits.unpaid
      · exact hauthorized
    · intro h s₂ a' s₃ verdict hrun here hfree hexec
      obtain ⟨here₀, hunpaid₂⟩ : (s₂.tasks i).stage = .checked verdict₀ ∧ ¬ Pays i s₂ := by
        rcases undecided_of_run hchecked hunpaid₁ hrun with hboth | hdecided
        · exact hboth
        · rw [here] at hdecided
          exact hdecided.elim
      exact authorized_iff_of_choice hnotAuto here₀ hunpaid₂ hfree hexec

namespace Sample

/-- The blacklist cannot be read. -/
def unreadable : Answer := { answer with lists := ⟨false, true, true⟩ }

/-- The merchant has had 60 of its 100; every challenge asks for 60. -/
def nearCap : World := challenges ((∅ : Store.Map String UInt64).insert merchant 60) ∅ 60

/-- Up to 100 is paid without asking. -/
def generous : Server := ⟨100, fill 32 1, true⟩

/-- Nothing is paid without asking, and there are no sessions. -/
def strict : Server := ⟨0, fill 32 1, false⟩

end Sample

/-- One challenge is over the cap, for the other the lists cannot be read; the threshold has both paid
and no phone is asked. -/
theorem paid_over_cap : ∃ h s, Run (exec Sample.generous) Sample.nearCap h s ∧
    h.map Prod.snd = (Sample.turns ([0, 0, 0, 0, 0, 0].map (·, Sample.answer) ++
      (1, Sample.unreadable) :: [1, 1, 1].map (·, Sample.answer))).reverse ∧
    s.shared.payments.map (fun p => (p.task, p.path)) = [(1, .autoApprove), (0, .autoApprove)] :=
  Run.exists_of_test (by decide +kernel)

theorem overCap_nearCap : OverCap Sample.nearCap.shared.lists Sample.answer.lists 1000
    Sample.merchant 60 :=
  ⟨by decide, ⟨some 100, none, none⟩, 100, by decide, by decide, rfl,
    by decide, by decide⟩

/-- Without a threshold and without sessions the challenge waits for the phone in every run. -/
theorem over_cap_waits : ∃ s₁, exec Sample.strict (.runs 0 Sample.answer) Sample.nearCap = .ok s₁ ∧
    ∀ h s', Run (exec Sample.strict) s₁ h s' → Pays 0 s' → PhoneAuthorized 0 h := by
  have hunpaid : ¬ Pays 0 Sample.nearCap := by
    rintro ⟨p, hp, -⟩
    exact absurd hp (by simp [Sample.nearCap, Sample.challenges])
  have hrisk : exec Sample.strict (.runs 0 Sample.answer) Sample.nearCap = .ok _ :=
    System.turn_of_next rfl
  refine ⟨_, hrisk, fun h s' hrun => ?_⟩
  have hphone : ∀ c ∈ h, ChoosesPhone Sample.strict 0 c.1 c.2 := by
    intro c _ a verdict _ _
    have hsession : getActiveSession Sample.strict a c.1.shared = none :=
      if_neg fun h => absurd h.1 (by decide)
    have hauto : autoApproves Sample.strict (c.1.tasks 0).amount = false :=
      decide_eq_false fun h => absurd h.1 (by decide)
    simp [bypassed, hsession, hauto]
  exact ((verdicts_stand_iff rfl hunpaid hrisk).2 (.inl overCap_nearCap)).1 h s' hrun hphone

end Agent
