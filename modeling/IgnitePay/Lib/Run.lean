/-
Runs of a fallible transition function.

`exec i s` is what call `i` does in state `s`; a call that fails changes
nothing, so a run lists the calls that went through, each with the state it
was made in, the latest first.  These rules turn step lemmas into facts about
runs:

* `Run.invariant` — what every call preserves holds in every state reached;
* `Run.invariant_of` — the same for the runs whose calls all meet a condition;
* `Run.isChain_of` — what every call does to the state holds from each state to
  the next, and, if it is transitive, from each to all later ones;
* `Run.forall_states_iff` — where a condition says exactly which calls keep a
  property, the runs that keep it throughout are those that meet it throughout.
-/
import Mathlib

namespace Machine

variable {σ ι ε : Type} {exec : ι → σ → Except ε σ} {s₀ s : σ} {h : List (σ × ι)}

/-- `Run exec s₀ h s`: from `s₀` the calls of `h` lead to `s`. -/
inductive Run (exec : ι → σ → Except ε σ) (s₀ : σ) : List (σ × ι) → σ → Prop
  | start : Run exec s₀ [] s₀
  | step {h : List (σ × ι)} {s s' : σ} {i : ι} :
      Run exec s₀ h s → exec i s = .ok s' → Run exec s₀ ((s, i) :: h) s'

namespace Run

theorem invariant_of {P : σ → Prop} (allowed : σ → ι → Prop) (hstart : P s₀)
    (hstep : ∀ s i s', P s → allowed s i → exec i s = .ok s' → P s')
    (hrun : Run exec s₀ h s) (hall : ∀ c ∈ h, allowed c.1 c.2) : P s := by
  induction hrun with
  | start => exact hstart
  | step _ he ih =>
    have hlast := hall _ List.mem_cons_self
    exact hstep _ _ _ (ih fun c hc => hall c (List.mem_cons_of_mem _ hc)) hlast he

theorem invariant {P : σ → Prop} (hstart : P s₀)
    (hstep : ∀ s i s', P s → exec i s = .ok s' → P s') (hrun : Run exec s₀ h s) : P s :=
  invariant_of (fun _ _ => True) hstart (fun s i s' hp _ he => hstep s i s' hp he)
    hrun (fun _ _ => trivial)

/-- Every call of a run was made in a state that an earlier part of the run led
to, and went through. -/
theorem of_mem (hrun : Run exec s₀ h s) {c : σ × ι} (hc : c ∈ h) :
    ∃ h₁ s₁, Run exec s₀ h₁ c.1 ∧ h₁ ⊆ h ∧ exec c.2 c.1 = .ok s₁ := by
  induction hrun with
  | start => exact absurd hc (by simp)
  | step hr he ih =>
    rcases List.mem_cons.mp hc with rfl | hc
    · exact ⟨_, _, hr, List.subset_cons_self _ _, he⟩
    · obtain ⟨h₁, s₁, hr₁, hsub, he₁⟩ := ih hc
      exact ⟨h₁, s₁, hr₁, fun _ hx => List.mem_cons_of_mem _ (hsub hx), he₁⟩

/-- A run that makes a call is a run up to it and one after it. -/
theorem split {later earlier : List (σ × ι)} {c : σ × ι}
    (hrun : Run exec s₀ (later ++ c :: earlier) s) :
    ∃ s₁, Run exec s₀ earlier c.1 ∧ exec c.2 c.1 = .ok s₁ ∧ Run exec s₁ later s := by
  induction later generalizing s with
  | nil =>
    cases hrun with
    | step hr he => exact ⟨s, hr, he, .start⟩
  | cons c' later ih =>
    cases hrun with
    | step hr he =>
      obtain ⟨s₁, hbefore, hcall, hafter⟩ := ih hr
      exact ⟨s₁, hbefore, hcall, .step hafter he⟩

/-- The states of a run, the latest first. -/
def states (h : List (σ × ι)) (s : σ) : List σ := s :: h.map Prod.fst

theorem start_mem_states (hrun : Run exec s₀ h s) : s₀ ∈ states h s := by
  induction hrun with
  | start => exact List.mem_singleton_self _
  | step _ _ ih => exact List.mem_cons_of_mem _ ih

/-- Every call of a run led to a state of the run. -/
theorem next_mem_states (hrun : Run exec s₀ h s) {c : σ × ι} (hc : c ∈ h) :
    ∃ s₁ ∈ states h s, exec c.2 c.1 = .ok s₁ := by
  induction hrun with
  | start => exact absurd hc (by simp)
  | @step h s s' i _ he ih =>
    rcases List.mem_cons.mp hc with rfl | hc
    · exact ⟨s', List.mem_cons_self, he⟩
    · obtain ⟨s₁, hs₁, he₁⟩ := ih hc
      exact ⟨s₁, List.mem_cons_of_mem _ hs₁, he₁⟩

/-- What is so at the end of every run is so in every state of a run. -/
theorem forall_states {P : σ → Prop} (hend : ∀ h s, Run exec s₀ h s → P s)
    (hrun : Run exec s₀ h s) : ∀ s' ∈ states h s, P s' := by
  intro s' hs'
  rcases List.mem_cons.mp hs' with rfl | hs'
  · exact hend h s' hrun
  · obtain ⟨c, hc, rfl⟩ := List.mem_map.mp hs'
    obtain ⟨h₁, s₁, hbefore, -, -⟩ := hrun.of_mem hc
    exact hend h₁ c.1 hbefore

/-- A property of all states, where a call keeps it exactly if it meets a
condition; `given` is what is known of all calls. -/
theorem forall_states_iff_given {P : σ → Prop} {allowed : σ → ι → Prop} (given : σ → ι → Prop)
    (hstart : P s₀)
    (hstep : ∀ h s i s', Run exec s₀ h s → (∀ c ∈ h, given c.1 c.2) → P s → given s i →
      exec i s = .ok s' → (P s' ↔ allowed s i))
    (hrun : Run exec s₀ h s) (hgiven : ∀ c ∈ h, given c.1 c.2) :
    (∀ s' ∈ states h s, P s') ↔ ∀ c ∈ h, allowed c.1 c.2 := by
  induction hrun with
  | start =>
    constructor
    · intro _ c hc
      exact absurd hc (by simp)
    · intro _ s' hs'
      exact List.mem_singleton.mp hs' ▸ hstart
  | @step h s s' i hr he ih =>
    obtain ⟨hi, hrest⟩ := List.forall_mem_cons.mp hgiven
    have ih := ih hrest
    have hcons : states ((s, i) :: h) s' = s' :: states h s := rfl
    rw [hcons, List.forall_mem_cons, List.forall_mem_cons, ih]
    -- In both directions the property of `s` comes first: only then is `hstep` about `i`.
    constructor
    · rintro ⟨hs', hall⟩
      have hs : P s := ih.mpr hall s List.mem_cons_self
      exact ⟨(hstep h s i s' hr hrest hs hi he).mp hs', hall⟩
    · rintro ⟨hlast, hall⟩
      have hs : P s := ih.mpr hall s List.mem_cons_self
      exact ⟨(hstep h s i s' hr hrest hs hi he).mpr hlast, hall⟩

/-- The same, where the step needs nothing of what is known of the earlier calls. -/
theorem forall_states_iff {P : σ → Prop} {allowed : σ → ι → Prop} (given : σ → ι → Prop)
    (hstart : P s₀)
    (hstep : ∀ h s i s', Run exec s₀ h s → P s → given s i → exec i s = .ok s' →
      (P s' ↔ allowed s i))
    (hrun : Run exec s₀ h s) (hgiven : ∀ c ∈ h, given c.1 c.2) :
    (∀ s' ∈ states h s, P s') ↔ ∀ c ∈ h, allowed c.1 c.2 :=
  forall_states_iff_given given hstart (fun h s i s' hr _ => hstep h s i s' hr) hrun hgiven

/-- The same, where an invariant of the runs that meet the condition carries the property:
an allowed call keeps the invariant, and from a state that has it only an allowed call leads
to the property again. -/
theorem forall_states_iff_of_invariant {P J : σ → Prop} {allowed : σ → ι → Prop}
    (given : σ → ι → Prop) (hstart : J s₀) (hproperty : ∀ s, J s → P s)
    (hstep : ∀ s i s', J s → given s i → allowed s i → exec i s = .ok s' → J s')
    (hneeded : ∀ s i s', J s → given s i → exec i s = .ok s' → P s' → allowed s i)
    (hrun : Run exec s₀ h s) (hgiven : ∀ c ∈ h, given c.1 c.2) :
    (∀ s' ∈ states h s, P s') ↔ ∀ c ∈ h, allowed c.1 c.2 := by
  have hinvariant : ∀ {h s}, Run exec s₀ h s → (∀ c ∈ h, given c.1 c.2) →
      (∀ c ∈ h, allowed c.1 c.2) → J s := by
    intro h s hrun hgiven hall
    refine hrun.invariant_of (fun s i => given s i ∧ allowed s i) hstart ?_ ?_
    · exact fun s i s' hJ hi he => hstep s i s' hJ hi.1 hi.2 he
    · exact fun c hc => ⟨hgiven c hc, hall c hc⟩
  induction hrun with
  | start =>
    constructor
    · intro _ c hc
      exact absurd hc (by simp)
    · intro _ s' hs'
      exact List.mem_singleton.mp hs' ▸ hproperty _ hstart
  | @step h s s' i hr he ih =>
    obtain ⟨hi, hrest⟩ := List.forall_mem_cons.mp hgiven
    have hbefore : (∀ s' ∈ states h s, P s') ↔ ∀ c ∈ h, allowed c.1 c.2 := ih hrest
    have hcons : states ((s, i) :: h) s' = s' :: states h s := rfl
    rw [hcons, List.forall_mem_cons, List.forall_mem_cons, hbefore]
    constructor
    · rintro ⟨hs', hall⟩
      exact ⟨hneeded s i s' (hinvariant hr hrest hall) hi he hs', hall⟩
    · rintro ⟨hlast, hall⟩
      have hJ : J s := hinvariant hr hrest hall
      exact ⟨hproperty s' (hstep s i s' hJ hi hlast he), hall⟩

/-- Where every allowed call relates the state before it to the state after, the
states of a run form a chain. -/
theorem isChain_of {R : σ → σ → Prop} (allowed : σ → ι → Prop)
    (hstep : ∀ h s i s', Run exec s₀ h s → allowed s i → exec i s = .ok s' → R s s')
    (hrun : Run exec s₀ h s) (hall : ∀ c ∈ h, allowed c.1 c.2) :
    (states h s).IsChain fun s' s => R s s' := by
  induction hrun with
  | start => exact .singleton _
  | @step h s s' i hr he ih =>
    obtain ⟨hi, hrest⟩ := List.forall_mem_cons.mp hall
    have hcons : states ((s, i) :: h) s' = s' :: s :: h.map Prod.fst := rfl
    rw [hcons, List.isChain_cons_cons]
    exact ⟨hstep h s i s' hr hi he, ih hrest⟩

/-- Where a condition says exactly which calls do so, the states form a chain only then. -/
theorem isChain_iff {R : σ → σ → Prop} {allowed : σ → ι → Prop}
    (hstep : ∀ h s i s', Run exec s₀ h s → exec i s = .ok s' → (R s s' ↔ allowed s i))
    (hrun : Run exec s₀ h s) :
    ((states h s).IsChain fun s' s => R s s') ↔ ∀ c ∈ h, allowed c.1 c.2 := by
  induction hrun with
  | start => exact ⟨fun _ c hc => absurd hc (by simp), fun _ => .singleton _⟩
  | @step h s s' i hr he ih =>
    have hcons : states ((s, i) :: h) s' = s' :: s :: h.map Prod.fst := rfl
    rw [hcons, List.isChain_cons_cons, List.forall_mem_cons]
    exact and_congr (hstep h s i s' hr he) ih

/-- A transitive relation then holds between any two of them. -/
theorem pairwise_of_isChain {l : List σ} {R : σ → σ → Prop} (htrans : ∀ a b c, R a b → R b c → R a c)
    (h : l.IsChain fun s' s => R s s') : l.Pairwise fun s' s => R s s' := by
  have : Trans (fun s' s => R s s') (fun s' s => R s s') (fun s' s => R s s') :=
    ⟨fun hab hbc => htrans _ _ _ hbc hab⟩
  exact h.pairwise

/-- Execute a list of calls in order, stopping at the first that fails. -/
def execAll (exec : ι → σ → Except ε σ) : List ι → σ → Except ε σ
  | [], s => .ok s
  | i :: is, s => exec i s >>= execAll exec is

/-- A list of calls that goes through is a run, with these calls as its history. -/
theorem of_execAll {is : List ι} {s' : σ} (hrun : Run exec s₀ h s)
    (he : execAll exec is s = .ok s') :
    ∃ h', Run exec s₀ h' s' ∧ h'.map Prod.snd = is.reverse ++ h.map Prod.snd := by
  induction is generalizing h s with
  | nil =>
    simp only [execAll, Except.ok.injEq] at he
    exact ⟨h, he ▸ hrun, rfl⟩
  | cons i is ih =>
    rw [execAll] at he
    rcases hi : exec i s with e | s₁
    · rw [hi] at he
      exact absurd he (by simp [bind, Except.bind])
    · rw [hi] at he
      obtain ⟨h', hrun', hcalls⟩ := ih (.step hrun hi) he
      refine ⟨h', hrun', ?_⟩
      rw [hcalls, List.reverse_cons, List.append_assoc]
      rfl

/-- A list of calls is tried out: where it leads to a state that passes a test,
some run leads there. -/
theorem exists_of_test {is : List ι} {P : σ → Prop} [DecidablePred P]
    (ht : (execAll exec is s₀).toOption.any (fun s => decide (P s)) = true) :
    ∃ h s, Run exec s₀ h s ∧ h.map Prod.snd = is.reverse ∧ P s := by
  rcases he : execAll exec is s₀ with e | s
  · rw [he] at ht
    exact absurd ht (by simp [Except.toOption])
  · rw [he] at ht
    obtain ⟨h, hrun, hcalls⟩ := of_execAll .start he
    exact ⟨h, s, hrun, by simpa using hcalls, of_decide_eq_true ht⟩

/-- The same, where the run is to start after the first call. -/
theorem exists_of_test_after {i : ι} {is : List ι} {P : σ → Prop} [DecidablePred P]
    (ht : (execAll exec (i :: is) s₀).toOption.any (fun s => decide (P s)) = true) :
    ∃ s₁ h s, exec i s₀ = .ok s₁ ∧ Run exec s₁ h s ∧ h.map Prod.snd = is.reverse ∧ P s := by
  rw [execAll] at ht
  rcases hi : exec i s₀ with e | s₁
  · rw [hi] at ht
    exact absurd ht (by simp [bind, Except.bind, Except.toOption])
  · rw [hi] at ht
    obtain ⟨h, s, hrun, hcalls, hp⟩ := @exists_of_test _ _ _ exec s₁ is P _ ht
    exact ⟨s₁, h, s, rfl, hrun, hcalls, hp⟩

/-- Try out a list of calls, with a condition on each call and a test of the last state. -/
def tryAll (exec : ι → σ → Except ε σ) (A : σ → ι → Prop) (P : σ → Prop)
    [∀ s i, Decidable (A s i)] [DecidablePred P] : List ι → σ → Bool
  | [], s => decide (P s)
  | i :: is, s => decide (A s i) && (exec i s).toOption.any fun s' => tryAll exec A P is s'

theorem exists_of_tryAll {is : List ι} {A : σ → ι → Prop} {P : σ → Prop} [∀ s i, Decidable (A s i)]
    [DecidablePred P] (hrun : Run exec s₀ h s) (hall : ∀ c ∈ h, A c.1 c.2)
    (ht : tryAll exec A P is s = true) :
    ∃ h' s', Run exec s₀ h' s' ∧ h'.map Prod.snd = is.reverse ++ h.map Prod.snd ∧
      (∀ c ∈ h', A c.1 c.2) ∧ P s' := by
  induction is generalizing h s with
  | nil => exact ⟨h, s, hrun, rfl, hall, of_decide_eq_true ht⟩
  | cons i is ih =>
    obtain ⟨hi, ht⟩ := Bool.and_eq_true_iff.mp ht
    rcases he : exec i s with e | s₁
    · rw [he] at ht
      exact absurd ht (by simp [Except.toOption])
    · rw [he] at ht
      obtain ⟨h', s', hrun', hcalls, hall', hp⟩ := ih (.step hrun he)
        (List.forall_mem_cons.mpr ⟨of_decide_eq_true hi, hall⟩) ht
      refine ⟨h', s', hrun', ?_, hall', hp⟩
      rw [hcalls, List.reverse_cons, List.append_assoc]
      rfl

/-- Execute a list of calls after a run, and keep its history. -/
def record (exec : ι → σ → Except ε σ) : List ι → List (σ × ι) → σ → Except ε (List (σ × ι) × σ)
  | [], h, s => .ok (h, s)
  | i :: is, h, s => exec i s >>= record exec is ((s, i) :: h)

theorem of_record {is : List ι} {r : List (σ × ι) × σ} (hrun : Run exec s₀ h s)
    (hr : record exec is h s = .ok r) : Run exec s₀ r.1 r.2 := by
  induction is generalizing h s with
  | nil =>
    obtain rfl := Except.ok.inj hr
    exact hrun
  | cons i is ih =>
    rw [record] at hr
    rcases hi : exec i s with e | s₁
    · rw [hi] at hr
      exact absurd hr (by simp [bind, Except.bind])
    · rw [hi] at hr
      exact ih (.step hrun hi) hr

/-- A list of calls is tried out with a test of the history as well. -/
theorem exists_of_record {is : List ι} {test : List (σ × ι) × σ → Bool}
    (ht : (record exec is [] s₀).toOption.any test = true) :
    ∃ h s, Run exec s₀ h s ∧ test (h, s) = true := by
  rcases hr : record exec is [] s₀ with e | r
  · rw [hr] at ht
    exact absurd ht (by simp [Except.toOption])
  · rw [hr] at ht
    exact ⟨r.1, r.2, of_record .start hr, ht⟩

/-- A condition on the calls alone is checked on the list they came from. -/
theorem forall_of_calls {A : σ → ι → Prop} {is : List ι} (hcalls : h.map Prod.snd = is.reverse)
    (hA : ∀ i ∈ is, ∀ s, A s i) : ∀ c ∈ h, A c.1 c.2 := by
  intro c hc
  have hmem : c.2 ∈ h.map Prod.snd := List.mem_map_of_mem hc
  rw [hcalls, List.mem_reverse] at hmem
  exact hA c.2 hmem c.1

end Run

end Machine
