/-
Handlers of requests that share a store.

A handler accesses the shared state, goes on with what it has found there, and in the end
gives an answer; between two accesses others may come in.  `Handler.run` lets a handler run
alone, and `Handler.next` makes it a task, so that a run of turns of a system is an
interleaving of any number of handlers.

* `run_check`, `run_orAnswer`, `run_call`, `run_modify` — a handler that runs alone, one step
  at a time;
* `Handler.Does` — what every access of a handler does to the state;
* `Handler.invariant` — what all of these keep, every interleaving keeps;
* `Handler.Keeps`, `Handler.invariant_of_keeps` — the same, where a handler may rely on what it has
  found.
-/
import IgnitePay.Lib.Tasks

namespace Machine

/-- A handler over a state `σ` that answers with an `α`.  One access finds a state and writes
another one; how the handler goes on depends on what it has found. -/
inductive Handler (σ α : Type)
  | answer (a : α)
  | access (write : σ → σ) (next : σ → Handler σ α)

namespace Handler

variable {σ α β : Type}

/-- One access that gives a value. -/
def call (f : σ → β × σ) (k : β → Handler σ α) : Handler σ α :=
  .access (fun s => (f s).2) fun s => k (f s).1

def read (f : σ → β) (k : β → Handler σ α) : Handler σ α := .access id fun s => k (f s)

def modify (f : σ → σ) (k : Handler σ α) : Handler σ α := .access f fun _ => k

/-- `if !c { return a }`. -/
def check (c : Prop) [Decidable c] (a : α) (k : Handler σ α) : Handler σ α :=
  if c then k else .answer a

/-- A `Result` whose error is the answer. -/
def orAnswer (x : Except α β) (k : β → Handler σ α) : Handler σ α :=
  match x with
  | .ok b => k b
  | .error a => .answer a

/-- One handler after another, which goes on with the answer of the first. -/
def bind : Handler σ α → (α → Handler σ β) → Handler σ β
  | .answer a, k => k a
  | .access write next, k => .access write fun s => (next s).bind k

/-! ### One handler alone -/

/-- The answer, and the state it leaves. -/
def run : Handler σ α → σ → α × σ
  | .answer a, s => (a, s)
  | .access write next, s => run (next s) (write s)

variable {s : σ} {k : β → Handler σ α}

@[simp] theorem run_answer (a : α) (s : σ) : (Handler.answer a).run s = (a, s) := rfl

theorem run_call (f : σ → β × σ) : (call f k).run s = (k (f s).1).run (f s).2 := rfl

theorem run_read (f : σ → β) : (read f k).run s = (k (f s)).run s := rfl

theorem run_modify (f : σ → σ) (k : Handler σ α) : (modify f k).run s = k.run (f s) := rfl

theorem run_check {c : Prop} [Decidable c] (a : α) (k : Handler σ α) :
    (check c a k).run s = if c then k.run s else (a, s) := by
  rw [check]
  split
  · rfl
  · rfl

theorem run_check_pos {c : Prop} [Decidable c] (h : c) (a : α) (k : Handler σ α) :
    (check c a k).run s = k.run s := by
  rw [check, if_pos h]

theorem run_orAnswer (x : Except α β) :
    (orAnswer x k).run s = match x with
      | .ok b => (k b).run s
      | .error a => (a, s) := by
  cases x with
  | ok b => rfl
  | error a => rfl

theorem run_bind (h : Handler σ α) (k : α → Handler σ β) (s : σ) :
    (h.bind k).run s = (k (h.run s).1).run (h.run s).2 := by
  induction h generalizing s with
  | answer a => rfl
  | access write next ih => exact ih s (write s)

/-- What holds of a handler that goes on, and of one that stops. -/
theorem check_cases {P : α × σ → Prop} {c : Prop} [Decidable c] {a : α} {k : Handler σ α}
    (hstop : P (a, s)) (hgo : c → P (k.run s)) : P ((check c a k).run s) := by
  rw [run_check]
  split
  · next h => exact hgo h
  · exact hstop

theorem orAnswer_cases {P : α × σ → Prop} {x : Except α β}
    (hstop : ∀ a, x = .error a → P (a, s)) (hgo : ∀ b, x = .ok b → P ((k b).run s)) :
    P ((orAnswer x k).run s) := by
  cases x with
  | ok b => exact hgo b rfl
  | error a => exact hstop a rfl

/-! ### Handlers that come in between each other -/

/-- A handler as a task; one that has answered has no turn left. -/
def next : Handler σ α → σ → Except Unit (Handler σ α × σ)
  | .answer _, _ => .error ()
  | .access write next, s => .ok (next s, write s)

/-- Every access of the handler relates the state before it to the state after. -/
def Does (R : σ → σ → Prop) : Handler σ α → Prop
  | .answer _ => True
  | .access write next => ∀ s, R s (write s) ∧ Does R (next s)

variable {R : σ → σ → Prop}

theorem does_call {f : σ → β × σ} (hf : ∀ s, R s (f s).2) (hk : ∀ b, Does R (k b)) :
    Does R (call f k) := fun s => ⟨hf s, hk _⟩

theorem does_read (hR : ∀ s, R s s) {f : σ → β} (hk : ∀ b, Does R (k b)) : Does R (read f k) :=
  fun s => ⟨hR s, hk _⟩

theorem does_modify {f : σ → σ} {k : Handler σ α} (hf : ∀ s, R s (f s)) (hk : Does R k) :
    Does R (modify f k) := fun s => ⟨hf s, hk⟩

theorem does_check {c : Prop} [Decidable c] {a : α} {k : Handler σ α} (hk : Does R k) :
    Does R (check c a k) := by
  rw [check]
  split
  · exact hk
  · trivial

theorem does_orAnswer {x : Except α β} (hk : ∀ b, Does R (k b)) : Does R (orAnswer x k) := by
  cases x with
  | ok b => exact hk b
  | error a => trivial

/-- The same, where it is known what the result was. -/
theorem does_orAnswer_of {x : Except α β} (hk : ∀ b, x = .ok b → Does R (k b)) :
    Does R (orAnswer x k) := by
  cases x with
  | ok b => exact hk b rfl
  | error a => trivial

theorem Does.imp {R' : σ → σ → Prop} (himp : ∀ s s', R s s' → R' s s') {h : Handler σ α}
    (hdoes : Does R h) : Does R' h := by
  induction h with
  | answer a => trivial
  | access write next ih => exact fun s => ⟨himp s _ (hdoes s).1, ih s (hdoes s).2⟩

/-- What the accesses of all handlers keep holds in every state of an interleaving of them. -/
theorem invariant {P : σ → Prop} (hkeep : ∀ s s', P s → R s s' → P s')
    {s₀ s : System σ (Handler σ α)} (hstart : P s₀.shared) (hdoes : ∀ i, Does R (s₀.tasks i))
    {h : List (System σ (Handler σ α) × ℕ)} (hrun : Run (System.turn next) s₀ h s) : P s.shared := by
  refine (System.invariant (J := P) (K := fun _ t => Does R t) ?_ ?_ ?_ hstart hdoes hrun).1
  · intro x t t' x' hx ht hnext
    cases t with
    | answer a => exact absurd hnext (by simp [next])
    | access write k =>
      obtain ⟨rfl, rfl⟩ := Prod.mk.inj (Except.ok.inj hnext)
      exact hkeep _ _ hx (ht x).1
  · intro x t t' x' _ ht hnext
    cases t with
    | answer a => exact absurd hnext (by simp [next])
    | access write k =>
      obtain ⟨rfl, rfl⟩ := Prod.mk.inj (Except.ok.inj hnext)
      exact (ht x).2
  · exact fun _ _ _ _ _ _ _ _ hu => hu

/-! ### Handlers that rely on what they have found -/

/-- Every access of the handler keeps `P`, if every state that it finds has it. -/
def Keeps (P : σ → Prop) : Handler σ α → Prop
  | .answer _ => True
  | .access write next => ∀ s, P s → P (write s) ∧ Keeps P (next s)

variable {P : σ → Prop}

theorem keeps_answer (a : α) : Keeps P (.answer a : Handler σ α) := trivial

theorem keeps_call {f : σ → β × σ} (hf : ∀ s, P s → P (f s).2)
    (hk : ∀ s, P s → Keeps P (k (f s).1)) : Keeps P (call f k) := fun s hs => ⟨hf s hs, hk s hs⟩

theorem keeps_read {f : σ → β} (hk : ∀ s, P s → Keeps P (k (f s))) : Keeps P (read f k) :=
  fun s hs => ⟨hs, hk s hs⟩

theorem keeps_modify {f : σ → σ} {k : Handler σ α} (hf : ∀ s, P s → P (f s)) (hk : Keeps P k) :
    Keeps P (modify f k) := fun s hs => ⟨hf s hs, hk⟩

theorem keeps_check {c : Prop} [Decidable c] {a : α} {k : Handler σ α} (hk : c → Keeps P k) :
    Keeps P (check c a k) := by
  rw [check]
  split
  · next h => exact hk h
  · trivial

theorem keeps_bind {h : Handler σ α} {k : α → Handler σ β} (hh : Keeps P h) (hk : ∀ a, Keeps P (k a)) :
    Keeps P (h.bind k) := by
  induction h with
  | answer a => exact hk a
  | access write next ih => exact fun s hs => ⟨(hh s hs).1, ih s (hh s hs).2⟩

/-- What all handlers keep holds in every state of an interleaving of them. -/
theorem invariant_of_keeps {s₀ s : System σ (Handler σ α)} (hstart : P s₀.shared)
    (hkeeps : ∀ i, Keeps P (s₀.tasks i)) {h : List (System σ (Handler σ α) × ℕ)}
    (hrun : Run (System.turn next) s₀ h s) : P s.shared := by
  refine (System.invariant (J := P) (K := fun _ t => Keeps P t) ?_ ?_ ?_ hstart hkeeps hrun).1
  · intro x t t' x' hx ht hnext
    cases t with
    | answer a => exact absurd hnext (by simp [next])
    | access write k =>
      obtain ⟨rfl, rfl⟩ := Prod.mk.inj (Except.ok.inj hnext)
      exact (ht x hx).1
  · intro x t t' x' hx ht hnext
    cases t with
    | answer a => exact absurd hnext (by simp [next])
    | access write k =>
      obtain ⟨rfl, rfl⟩ := Prod.mk.inj (Except.ok.inj hnext)
      exact (ht x hx).2
  · exact fun _ _ _ _ _ _ _ _ hu => hu

end Handler

end Machine
