/-
Machines that answer each call.

`step i s` is the answer to call `i` in state `s` and the state after it.  Where two
such machines keep a relation between their states and answer alike in related
states, they answer alike to every list of calls (`forall₂_answers`); a condition
that each call is to meet may depend on the state the call finds (`AllCalls`).
-/
import Mathlib

namespace Machine

variable {σ τ ι ο : Type}

/-- The answers to a list of calls, in order. -/
def answers (step : ι → σ → ο × σ) : List ι → σ → List ο
  | [], _ => []
  | i :: is, s => (step i s).1 :: answers step is (step i s).2

/-- The state that a list of calls leads to. -/
def after (step : ι → σ → ο × σ) (is : List ι) (s : σ) : σ := is.foldl (fun s i => (step i s).2) s

/-- Every call of a list meets a condition in the state it finds. -/
def AllCalls (step : ι → σ → ο × σ) (A : σ → ι → Prop) : List ι → σ → Prop
  | [], _ => True
  | i :: is, s => A s i ∧ AllCalls step A is (step i s).2

variable {step : ι → σ → ο × σ} {step' : ι → τ → ο × τ} {A : σ → ι → Prop}

theorem after_append (is : List ι) (i : ι) (s : σ) :
    after step (is ++ [i]) s = (step i (after step is s)).2 := by
  rw [after, List.foldl_append]
  rfl

theorem allCalls_of_forall {is : List ι} (h : ∀ i ∈ is, ∀ s, A s i) (s : σ) :
    AllCalls step A is s := by
  induction is generalizing s with
  | nil => trivial
  | cons i is ih =>
    obtain ⟨hi, hrest⟩ := List.forall_mem_cons.mp h
    exact ⟨hi s, ih hrest _⟩

/-- What every call keeps holds at the end. -/
theorem after_induction {P : σ → Prop} {is : List ι} {s : σ}
    (hstep : ∀ s i, P s → A s i → P (step i s).2) (hstart : P s) (hall : AllCalls step A is s) :
    P (after step is s) := by
  induction is generalizing s with
  | nil => exact hstart
  | cons i is ih => exact ih (hstep s i hstart hall.1) hall.2

/-- The simulation rule. -/
theorem forall₂_answers {R : σ → τ → Prop} {Like : ο → ο → Prop} {is : List ι} {s : σ} {t : τ}
    (hall : AllCalls step A is s) (hstart : R s t)
    (hstep : ∀ s t i, R s t → A s i →
      Like (step i s).1 (step' i t).1 ∧ R (step i s).2 (step' i t).2) :
    List.Forall₂ Like (answers step is s) (answers step' is t) ∧
      R (after step is s) (after step' is t) := by
  induction is generalizing s t with
  | nil => exact ⟨.nil, hstart⟩
  | cons i is ih =>
    obtain ⟨hlike, hnext⟩ := hstep s t i hstart hall.1
    obtain ⟨hanswers, hend⟩ := ih hall.2 hnext
    exact ⟨.cons hlike hanswers, hend⟩

end Machine
