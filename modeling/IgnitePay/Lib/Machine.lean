/-
Checked machine arithmetic and fallible programs.

Rust's `checked_add`, `checked_sub` and the `+` of a build with overflow checks
all either give the exact result or stop.  Each has one lemma here that says so
over `ℕ` or `ℤ` (`checkedAdd_eq_some`, `checkedSub_eq_some`, `addI64_eq_some`),
and no proof above this file looks at a wrapped value.

A function returning `Result` is a program in `Except`; `bind_eq_ok`,
`require_eq_ok` and `orErr_eq_ok` take a successful run apart into the facts
its steps established, and the `_eq_error` lemmas say where a failure came from.

A method on `&mut` state is a `Method`: what it has written stays written where
it fails.  The `returns_` and `fails_` lemmas take its runs apart in the same way;
`Clean` says of a method that it checks before it writes.
-/
import IgnitePay.Lib.Bytes

namespace Machine

/-! ### Fallible programs -/

section Fallible

variable {ε α β : Type}

/-- `require!(c, e)`. -/
def require (c : Prop) [Decidable c] (e : ε) : Except ε Unit :=
  if c then .ok () else .error e

/-- `o.ok_or(e)?`. -/
def orErr (o : Option α) (e : ε) : Except ε α :=
  match o with
  | some a => .ok a
  | none => .error e

theorem bind_eq_ok {x : Except ε α} {f : α → Except ε β} {r : β} :
    (x >>= f) = .ok r ↔ ∃ a, x = .ok a ∧ f a = .ok r := by
  cases x with
  | error e => simp [bind, Except.bind]
  | ok a => simp [bind, Except.bind]

theorem bind_eq_error {x : Except ε α} {f : α → Except ε β} {e : ε} :
    (x >>= f) = .error e ↔ x = .error e ∨ ∃ a, x = .ok a ∧ f a = .error e := by
  cases x with
  | error e' => simp [bind, Except.bind]
  | ok a => simp [bind, Except.bind]

theorem require_eq_error {c : Prop} [Decidable c] {e e' : ε} :
    require c e = .error e' ↔ ¬ c ∧ e = e' := by
  by_cases h : c
  · simp [require, h]
  · simp [require, h]

theorem orErr_eq_error {o : Option α} {e e' : ε} :
    orErr o e = .error e' ↔ o = none ∧ e = e' := by
  cases o with
  | none => simp [orErr]
  | some b => simp [orErr]

@[simp] theorem require_eq_ok {c : Prop} [Decidable c] {e : ε} {u : Unit} :
    require c e = .ok u ↔ c := by
  unfold require
  split
  · simpa
  · simpa

@[simp] theorem orErr_eq_ok {o : Option α} {e : ε} {a : α} :
    orErr o e = .ok a ↔ o = some a := by
  cases o with
  | none => simp [orErr]
  | some b => simp [orErr]

/-- How a concrete run is evaluated. -/
theorem exists_of_isOk {x : Except ε α} (h : x.isOk = true) : ∃ a, x = .ok a := by
  cases x with
  | error e => exact absurd h (by simp [Except.isOk, Except.toBool])
  | ok a => exact ⟨a, rfl⟩

/-- The same, with a test of the result. -/
theorem exists_of_any {x : Except ε α} {p : α → Bool} (h : x.toOption.any p = true) :
    ∃ a, x = .ok a ∧ p a = true := by
  cases x with
  | error e => exact absurd h (by simp [Except.toOption])
  | ok a => exact ⟨a, rfl, h⟩

/-- A program that starts with a passed check goes on as if it were not there. -/
theorem require_bind {c : Prop} [Decidable c] (h : c) (e : ε) (f : Unit → Except ε β) :
    (require c e >>= f) = f () := by
  rw [require, if_pos h]
  rfl

end Fallible

/-! ### Methods -/

/-- A method on `&mut` state that returns a `Result`. -/
abbrev Method (σ ε α : Type) := ExceptT ε (StateM σ) α

section Methods

variable {σ ε α β : Type}

/-- What the method does from `s`: its result, and the state it leaves. -/
def Method.call (x : Method σ ε α) (s : σ) : Except ε α × σ := (x.run.run s : Id _)

/-- From `s`, the method returns `a` and leaves `s'`. -/
def Returns (x : Method σ ε α) (s : σ) (a : α) (s' : σ) : Prop := x.call s = (.ok a, s')

/-- `if !c { return Err(e) }`. -/
def check (c : Prop) [Decidable c] (e : ε) : Method σ ε Unit := if c then pure () else throw e

/-- `o.ok_or(e)?`. -/
def orThrow (o : Option α) (e : ε) : Method σ ε α :=
  match o with
  | some a => pure a
  | none => throw e

/-- `x?`, of a `Result` that was computed without the state. -/
def ofResult (x : Except ε α) : Method σ ε α :=
  match x with
  | .ok a => pure a
  | .error e => throw e

theorem returns_pure {a b : α} {s s' : σ} :
    Returns (pure a : Method σ ε α) s b s' ↔ a = b ∧ s = s' := by
  show (Except.ok a, s) = (Except.ok b, s') ↔ _
  rw [Prod.mk.injEq, Except.ok.injEq]

theorem call_bind (x : Method σ ε α) (f : α → Method σ ε β) (s : σ) :
    (x >>= f).call s
      = match x.call s with
        | (.ok a, s₁) => (f a).call s₁
        | (.error e, s₁) => (.error e, s₁) := by
  show Method.call (ExceptT.mk (x.run >>= ExceptT.bindCont f)) s = _
  rcases h : x.call s with ⟨e | a, s₁⟩
  · show (ExceptT.bindCont f (x.call s).1).run (x.call s).2 = _
    rw [h]
    rfl
  · show (ExceptT.bindCont f (x.call s).1).run (x.call s).2 = _
    rw [h]
    rfl

theorem returns_bind {x : Method σ ε α} {f : α → Method σ ε β} {b : β} {s s' : σ} :
    Returns (x >>= f) s b s' ↔ ∃ a s₁, Returns x s a s₁ ∧ Returns (f a) s₁ b s' := by
  rw [Returns, call_bind]
  rcases h : x.call s with ⟨e | a, s₁⟩
  · simp [Returns, h]
  · simp [Returns, h]

theorem returns_throw {e : ε} {a : α} {s s' : σ} :
    ¬ Returns (throw e : Method σ ε α) s a s' := by
  intro h
  have herror : (Except.error e, s) = (Except.ok a, s') := h
  exact absurd (congrArg Prod.fst herror) (by simp)

theorem returns_check {c : Prop} [Decidable c] {e : ε} {u : Unit} {s s' : σ} :
    Returns (check c e) s u s' ↔ c ∧ s = s' := by
  rw [check]
  split
  · next hc =>
    rw [returns_pure]
    exact and_congr_left fun _ => iff_of_true rfl hc
  · next hc => exact iff_of_false returns_throw fun h => hc h.1

theorem returns_orThrow {o : Option α} {e : ε} {a : α} {s s' : σ} :
    Returns (orThrow o e) s a s' ↔ o = some a ∧ s = s' := by
  cases o with
  | none => exact iff_of_false returns_throw fun h => absurd h.1 (by simp)
  | some b =>
    rw [orThrow, returns_pure, Option.some_inj]

theorem returns_get {s r s' : σ} :
    Returns (get : Method σ ε σ) s r s' ↔ s = r ∧ s = s' := by
  show (Except.ok s, s) = (Except.ok r, s') ↔ _
  rw [Prod.mk.injEq, Except.ok.injEq]

theorem returns_modify {f : σ → σ} {s s' : σ} {u : Unit} :
    Returns (modify f : Method σ ε Unit) s u s' ↔ f s = s' := by
  show (Except.ok (), f s) = (Except.ok u, s') ↔ _
  rw [Prod.mk.injEq]
  exact and_iff_right rfl

/-! One step at a time. -/

theorem returns_check_bind {c : Prop} [Decidable c] {e : ε} {f : Unit → Method σ ε β} {b : β}
    {s s' : σ} : Returns (check c e >>= f) s b s' ↔ c ∧ Returns (f ()) s b s' := by
  simp only [returns_bind, returns_check]
  constructor
  · rintro ⟨_, s₁, ⟨hc, rfl⟩, hf⟩
    exact ⟨hc, hf⟩
  · rintro ⟨hc, hf⟩
    exact ⟨(), s, ⟨hc, rfl⟩, hf⟩

theorem returns_orThrow_bind {o : Option α} {e : ε} {f : α → Method σ ε β} {b : β} {s s' : σ} :
    Returns (orThrow o e >>= f) s b s' ↔ ∃ a, o = some a ∧ Returns (f a) s b s' := by
  simp only [returns_bind, returns_orThrow]
  constructor
  · rintro ⟨a, s₁, ⟨ha, rfl⟩, hf⟩
    exact ⟨a, ha, hf⟩
  · rintro ⟨a, ha, hf⟩
    exact ⟨a, s, ⟨ha, rfl⟩, hf⟩

theorem returns_ofResult_bind {x : Except ε α} {f : α → Method σ ε β} {b : β} {s s' : σ} :
    Returns (ofResult x >>= f) s b s' ↔ ∃ a, x = .ok a ∧ Returns (f a) s b s' := by
  cases x with
  | error e =>
    simp only [ofResult, returns_bind]
    constructor
    · rintro ⟨a, s₁, h, -⟩
      exact absurd h returns_throw
    · rintro ⟨a, h, -⟩
      exact absurd h (by simp)
  | ok a =>
    rw [ofResult, pure_bind]
    simp

theorem returns_get_bind {f : σ → Method σ ε β} {b : β} {s s' : σ} :
    Returns (get >>= f) s b s' ↔ Returns (f s) s b s' := by
  simp only [returns_bind, returns_get]
  constructor
  · rintro ⟨r, s₁, ⟨rfl, rfl⟩, hf⟩
    exact hf
  · intro hf
    exact ⟨s, s, ⟨rfl, rfl⟩, hf⟩

theorem returns_modify_bind {g : σ → σ} {f : Unit → Method σ ε β} {b : β} {s s' : σ} :
    Returns (modify g >>= f) s b s' ↔ Returns (f ()) (g s) b s' := by
  simp only [returns_bind, returns_modify]
  constructor
  · rintro ⟨_, s₁, rfl, hf⟩
    exact hf
  · intro hf
    exact ⟨(), _, rfl, hf⟩

end Methods

/-! ### Methods that fail -/

section Failures

variable {σ τ ε ε' α β : Type}

/-- From `s`, the method fails with `e` and leaves `s'`. -/
def Fails (x : Method σ ε α) (s : σ) (e : ε) (s' : σ) : Prop := x.call s = (.error e, s')

theorem Returns.unique {x : Method σ ε α} {s s₁ s₂ : σ} {a b : α} (h : Returns x s a s₁)
    (h' : Returns x s b s₂) : a = b ∧ s₁ = s₂ := by
  have heq := h.symm.trans h'
  rw [Prod.mk.injEq, Except.ok.injEq] at heq
  exact heq

theorem Fails.unique {x : Method σ ε α} {s s₁ s₂ : σ} {e e' : ε} (h : Fails x s e s₁)
    (h' : Fails x s e' s₂) : e = e' ∧ s₁ = s₂ := by
  have heq := h.symm.trans h'
  rw [Prod.mk.injEq, Except.error.injEq] at heq
  exact heq

theorem Returns.not_fails {x : Method σ ε α} {s s₁ s₂ : σ} {a : α} {e : ε}
    (h : Returns x s a s₁) : ¬ Fails x s e s₂ := by
  intro h'
  exact absurd (congrArg Prod.fst (h.symm.trans h')) (by simp)

theorem fails_pure {a : α} {e : ε} {s s' : σ} : ¬ Fails (pure a : Method σ ε α) s e s' :=
  Returns.not_fails (returns_pure.mpr ⟨rfl, rfl⟩)

theorem fails_throw {e e' : ε} {s s' : σ} :
    Fails (throw e : Method σ ε α) s e' s' ↔ e = e' ∧ s = s' := by
  show (Except.error e, s) = (Except.error e', s') ↔ _
  rw [Prod.mk.injEq, Except.error.injEq]

theorem fails_modify {f : σ → σ} {e : ε} {s s' : σ} :
    ¬ Fails (modify f : Method σ ε Unit) s e s' :=
  Returns.not_fails (a := ()) (returns_modify.mpr rfl)

theorem fails_bind {x : Method σ ε α} {f : α → Method σ ε β} {e : ε} {s s' : σ} :
    Fails (x >>= f) s e s' ↔ Fails x s e s' ∨ ∃ a s₁, Returns x s a s₁ ∧ Fails (f a) s₁ e s' := by
  rw [Fails, call_bind]
  rcases h : x.call s with ⟨e | a, s₁⟩
  · simp [Fails, Returns, h]
  · simp [Fails, Returns, h]

theorem fails_check_bind {c : Prop} [Decidable c] {e e' : ε} {f : Unit → Method σ ε β}
    {s s' : σ} : Fails (check c e >>= f) s e' s' ↔
      (¬ c ∧ e = e' ∧ s = s') ∨ (c ∧ Fails (f ()) s e' s') := by
  by_cases hc : c
  · rw [check, if_pos hc, pure_bind]
    simp [hc]
  · rw [check, if_neg hc, fails_bind, fails_throw]
    simp [hc, returns_throw]

theorem fails_orThrow_bind {o : Option α} {e e' : ε} {f : α → Method σ ε β} {s s' : σ} :
    Fails (orThrow o e >>= f) s e' s' ↔
      (o = none ∧ e = e' ∧ s = s') ∨ ∃ a, o = some a ∧ Fails (f a) s e' s' := by
  cases o with
  | none =>
    rw [orThrow, fails_bind, fails_throw]
    simp [returns_throw]
  | some a =>
    rw [orThrow, pure_bind]
    simp

theorem fails_get_bind {f : σ → Method σ ε β} {e : ε} {s s' : σ} :
    Fails (get >>= f) s e s' ↔ Fails (f s) s e s' := Iff.rfl

theorem fails_modify_bind {g : σ → σ} {f : Unit → Method σ ε β} {e : ε} {s s' : σ} :
    Fails (modify g >>= f) s e s' ↔ Fails (f ()) (g s) e s' := Iff.rfl

/-! How a concrete call is evaluated. -/

/-- The method returns, and leaves a state that passes the test. -/
def Method.passes (x : Method σ ε α) (s : σ) (test : σ → Bool) : Bool :=
  match x.call s with
  | (.ok _, s') => test s'
  | (.error _, _) => false

/-- The method fails, and its error and what it leaves pass the test. -/
def Method.stops (x : Method σ ε α) (s : σ) (test : ε → σ → Bool) : Bool :=
  match x.call s with
  | (.ok _, _) => false
  | (.error e, s') => test e s'

theorem exists_of_passes {x : Method σ ε α} {s : σ} {test : σ → Bool} (h : x.passes s test = true) :
    ∃ a s', Returns x s a s' ∧ test s' = true := by
  rw [Method.passes] at h
  rcases hx : x.call s with ⟨e | a, s'⟩
  · rw [hx] at h
    exact absurd h (by simp)
  · rw [hx] at h
    exact ⟨a, s', hx, h⟩

theorem exists_of_stops {x : Method σ ε α} {s : σ} {test : ε → σ → Bool}
    (h : x.stops s test = true) : ∃ e s', Fails x s e s' ∧ test e s' = true := by
  rw [Method.stops] at h
  rcases hx : x.call s with ⟨e | a, s'⟩
  · rw [hx] at h
    exact ⟨e, s', hx, h⟩
  · rw [hx] at h
    exact absurd h (by simp)

/-! What is caught, and what runs on a part of the state. -/

/-- `if let Err(e) = x { h(e) }`. -/
def Method.handle (x : Method σ ε α) (h : ε → Method σ ε' α) : Method σ ε' α :=
  ExceptT.mk fun s =>
    match x.call s with
    | (.ok a, s₁) => (.ok a, s₁)
    | (.error e, s₁) => (h e).call s₁

theorem call_handle (x : Method σ ε α) (h : ε → Method σ ε' α) (s : σ) :
    (x.handle h).call s
      = match x.call s with
        | (.ok a, s₁) => (.ok a, s₁)
        | (.error e, s₁) => (h e).call s₁ := rfl

theorem returns_handle {x : Method σ ε α} {h : ε → Method σ ε' α} {s s' : σ} {a : α} :
    Returns (x.handle h) s a s' ↔
      Returns x s a s' ∨ ∃ e s₁, Fails x s e s₁ ∧ Returns (h e) s₁ a s' := by
  rw [Returns, call_handle]
  rcases hx : x.call s with ⟨e | b, s₁⟩
  · simp [Fails, Returns, hx]
  · simp [Fails, Returns, hx]

theorem fails_handle {x : Method σ ε α} {h : ε → Method σ ε' α} {s s' : σ} {e' : ε'} :
    Fails (x.handle h) s e' s' ↔ ∃ e s₁, Fails x s e s₁ ∧ Fails (h e) s₁ e' s' := by
  rw [Fails, call_handle]
  rcases hx : x.call s with ⟨e | b, s₁⟩
  · simp [Fails, hx]
  · simp [Fails, hx]

/-- A method on a part of the state. -/
def Method.on (part : τ → σ) (put : τ → σ → τ) (x : Method σ ε α) : Method τ ε α :=
  ExceptT.mk fun t => ((x.call (part t)).1, put t (x.call (part t)).2)

variable {part : τ → σ} {put : τ → σ → τ}

theorem call_on (x : Method σ ε α) (t : τ) :
    (x.on part put).call t = ((x.call (part t)).1, put t (x.call (part t)).2) := rfl

/-- One part after the other, if the part can be put back and taken out again. -/
theorem on_bind (hpart : ∀ t s, part (put t s) = s) (hput : ∀ t s s', put (put t s) s' = put t s')
    (x : Method σ ε α) (f : α → Method σ ε β) :
    (x >>= f).on part put = x.on part put >>= fun a => (f a).on part put := by
  apply ExceptT.ext
  funext t
  show ((x >>= f).on part put).call t = (x.on part put >>= fun a => (f a).on part put).call t
  rw [call_bind, call_on, call_on, call_bind]
  rcases x.call (part t) with ⟨e | a, s₁⟩
  · rfl
  · show _ = ((f a).on part put).call (put t s₁)
    rw [call_on, hpart, hput]

theorem returns_on {x : Method σ ε α} {t t' : τ} {a : α} :
    Returns (x.on part put) t a t' ↔ ∃ s', Returns x (part t) a s' ∧ put t s' = t' := by
  show ((x.call (part t)).1, put t (x.call (part t)).2) = (Except.ok a, t') ↔ _
  rcases hx : x.call (part t) with ⟨e | b, s'⟩
  · simp [Returns, hx]
  · simp [Returns, hx]

theorem fails_on {x : Method σ ε α} {t t' : τ} {e : ε} :
    Fails (x.on part put) t e t' ↔ ∃ s', Fails x (part t) e s' ∧ put t s' = t' := by
  show ((x.call (part t)).1, put t (x.call (part t)).2) = (Except.error e, t') ↔ _
  rcases hx : x.call (part t) with ⟨e | b, s'⟩
  · simp [Fails, hx]
  · simp [Fails, hx]

/-- A method on a larger state that is set up from this one; what it leaves there is
returned with its result, and what it has of this state is kept. -/
def Method.within (enter : σ → τ) (leave : τ → σ) (x : Method τ ε α) : Method σ ε (α × τ) :=
  ExceptT.mk fun s =>
    match x.call (enter s) with
    | (.ok a, t) => (.ok (a, t), leave t)
    | (.error e, t) => (.error e, leave t)

theorem call_within (enter : σ → τ) (leave : τ → σ) (x : Method τ ε α) (s : σ) :
    (x.within enter leave).call s
      = match x.call (enter s) with
        | (.ok a, t) => (.ok (a, t), leave t)
        | (.error e, t) => (.error e, leave t) := rfl

theorem returns_within {enter : σ → τ} {leave : τ → σ} {x : Method τ ε α} {s s' : σ} {r : α × τ} :
    Returns (x.within enter leave) s r s' ↔ Returns x (enter s) r.1 r.2 ∧ leave r.2 = s' := by
  rw [Returns, call_within]
  rcases hx : x.call (enter s) with ⟨e | b, t⟩
  · simp [Returns, hx]
  · simp only [Returns, hx, Prod.mk.injEq, Except.ok.injEq]
    constructor
    · rintro ⟨rfl, rfl⟩
      exact ⟨⟨rfl, rfl⟩, rfl⟩
    · rintro ⟨⟨rfl, rfl⟩, rfl⟩
      exact ⟨rfl, rfl⟩

/-! A loop over a list: it stops at the first element that fails. -/

section Loops

variable {ι : Type} {g : ι → Method σ ε Unit} {l : List ι}

theorem returns_forM_nil {s s' : σ} {u : Unit} : Returns ([].forM g) s u s' ↔ s = s' := by
  rw [List.forM, returns_pure]
  exact and_iff_right rfl

theorem returns_forM_cons {i : ι} {s s' : σ} {u : Unit} :
    Returns ((i :: l).forM g) s u s' ↔ ∃ s₁, Returns (g i) s () s₁ ∧ Returns (l.forM g) s₁ u s' := by
  rw [List.forM, returns_bind]
  constructor
  · rintro ⟨_, s₁, hi, hl⟩
    exact ⟨s₁, hi, hl⟩
  · rintro ⟨s₁, hi, hl⟩
    exact ⟨(), s₁, hi, hl⟩

theorem returns_forM_append {l' : List ι} {s s' : σ} {u : Unit} :
    Returns ((l ++ l').forM g) s u s' ↔
      ∃ s₁, Returns (l.forM g) s () s₁ ∧ Returns (l'.forM g) s₁ u s' := by
  induction l generalizing s with
  | nil =>
    rw [List.nil_append]
    simp only [returns_forM_nil, exists_eq_left']
  | cons i l ih =>
    simp only [List.cons_append, returns_forM_cons, ih]
    constructor
    · rintro ⟨s₁, hi, s₂, hl, h⟩
      exact ⟨s₂, ⟨s₁, hi, hl⟩, h⟩
    · rintro ⟨s₂, ⟨s₁, hi, hl⟩, h⟩
      exact ⟨s₁, hi, s₂, hl, h⟩

theorem fails_forM {s s' : σ} {e : ε} :
    Fails (l.forM g) s e s' ↔ ∃ before i after s₁, l = before ++ i :: after ∧
      Returns (before.forM g) s () s₁ ∧ Fails (g i) s₁ e s' := by
  induction l generalizing s with
  | nil =>
    rw [List.forM]
    constructor
    · intro h
      exact absurd h fails_pure
    · rintro ⟨before, i, after, s₁, hl, -⟩
      exact absurd hl (by simp)
  | cons i l ih =>
    rw [List.forM, fails_bind]
    constructor
    · rintro (h | ⟨_, s₁, hi, h⟩)
      · exact ⟨[], i, l, s, rfl, returns_forM_nil.mpr rfl, h⟩
      · obtain ⟨before, j, after, s₂, rfl, hbefore, hj⟩ := ih.mp h
        exact ⟨i :: before, j, after, s₂, rfl, returns_forM_cons.mpr ⟨s₁, hi, hbefore⟩, hj⟩
    · rintro ⟨before, j, after, s₂, hl, hbefore, hj⟩
      cases before with
      | nil =>
        obtain ⟨rfl, rfl⟩ := List.cons_eq_cons.mp hl
        exact .inl (returns_forM_nil.mp hbefore ▸ hj)
      | cons k before =>
        obtain ⟨rfl, rfl⟩ := List.cons_eq_cons.mp hl
        obtain ⟨s₁, hi, hbefore⟩ := returns_forM_cons.mp hbefore
        exact .inr ⟨(), s₁, hi, ih.mpr ⟨before, j, after, s₂, rfl, hbefore, hj⟩⟩

/-- Loops whose rounds return alike return alike; the rounds may be of different kinds. -/
theorem returns_forM_congr {κ : Type} {g' : κ → Method σ ε' Unit} {r : κ → ι}
    (h : ∀ k s s', Returns (g (r k)) s () s' ↔ Returns (g' k) s () s') {ks : List κ} {s s' : σ}
    {u : Unit} : Returns ((ks.map r).forM g) s u s' ↔ Returns (ks.forM g') s u s' := by
  induction ks generalizing s with
  | nil => rw [List.map_nil, returns_forM_nil, returns_forM_nil]
  | cons k ks ih => simp only [List.map_cons, returns_forM_cons, h, ih]

/-- What every round preserves, the loop preserves. -/
theorem forM_invariant {P : σ → Prop} {s s' : σ} {u : Unit}
    (hstep : ∀ i ∈ l, ∀ s s', P s → Returns (g i) s () s' → P s') (hs : P s)
    (h : Returns (l.forM g) s u s') : P s' := by
  induction l generalizing s with
  | nil => exact returns_forM_nil.mp h ▸ hs
  | cons i l ih =>
    obtain ⟨s₁, hi, hl⟩ := returns_forM_cons.mp h
    exact ih (fun j hj => hstep j (List.mem_cons_of_mem _ hj))
      (hstep i List.mem_cons_self s s₁ hs hi) hl

end Loops

/-! A method that neither reads nor writes what `g` changes goes the same way after `g`. -/

section Commuting

variable {ι : Type} {g : σ → σ} {x : Method σ ε α} {f : α → Method σ ε β}

/-- The method gives the same result after `g`, and leaves what it leaves without, after `g`. -/
def Commutes (g : σ → σ) (x : Method σ ε α) : Prop :=
  ∀ s, x.call (g s) = ((x.call s).1, g (x.call s).2)

theorem Commutes.returns (h : Commutes g x) {s s' : σ} {a : α} :
    Returns x (g s) a s' ↔ ∃ s₁, Returns x s a s₁ ∧ s' = g s₁ := by
  rw [Returns, h s]
  rcases hx : x.call s with ⟨e | b, s₁⟩
  · simp [Returns, hx]
  · simp [Returns, hx, eq_comm]

theorem Commutes.fails (h : Commutes g x) {s s' : σ} {e : ε} :
    Fails x (g s) e s' ↔ ∃ s₁, Fails x s e s₁ ∧ s' = g s₁ := by
  rw [Fails, h s]
  rcases hx : x.call s with ⟨e | b, s₁⟩
  · simp [Fails, hx, eq_comm]
  · simp [Fails, hx]

theorem commutes_pure (a : α) : Commutes g (pure a : Method σ ε α) := fun _ => rfl

theorem commutes_throw (e : ε) : Commutes g (throw e : Method σ ε α) := fun _ => rfl

theorem commutes_modify {k : σ → σ} (h : ∀ s, k (g s) = g (k s)) :
    Commutes g (modify k : Method σ ε Unit) := by
  intro s
  show (Except.ok (), k (g s)) = (Except.ok (), g (k s))
  rw [h]

theorem commutes_check (c : Prop) [Decidable c] (e : ε) :
    Commutes g (check c e : Method σ ε Unit) := by
  rw [check]
  split
  · exact commutes_pure ()
  · exact commutes_throw e

theorem commutes_orThrow (o : Option α) (e : ε) : Commutes g (orThrow o e : Method σ ε α) := by
  cases o with
  | none => exact commutes_throw e
  | some a => exact commutes_pure a

theorem Commutes.bind (hx : Commutes g x) (hf : ∀ a, Commutes g (f a)) :
    Commutes g (x >>= f) := by
  intro s
  rw [call_bind, call_bind, hx s]
  rcases hx : x.call s with ⟨e | a, s₁⟩
  · rfl
  · exact hf a s₁

theorem Commutes.get {f : σ → Method σ ε β} (hread : ∀ s, f (g s) = f s)
    (hf : ∀ s, Commutes g (f s)) : Commutes g (get >>= f) := by
  intro s
  show (f (g s)).call (g s) = (((f s).call s).1, g ((f s).call s).2)
  rw [hread, hf s]

theorem Commutes.forM {k : ι → Method σ ε Unit} (hk : ∀ i, Commutes g (k i)) (l : List ι) :
    Commutes g (l.forM k) := by
  induction l with
  | nil => exact commutes_pure ()
  | cons i l ih => exact (hk i).bind fun _ => ih

theorem Commutes.on {g' : τ → τ} (h : Commutes g x) (hpart : ∀ t, part (g' t) = g (part t))
    (hput : ∀ t s, put (g' t) (g s) = g' (put t s)) : Commutes g' (x.on part put) := by
  intro t
  rw [call_on, call_on, hpart, h, hput]

end Commuting

/-! A method that is done with its checks before it writes changes nothing where it fails. -/

variable {bad : ε → Prop} {x : Method σ ε α} {f : α → Method σ ε β}

/-- Where the method fails with an error of the kind, it has changed nothing. -/
def Clean (bad : ε → Prop) (x : Method σ ε α) : Prop := ∀ s e s', bad e → Fails x s e s' → s' = s

/-- The method does not fail with an error of the kind. -/
def Total (bad : ε → Prop) (x : Method σ ε α) : Prop := ∀ s e s', bad e → ¬ Fails x s e s'

theorem Total.clean (h : Total bad x) : Clean bad x :=
  fun s e s' he hf => absurd hf (h s e s' he)

theorem Total.bind (hx : Total bad x) (hf : ∀ a, Total bad (f a)) : Total bad (x >>= f) := by
  intro s e s' he h
  rcases fails_bind.mp h with h | ⟨a, s₁, -, h⟩
  · exact hx s e s' he h
  · exact hf a s₁ e s' he h

theorem total_pure (a : α) : Total bad (pure a : Method σ ε α) := fun _ _ _ _ => fails_pure

theorem total_modify (g : σ → σ) : Total bad (modify g : Method σ ε Unit) :=
  fun _ _ _ _ => fails_modify

theorem total_orThrow (o : Option α) {e : ε} (he : ¬ bad e) :
    Total bad (orThrow o e : Method σ ε α) := by
  cases o with
  | none =>
    intro s e' s' he' h
    exact he ((fails_throw.mp h).1 ▸ he')
  | some a => exact total_pure a

theorem Clean.get {f : σ → Method σ ε β} (hf : ∀ s, Clean bad (f s)) : Clean bad (get >>= f) :=
  fun s e s' he h => hf s s e s' he (fails_get_bind.mp h)

theorem Clean.check {c : Prop} [Decidable c] {e : ε} {f : Unit → Method σ ε β}
    (hf : Clean bad (f ())) : Clean bad (check c e >>= f) := by
  intro s e' s' he h
  rcases fails_check_bind.mp h with ⟨-, -, hs⟩ | ⟨-, h⟩
  · exact hs.symm
  · exact hf s e' s' he h

theorem clean_check (c : Prop) [Decidable c] (e : ε) :
    Clean bad (Machine.check c e : Method σ ε Unit) := by
  have h : Clean bad (Machine.check c e >>= pure : Method σ ε Unit) :=
    .check (total_pure ()).clean
  rwa [bind_pure] at h

theorem Clean.orThrow {o : Option α} {e : ε} (hf : ∀ a, Clean bad (f a)) :
    Clean bad (orThrow o e >>= f) := by
  intro s e' s' he h
  rcases fails_orThrow_bind.mp h with ⟨-, -, hs⟩ | ⟨a, -, h⟩
  · exact hs.symm
  · exact hf a s e' s' he h

theorem Clean.ofResult {r : Except ε α} (hf : ∀ a, Clean bad (f a)) :
    Clean bad (ofResult r >>= f) := by
  cases r with
  | error e =>
    intro s e' s' _ h
    rcases fails_bind.mp h with h | ⟨a, s₁, ha, -⟩
    · exact (fails_throw.mp h).2.symm
    · exact absurd ha returns_throw
  | ok a =>
    rw [Machine.ofResult, pure_bind]
    exact hf a

end Failures

/-! ### `u64` -/

theorem toNat_add_of_lt {a b : UInt64} (h : a.toNat + b.toNat < 2 ^ 64) :
    (a + b).toNat = a.toNat + b.toNat := by
  rw [UInt64.toNat_add, Nat.mod_eq_of_lt h]

/-- `a.checked_add(b)`. -/
def checkedAdd (a b : UInt64) : Option UInt64 :=
  if a.toNat + b.toNat < 2 ^ 64 then some (a + b) else none

/-- `a.checked_sub(b)`. -/
def checkedSub (a b : UInt64) : Option UInt64 :=
  if b ≤ a then some (a - b) else none

theorem checkedAdd_eq_some {a b c : UInt64} :
    checkedAdd a b = some c ↔ c.toNat = a.toNat + b.toNat := by
  unfold checkedAdd
  split
  · next h =>
    have hadd : (a + b).toNat = a.toNat + b.toNat := toNat_add_of_lt h
    rw [Option.some_inj, ← UInt64.toNat_inj, hadd]
    exact eq_comm
  · next h =>
    have hc := c.toNat_lt
    constructor
    · intro hn
      exact absurd hn (by simp)
    · intro hc'
      omega

theorem checkedSub_eq_some {a b c : UInt64} :
    checkedSub a b = some c ↔ a.toNat = c.toNat + b.toNat := by
  unfold checkedSub
  split
  · next h =>
    have hle : b.toNat ≤ a.toNat := UInt64.le_iff_toNat_le.mp h
    have hsub : (a - b).toNat = a.toNat - b.toNat := UInt64.toNat_sub_of_le a b h
    rw [Option.some_inj, ← UInt64.toNat_inj, hsub]
    omega
  · next h =>
    have hlt : ¬ b.toNat ≤ a.toNat := fun hle => h (UInt64.le_iff_toNat_le.mpr hle)
    constructor
    · intro hn
      exact absurd hn (by simp)
    · intro hc
      omega

theorem eq_add_of_checkedAdd {a b c : UInt64} (h : checkedAdd a b = some c) : c = a + b := by
  unfold checkedAdd at h
  split at h
  · exact (Option.some_inj.mp h).symm
  · exact absurd h (by simp)

theorem exists_checkedAdd {a b : UInt64} (h : a.toNat + b.toNat < 2 ^ 64) :
    ∃ c, checkedAdd a b = some c ∧ c.toNat = a.toNat + b.toNat :=
  ⟨a + b, if_pos h, toNat_add_of_lt h⟩

theorem exists_checkedSub {a b : UInt64} (h : b.toNat ≤ a.toNat) :
    ∃ c, checkedSub a b = some c ∧ a.toNat = c.toNat + b.toNat := by
  have hle : b ≤ a := UInt64.le_iff_toNat_le.mpr h
  refine ⟨a - b, if_pos hle, ?_⟩
  rw [UInt64.toNat_sub_of_le a b hle]
  omega

/-- `a + b` in a build with or without overflow checks; `none` is the panic. -/
def addU64 (overflowChecks : Bool) (a b : UInt64) : Option UInt64 :=
  if overflowChecks then checkedAdd a b else some (a + b)

/-- It is the exact sum if the build checks, or if the sum fits. -/
theorem toNat_of_addU64 {overflowChecks : Bool} {a b c : UInt64}
    (h : addU64 overflowChecks a b = some c)
    (hfits : overflowChecks = true ∨ a.toNat + b.toNat < 2 ^ 64) :
    c.toNat = a.toNat + b.toNat := by
  rw [addU64] at h
  split at h
  · exact checkedAdd_eq_some.mp h
  · next hwraps =>
    obtain rfl := Option.some_inj.mp h
    exact toNat_add_of_lt (hfits.resolve_left hwraps)

/-- A sum that fits is there in either build. -/
theorem addU64_eq_some {overflowChecks : Bool} {a b c : UInt64}
    (h : c.toNat = a.toNat + b.toNat) : addU64 overflowChecks a b = some c := by
  have hchecked := checkedAdd_eq_some.mpr h
  cases overflowChecks with
  | true => exact hchecked
  | false => exact congrArg some (eq_add_of_checkedAdd hchecked).symm

/-- `a.saturating_add(b)`. -/
def saturatingAdd (a b : UInt64) : UInt64 :=
  if a.toNat + b.toNat < 2 ^ 64 then a + b else UInt64.ofNat (2 ^ 64 - 1)

/-- `a.saturating_sub(b)`. -/
def saturatingSub (a b : UInt64) : UInt64 := if b ≤ a then a - b else 0

theorem toNat_saturatingAdd (a b : UInt64) :
    (saturatingAdd a b).toNat = min (a.toNat + b.toNat) (2 ^ 64 - 1) := by
  rw [saturatingAdd]
  split
  · next h =>
    rw [toNat_add_of_lt h]
    omega
  · next h =>
    show 2 ^ 64 - 1 = _
    omega

theorem toNat_saturatingAdd_of_lt {a b : UInt64} (h : a.toNat + b.toNat < 2 ^ 64) :
    (saturatingAdd a b).toNat = a.toNat + b.toNat := by
  rw [toNat_saturatingAdd]
  omega

theorem toNat_saturatingSub (a b : UInt64) :
    (saturatingSub a b).toNat = a.toNat - b.toNat := by
  rw [saturatingSub]
  split
  · next h => exact UInt64.toNat_sub_of_le a b h
  · next h =>
    have hlt : ¬ b.toNat ≤ a.toNat := fun hle => h (UInt64.le_iff_toNat_le.mpr hle)
    show 0 = _
    omega

/-! ### `u32` -/

/-- `a + b` on `u32` in a build with overflow checks; `none` is the panic. -/
def addU32 (a b : UInt32) : Option UInt32 :=
  if a.toNat + b.toNat < 2 ^ 32 then some (a + b) else none

/-- `a.saturating_add(b)` on `u32`. -/
def saturatingAddU32 (a b : UInt32) : UInt32 :=
  if a.toNat + b.toNat < 2 ^ 32 then a + b else UInt32.ofNat (2 ^ 32 - 1)

theorem toNat_addU32 {a b c : UInt32} (h : addU32 a b = some c) : c.toNat = a.toNat + b.toNat := by
  unfold addU32 at h
  split at h
  · next hlt =>
    obtain rfl := Option.some_inj.mp h
    rw [UInt32.toNat_add, Nat.mod_eq_of_lt hlt]
  · exact absurd h (by simp)

theorem toNat_saturatingAddU32 (a b : UInt32) :
    (saturatingAddU32 a b).toNat = min (a.toNat + b.toNat) (2 ^ 32 - 1) := by
  rw [saturatingAddU32]
  split
  · next h =>
    rw [UInt32.toNat_add, Nat.mod_eq_of_lt h]
    omega
  · next h =>
    show 2 ^ 32 - 1 = _
    omega

/-! ### `i64` -/

/-- The integers an `i64` holds. -/
def InI64 (x : ℤ) : Prop := -2 ^ 63 ≤ x ∧ x < 2 ^ 63

instance (x : ℤ) : Decidable (InI64 x) := inferInstanceAs (Decidable (_ ∧ _))

/-- `a + b` on `i64` in a build with overflow checks; `none` is the panic. -/
def addI64 (a b : Int64) : Option Int64 :=
  if InI64 (a.toInt + b.toInt) then some (a + b) else none

/-- `a - b` on `i64` in such a build. -/
def subI64 (a b : Int64) : Option Int64 :=
  if InI64 (a.toInt - b.toInt) then some (a - b) else none

theorem inI64_toInt (a : Int64) : InI64 a.toInt :=
  ⟨a.le_toInt, a.toInt_lt⟩

theorem toInt_add_of_inI64 {a b : Int64} (h : InI64 (a.toInt + b.toInt)) :
    (a + b).toInt = a.toInt + b.toInt := by
  rw [Int64.toInt_add]
  apply Int.bmod_eq_of_le
  · have := h.1
    omega
  · have := h.2
    omega

theorem addI64_eq_some {a b c : Int64} :
    addI64 a b = some c ↔ c.toInt = a.toInt + b.toInt := by
  unfold addI64
  split
  · next h =>
    rw [Option.some_inj, ← Int64.toInt_inj, toInt_add_of_inI64 h]
    exact eq_comm
  · next h =>
    constructor
    · intro hn
      exact absurd hn (by simp)
    · intro hc
      exact absurd (hc ▸ inI64_toInt c) h

theorem subI64_eq_some {a b c : Int64} :
    subI64 a b = some c ↔ c.toInt = a.toInt - b.toInt := by
  unfold subI64
  split
  · next h =>
    have hsub : (a - b).toInt = a.toInt - b.toInt := by
      rw [Int64.toInt_sub]
      apply Int.bmod_eq_of_le
      · have := h.1
        omega
      · have := h.2
        omega
    rw [Option.some_inj, ← Int64.toInt_inj, hsub]
    exact eq_comm
  · next h =>
    constructor
    · intro hn
      exact absurd hn (by simp)
    · intro hc
      exact absurd (hc ▸ inI64_toInt c) h

theorem exists_addI64 {a b : Int64} (h : InI64 (a.toInt + b.toInt)) :
    ∃ c, addI64 a b = some c :=
  ⟨a + b, if_pos h⟩

end Machine
