/-
Labelled binary trees, built level by level and climbed by sibling lists.

A Merkle tree is a binary tree whose nodes carry labels: a leaf that of its
data, an inner node `comb` of its children's.  Implementations never hold the
tree; they hold levels of labels, each made from the one below by pairing
neighbours (`pairUp`), and a proof is a list of siblings folded into a label
(`climb`).  This file connects the three:

* `exists_tree` — pairing a list of leaves up to one label labels a tree with
  exactly these leaves;
* `exists_opens` — every subtree's label climbs to the root's, if `comb` does
  not depend on the order of children;
* `climb_binds` — and nothing else does: a label that climbs to the root's,
  compared by `key`, is a subtree's, if `comb` determines its arguments;
* `opens_openingAt` — on levels of any length, where an odd label out is
  promoted, the siblings met on the way up open the position they are met from.

Where the number of leaves is a power of two, a position of a level names one
path to the root (`Path`), and a climb to the root runs along such a path
(`exists_path_of_climb`).
-/
import Mathlib

namespace HashTree

inductive MTree (α : Type)
  | leaf (a : α)
  | node (l r : MTree α)

namespace MTree

variable {α D : Type}

def leaves : MTree α → List α
  | .leaf a => [a]
  | .node l r => l.leaves ++ r.leaves

/-- A tree with all trees below it. -/
def subtrees : MTree α → List (MTree α)
  | .leaf a => [.leaf a]
  | .node l r => .node l r :: (l.subtrees ++ r.subtrees)

def label (lab : α → D) (comb : D → D → D) : MTree α → D
  | .leaf a => lab a
  | .node l r => comb (l.label lab comb) (r.label lab comb)

theorem self_mem_subtrees (t : MTree α) : t ∈ t.subtrees := by
  cases t <;> simp [subtrees]

theorem left_mem_subtrees (l r : MTree α) : l ∈ (node l r).subtrees := by
  simp [subtrees, self_mem_subtrees]

theorem right_mem_subtrees (l r : MTree α) : r ∈ (node l r).subtrees := by
  simp [subtrees, self_mem_subtrees]

theorem subtrees_trans {s t u : MTree α} (hst : s ∈ t.subtrees) (htu : t ∈ u.subtrees) :
    s ∈ u.subtrees := by
  induction u with
  | leaf a =>
    simp only [subtrees, List.mem_singleton] at htu
    subst htu
    exact hst
  | node l r ihl ihr =>
    simp only [subtrees, List.mem_cons, List.mem_append] at htu ⊢
    rcases htu with rfl | h | h
    · simpa [subtrees] using hst
    · exact .inr (.inl (ihl h))
    · exact .inr (.inr (ihr h))

theorem leaf_mem_subtrees {a : α} {t : MTree α} : .leaf a ∈ t.subtrees ↔ a ∈ t.leaves := by
  induction t with
  | leaf b => simp [subtrees, leaves]
  | node l r ihl ihr => simp [subtrees, leaves, ihl, ihr]

end MTree

/-! ### Levels -/

section Levels

variable {β γ : Type}

/-- The level above: neighbours are paired, an odd one out is promoted. -/
def pairUp (f : β → β → β) : List β → List β
  | a :: b :: rest => f a b :: pairUp f rest
  | [a] => [a]
  | [] => []

/-- The neighbours that `pairUp` pairs. -/
def pairs : List β → List (β × β)
  | a :: b :: rest => (a, b) :: pairs rest
  | _ => []

/-- The level `n` steps above. -/
def pairAll (f : β → β → β) : ℕ → List β → List β
  | 0, l => l
  | n + 1, l => pairAll f n (pairUp f l)

theorem map_pairs (g : β → γ) (l : List β) :
    pairs (l.map g) = (pairs l).map (Prod.map g g) := by
  induction l using pairUp.induct with
  | case1 a b rest ih => simp [pairs, ih]
  | case2 a => rfl
  | case3 => rfl

theorem length_pairUp (f : β → β → β) (l : List β) :
    (pairUp f l).length = (l.length + 1) / 2 := by
  induction l using pairUp.induct with
  | case1 a b rest ih =>
    simp only [pairUp, List.length_cons, ih]
    omega
  | case2 a => simp [pairUp]
  | case3 => simp [pairUp]

theorem pairUp_of_length_le_one {f : β → β → β} {l : List β} (h : l.length ≤ 1) :
    pairUp f l = l := by
  match l, h with
  | [], _ => rfl
  | [a], _ => rfl

theorem pairAll_of_length_le_one {f : β → β → β} {l : List β} (h : l.length ≤ 1) (n : ℕ) :
    pairAll f n l = l := by
  induction n with
  | zero => rfl
  | succ n ih => rw [pairAll, pairUp_of_length_le_one h, ih]

theorem length_pairAll_le {f : β → β → β} {n : ℕ} {l : List β} (h : l.length ≤ 2 ^ n) :
    (pairAll f n l).length ≤ 1 := by
  induction n generalizing l with
  | zero => simpa [pairAll] using h
  | succ n ih =>
    apply ih
    rw [length_pairUp]
    rw [pow_succ] at h
    omega

theorem pairAll_ne_nil {f : β → β → β} {n : ℕ} {l : List β} (h : l ≠ []) :
    pairAll f n l ≠ [] := by
  induction n generalizing l with
  | zero => exact h
  | succ n ih =>
    apply ih
    match l, h with
    | [a], _ => simp [pairUp]
    | a :: b :: rest, _ => simp [pairUp]

end Levels

section Build

variable {α : Type}

theorem leaves_pairUp (ts : List (MTree α)) :
    (pairUp MTree.node ts).flatMap MTree.leaves = ts.flatMap MTree.leaves := by
  induction ts using pairUp.induct with
  | case1 a b rest ih => simp [pairUp, MTree.leaves, ih]
  | case2 a => rfl
  | case3 => rfl

theorem leaves_pairAll (n : ℕ) (ts : List (MTree α)) :
    (pairAll MTree.node n ts).flatMap MTree.leaves = ts.flatMap MTree.leaves := by
  induction n generalizing ts with
  | zero => rfl
  | succ n ih => rw [pairAll, ih, leaves_pairUp]

/-- A subtree of the level above was there below, or pairs two neighbours. -/
theorem mem_subtrees_pairUp {ts : List (MTree α)} {t u : MTree α}
    (ht : t ∈ pairUp MTree.node ts) (hu : u ∈ t.subtrees) :
    (∃ t' ∈ ts, u ∈ t'.subtrees) ∨ ∃ p ∈ pairs ts, u = .node p.1 p.2 := by
  induction ts using pairUp.induct with
  | case1 a b rest ih =>
    simp only [pairUp, List.mem_cons] at ht
    rcases ht with rfl | ht
    · simp only [MTree.subtrees, List.mem_cons, List.mem_append] at hu
      rcases hu with rfl | hu | hu
      · exact .inr ⟨(a, b), by simp [pairs], rfl⟩
      · exact .inl ⟨a, by simp, hu⟩
      · exact .inl ⟨b, by simp, hu⟩
    · rcases ih ht with ⟨t', ht', hu'⟩ | ⟨p, hp, rfl⟩
      · exact .inl ⟨t', by simp [ht'], hu'⟩
      · exact .inr ⟨p, by simp [pairs, hp], rfl⟩
  | case2 a => exact .inl ⟨t, ht, hu⟩
  | case3 => exact absurd ht (by simp [pairUp])

/-- The tree that level-by-level pairing builds over a list of leaves. -/
theorem exists_tree {as : List α} {n : ℕ} (hne : as ≠ []) (hlen : as.length ≤ 2 ^ n) :
    ∃ t : MTree α, pairAll MTree.node n (as.map MTree.leaf) = [t] ∧ t.leaves = as := by
  have hle : (pairAll MTree.node n (as.map MTree.leaf)).length ≤ 1 :=
    length_pairAll_le (by simpa using hlen)
  have hnil : pairAll MTree.node n (as.map MTree.leaf) ≠ [] := pairAll_ne_nil (by simpa using hne)
  match ht : pairAll MTree.node n (as.map MTree.leaf), hle, hnil with
  | [t], _, _ =>
    have hleaves := leaves_pairAll n (as.map MTree.leaf)
    rw [ht] at hleaves
    exact ⟨t, rfl, by simpa [List.flatMap_map, MTree.leaves] using hleaves⟩

end Build

/-! ### Climbing -/

section Climb

variable {α D K : Type} {lab : α → D} {comb : D → D → D}

/-- Fold a list of siblings into a label, from the bottom up. -/
def climb (comb : D → D → D) (x : D) (sibs : List D) : D := sibs.foldl comb x

@[simp] theorem climb_nil (x : D) : climb comb x [] = x := rfl

theorem climb_append (x : D) (sibs sibs' : List D) :
    climb comb x (sibs ++ sibs') = climb comb (climb comb x sibs) sibs' :=
  List.foldl_append

theorem climb_append_singleton (x : D) (sibs : List D) (s : D) :
    climb comb x (sibs ++ [s]) = comb (climb comb x sibs) s :=
  climb_append x sibs [s]

/-- The pairs a climb combines. -/
def climbSteps (comb : D → D → D) : D → List D → List (D × D)
  | _, [] => []
  | x, s :: sibs => (x, s) :: climbSteps comb (comb x s) sibs

theorem climbSteps_append (x : D) (sibs sibs' : List D) :
    climbSteps comb x (sibs ++ sibs')
      = climbSteps comb x sibs ++ climbSteps comb (climb comb x sibs) sibs' := by
  induction sibs generalizing x with
  | nil => rfl
  | cons s sibs ih =>
    rw [List.cons_append, climbSteps, climbSteps, ih]
    rfl

theorem climbSteps_append_singleton (x : D) (sibs : List D) (s : D) :
    climbSteps comb x (sibs ++ [s]) = climbSteps comb x sibs ++ [(climb comb x sibs, s)] :=
  climbSteps_append x sibs [s]

/-- A step combines the labels of the two children of an inner node. -/
def StepOf (lab : α → D) (comb : D → D → D) (t : MTree α) (p : D × D) : Prop :=
  ∃ l r, .node l r ∈ t.subtrees ∧
    (p = (l.label lab comb, r.label lab comb) ∨ p = (r.label lab comb, l.label lab comb))

theorem StepOf.of_subtree {t t' : MTree α} {p : D × D} (h : StepOf lab comb t' p)
    (ht : t' ∈ t.subtrees) : StepOf lab comb t p := by
  obtain ⟨l, r, hlr, hp⟩ := h
  exact ⟨l, r, MTree.subtrees_trans hlr ht, hp⟩

/-- The honest proof of a subtree: its label climbs to the root's, each step
combines two children, and the siblings hold the leaves that it does not. -/
structure Opens (lab : α → D) (comb : D → D → D) (t u : MTree α) (sibs : List (MTree α)) : Prop where
  climbs : climb comb (u.label lab comb) (sibs.map (MTree.label lab comb)) = t.label lab comb
  steps : ∀ p ∈ climbSteps comb (u.label lab comb) (sibs.map (MTree.label lab comb)),
    StepOf lab comb t p
  perm : (u.leaves ++ sibs.flatMap MTree.leaves).Perm t.leaves

/-- One more sibling opens the subtree in the parent; `s` is the other child. -/
theorem Opens.parent {t u c s : MTree α} {sibs : List (MTree α)} (h : Opens lab comb c u sibs)
    (hc : c ∈ t.subtrees)
    (hcomb : comb (c.label lab comb) (s.label lab comb) = t.label lab comb)
    (hstep : StepOf lab comb t (c.label lab comb, s.label lab comb))
    (hperm : (c.leaves ++ s.leaves).Perm t.leaves) : Opens lab comb t u (sibs ++ [s]) where
  climbs := by
    rw [List.map_append, List.map_singleton, climb_append_singleton, h.climbs, hcomb]
  steps := by
    intro p hp
    rw [List.map_append, List.map_singleton, climbSteps_append_singleton, h.climbs] at hp
    rcases List.mem_append.mp hp with hp | hp
    · exact (h.steps p hp).of_subtree hc
    · rw [List.mem_singleton.mp hp]
      exact hstep
  perm := by
    rw [List.flatMap_append, List.flatMap_singleton, ← List.append_assoc]
    exact (h.perm.append_right _).trans hperm

/-- What opens a subtree of `c`, and then what opens `c` itself. -/
theorem Opens.trans {t c u : MTree α} {sibs sibs' : List (MTree α)} (hc : c ∈ t.subtrees)
    (h : Opens lab comb c u sibs) (h' : Opens lab comb t c sibs') :
    Opens lab comb t u (sibs ++ sibs') where
  climbs := by
    rw [List.map_append, climb_append, h.climbs, h'.climbs]
  steps := by
    intro p hp
    rw [List.map_append, climbSteps_append, h.climbs] at hp
    rcases List.mem_append.mp hp with hp | hp
    · exact (h.steps p hp).of_subtree hc
    · exact h'.steps p hp
  perm := by
    rw [List.flatMap_append, ← List.append_assoc]
    exact (h.perm.append_right _).trans h'.perm

theorem Opens.refl (t : MTree α) : Opens lab comb t t [] := ⟨rfl, by simp [climbSteps], by simp⟩

/-- One sibling opens a child in its parent. -/
theorem Opens.left {l r : MTree α} : Opens lab comb (.node l r) l [r] :=
  (Opens.refl l).parent (MTree.left_mem_subtrees l r) rfl
    ⟨l, r, MTree.self_mem_subtrees _, .inl rfl⟩ (List.Perm.refl _)

theorem Opens.right {l r : MTree α}
    (hcomm : comb (r.label lab comb) (l.label lab comb)
      = comb (l.label lab comb) (r.label lab comb)) : Opens lab comb (.node l r) r [l] :=
  (Opens.refl r).parent (MTree.right_mem_subtrees l r) hcomm
    ⟨l, r, MTree.self_mem_subtrees _, .inr rfl⟩ List.perm_append_comm

/-- Every subtree can be opened, if the order of children does not matter. -/
theorem exists_opens {t u : MTree α} (hu : u ∈ t.subtrees)
    (hcomm : ∀ l r, .node l r ∈ t.subtrees →
      comb (r.label lab comb) (l.label lab comb) = comb (l.label lab comb) (r.label lab comb)) :
    ∃ sibs, Opens lab comb t u sibs := by
  induction t with
  | leaf a =>
    simp only [MTree.subtrees, List.mem_singleton] at hu
    subst hu
    exact ⟨[], Opens.refl _⟩
  | node l r ihl ihr =>
    have hl := MTree.left_mem_subtrees l r
    have hr := MTree.right_mem_subtrees l r
    simp only [MTree.subtrees, List.mem_cons, List.mem_append] at hu
    rcases hu with rfl | hu | hu
    · exact ⟨[], Opens.refl _⟩
    · obtain ⟨sibs, h⟩ := ihl hu fun l' r' h' => hcomm l' r' (MTree.subtrees_trans h' hl)
      exact ⟨_, h.trans hl Opens.left⟩
    · obtain ⟨sibs, h⟩ := ihr hu fun l' r' h' => hcomm l' r' (MTree.subtrees_trans h' hr)
      exact ⟨_, h.trans hr (Opens.right (hcomm l r (MTree.self_mem_subtrees _)))⟩

/-- A label that climbs to the root's is a subtree's.  Labels are compared by
`key`; `hnode` and `hleaf` say that the key of a combined label determines the
labels it was combined from, for the pairs that occur. -/
theorem climb_binds {key : D → K} {t : MTree α} {x : D} {sibs : List D}
    (hnode : ∀ p ∈ climbSteps comb x sibs, ∀ l r, .node l r ∈ t.subtrees →
      key (comb p.1 p.2) = key (comb (l.label lab comb) (r.label lab comb)) →
        p.1 = l.label lab comb ∨ p.1 = r.label lab comb)
    (hleaf : ∀ p ∈ climbSteps comb x sibs, ∀ a ∈ t.leaves, key (comb p.1 p.2) ≠ key (lab a))
    (hclimb : key (climb comb x sibs) = key (t.label lab comb)) :
    ∃ u ∈ t.subtrees, key x = key (u.label lab comb) := by
  induction sibs using List.reverseRecOn generalizing t with
  | nil => exact ⟨t, MTree.self_mem_subtrees t, hclimb⟩
  | append_singleton sibs s ih =>
    -- Peel the topmost step off the climb, and the root off the tree.
    rw [climb_append_singleton] at hclimb
    have hmem : (climb comb x sibs, s) ∈ climbSteps comb x (sibs ++ [s]) := by
      rw [climbSteps_append_singleton]
      simp
    have hsteps : ∀ p ∈ climbSteps comb x sibs, p ∈ climbSteps comb x (sibs ++ [s]) := by
      intro p hp
      rw [climbSteps_append_singleton]
      exact List.mem_append_left _ hp
    have descend : ∀ c, c ∈ t.subtrees → climb comb x sibs = c.label lab comb →
        ∃ u ∈ t.subtrees, key x = key (u.label lab comb) := by
      intro c hc hx
      obtain ⟨u, hu, hkey⟩ := ih
        (fun p hp l r h => hnode p (hsteps p hp) l r (MTree.subtrees_trans h hc))
        (fun p hp a ha => hleaf p (hsteps p hp) a
          (MTree.leaf_mem_subtrees.mp (MTree.subtrees_trans (MTree.leaf_mem_subtrees.mpr ha) hc)))
        (congrArg key hx)
      exact ⟨u, MTree.subtrees_trans hu hc, hkey⟩
    cases t with
    | leaf a => exact absurd hclimb (hleaf _ hmem a (by simp [MTree.leaves]))
    | node l r =>
      rcases hnode _ hmem l r (MTree.self_mem_subtrees _) hclimb with hx | hx
      · exact descend l (MTree.left_mem_subtrees l r) hx
      · exact descend r (MTree.right_mem_subtrees l r) hx

end Climb

/-! ### Positions -/

section Positions

variable {β : Type} {f : β → β → β}

theorem xor_one_two_mul (i : ℕ) : 2 * i ^^^ 1 = 2 * i + 1 :=
  Nat.xor_one_of_even (even_two_mul i)

theorem xor_one_two_mul_add_one (i : ℕ) : (2 * i + 1) ^^^ 1 = 2 * i := by
  rw [Nat.xor_one_of_odd (odd_two_mul_add_one i), Nat.add_sub_cancel]

/-- The neighbours that are paired stand at `2 * k` and `2 * k + 1`, and their
pair at `k` of the level above. -/
theorem getElem?_pairUp {l : List β} {k : ℕ} {a b : β} (ha : l[2 * k]? = some a)
    (hb : l[2 * k + 1]? = some b) : (pairUp f l)[k]? = some (f a b) ∧ (a, b) ∈ pairs l := by
  induction l using pairUp.induct generalizing k with
  | case1 x y rest ih =>
    cases k with
    | zero =>
      simp only [Nat.mul_zero, List.getElem?_cons_zero, Option.some_inj] at ha
      simp only [Nat.mul_zero, Nat.zero_add, List.getElem?_cons_succ, List.getElem?_cons_zero,
        Option.some_inj] at hb
      subst ha
      subst hb
      simp [pairUp, pairs]
    | succ k =>
      rw [show 2 * (k + 1) = 2 * k + 2 by ring, List.getElem?_cons_succ,
        List.getElem?_cons_succ] at ha
      rw [show 2 * (k + 1) + 1 = 2 * k + 1 + 2 by ring, List.getElem?_cons_succ,
        List.getElem?_cons_succ] at hb
      obtain ⟨hget, hmem⟩ := ih ha hb
      exact ⟨hget, by simp [pairs, hmem]⟩
  | case2 x => exact absurd hb (by simp)
  | case3 => exact absurd ha (by simp)

/-- Conversely, above a level of even length there are only pairs. -/
theorem exists_of_getElem?_pairUp {l : List β} {m k : ℕ} (hlen : l.length = 2 * m) {c : β}
    (hc : (pairUp f l)[k]? = some c) :
    ∃ a b, l[2 * k]? = some a ∧ l[2 * k + 1]? = some b ∧ c = f a b := by
  have hk : k < (pairUp f l).length := (List.getElem?_eq_some_iff.mp hc).1
  rw [length_pairUp] at hk
  have ha : 2 * k < l.length := by omega
  have hb : 2 * k + 1 < l.length := by omega
  have hpair := (getElem?_pairUp (f := f) (List.getElem?_eq_getElem ha)
    (List.getElem?_eq_getElem hb)).1
  rw [hc, Option.some_inj] at hpair
  exact ⟨l[2 * k], l[2 * k + 1], List.getElem?_eq_getElem ha, List.getElem?_eq_getElem hb, hpair⟩

/-- Replacing a label replaces its parent, and nothing else of the level above. -/
theorem pairUp_set (hcomm : ∀ a b, f a b = f b a) {l : List β} {i : ℕ} {s : β} (x : β)
    (hi : i < l.length) (hs : l[i ^^^ 1]? = some s) : pairUp f (l.set i x) = (pairUp f l).set (i / 2) (f x s) := by
  induction l using pairUp.induct generalizing i with
  | case1 a b rest ih =>
    match i with
    | 0 =>
      have hb : b = s := by simpa using hs
      rw [hb]
      rfl
    | 1 =>
      have ha : a = s := by simpa using hs
      show f a x :: pairUp f rest = f x s :: pairUp f rest
      rw [ha, hcomm]
    | i + 2 =>
      have hsib : (i + 2) ^^^ 1 = (i ^^^ 1) + 2 := by
        rcases Nat.even_or_odd' i with ⟨k, rfl | rfl⟩
        · rw [xor_one_two_mul, show 2 * k + 2 = 2 * (k + 1) by ring, xor_one_two_mul]
          ring
        · rw [xor_one_two_mul_add_one, show 2 * k + 1 + 2 = 2 * (k + 1) + 1 by ring,
            xor_one_two_mul_add_one]
          ring
      rw [hsib] at hs
      have hrest : rest[i ^^^ 1]? = some s := by simpa using hs
      have hhalf : (i + 2) / 2 = i / 2 + 1 := by omega
      rw [hhalf]
      show f a b :: pairUp f (rest.set i x) = f a b :: (pairUp f rest).set (i / 2) (f x s)
      rw [ih (by simpa using hi) hrest]
  | case2 a =>
    -- A label that stands alone has no sibling.
    obtain rfl : i = 0 := by simpa using hi
    exact absurd hs (by simp)
  | case3 => exact absurd hi (by simp)

/-- A label without a sibling is promoted. -/
theorem getElem?_pairUp_promoted {l : List β} {k : ℕ} {a : β} (ha : l[2 * k]? = some a)
    (hb : l[2 * k + 1]? = none) : (pairUp f l)[k]? = some a := by
  induction l using pairUp.induct generalizing k with
  | case1 x y rest ih =>
    cases k with
    | zero => exact absurd hb (by simp)
    | succ k =>
      rw [show 2 * (k + 1) = 2 * k + 2 by ring, List.getElem?_cons_succ,
        List.getElem?_cons_succ] at ha
      rw [show 2 * (k + 1) + 1 = 2 * k + 1 + 2 by ring, List.getElem?_cons_succ,
        List.getElem?_cons_succ] at hb
      exact ih ha hb
  | case2 x =>
    obtain ⟨hk, -⟩ := List.getElem?_eq_some_iff.mp ha
    rw [List.length_singleton] at hk
    obtain rfl : k = 0 := by omega
    exact ha
  | case3 => exact absurd ha (by simp)

theorem pairAll_succ (n : ℕ) (l : List β) : pairAll f (n + 1) l = pairUp f (pairAll f n l) := by
  induction n generalizing l with
  | zero => rfl
  | succ n ih => rw [pairAll, ih, pairAll]

theorem length_pairAll {n m : ℕ} {l : List β} (h : l.length = 2 ^ (n + m)) :
    (pairAll f n l).length = 2 ^ m := by
  induction n generalizing l with
  | zero => simpa [pairAll] using h
  | succ n ih =>
    apply ih
    have hpow : 2 ^ (n + 1 + m) = 2 * 2 ^ (n + m) := by ring
    rw [length_pairUp, h, hpow]
    omega

/-- A level with the `n` levels above it. -/
def levels (f : β → β → β) : ℕ → List β → List (List β)
  | 0, l => [l]
  | n + 1, l => l :: levels f n (pairUp f l)

theorem mem_levels {n : ℕ} {l l' : List β} :
    l' ∈ levels f n l ↔ ∃ k ≤ n, l' = pairAll f k l := by
  induction n generalizing l with
  | zero => simp [levels, pairAll]
  | succ n ih =>
    rw [levels, List.mem_cons, ih]
    constructor
    · rintro (rfl | ⟨k, hk, rfl⟩)
      · exact ⟨0, Nat.zero_le _, rfl⟩
      · exact ⟨k + 1, by omega, rfl⟩
    · rintro ⟨k, hk, rfl⟩
      cases k with
      | zero => exact .inl rfl
      | succ k => exact .inr ⟨k, by omega, rfl⟩

theorem levels_ne_nil (n : ℕ) (l : List β) : levels f n l ≠ [] := by
  cases n <;> simp [levels]

theorem getLast?_levels (n : ℕ) (l : List β) :
    (levels f n l).getLast? = some (pairAll f n l) := by
  induction n generalizing l with
  | zero => rfl
  | succ n ih =>
    rw [levels, List.getLast?_cons_of_ne_nil (levels_ne_nil n _), ih, pairAll]

/-- `Path f l i sibs`: the siblings met on the way up from position `i` of the
level `l`; the sibling of `i` is `i ^^^ 1`, and the parent stands at `i / 2`. -/
inductive Path (f : β → β → β) : List β → ℕ → List β → Prop
  | here (l : List β) (i : ℕ) : Path f l i []
  | up {l : List β} {i : ℕ} {s : β} {sibs : List β} :
      l[i ^^^ 1]? = some s → Path f (pairUp f l) (i / 2) sibs → Path f l i (s :: sibs)

/-- In a full level every position has a path. -/
theorem exists_path {n i : ℕ} {l : List β} (hlen : l.length = 2 ^ n) (hi : i < 2 ^ n) :
    ∃ sibs, sibs.length = n ∧ Path f l i sibs := by
  induction n generalizing i l with
  | zero => exact ⟨[], rfl, .here _ _⟩
  | succ n ih =>
    have hsibling : i ^^^ 1 < l.length := by
      rw [hlen]
      rcases Nat.even_or_odd' i with ⟨k, rfl | rfl⟩
      · rw [xor_one_two_mul]
        omega
      · rw [xor_one_two_mul_add_one]
        omega
    obtain ⟨sibs, hsibs, hpath⟩ := @ih (i / 2) (pairUp f l)
      (by rw [length_pairUp, hlen]; omega) (by omega)
    exact ⟨_, by rw [List.length_cons, hsibs], .up (List.getElem?_eq_getElem hsibling) hpath⟩

/-- The parent of a position and its sibling, and the pair they are in. -/
theorem getElem?_parent (hcomm : ∀ a b, f a b = f b a) {l : List β} {i : ℕ} {x s : β}
    (hx : l[i]? = some x) (hs : l[i ^^^ 1]? = some s) :
    (pairUp f l)[i / 2]? = some (f x s) ∧ ((x, s) ∈ pairs l ∨ (s, x) ∈ pairs l) := by
  rcases Nat.even_or_odd' i with ⟨k, rfl | rfl⟩
  · rw [xor_one_two_mul] at hs
    obtain ⟨hget, hmem⟩ := getElem?_pairUp (f := f) hx hs
    rw [Nat.mul_div_cancel_left k (by norm_num)]
    exact ⟨hget, .inl hmem⟩
  · rw [xor_one_two_mul_add_one] at hs
    obtain ⟨hget, hmem⟩ := getElem?_pairUp (f := f) hs hx
    rw [show (2 * k + 1) / 2 = k by omega, hcomm]
    exact ⟨hget, .inr hmem⟩

/-- A label climbs its path. -/
theorem Path.climb (hcomm : ∀ a b, f a b = f b a) {l : List β} {i : ℕ} {sibs : List β} {x : β}
    (h : Path f l i sibs) (hx : l[i]? = some x) :
    (pairAll f sibs.length l)[i / 2 ^ sibs.length]? = some (HashTree.climb f x sibs) := by
  induction h generalizing x with
  | here l i => simpa [pairAll] using hx
  | @up l i s sibs hs _ ih =>
    have hparent := ih (getElem?_parent hcomm hx hs).1
    rw [List.length_cons, pow_succ', ← Nat.div_div_eq_div_mul]
    exact hparent

/-- Only the pairs of the levels of `l` combine to what a pair of them combines to. -/
def Distinguishes (f : β → β → β) (l : List β) (p : β × β) : Prop :=
  ∀ n, ∀ q ∈ pairs (pairAll f n l), f p.1 p.2 = f q.1 q.2 → p = q ∨ p = q.swap

theorem Distinguishes.up {l : List β} {p : β × β} (h : Distinguishes f l p) :
    Distinguishes f (pairUp f l) p := fun n => h (n + 1)

/-- A climb along a path to where the path leads starts at the path's label. -/
theorem Path.climb_inj (hcomm : ∀ a b, f a b = f b a) {l : List β} {i : ℕ} {sibs : List β}
    {x y : β} (h : Path f l i sibs) (hy : l[i]? = some y)
    (hdist : ∀ p ∈ climbSteps f x sibs, Distinguishes f l p)
    (hclimb : HashTree.climb f x sibs = HashTree.climb f y sibs) : x = y := by
  induction h generalizing x y with
  | here l i => exact hclimb
  | @up l i s sibs hs _ ih =>
    obtain ⟨hparent, hpair⟩ := getElem?_parent hcomm hy hs
    have hstep : f x s = f y s :=
      ih hparent (fun p hp => (hdist p (List.mem_cons_of_mem _ hp)).up) hclimb
    have hxs := hdist (x, s) List.mem_cons_self 0
    rcases hpair with hmem | hmem
    · rcases hxs _ hmem hstep with heq | heq
      · exact congrArg Prod.fst heq
      · exact (congrArg Prod.fst heq).trans (congrArg Prod.snd heq)
    · rcases hxs _ hmem (hstep.trans (hcomm y s)) with heq | heq
      · exact (congrArg Prod.fst heq).trans (congrArg Prod.snd heq)
      · exact congrArg Prod.fst heq

/-- A climb to the root of a perfect tree runs along a path of the tree, from
a level between the leaves and the root. -/
theorem exists_path_of_climb {l : List β} {d : ℕ} (hlen : l.length = 2 ^ d) {r x : β}
    {sibs : List β} (hroot : pairAll f d l = [r])
    (hdist : ∀ p ∈ climbSteps f x sibs, Distinguishes f l p)
    (hleaf : ∀ p ∈ climbSteps f x sibs, f p.1 p.2 ∉ l)
    (hclimb : climb f x sibs = r) :
    sibs.length ≤ d ∧ ∃ i, (pairAll f (d - sibs.length) l)[i]? = some x ∧
      Path f (pairAll f (d - sibs.length) l) i sibs := by
  induction sibs generalizing x with
  | nil =>
    refine ⟨Nat.zero_le d, 0, ?_, .here _ _⟩
    rw [List.length_nil, Nat.sub_zero, hroot, ← hclimb]
    rfl
  | cons s sibs ih =>
    obtain ⟨hle, i, hget, hpath⟩ := ih (fun p hp => hdist p (List.mem_cons_of_mem _ hp))
      (fun p hp => hleaf p (List.mem_cons_of_mem _ hp)) hclimb
    have hfirst : (x, s) ∈ climbSteps f x (s :: sibs) := List.mem_cons_self
    -- A climb that starts above the leaves has room for one more step below it.
    have hlt : sibs.length < d := by
      refine lt_of_le_of_ne hle fun heq => hleaf _ hfirst ?_
      rw [heq, Nat.sub_self] at hget
      exact List.mem_of_getElem? hget
    have hsub : d - sibs.length = d - (s :: sibs).length + 1 := by
      rw [List.length_cons]
      omega
    set m := d - (s :: sibs).length with hm
    rw [hsub, pairAll_succ] at hget hpath
    -- The label that the step yields pairs two neighbours of the level below, and they
    -- are `x` and `s` in one order or the other.
    have hsplit : d = m + (sibs.length + 1) := by omega
    have heven : (pairAll f m l).length = 2 * 2 ^ sibs.length := by
      rw [length_pairAll (hsplit ▸ hlen), pow_succ']
    obtain ⟨a, b, ha, hb, hab⟩ := exists_of_getElem?_pairUp heven hget
    have hmem := (getElem?_pairUp (f := f) ha hb).2
    refine ⟨hlt, ?_⟩
    rcases hdist _ hfirst m _ hmem hab with heq | heq
    · rw [Prod.mk.injEq] at heq
      refine ⟨2 * i, heq.1 ▸ ha, .up ?_ ?_⟩
      · rw [xor_one_two_mul, heq.2, hb]
      · rw [Nat.mul_div_cancel_left i (by norm_num)]
        exact hpath
    · rw [Prod.swap_prod_mk, Prod.mk.injEq] at heq
      refine ⟨2 * i + 1, heq.1 ▸ hb, .up ?_ ?_⟩
      · rw [xor_one_two_mul_add_one, heq.2, ha]
      · rw [show (2 * i + 1) / 2 = i by omega]
        exact hpath

end Positions

/-! ### Opening a position of a level of any length -/

section Openings

variable {α β γ D : Type} {lab : α → D} {comb : D → D → D}

/-- The siblings met on the way up from position `i`, over at most `n` levels: a
level of one label is the root, and a promoted label has no sibling. -/
def openingAt (f : β → β → β) : ℕ → List β → ℕ → List β
  | 0, _, _ => []
  | n + 1, l, i =>
    if l.length = 1 then [] else (l[i ^^^ 1]?).toList ++ openingAt f n (pairUp f l) (i / 2)

theorem map_pairUp {f : β → β → β} {f' : γ → γ → γ} {g : β → γ}
    (hg : ∀ a b, g (f a b) = f' (g a) (g b)) (l : List β) :
    (pairUp f l).map g = pairUp f' (l.map g) := by
  induction l using pairUp.induct with
  | case1 a b rest ih => simp [pairUp, hg, ih]
  | case2 a => rfl
  | case3 => rfl

theorem openingAt_map {f : β → β → β} {f' : γ → γ → γ} {g : β → γ}
    (hg : ∀ a b, g (f a b) = f' (g a) (g b)) (n : ℕ) (l : List β) (i : ℕ) :
    openingAt f' n (l.map g) i = (openingAt f n l i).map g := by
  induction n generalizing l i with
  | zero => rfl
  | succ n ih =>
    rw [openingAt, openingAt, List.length_map, List.getElem?_map, ← map_pairUp hg, ih]
    split
    · rfl
    · rw [List.map_append, Option.toList_map]

/-- Every tree of a level is below a tree of the level above. -/
theorem exists_mem_pairUp {ts : List (MTree α)} {t : MTree α} (ht : t ∈ ts) :
    ∃ t' ∈ pairUp MTree.node ts, t ∈ t'.subtrees := by
  induction ts using pairUp.induct with
  | case1 a b rest ih =>
    rcases List.mem_cons.mp ht with rfl | ht
    · exact ⟨_, List.mem_cons_self, MTree.left_mem_subtrees _ _⟩
    · rcases List.mem_cons.mp ht with rfl | ht
      · exact ⟨_, List.mem_cons_self, MTree.right_mem_subtrees _ _⟩
      · obtain ⟨t', ht', hsub⟩ := ih ht
        exact ⟨t', List.mem_cons_of_mem _ ht', hsub⟩
  | case2 a => exact ⟨t, ht, MTree.self_mem_subtrees t⟩
  | case3 => exact absurd ht (by simp)

theorem mem_subtrees_of_pairAll {n : ℕ} {ts : List (MTree α)} {t u : MTree α}
    (hroot : pairAll MTree.node n ts = [u]) (ht : t ∈ ts) : t ∈ u.subtrees := by
  induction n generalizing ts t with
  | zero =>
    rw [pairAll] at hroot
    rw [hroot, List.mem_singleton] at ht
    rw [ht]
    exact MTree.self_mem_subtrees u
  | succ n ih =>
    obtain ⟨t', ht', hsub⟩ := exists_mem_pairUp ht
    exact MTree.subtrees_trans hsub (ih hroot ht')

/-- The siblings met from position `i` open the tree that stands there: each
level adds one sibling, or none where the tree is promoted. -/
theorem opens_openingAt {n : ℕ} {ts : List (MTree α)} {t u : MTree α} {i : ℕ}
    (hroot : pairAll MTree.node n ts = [t]) (hu : ts[i]? = some u)
    (hcomm : ∀ l r, .node l r ∈ t.subtrees →
      comb (r.label lab comb) (l.label lab comb) = comb (l.label lab comb) (r.label lab comb)) :
    Opens lab comb t u (openingAt MTree.node n ts i) := by
  induction n generalizing ts u i with
  | zero =>
    rw [pairAll] at hroot
    rw [hroot, List.getElem?_eq_some_iff] at hu
    obtain ⟨hi, rfl⟩ := hu
    obtain rfl : i = 0 := by simpa using hi
    exact Opens.refl t
  | succ n ih =>
    rw [openingAt]
    split
    · next hlen =>
      -- The level of the root has it alone.
      obtain ⟨v, rfl⟩ := List.length_eq_one_iff.mp hlen
      rw [pairAll_of_length_le_one le_rfl, List.singleton_inj] at hroot
      rw [List.getElem?_eq_some_iff] at hu
      obtain ⟨hi, rfl⟩ := hu
      obtain rfl : i = 0 := by simpa using hi
      rw [← hroot]
      exact Opens.refl v
    · next hlen =>
      have mem_up : ∀ {k : ℕ} {c : MTree α}, (pairUp MTree.node ts)[k]? = some c →
          c ∈ t.subtrees := by
        intro k c hc
        rw [pairAll] at hroot
        exact mem_subtrees_of_pairAll hroot (List.mem_of_getElem? hc)
      rcases Nat.even_or_odd' i with ⟨k, rfl | rfl⟩
      · rw [xor_one_two_mul, Nat.mul_div_cancel_left k (by norm_num)]
        cases hs : ts[2 * k + 1]? with
        | none => exact ih hroot (getElem?_pairUp_promoted hu hs)
        | some s =>
          have hup := (getElem?_pairUp (f := MTree.node) hu hs).1
          exact Opens.left.trans (mem_up hup) (ih hroot hup)
      · rw [xor_one_two_mul_add_one, show (2 * k + 1) / 2 = k by omega]
        obtain ⟨s, hs⟩ : ∃ s, ts[2 * k]? = some s := by
          obtain ⟨hi, -⟩ := List.getElem?_eq_some_iff.mp hu
          exact ⟨_, List.getElem?_eq_getElem (Nat.lt_of_succ_lt hi)⟩
        have hup := (getElem?_pairUp (f := MTree.node) hs hu).1
        rw [hs]
        exact (Opens.right (hcomm s u (mem_up hup))).trans (mem_up hup) (ih hroot hup)

end Openings

end HashTree
