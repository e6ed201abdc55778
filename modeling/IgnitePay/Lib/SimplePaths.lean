/-
Simple paths in a graph, enumerated depth first.

The graph is given by the list of the neighbours of each node.  `pathsTo next goal n seen a`
lists the paths from `a` to `goal` of at most `n` edges that come back to no node, and to none of
`seen`, in the order in which a depth-first search comes upon them.

* `mem_pathsTo` — these are all of them, and nothing else;
* `nodup_pathsTo` — each is listed once, if no node lists a neighbour twice.
-/
import Mathlib

namespace SimplePaths

variable {α : Type} {next : α → List α} {goal a : α} {p : List α}

/-- `p` leads from a node along edges to `goal`; the first time it gets there it may stop. -/
inductive Walk (next : α → List α) (goal : α) : α → List α → Prop
  | arrived : Walk next goal goal [goal]
  | step {a b : α} {p : List α} : b ∈ next a → Walk next goal b p → Walk next goal a (a :: p)

theorem Walk.head (h : Walk next goal a p) : ∃ q, p = a :: q := by
  cases h with
  | arrived => exact ⟨[], rfl⟩
  | step => exact ⟨_, rfl⟩

theorem Walk.goal_mem (h : Walk next goal a p) : goal ∈ p := by
  induction h with
  | arrived => exact List.mem_singleton_self _
  | step _ _ ih => exact List.mem_cons_of_mem _ ih

/-- A walk that comes back to no node. -/
structure Simple (next : α → List α) (goal a : α) (p : List α) : Prop where
  walk : Walk next goal a p
  nodup : p.Nodup

theorem simple_goal_iff : Simple next goal goal p ↔ p = [goal] := by
  constructor
  · rintro ⟨hwalk, hnodup⟩
    cases hwalk with
    | arrived => rfl
    | step _ h => exact absurd h.goal_mem (List.nodup_cons.mp hnodup).1
  · rintro rfl
    exact ⟨.arrived, List.nodup_singleton _⟩

theorem simple_iff_of_ne (hne : a ≠ goal) : Simple next goal a p ↔
    ∃ b ∈ next a, ∃ q, p = a :: q ∧ a ∉ q ∧ Simple next goal b q := by
  constructor
  · rintro ⟨hwalk, hnodup⟩
    cases hwalk with
    | arrived => exact absurd rfl hne
    | step hedge h =>
      obtain ⟨hfresh, hrest⟩ := List.nodup_cons.mp hnodup
      exact ⟨_, hedge, _, rfl, hfresh, h, hrest⟩
  · rintro ⟨b, hedge, q, rfl, hfresh, h⟩
    exact ⟨.step hedge h.walk, List.nodup_cons.mpr ⟨hfresh, h.nodup⟩⟩

variable [DecidableEq α]

/-- The simple paths to `goal` of at most `n` edges that stay clear of `seen` once they have left. -/
def pathsTo (next : α → List α) (goal : α) : ℕ → Finset α → α → List (List α)
  | 0, _, a => if a = goal then [[a]] else []
  | n + 1, seen, a =>
    if a = goal then [[a]]
    else ((next a).filter (· ∉ insert a seen)).flatMap fun b =>
      (pathsTo next goal n (insert a seen) b).map (a :: ·)

variable {n : ℕ} {seen : Finset α}

theorem pathsTo_goal (next : α → List α) (goal : α) (n : ℕ) (seen : Finset α) :
    pathsTo next goal n seen goal = [[goal]] := by
  cases n with
  | zero => exact if_pos rfl
  | succ n => exact if_pos rfl

theorem head_of_mem_pathsTo (h : p ∈ pathsTo next goal n seen a) : ∃ q, p = a :: q := by
  by_cases heq : a = goal
  · subst heq
    rw [pathsTo_goal] at h
    exact ⟨[], List.mem_singleton.mp h⟩
  · cases n with
    | zero =>
      rw [pathsTo, if_neg heq] at h
      exact absurd h List.not_mem_nil
    | succ n =>
      rw [pathsTo, if_neg heq] at h
      obtain ⟨b, -, h⟩ := List.mem_flatMap.mp h
      obtain ⟨q, -, rfl⟩ := List.mem_map.mp h
      exact ⟨q, rfl⟩

theorem mem_pathsTo : p ∈ pathsTo next goal n seen a ↔
    Simple next goal a p ∧ p.length ≤ n + 1 ∧ ∀ x ∈ p.tail, x ∉ seen := by
  induction n generalizing seen a p with
  | zero =>
    rw [pathsTo]
    constructor
    · intro h
      split at h
      · next heq =>
        subst heq
        obtain rfl := List.mem_singleton.mp h
        exact ⟨simple_goal_iff.mpr rfl, le_refl _, by simp⟩
      · exact absurd h List.not_mem_nil
    · rintro ⟨hsimple, hlength, -⟩
      by_cases heq : a = goal
      · subst heq
        rw [if_pos rfl, simple_goal_iff.mp hsimple]
        exact List.mem_singleton_self _
      · obtain ⟨b, -, q, rfl, -, hq⟩ := (simple_iff_of_ne heq).mp hsimple
        obtain ⟨r, rfl⟩ := hq.walk.head
        simp only [List.length_cons] at hlength
        omega
  | succ n ih =>
    by_cases heq : a = goal
    · subst heq
      rw [pathsTo_goal, List.mem_singleton, simple_goal_iff]
      constructor
      · rintro rfl
        exact ⟨rfl, by simp, by simp⟩
      · exact fun h => h.1
    · rw [pathsTo, if_neg heq, List.mem_flatMap, simple_iff_of_ne heq]
      constructor
      · rintro ⟨b, hb, h⟩
        obtain ⟨hedge, hb⟩ := List.mem_filter.mp hb
        have hb := of_decide_eq_true hb
        obtain ⟨q, hq, rfl⟩ := List.mem_map.mp h
        obtain ⟨hsimple, hlength, hclear⟩ := ih.mp hq
        obtain ⟨r, rfl⟩ := hsimple.walk.head
        have hclear : ∀ x ∈ b :: r, x ∉ insert a seen := List.forall_mem_cons.mpr ⟨hb, hclear⟩
        refine ⟨⟨b, hedge, b :: r, rfl, ?_, hsimple⟩, ?_, ?_⟩
        · intro ha
          exact hclear a ha (Finset.mem_insert_self a seen)
        · simp only [List.length_cons] at hlength ⊢
          omega
        · intro x hx hseen
          exact hclear x hx (Finset.mem_insert_of_mem hseen)
      · rintro ⟨⟨b, hedge, q, rfl, hfresh, hsimple⟩, hlength, hclear⟩
        have hclear : ∀ x ∈ q, x ∉ insert a seen := by
          intro x hx hmem
          rcases Finset.mem_insert.mp hmem with rfl | hseen
          · exact hfresh hx
          · exact hclear x hx hseen
        obtain ⟨r, rfl⟩ := hsimple.walk.head
        refine ⟨b, List.mem_filter.mpr ⟨hedge, ?_⟩, List.mem_map.mpr ⟨_, ih.mpr ⟨hsimple, ?_, ?_⟩, rfl⟩⟩
        · exact decide_eq_true (hclear b List.mem_cons_self)
        · simp only [List.length_cons] at hlength ⊢
          omega
        · exact fun x hx => hclear x (List.mem_cons_of_mem _ hx)

theorem nodup_pathsTo (hnext : ∀ a, (next a).Nodup) : (pathsTo next goal n seen a).Nodup := by
  induction n generalizing seen a with
  | zero =>
    rw [pathsTo]
    split
    · exact List.nodup_singleton _
    · exact List.nodup_nil
  | succ n ih =>
    rw [pathsTo]
    split
    · exact List.nodup_singleton _
    · rw [List.nodup_flatMap]
      refine ⟨fun b _ => ih.map fun _ _ h => (List.cons.inj h).2, ?_⟩
      -- Paths over different neighbours differ in their second node.
      refine ((hnext a).filter _).imp fun {b b'} hne => ?_
      intro p hp hp'
      obtain ⟨q, hq, rfl⟩ := List.mem_map.mp hp
      obtain ⟨q', hq', heq⟩ := List.mem_map.mp hp'
      obtain rfl := (List.cons.inj heq).2
      obtain ⟨r, rfl⟩ := head_of_mem_pathsTo hq
      obtain ⟨r', heq⟩ := head_of_mem_pathsTo hq'
      exact hne (List.cons.inj heq).1

end SimplePaths
