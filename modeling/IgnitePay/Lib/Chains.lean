/-
Lists in which every element determines the one before it.

Where at most one element can stand before another (`Relator.LeftUnique`), a chain is
determined by its end.

* `eq_of_isChain` — two chains of one length with the same last element are the same;
* `isInfix_of_isChain` — a chain of elements of a chain is a stretch of it, if nothing can
  stand before the first of these.
-/
import Mathlib

namespace Chains

variable {α : Type} {r : α → α → Prop}

theorem eq_of_isChain (hr : Relator.LeftUnique r) {l l' : List α} (hl : l.IsChain r)
    (hl' : l'.IsChain r) (hlength : l.length = l'.length) (hlast : l.getLast? = l'.getLast?) :
    l = l' := by
  induction l using List.reverseRecOn generalizing l' with
  | nil => exact (List.length_eq_zero_iff.mp hlength.symm).symm
  | append_singleton l a ih =>
    rw [List.getLast?_concat] at hlast
    obtain ⟨l', rfl⟩ := List.getLast?_eq_some_iff.mp hlast.symm
    rw [List.length_append, List.length_append, List.length_singleton] at hlength
    obtain ⟨hl, -, hlink⟩ := List.isChain_append.mp hl
    obtain ⟨hl', -, hlink'⟩ := List.isChain_append.mp hl'
    -- What stands before the last element is the same in both.
    have hbefore : l.getLast? = l'.getLast? := by
      rcases hb : l.getLast? with _ | b
      · rw [List.getLast?_eq_none_iff] at hb
        subst hb
        have hnil : l' = [] := List.length_eq_zero_iff.mp (by simpa using hlength.symm)
        rw [hnil]
        rfl
      · rcases hb' : l'.getLast? with _ | b'
        · rw [List.getLast?_eq_none_iff] at hb'
          subst hb'
          have hnil : l = [] := List.length_eq_zero_iff.mp (by simpa using hlength)
          rw [hnil] at hb
          exact absurd hb (by simp)
        · rw [hr (hlink b hb a rfl) (hlink' b' hb' a rfl)]
    rw [ih hl hl' (by omega) hbefore]

/-- Nothing stands before the first element. -/
theorem isInfix_of_isChain (hr : Relator.LeftUnique r) {l l' : List α} (hl : l.IsChain r)
    (hroot : ∀ first ∈ l.head?, ∀ a ∈ l, ¬ r a first) (hl' : l'.IsChain r) (hsub : ∀ a ∈ l', a ∈ l) :
    l' <:+: l := by
  induction l' with
  | nil => exact List.nil_infix
  | cons a l' ih =>
    obtain ⟨ha, hsub⟩ := List.forall_mem_cons.mp hsub
    rcases l' with _ | ⟨b, l'⟩
    · obtain ⟨before, after, rfl⟩ := List.append_of_mem ha
      exact ⟨before, after, by simp⟩
    · obtain ⟨hab, hl'⟩ := List.isChain_cons_cons.mp hl'
      obtain ⟨before, after, heq⟩ := ih hl' hsub
      rcases List.eq_nil_or_concat before with rfl | ⟨before, a', rfl⟩
      · refine absurd hab (hroot b ?_ a ha)
        rw [← heq]
        rfl
      · -- The element that the chain has before `b` is the one that stands there.
        rw [← heq, List.concat_eq_append, List.append_assoc, List.append_assoc,
          List.isChain_append] at hl
        obtain ⟨-, hrest, -⟩ := hl
        have haa' : a' = a := hr (List.isChain_cons_cons.mp hrest).1 hab
        subst haa'
        exact ⟨before, after, by rw [← heq]; simp⟩

end Chains
