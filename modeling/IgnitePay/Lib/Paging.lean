/-
Reading a list page by page.

A reader names the last element it has seen by its key, and is given what follows.
While the keys differ, that is exactly what it has not seen (`after_append`), so what
it has seen stays a beginning of the list from page to page (`append_page`).
-/
import Mathlib

namespace Paging

variable {α κ : Type} [DecidableEq κ] (key : α → κ)

/-- What follows the element that the cursor names; without a cursor, everything. -/
def after : Option κ → List α → List α
  | none, l => l
  | some k, l => (l.dropWhile fun a => key a ≠ k).tail

/-- The cursor of a reader: the key of the last element it has seen. -/
def cursor (seen : List α) : Option κ := seen.getLast?.map key

theorem after_append {seen rest : List α} (h : ((seen ++ rest).map key).Nodup) :
    after key (cursor key seen) (seen ++ rest) = rest := by
  rcases List.eq_nil_or_concat seen with rfl | ⟨init, last, rfl⟩
  · rfl
  · have hcursor : cursor key (init.concat last) = some (key last) := by
      rw [cursor, List.concat_eq_append, List.getLast?_concat]
      rfl
    have hne : ∀ a ∈ init, (decide (key a ≠ key last)) = true := by
      intro a ha
      rw [List.concat_eq_append, List.append_assoc, List.map_append] at h
      refine decide_eq_true (fun heq => ?_)
      exact (List.nodup_append.mp h).2.2 _ (List.mem_map_of_mem ha) _
        (List.mem_map_of_mem (List.mem_append_left rest (List.mem_singleton_self last))) heq
    rw [hcursor, after, List.concat_eq_append, List.append_assoc,
      List.dropWhile_append_of_pos hne, List.singleton_append, List.dropWhile_cons_of_neg (by simp)]
    rfl

/-- What has been seen, with the next page, is a beginning of the list again. -/
theorem append_page {seen rest : List α} (limit : ℕ) (h : ((seen ++ rest).map key).Nodup) :
    seen ++ rest = (seen ++ (after key (cursor key seen) (seen ++ rest)).take limit) ++
      rest.drop limit := by
  rw [after_append key h, List.append_assoc, List.take_append_drop]

/-- The element named by the cursor is found by its position as well. -/
theorem after_eq_drop {l : List α} {k : κ} (h : k ∈ l.map key) :
    after key (some k) l =
      l.drop (((l.findIdx? fun a => key a = k).map (· + 1)).getD 0) := by
  induction l with
  | nil => exact absurd h List.not_mem_nil
  | cons a l ih =>
    by_cases ha : key a = k
    · simp [after, List.findIdx?_cons, ha]
    · have hmem : k ∈ l.map key := by
        rcases List.mem_cons.mp h with rfl | h
        · exact absurd rfl ha
        · exact h
      have ih := ih hmem
      rw [after] at ih ⊢
      obtain ⟨i, hi⟩ : ∃ i, l.findIdx? (fun a => key a = k) = some i := by
        obtain ⟨b, hb, hkey⟩ := List.mem_map.mp hmem
        rcases hfind : l.findIdx? (fun a => key a = k) with _ | i
        · have hnone := List.findIdx?_eq_none_iff.mp hfind b hb
          exact absurd hkey (by simpa using hnone)
        · exact ⟨i, rfl⟩
      rw [hi] at ih
      simp only [List.findIdx?_cons, ha, hi, decide_false, Bool.false_eq_true, if_false,
        Option.map_some, Option.getD_some, List.drop_succ_cons]
      rw [List.dropWhile_cons_of_pos (by simpa using ha), ih]
      rfl

end Paging
