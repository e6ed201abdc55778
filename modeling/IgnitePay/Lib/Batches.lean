/-
Batches that count items.

* `sum_map_le_of_subset` — items that are among others sum up to no more, if none is there twice;
* `sum_total_le` — batches that count no item twice count no more than there is.
-/
import Mathlib

namespace Batches

variable {ν β : Type} {l l' : List ν}

theorem sum_map_le_of_subset (f : ν → ℕ) (hnodup : l.Nodup) (h : l ⊆ l') :
    (l.map f).sum ≤ (l'.map f).sum := by
  obtain ⟨l'', hperm, hsub⟩ := List.subperm_of_subset hnodup h
  rw [← (hperm.map f).sum_eq]
  exact (hsub.map f).sum_le_sum fun _ _ => Nat.zero_le _

theorem sum_total_le_flatMap {batches : List β} {items : β → List ν} {total : β → ℕ} {amount : ν → ℕ}
    (h : ∀ x ∈ batches, total x ≤ ((items x).map amount).sum) :
    (batches.map total).sum ≤ ((batches.flatMap items).map amount).sum := by
  induction batches with
  | nil => exact le_rfl
  | cons x batches ih =>
    obtain ⟨hx, hrest⟩ := List.forall_mem_cons.mp h
    have hle := ih hrest
    simp only [List.map_cons, List.sum_cons, List.flatMap_cons, List.map_append, List.sum_append]
    omega

theorem sum_total_le {batches : List β} {items : β → List ν} {total : β → ℕ} {amount : ν → ℕ}
    {all : List ν} (htotal : ∀ x ∈ batches, total x ≤ ((items x).map amount).sum)
    (hnodup : ∀ x ∈ batches, (items x).Nodup)
    (hdisjoint : batches.Pairwise fun x y => (items x).Disjoint (items y))
    (hall : ∀ x ∈ batches, items x ⊆ all) : (batches.map total).sum ≤ (all.map amount).sum := by
  refine (sum_total_le_flatMap htotal).trans
    (sum_map_le_of_subset amount (List.nodup_flatMap.mpr ⟨hnodup, hdisjoint⟩) fun v hv => ?_)
  obtain ⟨x, hx, hv⟩ := List.mem_flatMap.mp hv
  exact hall x hx hv

end Batches
