/-
Finite stores and sums over them.

A store is an association list `AList` with values in one type.  The total of
a quantity over its entries is `weight f s`; writing one entry changes it by
the new value minus the one it replaces (`weight_insert`), which is all an
accounting invariant ever needs.  The values can be changed, dropped or written
out all at once (`lookup_mapValues`, `lookup_retain`, `lookup_insertAll_values`).
-/
import Mathlib

namespace Store

variable {α β : Type}

/-- A finite map from `α` to `β`. -/
abbrev Map (α β : Type) := AList (fun _ : α => β)

/-- The values of a store. -/
def values (s : Map α β) : List β := s.entries.map Sigma.snd

/-- Every value is replaced by what `f` makes of it. -/
def mapValues (f : β → β) (s : Map α β) : Map α β :=
  ⟨s.entries.map (Sigma.map id fun _ => f), s.nodupKeys.map₂ fun _ => f⟩

/-- Only the values that pass the test are kept. -/
def retain (p : β → Bool) (s : Map α β) : Map α β :=
  ⟨s.entries.filter fun e => p e.2, s.nodupKeys.sublist List.filter_sublist⟩

/-- The sum of `f` over a list of entries. -/
def listWeight (f : α → β → ℕ) (l : List (Sigma fun _ : α => β)) : ℕ :=
  (l.map fun e => f e.1 e.2).sum

/-- The sum of `f` over the entries of a store. -/
def weight (f : α → β → ℕ) (s : Map α β) : ℕ := listWeight f s.entries

@[simp] theorem listWeight_cons (f : α → β → ℕ) (e : Sigma fun _ : α => β)
    (l : List (Sigma fun _ : α => β)) :
    listWeight f (e :: l) = f e.1 e.2 + listWeight f l := by
  simp [listWeight]

theorem weight_add (f g : α → β → ℕ) (s : Map α β) :
    weight (fun a b => f a b + g a b) s = weight f s + weight g s := by
  unfold weight
  induction s.entries with
  | nil => rfl
  | cons e l ih =>
    rw [listWeight_cons, listWeight_cons, listWeight_cons, ih]
    omega

theorem listWeight_congr {f g : α → β → ℕ} {l : List (Sigma fun _ : α => β)}
    (h : ∀ e ∈ l, f e.1 e.2 = g e.1 e.2) : listWeight f l = listWeight g l := by
  unfold listWeight
  rw [List.map_congr_left h]

variable [DecidableEq α]

/-- What the entry at `a`, if there is one, contributes to a weight. -/
def contribution (f : α → β → ℕ) (s : Map α β) (a : α) : ℕ := (s.lookup a).elim 0 (f a)

theorem listWeight_kerase (f : α → β → ℕ) (a : α) (l : List (Sigma fun _ : α => β)) :
    listWeight f (l.kerase a) + (l.dlookup a).elim 0 (f a) = listWeight f l := by
  induction l with
  | nil => rfl
  | cons e l ih =>
    by_cases h : a = e.1
    · obtain ⟨a', b⟩ := e
      subst h
      rw [show List.kerase a (⟨a, b⟩ :: l) = l from List.kerase_cons_eq rfl,
        List.dlookup_cons_eq, listWeight_cons]
      simp only [Option.elim_some]
      omega
    · rw [List.kerase_cons_ne h, List.dlookup_cons_ne l e h, listWeight_cons, listWeight_cons]
      omega

/-- Writing an entry at `a`, while the quantity itself may change at `a` only. -/
theorem weight_insert_congr {f g : α → β → ℕ} (s : Map α β) {a : α} (b : β)
    (h : ∀ a', a' ≠ a → ∀ b', f a' b' = g a' b') :
    weight f (s.insert a b) + contribution g s a = weight g s + f a b := by
  have hsplit := listWeight_kerase g a s.entries
  have hrest : listWeight f (s.entries.kerase a) = listWeight g (s.entries.kerase a) := by
    refine listWeight_congr fun e he => h e.1 (fun heq => ?_) e.2
    have hmem : e.1 ∈ (s.entries.kerase a).keys := List.mem_keys_of_mem he
    rw [heq] at hmem
    exact List.notMem_keys_kerase a s.nodupKeys hmem
  rw [weight, AList.entries_insert, listWeight_cons, weight, contribution, AList.lookup, hrest]
  dsimp only
  omega

/-- Writing an entry adds its value and takes back the one it replaces. -/
theorem weight_insert (f : α → β → ℕ) (s : Map α β) (a : α) (b : β) :
    weight f (s.insert a b) + contribution f s a = weight f s + f a b :=
  weight_insert_congr s b fun _ _ _ => rfl

theorem contribution_le_weight (f : α → β → ℕ) (s : Map α β) (a : α) :
    contribution f s a ≤ weight f s := by
  have h := listWeight_kerase f a s.entries
  rw [weight, contribution, AList.lookup]
  omega

/-- A weight is the sum of what its keys contribute. -/
theorem weight_eq_sum (f : α → β → ℕ) (s : Map α β) :
    weight f s = ∑ a ∈ s.keys.toFinset, contribution f s a := by
  have hentry : ∀ e ∈ s.entries, f e.1 e.2 = contribution f s e.1 := by
    intro e he
    rw [contribution, AList.mem_lookup_iff.mpr he]
    rfl
  have hkeys : s.keys.map (contribution f s) = s.entries.map fun e => f e.1 e.2 := by
    rw [AList.keys, List.keys, List.map_map]
    exact (List.map_congr_left hentry).symm
  rw [List.sum_toFinset _ s.keys_nodup, hkeys]
  rfl

/-- Different keys contribute no more than everything. -/
theorem sum_contribution_le_weight (f : α → β → ℕ) (s : Map α β) (keys : Finset α) :
    ∑ a ∈ keys, contribution f s a ≤ weight f s := by
  rw [weight_eq_sum]
  refine Finset.sum_le_sum_of_ne_zero fun a _ hne => ?_
  rw [List.mem_toFinset, ← AList.mem_keys]
  by_contra hnot
  exact hne (by rw [contribution, AList.lookup_eq_none.mpr hnot]; rfl)

theorem contribution_of_lookup {f : α → β → ℕ} {s : Map α β} {a : α} {b : β}
    (h : s.lookup a = some b) : contribution f s a = f a b := by
  rw [contribution, h]
  rfl

theorem contribution_of_none {f : α → β → ℕ} {s : Map α β} {a : α}
    (h : s.lookup a = none) : contribution f s a = 0 := by
  rw [contribution, h]
  rfl

/-- An entry whose contribution does not change leaves the weight alone. -/
theorem weight_insert_of_eq {f : α → β → ℕ} {s : Map α β} {a : α} {b : β}
    (h : contribution f s a = f a b) : weight f (s.insert a b) = weight f s := by
  have := weight_insert f s a b
  omega

/-- Writing an entry that counts nothing where nothing counted. -/
theorem weight_insert_of_eq_zero {f : α → β → ℕ} {s : Map α β} {a : α} {b : β} (hb : f a b = 0)
    (h : ∀ b', s.lookup a = some b' → f a b' = 0) : weight f (s.insert a b) = weight f s := by
  refine weight_insert_of_eq ?_
  rcases hd : s.lookup a with _ | b'
  · rw [contribution_of_none hd, hb]
  · rw [contribution_of_lookup hd, h b' hd, hb]

/-- A smaller summand everywhere gives a smaller sum. -/
theorem weight_mono {f g : α → β → ℕ} {s : Map α β}
    (h : ∀ a b, s.lookup a = some b → f a b ≤ g a b) : weight f s ≤ weight g s := by
  apply List.sum_le_sum
  intro e he
  exact h e.1 e.2 (AList.mem_lookup_iff.mpr he)

theorem weight_eq_zero {f : α → β → ℕ} {s : Map α β}
    (h : ∀ a b, s.lookup a = some b → f a b = 0) : weight f s = 0 := by
  refine List.sum_eq_zero fun n hn => ?_
  obtain ⟨e, he, rfl⟩ := List.mem_map.mp hn
  exact h e.1 e.2 (AList.mem_lookup_iff.mpr he)

theorem lookup_insert_eq (s : Map α β) (a a' : α) (b : β) :
    (s.insert a b).lookup a' = if a' = a then some b else s.lookup a' := by
  split
  · next h =>
    subst h
    exact AList.lookup_insert s
  · next h => exact AList.lookup_insert_ne h

/-- An entry does not stand where there is none. -/
theorem ne_of_lookup {s : Map α β} {a a' : α} {b : β} (h : s.lookup a = none)
    (h' : s.lookup a' = some b) : a ≠ a' := by
  rintro rfl
  rw [h] at h'
  exact absurd h' (by simp)

/-- An entry other than the one just written was there before. -/
theorem lookup_of_insert {s : Map α β} {a a' : α} {b b' : β} (hne : b ≠ b')
    (h : (s.insert a b).lookup a' = some b') : s.lookup a' = some b' := by
  rw [lookup_insert_eq] at h
  split at h
  · exact absurd (Option.some_inj.mp h) hne
  · exact h

/-! ### The values under some of the keys -/

theorem mem_valuesWhere {s : Map α β} {p : α → Bool} {b : β} :
    b ∈ (s.entries.filter fun e => p e.1).map Sigma.snd ↔ ∃ a, p a = true ∧ s.lookup a = some b := by
  rw [List.mem_map]
  constructor
  · rintro ⟨⟨a, b⟩, he, rfl⟩
    obtain ⟨hentry, hp⟩ := List.mem_filter.mp he
    exact ⟨a, hp, AList.mem_lookup_iff.mpr hentry⟩
  · rintro ⟨a, hp, hlookup⟩
    exact ⟨⟨a, b⟩, List.mem_filter.mpr ⟨AList.mem_lookup_iff.mp hlookup, hp⟩, rfl⟩

/-- Where each value stands under its own key, none is there twice. -/
theorem nodup_valuesWhere {s : Map α β} {p : α → Bool} {key : β → α}
    (hkey : ∀ a b, s.lookup a = some b → key b = a) :
    ((s.entries.filter fun e => p e.1).map Sigma.snd).Nodup := by
  refine List.Nodup.map_on ?_ ((List.NodupKeys.nodup s.nodupKeys).filter _)
  rintro ⟨a₁, b₁⟩ h₁ ⟨a₂, b₂⟩ h₂ rfl
  have hkey₁ := hkey a₁ b₁ (AList.mem_lookup_iff.mpr (List.mem_of_mem_filter h₁))
  have hkey₂ := hkey a₂ b₁ (AList.mem_lookup_iff.mpr (List.mem_of_mem_filter h₂))
  obtain rfl := hkey₁.symm.trans hkey₂
  rfl

/-! ### All values at once -/

theorem lookup_mapValues (f : β → β) (s : Map α β) (a : α) :
    (mapValues f s).lookup a = (s.lookup a).map f := List.dlookup_map₂ a

theorem lookup_retain (p : β → Bool) (s : Map α β) (a : α) :
    (retain p s).lookup a = (s.lookup a).filter p := by
  apply Option.ext
  intro b
  rw [Option.filter_eq_some_iff]
  have hleft : (retain p s).lookup a = some b ↔ ⟨a, b⟩ ∈ (retain p s).entries := AList.mem_lookup_iff
  have hright : s.lookup a = some b ↔ ⟨a, b⟩ ∈ s.entries := AList.mem_lookup_iff
  rw [hleft, hright]
  exact List.mem_filter

/-- Values written one after the other, each under its own key. -/
def insertAll (key : β → α) (l : List β) (s : Map α β) : Map α β :=
  l.foldl (fun s b => AList.insert (key b) b s) s

theorem lookup_insertAll (key : β → α) {l : List β} (hkeys : (l.map key).Nodup) (s : Map α β) (a : α)
    (b : β) : (insertAll key l s).lookup a = some b ↔
      (b ∈ l ∧ key b = a) ∨ ((∀ b' ∈ l, key b' ≠ a) ∧ s.lookup a = some b) := by
  induction l generalizing s with
  | nil => simp [insertAll]
  | cons c l ih =>
    obtain ⟨hc, hkeys⟩ := List.nodup_cons.mp hkeys
    have hother : ∀ b' ∈ l, key b' ≠ key c :=
      fun b' hb' heq => hc (List.mem_map.mpr ⟨b', hb', heq⟩)
    have hstep : insertAll key (c :: l) s = insertAll key l (s.insert (key c) c) := rfl
    rw [hstep, ih hkeys, lookup_insert_eq, List.mem_cons, List.forall_mem_cons]
    by_cases heq : a = key c
    · subst heq
      rw [if_pos rfl, Option.some_inj]
      constructor
      · rintro (⟨hb, hkey⟩ | ⟨-, rfl⟩)
        · exact absurd hkey (hother b hb)
        · exact .inl ⟨.inl rfl, rfl⟩
      · rintro (⟨rfl | hb, hkey⟩ | ⟨⟨hne, -⟩, -⟩)
        · exact .inr ⟨hother, rfl⟩
        · exact absurd hkey (hother b hb)
        · exact absurd rfl hne
    · rw [if_neg heq]
      constructor
      · rintro (⟨hb, hkey⟩ | ⟨hnone, hb⟩)
        · exact .inl ⟨.inr hb, hkey⟩
        · exact .inr ⟨⟨Ne.symm heq, hnone⟩, hb⟩
      · rintro (⟨rfl | hb, hkey⟩ | ⟨⟨-, hnone⟩, hb⟩)
        · exact absurd hkey.symm heq
        · exact .inl ⟨hb, hkey⟩
        · exact .inr ⟨hnone, hb⟩

/-- The values of a store in which each stands under its own key make it up again. -/
theorem lookup_insertAll_values {key : β → α} {s : Map α β}
    (hkey : ∀ a b, s.lookup a = some b → key b = a) (a : α) :
    (insertAll key (values s) ∅).lookup a = s.lookup a := by
  have hentry : ∀ e ∈ s.entries, key e.2 = e.1 :=
    fun e he => hkey e.1 e.2 (AList.mem_lookup_iff.mpr he)
  have hkeys : (values s).map key = s.keys := by
    rw [values, List.map_map]
    exact List.map_congr_left hentry
  apply Option.ext
  intro b
  rw [lookup_insertAll key (by rw [hkeys]; exact s.keys_nodup)]
  have hmem : s.lookup a = some b ↔ ⟨a, b⟩ ∈ s.entries := AList.mem_lookup_iff
  rw [hmem]
  constructor
  · rintro (⟨hb, rfl⟩ | ⟨-, hempty⟩)
    · obtain ⟨⟨a, b⟩, he, rfl⟩ := List.mem_map.mp hb
      have hkey : key b = a := hentry _ he
      rw [hkey]
      exact he
    · exact absurd hempty (by simp)
  · intro he
    exact .inl ⟨List.mem_map.mpr ⟨⟨a, b⟩, he, rfl⟩, hentry _ he⟩

end Store
