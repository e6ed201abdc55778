/-
Ordered trees of keys and values, and databases of named trees.

A tree lists its entries by increasing key, which is the order an iteration visits
them in.  That the keys increase is part of the type, so a key has one value
(`get_eq_some_iff`) and what a write does can be told by lookups alone
(`get_insert`, `get_remove`).

* `entries_insert_of_lt` — a key above all others is written at the end;
* `entries_removeAll` — what is left when some of the keys are removed;
* `Database.tree_modify` — a write to one tree leaves the others alone.
-/
import IgnitePay.Lib.Store

/-- A tree: its entries, by increasing key. -/
structure SortedTree (α β : Type) [LinearOrder α] where
  entries : List (α × β)
  sorted : entries.Pairwise fun e e' => e.1 < e'.1

namespace SortedTree

variable {α β : Type} [LinearOrder α]

instance : EmptyCollection (SortedTree α β) := ⟨⟨[], .nil⟩⟩

instance : Inhabited (SortedTree α β) := ⟨∅⟩

@[simp] theorem entries_empty : (∅ : SortedTree α β).entries = [] := rfl

theorem eq_of_entries {t t' : SortedTree α β} (h : t.entries = t'.entries) : t = t' := by
  obtain ⟨l, hl⟩ := t
  obtain ⟨l', hl'⟩ := t'
  subst h
  rfl

/-- A key is in a tree once. -/
theorem eq_of_mem {t : SortedTree α β} {e e' : α × β} (he : e ∈ t.entries) (he' : e' ∈ t.entries)
    (hkey : e.1 = e'.1) : e = e' := by
  by_contra hne
  have hsymm : Std.Symm fun e e' : α × β => e.1 ≠ e'.1 := ⟨fun _ _ h => Ne.symm h⟩
  have hkeys : t.entries.Pairwise fun e e' => e.1 ≠ e'.1 := t.sorted.imp fun h => ne_of_lt h
  exact hkeys.forall he he' hne hkey

/-- The value at a key. -/
def get (t : SortedTree α β) (a : α) : Option β := (t.entries.find? fun e => e.1 = a).map Prod.snd

theorem get_eq_some_iff {t : SortedTree α β} {a : α} {b : β} :
    t.get a = some b ↔ (a, b) ∈ t.entries := by
  rw [get, Option.map_eq_some_iff]
  constructor
  · rintro ⟨e, hfind, rfl⟩
    have hkey : e.1 = a := by simpa using List.find?_some hfind
    rw [← hkey]
    exact List.mem_of_find?_eq_some hfind
  · intro hmem
    rcases hfind : t.entries.find? (fun e => e.1 = a) with _ | e
    · have hne := List.find?_eq_none.mp hfind _ hmem
      exact absurd hne (by simp)
    · have hkey : e.1 = a := by simpa using List.find?_some hfind
      exact ⟨e, hfind, by rw [eq_of_mem (List.mem_of_find?_eq_some hfind) hmem hkey]⟩

@[simp] theorem get_empty (a : α) : (∅ : SortedTree α β).get a = none := rfl

/-- The keys of a tree. -/
def keys (t : SortedTree α β) : List α := t.entries.map Prod.fst

theorem mem_keys_iff {t : SortedTree α β} {a : α} : a ∈ t.keys ↔ ∃ b, t.get a = some b := by
  simp only [keys, get_eq_some_iff, List.mem_map, Prod.exists, exists_and_right, exists_eq_right]

/-- The values of a tree, by increasing key. -/
def values (t : SortedTree α β) : List β := t.entries.map Prod.snd

def len (t : SortedTree α β) : ℕ := t.entries.length

/-- The entry with the lowest key. -/
def first (t : SortedTree α β) : Option (α × β) := t.entries.head?

/-! ### Writing -/

/-- The entries with the one at `a` written. -/
def put (a : α) (b : β) : List (α × β) → List (α × β)
  | [] => [(a, b)]
  | e :: l =>
    if a < e.1 then (a, b) :: e :: l
    else if a = e.1 then (a, b) :: l
    else e :: put a b l

theorem mem_of_mem_put {a : α} {b : β} {e : α × β} {l : List (α × β)} (h : e ∈ put a b l) :
    e = (a, b) ∨ e ∈ l := by
  induction l with
  | nil => exact .inl (List.mem_singleton.mp h)
  | cons d l ih =>
    rw [put] at h
    split at h
    · exact List.mem_cons.mp h
    · split at h
      · rcases List.mem_cons.mp h with h | h
        · exact .inl h
        · exact .inr (List.mem_cons_of_mem _ h)
      · rcases List.mem_cons.mp h with rfl | h
        · exact .inr List.mem_cons_self
        · exact (ih h).imp_right (List.mem_cons_of_mem _)

theorem pairwise_put {a : α} {b : β} {l : List (α × β)} (h : l.Pairwise fun e e' => e.1 < e'.1) :
    (put a b l).Pairwise fun e e' => e.1 < e'.1 := by
  induction l with
  | nil => exact List.pairwise_singleton _ _
  | cons d l ih =>
    obtain ⟨hd, hl⟩ := List.pairwise_cons.mp h
    rw [put]
    by_cases hlt : a < d.1
    · rw [if_pos hlt]
      refine List.pairwise_cons.mpr ⟨fun e he => ?_, h⟩
      rcases List.mem_cons.mp he with rfl | he
      · exact hlt
      · exact hlt.trans (hd e he)
    · rw [if_neg hlt]
      by_cases heq : a = d.1
      · rw [if_pos heq]
        exact List.pairwise_cons.mpr ⟨fun e he => heq ▸ hd e he, hl⟩
      · rw [if_neg heq]
        refine List.pairwise_cons.mpr ⟨fun e he => ?_, ih hl⟩
        rcases mem_of_mem_put he with rfl | he
        · exact lt_of_le_of_ne (not_lt.mp hlt) (Ne.symm heq)
        · exact hd e he

theorem find?_put (a a' : α) (b : β) (l : List (α × β)) :
    (put a b l).find? (fun e => e.1 = a') =
      if a' = a then some (a, b) else l.find? fun e => e.1 = a' := by
  induction l with
  | nil =>
    by_cases h : a' = a
    · simp [put, h]
    · simp [put, h, Ne.symm h]
  | cons d l ih =>
    rw [put]
    by_cases h : a' = a
    · subst h
      rw [if_pos rfl] at ih ⊢
      split
      · simp
      · split
        · simp
        · next hne => simp [Ne.symm hne, ih]
    · rw [if_neg h] at ih ⊢
      split
      · simp [List.find?_cons, Ne.symm h]
      · split
        · next heq => simp [← heq, Ne.symm h]
        · simp [List.find?_cons, ih]

theorem length_put_le (a : α) (b : β) (l : List (α × β)) : (put a b l).length ≤ l.length + 1 := by
  induction l with
  | nil => exact le_rfl
  | cons d l ih =>
    rw [put]
    split
    · exact le_rfl
    · split
      · exact Nat.le_succ _
      · exact Nat.succ_le_succ ih

def insert (t : SortedTree α β) (a : α) (b : β) : SortedTree α β := ⟨put a b t.entries, pairwise_put t.sorted⟩

theorem get_insert (t : SortedTree α β) (a a' : α) (b : β) :
    (t.insert a b).get a' = if a' = a then some b else t.get a' := by
  rw [get, insert, find?_put]
  by_cases h : a' = a
  · rw [if_pos h, if_pos h]
    rfl
  · rw [if_neg h, if_neg h]
    rfl

theorem mem_entries_insert {t : SortedTree α β} {a : α} {b : β} {e : α × β} :
    e ∈ (t.insert a b).entries ↔ e = (a, b) ∨ e ∈ t.entries ∧ e.1 ≠ a := by
  obtain ⟨a', b'⟩ := e
  rw [← get_eq_some_iff, ← get_eq_some_iff, get_insert]
  by_cases h : a' = a
  · simp [h, eq_comm]
  · simp [h]

theorem mem_keys_insert {t : SortedTree α β} {a a' : α} {b : β} :
    a' ∈ (t.insert a b).keys ↔ a' = a ∨ a' ∈ t.keys := by
  rw [mem_keys_iff, mem_keys_iff, get_insert]
  by_cases h : a' = a
  · simp [h]
  · simp [h]

/-- Below a key that is written, nothing changes. -/
theorem put_append {a : α} (b : β) {l : List (α × β)} (h : ∀ e ∈ l, e.1 < a) (l' : List (α × β)) :
    put a b (l ++ l') = l ++ put a b l' := by
  induction l with
  | nil => rfl
  | cons d l ih =>
    obtain ⟨hd, hl⟩ := List.forall_mem_cons.mp h
    rw [List.cons_append, put, if_neg (not_lt.mpr hd.le), if_neg (ne_of_gt hd), ih hl,
      List.cons_append]

theorem put_of_lt {a : α} (b : β) {l : List (α × β)} (h : ∀ e ∈ l, e.1 < a) :
    put a b l = l ++ [(a, b)] := by
  have hput := put_append b h []
  rwa [List.append_nil] at hput

/-- A key above all others is written at the end. -/
theorem entries_insert_of_lt {t : SortedTree α β} {a : α} (b : β) (h : ∀ e ∈ t.entries, e.1 < a) :
    (t.insert a b).entries = t.entries ++ [(a, b)] := put_of_lt b h

/-! ### Removing -/

def remove (t : SortedTree α β) (a : α) : SortedTree α β :=
  ⟨t.entries.filter fun e => e.1 ≠ a, t.sorted.filter _⟩

theorem mem_entries_remove {t : SortedTree α β} {a : α} {e : α × β} :
    e ∈ (t.remove a).entries ↔ e ∈ t.entries ∧ e.1 ≠ a := by
  rw [remove, List.mem_filter, decide_eq_true_iff]

theorem get_remove (t : SortedTree α β) (a a' : α) :
    (t.remove a).get a' = if a' = a then none else t.get a' := by
  apply Option.ext
  intro b
  rw [get_eq_some_iff, mem_entries_remove, ← get_eq_some_iff]
  by_cases h : a' = a
  · simp [h]
  · simp [h]

theorem mem_keys_remove {t : SortedTree α β} {a a' : α} :
    a' ∈ (t.remove a).keys ↔ a' ∈ t.keys ∧ a' ≠ a := by
  rw [mem_keys_iff, mem_keys_iff, get_remove]
  by_cases h : a' = a
  · simp [h]
  · simp [h]

theorem nodup_keys (t : SortedTree α β) : t.keys.Nodup :=
  List.pairwise_map.mpr (t.sorted.imp fun h => ne_of_lt h)

theorem remove_of_get_none {t : SortedTree α β} {a : α} (h : t.get a = none) : t.remove a = t := by
  refine eq_of_entries (List.filter_eq_self.mpr fun e he => decide_eq_true ?_)
  rintro rfl
  have hget : t.get e.1 = some e.2 := get_eq_some_iff.mpr he
  rw [h] at hget
  exact absurd hget (by simp)

/-- Some keys are removed, one after the other. -/
def removeAll (t : SortedTree α β) (l : List α) : SortedTree α β := l.foldl remove t

theorem entries_removeAll (t : SortedTree α β) (l : List α) :
    (t.removeAll l).entries = t.entries.filter fun e => e.1 ∉ l := by
  induction l generalizing t with
  | nil => simp [removeAll]
  | cons a l ih =>
    have hstep : t.removeAll (a :: l) = (t.remove a).removeAll l := rfl
    rw [hstep, ih, remove, List.filter_filter]
    refine List.filter_congr fun e _ => ?_
    rw [Bool.eq_iff_iff]
    simp [and_comm]

/-- Without the keys of its first entries, a tree has the others. -/
theorem entries_removeAll_append {t : SortedTree α β} {l l' : List (α × β)} (h : t.entries = l ++ l') :
    (t.removeAll (l.map Prod.fst)).entries = l' := by
  have hlt : ∀ e ∈ l, ∀ e' ∈ l', e.1 < e'.1 := (List.pairwise_append.mp (h ▸ t.sorted)).2.2
  have hleft : l.filter (fun e => e.1 ∉ l.map Prod.fst) = [] := by
    refine List.filter_eq_nil_iff.mpr fun e he => ?_
    have hmem : e.1 ∈ l.map Prod.fst := List.mem_map_of_mem he
    simp only [hmem, not_true_eq_false, decide_false, Bool.false_eq_true, not_false_eq_true]
  have hright : l'.filter (fun e => e.1 ∉ l.map Prod.fst) = l' := by
    refine List.filter_eq_self.mpr fun e he => decide_eq_true fun hmem => ?_
    obtain ⟨e', he', hkey⟩ := List.mem_map.mp hmem
    exact absurd (hlt e' he' e he) (by rw [hkey]; exact lt_irrefl _)
  rw [entries_removeAll, h, List.filter_append, hleft, hright, List.nil_append]

end SortedTree

/-- Named trees. -/
abbrev Database (ν α β : Type) [LinearOrder α] := Store.Map ν (SortedTree α β)

namespace Database

variable {ν α β : Type} [LinearOrder α] [DecidableEq ν]

/-- A tree of a database; opened for the first time, it is empty. -/
def tree (db : Database ν α β) (n : ν) : SortedTree α β := (db.lookup n).getD ∅

/-- One tree is changed. -/
def modify (db : Database ν α β) (n : ν) (f : SortedTree α β → SortedTree α β) : Database ν α β :=
  AList.insert n (f (tree db n)) db

@[simp] theorem tree_empty (n : ν) : tree (∅ : Database ν α β) n = ∅ := rfl

theorem tree_modify (db : Database ν α β) (n m : ν) (f : SortedTree α β → SortedTree α β) :
    tree (modify db n f) m = if m = n then f (tree db n) else tree db m := by
  rw [tree, modify, Store.lookup_insert_eq]
  split
  · rfl
  · rfl

@[simp] theorem tree_modify_self (db : Database ν α β) (n : ν) (f : SortedTree α β → SortedTree α β) :
    tree (modify db n f) n = f (tree db n) := by
  rw [tree_modify, if_pos rfl]

theorem tree_modify_of_ne (db : Database ν α β) {n m : ν} (f : SortedTree α β → SortedTree α β) (h : m ≠ n) :
    tree (modify db n f) m = tree db m := by
  rw [tree_modify, if_neg h]

end Database
