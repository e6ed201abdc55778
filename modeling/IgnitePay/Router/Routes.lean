/-
The two maps of a keylist store: the keys of a session, and the session of a key.

They fit (`Consistent`) if a key is listed for the session that it resolves to and for
no other.  Adding a key takes it over without taking it off the list it was on, and
removing a key makes it unreachable whoever asks; so a store that fits goes on to do
so exactly if the key is on no other session's list (`consistent_add_iff`,
`consistent_remove_iff`).  On sled a key with a second colon is listed for two
sessions at once, so there the strings that are added must have no colon either.

* `consistent_iff` — the runs in which the maps always fit, for both stores.
-/
import IgnitePay.Lib.Run
import IgnitePay.Router.Keylists

namespace Router

open Machine

/-- `add_key` or `remove_key`. -/
inductive KeyChange
  | add (session_did recipient_did : String)
  | remove (session_did recipient_did : String)
  deriving DecidableEq

namespace KeyChange

def session_did : KeyChange → String
  | add s _ => s
  | remove s _ => s

def recipient_did : KeyChange → String
  | add _ r => r
  | remove _ r => r

/-- What is added has no colon. -/
def Plain : KeyChange → Prop
  | add s r => NoColon s ∧ NoColon r
  | remove _ _ => True

end KeyChange

/-- Recipient `r` is listed for session `s` if and only if it resolves to `s`. -/
def Consistent (listed : String → String → Prop) (resolve : String → Option String) : Prop :=
  ∀ s r, listed s r ↔ resolve r = some s

/-- No session but the one that makes a change lists the key. -/
def Unshared (listed : String → String → Prop) (c : KeyChange) : Prop :=
  ∀ s, s ≠ c.session_did → ¬ listed s c.recipient_did

section

variable {listed : String → String → Prop} {resolve : String → Option String} {s r : String}

theorem consistent_add_iff (h : Consistent listed resolve) :
    Consistent (fun s' r' => (s' = s ∧ r' = r) ∨ listed s' r')
      (fun r' => if r' = r then some s else resolve r') ↔ Unshared listed (.add s r) := by
  constructor
  · intro hnew s' hne hlisted
    have hr : (if r = r then some s else resolve r) = some s' := (hnew s' r).mp (.inr hlisted)
    rw [if_pos rfl, Option.some_inj] at hr
    exact hne hr.symm
  · intro hother s' r'
    show (s' = s ∧ r' = r) ∨ listed s' r' ↔ (if r' = r then some s else resolve r') = some s'
    by_cases hr : r' = r
    · subst hr
      rw [if_pos rfl, Option.some_inj]
      constructor
      · rintro (⟨rfl, -⟩ | hlisted)
        · rfl
        · by_contra hne
          exact hother s' (Ne.symm hne) hlisted
      · rintro rfl
        exact .inl ⟨rfl, rfl⟩
    · rw [if_neg hr, ← h s' r']
      simp [hr]

theorem consistent_remove_iff (h : Consistent listed resolve) :
    Consistent (fun s' r' => listed s' r' ∧ ¬ (s' = s ∧ r' = r))
      (fun r' => if r' = r then none else resolve r') ↔ Unshared listed (.remove s r) := by
  constructor
  · intro hnew s' hne hlisted
    have hr : (if r = r then none else resolve r) = some s' :=
      (hnew s' r).mp ⟨hlisted, fun heq => hne heq.1⟩
    rw [if_pos rfl] at hr
    exact absurd hr (by simp)
  · intro hother s' r'
    show listed s' r' ∧ ¬ (s' = s ∧ r' = r) ↔ (if r' = r then none else resolve r') = some s'
    by_cases hr : r' = r
    · subst hr
      rw [if_pos rfl]
      constructor
      · rintro ⟨hlisted, hne⟩
        exact absurd hlisted (hother s' fun heq => hne ⟨heq, rfl⟩)
      · intro hnone
        exact absurd hnone (by simp)
    · rw [if_neg hr, ← h s' r']
      simp [hr]

/-- The same maps, told otherwise. -/
theorem Consistent.congr_iff {listed' : String → String → Prop}
    {resolve' : String → Option String} (hlisted : ∀ s r, listed s r ↔ listed' s r)
    (hresolve : ∀ r, resolve r = resolve' r) :
    Consistent listed resolve ↔ Consistent listed' resolve' := by
  have h₁ : listed = listed' := funext fun s => funext fun r => propext (hlisted s r)
  have h₂ : resolve = resolve' := funext hresolve
  rw [h₁, h₂]

end

/-! ### In memory -/

def InMemoryKeylistStore.change : KeyChange → InMemoryKeylistStore → InMemoryKeylistStore
  | .add s r, k => k.addKey s r
  | .remove s r, k => k.removeKey s r

namespace InMemoryKeylistStore

def Listed (k : InMemoryKeylistStore) (s r : String) : Prop := r ∈ k.listKeys s

theorem consistent_change_iff {k : InMemoryKeylistStore} (c : KeyChange)
    (h : Consistent k.Listed k.resolveSession) :
    Consistent (change c k).Listed (change c k).resolveSession ↔ Unshared k.Listed c := by
  cases c with
  | add s r =>
    rw [← consistent_add_iff h]
    refine Consistent.congr_iff (fun s' r' => ?_) (resolveSession_addKey k s r)
    show r' ∈ (k.addKey s r).listKeys s' ↔ (s' = s ∧ r' = r) ∨ r' ∈ k.listKeys s'
    rw [listKeys_addKey]
    by_cases hs : s' = s
    · simp [hs]
    · simp [hs]
  | remove s r =>
    rw [← consistent_remove_iff h]
    refine Consistent.congr_iff (fun s' r' => ?_) (resolveSession_removeKey k s r)
    show r' ∈ (k.removeKey s r).listKeys s' ↔ r' ∈ k.listKeys s' ∧ ¬ (s' = s ∧ r' = r)
    rw [listKeys_removeKey]
    by_cases hs : s' = s
    · simp [hs, and_comm]
    · simp [hs]

end InMemoryKeylistStore

/-! ### On sled -/

def SledKeylistStore.change : KeyChange → SledKeylistStore → SledKeylistStore
  | .add s r, k => k.addKey s r
  | .remove s r, k => k.removeKey s r

namespace SledKeylistStore

def Listed (k : SledKeylistStore) (s r : String) : Prop := r ∈ k.listKeys s

/-- Every key of the tree was composed. -/
def Composed (k : SledKeylistStore) : Prop :=
  ∀ x ∈ k.keylist.keys, ∃ a b, x = compositeKey a b

variable {k : SledKeylistStore}

theorem composed_change (c : KeyChange) (h : k.Composed) : (change c k).Composed := by
  intro x hx
  cases c with
  | add s r =>
    rcases SortedTree.mem_keys_insert.mp hx with rfl | hx
    · exact ⟨s, r, rfl⟩
    · exact h x hx
  | remove s r => exact h x (SortedTree.mem_keys_remove.mp hx).1

theorem listed_iff {s r : String} : k.Listed s r ↔
    ∃ x ∈ k.keylist.keys, (s ++ ":").toList <+: x.toList ∧ secondField x = some r := by
  rw [Listed, listKeys, List.mem_toFinset, mem_secondFields]

/-- Where the maps fit, no key has a second colon: it would be listed for two sessions. -/
theorem exists_plain (h : Consistent k.Listed k.resolveSession) (hk : k.Composed) {x : String}
    (hx : x ∈ k.keylist.keys) : ∃ a b, (NoColon a ∧ NoColon b) ∧ x = compositeKey a b := by
  have hfirst : ∃ a b, NoColon a ∧ x = compositeKey a b := by
    obtain ⟨a, b, rfl⟩ := hk x hx
    by_cases ha : NoColon a
    · exact ⟨a, b, ha, rfl⟩
    · obtain ⟨a, a', hplain, rfl⟩ := exists_fields ha
      exact ⟨a, compositeKey a' b, hplain, compositeKey_assoc a a' b⟩
  obtain ⟨a, b, ha, rfl⟩ := hfirst
  by_cases hb : NoColon b
  · exact ⟨a, b, ⟨ha, hb⟩, rfl⟩
  · obtain ⟨b, c, hplain, rfl⟩ := exists_fields hb
    have hfield := secondField_of_three ha hplain c
    have hone : k.Listed a b := listed_iff.mpr ⟨_, hx, prefix_compositeKey _ _, hfield⟩
    have hscan : (compositeKey a b ++ ":").toList <+:
        (compositeKey a (compositeKey b c)).toList := by
      rw [← compositeKey_assoc]
      exact prefix_compositeKey _ _
    have htwo : k.Listed (compositeKey a b) b := listed_iff.mpr ⟨_, hx, hscan, hfield⟩
    have heq : a = compositeKey a b :=
      Option.some_inj.mp (((h _ _).mp hone).symm.trans ((h _ _).mp htwo))
    have hlength := congrArg (fun s => s.toList.length) heq
    rw [toList_compositeKey, List.length_append, List.length_cons] at hlength
    omega

/-- So the tree holds what is listed. -/
theorem keyedBy_listed (h : Consistent k.Listed k.resolveSession) (hk : k.Composed) :
    KeyedBy k.keylist k.Listed := by
  have hread : ∀ s r, k.Listed s r →
      (NoColon s ∧ NoColon r) ∧ compositeKey s r ∈ k.keylist.keys := by
    intro s r hlisted
    obtain ⟨x, hx, hscan, hfield⟩ := listed_iff.mp hlisted
    obtain ⟨a, b, ⟨ha, hb⟩, rfl⟩ := exists_plain h hk hx
    obtain rfl := (prefix_compositeKey_iff ha hb).mp hscan
    rw [secondField_compositeKey ha hb, Option.some_inj] at hfield
    exact hfield ▸ ⟨⟨ha, hb⟩, hx⟩
  refine ⟨fun s r hlisted => (hread s r hlisted).1, fun x => ⟨fun hx => ?_, ?_⟩⟩
  · obtain ⟨a, b, ⟨ha, hb⟩, rfl⟩ := exists_plain h hk hx
    refine ⟨a, b, listed_iff.mpr ⟨_, hx, prefix_compositeKey a b, ?_⟩, rfl⟩
    exact secondField_compositeKey ha hb
  · rintro ⟨s, r, hlisted, rfl⟩
    exact (hread s r hlisted).2

theorem listed_of_keyedBy {rel : String → String → Prop} (h : KeyedBy k.keylist rel)
    (s r : String) : k.Listed s r ↔ rel s r := by
  rw [Listed, listKeys, List.mem_toFinset]
  exact mem_secondFields_iff h

theorem consistent_change_iff (c : KeyChange) (h : Consistent k.Listed k.resolveSession)
    (hk : k.Composed) :
    Consistent (change c k).Listed (change c k).resolveSession ↔ Unshared k.Listed c ∧ c.Plain := by
  have hkeyed := keyedBy_listed h hk
  cases c with
  | add s r =>
    have hplain : NoColon s ∧ NoColon r →
        (Consistent (k.addKey s r).Listed (k.addKey s r).resolveSession ↔
          Unshared k.Listed (.add s r)) := by
      rintro ⟨hs, hr⟩
      rw [← consistent_add_iff h]
      exact Consistent.congr_iff (listed_of_keyedBy (hkeyed.insert hs hr "1"))
        fun r' => SortedTree.get_insert _ _ _ _
    constructor
    · intro hnew
      -- The new key has one colon, so its two fields have none.
      have hmem : compositeKey s r ∈ (k.addKey s r).keylist.keys :=
        SortedTree.mem_keys_insert.mpr (.inl rfl)
      obtain ⟨a, b, ⟨ha, hb⟩, hkey⟩ := exists_plain hnew (composed_change (.add s r) hk) hmem
      obtain ⟨rfl, rfl⟩ := compositeKey_inj ha hb hkey.symm
      exact ⟨(hplain ⟨ha, hb⟩).mp hnew, ha, hb⟩
    · rintro ⟨hother, hfields⟩
      exact (hplain hfields).mpr hother
  | remove s r =>
    show _ ↔ _ ∧ True
    rw [and_true, ← consistent_remove_iff h]
    exact Consistent.congr_iff (listed_of_keyedBy (hkeyed.remove s r))
      fun r' => SortedTree.get_remove _ _ _

end SledKeylistStore

/-! ### Runs -/

theorem InMemoryKeylistStore.consistent_empty :
    Consistent (∅ : InMemoryKeylistStore).Listed (∅ : InMemoryKeylistStore).resolveSession := by
  intro s r
  show r ∈ (∅ : Finset String) ↔ none = some s
  simp

theorem SledKeylistStore.consistent_empty :
    Consistent (∅ : SledKeylistStore).Listed (∅ : SledKeylistStore).resolveSession := by
  intro s r
  show r ∈ (∅ : Finset String) ↔ none = some s
  simp

/-- A change always goes through. -/
def always {σ : Type} (change : KeyChange → σ → σ) (c : KeyChange) (k : σ) : Except Empty σ :=
  .ok (change c k)

theorem consistent_iff (h : List (InMemoryKeylistStore × KeyChange)) (k : InMemoryKeylistStore)
    (h' : List (SledKeylistStore × KeyChange)) (k' : SledKeylistStore) :
    (Run (always InMemoryKeylistStore.change) ∅ h k →
      ((∀ m ∈ Run.states h k, Consistent m.Listed m.resolveSession) ↔
        ∀ c ∈ h, Unshared c.1.Listed c.2)) ∧
    (Run (always SledKeylistStore.change) ∅ h' k' →
      ((∀ m ∈ Run.states h' k', Consistent m.Listed m.resolveSession) ↔
        ∀ c ∈ h', Unshared c.1.Listed c.2 ∧ c.2.Plain)) := by
  constructor
  · intro hrun
    refine @Run.forall_states_iff _ _ _ _ _ _ _
      (fun k => Consistent k.Listed k.resolveSession) (fun k c => Unshared k.Listed c)
      (fun _ _ => True) InMemoryKeylistStore.consistent_empty ?_ hrun fun _ _ => trivial
    intro h k c k' _ hk _ hstep
    obtain rfl := Except.ok.inj hstep
    exact InMemoryKeylistStore.consistent_change_iff c hk
  · intro hrun
    refine @Run.forall_states_iff _ _ _ _ _ _ _
      (fun k => Consistent k.Listed k.resolveSession) (fun k c => Unshared k.Listed c ∧ c.Plain)
      (fun _ _ => True) SledKeylistStore.consistent_empty ?_ hrun fun _ _ => trivial
    intro h k c k' hrun hk _ hstep
    have hcomposed : k.Composed := hrun.invariant (P := SledKeylistStore.Composed)
      (fun x hx => absurd hx List.not_mem_nil) fun k c k' hk hstep =>
        Except.ok.inj hstep ▸ SledKeylistStore.composed_change c hk
    obtain rfl := Except.ok.inj hstep
    exact SledKeylistStore.consistent_change_iff c hk hcomposed

/-- Two sessions, in both stores: the second removes a key of the first, and the key no longer
resolves to the session that lists it. -/
theorem removed_by_other :
    (¬ ∀ h k, Run (always InMemoryKeylistStore.change) ∅ h k →
      Consistent k.Listed k.resolveSession) ∧
    ¬ ∀ h k, Run (always SledKeylistStore.change) ∅ h k →
      Consistent k.Listed k.resolveSession := by
  constructor
  · intro hall
    have hrun := Run.step (Run.step (@Run.start _ _ _ (always InMemoryKeylistStore.change) ∅)
      (i := .add "s" "k") rfl) (i := .remove "t" "k") rfl
    have hfit := (hall _ _ hrun "s" "k").mp (by show _ ∈ _; decide)
    exact absurd hfit (by decide)
  · intro hall
    have hrun := Run.step (Run.step (@Run.start _ _ _ (always SledKeylistStore.change) ∅)
      (i := .add "s" "k") rfl) (i := .remove "t" "k") rfl
    have hfit := (hall _ _ hrun "s" "k").mp (by show _ ∈ _; decide)
    exact absurd hfit (by decide)

end Router
