/-
The two keylist stores, and the two agent-binding stores, side by side.

As long as no string with a colon is written, a sled tree holds exactly the pairs that
the sets in memory hold, so every operation answers alike and `list_keys` returns what
was added and not removed.  A string with a colon is not read back: added under itself,
it is not listed.  So the stores agree on all operations that write some given strings
if and only if none of these has a colon (`keylistStores_agree_iff`).
-/
import IgnitePay.Lib.Answers
import IgnitePay.Router.Keylists

namespace Router

open Machine

/-- An operation of `KeylistStore` or of `AgentBindingStore`. -/
inductive KeylistOp
  | addKey (session_did recipient_did : String)
  | removeKey (session_did recipient_did : String)
  | listKeys (session_did : String)
  | resolveSession (recipient_did : String)
  | bind (agent_did user_did : String)
  | getUserForAgent (agent_did : String)
  | getAgentsForUser (user_did : String)
  deriving DecidableEq

/-- The strings an operation writes. -/
def KeylistOp.written : KeylistOp → List String
  | .addKey s r => [s, r]
  | .bind a u => [a, u]
  | _ => []

inductive KeylistReply
  | done
  | keys (recipients : Finset String)
  | did (found : Option String)
  | agents (dids : List String)

/-- The same reply; agents may be listed in any order. -/
def KeylistReply.Same : KeylistReply → KeylistReply → Prop
  | .agents l, .agents l' => l.Perm l'
  | reply, reply' => reply = reply'

/-- The keylist store and the agent-binding store of a router. -/
structure KeylistStores (K B : Type) where
  keylist_store : K
  agent_binding_store : B

instance {K B : Type} [EmptyCollection K] [EmptyCollection B] :
    EmptyCollection (KeylistStores K B) := ⟨⟨∅, ∅⟩⟩

abbrev InMemory := KeylistStores InMemoryKeylistStore InMemoryAgentBindingStore

abbrev Sled := KeylistStores SledKeylistStore SledAgentBindingStore

/-- An order in which hash sets are visited. -/
structure SetOrder where
  visit : Finset String → List String
  nodup : ∀ s, (visit s).Nodup
  mem_visit : ∀ s a, a ∈ visit s ↔ a ∈ s

/-- One such order. -/
def SetOrder.sorted : SetOrder where
  visit s := s.sort (· ≤ ·)
  nodup s := s.sort_nodup _
  mem_visit s _ := s.mem_sort _

def inMemoryStep (order : SetOrder) : KeylistOp → InMemory → KeylistReply × InMemory
  | .addKey s r, m => (.done, { m with keylist_store := m.keylist_store.addKey s r })
  | .removeKey s r, m => (.done, { m with keylist_store := m.keylist_store.removeKey s r })
  | .listKeys s, m => (.keys (m.keylist_store.listKeys s), m)
  | .resolveSession r, m => (.did (m.keylist_store.resolveSession r), m)
  | .bind a u, m => (.done, { m with agent_binding_store := m.agent_binding_store.bind a u })
  | .getUserForAgent a, m => (.did (m.agent_binding_store.getUserForAgent a), m)
  | .getAgentsForUser u, m =>
    (.agents (m.agent_binding_store.getAgentsForUser order.visit u), m)

def sledStep : KeylistOp → Sled → KeylistReply × Sled
  | .addKey s r, d => (.done, { d with keylist_store := d.keylist_store.addKey s r })
  | .removeKey s r, d => (.done, { d with keylist_store := d.keylist_store.removeKey s r })
  | .listKeys s, d => (.keys (d.keylist_store.listKeys s), d)
  | .resolveSession r, d => (.did (d.keylist_store.resolveSession r), d)
  | .bind a u, d => (.done, { d with agent_binding_store := d.agent_binding_store.bind a u })
  | .getUserForAgent a, d => (.did (d.agent_binding_store.getUserForAgent a), d)
  | .getAgentsForUser u, d => (.agents (d.agent_binding_store.getAgentsForUser u), d)

/-! ### What is listed -/

/-- Recipient `r` was added for session `s` and has not been removed since. -/
def Held (ops : List KeylistOp) (s r : String) : Prop :=
  ∃ before since, ops = before ++ .addKey s r :: since ∧ .removeKey s r ∉ since

theorem not_held_nil (s r : String) : ¬ Held [] s r := by
  rintro ⟨before, since, h, -⟩
  exact absurd (congrArg List.length h) (by simp)

theorem held_append {ops : List KeylistOp} {op : KeylistOp} {s r : String} :
    Held (ops ++ [op]) s r ↔
      op = .addKey s r ∨ Held ops s r ∧ op ≠ .removeKey s r := by
  constructor
  · rintro ⟨before, since, heq, hsince⟩
    rcases List.eq_nil_or_concat since with rfl | ⟨since, last, rfl⟩
    · obtain ⟨-, hop⟩ := List.append_inj' heq rfl
      exact .inl (List.singleton_inj.mp hop)
    · rw [List.concat_eq_append] at heq hsince
      rw [← List.cons_append, ← List.append_assoc] at heq
      obtain ⟨hops, hop⟩ := List.append_inj' heq rfl
      obtain rfl := List.singleton_inj.mp hop
      rw [List.mem_append, not_or, List.mem_singleton] at hsince
      exact .inr ⟨⟨before, since, hops, hsince.1⟩, fun h => hsince.2 h.symm⟩
  · rintro (rfl | ⟨⟨before, since, rfl, hsince⟩, hop⟩)
    · exact ⟨ops, [], rfl, List.not_mem_nil⟩
    · refine ⟨before, since ++ [op], by rw [List.append_assoc, List.cons_append], ?_⟩
      rw [List.mem_append, not_or, List.mem_singleton]
      exact ⟨hsince, fun h => hop h.symm⟩

/-- In memory, `list_keys` returns what was added and not removed. -/
theorem mem_inMemory_listKeys_iff (order : SetOrder) (ops : List KeylistOp) (s r : String) :
    r ∈ (after (inMemoryStep order) ops ∅).keylist_store.listKeys s ↔ Held ops s r := by
  induction ops using List.reverseRecOn with
  | nil =>
    show r ∈ (∅ : Finset String) ↔ _
    simp [not_held_nil]
  | append_singleton ops op ih =>
    rw [after_append, held_append, ← ih]
    cases op with
    | addKey s' r' =>
      show r ∈ InMemoryKeylistStore.listKeys (.addKey _ s' r') s ↔ _
      rw [InMemoryKeylistStore.listKeys_addKey]
      by_cases h : s = s'
      · subst h
        simp [eq_comm]
      · simp [h, Ne.symm h]
    | removeKey s' r' =>
      show r ∈ InMemoryKeylistStore.listKeys (.removeKey _ s' r') s ↔ _
      rw [InMemoryKeylistStore.listKeys_removeKey]
      by_cases h : s = s'
      · subst h
        simp [and_comm, eq_comm]
      · simp [h, Ne.symm h]
    | listKeys | resolveSession | bind | getUserForAgent | getAgentsForUser =>
      simp [inMemoryStep]

/-! ### The simulation -/

/-- The trees hold what the sets in memory hold. -/
structure Agree (m : InMemory) (d : Sled) : Prop where
  listed : KeyedBy d.keylist_store.keylist fun s r => r ∈ m.keylist_store.listKeys s
  resolved : ∀ r, d.keylist_store.resolveSession r = m.keylist_store.resolveSession r
  bound : ∀ a, d.agent_binding_store.getUserForAgent a = m.agent_binding_store.getUserForAgent a
  agents : KeyedBy d.agent_binding_store.user_to_agents fun u a =>
    a ∈ m.agent_binding_store.agentsOf u

theorem agree_empty : Agree ∅ ∅ where
  listed := keyedBy_empty.congr fun _ _ => by
    show False ↔ _ ∈ (∅ : Finset String)
    simp
  resolved _ := rfl
  bound _ := rfl
  agents := keyedBy_empty.congr fun _ _ => by
    show False ↔ _ ∈ (∅ : Finset String)
    simp

namespace Agree

variable {m : InMemory} {d : Sled}

theorem addKey (h : Agree m d) {s r : String} (hs : NoColon s) (hr : NoColon r) :
    Agree { m with keylist_store := m.keylist_store.addKey s r }
      { d with keylist_store := d.keylist_store.addKey s r } where
  listed := (h.listed.insert hs hr "1").congr fun x y => by
    rw [InMemoryKeylistStore.listKeys_addKey]
    by_cases hx : x = s
    · simp [hx]
    · simp [hx]
  resolved r' := by
    rw [InMemoryKeylistStore.resolveSession_addKey, ← h.resolved]
    exact SortedTree.get_insert _ _ _ _
  bound := h.bound
  agents := h.agents

theorem removeKey (h : Agree m d) (s r : String) :
    Agree { m with keylist_store := m.keylist_store.removeKey s r }
      { d with keylist_store := d.keylist_store.removeKey s r } where
  listed := (h.listed.remove s r).congr fun x y => by
    rw [InMemoryKeylistStore.listKeys_removeKey]
    by_cases hx : x = s
    · simp [hx, and_comm]
    · simp [hx]
  resolved r' := by
    rw [InMemoryKeylistStore.resolveSession_removeKey, ← h.resolved]
    exact SortedTree.get_remove _ _ _
  bound := h.bound
  agents := h.agents

theorem bind (h : Agree m d) {a u : String} (ha : NoColon a) (hu : NoColon u) :
    Agree { m with agent_binding_store := m.agent_binding_store.bind a u }
      { d with agent_binding_store := d.agent_binding_store.bind a u } where
  listed := h.listed
  resolved := h.resolved
  bound a' := by
    show (d.agent_binding_store.agent_to_user.insert a u).get a' =
      (m.agent_binding_store.agent_to_user.insert a u).lookup a'
    rw [SortedTree.get_insert, Store.lookup_insert_eq]
    exact congrArg _ (h.bound a')
  agents := (h.agents.insert hu ha "1").congr fun x y => by
    rw [InMemoryAgentBindingStore.agentsOf_bind]
    by_cases hx : x = u
    · simp [hx]
    · simp [hx]

theorem listKeys (h : Agree m d) (s : String) :
    d.keylist_store.listKeys s = m.keylist_store.listKeys s := by
  ext r
  rw [SledKeylistStore.listKeys, List.mem_toFinset]
  exact mem_secondFields_iff h.listed

theorem getAgentsForUser (h : Agree m d) (order : SetOrder) (u : String) :
    (m.agent_binding_store.getAgentsForUser order.visit u).Perm
      (d.agent_binding_store.getAgentsForUser u) := by
  refine (List.perm_ext_iff_of_nodup (order.nodup _) (nodup_secondFields h.agents u)).mpr ?_
  intro a
  rw [mem_secondFields_iff h.agents]
  exact order.mem_visit _ a

/-- One operation that writes no colon. -/
theorem step (h : Agree m d) (order : SetOrder) {op : KeylistOp}
    (hdids : ∀ x ∈ op.written, NoColon x) :
    (inMemoryStep order op m).1.Same (sledStep op d).1 ∧
      Agree (inMemoryStep order op m).2 (sledStep op d).2 := by
  cases op with
  | addKey s r =>
    have hr : NoColon r := hdids r (List.mem_cons_of_mem _ List.mem_cons_self)
    exact ⟨rfl, h.addKey (hdids s List.mem_cons_self) hr⟩
  | removeKey s r => exact ⟨rfl, h.removeKey s r⟩
  | listKeys s => exact ⟨congrArg KeylistReply.keys (h.listKeys s).symm, h⟩
  | resolveSession r => exact ⟨congrArg KeylistReply.did (h.resolved r).symm, h⟩
  | bind a u =>
    have hu : NoColon u := hdids u (List.mem_cons_of_mem _ List.mem_cons_self)
    exact ⟨rfl, h.bind (hdids a List.mem_cons_self) hu⟩
  | getUserForAgent a => exact ⟨congrArg KeylistReply.did (h.bound a).symm, h⟩
  | getAgentsForUser u => exact ⟨h.getAgentsForUser order u, h⟩

end Agree

/-- A string that is added under itself and then listed alike has no colon. -/
theorem noColon_of_agree (order : SetOrder) {d : String}
    (h : List.Forall₂ KeylistReply.Same
      (answers (inMemoryStep order) [.addKey d d, .listKeys d] ∅)
      (answers sledStep [.addKey d d, .listKeys d] ∅)) : NoColon d := by
  obtain ⟨-, h⟩ := List.forall₂_cons.mp h
  obtain ⟨hkeys, -⟩ := List.forall₂_cons.mp h
  have hlists : ((∅ : InMemoryKeylistStore).addKey d d).listKeys d =
      ((∅ : SledKeylistStore).addKey d d).listKeys d := KeylistReply.keys.inj hkeys
  have hmem : d ∈ ((∅ : SledKeylistStore).addKey d d).listKeys d := by
    rw [← hlists, InMemoryKeylistStore.listKeys_addKey, if_pos rfl]
    exact Finset.mem_insert_self _ _
  obtain ⟨k, -, hfield⟩ := List.mem_filterMap.mp (List.mem_toFinset.mp hmem)
  exact noColon_of_secondField hfield

theorem keylistStores_agree_iff (order : SetOrder) (D : Set String) :
    (∀ ops : List KeylistOp, (∀ op ∈ ops, ∀ d ∈ op.written, d ∈ D) →
      List.Forall₂ KeylistReply.Same (answers (inMemoryStep order) ops ∅) (answers sledStep ops ∅) ∧
      ∀ s r,
        (r ∈ (after (inMemoryStep order) ops ∅).keylist_store.listKeys s ↔ Held ops s r) ∧
        (r ∈ (after sledStep ops ∅).keylist_store.listKeys s ↔ Held ops s r)) ↔
      ∀ d ∈ D, NoColon d := by
  constructor
  · intro hall d hd
    refine noColon_of_agree order (hall _ fun op hop => ?_).1
    rcases List.mem_pair.mp hop with rfl | rfl
    · simpa [KeylistOp.written] using hd
    · simp [KeylistOp.written]
  · intro hD ops hops
    have hcalls : AllCalls (inMemoryStep order) (fun _ op => ∀ d ∈ op.written, NoColon d) ops ∅ :=
      allCalls_of_forall (fun op hop _ d hd => hD d (hops op hop d hd)) ∅
    obtain ⟨hanswers, hend⟩ := forall₂_answers (R := Agree) hcalls agree_empty
      fun _ _ _ h hdids => h.step order hdids
    refine ⟨hanswers, fun s r => ⟨mem_inMemory_listKeys_iff order ops s r, ?_⟩⟩
    rw [hend.listKeys s]
    exact mem_inMemory_listKeys_iff order ops s r

/-- A key is added for a session and listed: sled returns the second part of the
session's own name. -/
theorem keylistStores_disagree : ¬ ∀ (order : SetOrder) (ops : List KeylistOp),
    List.Forall₂ KeylistReply.Same (answers (inMemoryStep order) ops ∅)
      (answers sledStep ops ∅) := by
  intro h
  have hops := h .sorted [.addKey "did:key:a" "did:key:b", .listKeys "did:key:a"]
  obtain ⟨-, hops⟩ := List.forall₂_cons.mp hops
  obtain ⟨hkeys, -⟩ := List.forall₂_cons.mp hops
  have hlists : ((∅ : InMemoryKeylistStore).addKey "did:key:a" "did:key:b").listKeys "did:key:a" =
      ((∅ : SledKeylistStore).addKey "did:key:a" "did:key:b").listKeys "did:key:a" :=
    KeylistReply.keys.inj hkeys
  exact absurd hlists (by decide)

end Router
