/-
The keylist and agent-binding stores of the DIDComm router, in memory and on sled.

The in-memory stores keep sets of strings under a string.  The sled stores keep one
tree instead, whose keys join the two strings with a colon; a listing scans the keys
that start with the first string and a colon, and reads the second field of each.
Without colons in the strings this reads back what was written
(`mem_secondFields_iff`).
-/
import IgnitePay.Lib.SortedTree

namespace Router

/-! ### In memory -/

/-- `InMemoryKeylistStore`. -/
structure InMemoryKeylistStore where
  /-- session_did -> set of routed recipient_dids -/
  keylists : Store.Map String (Finset String)
  /-- recipient_did -> session_did -/
  reverse : Store.Map String String

namespace InMemoryKeylistStore

instance : EmptyCollection InMemoryKeylistStore := ⟨⟨∅, ∅⟩⟩

def listKeys (k : InMemoryKeylistStore) (session_did : String) : Finset String :=
  (k.keylists.lookup session_did).getD ∅

def addKey (k : InMemoryKeylistStore) (session_did recipient_did : String) :
    InMemoryKeylistStore where
  keylists := k.keylists.insert session_did (insert recipient_did (k.listKeys session_did))
  reverse := k.reverse.insert recipient_did session_did

def removeKey (k : InMemoryKeylistStore) (session_did recipient_did : String) :
    InMemoryKeylistStore where
  keylists :=
    match k.keylists.lookup session_did with
    | some keys => k.keylists.insert session_did (keys.erase recipient_did)
    | none => k.keylists
  reverse := k.reverse.erase recipient_did

def resolveSession (k : InMemoryKeylistStore) (recipient_did : String) : Option String :=
  k.reverse.lookup recipient_did

@[simp] theorem listKeys_empty (s : String) : (∅ : InMemoryKeylistStore).listKeys s = ∅ := rfl

@[simp] theorem resolveSession_empty (r : String) :
    (∅ : InMemoryKeylistStore).resolveSession r = none := rfl

theorem listKeys_addKey (k : InMemoryKeylistStore) (s r s' : String) :
    (k.addKey s r).listKeys s' = if s' = s then insert r (k.listKeys s) else k.listKeys s' := by
  rw [listKeys, addKey, Store.lookup_insert_eq]
  split
  · rfl
  · rfl

theorem listKeys_removeKey (k : InMemoryKeylistStore) (s r s' : String) :
    (k.removeKey s r).listKeys s' = if s' = s then (k.listKeys s).erase r else k.listKeys s' := by
  rw [listKeys, removeKey]
  rcases hkeys : k.keylists.lookup s with _ | keys
  · by_cases h : s' = s
    · subst h
      simp [listKeys, hkeys]
    · simp [listKeys, h]
  · by_cases h : s' = s
    · subst h
      simp [listKeys, hkeys]
    · simp [listKeys, h]

theorem resolveSession_addKey (k : InMemoryKeylistStore) (s r r' : String) :
    (k.addKey s r).resolveSession r' = if r' = r then some s else k.resolveSession r' :=
  Store.lookup_insert_eq _ _ _ _

theorem resolveSession_removeKey (k : InMemoryKeylistStore) (s r r' : String) :
    (k.removeKey s r).resolveSession r' = if r' = r then none else k.resolveSession r' := by
  show (k.reverse.erase r).lookup r' = _
  by_cases h : r' = r
  · rw [if_pos h, h, AList.lookup_erase]
  · rw [if_neg h]
    exact AList.lookup_erase_ne h

end InMemoryKeylistStore

/-- `InMemoryAgentBindingStore`. -/
structure InMemoryAgentBindingStore where
  /-- agent_did -> user_did -/
  agent_to_user : Store.Map String String
  /-- user_did -> set of agent_dids -/
  user_to_agents : Store.Map String (Finset String)

namespace InMemoryAgentBindingStore

instance : EmptyCollection InMemoryAgentBindingStore := ⟨⟨∅, ∅⟩⟩

/-- The agents of a user, before they are put in any order. -/
def agentsOf (b : InMemoryAgentBindingStore) (user_did : String) : Finset String :=
  (b.user_to_agents.lookup user_did).getD ∅

def bind (b : InMemoryAgentBindingStore) (agent_did user_did : String) :
    InMemoryAgentBindingStore where
  agent_to_user := b.agent_to_user.insert agent_did user_did
  user_to_agents := b.user_to_agents.insert user_did (insert agent_did (b.agentsOf user_did))

def getUserForAgent (b : InMemoryAgentBindingStore) (agent_did : String) : Option String :=
  b.agent_to_user.lookup agent_did

/-- `visit` lists the elements of a hash set in the order it is visited in. -/
def getAgentsForUser (visit : Finset String → List String) (b : InMemoryAgentBindingStore)
    (user_did : String) : List String := visit (b.agentsOf user_did)

theorem agentsOf_bind (b : InMemoryAgentBindingStore) (a u u' : String) :
    (b.bind a u).agentsOf u' = if u' = u then insert a (b.agentsOf u) else b.agentsOf u' := by
  rw [agentsOf, bind, Store.lookup_insert_eq]
  split
  · rfl
  · rfl

end InMemoryAgentBindingStore

/-! ### Keys of two fields -/

/-- `format!("{}:{}", first, second)`. -/
def compositeKey (first second : String) : String := first ++ ":" ++ second

/-- The keys of a tree that start with `pre`, in the order of the tree. -/
def scanPrefix (t : SortedTree String String) (pre : String) : List String :=
  t.keys.filter fun k => pre.toList.isPrefixOf k.toList

/-- `key.split(':').nth(1)`. -/
def secondField (key : String) : Option String :=
  ((key.toList.splitOn ':')[1]?).map String.ofList

/-- The second fields of the keys that start with `first` and a colon. -/
def secondFields (t : SortedTree String String) (first : String) : List String :=
  (scanPrefix t (first ++ ":")).filterMap secondField

/-- A string that can be a field of its own. -/
def NoColon (s : String) : Prop := ':' ∉ s.toList

instance : DecidablePred NoColon := fun s => inferInstanceAs (Decidable (':' ∉ s.toList))

theorem toList_compositeKey (a b : String) :
    (compositeKey a b).toList = a.toList ++ ':' :: b.toList := by
  rw [compositeKey, String.toList_append, String.toList_append, List.append_assoc]
  rfl

theorem toList_append_colon (a : String) : (a ++ ":").toList = a.toList ++ [':'] := by
  rw [String.toList_append]
  rfl

/-- The pieces of a split are free of what it splits at. -/
theorem not_mem_of_mem_splitOn {c : Char} {l p : List Char} (h : p ∈ l.splitOn c) : c ∉ p := by
  rw [List.splitOn_eq_splitOnP] at h
  induction l generalizing p with
  | nil =>
    rw [List.splitOnP_nil, List.mem_singleton] at h
    exact h ▸ List.not_mem_nil
  | cons d l ih =>
    rw [List.splitOnP_cons_eq_if_modifyHead] at h
    by_cases hd : (d == c) = true
    · rw [if_pos hd] at h
      rcases List.mem_cons.mp h with rfl | h
      · exact List.not_mem_nil
      · exact ih h
    · rw [if_neg hd] at h
      rcases hsplit : l.splitOnP (· == c) with _ | ⟨q, qs⟩
      · rw [hsplit] at h
        exact absurd h List.not_mem_nil
      · rw [hsplit, List.modifyHead_cons] at h
        rcases List.mem_cons.mp h with rfl | h
        · have hq : c ∉ q := ih (hsplit ▸ List.mem_cons_self)
          refine fun hmem => (List.mem_cons.mp hmem).elim (fun heq => hd ?_) hq
          exact beq_iff_eq.mpr heq.symm
        · exact ih (hsplit ▸ List.mem_cons_of_mem _ h)

theorem noColon_of_secondField {key f : String} (h : secondField key = some f) : NoColon f := by
  obtain ⟨p, hp, rfl⟩ := Option.map_eq_some_iff.mp h
  rw [NoColon, String.toList_ofList]
  exact not_mem_of_mem_splitOn (List.mem_of_getElem? hp)

theorem splitOn_compositeKey {a : String} (ha : NoColon a) (b : String) :
    (compositeKey a b).toList.splitOn ':' = a.toList :: b.toList.splitOn ':' := by
  rw [toList_compositeKey]
  exact List.splitOn_append_cons_self_of_not_mem ha _

theorem secondField_compositeKey {a b : String} (ha : NoColon a) (hb : NoColon b) :
    secondField (compositeKey a b) = some b := by
  rw [secondField, splitOn_compositeKey ha, List.splitOn_eq_singleton hb]
  show some (String.ofList b.toList) = some b
  rw [String.ofList_toList]

/-- Of more than two fields, the second is read as well. -/
theorem secondField_of_three {a b : String} (ha : NoColon a) (hb : NoColon b) (c : String) :
    secondField (compositeKey a (compositeKey b c)) = some b := by
  rw [secondField, splitOn_compositeKey ha, splitOn_compositeKey hb]
  show some (String.ofList b.toList) = some b
  rw [String.ofList_toList]

theorem compositeKey_assoc (a b c : String) :
    compositeKey (compositeKey a b) c = compositeKey a (compositeKey b c) := by
  apply String.toList_injective
  rw [toList_compositeKey, toList_compositeKey, toList_compositeKey, toList_compositeKey,
    List.append_assoc, List.cons_append]

/-- A string with a colon is parted at its first one. -/
theorem exists_fields {s : String} (h : ¬ NoColon s) :
    ∃ a b, NoColon a ∧ s = compositeKey a b := by
  obtain ⟨l, m, hs, hl⟩ := List.eq_append_cons_of_mem (not_not.mp h)
  refine ⟨String.ofList l, String.ofList m, ?_, String.toList_injective ?_⟩
  · rwa [NoColon, String.toList_ofList]
  · rw [toList_compositeKey, String.toList_ofList, String.toList_ofList, hs]

theorem prefix_compositeKey (a b : String) : (a ++ ":").toList <+: (compositeKey a b).toList := by
  rw [toList_append_colon, toList_compositeKey]
  exact ⟨b.toList, by rw [List.append_assoc]; rfl⟩

theorem mem_secondFields {t : SortedTree String String} {a f : String} :
    f ∈ secondFields t a ↔
      ∃ k ∈ t.keys, (a ++ ":").toList <+: k.toList ∧ secondField k = some f := by
  rw [secondFields, List.mem_filterMap]
  simp only [scanPrefix, List.mem_filter, List.isPrefixOf_iff_prefix, and_assoc]

/-- A text with one colon is parted there and nowhere else. -/
theorem eq_of_append_colon {l l' m m' : List Char} (hl : ':' ∉ l) (hm : ':' ∉ m)
    (h : l ++ ':' :: m = l' ++ ':' :: m') : l = l' ∧ m = m' := by
  induction l generalizing l' with
  | nil =>
    rcases l' with _ | ⟨c, l'⟩
    · exact ⟨rfl, (List.cons.inj h).2⟩
    · obtain ⟨-, htail⟩ := List.cons.inj h
      exact absurd (htail ▸ List.mem_append_right l' List.mem_cons_self) hm
  | cons c l ih =>
    rcases l' with _ | ⟨c', l'⟩
    · obtain ⟨hc, -⟩ := List.cons.inj h
      exact absurd (hc ▸ List.mem_cons_self) hl
    · obtain ⟨rfl, htail⟩ := List.cons.inj h
      obtain ⟨rfl, rfl⟩ := ih (fun h => hl (List.mem_cons_of_mem _ h)) htail
      exact ⟨rfl, rfl⟩

theorem compositeKey_inj {a b a' b' : String} (ha : NoColon a) (hb : NoColon b)
    (h : compositeKey a b = compositeKey a' b') : a = a' ∧ b = b' := by
  have htext := congrArg String.toList h
  rw [toList_compositeKey, toList_compositeKey] at htext
  obtain ⟨hfirst, hsecond⟩ := eq_of_append_colon ha hb htext
  exact ⟨String.toList_injective hfirst, String.toList_injective hsecond⟩

/-- A key is scanned for its own first field only. -/
theorem prefix_compositeKey_iff {a b a' : String} (ha : NoColon a) (hb : NoColon b) :
    (a' ++ ":").toList <+: (compositeKey a b).toList ↔ a = a' := by
  constructor
  · rintro ⟨rest, hrest⟩
    rw [toList_append_colon, toList_compositeKey, List.append_assoc] at hrest
    exact String.toList_injective (eq_of_append_colon ha hb hrest.symm).1
  · rintro rfl
    exact prefix_compositeKey a b

/-- The keys of a tree are the pairs of a relation between strings without colons. -/
def KeyedBy (t : SortedTree String String) (rel : String → String → Prop) : Prop :=
  (∀ a b, rel a b → NoColon a ∧ NoColon b) ∧
    ∀ k, k ∈ t.keys ↔ ∃ a b, rel a b ∧ k = compositeKey a b

theorem keyedBy_empty : KeyedBy ∅ fun _ _ => False := by
  refine ⟨fun a b h => h.elim, fun k => ?_⟩
  simp [SortedTree.keys]

theorem KeyedBy.congr {t : SortedTree String String} {rel rel' : String → String → Prop}
    (h : KeyedBy t rel) (hiff : ∀ a b, rel a b ↔ rel' a b) : KeyedBy t rel' := by
  have heq : rel = rel' := funext fun a => funext fun b => propext (hiff a b)
  exact heq ▸ h

theorem KeyedBy.insert {t : SortedTree String String} {rel : String → String → Prop}
    (h : KeyedBy t rel) {a b : String} (ha : NoColon a) (hb : NoColon b) (v : String) :
    KeyedBy (t.insert (compositeKey a b) v) fun x y => (x = a ∧ y = b) ∨ rel x y := by
  constructor
  · rintro x y (⟨rfl, rfl⟩ | hrel)
    · exact ⟨ha, hb⟩
    · exact h.1 x y hrel
  · intro k
    rw [SortedTree.mem_keys_insert, h.2]
    constructor
    · rintro (rfl | ⟨x, y, hrel, rfl⟩)
      · exact ⟨a, b, .inl ⟨rfl, rfl⟩, rfl⟩
      · exact ⟨x, y, .inr hrel, rfl⟩
    · rintro ⟨x, y, ⟨rfl, rfl⟩ | hrel, rfl⟩
      · exact .inl rfl
      · exact .inr ⟨x, y, hrel, rfl⟩

theorem KeyedBy.remove {t : SortedTree String String} {rel : String → String → Prop}
    (h : KeyedBy t rel) (a b : String) : KeyedBy (t.remove (compositeKey a b)) fun x y => rel x y ∧ ¬ (x = a ∧ y = b) := by
  refine ⟨fun x y hrel => h.1 x y hrel.1, fun k => ?_⟩
  rw [SortedTree.mem_keys_remove, h.2]
  constructor
  · rintro ⟨⟨x, y, hrel, rfl⟩, hne⟩
    refine ⟨x, y, ⟨hrel, ?_⟩, rfl⟩
    rintro ⟨rfl, rfl⟩
    exact hne rfl
  · rintro ⟨x, y, ⟨hrel, hne⟩, rfl⟩
    obtain ⟨hx, hy⟩ := h.1 x y hrel
    exact ⟨⟨x, y, hrel, rfl⟩, fun heq => hne (compositeKey_inj hx hy heq)⟩

/-- Then a listing reads one side of the relation back. -/
theorem mem_secondFields_iff {t : SortedTree String String} {rel : String → String → Prop}
    (h : KeyedBy t rel) {a b : String} : b ∈ secondFields t a ↔ rel a b := by
  rw [mem_secondFields]
  constructor
  · rintro ⟨k, hk, hscan, hfield⟩
    obtain ⟨a', b', hrel, rfl⟩ := (h.2 k).mp hk
    obtain ⟨ha', hb'⟩ := h.1 a' b' hrel
    obtain rfl := (prefix_compositeKey_iff ha' hb').mp hscan
    rw [secondField_compositeKey ha' hb', Option.some_inj] at hfield
    exact hfield ▸ hrel
  · intro hrel
    obtain ⟨ha, hb⟩ := h.1 a b hrel
    exact ⟨compositeKey a b, (h.2 _).mpr ⟨a, b, hrel, rfl⟩, prefix_compositeKey a b,
      secondField_compositeKey ha hb⟩

/-- And it lists nothing twice. -/
theorem nodup_secondFields {t : SortedTree String String} {rel : String → String → Prop}
    (h : KeyedBy t rel) (a : String) : (secondFields t a).Nodup := by
  refine List.pairwise_filterMap.mpr ((t.nodup_keys.filter _).imp_of_mem ?_)
  rintro k k' hk hk' hne f hf f' hf' rfl
  obtain ⟨hkeys, hscan⟩ := List.mem_filter.mp hk
  obtain ⟨hkeys', hscan'⟩ := List.mem_filter.mp hk'
  obtain ⟨b, b', hrel, rfl⟩ := (h.2 k).mp hkeys
  obtain ⟨c, c', hrel', rfl⟩ := (h.2 k').mp hkeys'
  obtain ⟨hb, hb'⟩ := h.1 b b' hrel
  obtain ⟨hc, hc'⟩ := h.1 c c' hrel'
  obtain rfl := (prefix_compositeKey_iff hb hb').mp (List.isPrefixOf_iff_prefix.mp hscan)
  obtain rfl := (prefix_compositeKey_iff hc hc').mp (List.isPrefixOf_iff_prefix.mp hscan')
  rw [secondField_compositeKey hb hb', Option.some_inj] at hf
  rw [secondField_compositeKey hc hc', Option.some_inj] at hf'
  exact hne (by rw [hf, hf'])

/-! ### On sled -/

/-- `SledKeylistStore`: the trees `keylist` and `keylist_reverse`. -/
structure SledKeylistStore where
  keylist : SortedTree String String
  reverse : SortedTree String String

namespace SledKeylistStore

instance : EmptyCollection SledKeylistStore := ⟨⟨∅, ∅⟩⟩

def addKey (k : SledKeylistStore) (session_did recipient_did : String) : SledKeylistStore where
  keylist := k.keylist.insert (compositeKey session_did recipient_did) "1"
  reverse := k.reverse.insert recipient_did session_did

def removeKey (k : SledKeylistStore) (session_did recipient_did : String) : SledKeylistStore where
  keylist := k.keylist.remove (compositeKey session_did recipient_did)
  reverse := k.reverse.remove recipient_did

def listKeys (k : SledKeylistStore) (session_did : String) : Finset String :=
  (secondFields k.keylist session_did).toFinset

def resolveSession (k : SledKeylistStore) (recipient_did : String) : Option String :=
  k.reverse.get recipient_did

end SledKeylistStore

/-- `SledAgentBindingStore`: the trees `agent_to_user` and `user_to_agents`. -/
structure SledAgentBindingStore where
  agent_to_user : SortedTree String String
  user_to_agents : SortedTree String String

namespace SledAgentBindingStore

instance : EmptyCollection SledAgentBindingStore := ⟨⟨∅, ∅⟩⟩

def bind (b : SledAgentBindingStore) (agent_did user_did : String) : SledAgentBindingStore where
  agent_to_user := b.agent_to_user.insert agent_did user_did
  user_to_agents := b.user_to_agents.insert (compositeKey user_did agent_did) "1"

def getUserForAgent (b : SledAgentBindingStore) (agent_did : String) : Option String :=
  b.agent_to_user.get agent_did

def getAgentsForUser (b : SledAgentBindingStore) (user_did : String) : List String :=
  secondFields b.user_to_agents user_did

end SledAgentBindingStore

end Router
