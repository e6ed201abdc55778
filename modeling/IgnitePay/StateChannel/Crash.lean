/-
Crashes (`channel.rs`): `persist_state` writes a channel as three records, one after
the other, and the database may stop after any of them.

A single insert is taken to be atomic, and the inserts to reach the disk in order.
What `load_state` finds after a crash is then put together from the state before and
the one that was being written (`ChannelState.mixed`).

* `load_crashed` — what is loaded after a crash;
* `crash_iff` — it is one of the two states, wherever the crash was, exactly if at most
  one of the three records differs between them.
-/
import IgnitePay.StateChannel.Cosign
import IgnitePay.StateChannel.Roots

namespace StateChannel

open Bytes Machine Solana

/-! ### The inserts -/

/-- The inserts of `persist_state`, in their order. -/
def Db.inserts (c : ChannelState) : List (Db → Db) := [
  fun db => { db with metas := db.metas.insert c.metadata.channelId c.metadata },
  fun db => { db with leaves := db.leaves.insert c.metadata.channelId c.tree.leaves },
  fun db => { db with cosigns := db.cosigns.insert c.metadata.channelId c.providerCosign }]

/-- The database, where it stops after the first `n` inserts. -/
def Db.crashed (db : Db) (c : ChannelState) (n : ℕ) : Db :=
  ((Db.inserts c).take n).foldl (fun db insert => insert db) db

/-- Without a crash the state is persisted. -/
theorem Db.crashed_all (db : Db) (c : ChannelState) {n : ℕ} (hn : (Db.inserts c).length ≤ n) :
    db.crashed c n = db.persist c := by
  rw [crashed, List.take_of_length_le hn]
  rfl

namespace ChannelState

/-- The records of `c` as far as they are written, and then those of before. -/
def mixed (before c : ChannelState) (n : ℕ) : ChannelState where
  metadata := if n < 1 then before.metadata else c.metadata
  tree := if n < 2 then before.tree else c.tree
  providerCosign := if n < 3 then before.providerCosign else c.providerCosign

/-- At most one of the three records differs. -/
def OneRecord (before c : ChannelState) : Prop :=
  (before.tree = c.tree ∧ before.providerCosign = c.providerCosign) ∨
  (before.metadata = c.metadata ∧ before.providerCosign = c.providerCosign) ∨
  (before.metadata = c.metadata ∧ before.tree = c.tree)

instance (before c : ChannelState) : Decidable (before.OneRecord c) :=
  inferInstanceAs (Decidable (_ ∨ _))

/-- The root is the tree's, and a co-signature is for that root. -/
structure Coherent (env : Env) (c : ChannelState) : Prop where
  agrees : c.Agrees
  cosign : CosignValid env c

end ChannelState

section

variable {env : Env} {db : Db} {before c : ChannelState}

theorem load_crashed (hsaved : db.Saved before) (hbefore : before.Valid env.sha)
    (hc : c.Valid env.sha) (hid : c.metadata.channelId = before.metadata.channelId)
    (hdepth : c.metadata.treeDepth = before.metadata.treeDepth) (n : ℕ) :
    (db.crashed c n).load env.sha before.metadata.channelId = .ok (before.mixed c n) := by
  have hnew := hbefore.new_eq
  rw [← hdepth] at hnew
  match n with
  | 0 => exact load_of_saved hsaved hbefore
  | 1 =>
    refine bind_eq_ok.mpr ⟨c.metadata, orErr_eq_ok.mpr (hid ▸ AList.lookup_insert _), ?_⟩
    refine bind_eq_ok.mpr ⟨before.tree.leaves, orErr_eq_ok.mpr hsaved.leaves_eq, ?_⟩
    refine bind_eq_ok.mpr ⟨before.tree, orErr_eq_ok.mpr hnew, ?_⟩
    have hcosign : (db.crashed c 1).cosigns.lookup before.metadata.channelId
        = some before.providerCosign := hsaved.cosign_eq
    rw [hcosign]
    rfl
  | 2 =>
    refine bind_eq_ok.mpr ⟨c.metadata, orErr_eq_ok.mpr (hid ▸ AList.lookup_insert _), ?_⟩
    refine bind_eq_ok.mpr ⟨c.tree.leaves, orErr_eq_ok.mpr (hid ▸ AList.lookup_insert _), ?_⟩
    refine bind_eq_ok.mpr ⟨c.tree, orErr_eq_ok.mpr hc.new_eq, ?_⟩
    have hcosign : (db.crashed c 2).cosigns.lookup before.metadata.channelId
        = some before.providerCosign := hsaved.cosign_eq
    rw [hcosign]
    rfl
  | n + 3 =>
    have hall : (Db.inserts c).length ≤ n + 3 := Nat.le_add_left 3 n
    rw [db.crashed_all c hall, ← hid, load_of_saved (saved_persist db c) hc]
    rfl

/-- What is left of the two states at every point, between the first insert and the last. -/
theorem mixed_cases (n : ℕ) : before.mixed c n = before ∨
    before.mixed c n = ⟨c.metadata, before.tree, before.providerCosign⟩ ∨
    before.mixed c n = ⟨c.metadata, c.tree, before.providerCosign⟩ ∨ before.mixed c n = c := by
  match n with
  | 0 => exact .inl rfl
  | 1 => exact .inr (.inl rfl)
  | 2 => exact .inr (.inr (.inl rfl))
  | n + 3 => exact .inr (.inr (.inr rfl))

theorem mixed_iff :
    (∀ n, before.mixed c n = before ∨ before.mixed c n = c) ↔ before.OneRecord c := by
  constructor
  · intro hall
    rcases hall 1 with h | h
    · have hmetadata : (before.mixed c 1).metadata = before.metadata := by rw [h]
      rcases hall 2 with h | h
      · have htree : (before.mixed c 2).tree = before.tree := by rw [h]
        exact .inr (.inr ⟨hmetadata.symm, htree.symm⟩)
      · have hcosign : (before.mixed c 2).providerCosign = c.providerCosign := by rw [h]
        exact .inr (.inl ⟨hmetadata.symm, hcosign⟩)
    · have htree : (before.mixed c 1).tree = c.tree := by rw [h]
      have hcosign : (before.mixed c 1).providerCosign = c.providerCosign := by rw [h]
      exact .inl ⟨htree, hcosign⟩
  · intro hone n
    rcases @mixed_cases before c n with h | h | h | h
    · exact .inl h
    · rw [h]
      rcases hone with ⟨htree, hcosign⟩ | ⟨hmetadata, -⟩ | ⟨hmetadata, -⟩
      · exact .inr (by rw [htree, hcosign])
      · exact .inl (by rw [← hmetadata])
      · exact .inl (by rw [← hmetadata])
    · rw [h]
      rcases hone with ⟨-, hcosign⟩ | ⟨-, hcosign⟩ | ⟨hmetadata, htree⟩
      · exact .inr (by rw [hcosign])
      · exact .inr (by rw [hcosign])
      · exact .inl (by rw [← hmetadata, ← htree])
    · exact .inr h

/-- The mixed states are coherent where the root stays and the old co-signature is good for the new
state. -/
theorem coherent_mixed_iff (hbefore : before.Coherent env) (hc : c.Coherent env) :
    (∀ n, (before.mixed c n).Coherent env) ↔
      before.metadata.currentRoot = c.metadata.currentRoot ∧
        CosignValid env { c with providerCosign := before.providerCosign } := by
  have hroot : before.metadata.currentRoot = before.tree.root := hbefore.agrees
  constructor
  · intro hall
    have hagrees : c.metadata.currentRoot = before.tree.root := (hall 1).agrees
    exact ⟨hroot.trans hagrees.symm, (hall 2).cosign⟩
  · rintro ⟨hsame, hcosign⟩ n
    rcases @mixed_cases before c n with h | h | h | h
    · rw [h]
      exact hbefore
    · rw [h]
      exact ⟨hsame.symm.trans hroot, hcosign⟩
    · rw [h]
      exact ⟨hc.agrees, hcosign⟩
    · rw [h]
      exact hc

/-! ### Crashes in a run -/

theorem treeDepth_of_effect {c' : ChannelState} {r : Request} (h : Effect env c r c') :
    c'.metadata.treeDepth = c.metadata.treeDepth := by
  cases h with
  | batch hbatched => rw [batched_eq hbatched]
  | _ => rfl

theorem reachable_treeDepth {a : OpenArgs} {s₀ s : Session} {h : List (Session × Request)}
    (hopened : Opened env a s₀) (hrun : Run (exec env) s₀ h s) :
    Holds env (fun c => c.metadata.treeDepth = a.treeDepth) s := by
  refine reachable (fun _ _ => True) hopened ?_ ?_ hrun fun _ _ => trivial
  · intro channelId tree _
    rfl
  · intro c r c' hdepth _ heffect
    rw [treeDepth_of_effect heffect, hdepth]

end

/-- The state after a call is persisted over the one that was stored before.  Wherever the database
stops, the records that were written are loaded with the others of before.  That is one of the two states
at every point exactly if at most one of their records differs; and it is coherent, where they are,
exactly if the root is the same and the co-signature that was stored is good for the new state. -/
theorem crash_iff (env : Env) (a : OpenArgs) (s₀ s s' : Session) (h : List (Session × Request))
    (r : Request) (before : ChannelState) (hopened : Opened env a s₀) (hrun : Run (exec env) s₀ h s)
    (hstored : s.db.load env.sha s.channel.metadata.channelId = .ok before)
    (hexec : exec env r s = .ok s') :
    (∀ n, (s.db.crashed s'.channel n).load env.sha s.channel.metadata.channelId
      = .ok (before.mixed s'.channel n)) ∧
    ((∀ n, (s.db.crashed s'.channel n).load env.sha s.channel.metadata.channelId = .ok before ∨
        (s.db.crashed s'.channel n).load env.sha s.channel.metadata.channelId = .ok s'.channel) ↔
      before.OneRecord s'.channel) ∧
    (before.Coherent env → s'.channel.Coherent env →
      ((∀ n, ∃ c, (s.db.crashed s'.channel n).load env.sha s.channel.metadata.channelId = .ok c ∧
          c.Coherent env) ↔
        before.metadata.currentRoot = s'.channel.metadata.currentRoot ∧
          CosignValid env { s'.channel with providerCosign := before.providerCosign })) := by
  obtain ⟨c, hsaved, hid, hvalid, hdepth⟩ := (reachable_treeDepth hopened hrun).stored
  rw [← hid, load_of_saved hsaved hvalid] at hstored
  obtain rfl := Except.ok.inj hstored
  have hnow := reachable_treeDepth hopened (.step hrun hexec)
  have hid' : s'.channel.metadata.channelId = c.metadata.channelId := by
    rcases exec_ok (reachable_valid hopened hrun) hexec with ⟨heffect, -⟩ | ⟨-, hload, -⟩
    · rw [channelId_of_effect heffect, hid]
    · rw [← hid, load_of_saved hsaved hvalid] at hload
      rw [Except.ok.inj hload]
  have hload := load_crashed hsaved hvalid hnow.valid hid' (hnow.memory.trans hdepth.symm)
  rw [← hid]
  refine ⟨hload, ?_, ?_⟩
  · simp only [hload, Except.ok.injEq]
    exact mixed_iff
  · intro hbefore hafter
    rw [← coherent_mixed_iff hbefore hafter]
    simp only [hload, Except.ok.injEq, exists_eq_left']

/-- The seller co-signs, and a payment is persisted.  After the first insert the root is not that of
the stored leaves; after the second the co-signature is not for the root. -/
theorem crash_mixes : ∃ s₀ s s', Opened Sample.env (Sample.openArgs 10) s₀ ∧
    exec Sample.env (.providerCosignState Sample.sellerKeypair) s₀ = .ok s ∧
    exec Sample.env (.applyLeafUpdate Sample.payment Sample.payer) s = .ok s' ∧
    (∃ c, (s.db.crashed s'.channel 1).load Sample.env.sha s.channel.metadata.channelId = .ok c ∧
      ¬ c.Agrees) ∧
    ∃ c, (s.db.crashed s'.channel 2).load Sample.env.sha s.channel.metadata.channelId = .ok c ∧
      c.Agrees ∧ ¬ CosignValid Sample.env c := by
  have htest : (Sample.opened 10 none).toOption.any fun s₀ =>
      (exec Sample.env (.providerCosignState Sample.sellerKeypair) s₀).toOption.any fun s =>
      (exec Sample.env (.applyLeafUpdate Sample.payment Sample.payer) s).toOption.any fun s' =>
        ((s.db.crashed s'.channel 1).load Sample.env.sha s.channel.metadata.channelId).toOption.any
          (fun c => decide (¬ c.Agrees)) &&
        ((s.db.crashed s'.channel 2).load Sample.env.sha s.channel.metadata.channelId).toOption.any
          fun c => decide (c.Agrees ∧ ¬ CosignValid Sample.env c) := by
    decide +kernel
  obtain ⟨s₀, hs₀, htest⟩ := exists_of_any htest
  obtain ⟨s, hs, htest⟩ := exists_of_any htest
  obtain ⟨s', hs', htest⟩ := exists_of_any htest
  obtain ⟨hfirst, hsecond⟩ := Bool.and_eq_true_iff.mp htest
  obtain ⟨c₁, hload₁, hdisagrees⟩ := exists_of_any hfirst
  obtain ⟨c₂, hload₂, hstale⟩ := exists_of_any hsecond
  exact ⟨s₀, s, s', ⟨_, _, Sample.openChannel_of_opened hs₀⟩, hs, hs',
    ⟨c₁, hload₁, of_decide_eq_true hdisagrees⟩, c₂, hload₂, of_decide_eq_true hstale⟩

/-- Where the time of the automatic close is set, only the metadata differs. -/
theorem crash_iff_autoClose : ∃ s₀ s', Opened Sample.env (Sample.openArgs 10) s₀ ∧
    exec Sample.env (.setAutoCloseSlot 50) s₀ = .ok s' ∧
    ∀ n, (s₀.db.crashed s'.channel n).load Sample.env.sha s₀.channel.metadata.channelId = .ok s₀.channel ∨
      (s₀.db.crashed s'.channel n).load Sample.env.sha s₀.channel.metadata.channelId = .ok s'.channel := by
  have htest : (Sample.opened 10 none).toOption.any fun s₀ =>
      (exec Sample.env (.setAutoCloseSlot 50) s₀).toOption.any fun s' =>
        decide (s₀.channel.OneRecord s'.channel) &&
        (s₀.db.load Sample.env.sha s₀.channel.metadata.channelId).toOption.any fun c =>
          decide (c = s₀.channel) := by
    decide +kernel
  obtain ⟨s₀, hs₀, htest⟩ := exists_of_any htest
  obtain ⟨s', hs', htest⟩ := exists_of_any htest
  obtain ⟨hone, htest⟩ := Bool.and_eq_true_iff.mp htest
  obtain ⟨c, hload, hc⟩ := exists_of_any htest
  obtain rfl := of_decide_eq_true hc
  have hopened : Opened Sample.env (Sample.openArgs 10) s₀ :=
    ⟨_, _, Sample.openChannel_of_opened hs₀⟩
  have hiff := (crash_iff Sample.env (Sample.openArgs 10) s₀ s₀ s' [] _ s₀.channel hopened .start hload
    hs').2.1
  exact ⟨s₀, s', hopened, hs', hiff.mpr (of_decide_eq_true hone)⟩

end StateChannel
