/-
Batches against single updates.

A batch and the updates one by one go through the same checks and write the same
tree, sequence and root (`applyAll_returns`, `applyLeafUpdateBatch_returns`).
They differ in the rest: the single form also counts the leaves and drops the
co-signature.  A batch that fails puts back what it wrote to the channel, and
leaves with the compliance manager what it recorded there.

* `batch_agrees` — the batch goes through exactly where the single updates do,
  and when they leave the same channel;
* `failed_batch` — a failed batch stops at the first update that would be
  rejected by itself, and when it leaves everything as it was.
-/
import IgnitePay.StateChannel.Funding

namespace StateChannel

open Bytes Machine Solana

variable {env : Env} {s s' s₁ : Session} {u : Unit} {update : LeafUpdate}
  {updates : List LeafUpdate} {signerPubkey : Pubkey} {e : Failure}

/-- `apply_leaf_update` for each of the updates. -/
def applyAll (env : Env) (signerPubkey : Pubkey) (updates : List LeafUpdate) : SessionOp Unit :=
  updates.forM fun update => applyLeafUpdate env update signerPubkey

/-- The same without persisting. -/
def applyAllInternal (env : Env) (signerPubkey : Pubkey) (updates : List LeafUpdate) :
    SessionOp Unit :=
  updates.forM fun update => applyLeafUpdateInternal env update signerPubkey

/-! ### What the internal form leaves alone -/

/-- What only the single form writes. -/
structure Rest where
  leafCount : UInt32
  providerCosign : Option (Bytes 64)
  db : Db

def Session.rest (s : Session) : Rest :=
  ⟨s.channel.metadata.leafCount, s.channel.providerCosign, s.db⟩

def Local.withRest (r : Rest) (l : Local) : Local where
  channel := { l.channel with
    metadata := { l.channel.metadata with leafCount := r.leafCount }
    providerCosign := r.providerCosign }
  db := r.db

def Session.withRest (r : Rest) (s : Session) : Session :=
  { s with toLocal := s.toLocal.withRest r }

theorem validateLeafUpdate_commutes (r : Rest) :
    Commutes (Local.withRest r) (validateLeafUpdate env update signerPubkey) := by
  refine commutes_channel (fun _ => rfl) fun c => ?_
  refine (commutes_check _ _).bind fun _ => (commutes_check _ _).bind fun _ => ?_
  refine (commutes_orThrow _ _).bind fun expected => (commutes_check _ _).bind fun _ => ?_
  refine (commutes_orThrow _ _).bind fun hash => (commutes_check _ _).bind fun _ => ?_
  exact commutes_check _ _

theorem recordUpdate_commutes (r : Rest) :
    Commutes (Session.withRest r) (recordUpdate env update) := by
  refine .get (fun _ => rfl) fun s => ?_
  rcases s.compliance with _ | cm
  · exact commutes_pure ()
  · by_cases hpays : update.IsPayment
    · simp only [if_pos hpays]
      rcases recordPayment env.sha cm s.channel.metadata.channelId update.newLeaf.amount 0
        s.channel.metadata.userPubkey s.channel.metadata.providerPubkey with e | ⟨action, cm'⟩
      · exact commutes_throw _
      · exact commutes_modify fun _ => rfl
    · simp only [if_neg hpays]
      exact commutes_pure ()

theorem writeUpdate_commutes (r : Rest) : Commutes (Local.withRest r) (writeUpdate env update) := by
  have hmodify : ∀ g : ChannelState → ChannelState,
      (∀ l : Local, (Local.mk (g (l.withRest r).channel) r.db)
        = (Local.mk (g l.channel) l.db).withRest r) →
        Commutes (Local.withRest r) (StateChannel.update g) := fun g hg => commutes_modify hg
  have hleaf : Commutes (Local.withRest r)
      (updateLeaf env update.leafIndex.toNat update.newLeaf) := by
    refine commutes_channel (fun _ => rfl) fun c => (commutes_check _ _).bind fun _ => ?_
    exact (commutes_orThrow _ _).bind fun tree => hmodify _ fun _ => rfl
  exact hleaf.bind fun _ => (hmodify _ fun _ => rfl).bind fun _ => hmodify _ fun _ => rfl

/-- The internal form neither reads nor writes the rest. -/
theorem internal_commutes (r : Rest) :
    Commutes (Session.withRest r) (applyLeafUpdateInternal env update signerPubkey) := by
  have hlocal : ∀ x : Op Unit, Commutes (Local.withRest r) x →
      Commutes (Session.withRest r) (onLocal x) :=
    fun x hx => hx.on (fun _ => rfl) fun _ _ => rfl
  exact (hlocal _ (validateLeafUpdate_commutes r)).bind fun _ =>
    (recordUpdate_commutes r).bind fun _ => hlocal _ (writeUpdate_commutes r)

theorem applyAllInternal_commutes (r : Rest) :
    Commutes (Session.withRest r) (applyAllInternal env signerPubkey updates) :=
  .forM (fun _ => internal_commutes r) updates

/-- `t` differs from `s` only in the tree, the sequence, the root and the compliance records. -/
def Session.SameBut (s t : Session) : Prop :=
  t.db = s.db ∧ t.channel = { s.channel with
    tree := t.channel.tree
    metadata := { s.channel.metadata with
      sequence := t.channel.metadata.sequence
      currentRoot := t.channel.metadata.currentRoot } }

theorem sameBut_of_internal (h : Returns (applyLeafUpdateInternal env update signerPubkey) s u s')
    {t : Session} (ht : t.SameBut s) : t.SameBut s' := by
  obtain ⟨-, compliance, tree, -, -, rfl⟩ := applyLeafUpdateInternal_returns.mp h
  obtain ⟨hdb, hchannel⟩ := ht
  refine ⟨hdb, ?_⟩
  show s.channel.written update tree = _
  rw [hchannel]
  rfl

theorem sameBut_of_applyAllInternal (h : Returns (applyAllInternal env signerPubkey updates) s u s') :
    s.SameBut s' :=
  forM_invariant (fun _ _ _ _ ht hi => sameBut_of_internal hi ht) ⟨rfl, rfl⟩ h

theorem Session.SameBut.rest_eq {t : Session} (h : s.SameBut t) : t.rest = s.rest := by
  obtain ⟨hdb, hchannel⟩ := h
  rw [rest, hchannel, hdb]
  rfl

theorem Db.persist_persist (db : Db) {c c' : ChannelState}
    (h : c.metadata.channelId = c'.metadata.channelId) :
    (db.persist c).persist c' = db.persist c' := by
  simp only [Db.persist, h, AList.insert_insert]

/-! ### The two forms -/

/-- Finishing in between does not show once the last update is finished. -/
theorem finished_withRest (h : Returns (applyAllInternal env signerPubkey updates) s u s') :
    (s'.withRest s.finished.rest).finished = s'.finished := by
  obtain ⟨hdb, hchannel⟩ := sameBut_of_applyAllInternal h
  have hid : s.finished.channel.metadata.channelId = s'.finished.channel.metadata.channelId := by
    show s.channel.metadata.channelId = s'.channel.metadata.channelId
    rw [hchannel]
  have hpersist : s.finished.db.persist s'.finished.channel = s'.finished.db := by
    show (s.db.persist s.finished.channel).persist s'.finished.channel = _
    rw [Db.persist_persist _ hid, ← hdb]
    rfl
  show (⟨⟨s'.finished.channel, s.finished.db.persist s'.finished.channel⟩, s'.compliance⟩ : Session)
    = s'.finished
  rw [hpersist]
  rfl

/-- The single updates: the internal ones, finished once. -/
theorem applyAll_returns (hne : updates ≠ []) :
    Returns (applyAll env signerPubkey updates) s u s' ↔
      ∃ s₁, Returns (applyAllInternal env signerPubkey updates) s u s₁ ∧ s' = s₁.finished := by
  induction updates generalizing s with
  | nil => exact absurd rfl hne
  | cons update updates ih =>
    unfold applyAll applyAllInternal
    simp only [returns_forM_cons, applyLeafUpdate_returns]
    rcases eq_or_ne updates [] with rfl | hrest
    · simp only [returns_forM_nil]
      constructor
      · rintro ⟨_, ⟨s₁, h₁, rfl⟩, rfl⟩
        exact ⟨s₁, ⟨s₁, h₁, rfl⟩, rfl⟩
      · rintro ⟨_, ⟨s₁, h₁, rfl⟩, rfl⟩
        exact ⟨_, ⟨s₁, h₁, rfl⟩, rfl⟩
    · -- The later updates run on a finished session, and finish it again.
      have hagain : ∀ s₁, Returns (applyAll env signerPubkey updates) s₁.finished u s' ↔
          ∃ t, Returns (applyAllInternal env signerPubkey updates) s₁ u t ∧ s' = t.finished := by
        intro s₁
        have hfinished : s₁.finished = s₁.withRest s₁.finished.rest := rfl
        rw [ih hrest, hfinished]
        simp only [(applyAllInternal_commutes s₁.finished.rest).returns]
        constructor
        · rintro ⟨_, ⟨t, ht, rfl⟩, rfl⟩
          exact ⟨t, ht, finished_withRest ht⟩
        · rintro ⟨t, ht, rfl⟩
          exact ⟨_, ⟨t, ht, rfl⟩, (finished_withRest ht).symm⟩
      constructor
      · rintro ⟨_, ⟨s₁, h₁, rfl⟩, h⟩
        obtain ⟨t, ht, rfl⟩ := (hagain s₁).mp h
        exact ⟨t, ⟨s₁, h₁, ht⟩, rfl⟩
      · rintro ⟨t, ⟨s₁, h₁, ht⟩, rfl⟩
        exact ⟨_, ⟨s₁, h₁, rfl⟩, (hagain s₁).mpr ⟨t, ht, rfl⟩⟩

theorem applyOrRollback_returns {backup : ChannelState} :
    Returns (applyOrRollback env backup signerPubkey update) s u s' ↔
      Returns (applyLeafUpdateInternal env update signerPubkey) s u s' := by
  rw [applyOrRollback, returns_handle]
  refine or_iff_left ?_
  rintro ⟨e | _, s₁, -, h⟩
  · obtain ⟨_, s₂, -, h⟩ := returns_bind.mp h
    exact returns_throw h
  · exact returns_throw h

/-- The batch: the internal ones, persisted once. -/
theorem applyLeafUpdateBatch_returns (hne : updates ≠ []) :
    Returns (applyLeafUpdateBatch env updates signerPubkey) s u s' ↔
      ∃ s₁, Returns (applyAllInternal env signerPubkey updates) s u s₁ ∧
        s' = { s₁ with db := s₁.db.persist s₁.channel } := by
  have hloop : ∀ s₁, Returns (updates.forM (applyOrRollback env s.channel signerPubkey)) s () s₁ ↔
      Returns (applyAllInternal env signerPubkey updates) s () s₁ := by
    intro s₁
    have h := @returns_forM_congr _ _ _ _ (applyOrRollback env s.channel signerPubkey) _
      (fun update => applyLeafUpdateInternal env update signerPubkey) id
      (fun _ _ _ => applyOrRollback_returns) updates s s₁ ()
    rwa [List.map_id] at h
  rw [applyLeafUpdateBatch, if_neg hne, returns_get_bind, returns_bind]
  simp only [hloop, returns_onLocal, returns_persistState]
  constructor
  · rintro ⟨_, s₁, h, l, rfl, rfl⟩
    exact ⟨s₁, h, rfl⟩
  · rintro ⟨s₁, h, rfl⟩
    exact ⟨(), s₁, h, _, rfl, rfl⟩

theorem applyOrReport_returns {backup : ChannelState} {i : ℕ} :
    Returns (applyOrReport env backup signerPubkey (update, i)) s u s' ↔
      Returns (applyLeafUpdateInternal env update signerPubkey) s u s' := by
  rw [applyOrReport, returns_handle]
  refine or_iff_left ?_
  rintro ⟨e | _, s₁, -, h⟩
  · obtain ⟨_, s₂, -, h⟩ := returns_bind.mp h
    exact returns_throw h
  · exact returns_throw h

/-- The loop of the second form, over any part of its list. -/
theorem forM_applyOrReport_returns {backup : ChannelState} {i : ℕ} :
    Returns ((updates.zipIdx i).forM (applyOrReport env backup signerPubkey)) s u s' ↔
      Returns (applyAllInternal env signerPubkey updates) s u s' := by
  have hcongr := @returns_forM_congr _ _ _ _
    (fun update => applyLeafUpdateInternal env update signerPubkey) _
    (applyOrReport env backup signerPubkey) Prod.fst
    (fun _ _ _ => applyOrReport_returns.symm) (updates.zipIdx i) s s' u
  rw [List.zipIdx_map_fst] at hcongr
  exact hcongr.symm

/-- Both forms of the batch return alike. -/
theorem applyLeafUpdateBatchWithInfo_returns :
    Returns (applyLeafUpdateBatchWithInfo env updates signerPubkey) s u s' ↔
      Returns (applyLeafUpdateBatch env updates signerPubkey) s u s' := by
  rcases eq_or_ne updates [] with rfl | hne
  · rw [applyLeafUpdateBatchWithInfo, if_pos rfl, applyLeafUpdateBatch, if_pos rfl, returns_pure,
      returns_pure]
  · rw [applyLeafUpdateBatch_returns hne, applyLeafUpdateBatchWithInfo, if_neg hne, returns_get_bind,
      returns_bind]
    simp only [forM_applyOrReport_returns, returns_modify]
    constructor
    · rintro ⟨_, s₁, h, rfl⟩
      exact ⟨s₁, h, rfl⟩
    · rintro ⟨s₁, h, rfl⟩
      exact ⟨(), s₁, h, rfl⟩

/-! ### Batch and fold agree -/

/-- The leaves with those of the updates written over them. -/
def leavesAfter (leaves : List UTXOLeaf) (updates : List LeafUpdate) : List UTXOLeaf :=
  updates.foldl (fun leaves update => leaves.set update.leafIndex.toNat update.newLeaf) leaves

theorem leaves_of_applyAllInternal
    (h : Returns (applyAllInternal env signerPubkey updates) s u s') :
    s'.channel.tree.leaves = leavesAfter s.channel.tree.leaves updates := by
  unfold applyAllInternal at h
  induction updates generalizing s with
  | nil =>
    obtain rfl := returns_forM_nil.mp h
    rfl
  | cons update updates ih =>
    obtain ⟨s₁, h₁, h⟩ := returns_forM_cons.mp h
    obtain ⟨-, compliance, tree, -, hwrites, rfl⟩ := applyLeafUpdateInternal_returns.mp h₁
    rw [ih h, leavesAfter, leavesAfter, List.foldl_cons]
    congr 1
    exact leaves_updateLeaf hwrites.2

/-- No co-signature waits, and the channel's count is right for the leaves that the
updates leave. -/
def CountsRight (c : ChannelState) (updates : List LeafUpdate) : Prop :=
  c.providerCosign = none ∧ c.metadata.leafCount
    = UInt32.ofNat ((leavesAfter c.tree.leaves updates).countP fun l => l.amount ≠ 0)

/-- What the single updates write last changes nothing exactly where both were right. -/
theorem eq_finished_iff (h : Returns (applyAllInternal env signerPubkey updates) s u t) :
    t.channel = t.finished.channel ↔ CountsRight s.channel updates := by
  have hrest := (sameBut_of_applyAllInternal h).rest_eq
  have hcount : t.channel.metadata.leafCount = s.channel.metadata.leafCount :=
    congrArg Rest.leafCount hrest
  have hcosign : t.channel.providerCosign = s.channel.providerCosign :=
    congrArg Rest.providerCosign hrest
  have hleaves : leafCount t.channel.tree = UInt32.ofNat
      ((leavesAfter s.channel.tree.leaves updates).countP fun l => l.amount ≠ 0) := by
    rw [leafCount, leaves_of_applyAllInternal h]
  rw [CountsRight, ← hcount, ← hcosign, ← hleaves]
  constructor
  · intro hchannel
    exact ⟨congrArg ChannelState.providerCosign hchannel,
      congrArg (fun c => c.metadata.leafCount) hchannel⟩
  · rintro ⟨hcosign, hcount⟩
    show t.channel = { t.channel with
      metadata := { t.channel.metadata with leafCount := leafCount t.channel.tree }
      providerCosign := none }
    rw [← hcount, ← hcosign]

/-- The batch goes through exactly where the updates do one by one.  They leave the
same records with the compliance manager, and the same channel, in memory and in
the database, exactly where the two fields that the batch forgets were right. -/
theorem batch_agrees (env : Env) (s : Session) (updates : List LeafUpdate) (signerPubkey : Pubkey) :
    ((∃ s₁, Returns (applyLeafUpdateBatch env updates signerPubkey) s () s₁) ↔
      ∃ s₂, Returns (applyAll env signerPubkey updates) s () s₂) ∧
    ∀ s₁ s₂, Returns (applyLeafUpdateBatch env updates signerPubkey) s () s₁ →
      Returns (applyAll env signerPubkey updates) s () s₂ →
        s₁.compliance = s₂.compliance ∧
        (s₁.channel = s₂.channel ∧ s₁.db = s₂.db ↔
          updates = [] ∨ CountsRight s.channel updates) := by
  rcases eq_or_ne updates [] with rfl | hne
  · have hbatch : applyLeafUpdateBatch env [] signerPubkey = pure () := if_pos rfl
    have hfold : applyAll env signerPubkey [] = pure () := rfl
    rw [hbatch, hfold]
    refine ⟨Iff.rfl, fun s₁ s₂ h₁ h₂ => ?_⟩
    obtain rfl := (h₁.unique h₂).2
    simp
  · simp only [applyLeafUpdateBatch_returns hne, applyAll_returns hne]
    constructor
    · constructor
      · rintro ⟨_, t, ht, rfl⟩
        exact ⟨_, t, ht, rfl⟩
      · rintro ⟨_, t, ht, rfl⟩
        exact ⟨_, t, ht, rfl⟩
    · rintro _ _ ⟨t, ht, rfl⟩ ⟨t', ht', rfl⟩
      obtain rfl := (ht.unique ht').2
      refine ⟨rfl, ?_⟩
      constructor
      · rintro ⟨hchannel, -⟩
        exact .inr ((eq_finished_iff ht).mp hchannel)
      · rintro (hnil | hcounts)
        · exact absurd hnil hne
        · have hchannel := (eq_finished_iff ht).mpr hcounts
          refine ⟨hchannel, ?_⟩
          show t.db.persist t.channel = t.db.persist t.finished.channel
          rw [← hchannel]

/-- A batch of one payment on a new channel: the single update counts its leaf. -/
theorem batch_forgets_count : ∃ s s₁ s₂, Sample.opened 10 none = .ok s ∧
    Returns (applyLeafUpdateBatch Sample.env [Sample.payment] Sample.payer) s () s₁ ∧
    Returns (applyAll Sample.env Sample.payer [Sample.payment]) s () s₂ ∧
    s₁.channel.metadata.leafCount = 1 ∧ s₂.channel.metadata.leafCount = 2 ∧
    ¬ (s₁.channel = s₂.channel ∧ s₁.db = s₂.db) := by
  have htest : (Sample.opened 10 none).toOption.any fun s =>
      (applyLeafUpdateBatch Sample.env [Sample.payment] Sample.payer).passes s fun s₁ =>
        (applyAll Sample.env Sample.payer [Sample.payment]).passes s fun s₂ =>
          decide (s₁.channel.metadata.leafCount = 1 ∧ s₂.channel.metadata.leafCount = 2) := by
    decide +kernel
  obtain ⟨s, hs, htest⟩ := exists_of_any htest
  obtain ⟨_, s₁, h₁, htest⟩ := exists_of_passes htest
  obtain ⟨_, s₂, h₂, htest⟩ := exists_of_passes htest
  obtain ⟨hone, htwo⟩ := of_decide_eq_true htest
  refine ⟨s, s₁, s₂, hs, h₁, h₂, hone, htwo, fun heq => ?_⟩
  rw [heq.1, htwo] at hone
  exact absurd hone (by decide)

/-! ### Failed batches -/

section

variable {t : Session} {error : StateChannelError}

theorem valid_of_applyAllInternal (h : Returns (applyAllInternal env signerPubkey updates) s u s')
    (hvalid : s.channel.Valid env.sha) : s'.channel.Valid env.sha :=
  @forM_invariant _ _ _ _ _ (fun t => t.channel.Valid env.sha) _ _ _
    (fun _ _ _ _ ht hi => valid_of_internal hi ht) hvalid h

/-- The rollback puts the channel back, but not the records of the compliance manager. -/
theorem rolledBack_eq (hvalid : s.channel.Valid env.sha) (h : s.SameBut t) :
    t.rolledBack env s.channel = { s with compliance := t.compliance } := by
  obtain ⟨hdb, hchannel⟩ := h
  have hdepth : t.channel.metadata.treeDepth = s.channel.metadata.treeDepth := by rw [hchannel]
  rw [Session.rolledBack]
  simp only [hdepth, hvalid.new_eq, Option.getD_some]
  rw [hchannel, hdb]

theorem rollback_returns (hvalid : s.channel.Valid env.sha) (h : s.SameBut t) :
    Returns (onLocal (rollback env s.channel)) t u { s with compliance := t.compliance } := by
  obtain ⟨hdb, hchannel⟩ := h
  have hdepth : t.channel.metadata.treeDepth = s.channel.metadata.treeDepth := by rw [hchannel]
  rw [returns_onLocal]
  simp only [rollback, buildTree, returns_channel_bind, returns_orThrow_bind, returns_update_bind,
    hdepth, hvalid.new_eq, Option.some_inj]
  refine ⟨_, ⟨_, rfl, returns_modify.mpr rfl⟩, ?_⟩
  dsimp only
  rw [hchannel, hdb]

/-- A round of the batch on a channel that started as `s` and is now `t`. -/
theorem applyOrRollback_fails (hvalid : s.channel.Valid env.sha) (hnow : t.channel.Valid env.sha)
    (hsame : s.SameBut t)
    (h : Fails (applyOrRollback env s.channel signerPubkey update) t (.error error) s') :
    Fails (applyLeafUpdateInternal env update signerPubkey) t (.error error) t ∧
      s' = { s with compliance := t.compliance } := by
  rw [applyOrRollback, fails_handle] at h
  obtain ⟨e | _, t', hfails, h⟩ := h
  · obtain rfl := applyLeafUpdateInternal_fails hnow.isTree hfails
    have hback := @rollback_returns env s () t' hvalid hsame
    rcases fails_bind.mp h with h | ⟨_, t₁, h₁, h⟩
    · exact absurd h hback.not_fails
    · obtain ⟨-, rfl⟩ := hback.unique h₁
      obtain ⟨heq, rfl⟩ := fails_throw.mp h
      rw [Failure.error.injEq] at heq
      exact ⟨heq ▸ hfails, rfl⟩
  · exact absurd (fails_throw.mp h).1 (by simp)

theorem applyOrReport_fails (hvalid : s.channel.Valid env.sha) (hnow : t.channel.Valid env.sha)
    (hsame : s.SameBut t) {i : ℕ} {info : BatchFailureInfo}
    (h : Fails (applyOrReport env s.channel signerPubkey (update, i)) t (.info info) s') :
    Fails (applyLeafUpdateInternal env update signerPubkey) t (.error info.error) t ∧
      info.failedIndex = i ∧ info.appliedCount = i ∧
      s' = { s with compliance := t.compliance } := by
  rw [applyOrReport, fails_handle] at h
  obtain ⟨e | _, t', hfails, h⟩ := h
  · obtain rfl := applyLeafUpdateInternal_fails hnow.isTree hfails
    have hthrow : Fails (throw (.info ⟨i, e, i⟩) : Method Session BatchFailure Unit)
      (t'.rolledBack env s.channel) (.info info) s' := fails_modify_bind.mp h
    obtain ⟨heq, rfl⟩ := fails_throw.mp hthrow
    obtain rfl := BatchFailure.info.inj heq
    exact ⟨hfails, rfl, rfl, rolledBack_eq hvalid hsame⟩
  · exact absurd (fails_throw.mp h).1 (by simp)

/-- The updates `before` go through from `s` to `t`, where `update` is rejected. -/
structure Stops (env : Env) (signerPubkey : Pubkey) (s : Session) (before : List LeafUpdate)
    (update : LeafUpdate) (error : StateChannelError) (t : Session) : Prop where
  applied : Returns (applyAllInternal env signerPubkey before) s () t
  rejected : Fails (applyLeafUpdateInternal env update signerPubkey) t (.error error) t

theorem applyLeafUpdateBatch_fails (hvalid : s.channel.Valid env.sha)
    (h : Fails (applyLeafUpdateBatch env updates signerPubkey) s (.error error) s') :
    ∃ before update after t, updates = before ++ update :: after ∧
      Stops env signerPubkey s before update error t ∧ s' = { s with compliance := t.compliance } := by
  rw [applyLeafUpdateBatch] at h
  split at h
  · exact absurd h fails_pure
  rw [fails_get_bind, fails_bind] at h
  rcases h with h | ⟨_, t, -, h⟩
  · obtain ⟨before, update, after, t, hsplit, hbefore, h⟩ := fails_forM.mp h
    have happlied : Returns (applyAllInternal env signerPubkey before) s () t := by
      have hcongr := @returns_forM_congr _ _ _ _ (applyOrRollback env s.channel signerPubkey) _
        (fun update => applyLeafUpdateInternal env update signerPubkey) id
        (fun _ _ _ => applyOrRollback_returns) before s t ()
      rw [List.map_id] at hcongr
      exact hcongr.mp hbefore
    obtain ⟨hrejected, rfl⟩ := applyOrRollback_fails hvalid
      (valid_of_applyAllInternal happlied hvalid) (sameBut_of_applyAllInternal happlied) h
    exact ⟨before, update, after, t, hsplit, ⟨happlied, hrejected⟩, rfl⟩
  · obtain ⟨l, h, -⟩ := fails_onLocal.mp h
    exact absurd h fails_modify

theorem applyLeafUpdateBatchWithInfo_fails (hvalid : s.channel.Valid env.sha)
    {info : BatchFailureInfo}
    (h : Fails (applyLeafUpdateBatchWithInfo env updates signerPubkey) s (.info info) s') :
    ∃ before update after t, updates = before ++ update :: after ∧
      Stops env signerPubkey s before update info.error t ∧ info.failedIndex = before.length ∧
      info.appliedCount = before.length ∧ s' = { s with compliance := t.compliance } := by
  rw [applyLeafUpdateBatchWithInfo] at h
  split at h
  · exact absurd h fails_pure
  rw [fails_get_bind, fails_bind] at h
  rcases h with h | ⟨_, t, -, h⟩
  · obtain ⟨before', ⟨update, i⟩, after', t, hsplit, hbefore, h⟩ := fails_forM.mp h
    -- The index that comes with an update is the number of updates before it.
    obtain ⟨before, rest, rfl, rfl, hrest⟩ := List.zipIdx_eq_append_iff.mp hsplit
    obtain ⟨_, after, rfl, hupdate, -⟩ := List.zipIdx_eq_cons_iff.mp hrest.symm
    obtain ⟨rfl, rfl⟩ := Prod.mk.inj hupdate
    have happlied : Returns (applyAllInternal env signerPubkey before) s () t :=
      forM_applyOrReport_returns.mp hbefore
    obtain ⟨hrejected, hindex, hcount, rfl⟩ := applyOrReport_fails hvalid
      (valid_of_applyAllInternal happlied hvalid) (sameBut_of_applyAllInternal happlied) h
    rw [Nat.zero_add] at hindex hcount
    exact ⟨before, _, after, t, rfl, ⟨happlied, hrejected⟩, hindex, hcount, rfl⟩
  · exact absurd h fails_modify

/-- An update that is rejected without finishing those before it is rejected with. -/
theorem Stops.fails {before : List LeafUpdate} (h : Stops env signerPubkey s before update error t) :
    ∃ t₁ t₂, Returns (applyAll env signerPubkey before) s () t₁ ∧
      Fails (applyLeafUpdate env update signerPubkey) t₁ (.error error) t₂ := by
  simp only [applyLeafUpdate_fails]
  rcases eq_or_ne before [] with rfl | hne
  · obtain rfl := returns_forM_nil.mp h.applied
    exact ⟨s, s, returns_forM_nil.mpr rfl, h.rejected⟩
  · have hfinished : t.finished = t.withRest t.finished.rest := rfl
    refine ⟨t.finished, t.finished, (applyAll_returns hne).mpr ⟨t, h.applied, rfl⟩, ?_⟩
    rw [hfinished]
    exact (internal_commutes _).fails.mpr ⟨t, h.rejected, rfl⟩

/-! What the compliance manager keeps. -/

/-- The compliance record of the channel. -/
def Session.complianceRecord (s : Session) : Option ChannelComplianceState :=
  s.compliance.bind fun cm => cm.lookup s.channel.metadata.channelId

def Session.progress (s : Session) : ℕ :=
  s.complianceRecord.elim 0 ChannelComplianceState.progress

/-- Nothing of the updates is recorded: no manager is attached, or none of them pays. -/
def RecordsNothing (s : Session) (updates : List LeafUpdate) : Prop :=
  s.compliance = none ∨ ∀ update ∈ updates, ¬ update.IsPayment

theorem progress_of_internal (h : Returns (applyLeafUpdateInternal env update signerPubkey) s u s') :
    (RecordsNothing s [update] ∧ s'.compliance = s.compliance ∧ s'.progress = s.progress) ∨
      (¬ RecordsNothing s [update] ∧ s'.compliance ≠ none ∧ s.progress < s'.progress) := by
  obtain ⟨-, compliance, tree, hrecorded, -, rfl⟩ := applyLeafUpdateInternal_returns.mp h
  rcases hrecorded with ⟨hnone, rfl⟩ | ⟨cm, state, hcm, hpays, ⟨hstate, hhold, -⟩, rfl⟩
  · refine .inl ⟨?_, rfl, rfl⟩
    simpa [RecordsNothing] using hnone
  · refine .inr ⟨?_, by simp, ?_⟩
    · simp [RecordsNothing, hcm, hpays]
    · have hbefore : s.complianceRecord = some state := by
        rw [Session.complianceRecord, hcm]
        exact hstate
      rw [Session.progress, hbefore, Session.progress, Session.complianceRecord]
      simp only [Option.bind_some, ChannelState.written, AList.lookup_insert, Option.elim_some]
      exact progress_lt_of_paid hhold hpays.1

theorem progress_of_applyAllInternal
    (h : Returns (applyAllInternal env signerPubkey updates) s u t) :
    (RecordsNothing s updates ∧ t.compliance = s.compliance ∧ t.progress = s.progress) ∨
      (¬ RecordsNothing s updates ∧ s.progress < t.progress) := by
  unfold applyAllInternal at h
  induction updates generalizing s with
  | nil =>
    obtain rfl := returns_forM_nil.mp h
    exact .inl ⟨.inr (by simp), rfl, rfl⟩
  | cons update updates ih =>
    obtain ⟨s₁, h₁, h⟩ := returns_forM_cons.mp h
    have hcons : RecordsNothing s (update :: updates) ↔
        RecordsNothing s [update] ∧ RecordsNothing s updates := by
      simp only [RecordsNothing, List.forall_mem_cons, List.mem_singleton, forall_eq]
      exact or_and_left
    rcases progress_of_internal h₁ with ⟨hnone, hcm, hsame⟩ | ⟨hsome, hattached, hless⟩
    · have hrest : RecordsNothing s₁ updates ↔ RecordsNothing s updates := by
        rw [RecordsNothing, hcm, RecordsNothing]
      rcases ih h with ⟨hnone', hcm', hsame'⟩ | ⟨hsome', hless'⟩
      · exact .inl ⟨hcons.mpr ⟨hnone, hrest.mp hnone'⟩, hcm'.trans hcm, hsame'.trans hsame⟩
      · exact .inr ⟨fun hall => hsome' (hrest.mpr (hcons.mp hall).2), hsame ▸ hless'⟩
    · refine .inr ⟨fun hall => hsome (hcons.mp hall).1, ?_⟩
      rcases ih h with ⟨-, -, hsame'⟩ | ⟨-, hless'⟩
      · exact hsame' ▸ hless
      · exact hless.trans hless'

/-- The channel, its records in the database and its compliance record are what they were. -/
def Unchanged (s s' : Session) : Prop :=
  s'.channel = s.channel ∧ s'.db = s.db ∧ s'.complianceRecord = s.complianceRecord

theorem unchanged_iff {before : List LeafUpdate} (h : Stops env signerPubkey s before update error t) :
    Unchanged s { s with compliance := t.compliance } ↔ RecordsNothing s before := by
  rw [Unchanged, and_iff_right rfl, and_iff_right rfl]
  have hid : t.channel.metadata.channelId = s.channel.metadata.channelId := by
    rw [(sameBut_of_applyAllInternal h.applied).2]
  have hrecord : ({ s with compliance := t.compliance } : Session).complianceRecord
      = t.complianceRecord := by
    rw [Session.complianceRecord, Session.complianceRecord, hid]
  rw [hrecord]
  rcases progress_of_applyAllInternal h.applied with ⟨hnone, hcm, -⟩ | ⟨hsome, hless⟩
  · refine iff_of_true ?_ hnone
    rw [Session.complianceRecord, Session.complianceRecord, hid, hcm]
  · refine iff_of_false (fun heq => ?_) hsome
    rw [Session.progress, Session.progress, heq] at hless
    exact lt_irrefl _ hless

/-- `update` is the first of the updates that is rejected by itself, once those
before it are applied one by one. -/
def FirstRejected (env : Env) (signerPubkey : Pubkey) (s : Session) (before : List LeafUpdate)
    (update : LeafUpdate) (error : StateChannelError) : Prop :=
  ∃ t₁ t₂, Returns (applyAll env signerPubkey before) s () t₁ ∧
    Fails (applyLeafUpdate env update signerPubkey) t₁ (.error error) t₂

/-- A batch fails with the error of the first update that is rejected, at the
position it reports, and leaves everything as it was exactly where nothing before
that update is recorded. -/
theorem failed_batch (env : Env) (s : Session) (hvalid : s.channel.Valid env.sha)
    (updates : List LeafUpdate) (signerPubkey : Pubkey) (s' : Session) :
    (∀ error, Fails (applyLeafUpdateBatch env updates signerPubkey) s (.error error) s' →
      ∃ before update after, updates = before ++ update :: after ∧
        FirstRejected env signerPubkey s before update error ∧
        (Unchanged s s' ↔ RecordsNothing s before)) ∧
    (∀ info, Fails (applyLeafUpdateBatchWithInfo env updates signerPubkey) s (.info info) s' →
      ∃ before update after, updates = before ++ update :: after ∧
        FirstRejected env signerPubkey s before update info.error ∧
        info.failedIndex = before.length ∧ info.appliedCount = before.length ∧
        (Unchanged s s' ↔ RecordsNothing s before)) := by
  constructor
  · intro error h
    obtain ⟨before, update, after, t, hsplit, hstops, rfl⟩ := applyLeafUpdateBatch_fails hvalid h
    exact ⟨before, update, after, hsplit, hstops.fails, unchanged_iff hstops⟩
  · intro info h
    obtain ⟨before, update, after, t, hsplit, hstops, hindex, hcount, rfl⟩ :=
      applyLeafUpdateBatchWithInfo_fails hvalid h
    exact ⟨before, update, after, hsplit, hstops.fails, hindex, hcount, unchanged_iff hstops⟩

/-- The records of a compliance manager that lets single payments up to 50 pass. -/
def Sample.records : ComplianceDb :=
  (∅ : ComplianceDb).insert channelId ⟨channelId, 0, 0, false, ⟨100, 50, 0⟩, [], []⟩

/-- A batch with the same payment twice: the second has no new sequence, and
the first stays recorded. -/
theorem failed_batch_records : ∃ s s' error, Sample.opened 10 (some Sample.records) = .ok s ∧
    Fails (applyLeafUpdateBatch Sample.env [Sample.payment, Sample.payment] Sample.payer) s
      (.error error) s' ∧
    s'.complianceRecord ≠ s.complianceRecord := by
  have htest : (Sample.opened 10 (some Sample.records)).toOption.any fun s =>
      (applyLeafUpdateBatch Sample.env [Sample.payment, Sample.payment] Sample.payer).stops s
        fun e s' => decide (e ≠ .panic ∧ s'.complianceRecord ≠ s.complianceRecord) := by
    decide +kernel
  obtain ⟨s, hs, htest⟩ := exists_of_any htest
  obtain ⟨e, s', hfails, htest⟩ := exists_of_stops htest
  obtain ⟨herror, hrecord⟩ := of_decide_eq_true htest
  cases e with
  | error error => exact ⟨s, s', error, hs, hfails, hrecord⟩
  | panic => exact absurd rfl herror

theorem failed_batch_payment : ∃ s s' error, Sample.opened 10 (some Sample.records) = .ok s ∧
    Fails (applyLeafUpdateBatch Sample.env [Sample.payment, Sample.payment] Sample.payer) s
      (.error error) s' ∧
    ∃ before update after, [Sample.payment, Sample.payment] = before ++ update :: after ∧
      FirstRejected Sample.env Sample.payer s before update error ∧
      (Unchanged s s' ↔ RecordsNothing s before) := by
  have htest : (Sample.opened 10 (some Sample.records)).toOption.any fun s =>
      (applyLeafUpdateBatch Sample.env [Sample.payment, Sample.payment] Sample.payer).stops s
        fun e _ => decide (e ≠ .panic) := by
    decide +kernel
  obtain ⟨s, hs, htest⟩ := exists_of_any htest
  obtain ⟨e, s', hfails, htest⟩ := exists_of_stops htest
  have hvalid := valid_of_openChannel (Sample.openChannel_of_opened hs)
  cases e with
  | error error =>
    exact ⟨s, s', error, hs, hfails, (failed_batch Sample.env s hvalid _ _ s').1 error hfails⟩
  | panic => exact absurd rfl (of_decide_eq_true htest)

end

end StateChannel
