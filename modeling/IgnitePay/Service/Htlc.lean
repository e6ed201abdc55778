/-
HTLCs that are put into a channel: by the service (`create_htlc` of `htlc.rs`), in a
pipeline, and for a hop of a payment over several channels.

Only the pipeline compares the timelock with the challenge period, and only the
pipeline takes owner and amount from the leaf that it replaces.

* `safeHtlc_iff` — when it is safe to wait for an HTLC;
* `createHtlc_returns` — what the handler checks, and the update that it signs;
* `htlc_safe_iff` — when the HTLCs of the three ways are safe.
-/
import IgnitePay.Service.Payment
import IgnitePay.StateChannel.HtlcManager
import IgnitePay.StateChannel.MultiHop

namespace Service

open Bytes Machine Solana StateChannel

/-! ### An HTLC that is safe to wait for -/

/-- A dispute from slot `start` can end while the lock can still be opened. -/
def EndsInTime (challengeDuration start timelock : UInt64) : Prop :=
  ∃ slot : UInt64, start.toNat + challengeDuration.toNat < slot.toNat ∧ slot ≤ timelock

/-- The HTLC `newLeaf`, put in slot `now` in the place of `prevLeaf`. -/
structure SafeHtlc (challengeDuration now : UInt64) (prevLeaf newLeaf : UTXOLeaf) : Prop where
  owner_eq : newLeaf.owner = prevLeaf.owner
  amount_eq : newLeaf.amount = prevLeaf.amount
  later : ∃ timelock, newLeaf.timelockSlot = some timelock ∧
    now.toNat + challengeDuration.toNat + htlcSafetyMargin.toNat < timelock.toNat
  ends : ∀ timelock, newLeaf.timelockSlot = some timelock → ∀ start, now < start →
    start.toNat + htlcSafetyMargin.toNat < timelock.toNat →
      EndsInTime challengeDuration start timelock

section

variable {challengeDuration now start timelock : UInt64}

theorem endsInTime_iff :
    EndsInTime challengeDuration start timelock ↔
      start.toNat + challengeDuration.toNat < timelock.toNat := by
  constructor
  · rintro ⟨slot, hlater, hle⟩
    exact hlater.trans_le (UInt64.le_iff_toNat_le.mp hle)
  · intro h
    exact ⟨timelock, h, UInt64.le_refl timelock⟩

/-- What it means of the manager: `settle_after_timeout` ends the dispute in a slot that is not past
the lock. -/
theorem settles_iff {env : Env} {l : Local} (hstatus : l.channel.metadata.status = .challenged)
    (hstart : l.channel.metadata.challengeSlot = some start)
    (hfits : start.toNat + l.channel.metadata.challengeDuration.toNat < 2 ^ 64) :
    (∃ slot l', slot ≤ timelock ∧ Returns (settleAfterTimeout env slot 0) l () l') ↔
      EndsInTime l.channel.metadata.challengeDuration start timelock := by
  have hsum := toNat_add_of_lt hfits
  have hend : addU64 env.overflowChecks start l.channel.metadata.challengeDuration
      = some (start + l.channel.metadata.challengeDuration) := addU64_eq_some hsum
  constructor
  · rintro ⟨slot, l', hle, h⟩
    obtain ⟨-, ⟨challengeSlot, challengeEnd, hslot, hchallengeEnd, hpast⟩, -⟩ :=
      settleAfterTimeout_returns.mp h
    obtain rfl := Option.some_inj.mp (hstart.symm.trans hslot)
    obtain rfl := Option.some_inj.mp (hend.symm.trans hchallengeEnd)
    refine ⟨slot, ?_, hle⟩
    rw [← hsum]
    exact UInt64.lt_iff_toNat_lt.mp (UInt64.not_le.mp hpast)
  · rintro ⟨slot, hlater, hle⟩
    have hpast : ¬ slot ≤ start + l.channel.metadata.challengeDuration := by
      rw [← hsum] at hlater
      exact UInt64.not_le.mpr (UInt64.lt_iff_toNat_lt.mpr hlater)
    have hwindow : addU64 env.overflowChecks slot 0 = some slot := addU64_eq_some (by simp)
    exact ⟨slot, _, hle, settleAfterTimeout_returns.mpr
      ⟨hstatus, ⟨start, _, hstart, hend, hpast⟩, slot, hwindow, rfl⟩⟩

/-- The last dispute that is asked for starts just before the margin; it ends in time if the challenge
period is not longer than the margin. -/
theorem safeHtlc_iff {owner beneficiary : Pubkey} {amount : UInt64} {hashLock : Bytes 32}
    {prevLeaf : UTXOLeaf} :
    SafeHtlc challengeDuration now prevLeaf (.htlc owner amount hashLock timelock beneficiary) ↔
      now.toNat + challengeDuration.toNat + htlcSafetyMargin.toNat < timelock.toNat ∧
        challengeDuration ≤ htlcSafetyMargin ∧ owner = prevLeaf.owner ∧ amount = prevLeaf.amount := by
  constructor
  · rintro ⟨howner, hamount, ⟨_, htimelock, hlater⟩, hends⟩
    obtain rfl := Option.some_inj.mp htimelock
    refine ⟨hlater, ?_, howner, hamount⟩
    by_contra hlong
    have hlong := UInt64.lt_iff_toNat_lt.mp (UInt64.not_le.mp hlong)
    have hbound := timelock.toNat_lt
    let start := UInt64.ofNat (timelock.toNat - htlcSafetyMargin.toNat - 1)
    have hstart : start.toNat = timelock.toNat - htlcSafetyMargin.toNat - 1 :=
      UInt64.toNat_ofNat_of_lt' (by show _ < 2 ^ 64; omega)
    have hnow : now < start := UInt64.lt_iff_toNat_lt.mpr (by omega)
    have hend := endsInTime_iff.mp (hends timelock rfl start hnow (by omega))
    omega
  · rintro ⟨hlater, hshort, howner, hamount⟩
    refine ⟨howner, hamount, ⟨timelock, rfl, hlater⟩, ?_⟩
    intro _ htimelock start _ hstart
    obtain rfl := Option.some_inj.mp htimelock
    have hshort := UInt64.le_iff_toNat_le.mp hshort
    exact endsInTime_iff.mpr (by omega)

end

/-! ### The handler -/

structure CreateHtlcRequest where
  amount : UInt64
  leafIndex : Option UInt32
  beneficiary : Pubkey
  durationSlots : Option UInt64
deriving DecidableEq

/-- What `create_htlc` answers. -/
structure CreateHtlcResponse where
  channelId : Bytes 32
  leafIndex : ℕ
  hashLock : Bytes 32
  preimage : Bytes 32
  timelockSlot : UInt64
  amount : UInt64
  sequence : UInt64
deriving DecidableEq

namespace CreateHtlcRequest

variable (req : CreateHtlcRequest)

/-- The leaf that is asked for, or the first that is free. -/
def index (tree : MerkleTree) : Option ℕ :=
  match req.leafIndex with
  | some i => some i.toNat
  | none => tree.availableSlots.head?

/-- The duration that is asked for, or the challenge duration of the configuration. -/
def duration (app : AppState) : UInt64 := req.durationSlots.getD app.defaultChallengeDuration

end CreateHtlcRequest

section

variable (env : Env) (app : AppState) (channelId : Bytes 32)

/-- `HtlcManager::create_htlc`, of a manager that the handler makes for it and drops. -/
def newHtlc (random : Bytes 32) (n : NewHtlc) : Handler (Bytes 32 × Bytes 32) :=
  ((HtlcManager.createHtlc env.sha random n).on (fun _ => HtlcManager.new) fun db _ => db).handle
    fun e => throw (.error (.stateChannel e))

/-- `create_htlc`, with the preimage that is made up for it. -/
def createHtlc (random : Bytes 32) (req : CreateHtlcRequest) : Handler CreateHtlcResponse := do
  let currentSlot ← currentSlot app
  let channelState ← loadState env channelId
  let leafIndex ← orThrow (req.index channelState.tree) .panic
  let prevLeaf ← orThrow (channelState.tree.getLeaf leafIndex)
    (.badRequest "leaf_index out of bounds")
  let duration := req.duration app
  let timelockSlot ← orThrow (addU64 env.overflowChecks currentSlot duration) .panic
  let (hashLock, preimage) ← newHtlc env random
    ⟨req.amount, leafIndex, app.pubkey, req.beneficiary, currentSlot, duration⟩
  let newLeaf := .htlc app.pubkey req.amount hashLock timelockSlot req.beneficiary
  let newSequence ← orThrow (addU64 env.overflowChecks channelState.metadata.sequence 1) .panic
  let update := signLeafUpdate env channelId newSequence (UInt32.ofNat leafIndex) prevLeaf newLeaf
    app.keypair
  let (_, s) ← onManager channelState (applyLeafUpdate env update app.pubkey)
  return ⟨channelId, leafIndex, hashLock, preimage, timelockSlot, req.amount,
    s.channel.metadata.sequence⟩

end

/-! ### What is put into the tree -/

/-- `t'` is `t` with one leaf in the place of another. -/
structure Replaces (t t' : MerkleTree) (index : ℕ) (prevLeaf newLeaf : UTXOLeaf) : Prop where
  prev_eq : t.getLeaf index = some prevLeaf
  leaves_eq : t'.leaves = t.leaves.set index newLeaf

section

variable {env : Env} {app : AppState} {channelId random : Bytes 32} {req : CreateHtlcRequest}
  {db db' : Db} {update : LeafUpdate} {signerPubkey : Pubkey} {s s' : Session} {u : Unit}

theorem returns_newHtlc_bind {n : NewHtlc} {β : Type} {f : Bytes 32 × Bytes 32 → Handler β} {b : β} :
    Returns (newHtlc env random n >>= f) db b db' ↔
      Returns (f (env.sha random.val, random)) db b db' := by
  have hcreate : ∀ r db₁, Returns (newHtlc env random n) db r db₁ ↔
      (env.sha random.val, random) = r ∧ db = db₁ := by
    intro r db₁
    rw [newHtlc, returns_handle]
    simp only [returns_on, HtlcManager.createHtlc, returns_modify_bind, returns_pure]
    constructor
    · rintro (⟨_, ⟨hr, -⟩, hdb⟩ | ⟨e, _, -, h⟩)
      · exact ⟨hr, hdb⟩
      · exact absurd h returns_throw
    · rintro ⟨hr, hdb⟩
      exact .inl ⟨_, ⟨hr, rfl⟩, hdb⟩
  rw [returns_bind]
  constructor
  · rintro ⟨r, db₁, h, hf⟩
    obtain ⟨rfl, rfl⟩ := (hcreate _ _).mp h
    exact hf
  · intro hf
    exact ⟨_, _, (hcreate _ _).mpr ⟨rfl, rfl⟩, hf⟩

/-- The update that the handler signs. -/
def htlcUpdate (env : Env) (app : AppState) (channelId random : Bytes 32) (req : CreateHtlcRequest)
    (index : ℕ) (prevLeaf : UTXOLeaf) (timelockSlot newSequence : UInt64) : LeafUpdate :=
  signLeafUpdate env channelId newSequence (UInt32.ofNat index) prevLeaf
    (.htlc app.pubkey req.amount (env.sha random.val) timelockSlot req.beneficiary) app.keypair

theorem createHtlc_returns {r : CreateHtlcResponse} :
    Returns (createHtlc env app channelId random req) db r db' ↔
      ∃ now c index prevLeaf timelockSlot newSequence s, app.getSlot = .ok now ∧
        db.load env.sha channelId = .ok c ∧ req.index c.tree = some index ∧
        c.tree.getLeaf index = some prevLeaf ∧
        addU64 env.overflowChecks now (req.duration app) = some timelockSlot ∧
        addU64 env.overflowChecks c.metadata.sequence 1 = some newSequence ∧
        Returns (applyLeafUpdate env
          (htlcUpdate env app channelId random req index prevLeaf timelockSlot newSequence) app.pubkey)
          (session c db) () s ∧
        r = ⟨channelId, index, env.sha random.val, random, timelockSlot, req.amount,
          s.channel.metadata.sequence⟩ ∧ s.db = db' := by
  simp only [createHtlc, returns_currentSlot_bind, returns_loadState_bind, returns_orThrow_bind,
    returns_newHtlc_bind, returns_onManager_bind, returns_pure]
  constructor
  · rintro ⟨now, hnow, c, hload, index, hindex, prevLeaf, hprev, timelock, htimelock, sequence, hseq,
      _, s, hs, rfl, hdb⟩
    exact ⟨now, c, index, prevLeaf, timelock, sequence, s, hnow, hload, hindex, hprev, htimelock, hseq,
      hs, rfl, hdb⟩
  · rintro ⟨now, c, index, prevLeaf, timelock, sequence, s, hnow, hload, hindex, hprev, htimelock, hseq,
      hs, rfl, hdb⟩
    exact ⟨now, hnow, c, hload, index, hindex, prevLeaf, hprev, timelock, htimelock, sequence, hseq,
      (), s, hs, rfl, hdb⟩

/-- An update that was applied has put its leaf in the place of what was there. -/
theorem replaces_of_applied (h : Returns (applyLeafUpdate env update signerPubkey) s u s')
    {prevLeaf : UTXOLeaf} (hprev : s.channel.tree.getLeaf update.leafIndex.toNat = some prevLeaf) :
    Replaces s.channel.tree s'.channel.tree update.leafIndex.toNat prevLeaf update.newLeaf := by
  obtain ⟨s₁, h₁, rfl⟩ := applyLeafUpdate_returns.mp h
  obtain ⟨-, compliance, tree, -, hwrites, rfl⟩ := applyLeafUpdateInternal_returns.mp h₁
  exact ⟨hprev, leaves_updateLeaf hwrites.2⟩

/-- On a stored channel there was a leaf, and the new tree is stored. -/
theorem exists_replaces {c : ChannelState} (hvalid : c.Valid env.sha)
    (h : Returns (applyLeafUpdate env update signerPubkey) (session c db) u s) :
    ∃ prevLeaf c', Replaces c.tree c'.tree update.leafIndex.toNat prevLeaf update.newLeaf ∧
      s.db = db.persist c' := by
  have happlied := h
  obtain ⟨s₁, h₁, rfl⟩ := applyLeafUpdate_returns.mp h
  obtain ⟨haccepts, compliance, tree, -, hwrites, rfl⟩ := applyLeafUpdateInternal_returns.mp h₁
  obtain ⟨prevLeaf, hprev, -⟩ := hvalid.isTree.exists_getLeaf haccepts.prevLeafHash_eq
  exact ⟨prevLeaf, _, replaces_of_applied happlied hprev, rfl⟩

/-! ### When it is safe -/

/-- The sum that the pipeline compares with, if the timelock is above it, has not been cut off. -/
theorem lt_of_not_le_saturatingAdd {a b margin timelock : UInt64}
    (h : ¬ timelock ≤ saturatingAdd (saturatingAdd a b) margin) :
    a.toNat + b.toNat + margin.toNat < timelock.toNat := by
  have hlt := UInt64.lt_iff_toNat_lt.mp (UInt64.not_le.mp h)
  rw [toNat_saturatingAdd, toNat_saturatingAdd] at hlt
  have hbound := timelock.toNat_lt
  omega

/-- A timelock that was computed from a duration is late enough if the duration is long enough, and
the sum is one. -/
theorem later_of_duration {oc : Bool} {challengeDuration now duration timelock : UInt64}
    (h : addU64 oc now duration = some timelock) :
    now.toNat + challengeDuration.toNat + htlcSafetyMargin.toNat < timelock.toNat ↔
      challengeDuration.toNat + htlcSafetyMargin.toNat < duration.toNat ∧
        now.toNat + duration.toNat < 2 ^ 64 := by
  by_cases hfits : now.toNat + duration.toNat < 2 ^ 64
  · have htimelock := toNat_of_addU64 h (.inr hfits)
    omega
  · -- A sum that wraps around is below the slot.
    have hwrapped : timelock.toNat < now.toNat := by
      have hnow := now.toNat_lt
      have hduration := duration.toNat_lt
      cases oc with
      | true =>
        have htimelock := toNat_of_addU64 h (.inl rfl)
        have hbound := timelock.toNat_lt
        omega
      | false =>
        obtain rfl := Option.some_inj.mp h
        rw [UInt64.toNat_add]
        omega
    omega

end

/-- An HTLC of the handler is safe exactly if its duration is longer than the challenge period and the
margin, the sum does not wrap around, the period is not longer than the margin, and the leaf was the
service's, of that amount.  In a pipeline owner and amount are those of the leaf, and the timelock is
late enough for the slot and the challenge duration that it is given.  For a hop all is as the hop
has it. -/
theorem htlc_safe_iff (env : Env) (app : AppState) :
    (∀ channelId random req db r db',
      Returns (createHtlc env app channelId random req) db r db' →
        ∃ now c c' prevLeaf newLeaf, app.getSlot = .ok now ∧
          db.load env.sha channelId = .ok c ∧ db' = db.persist c' ∧
          Replaces c.tree c'.tree (UInt32.ofNat r.leafIndex).toNat prevLeaf newLeaf ∧
          newLeaf.leafType = .htlc ∧
          (SafeHtlc c.metadata.challengeDuration now prevLeaf newLeaf ↔
            c.metadata.challengeDuration.toNat + htlcSafetyMargin.toNat < (req.duration app).toNat ∧
              now.toNat + (req.duration app).toNat < 2 ^ 64 ∧
              c.metadata.challengeDuration ≤ htlcSafetyMargin ∧
              app.pubkey = prevLeaf.owner ∧ req.amount = prevLeaf.amount)) ∧
    (∀ index hashLock timelockSlot beneficiary currentSlot challengeDuration p u p',
      Returns (Pipeline.createHtlc env index hashLock timelockSlot beneficiary currentSlot
          challengeDuration) p u p' →
        ∃ prevLeaf newLeaf, Replaces p.tree p'.tree index prevLeaf newLeaf ∧
          newLeaf.leafType = .htlc ∧
          (∀ duration now, SafeHtlc duration now prevLeaf newLeaf ↔
            now.toNat + duration.toNat + htlcSafetyMargin.toNat < timelockSlot.toNat ∧
              duration ≤ htlcSafetyMargin) ∧
          (SafeHtlc challengeDuration currentSlot prevLeaf newLeaf ↔
            challengeDuration ≤ htlcSafetyMargin)) ∧
    ∀ hop sequence signedLeaf signer signerPubkey s u s' prevLeaf,
      Returns (applyLeafUpdate env
          (MultiHopManager.createHtlcLeafUpdate env hop sequence signedLeaf signer) signerPubkey)
          s u s' →
      s.channel.tree.getLeaf (UInt32.ofNat hop.leafIndex).toNat = some prevLeaf →
        ∃ newLeaf,
          Replaces s.channel.tree s'.channel.tree (UInt32.ofNat hop.leafIndex).toNat prevLeaf newLeaf ∧
          newLeaf.leafType = .htlc ∧
          ∀ now, SafeHtlc s.channel.metadata.challengeDuration now prevLeaf newLeaf ↔
            now.toNat + s.channel.metadata.challengeDuration.toNat + htlcSafetyMargin.toNat
                < hop.timelockSlot.toNat ∧
              s.channel.metadata.challengeDuration ≤ htlcSafetyMargin ∧
              hop.owner = prevLeaf.owner ∧ hop.amount = prevLeaf.amount := by
  refine ⟨?_, ?_, ?_⟩
  · intro channelId random req db r db' h
    obtain ⟨now, c, index, signedLeaf, timelock, sequence, s, hnow, hload, -, -, htimelock, -, happlied,
      rfl, rfl⟩ := createHtlc_returns.mp h
    obtain ⟨prevLeaf, c', hreplaces, hdb⟩ := exists_replaces (valid_of_load hload) happlied
    refine ⟨now, c, c', prevLeaf, _, hnow, hload, hdb, hreplaces, rfl, safeHtlc_iff.trans ?_⟩
    rw [later_of_duration htimelock, and_assoc]
  · intro index hashLock timelock beneficiary currentSlot challengeDuration p u p' h
    obtain ⟨ws, hdoes, hrecords⟩ := (@Move.returns_iff env p p' u
      (.createHtlc index hashLock timelock beneficiary currentSlot challengeDuration)).mp h
    cases hdoes with
    | @createHtlc _ _ _ _ _ _ prevLeaf hleaf hfilled hlater =>
      obtain ⟨tree, hput, rfl⟩ := hrecords
      have hsafe : ∀ duration now, SafeHtlc duration now prevLeaf
          (.htlc prevLeaf.owner prevLeaf.amount hashLock timelock beneficiary) ↔
            now.toNat + duration.toNat + htlcSafetyMargin.toNat < timelock.toNat ∧
              duration ≤ htlcSafetyMargin := by
        intro duration now
        rw [safeHtlc_iff]
        simp only [and_true]
      refine ⟨prevLeaf, _, ⟨hleaf, hput.leaves_eq⟩, rfl, hsafe, ?_⟩
      rw [hsafe]
      exact and_iff_right (lt_of_not_le_saturatingAdd hlater)
  · intro hop sequence signedLeaf signer signerPubkey s u s' prevLeaf h hprev
    exact ⟨_, replaces_of_applied h hprev, rfl, fun now => safeHtlc_iff⟩

/-! ### One that is not safe, and one that is, three times -/

namespace Sample

open StateChannel.Sample

/-- The payer's updates: 6 in the free leaf until slot 5005, and its whole deposit until 2005. -/
def locking : List ((Pubkey × Bytes 32) × Bytes 64) := [
  ((payer, number 0xe7fd8f35c9ba0fb842c4a5e2de7aae38939dea97bb01cfbf495cb082fd7f581d),
    signature 0xc0273bc3bcb75f0f53ac4521d286026bb1b9f48da6aa7abb2a21a4f1e1fecf45
      0x0e74d8fc1ec4d33365c4ea2e015f5d54492301e366fc956550fd1c04b145a8ec),
  ((payer, number 0x1fe24a5d6982b386687100bceecbbb42a1551787201c67b4b2af891bddc0cb35),
    signature 0xfcc4b741994fae54b1363884d6859791fd2004ecb4bf5ca5fbc73a1a91600724
      0x0af4b8cfbc0a3138a661863167c9feea9abb35b4e080ddd66d0952024c45c614)]

/-- A channel with a challenge duration. -/
def lockArgs (challengeDuration : UInt64) : OpenArgs := { openArgs 10 with challengeDuration }

/-- The payer's service, with the challenge duration of the configuration that comes with it. -/
def lockApp : AppState := { appOf (payerWith locking) with defaultChallengeDuration := 5000 }

/-- An HTLC over 6, with all that can be left out left out. -/
def shortRequest : CreateHtlcRequest := ⟨6, none, seller, none⟩

/-- An HTLC over the whole deposit for 2000 slots. -/
def longRequest : CreateHtlcRequest := ⟨10, some 0, seller, some 2000⟩

/-- The same as a hop. -/
def longHop : MultiHopEntry :=
  ⟨Sha256.sha256 preimage.val, 10, 0, channelId, 2005, payer, seller, false⟩

/-- The leaf that is put for the short request. -/
def shortLeaf : UTXOLeaf := .htlc payer 6 (Sha256.sha256 preimage.val) 5005 seller

end Sample

/-- Made with the defaults, in a channel that has them, an HTLC takes an empty leaf, and its lock
expires with the challenge period. -/
theorem default_htlc_unsafe : ∃ channel db r db',
    openChannel (Sample.listedEnv Sample.locking) (Sample.lockArgs 5000) Sample.channelId ⟨∅, ∅, ∅⟩
      = .ok (channel, db) ∧
    channel.metadata.challengeDuration = 5000 ∧ channel.tree.getLeaf 1 = some .empty ∧
    Returns (createHtlc (Sample.listedEnv Sample.locking) Sample.lockApp Sample.channelId
      Sample.preimage Sample.shortRequest) db r db' ∧
    db'.leaves.lookup Sample.channelId = some [.standard Sample.payer 10, Sample.shortLeaf] ∧
    Sample.lockApp.getSlot = .ok 5 ∧ ¬ SafeHtlc 5000 5 .empty Sample.shortLeaf := by
  have htest : (openChannel (Sample.listedEnv Sample.locking) (Sample.lockArgs 5000) Sample.channelId
      ⟨∅, ∅, ∅⟩).toOption.any fun o =>
        decide (o.1.metadata.challengeDuration = 5000 ∧ o.1.tree.getLeaf 1 = some .empty) &&
        (createHtlc (Sample.listedEnv Sample.locking) Sample.lockApp Sample.channelId Sample.preimage
          Sample.shortRequest).passes o.2 fun db' => decide
            (db'.leaves.lookup Sample.channelId
              = some [.standard Sample.payer 10, Sample.shortLeaf]) := by
    decide +kernel
  have hunsafe : ¬ SafeHtlc 5000 5 .empty Sample.shortLeaf := by
    intro h
    obtain ⟨hlater, -⟩ := safeHtlc_iff.mp h
    exact absurd hlater (by decide)
  obtain ⟨⟨channel, db⟩, hopen, htest⟩ := exists_of_any htest
  obtain ⟨hstart, htest⟩ := Bool.and_eq_true_iff.mp htest
  obtain ⟨hduration, hempty⟩ := of_decide_eq_true hstart
  obtain ⟨r, db', hreturns, htest⟩ := exists_of_passes htest
  exact ⟨channel, db, r, db', hopen, hduration, hempty, hreturns, of_decide_eq_true htest, rfl, hunsafe⟩

/-- The whole deposit for 2000 slots, in a channel with a challenge duration of 500: with the handler,
in a pipeline, and as a hop. -/
theorem htlc_safe_long : ∃ channel db r db' p s c' leaf₁ leaf₂ leaf₃,
    openChannel (Sample.listedEnv Sample.locking) (Sample.lockArgs 500) Sample.channelId ⟨∅, ∅, ∅⟩
      = .ok (channel, db) ∧
    (Returns (createHtlc (Sample.listedEnv Sample.locking) Sample.lockApp Sample.channelId
        Sample.preimage Sample.longRequest) db r db' ∧
      db' = db.persist c' ∧
      Replaces channel.tree c'.tree 0 (.standard Sample.payer 10) leaf₁ ∧
      SafeHtlc 500 5 (.standard Sample.payer 10) leaf₁) ∧
    (Returns (Pipeline.createHtlc (Sample.listedEnv Sample.locking) 0 Sample.longHop.hashLock 2005
        Sample.seller 5 500)
        (.new channel.tree Sample.channelId 1 (Sample.payerWith Sample.locking)) () p ∧
      Replaces channel.tree p.tree 0 (.standard Sample.payer 10) leaf₂ ∧
      SafeHtlc 500 5 (.standard Sample.payer 10) leaf₂) ∧
    Returns (applyLeafUpdate (Sample.listedEnv Sample.locking)
        (MultiHopManager.createHtlcLeafUpdate (Sample.listedEnv Sample.locking) Sample.longHop 1
          (.standard Sample.payer 10) (Sample.payerWith Sample.locking)) Sample.payer)
        (session channel db) () s ∧
      Replaces channel.tree s.channel.tree 0 (.standard Sample.payer 10) leaf₃ ∧
      SafeHtlc 500 5 (.standard Sample.payer 10) leaf₃ := by
  let env := Sample.listedEnv Sample.locking
  have htest : (openChannel env (Sample.lockArgs 500) Sample.channelId ⟨∅, ∅, ∅⟩).toOption.any fun o =>
      decide (o.1.metadata.challengeDuration = 500 ∧
        o.1.tree.getLeaf 0 = some (.standard Sample.payer 10)) &&
      decide (o.2.load env.sha Sample.channelId = .ok o.1) &&
      (createHtlc env Sample.lockApp Sample.channelId Sample.preimage Sample.longRequest).passes o.2
        (fun _ => true) &&
      (Pipeline.createHtlc env 0 Sample.longHop.hashLock 2005 Sample.seller 5 500).passes
        (.new o.1.tree Sample.channelId 1 (Sample.payerWith Sample.locking)) (fun _ => true) &&
      (applyLeafUpdate env (MultiHopManager.createHtlcLeafUpdate env Sample.longHop 1
          (.standard Sample.payer 10) (Sample.payerWith Sample.locking)) Sample.payer).passes
        (session o.1 o.2) (fun _ => true) := by
    decide +kernel
  obtain ⟨⟨channel, db⟩, hopen, htest⟩ := exists_of_any htest
  simp only [Bool.and_eq_true, decide_eq_true_eq] at htest
  obtain ⟨⟨⟨⟨⟨hduration, hleaf⟩, hload⟩, hhandler⟩, hpipeline⟩, hhop⟩ := htest
  obtain ⟨r, db', hr, -⟩ := exists_of_passes hhandler
  obtain ⟨_, p, hp, -⟩ := exists_of_passes hpipeline
  obtain ⟨_, s, hs, -⟩ := exists_of_passes hhop
  obtain ⟨hfirst, hsecond, hthird⟩ := htlc_safe_iff env Sample.lockApp
  have hindex : r.leafIndex = 0 := by
    obtain ⟨_, c, index, _, _, _, _, -, -, hasked, -, -, -, -, hresponse, -⟩ := createHtlc_returns.mp hr
    have hzero : (0 : ℕ) = index := Option.some_inj.mp hasked
    rw [hresponse, ← hzero]
  -- With the handler.
  obtain ⟨now, c, c', prevLeaf, leaf₁, hnow, hloaded, hdb, hput, -, hsafe⟩ :=
    hfirst Sample.channelId Sample.preimage Sample.longRequest db r db' hr
  obtain rfl := Except.ok.inj (hload.symm.trans hloaded)
  obtain rfl : (5 : UInt64) = now := Except.ok.inj hnow
  rw [hindex] at hput
  obtain rfl := Option.some_inj.mp (hleaf.symm.trans hput.prev_eq)
  rw [hduration] at hsafe
  have hhandled : SafeHtlc 500 5 (.standard Sample.payer 10) leaf₁ := hsafe.mpr (by decide)
  -- In a pipeline.
  obtain ⟨prevLeaf, leaf₂, hput₂, -, -, hsafe⟩ := hsecond _ _ _ _ _ _ _ _ _ hp
  obtain rfl := Option.some_inj.mp (hleaf.symm.trans hput₂.prev_eq)
  have hpiped : SafeHtlc 500 5 (.standard Sample.payer 10) leaf₂ := hsafe.mpr (by decide)
  -- As a hop.
  obtain ⟨leaf₃, hput₃, -, hsafe⟩ := hthird _ _ _ _ _ _ _ _ _ hs hleaf
  have hsafe := hsafe 5
  rw [show (session channel db).channel.metadata.challengeDuration = 500 from hduration] at hsafe
  have hhopped : SafeHtlc 500 5 (.standard Sample.payer 10) leaf₃ := hsafe.mpr (by decide)
  exact ⟨channel, db, r, db', p, s, c', leaf₁, leaf₂, leaf₃, hopen, ⟨hr, hdb, hput, hhandled⟩,
    ⟨hp, hput₂, hpiped⟩, hs, hput₃, hhopped⟩

end Service
