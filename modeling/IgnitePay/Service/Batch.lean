/-
A batch of payments against the payments one by one.

`pay` signs its update against the tree that the payment before it has left;
`batch_update` signs all its updates against the tree it has loaded.

* `payAll_returns` — one by one the payments go through;
* `batchUpdate_iff` — the batch goes through where no payment changes a leaf that a later
  one replaces, up to its hash;
* `batchUpdate_agrees` — when it leaves the same channel.
-/
import IgnitePay.Service.Payment

namespace Service

open Bytes Machine Solana StateChannel

/-- `pay` for each of the requests. -/
def payAll (env : Env) (app : AppState) (channelId : Bytes 32) (reqs : List PayRequest) :
    Handler Unit :=
  reqs.forM fun req => (PaymentCall.pay req).handler env app channelId

/-- The leaves after the payments. -/
def leavesPaid (leaves : List UTXOLeaf) (reqs : List PayRequest) : List UTXOLeaf :=
  reqs.foldl (fun leaves req => leaves.set req.leafIndex.toNat req.newLeaf) leaves

/-- Each of the requests finds its leaf, at its turn, with the hash that it had in `before`. -/
def Undisturbed (sha : List UInt8 → Bytes 32) (before : List UTXOLeaf) :
    List UTXOLeaf → List PayRequest → Prop
  | _, [] => True
  | leaves, req :: reqs =>
    (leaves[req.leafIndex.toNat]?).map (UTXOLeaf.hash sha)
        = (before[req.leafIndex.toNat]?).map (UTXOLeaf.hash sha) ∧
      Undisturbed sha before (leaves.set req.leafIndex.toNat req.newLeaf) reqs

/-- The updates that `pay` signs for the requests, one after the other. -/
def updatesInTurn (env : Env) (app : AppState) (channelId : Bytes 32) :
    List UTXOLeaf → UInt64 → List PayRequest → List LeafUpdate
  | _, _, [] => []
  | leaves, sequence, req :: reqs =>
    let prevLeaf := (leaves[req.leafIndex.toNat]?).getD .empty
    signLeafUpdate env channelId (sequence + 1) req.leafIndex prevLeaf req.newLeaf app.keypair ::
      updatesInTurn env app channelId (leaves.set req.leafIndex.toNat req.newLeaf) (sequence + 1) reqs

/-- The first of them. -/
def paymentUpdate (env : Env) (app : AppState) (c : ChannelState) (req : PayRequest) : LeafUpdate :=
  signLeafUpdate env c.metadata.channelId (c.metadata.sequence + 1) req.leafIndex
    ((c.tree.getLeaf req.leafIndex.toNat).getD .empty) req.newLeaf app.keypair

/-- The channel is open, the indices are in range, and the sequences do not overflow. -/
structure Payable (c : ChannelState) (reqs : List PayRequest) : Prop where
  status_eq : c.metadata.status = .opened
  inRange : ∀ req ∈ reqs, req.leafIndex.toNat < c.tree.leaves.length
  fits : c.metadata.sequence.toNat + reqs.length < 2 ^ 64

section

variable {env : Env} {app : AppState} {channelId : Bytes 32} {db db₁ : Db} {c c' : ChannelState}
  {req : PayRequest} {reqs : List PayRequest} {updates : List LeafUpdate}

theorem toNat_succ {x : UInt64} (h : x.toNat + 1 < 2 ^ 64) : (x + 1).toNat = x.toNat + 1 :=
  toNat_add_of_lt h

theorem Payable.head (h : Payable c (req :: reqs)) :
    ∃ prevLeaf, c.tree.getLeaf req.leafIndex.toNat = some prevLeaf :=
  ⟨_, List.getElem?_eq_getElem (h.inRange req List.mem_cons_self)⟩

theorem Payable.lt (h : Payable c (req :: reqs)) : c.metadata.sequence.toNat + 1 < 2 ^ 64 := by
  have hfits := h.fits
  rw [List.length_cons] at hfits
  omega

/-- After a payment the rest can be paid. -/
theorem Payable.tail (h : Payable c (req :: reqs)) {tree : MerkleTree}
    (hleaves : tree.leaves = c.tree.leaves.set req.leafIndex.toNat req.newLeaf) :
    Payable (c.written (paymentUpdate env app c req) tree).counted reqs := by
  have hfits := h.fits
  rw [List.length_cons] at hfits
  refine ⟨h.status_eq, fun req' hreq' => ?_, ?_⟩
  · show req'.leafIndex.toNat < tree.leaves.length
    rw [hleaves, List.length_set]
    exact h.inRange req' (List.mem_cons_of_mem _ hreq')
  · show (c.metadata.sequence + 1).toNat + reqs.length < 2 ^ 64
    rw [toNat_succ h.lt]
    omega

/-! ### One by one -/

theorem accepts_payment (hkey : app.keypair.Genuine env) (hvalid : c.Valid env.sha)
    (hpayable : Payable c (req :: reqs)) : Accepts env c (paymentUpdate env app c req) app.pubkey where
  status_eq := hpayable.status_eq
  channelId_eq := rfl
  sequence_eq := addU64_eq_some (toNat_succ hpayable.lt)
  prevLeafHash_eq := by
    obtain ⟨prevLeaf, hprev⟩ := hpayable.head
    show c.tree.getLeafHash req.leafIndex.toNat
      = some (((c.tree.getLeaf req.leafIndex.toNat).getD .empty).hash env.sha)
    rw [hvalid.isTree.getLeafHash_eq, hprev]
    rfl
  signature := hkey _

/-- A payment, and the channel that it leaves in the database. -/
theorem pay_step (hkey : app.keypair.Genuine env) (hvalid : c.Valid env.sha)
    (hload : db.load env.sha c.metadata.channelId = .ok c) (hpayable : Payable c (req :: reqs)) :
    ∃ tree : MerkleTree, tree.leaves = c.tree.leaves.set req.leafIndex.toNat req.newLeaf ∧
      let c' := (c.written (paymentUpdate env app c req) tree).counted
      c'.Valid env.sha ∧
      Returns (applyLeafUpdate env (paymentUpdate env app c req) app.pubkey) (session c db) ()
        (session c' (db.persist c')) ∧
      Returns ((PaymentCall.pay req).handler env app c.metadata.channelId) db () (db.persist c') := by
  have haccepts := accepts_payment hkey hvalid hpayable
  obtain ⟨tree, hwrites, hvalid', happlied⟩ := @exists_applied env db c _ _ hvalid haccepts
  have hsign : signPayment env app c.metadata.channelId c.tree
      (addU64 env.overflowChecks c.metadata.sequence 1) "leaf_index out of bounds" req
        = .ok (paymentUpdate env app c req) := by
    obtain ⟨prevLeaf, hprev⟩ := hpayable.head
    rw [signPayment, haccepts.sequence_eq, paymentUpdate, hprev]
    rfl
  have hpaid := pay_returns.mpr ⟨c, _, _, hload, hsign, happlied, rfl, rfl⟩
  exact ⟨tree, leaves_updateLeaf hwrites.2, hvalid', happlied,
    returns_bind.mpr ⟨_, _, hpaid, returns_pure.mpr ⟨rfl, rfl⟩⟩⟩

/-- One by one the payments go through, as the updates that are signed in turn. -/
theorem payAll_returns (hkey : app.keypair.Genuine env) (hvalid : c.Valid env.sha)
    (hload : db.load env.sha c.metadata.channelId = .ok c) (hpayable : Payable c reqs) :
    ∃ s, Returns (applyAll env app.pubkey (updatesInTurn env app c.metadata.channelId c.tree.leaves
        c.metadata.sequence reqs)) (session c db) () s ∧
      Returns (payAll env app c.metadata.channelId reqs) db () s.db := by
  induction reqs generalizing c db with
  | nil => exact ⟨session c db, returns_forM_nil.mpr rfl, returns_forM_nil.mpr rfl⟩
  | cons req reqs ih =>
    obtain ⟨tree, hleaves, hvalid', happlied, hpaid⟩ := pay_step hkey hvalid hload hpayable
    -- The rest is paid from the channel that is stored now.
    have hload' := load_of_saved (saved_persist db _) hvalid'
    obtain ⟨s, happlyAll, hpayAll⟩ := ih hvalid' hload' (hpayable.tail hleaves)
    have hupdates : updatesInTurn env app c.metadata.channelId c.tree.leaves c.metadata.sequence
        (req :: reqs) = paymentUpdate env app c req :: updatesInTurn env app c.metadata.channelId
          tree.leaves (c.metadata.sequence + 1) reqs := by
      rw [hleaves]
      rfl
    refine ⟨s, ?_, returns_forM_cons.mpr ⟨_, hpaid, hpayAll⟩⟩
    rw [hupdates]
    exact returns_forM_cons.mpr ⟨_, happlied, happlyAll⟩

/-! ### All at once -/

/-- Only the hash of the leaf that is replaced is signed. -/
theorem signLeafUpdate_congr {prevLeaf prevLeaf' newLeaf : UTXOLeaf} {sequence : UInt64}
    {index : UInt32} (h : prevLeaf.hash env.sha = prevLeaf'.hash env.sha) :
    signLeafUpdate env channelId sequence index prevLeaf newLeaf app.keypair
      = signLeafUpdate env channelId sequence index prevLeaf' newLeaf app.keypair := by
  simp only [signLeafUpdate, h]

/-- Undisturbed, the updates of the batch are those that are signed in turn. -/
theorem signPayments_eq {tree : MerkleTree} {leaves : List UTXOLeaf} {base sequence : UInt64} {i : ℕ}
    (hsame : Undisturbed env.sha tree.leaves leaves reqs)
    (hrange : ∀ req ∈ reqs, req.leafIndex.toNat < tree.leaves.length)
    (hbase : base.toNat + i = sequence.toNat + 1) (hfits : sequence.toNat + reqs.length < 2 ^ 64) :
    signPayments env app channelId tree base i reqs
      = .ok (updatesInTurn env app channelId leaves sequence reqs) := by
  induction reqs generalizing leaves sequence i with
  | nil => rfl
  | cons req reqs ih =>
    obtain ⟨hhash, hsame⟩ := hsame
    obtain ⟨hfirst, hrange⟩ := List.forall_mem_cons.mp hrange
    rw [List.length_cons] at hfits
    have hnext := @toNat_succ sequence (by omega)
    have hi : (UInt64.ofNat i).toNat = i := UInt64.toNat_ofNat_of_lt' (by
      show i < 2 ^ 64
      omega)
    have hadd : addU64 env.overflowChecks base (UInt64.ofNat i) = some (sequence + 1) :=
      addU64_eq_some (by omega)
    have hrest := @ih _ (sequence + 1) (i + 1) hsame hrange (by omega) (by omega)
    -- The two leaves that are signed over have the same hash.
    obtain ⟨old, hold⟩ : ∃ old, tree.leaves[req.leafIndex.toNat]? = some old :=
      ⟨_, List.getElem?_eq_getElem hfirst⟩
    rw [hold, Option.map_some] at hhash
    obtain ⟨prevLeaf, hprev, hhash⟩ := Option.map_eq_some_iff.mp hhash
    rw [signPayments, signPayment, MerkleTree.getLeaf, hold, hadd, hrest, updatesInTurn, hprev]
    show Except.ok (signLeafUpdate env channelId (sequence + 1) req.leafIndex old req.newLeaf
      app.keypair :: _) = Except.ok (signLeafUpdate env channelId (sequence + 1) req.leafIndex prevLeaf
        req.newLeaf app.keypair :: _)
    rw [signLeafUpdate_congr hhash]

/-- Where the updates of the batch are accepted, it was undisturbed. -/
theorem undisturbed_of_batched {tree : MerkleTree} {base : UInt64} {i : ℕ}
    (hsign : signPayments env app channelId tree base i reqs = .ok updates)
    (h : Batched env app.pubkey c updates c') (hvalid : c.Valid env.sha) :
    Undisturbed env.sha tree.leaves c.tree.leaves reqs := by
  induction reqs generalizing c i updates with
  | nil => trivial
  | cons req reqs ih =>
    obtain ⟨update, hupdate, hsign⟩ := bind_eq_ok.mp hsign
    obtain ⟨updates, hupdates, hsign⟩ := bind_eq_ok.mp hsign
    obtain rfl := Except.ok.inj hsign
    obtain ⟨prevLeaf, hprev, hupdate⟩ := bind_eq_ok.mp hupdate
    obtain ⟨sequence, -, hupdate⟩ := bind_eq_ok.mp hupdate
    obtain rfl := Except.ok.inj hupdate
    cases h with
    | cons haccepts hwrites hrest =>
      have hhash : c.tree.getLeafHash req.leafIndex.toNat = some (prevLeaf.hash env.sha) :=
        haccepts.prevLeafHash_eq
      rw [hvalid.isTree.getLeafHash_eq] at hhash
      have hold : tree.leaves[req.leafIndex.toNat]? = some prevLeaf := orErr_eq_ok.mp hprev
      refine ⟨?_, ?_⟩
      · rw [hold]
        exact hhash
      · have hafter := ih hupdates hrest (hvalid.of_writes hwrites)
        have hleaves := leaves_updateLeaf hwrites.2
        exact hleaves ▸ hafter

theorem updatesInTurn_ne_nil (hne : reqs ≠ []) {leaves : List UTXOLeaf} {sequence : UInt64} :
    updatesInTurn env app channelId leaves sequence reqs ≠ [] := by
  cases reqs with
  | nil => exact absurd rfl hne
  | cons req reqs => exact List.cons_ne_nil _ _

/-- The batch goes through where it is undisturbed and the updates in turn go through, and stores the
channel as they leave it. -/
theorem batchUpdate_iff (hload : db.load env.sha c.metadata.channelId = .ok c)
    (hpayable : Payable c reqs) (hne : reqs ≠ []) :
    (∃ r, Returns (batchUpdate env app c.metadata.channelId reqs) db r db₁) ↔
      Undisturbed env.sha c.tree.leaves c.tree.leaves reqs ∧
        ∃ t, Returns (applyAllInternal env app.pubkey (updatesInTurn env app c.metadata.channelId
          c.tree.leaves c.metadata.sequence reqs)) (session c db) () t ∧
            db₁ = t.db.persist t.channel := by
  have hlength : 0 < reqs.length := List.length_pos_iff.mpr hne
  have hfits := hpayable.fits
  have hnext := @toNat_succ c.metadata.sequence (by omega)
  have hbase : addU64 env.overflowChecks c.metadata.sequence 1 = some (c.metadata.sequence + 1) :=
    addU64_eq_some hnext
  have hsign : Undisturbed env.sha c.tree.leaves c.tree.leaves reqs →
      signPayments env app c.metadata.channelId c.tree (c.metadata.sequence + 1) 0 reqs
        = .ok (updatesInTurn env app c.metadata.channelId c.tree.leaves c.metadata.sequence reqs) :=
    fun hsame => signPayments_eq hsame hpayable.inRange (by omega) hfits
  have hupdates := @updatesInTurn_ne_nil env app c.metadata.channelId reqs hne c.tree.leaves
    c.metadata.sequence
  constructor
  · rintro ⟨r, hr⟩
    obtain ⟨c₁, base, updates, s, hload₁, hbase₁, hsigned, hs, -, rfl⟩ := batchUpdate_returns.mp hr
    obtain rfl := Except.ok.inj (hload.symm.trans hload₁)
    obtain rfl := Option.some_inj.mp (hbase.symm.trans hbase₁)
    have hsame := undisturbed_of_batched hsigned (batched_of_returns hs).1 (valid_of_load hload)
    obtain rfl := Except.ok.inj ((hsign hsame).symm.trans hsigned)
    obtain ⟨t, ht, rfl⟩ := (applyLeafUpdateBatch_returns hupdates).mp hs
    exact ⟨hsame, t, ht, rfl⟩
  · rintro ⟨hsame, t, ht, rfl⟩
    have hs := (applyLeafUpdateBatch_returns hupdates).mpr ⟨t, ht, rfl⟩
    exact ⟨_, batchUpdate_returns.mpr ⟨c, _, _, _, hload, hbase, hsign hsame, hs, rfl, rfl⟩⟩

theorem leavesAfter_updatesInTurn {leaves : List UTXOLeaf} {sequence : UInt64} :
    leavesAfter leaves (updatesInTurn env app channelId leaves sequence reqs)
      = leavesPaid leaves reqs := by
  induction reqs generalizing leaves sequence with
  | nil => rfl
  | cons req reqs ih => exact ih

/-! ### Batch and payments agree -/

/-- Payments that one by one go through: the batch of them goes through as well and leaves the same
channel exactly if no payment changes what a later one replaces, no co-signature waits, and the count
of the leaves is right for those that are left. -/
theorem batchUpdate_agrees (env : Env) (app : AppState) (db : Db) (c : ChannelState)
    (reqs : List PayRequest) (hkey : app.keypair.Genuine env)
    (hload : db.load env.sha c.metadata.channelId = .ok c)
    (hbase : c.metadata.sequence.toNat + 1 < 2 ^ 64) (hpayable : Payable c reqs) :
    ∃ db₂, Returns (payAll env app c.metadata.channelId reqs) db () db₂ ∧
      ((∃ r db₁, Returns (batchUpdate env app c.metadata.channelId reqs) db r db₁ ∧
          db₁.load env.sha c.metadata.channelId = db₂.load env.sha c.metadata.channelId) ↔
        reqs = [] ∨ (Undisturbed env.sha c.tree.leaves c.tree.leaves reqs ∧ c.providerCosign = none ∧
          c.metadata.leafCount
            = UInt32.ofNat ((leavesPaid c.tree.leaves reqs).countP fun l => l.amount ≠ 0))) := by
  have hvalid := valid_of_load hload
  obtain ⟨s, happlyAll, hpayAll⟩ := payAll_returns hkey hvalid hload hpayable
  refine ⟨s.db, hpayAll, ?_⟩
  rcases eq_or_ne reqs [] with rfl | hne
  · refine iff_of_true ?_ (.inl rfl)
    obtain rfl := returns_forM_nil.mp happlyAll
    have hempty : Returns (applyLeafUpdateBatch env [] app.pubkey) (session c db) () (session c db) :=
      returns_pure.mpr ⟨rfl, rfl⟩
    exact ⟨_, db, batchUpdate_returns.mpr ⟨c, _, [], _, hload, addU64_eq_some (toNat_succ hbase), rfl,
      hempty, rfl, rfl⟩, rfl⟩
  · obtain ⟨t, ht, rfl⟩ := (applyAll_returns (updatesInTurn_ne_nil hne)).mp happlyAll
    have hagree : t.channel = t.finished.channel ↔ CountsRight c _ := eq_finished_iff ht
    rw [CountsRight, leavesAfter_updatesInTurn] at hagree
    -- Both databases hold the channel that was there in the end, which has kept its id.
    have hid : t.channel.metadata.channelId = c.metadata.channelId := by
      rw [(sameBut_of_applyAllInternal ht).2]
      rfl
    have hvalid' := valid_of_applyAllInternal ht hvalid
    have hstored : (t.db.persist t.channel).load env.sha c.metadata.channelId = .ok t.channel :=
      hid ▸ load_of_saved (saved_persist _ _) hvalid'
    have hfinished : t.finished.db.load env.sha c.metadata.channelId = .ok t.finished.channel :=
      hid ▸ load_of_saved (saved_persist _ t.finished.channel) ⟨hvalid'.isTree, hvalid'.treeDepth_eq⟩
    constructor
    · rintro ⟨r, db₁, hr, hsame⟩
      obtain ⟨hundisturbed, t', ht', rfl⟩ := (batchUpdate_iff hload hpayable hne).mp ⟨r, hr⟩
      obtain rfl := (ht.unique ht').2
      rw [hstored, hfinished] at hsame
      exact .inr ⟨hundisturbed, hagree.mp (Except.ok.inj hsame)⟩
    · rintro (rfl | ⟨hundisturbed, hcounts⟩)
      · exact absurd rfl hne
      · obtain ⟨r, hr⟩ := (batchUpdate_iff hload hpayable hne).mpr ⟨hundisturbed, t, ht, rfl⟩
        refine ⟨r, _, hr, ?_⟩
        rw [hstored, hfinished, hagree.mpr hcounts]

/-- No leaf is paid from twice. -/
theorem undisturbed_of_nodup {sha : List UInt8 → Bytes 32} {before leaves : List UTXOLeaf}
    (hnodup : (reqs.map fun req => req.leafIndex).Nodup)
    (hsame : ∀ req ∈ reqs, leaves[req.leafIndex.toNat]? = before[req.leafIndex.toNat]?) :
    Undisturbed sha before leaves reqs := by
  induction reqs generalizing leaves with
  | nil => trivial
  | cons req reqs ih =>
    obtain ⟨hother, hnodup⟩ := List.nodup_cons.mp hnodup
    obtain ⟨hfirst, hsame⟩ := List.forall_mem_cons.mp hsame
    refine ⟨congrArg (Option.map (UTXOLeaf.hash sha)) hfirst, ih hnodup fun req' hreq' => ?_⟩
    have hne : req.leafIndex.toNat ≠ req'.leafIndex.toNat := by
      intro heq
      have hindex : req'.leafIndex = req.leafIndex := (UInt32.toNat_inj.mp heq).symm
      exact hother (List.mem_map.mpr ⟨req', hreq', hindex⟩)
    rw [List.getElem?_set_ne hne]
    exact hsame req' hreq'

end

/-! ### Two payments from one leaf, and from two -/

namespace Sample

open StateChannel.Sample

/-- The payer's updates for two payments from the first leaf, with that of the batch. -/
def twicePaying : List ((Pubkey × Bytes 32) × Bytes 64) := [
  ((payer, number 0x05b6a2d988708de462a657a5dff782ae50f72b9193aaf3e22345f6e27f1abb87),
    signature 0x543c24653a42f8f9ad9a2f7e6fa13d5d2bb0dc00128ec90d19f0a91c21b3896f
      0x0890086fcf2605833496869ca82044eeb3b964d1ba676b42504fccdc881d8488),
  ((payer, number 0xc7cc3ea93975ddd11cddfe44ba27d0b75a5331a3ad7e8d6e4ec78d05ec1d7303),
    signature 0x800afdfe4992a62f6c9d7666050548d6d30aef9813979ab3c6e97656d7198ac8
      0x0e4791af2674aa8bc551d0dc72bbf69baa806f6187accbba453e9f314f8bfaa8),
  ((payer, number 0xd39e4190ec9d22a146be5d4e525ae153dfc0a667d2291fb7a1469af26d717463),
    signature 0x5f69a1130ec44ba41ec51b257d32304acd6f356ba8340bc07c272c58892e4d8f
      0x009f02d24bfd9746937969351782ba11ad1a2c4aa2885e4b3588d400fede1354)]

/-- 4 and 3 are deducted from the payer's leaf. -/
def deductions : List PayRequest := [⟨0, payer, 6⟩, ⟨0, payer, 3⟩]

end Sample

/-- The two payments go through, and the batch of them is rejected. -/
theorem batch_rejected : ∃ s₀ db₂ e db₁,
    Opened (Sample.envWith Sample.twicePaying) (Sample.openArgs 10) s₀ ∧
    s₀.channel.metadata.status = .opened ∧
    Returns (payAll (Sample.envWith Sample.twicePaying)
      (Sample.appOf (Sample.payerWith Sample.twicePaying)) Sample.channelId Sample.deductions)
      s₀.db () db₂ ∧
    Fails (batchUpdate (Sample.envWith Sample.twicePaying)
      (Sample.appOf (Sample.payerWith Sample.twicePaying)) Sample.channelId Sample.deductions)
      s₀.db e db₁ ∧
    e = .error (.stateChannel .prevHashMismatch) := by
  let env := Sample.envWith Sample.twicePaying
  let app := Sample.appOf (Sample.payerWith Sample.twicePaying)
  have htest : (Sample.opened 10 none).toOption.any fun s₀ =>
      decide (s₀.channel.metadata.status = .opened) &&
      ((payAll env app Sample.channelId Sample.deductions).passes s₀.db fun _ => true) &&
      (batchUpdate env app Sample.channelId Sample.deductions).stops s₀.db fun e _ =>
        decide (e = .error (.stateChannel .prevHashMismatch)) := by
    decide +kernel
  obtain ⟨s₀, hs₀, htest⟩ := exists_of_any htest
  obtain ⟨htest, hstops⟩ := Bool.and_eq_true_iff.mp htest
  obtain ⟨hopen, hpasses⟩ := Bool.and_eq_true_iff.mp htest
  obtain ⟨_, db₂, hpays, -⟩ := exists_of_passes hpasses
  obtain ⟨e, db₁, hfails, he⟩ := exists_of_stops hstops
  exact ⟨s₀, db₂, e, db₁, ⟨_, _, Sample.openChannel_of_opened hs₀⟩, of_decide_eq_true hopen, hpays,
    hfails, of_decide_eq_true he⟩

/-- The deposit paid over, in two leaves. -/
theorem batchUpdate_agrees_paidOver : ∃ s₀ db₂ r db₁,
    Opened (Sample.envWith Sample.paying) (Sample.openArgs 10) s₀ ∧
    Returns (payAll (Sample.envWith Sample.paying) (Sample.appOf (Sample.payerWith Sample.paying))
      s₀.channel.metadata.channelId Sample.paidOver) s₀.db () db₂ ∧
    Returns (batchUpdate (Sample.envWith Sample.paying) (Sample.appOf (Sample.payerWith Sample.paying))
      s₀.channel.metadata.channelId Sample.paidOver) s₀.db r db₁ ∧
    db₁.load (Sample.envWith Sample.paying).sha s₀.channel.metadata.channelId
      = db₂.load (Sample.envWith Sample.paying).sha s₀.channel.metadata.channelId := by
  have htest : (Sample.opened 10 none).toOption.any fun s₀ =>
      decide (s₀.channel.metadata.status = .opened ∧ s₀.channel.metadata.sequence = 0 ∧
        s₀.channel.tree.leaves.length = 2 ∧ s₀.channel.providerCosign = none ∧
        s₀.channel.metadata.leafCount = UInt32.ofNat
          ((leavesPaid s₀.channel.tree.leaves Sample.paidOver).countP fun l => l.amount ≠ 0)) := by
    decide
  obtain ⟨s₀, hs₀, htest⟩ := exists_of_any htest
  obtain ⟨hopen, hseq, hlength, hcosign, hcount⟩ := of_decide_eq_true htest
  have hchannel := Sample.openChannel_of_opened hs₀
  have hload : s₀.db.load Sample.env.sha s₀.channel.metadata.channelId = .ok s₀.channel := by
    obtain ⟨tree, -, -, hdb⟩ := openChannel_ok hchannel
    exact hdb ▸ load_of_saved (saved_persist _ _) (valid_of_openChannel hchannel)
  have hpayable : Payable s₀.channel Sample.paidOver := by
    refine ⟨hopen, fun req hreq => ?_, ?_⟩
    · rw [hlength]
      fin_cases hreq <;> decide
    · rw [hseq]
      decide
  obtain ⟨db₂, hpays, hagrees⟩ := batchUpdate_agrees (Sample.envWith Sample.paying)
    (Sample.appOf (Sample.payerWith Sample.paying)) s₀.db s₀.channel Sample.paidOver
    (Sample.genuine_payerWith _) hload (by rw [hseq]; decide) hpayable
  have hundisturbed := @undisturbed_of_nodup Sample.paidOver Sample.env.sha s₀.channel.tree.leaves
    s₀.channel.tree.leaves (by decide) fun _ _ => rfl
  obtain ⟨r, db₁, hbatch, hsame⟩ := hagrees.mpr (.inr ⟨hundisturbed, hcosign, hcount⟩)
  exact ⟨s₀, db₂, r, db₁, ⟨_, _, hchannel⟩, hpays, hbatch, hsame⟩

end Service
