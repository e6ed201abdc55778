/-
Payments through the service (`payment.rs`).

`pay` and `batch_update` sign updates of the stored channel, `accept_payment` and
`accept_batch` take updates that come from outside.  All four have the manager check
the signatures under the service's own key, whoever owns the leaves.

* `leaf_authorization` — the owner of every leaf that is replaced has signed, as long
  as the service owns them all; and where a signature tells its key, only then.
-/
import IgnitePay.Service.State
import IgnitePay.StateChannel.Helpers

namespace Service

open Bytes Machine Solana StateChannel

/-! ### The handlers -/

structure PayRequest where
  leafIndex : UInt32
  newOwner : Pubkey
  amount : UInt64
deriving DecidableEq

def PayRequest.newLeaf (req : PayRequest) : UTXOLeaf := .standard req.newOwner req.amount

/-- What `pay` answers. -/
structure PayResponse where
  channelId : Bytes 32
  sequence : UInt64
  leafIndex : UInt32
  newRoot : Bytes 32

/-- What `accept_payment` answers. -/
structure AcceptResponse where
  channelId : Bytes 32
  sequence : UInt64
  newRoot : Bytes 32

/-- What `batch_update` and `accept_batch` answer. -/
structure BatchResponse where
  channelId : Bytes 32
  applied : ℕ
  newSequence : UInt64
  newRoot : Bytes 32

section

variable (env : Env) (app : AppState) (channelId : Bytes 32)

/-- The update for a request, signed against a tree. -/
def signPayment (tree : MerkleTree) (sequence : Option UInt64) (outOfBounds : String)
    (req : PayRequest) : Except HandlerFailure LeafUpdate := do
  let prevLeaf ← orErr (tree.getLeaf req.leafIndex.toNat) (.badRequest outOfBounds)
  let newSequence ← orErr sequence .panic
  return signLeafUpdate env channelId newSequence req.leafIndex prevLeaf req.newLeaf app.keypair

/-- `pay`. -/
def pay (req : PayRequest) : Handler PayResponse := do
  let channelState ← loadState env channelId
  let newSequence := addU64 env.overflowChecks channelState.metadata.sequence 1
  let update ← ofResult
    (signPayment env app channelId channelState.tree newSequence "leaf_index out of bounds" req)
  let (_, s) ← onManager channelState (applyLeafUpdate env update app.pubkey)
  return ⟨channelId, s.channel.metadata.sequence, req.leafIndex, s.channel.metadata.currentRoot⟩

/-- The loop of `batch_update`, from request `i` on; the tree is the same for all. -/
def signPayments (tree : MerkleTree) (baseSequence : UInt64) :
    ℕ → List PayRequest → Except HandlerFailure (List LeafUpdate)
  | _, [] => .ok []
  | i, req :: reqs => do
    let index := req.leafIndex
    let sequence := addU64 env.overflowChecks baseSequence (UInt64.ofNat i)
    let update ← signPayment env app channelId tree sequence s!"leaf_index {index} out of bounds" req
    let updates ← signPayments tree baseSequence (i + 1) reqs
    return update :: updates

/-- `batch_update`. -/
def batchUpdate (reqs : List PayRequest) : Handler BatchResponse := do
  let channelState ← loadState env channelId
  let baseSequence ← orThrow (addU64 env.overflowChecks channelState.metadata.sequence 1) .panic
  let updates ← ofResult (signPayments env app channelId channelState.tree baseSequence 0 reqs)
  let (_, s) ← onManager channelState (batchWithInfo env updates app.pubkey)
  return ⟨channelId, updates.length, s.channel.metadata.sequence, s.channel.metadata.currentRoot⟩

/-- `accept_payment`. -/
def acceptPayment (update : LeafUpdate) : Handler AcceptResponse := do
  check (update.channelId = channelId) (.badRequest "channel_id mismatch")
  let channelState ← loadState env channelId
  let (_, s) ← onManager channelState (applyLeafUpdate env update app.pubkey)
  return ⟨channelId, s.channel.metadata.sequence, s.channel.metadata.currentRoot⟩

/-- `accept_batch`; the updates are left to the manager. -/
def acceptBatch (updates : List LeafUpdate) : Handler BatchResponse := do
  let channelState ← loadState env channelId
  let (_, s) ← onManager channelState (batchWithInfo env updates app.pubkey)
  return ⟨channelId, updates.length, s.channel.metadata.sequence, s.channel.metadata.currentRoot⟩

end

/-- A call of one of the four. -/
inductive PaymentCall
  | pay (req : PayRequest)
  | batchUpdate (reqs : List PayRequest)
  | acceptPayment (update : LeafUpdate)
  | acceptBatch (updates : List LeafUpdate)

namespace PaymentCall

variable (env : Env) (app : AppState) (channelId : Bytes 32)

/-- The handler, without its answer. -/
def handler : PaymentCall → Handler Unit
  | pay req => Service.pay env app channelId req >>= fun _ => pure ()
  | batchUpdate reqs => Service.batchUpdate env app channelId reqs >>= fun _ => pure ()
  | acceptPayment update => Service.acceptPayment env app channelId update >>= fun _ => pure ()
  | acceptBatch updates => Service.acceptBatch env app channelId updates >>= fun _ => pure ()

/-- The updates that the handler gives to the manager. -/
def Brings (c : ChannelState) : PaymentCall → List LeafUpdate → Prop
  | pay req, updates => ∃ update, updates = [update] ∧
    signPayment env app channelId c.tree (addU64 env.overflowChecks c.metadata.sequence 1)
      "leaf_index out of bounds" req = .ok update
  | batchUpdate reqs, updates => ∃ baseSequence,
    addU64 env.overflowChecks c.metadata.sequence 1 = some baseSequence ∧
      signPayments env app channelId c.tree baseSequence 0 reqs = .ok updates
  | acceptPayment update, updates => updates = [update] ∧ update.channelId = channelId
  | acceptBatch given, updates => updates = given

end PaymentCall

/-! ### What they do -/

section

variable {env : Env} {app : AppState} {channelId : Bytes 32} {db db' : Db} {req : PayRequest}
  {reqs : List PayRequest}

theorem pay_returns {r : PayResponse} :
    Returns (pay env app channelId req) db r db' ↔
      ∃ c update s, db.load env.sha channelId = .ok c ∧
        signPayment env app channelId c.tree (addU64 env.overflowChecks c.metadata.sequence 1)
          "leaf_index out of bounds" req = .ok update ∧
        Returns (applyLeafUpdate env update app.pubkey) (session c db) () s ∧
        r = ⟨channelId, s.channel.metadata.sequence, req.leafIndex, s.channel.metadata.currentRoot⟩ ∧
        s.db = db' := by
  simp only [pay, returns_loadState_bind, returns_ofResult_bind, returns_onManager_bind, returns_pure]
  constructor
  · rintro ⟨c, hload, update, hsign, _, s, hs, rfl, hdb⟩
    exact ⟨c, update, s, hload, hsign, hs, rfl, hdb⟩
  · rintro ⟨c, update, s, hload, hsign, hs, rfl, hdb⟩
    exact ⟨c, hload, update, hsign, (), s, hs, rfl, hdb⟩

theorem batchUpdate_returns {r : BatchResponse} :
    Returns (batchUpdate env app channelId reqs) db r db' ↔
      ∃ c baseSequence updates s, db.load env.sha channelId = .ok c ∧
        addU64 env.overflowChecks c.metadata.sequence 1 = some baseSequence ∧
        signPayments env app channelId c.tree baseSequence 0 reqs = .ok updates ∧
        Returns (applyLeafUpdateBatch env updates app.pubkey) (session c db) () s ∧
        r = ⟨channelId, updates.length, s.channel.metadata.sequence, s.channel.metadata.currentRoot⟩ ∧
        s.db = db' := by
  simp only [batchUpdate, returns_loadState_bind, returns_orThrow_bind, returns_ofResult_bind,
    returns_onManager_bind, batchWithInfo_returns, returns_pure]
  constructor
  · rintro ⟨c, hload, base, hbase, updates, hsign, _, s, hs, rfl, hdb⟩
    exact ⟨c, base, updates, s, hload, hbase, hsign, hs, rfl, hdb⟩
  · rintro ⟨c, base, updates, s, hload, hbase, hsign, hs, rfl, hdb⟩
    exact ⟨c, hload, base, hbase, updates, hsign, (), s, hs, rfl, hdb⟩

/-- What a call that was accepted has done: the manager went with its updates from the stored channel
`c` to `c'`, and the tree of that was stored. -/
structure Applied (env : Env) (app : AppState) (channelId : Bytes 32) (call : PaymentCall)
    (db db' : Db) (c : ChannelState) (updates : List LeafUpdate) (c' : ChannelState) : Prop where
  load_eq : db.load env.sha channelId = .ok c
  brings : call.Brings env app channelId c updates
  batched : Batched env app.pubkey c updates c'
  stored : (updates = [] ∧ db' = db) ∨ ∃ c₁, c₁.tree = c'.tree ∧ db' = db.persist c₁

theorem applied_of_single {call : PaymentCall} {c : ChannelState} {update : LeafUpdate} {s : Session}
    {u : Unit} (hload : db.load env.sha channelId = .ok c)
    (hbrings : call.Brings env app channelId c [update])
    (h : Returns (applyLeafUpdate env update app.pubkey) (session c db) u s) :
    ∃ c', Applied env app channelId call db s.db c [update] c' := by
  obtain ⟨s₁, h₁, rfl⟩ := applyLeafUpdate_returns.mp h
  obtain ⟨haccepts, compliance, tree, -, hwrites, rfl⟩ := applyLeafUpdateInternal_returns.mp h₁
  refine ⟨_, hload, hbrings, .cons haccepts hwrites .nil, .inr ?_⟩
  exact ⟨(c.written update tree).counted, rfl, rfl⟩

theorem applied_of_batch {call : PaymentCall} {c : ChannelState} {updates : List LeafUpdate}
    {s : Session} {u : Unit} (hload : db.load env.sha channelId = .ok c)
    (hbrings : call.Brings env app channelId c updates)
    (h : Returns (applyLeafUpdateBatch env updates app.pubkey) (session c db) u s) :
    ∃ c', Applied env app channelId call db s.db c updates c' := by
  refine ⟨s.channel, hload, hbrings, (batched_of_returns h).1, ?_⟩
  rcases eq_or_ne updates [] with rfl | hne
  · rw [applyLeafUpdateBatch, if_pos rfl] at h
    obtain ⟨-, rfl⟩ := returns_pure.mp h
    exact .inl ⟨rfl, rfl⟩
  · obtain ⟨t, ht, rfl⟩ := (applyLeafUpdateBatch_returns hne).mp h
    have hdb : t.db = db := (sameBut_of_applyAllInternal ht).1
    exact .inr ⟨t.channel, rfl, congrArg (fun db => db.persist t.channel) hdb⟩

theorem applied_of_returns {call : PaymentCall} {u : Unit}
    (h : Returns (call.handler env app channelId) db u db') :
    ∃ c updates c', Applied env app channelId call db db' c updates c' := by
  cases call with
  | pay req =>
    obtain ⟨r, _, hr, hu⟩ := returns_bind.mp h
    obtain ⟨-, rfl⟩ := returns_pure.mp hu
    obtain ⟨c, update, s, hload, hsign, hs, -, rfl⟩ := pay_returns.mp hr
    exact ⟨c, [update], applied_of_single hload ⟨update, rfl, hsign⟩ hs⟩
  | batchUpdate reqs =>
    obtain ⟨r, _, hr, hu⟩ := returns_bind.mp h
    obtain ⟨-, rfl⟩ := returns_pure.mp hu
    obtain ⟨c, base, updates, s, hload, hbase, hsign, hs, -, rfl⟩ := batchUpdate_returns.mp hr
    exact ⟨c, updates, applied_of_batch hload ⟨base, hbase, hsign⟩ hs⟩
  | acceptPayment update =>
    obtain ⟨r, _, hr, hu⟩ := returns_bind.mp h
    obtain ⟨-, rfl⟩ := returns_pure.mp hu
    simp only [acceptPayment, returns_check_bind, returns_loadState_bind, returns_onManager_bind,
      returns_pure] at hr
    obtain ⟨hid, c, hload, _, s, hs, -, rfl⟩ := hr
    exact ⟨c, [update], applied_of_single hload ⟨rfl, hid⟩ hs⟩
  | acceptBatch updates =>
    obtain ⟨r, _, hr, hu⟩ := returns_bind.mp h
    obtain ⟨-, rfl⟩ := returns_pure.mp hu
    simp only [acceptBatch, returns_loadState_bind, returns_onManager_bind, batchWithInfo_returns,
      returns_pure] at hr
    obtain ⟨c, hload, _, s, hs, -, rfl⟩ := hr
    exact ⟨c, updates, applied_of_batch hload rfl hs⟩

end

/-! ### Who has signed -/

/-- Each of the updates has the property together with the leaf that it replaces, at its turn. -/
def AtTurn (P : UTXOLeaf → LeafUpdate → Prop) : List UTXOLeaf → List LeafUpdate → Prop
  | _, [] => True
  | leaves, update :: updates =>
    (∀ prevLeaf ∈ leaves[update.leafIndex.toNat]?, P prevLeaf update) ∧
      AtTurn P (leaves.set update.leafIndex.toNat update.newLeaf) updates

instance AtTurn.decidable {P : UTXOLeaf → LeafUpdate → Prop} [∀ l u, Decidable (P l u)] :
    ∀ leaves updates, Decidable (AtTurn P leaves updates)
  | _, [] => isTrue trivial
  | leaves, update :: updates =>
    have := AtTurn.decidable (P := P) (leaves.set update.leafIndex.toNat update.newLeaf) updates
    inferInstanceAs (Decidable (_ ∧ _))

/-- The leaf is empty, or its owner has signed the update. -/
def Authorized (env : Env) (prevLeaf : UTXOLeaf) (update : LeafUpdate) : Prop :=
  prevLeaf.amount ≠ 0 → env.verifyLeafUpdateSignature update prevLeaf.owner

/-- The leaf is empty, or belongs to `pubkey`. -/
def OwnLeaf (pubkey : Pubkey) (prevLeaf : UTXOLeaf) (_ : LeafUpdate) : Prop :=
  prevLeaf.amount ≠ 0 → prevLeaf.owner = pubkey

instance (pubkey : Pubkey) (prevLeaf : UTXOLeaf) (update : LeafUpdate) :
    Decidable (OwnLeaf pubkey prevLeaf update) := inferInstanceAs (Decidable (_ → _))

/-- A signature verifies under one key only. -/
def Exclusive (env : Env) : Prop :=
  ∀ message sig k k', env.verifyStrict k message sig → env.verifyStrict k' message sig → k = k'

section

variable {env : Env} {signerPubkey : Pubkey} {c c' : ChannelState} {updates : List LeafUpdate}
  {P Q : UTXOLeaf → LeafUpdate → Prop}

/-- What follows from the signature that the manager has checked. -/
theorem AtTurn.of_batched (h : Batched env signerPubkey c updates c')
    (himp : ∀ prevLeaf update, env.verifyLeafUpdateSignature update signerPubkey →
      P prevLeaf update → Q prevLeaf update)
    (hall : AtTurn P c.tree.leaves updates) : AtTurn Q c.tree.leaves updates := by
  induction h with
  | nil => trivial
  | cons haccepts hwrites _ ih =>
    obtain ⟨hfirst, hrest⟩ := hall
    have hleaves := leaves_updateLeaf hwrites.2
    refine ⟨fun prevLeaf hprev => ?_, ?_⟩
    · exact himp prevLeaf _ haccepts.signature (hfirst prevLeaf hprev)
    · rw [← hleaves] at hrest ⊢
      exact ih hrest

/-- Where only leaves of the signer are replaced, the others stay. -/
theorem getLeaf_of_batched (h : Batched env signerPubkey c updates c')
    (hown : AtTurn (OwnLeaf signerPubkey) c.tree.leaves updates) {i : ℕ} {leaf : UTXOLeaf}
    (hleaf : c.tree.getLeaf i = some leaf) (hne : leaf.amount ≠ 0)
    (howner : leaf.owner ≠ signerPubkey) : c'.tree.getLeaf i = some leaf := by
  induction h with
  | nil => exact hleaf
  | @cons c c' update updates tree _ hwrites _ ih =>
    obtain ⟨hfirst, hrest⟩ := hown
    have hleaves := leaves_updateLeaf hwrites.2
    have hindex : update.leafIndex.toNat ≠ i := by
      intro heq
      have hprev : leaf ∈ c.tree.leaves[update.leafIndex.toNat]? := heq ▸ hleaf
      exact howner (hfirst leaf hprev hne)
    have hkept : tree.getLeaf i = some leaf := by
      rw [MerkleTree.getLeaf, hleaves, List.getElem?_set_ne hindex]
      exact hleaf
    rw [← hleaves] at hrest
    exact ih hrest hkept

end

/-- In a call that is accepted the owner of each leaf has signed what replaces it, and no leaf of
another owner changes, if the service owns the leaves that are replaced.  If a signature verifies
under one key only, the owners have signed in no other case. -/
theorem leaf_authorization (env : Env) (app : AppState) (channelId : Bytes 32) (call : PaymentCall)
    (db db' : Db) (u : Unit) (h : Returns (call.handler env app channelId) db u db') :
    ∃ c updates c', Applied env app channelId call db db' c updates c' ∧
      (AtTurn (OwnLeaf app.pubkey) c.tree.leaves updates →
        AtTurn (Authorized env) c.tree.leaves updates ∧
        ∀ i leaf, c.tree.getLeaf i = some leaf → leaf.amount ≠ 0 → leaf.owner ≠ app.pubkey →
          c'.tree.getLeaf i = some leaf) ∧
      (Exclusive env → AtTurn (Authorized env) c.tree.leaves updates →
        AtTurn (OwnLeaf app.pubkey) c.tree.leaves updates) := by
  obtain ⟨c, updates, c', happlied⟩ := applied_of_returns h
  have hbatched := happlied.batched
  refine ⟨c, updates, c', happlied, fun hown => ⟨?_, fun i leaf hleaf hne howner => ?_⟩,
    fun hexclusive hall => ?_⟩
  · refine AtTurn.of_batched hbatched (fun prevLeaf update hsig hown hne => ?_) hown
    rw [hown hne]
    exact hsig
  · exact getLeaf_of_batched hbatched hown hleaf hne howner
  · refine AtTurn.of_batched hbatched (fun prevLeaf update hsig howner hne => ?_) hall
    exact hexclusive _ _ _ _ (howner hne) hsig

/-! ### The seller takes the payer's leaf -/

namespace Sample

open StateChannel.Sample

/-- Only the signatures of a list verify. -/
def listedEnv (more : List ((Pubkey × Bytes 32) × Bytes 64)) : Env where
  sha := Sha256.sha256
  verifyStrict pubkey message sig :=
    (made ++ more).any fun m => m.1.1 = pubkey ∧ m.1.2.val = message ∧ m.2 = sig
  overflowChecks := false

/-- A service with a key. -/
def appOf (keypair : Keypair) : AppState where
  keypair
  getSlot := .ok 5
  defaultChallengeDuration := 0
  programId := fill 32 40
  channelPda := fun _ => fill 32 41
  escrowPda := fun _ => fill 32 42

/-- The updates of two services: the seller's takes the payer's deposit, and the payer's pays it. -/
def paying : List ((Pubkey × Bytes 32) × Bytes 64) := [
  ((seller, number 0x0f868a89e11b0a9a2f96f7196e99a16af22175a6f701c4807e434bcb24da79cf),
    signature 0x262effd7b522a6958c0edcb2ccdf665e4e76f01b1a65579c625d932bd3ba4dd8
      0x0f028ffe3dcd63c25164f0a71bc4789ac6a431c140fb62ca17b1539cbd45513b),
  ((payer, number 0x020467558b272f05a40de44517c90024db3032ec725db3971e829f28e3835367),
    signature 0x0411ee051d5658c1010271732ebcac08384fc1fb9009797dc65332bc44bb76aa
      0x09b4c8ff96902b969092371ea673902194a00943956d4ba7d6edd4d298e6c2b8),
  ((payer, number 0xf6b004dced6eb45d2aec6d83df7528775a915e0c8e2bd1882210bc304f29da83),
    signature 0x368dff07bb51bc4f298cde2761a52d92cf0dae369fe5d19bebe816972b2dd2bb
      0x073cfa8237dc49e7004762a7faad257d7bad44a8e6e8ed9d6586cd6e2c0e1c9b)]

/-- The seller's update that makes the payer's deposit its own. -/
def taking : LeafUpdate :=
  signLeafUpdate (listedEnv paying) channelId 1 0 (.standard payer 10) (.standard seller 10)
    (sellerWith paying)

/-- The payer's whole deposit, paid to the seller in the other leaf. -/
def paidOver : List PayRequest := [⟨0, payer, 0⟩, ⟨1, seller, 10⟩]

theorem exclusive_listedEnv : Exclusive (listedEnv paying) := by
  have hlist : ∀ m ∈ made ++ paying, ∀ m' ∈ made ++ paying,
      m.1.2 = m'.1.2 → m.2 = m'.2 → m.1.1 = m'.1.1 := by
    decide +kernel
  intro message sig k k' h h'
  obtain ⟨m, hm, htest⟩ := List.any_eq_true.mp h
  obtain ⟨m', hm', htest'⟩ := List.any_eq_true.mp h'
  obtain ⟨rfl, rfl, rfl⟩ := of_decide_eq_true htest
  obtain ⟨rfl, hmessage, hsig⟩ := of_decide_eq_true htest'
  exact hlist m hm m' hm' (Subtype.ext hmessage.symm) hsig.symm

end Sample

/-- `accept_payment` of the seller's service takes the update, which the payer has not signed. -/
theorem accept_takes_deposit : ∃ s₀ db,
    Opened (Sample.listedEnv Sample.paying) (Sample.openArgs 10) s₀ ∧
    s₀.channel.metadata.status = .opened ∧
    s₀.channel.tree.getLeaf 0 = some (.standard Sample.payer 10) ∧
    Returns ((PaymentCall.acceptPayment Sample.taking).handler (Sample.listedEnv Sample.paying)
      (Sample.appOf (Sample.sellerWith Sample.paying)) Sample.channelId) s₀.db () db ∧
    Sample.taking.leafIndex = 0 ∧
    ¬ Authorized (Sample.listedEnv Sample.paying) (.standard Sample.payer 10) Sample.taking ∧
    db.leaves.lookup Sample.channelId = some [.standard Sample.seller 10, .empty] := by
  have htest : (Sample.opened 10 none).toOption.any fun s₀ =>
      decide (s₀.channel.metadata.status = .opened ∧
        s₀.channel.tree.getLeaf 0 = some (.standard Sample.payer 10)) &&
      ((PaymentCall.acceptPayment Sample.taking).handler (Sample.listedEnv Sample.paying)
        (Sample.appOf (Sample.sellerWith Sample.paying)) Sample.channelId).passes s₀.db fun db =>
          decide (db.leaves.lookup Sample.channelId = some [.standard Sample.seller 10, .empty]) := by
    decide +kernel
  have hunsigned : ¬ Authorized (Sample.listedEnv Sample.paying) (.standard Sample.payer 10)
      Sample.taking := by
    intro h
    have hsig := h (by decide)
    exact absurd hsig (by decide +kernel)
  obtain ⟨s₀, hs₀, htest⟩ := exists_of_any htest
  obtain ⟨hstart, htest⟩ := Bool.and_eq_true_iff.mp htest
  obtain ⟨hopen, hleaf⟩ := of_decide_eq_true hstart
  obtain ⟨_, db, hreturns, htest⟩ := exists_of_passes htest
  exact ⟨s₀, db, ⟨_, _, Sample.openChannel_of_opened hs₀⟩, hopen, hleaf, hreturns, rfl, hunsigned,
    of_decide_eq_true htest⟩

/-- `batch_update` of the payer's service pays the deposit over. -/
theorem leaf_authorization_batch : ∃ s₀ db c updates c',
    Opened (Sample.listedEnv Sample.paying) (Sample.openArgs 10) s₀ ∧
    Applied (Sample.listedEnv Sample.paying) (Sample.appOf (Sample.payerWith Sample.paying))
      Sample.channelId (.batchUpdate Sample.paidOver) s₀.db db c updates c' ∧
    AtTurn (Authorized (Sample.listedEnv Sample.paying)) c.tree.leaves updates ∧
    Exclusive (Sample.listedEnv Sample.paying) := by
  let env := Sample.listedEnv Sample.paying
  let app := Sample.appOf (Sample.payerWith Sample.paying)
  have htest : (Sample.opened 10 none).toOption.any fun s₀ =>
      ((PaymentCall.batchUpdate Sample.paidOver).handler env app Sample.channelId).passes s₀.db
        fun _ => (s₀.db.load env.sha Sample.channelId).toOption.all fun c =>
          (addU64 env.overflowChecks c.metadata.sequence 1).all fun base =>
            (signPayments env app Sample.channelId c.tree base 0 Sample.paidOver).toOption.all
              fun updates => decide (AtTurn (OwnLeaf app.pubkey) c.tree.leaves updates) := by
    decide +kernel
  obtain ⟨s₀, hs₀, htest⟩ := exists_of_any htest
  obtain ⟨u, db, hreturns, htest⟩ := exists_of_passes htest
  obtain ⟨c, updates, c', happlied, hauthorized, -⟩ :=
    leaf_authorization env app Sample.channelId (.batchUpdate Sample.paidOver) s₀.db db u hreturns
  obtain ⟨base, hbase, hsign⟩ := happlied.brings
  have hown : AtTurn (OwnLeaf app.pubkey) c.tree.leaves updates := by
    simp only [happlied.load_eq, hbase, hsign, Except.toOption, Option.all_some] at htest
    exact of_decide_eq_true htest
  exact ⟨s₀, db, c, updates, c', ⟨_, _, Sample.openChannel_of_opened hs₀⟩, happlied,
    (hauthorized hown).1, Sample.exclusive_listedEnv⟩

end Service
