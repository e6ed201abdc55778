/-
What a payout of the channel program is bound to.

The three payouts hash `leaf_data` and climb from it to the channel's root, so
it is the encoding of a leaf of the tree, or the 64 bytes of two children.  Of
the fields of the leaf they look at the amount, and two of them at the type and
the owner.  The index is compared with the list of claimed indices only, and
the lock, the timelock and the beneficiary of an HTLC are taken from the
arguments.

* `Payout.Bound` — what a payout should be bound to;
* `Payout.Exact` — what is left to check of its arguments;
* `payouts_bound_iff` — along every run the one holds exactly with the other;
* `payout_unbound` — an HTLC paid to its owner for a preimage of nothing.
-/
import IgnitePay.Lib.Run
import IgnitePay.Program.Spec

namespace Program

open Bytes Machine Solana HashTree StateChannel

/-- What a payout shows of the tree. -/
structure Opening where
  leafIndex : UInt32
  leafHash : Bytes 32
  proof : List (Bytes 32)
  leafData : List UInt8

/-- The strings that checking an opening hashes. -/
def Opening.preimages (sha : List UInt8 → Bytes 32) (o : Opening) : List (List UInt8) :=
  o.leafData :: proofPreimages sha o.leafHash o.proof

namespace Payout

def opening : Payout → Opening
  | .claim a => ⟨a.leafIndex, a.leafHash, a.proof, a.leafData⟩
  | .verifyHtlc a => ⟨a.leafIndex, a.leafHash, a.proof, a.leafData⟩
  | .htlcRefund a => ⟨a.leafIndex, a.leafHash, a.proof, a.leafData⟩

/-! ### The promise -/

/-- What the leaf should be that a payout to `claimer` rests on. -/
def Entitles (sha : List UInt8 → Bytes 32) (slot : UInt64) (claimer : Pubkey) (leaf : UTXOLeaf) :
    Payout → Prop
  | .claim a => leaf.leafType = .standard ∧ leaf.owner = claimer ∧ leaf.amount = a.claimAmount
  | .verifyHtlc a =>
    leaf.leafType = .htlc ∧ leaf.beneficiary = some claimer ∧
      leaf.hashLock = some (sha a.preimage.val) ∧ ∃ t, leaf.timelockSlot = some t ∧ slot ≤ t
  | .htlcRefund _ =>
    leaf.leafType = .htlc ∧ leaf.owner = claimer ∧ ∃ t, leaf.timelockSlot = some t ∧ t < slot

/-- The leaf data is the leaf at the index, and that leaf entitles the claimer. -/
def Bound (sha : List UInt8 → Bytes 32) (tree : MerkleTree) (slot : UInt64) (claimer : Pubkey)
    (p : Payout) : Prop :=
  ∃ leaf, tree.getLeaf p.opening.leafIndex.toNat = some leaf ∧
    p.opening.leafData = leaf.toVec ∧ p.Entitles sha slot claimer leaf

/-! ### What the program does not check -/

/-- The proof is the one of the index, or of a position with the same leaf. -/
def OpensIndex (tree : MerkleTree) (o : Opening) : Prop :=
  ∃ j, tree.getProof j = some o.proof ∧ tree.getLeaf j = tree.getLeaf o.leafIndex.toNat

/-- The bytes of the leaf data that a payout passes over: the type and the owner
in `claim`, and in the others what follows the amount. -/
def BytesMatch (slot : UInt64) (claimer : Pubkey) : Payout → Prop
  | .claim a => a.leafData[0]? = some 0 ∧ slice a.leafData 1 32 = claimer.val
  | .verifyHtlc a =>
    ∃ t, slot ≤ t ∧
      a.leafData.drop 41 = 1 :: a.hashLock.val ++ (1 :: u64Le t ++ 1 :: claimer.val)
  | .htlcRefund a =>
    ∃ (lock : Option (Bytes 32)) (t : UInt64) (rest : List UInt8), t < slot ∧
      a.leafData.drop 41 = optionToVec (fun h : Bytes 32 => h.val) lock ++ (1 :: u64Le t ++ rest)

def Exact (tree : MerkleTree) (slot : UInt64) (claimer : Pubkey) (p : Payout) : Prop :=
  OpensIndex tree p.opening ∧ p.BytesMatch slot claimer

end Payout

/-! ### The leaf behind the leaf data -/

/-- The channel's root is that of a tree built by `MerkleTree::new`, over strings
in `known`. -/
structure TreeOf (sha : List UInt8 → Bytes 32) (known : Set (List UInt8)) (c : ChannelAccount)
    (tree : MerkleTree) : Prop where
  built : ∃ leaves depth, MerkleTree.new sha leaves depth = some tree
  root_eq : tree.root = c.currentRoot
  hashed : ∀ x ∈ tree.preimages, x ∈ known

section

variable {sha : List UInt8 → Bytes 32} {known : Set (List UInt8)} {w w' : World}
  {ctx : PayoutAccounts} {c : ChannelAccount} {tree : MerkleTree} {o : Opening}

/-- The proof of a position opens that position's leaf. -/
theorem exists_leaf_of_opensIndex (hfree : Sha256.CollisionFree sha known)
    (ht : TreeOf sha known c tree) (ho : ∀ x ∈ o.preimages sha, x ∈ known)
    (hhash : sha o.leafData = o.leafHash)
    (hclimb : climb (hashPair sha) o.leafHash o.proof = c.currentRoot)
    (h : Payout.OpensIndex tree o) :
    ∃ leaf, tree.getLeaf o.leafIndex.toNat = some leaf ∧ o.leafData = leaf.toVec := by
  obtain ⟨_, _, hnew⟩ := ht.built
  have hit := isTree_of_new hnew
  obtain ⟨j, hproof, hsame⟩ := h
  obtain ⟨leaf, hleaf⟩ := hit.exists_getLeaf_of_getProof hproof
  have heq : o.leafHash = leaf.hash sha :=
    hit.getProof_inj hfree ht.hashed (fun x hx => ho x (List.mem_cons_of_mem _ hx)) hproof hleaf
      (hclimb.trans ht.root_eq.symm)
  rw [← hhash] at heq
  exact ⟨leaf, hsame ▸ hleaf, hfree (ho _ List.mem_cons_self)
    (ht.hashed _ (IsTree.mem_leaves_preimages hleaf)) heq⟩

/-- An opening of a leaf of the tree uses the proof of a position of that leaf. -/
theorem opensIndex_of_leaf (hfree : Sha256.CollisionFree sha known)
    (ht : TreeOf sha known c tree) (ho : ∀ x ∈ o.preimages sha, x ∈ known)
    (hhash : sha o.leafData = o.leafHash)
    (hclimb : climb (hashPair sha) o.leafHash o.proof = c.currentRoot) {leaf : UTXOLeaf}
    (hleaf : tree.getLeaf o.leafIndex.toNat = some leaf) (hdata : o.leafData = leaf.toVec) :
    Payout.OpensIndex tree o := by
  obtain ⟨_, _, hnew⟩ := ht.built
  have hhash' : o.leafHash = leaf.hash sha := by rw [← hhash, hdata, UTXOLeaf.hash]
  obtain ⟨j, hproof, hj⟩ := (isTree_of_new hnew).exists_getProof_of_climb hfree ht.hashed
    (hdata ▸ ho _ List.mem_cons_self)
    (fun x hx => ho x (List.mem_cons_of_mem _ (hhash' ▸ hx)))
    (hhash' ▸ hclimb.trans ht.root_eq.symm)
  exact ⟨j, hproof, hj.trans hleaf.symm⟩

/-! ### Fields and bytes -/

theorem leafType_eq_iff {leaf : UTXOLeaf} {t : LeafType} :
    leaf.toVec[0]? = some t.toByte ↔ leaf.leafType = t := by
  constructor
  · intro h
    exact LeafType.toByte_inj (Option.some_inj.mp h)
  · rintro rfl
    rfl

theorem owner_eq_iff {leaf : UTXOLeaf} {k : Pubkey} :
    slice leaf.toVec 1 32 = k.val ↔ leaf.owner = k := by
  rw [leaf.slice_owner]
  exact Subtype.val_inj

theorem amount_eq_iff {leaf : UTXOLeaf} {n : UInt64} :
    u64OfLe (slice leaf.toVec 33 8) = n ↔ leaf.amount = n := by
  rw [leaf.slice_amount, u64OfLe_u64Le]

/-- The lock, a timelock and the beneficiary of an HTLC follow the amount. -/
theorem htlcTail_iff {leaf : UTXOLeaf} {lock : Bytes 32} {t : UInt64} {k : Pubkey} :
    leaf.toVec.drop 41 = 1 :: lock.val ++ (1 :: u64Le t ++ 1 :: k.val) ↔
      leaf.hashLock = some lock ∧ leaf.timelockSlot = some t ∧ leaf.beneficiary = some k := by
  rw [leaf.drop_toVec]
  constructor
  · intro h
    obtain ⟨hlock, h⟩ := @bytesOption_append_inj leaf.hashLock (some lock) _ _ h
    obtain ⟨htime, h⟩ := @u64Option_append_inj leaf.timelockSlot (some t) _ _ h
    exact ⟨hlock, htime, @bytesOption_inj leaf.beneficiary (some k) h⟩
  · rintro ⟨hlock, htime, hben⟩
    rw [UTXOLeaf.optionsToVec, hlock, htime, hben]
    rfl

theorem timelock_iff {leaf : UTXOLeaf} {t : UInt64} :
    (∃ (lock : Option (Bytes 32)) (rest : List UInt8), leaf.toVec.drop 41
      = optionToVec (fun h : Bytes 32 => h.val) lock ++ (1 :: u64Le t ++ rest)) ↔
      leaf.timelockSlot = some t := by
  rw [leaf.drop_toVec]
  constructor
  · rintro ⟨lock, rest, h⟩
    obtain ⟨-, h⟩ := @bytesOption_append_inj leaf.hashLock lock _ _ h
    exact (@u64Option_append_inj leaf.timelockSlot (some t) _ _ h).1
  · intro htime
    refine ⟨leaf.hashLock, optionToVec (fun k : Pubkey => k.val) leaf.beneficiary, ?_⟩
    rw [UTXOLeaf.optionsToVec, htime]
    rfl

/-- Once the leaf data is a leaf, the bytes that were passed over decide
whether the leaf entitles the claimer; the rest was checked. -/
theorem entitles_iff {p : Payout} (h : payout sha ctx p w = .ok w') {leaf : UTXOLeaf}
    (hdata : p.opening.leafData = leaf.toVec) :
    p.Entitles sha w.slot ctx.claimer leaf ↔ p.BytesMatch w.slot ctx.claimer := by
  cases p with
  | claim a =>
    -- The amount was compared; neither the type nor the owner was.
    obtain ⟨c, -, -, hchecked, -⟩ := claim_ok h
    have hdata : a.leafData = leaf.toVec := hdata
    have hamount := hchecked.amount_eq
    rw [hdata, amount_eq_iff] at hamount
    simp only [Payout.Entitles, Payout.BytesMatch, hdata, owner_eq_iff, hamount, and_true]
    exact and_congr_left fun _ => (leafType_eq_iff (t := .standard)).symm
  | verifyHtlc a =>
    -- The type was checked; the leaf's lock, timelock and beneficiary were not.
    obtain ⟨c, -, -, hchecked, hlock, -, -⟩ := verifyHtlc_ok h
    have hdata : a.leafData = leaf.toVec := hdata
    have htype := hchecked.type_eq
    rw [hdata] at htype
    simp only [Payout.Entitles, Payout.BytesMatch, hdata, htlcTail_iff, hlock]
    constructor
    · rintro ⟨-, hben, hlock', t, htime, hle⟩
      exact ⟨t, hle, hlock', htime, hben⟩
    · rintro ⟨t, hle, hlock', htime, hben⟩
      exact ⟨(leafType_eq_iff (t := .htlc)).mp htype, hben, hlock', t, htime, hle⟩
  | htlcRefund a =>
    -- Type and owner were checked; the timelock compared was the caller's, not the leaf's.
    obtain ⟨c, -, howner, hchecked, -⟩ := htlcRefund_ok h
    have hdata : a.leafData = leaf.toVec := hdata
    have htype := hchecked.type_eq
    have howner' := hchecked.owner_eq
    rw [hdata] at htype howner'
    simp only [Payout.Entitles, Payout.BytesMatch, hdata]
    constructor
    · rintro ⟨-, -, t, htime, hlt⟩
      obtain ⟨lock, rest, hdrop⟩ := timelock_iff.mpr htime
      exact ⟨lock, t, rest, hlt, hdrop⟩
    · rintro ⟨lock, t, rest, hlt, hdrop⟩
      exact ⟨(leafType_eq_iff (t := .htlc)).mp htype, howner ▸ owner_eq_iff.mp howner', t,
        timelock_iff.mp ⟨lock, rest, hdrop⟩, hlt⟩

/-- What every payout has checked of its opening. -/
theorem opening_of_payout {p : Payout} (h : payout sha ctx p w = .ok w') :
    ∃ c, w.channelAt ctx.channel = some c ∧ sha p.opening.leafData = p.opening.leafHash ∧
      climb (hashPair sha) p.opening.leafHash p.opening.proof = c.currentRoot := by
  cases p with
  | claim a =>
    obtain ⟨c, hc, -, hchecked, -⟩ := claim_ok h
    exact ⟨c, hc.channel_eq, hchecked.hash_eq, hc.climbs⟩
  | verifyHtlc a =>
    obtain ⟨c, hc, -, hchecked, -⟩ := verifyHtlc_ok h
    exact ⟨c, hc.channel_eq, hchecked.hash_eq, hc.climbs⟩
  | htlcRefund a =>
    obtain ⟨c, hc, -, hchecked, -⟩ := htlcRefund_ok h
    exact ⟨c, hc.channel_eq, hchecked.hash_eq, hc.climbs⟩

/-- A payout that goes through is bound to its leaf exactly when its arguments
hold what the program passes over. -/
theorem bound_iff_exact {p : Payout} (h : payout sha ctx p w = .ok w')
    (hc : w.channelAt ctx.channel = some c) (hfree : Sha256.CollisionFree sha known)
    (ht : TreeOf sha known c tree) (ho : ∀ x ∈ p.opening.preimages sha, x ∈ known) :
    p.Bound sha tree w.slot ctx.claimer ↔ p.Exact tree w.slot ctx.claimer := by
  obtain ⟨c', hc', hhash, hclimb⟩ := opening_of_payout h
  obtain rfl : c' = c := Option.some_inj.mp (hc'.symm.trans hc)
  constructor
  · rintro ⟨leaf, hleaf, hdata, hentitles⟩
    exact ⟨opensIndex_of_leaf hfree ht ho hhash hclimb hleaf hdata,
      (entitles_iff h hdata).mp hentitles⟩
  · rintro ⟨hopens, hbytes⟩
    obtain ⟨leaf, hleaf, hdata⟩ := exists_leaf_of_opensIndex hfree ht ho hhash hclimb hopens
    exact ⟨leaf, hleaf, hdata, (entitles_iff h hdata).mpr hbytes⟩

/-! ### Along a run -/

/-- A property of the payouts from a channel whose root is that of a tree. -/
def OfPayout (sha : List UInt8 → Bytes 32) (known : Set (List UInt8))
    (P : MerkleTree → UInt64 → Pubkey → Payout → Prop) (w : World) : Call → Prop
  | .payout ctx p => ∀ c tree, w.channelAt ctx.channel = some c → TreeOf sha known c tree →
      (∀ x ∈ p.opening.preimages sha, x ∈ known) → P tree w.slot ctx.claimer p
  | _ => True

/-- A payout, if the call is one, is bound to the leaf at its index. -/
def PaysBound (sha : List UInt8 → Bytes 32) (known : Set (List UInt8)) : World → Call → Prop :=
  OfPayout sha known fun tree slot claimer p => p.Bound sha tree slot claimer

/-- The arguments of a payout hold what the program does not check. -/
def PaysExact (sha : List UInt8 → Bytes 32) (known : Set (List UInt8)) : World → Call → Prop :=
  OfPayout sha known fun tree slot claimer p => p.Exact tree slot claimer

theorem paysBound_iff {call : Call} (hfree : Sha256.CollisionFree sha known)
    (h : exec sha call w = .ok w') : PaysBound sha known w call ↔ PaysExact sha known w call := by
  cases call with
  | payout ctx p =>
    exact ⟨fun hb c tree hc ht ho => (bound_iff_exact h hc hfree ht ho).mp (hb c tree hc ht ho),
      fun he c tree hc ht ho => (bound_iff_exact h hc hfree ht ho).mpr (he c tree hc ht ho)⟩
  | _ => exact Iff.rfl

/-- In every run, all payouts are bound to their leaves exactly when all of
them were called with arguments that hold what the program does not check. -/
theorem payouts_bound_iff {w₀ : World} {h : List (World × Call)}
    (hfree : Sha256.CollisionFree sha known) (hrun : Run (exec sha) w₀ h w) :
    (∀ p ∈ h, PaysBound sha known p.1 p.2) ↔ ∀ p ∈ h, PaysExact sha known p.1 p.2 := by
  refine forall₂_congr fun p hp => ?_
  obtain ⟨_, _, -, -, hok⟩ := hrun.of_mem hp
  exact paysBound_iff hfree hok

end

/-! ### An HTLC paid to its owner -/

namespace Stolen

def user : Pubkey := fill 32 9
def provider : Pubkey := fill 32 12
def mint : Pubkey := fill 32 30
def channelId : Bytes 32 := fill 32 1

/-- The hash of the secret, 32 bytes of 5. -/
def lock : Bytes 32 :=
  ⟨[248, 73, 214, 115, 37, 250, 207, 4, 23, 123, 198, 99, 178, 220, 84, 64,
    81, 131, 28, 88, 158, 245, 129, 212, 18, 242, 235, 164, 72, 52, 231, 124], rfl⟩

/-- The hash of 32 bytes of 6. -/
def otherLock : Bytes 32 :=
  ⟨[232, 2, 8, 106, 214, 161, 225, 107, 120, 53, 42, 215, 41, 109, 42, 171,
    216, 53, 177, 177, 109, 190, 149, 30, 17, 53, 185, 124, 104, 226, 157, 129], rfl⟩

/-- The user locked 500 for the provider until slot 40. -/
def leaf : UTXOLeaf := .htlc user 500 lock 40 provider

def leafHash : Bytes 32 :=
  ⟨[244, 232, 18, 173, 21, 68, 160, 51, 51, 89, 171, 192, 100, 136, 174, 166,
    6, 25, 219, 34, 123, 54, 142, 169, 0, 91, 118, 204, 118, 58, 130, 2], rfl⟩

def emptyHash : Bytes 32 :=
  ⟨[133, 117, 155, 56, 17, 255, 125, 196, 123, 3, 121, 42, 200, 83, 23, 190,
    81, 67, 26, 63, 158, 1, 220, 175, 206, 49, 126, 215, 54, 163, 145, 176], rfl⟩

def root : Bytes 32 :=
  ⟨[21, 44, 86, 42, 171, 31, 102, 153, 113, 137, 130, 63, 4, 51, 147, 146,
    28, 248, 121, 250, 220, 170, 73, 75, 100, 136, 119, 3, 209, 104, 45, 136], rfl⟩

def tree : MerkleTree :=
  ⟨[leaf, .empty], [leafHash, emptyHash], [[leafHash, emptyHash], [root]], 1, 2⟩

def known : Set (List UInt8) := {x | x ∈ tree.preimages}

def tokenAccount (owner : Address) (amount : UInt64) : Token.Account Address :=
  ⟨mint, owner, amount, none, 0, false⟩

/-- Two vaults, and the escrow of the channel with 1000 tokens. -/
def start : World where
  channels := ∅
  tokens := (((∅ : Token.Ledger Address).insert (.key (fill 32 20))
    (tokenAccount (.key user) 0)).insert (.key (fill 32 21))
    (tokenAccount (.key provider) 0)).insert (.escrow channelId)
    (tokenAccount (.escrow channelId) 1000)
  slot := 10

def openArgs : OpenChannelArgs where
  channelId := channelId
  depositA := 1000
  treeDepth := 1
  openSlot := 10
  challengeDuration := 100
  minChallengeDelay := 0
  initialRoot := root

/-- The bytes for the challenge and the payout, both in slot 10. -/
def data : List UInt8 := sysvarBytes [(user, channelMessage channelId 10 root)]

/-- The user opens the channel and challenges it. -/
def challenged : List Call :=
  [.openChannel ⟨.channel channelId, user, user, provider, mint, .key (fill 32 20),
      .key (fill 32 21), sysvarBytes [(user, openArgs.message)]⟩ openArgs,
    .triggerChallenge ⟨.channel channelId, user, data⟩ root 1]

def args : VerifyHtlcArgs where
  leafIndex := 0
  preimage := fill 32 6
  hashLock := otherLock
  leafAmount := 500
  beneficiary := user
  leafHash := leafHash
  proof := [emptyHash]
  timelockSlot := 1000
  leafData := leaf.toVec

/-- The user takes the HTLC, with a preimage of another lock. -/
def stolen : Call :=
  .payout ⟨.channel channelId, user, .key (fill 32 20), .escrow channelId, data⟩ (.verifyHtlc args)

theorem built : MerkleTree.new Sha256.sha256 [leaf] 1 = some tree := by decide +kernel

theorem collisionFree : Sha256.CollisionFree Sha256.sha256 known := by
  have hnodup : (tree.preimages.map Sha256.sha256).Nodup := by decide +kernel
  intro x hx y hy hxy
  exact List.inj_on_of_nodup_map hnodup hx hy hxy

theorem args_known : ∀ x ∈ (Payout.verifyHtlc args).opening.preimages Sha256.sha256, x ∈ known := by
  show ∀ x ∈ (Payout.verifyHtlc args).opening.preimages Sha256.sha256, x ∈ tree.preimages
  decide

/-- The run leads to a challenged channel, from which the payout goes through. -/
theorem reached : ∃ h w, Run (exec Sha256.sha256) start h w ∧
    h.map Prod.snd = challenged.reverse ∧
    (w.channelAt (.channel channelId)).map ChannelAccount.currentRoot = some root ∧
    (exec Sha256.sha256 stolen w).isOk = true :=
  Run.exists_of_test (by decide +kernel)

end Stolen

/-- The owner of an HTLC for someone else takes it before its timelock, without
its secret. -/
theorem payout_unbound :
    ¬ ∀ (sha : List UInt8 → Bytes 32) (known : Set (List UInt8)) (w₀ w : World)
      (h : List (World × Call)), Sha256.CollisionFree sha known → w₀.channels = ∅ →
        Run (exec sha) w₀ h w → ∀ p ∈ h, PaysBound sha known p.1 p.2 := by
  intro hbound
  obtain ⟨h, w, hrun, -, hroot, hok⟩ := Stolen.reached
  obtain ⟨w', hw'⟩ := exists_of_isOk hok
  obtain ⟨c, hc, hroot⟩ := Option.map_eq_some_iff.mp hroot
  have ht : TreeOf Sha256.sha256 Stolen.known c Stolen.tree :=
    ⟨⟨_, _, Stolen.built⟩, hroot.symm, fun _ hx => hx⟩
  obtain ⟨leaf, hleaf, -, -, hben, -⟩ := hbound _ _ _ _ _ Stolen.collisionFree rfl
    (.step hrun hw') (w, Stolen.stolen) List.mem_cons_self c Stolen.tree hc ht Stolen.args_known
  obtain rfl : Stolen.leaf = leaf := Option.some_inj.mp hleaf
  exact absurd hben (by decide)

/-- The criterion along that run. -/
theorem payouts_bound_iff_stolen : ∃ h w, Run (exec Sha256.sha256) Stolen.start h w ∧
    h.map Prod.snd = Stolen.stolen :: Stolen.challenged.reverse ∧
    ((∀ p ∈ h, PaysBound Sha256.sha256 Stolen.known p.1 p.2) ↔
      ∀ p ∈ h, PaysExact Sha256.sha256 Stolen.known p.1 p.2) := by
  obtain ⟨h, w, hrun, hcalls, -, hok⟩ := Stolen.reached
  obtain ⟨w', hw'⟩ := exists_of_isOk hok
  exact ⟨_, w', .step hrun hw', congrArg _ hcalls,
    payouts_bound_iff Stolen.collisionFree (.step hrun hw')⟩

end Program
