/-
The entry of the channel program (`lib.rs`), and the client that enters it
(`ignite-pay-solana/src/channel.rs`).

The client writes the discriminator and the arguments of an instruction by hand, and lists its
accounts; the program reads them in the order of its account structs and of the parameters of its
methods.

* `methods` — what the program reads;
* `Request` — what the client writes, one case for each builder;
* `entered_iff_built` — a call is made exactly by what one of the builders gives for it, up to bytes
  and accounts that are left over and to privileges that the transaction adds.
-/
import IgnitePay.Lib.Anchor
import IgnitePay.Program.Builders

namespace Program

open Anchor Bytes Machine Solana

/-! ### What the program reads -/

/-- What keys stand for: the addresses that they are, and the bytes that their accounts hold. -/
structure Cluster where
  locate : Pubkey → Address
  data : Pubkey → List UInt8

def OpenChannelArgs.codec : Codec OpenChannelArgs :=
  .iso
    { toFun := fun (channelId, depositA, treeDepth, openSlot, challengeDuration, minChallengeDelay,
        initialRoot) => ⟨channelId, depositA, treeDepth, openSlot, challengeDuration,
          minChallengeDelay, initialRoot⟩
      invFun := fun a => (a.channelId, a.depositA, a.treeDepth, a.openSlot, a.challengeDuration,
        a.minChallengeDelay, a.initialRoot)
      left_inv := fun _ => rfl
      right_inv := fun _ => rfl }
    (.pair (.bytes 32) (.pair .u64 (.pair .u32 (.pair .u64 (.pair .u64 (.pair .u64 (.bytes 32)))))))

def ClaimArgs.codec : Codec ClaimArgs :=
  .iso
    { toFun := fun (leafIndex, claimAmount, leafOwner, leafHash, proof, leafData) =>
        ⟨leafIndex, claimAmount, leafOwner, leafHash, proof, leafData⟩
      invFun := fun a => (a.leafIndex, a.claimAmount, a.leafOwner, a.leafHash, a.proof, a.leafData)
      left_inv := fun _ => rfl
      right_inv := fun _ => rfl }
    (.pair .u32 (.pair .u64 (.pair (.bytes 32) (.pair (.bytes 32) (.pair (.vec (.bytes 32))
      (.vec .u8))))))

def VerifyHtlcArgs.codec : Codec VerifyHtlcArgs :=
  .iso
    { toFun := fun (leafIndex, preimage, hashLock, leafAmount, beneficiary, leafHash, proof,
        timelockSlot, leafData) => ⟨leafIndex, preimage, hashLock, leafAmount, beneficiary, leafHash,
          proof, timelockSlot, leafData⟩
      invFun := fun a => (a.leafIndex, a.preimage, a.hashLock, a.leafAmount, a.beneficiary, a.leafHash,
        a.proof, a.timelockSlot, a.leafData)
      left_inv := fun _ => rfl
      right_inv := fun _ => rfl }
    (.pair .u32 (.pair (.bytes 32) (.pair (.bytes 32) (.pair .u64 (.pair (.bytes 32)
      (.pair (.bytes 32) (.pair (.vec (.bytes 32)) (.pair .u64 (.vec .u8)))))))))

def HtlcRefundArgs.codec : Codec HtlcRefundArgs :=
  .iso
    { toFun := fun (leafIndex, timelockSlot, leafAmount, leafOwner, leafHash, proof, leafData) =>
        ⟨leafIndex, timelockSlot, leafAmount, leafOwner, leafHash, proof, leafData⟩
      invFun := fun a => (a.leafIndex, a.timelockSlot, a.leafAmount, a.leafOwner, a.leafHash, a.proof,
        a.leafData)
      left_inv := fun _ => rfl
      right_inv := fun _ => rfl }
    (.pair .u32 (.pair .u64 (.pair .u64 (.pair (.bytes 32) (.pair (.bytes 32)
      (.pair (.vec (.bytes 32)) (.vec .u8)))))))

section

variable (cl : Cluster)

def openChannelMethod : Method Call where
  name := "open_channel"
  Args := OpenChannelArgs
  args := OpenChannelArgs.codec
  accounts := [.mutable, .signer, .readonly, .readonly, .readonly, .readonly, .readonly,
    .mutableSigner, .program systemProgramId, .program splTokenId, .sysvar rentId, .readonly]
  call
    | [channel, user, userPubkey, providerPubkey, tokenMint, vaultA, vaultB, _, _, _, _, sysvar], a =>
      some (.openChannel ⟨cl.locate channel, user, userPubkey, providerPubkey, tokenMint,
        cl.locate vaultA, cl.locate vaultB, cl.data sysvar⟩ a)
    | _, _ => none

def fundChannelMethod : Method Call where
  name := "fund_channel"
  Args := UInt64
  args := .u64
  accounts := [.mutable, .signer, .mutable, .mutable, .program splTokenId]
  call
    | [channel, signer, sourceVault, vaultB, _], depositB =>
      some (.fundChannel ⟨cl.locate channel, signer, cl.locate sourceVault, cl.locate vaultB⟩ depositB)
    | _, _ => none

def cooperativeSettleMethod : Method Call where
  name := "cooperative_settle"
  Args := UInt64 × Bytes 32 × UInt64
  args := .pair .u64 (.pair (.bytes 32) .u64)
  accounts := [.mutable, .sysvar clockId, .readonly]
  call
    | [channel, _, sysvar], (sequence, root, settleWindow) =>
      some (.cooperativeSettle ⟨cl.locate channel, cl.data sysvar⟩ sequence root settleWindow)
    | _, _ => none

def triggerChallengeMethod : Method Call where
  name := "trigger_challenge"
  Args := Bytes 32 × UInt64
  args := .pair (.bytes 32) .u64
  accounts := [.mutable, .signer, .sysvar clockId, .readonly]
  call
    | [channel, challenger, _, sysvar], (submittedRoot, submittedSequence) =>
      some (.triggerChallenge ⟨cl.locate channel, challenger, cl.data sysvar⟩ submittedRoot
        submittedSequence)
    | _, _ => none

def submitCounterStateMethod : Method Call where
  name := "submit_counter_state"
  Args := UInt64 × Bytes 32
  args := .pair .u64 (.bytes 32)
  accounts := [.mutable, .readonly]
  call
    | [channel, sysvar], (sequence, root) =>
      some (.submitCounterState ⟨cl.locate channel, cl.data sysvar⟩ sequence root)
    | _, _ => none

def settleAfterTimeoutMethod : Method Call where
  name := "settle_after_timeout"
  Args := UInt64
  args := .u64
  accounts := [.mutable, .sysvar clockId]
  call
    | [channel, _], settleWindow => some (.settleAfterTimeout ⟨cl.locate channel⟩ settleWindow)
    | _, _ => none

/-- `claim`, `verify_htlc` and `htlc_refund` take the same accounts. -/
def payoutMethod (name : String) {Args : Type} (args : Codec Args) (payout : Args → Payout) :
    Method Call where
  name
  Args
  args
  accounts := [.mutable, .signer, .mutable, .mutable, .program splTokenId, .sysvar clockId, .readonly]
  call
    | [channel, claimer, vault, escrowVault, _, _, sysvar], a =>
      some (.payout ⟨cl.locate channel, claimer, cl.locate vault, cl.locate escrowVault,
        cl.data sysvar⟩ (payout a))
    | _, _ => none

def claimMethod : Method Call := payoutMethod cl "claim" ClaimArgs.codec .claim

def verifyHtlcMethod : Method Call := payoutMethod cl "verify_htlc" VerifyHtlcArgs.codec .verifyHtlc

def htlcRefundMethod : Method Call := payoutMethod cl "htlc_refund" HtlcRefundArgs.codec .htlcRefund

def finalizeSettlementMethod : Method Call where
  name := "finalize_settlement"
  Args := Unit
  args := .unit
  accounts := [.mutable, .signer, .mutable, .mutable, .mutable, .program splTokenId, .sysvar clockId,
    .readonly]
  call
    | [channel, caller, vaultA, vaultB, escrowVault, _, _, sysvar], _ =>
      some (.finalizeSettlement ⟨cl.locate channel, caller, cl.locate vaultA, cl.locate vaultB,
        cl.locate escrowVault, cl.data sysvar⟩)
    | _, _ => none

/-- `#[program] mod ignite_pay_program`. -/
def methods : List (Method Call) :=
  [openChannelMethod cl, fundChannelMethod cl, cooperativeSettleMethod cl, triggerChallengeMethod cl,
    submitCounterStateMethod cl, settleAfterTimeoutMethod cl, claimMethod cl, verifyHtlcMethod cl,
    htlcRefundMethod cl, finalizeSettlementMethod cl]

end

/-! ### What the client writes -/

/-- The builders with what they are given. -/
inductive Request
  | openChannel (channelPda user userPubkey providerPubkey tokenMint vaultA vaultB payer : Pubkey)
      (a : OpenChannelArgs)
  | fundChannel (channelPda signer sourceVault vaultB : Pubkey) (depositB : UInt64)
  | cooperativeSettle (channelPda : Pubkey) (sequence : UInt64) (root : Bytes 32)
      (settleWindow : UInt64)
  | triggerChallenge (channelPda challenger : Pubkey) (submittedRoot : Bytes 32)
      (submittedSequence : UInt64)
  | submitCounterState (channelPda : Pubkey) (sequence : UInt64) (root : Bytes 32)
  | settleAfterTimeout (channelPda : Pubkey) (settleWindow : UInt64)
  | payout (channelPda claimer vault escrowVault : Pubkey) (p : Payout)
  | finalizeSettlement (channelPda caller vaultA vaultB escrowVault : Pubkey)

namespace Request

/-- The instruction that the client builds. -/
def build (programId : Pubkey) : Request → Instruction
  | openChannel channelPda user userPubkey providerPubkey tokenMint vaultA vaultB payer a =>
    buildOpenChannelIx Sha256.sha256 programId channelPda user userPubkey providerPubkey tokenMint
      vaultA vaultB payer a
  | fundChannel channelPda signer sourceVault vaultB depositB =>
    buildFundChannelIx Sha256.sha256 programId channelPda signer sourceVault vaultB depositB
  | cooperativeSettle channelPda sequence root settleWindow =>
    buildCooperativeSettleIx Sha256.sha256 programId channelPda sequence root settleWindow
  | triggerChallenge channelPda challenger submittedRoot submittedSequence =>
    buildTriggerChallengeIx Sha256.sha256 programId channelPda challenger submittedRoot
      submittedSequence
  | submitCounterState channelPda sequence root =>
    buildSubmitCounterStateIx Sha256.sha256 programId channelPda sequence root
  | settleAfterTimeout channelPda settleWindow =>
    buildSettleAfterTimeoutIx Sha256.sha256 programId channelPda settleWindow
  | payout channelPda claimer vault escrowVault (.claim a) =>
    buildClaimIx Sha256.sha256 programId channelPda claimer vault escrowVault a
  | payout channelPda claimer vault escrowVault (.verifyHtlc a) =>
    buildVerifyHtlcIx Sha256.sha256 programId channelPda claimer vault escrowVault a
  | payout channelPda claimer vault escrowVault (.htlcRefund a) =>
    buildHtlcRefundIx Sha256.sha256 programId channelPda claimer vault escrowVault a
  | finalizeSettlement channelPda caller vaultA vaultB escrowVault =>
    buildFinalizeSettlementIx Sha256.sha256 programId channelPda caller vaultA vaultB escrowVault

/-- The call that is asked for; what stands in the place of the instructions sysvar is not checked. -/
def call (cl : Cluster) (sysvar : Pubkey) : Request → Call
  | openChannel channelPda user userPubkey providerPubkey tokenMint vaultA vaultB _ a =>
    .openChannel ⟨cl.locate channelPda, user, userPubkey, providerPubkey, tokenMint,
      cl.locate vaultA, cl.locate vaultB, cl.data sysvar⟩ a
  | fundChannel channelPda signer sourceVault vaultB depositB =>
    .fundChannel ⟨cl.locate channelPda, signer, cl.locate sourceVault, cl.locate vaultB⟩ depositB
  | cooperativeSettle channelPda sequence root settleWindow =>
    .cooperativeSettle ⟨cl.locate channelPda, cl.data sysvar⟩ sequence root settleWindow
  | triggerChallenge channelPda challenger submittedRoot submittedSequence =>
    .triggerChallenge ⟨cl.locate channelPda, challenger, cl.data sysvar⟩ submittedRoot
      submittedSequence
  | submitCounterState channelPda sequence root =>
    .submitCounterState ⟨cl.locate channelPda, cl.data sysvar⟩ sequence root
  | settleAfterTimeout channelPda settleWindow =>
    .settleAfterTimeout ⟨cl.locate channelPda⟩ settleWindow
  | payout channelPda claimer vault escrowVault p =>
    .payout ⟨cl.locate channelPda, claimer, cl.locate vault, cl.locate escrowVault,
      cl.data sysvar⟩ p
  | finalizeSettlement channelPda caller vaultA vaultB escrowVault =>
    .finalizeSettlement ⟨cl.locate channelPda, caller, cl.locate vaultA, cl.locate vaultB,
      cl.locate escrowVault, cl.data sysvar⟩

/-- The proof and the leaf of a payout are no longer than their lengths can say. -/
def Fits : Request → Prop
  | payout _ _ _ _ (.claim a) => a.proof.length < 2 ^ 32 ∧ a.leafData.length < 2 ^ 32
  | payout _ _ _ _ (.verifyHtlc a) => a.proof.length < 2 ^ 32 ∧ a.leafData.length < 2 ^ 32
  | payout _ _ _ _ (.htlcRefund a) => a.proof.length < 2 ^ 32 ∧ a.leafData.length < 2 ^ 32
  | _ => True

def method (cl : Cluster) : Request → Method Call
  | openChannel .. => openChannelMethod cl
  | fundChannel .. => fundChannelMethod cl
  | cooperativeSettle .. => cooperativeSettleMethod cl
  | triggerChallenge .. => triggerChallengeMethod cl
  | submitCounterState .. => submitCounterStateMethod cl
  | settleAfterTimeout .. => settleAfterTimeoutMethod cl
  | payout _ _ _ _ (.claim _) => claimMethod cl
  | payout _ _ _ _ (.verifyHtlc _) => verifyHtlcMethod cl
  | payout _ _ _ _ (.htlcRefund _) => htlcRefundMethod cl
  | finalizeSettlement .. => finalizeSettlementMethod cl

/-- The accounts that a builder lists, with another one in the place of the sysvar. -/
def keys (sysvar : Pubkey) : Request → List Pubkey
  | openChannel channelPda user userPubkey providerPubkey tokenMint vaultA vaultB payer _ =>
    [channelPda, user, userPubkey, providerPubkey, tokenMint, vaultA, vaultB, payer, systemProgramId,
      splTokenId, rentId, sysvar]
  | fundChannel channelPda signer sourceVault vaultB _ =>
    [channelPda, signer, sourceVault, vaultB, splTokenId]
  | cooperativeSettle channelPda _ _ _ => [channelPda, clockId, sysvar]
  | triggerChallenge channelPda challenger _ _ => [channelPda, challenger, clockId, sysvar]
  | submitCounterState channelPda _ _ => [channelPda, sysvar]
  | settleAfterTimeout channelPda _ => [channelPda, clockId]
  | payout channelPda claimer vault escrowVault _ =>
    [channelPda, claimer, vault, escrowVault, splTokenId, clockId, sysvar]
  | finalizeSettlement channelPda caller vaultA vaultB escrowVault =>
    [channelPda, caller, vaultA, vaultB, escrowVault, splTokenId, clockId, sysvar]

def args (cl : Cluster) : (r : Request) → (r.method cl).Args
  | openChannel _ _ _ _ _ _ _ _ a => a
  | fundChannel _ _ _ _ depositB => depositB
  | cooperativeSettle _ sequence root settleWindow => (sequence, root, settleWindow)
  | triggerChallenge _ _ submittedRoot submittedSequence => (submittedRoot, submittedSequence)
  | submitCounterState _ sequence root => (sequence, root)
  | settleAfterTimeout _ settleWindow => settleWindow
  | payout _ _ _ _ (.claim a) => a
  | payout _ _ _ _ (.verifyHtlc a) => a
  | payout _ _ _ _ (.htlcRefund a) => a
  | finalizeSettlement .. => ()

variable (cl : Cluster) (sysvar programId : Pubkey) (r : Request)

theorem method_mem : r.method cl ∈ methods cl := by
  rw [methods]
  cases r with
  | payout _ _ _ _ p => cases p <;> simp [method]
  | _ => simp [method]

theorem takes : List.Forall₂ AccountSpec.Takes (r.method cl).accounts (r.keys sysvar) := by
  cases r with
  | payout _ _ _ _ p =>
    cases p <;> simp [method, keys, claimMethod, verifyHtlcMethod, htlcRefundMethod, payoutMethod]
  | openChannel => simp [method, keys, openChannelMethod]
  | fundChannel => simp [method, keys, fundChannelMethod]
  | cooperativeSettle => simp [method, keys, cooperativeSettleMethod]
  | triggerChallenge => simp [method, keys, triggerChallengeMethod]
  | submitCounterState => simp [method, keys, submitCounterStateMethod]
  | settleAfterTimeout => simp [method, keys, settleAfterTimeoutMethod]
  | finalizeSettlement => simp [method, keys, finalizeSettlementMethod]

theorem call_eq : (r.method cl).call (r.keys sysvar) (r.args cl) = some (r.call cl sysvar) := by
  cases r with
  | payout _ _ _ _ p =>
    cases p with
    | claim a => rfl
    | verifyHtlc a => rfl
    | htlcRefund a => rfl
  | _ => rfl

theorem fits_iff : (r.method cl).args.Fits (r.args cl) ↔ r.Fits := by
  cases r with
  | payout _ _ _ _ p =>
    cases p with
    | claim a =>
      show True ∧ True ∧ True ∧ True ∧ (Codec.vec (.bytes 32)).Fits a.proof ∧
        (Codec.vec .u8).Fits a.leafData ↔ _
      simp [Fits]
    | verifyHtlc a =>
      show True ∧ True ∧ True ∧ True ∧ True ∧ True ∧ (Codec.vec (.bytes 32)).Fits a.proof ∧ True ∧
        (Codec.vec .u8).Fits a.leafData ↔ _
      simp [Fits]
    | htlcRefund a =>
      show True ∧ True ∧ True ∧ True ∧ True ∧ (Codec.vec (.bytes 32)).Fits a.proof ∧
        (Codec.vec .u8).Fits a.leafData ↔ _
      simp [Fits]
  | openChannel => exact iff_of_true ⟨trivial, trivial, trivial, trivial, trivial, trivial, trivial⟩ trivial
  | fundChannel => exact Iff.rfl
  | cooperativeSettle => exact iff_of_true ⟨trivial, trivial, trivial⟩ trivial
  | triggerChallenge => exact iff_of_true ⟨trivial, trivial⟩ trivial
  | submitCounterState => exact iff_of_true ⟨trivial, trivial⟩ trivial
  | settleAfterTimeout => exact Iff.rfl
  | finalizeSettlement => exact Iff.rfl

/-- The bytes of a leaf follow its other arguments. -/
theorem write_leafData (l : List UInt8) : (Codec.vec .u8).write l = pushVec l :=
  Codec.write_vec_u8 l

/-- A builder gives the instruction of its method. -/
theorem build_eq :
    r.build programId = (r.method cl).build programId (r.keys instructionsSysvarId) (r.args cl) := by
  cases r with
  | payout _ _ _ _ p =>
    cases p with
    | claim a =>
      rw [build, buildClaimIx, ← write_leafData]
      rfl
    | verifyHtlc a =>
      rw [build, buildVerifyHtlcIx, ← write_leafData]
      rfl
    | htlcRefund a =>
      rw [build, buildHtlcRefundIx, ← write_leafData]
      rfl
  | finalizeSettlement =>
    rw [build, buildFinalizeSettlementIx]
    exact congrArg (Instruction.mk _ _) (List.append_nil _).symm
  | _ => rfl

end Request

/-- The keys that a payout can take. -/
theorem exists_keys_of_payout {cl : Cluster} {name : String} {Args : Type} {args : Codec Args}
    {payout : Args → Payout} {ks : List Pubkey}
    (htakes : List.Forall₂ AccountSpec.Takes (payoutMethod cl name args payout).accounts ks) :
    ∃ channel claimer vault escrowVault sysvar,
      ks = [channel, claimer, vault, escrowVault, splTokenId, clockId, sysvar] := by
  simp only [payoutMethod] at htakes
  rcases htakes with _ | ⟨-, _ | ⟨-, _ | ⟨-, _ | ⟨-, _ | ⟨htoken, _ | ⟨hclock, _ | ⟨-, ⟨⟩⟩⟩⟩⟩⟩⟩⟩
  obtain rfl := (AccountSpec.takes_program _ _).mp htoken
  obtain rfl := (AccountSpec.takes_sysvar _ _).mp hclock
  exact ⟨_, _, _, _, _, rfl⟩

/-- Whatever a method of the program can take is asked for by a request. -/
theorem exhausts (cl : Cluster) (P : ∀ m : Method Call, List Pubkey → m.Args → Prop)
    (h : ∀ r : Request × Pubkey, P (r.1.method cl) (r.1.keys r.2) (r.1.args cl)) :
    ∀ m ∈ methods cl, ∀ ks, List.Forall₂ AccountSpec.Takes m.accounts ks → ∀ a, P m ks a := by
  intro m hm ks htakes a
  simp only [methods, List.mem_cons, List.not_mem_nil, or_false] at hm
  rcases hm with rfl | rfl | rfl | rfl | rfl | rfl | rfl | rfl | rfl | rfl
  · simp only [openChannelMethod] at htakes
    rcases htakes with _ | ⟨-, _ | ⟨-, _ | ⟨-, _ | ⟨-, _ | ⟨-, _ | ⟨-, _ | ⟨-, _ | ⟨-, _ | ⟨hsystem,
      _ | ⟨htoken, _ | ⟨hrent, _ | ⟨-, ⟨⟩⟩⟩⟩⟩⟩⟩⟩⟩⟩⟩⟩⟩
    obtain rfl := (AccountSpec.takes_program _ _).mp hsystem
    obtain rfl := (AccountSpec.takes_program _ _).mp htoken
    obtain rfl := (AccountSpec.takes_sysvar _ _).mp hrent
    exact h (.openChannel _ _ _ _ _ _ _ _ a, _)
  · simp only [fundChannelMethod] at htakes
    rcases htakes with _ | ⟨-, _ | ⟨-, _ | ⟨-, _ | ⟨-, _ | ⟨htoken, ⟨⟩⟩⟩⟩⟩⟩
    obtain rfl := (AccountSpec.takes_program _ _).mp htoken
    exact h (.fundChannel _ _ _ _ a, instructionsSysvarId)
  · simp only [cooperativeSettleMethod] at htakes
    rcases htakes with _ | ⟨-, _ | ⟨hclock, _ | ⟨-, ⟨⟩⟩⟩⟩
    obtain rfl := (AccountSpec.takes_sysvar _ _).mp hclock
    exact h (.cooperativeSettle _ a.1 a.2.1 a.2.2, _)
  · simp only [triggerChallengeMethod] at htakes
    rcases htakes with _ | ⟨-, _ | ⟨-, _ | ⟨hclock, _ | ⟨-, ⟨⟩⟩⟩⟩⟩
    obtain rfl := (AccountSpec.takes_sysvar _ _).mp hclock
    exact h (.triggerChallenge _ _ a.1 a.2, _)
  · simp only [submitCounterStateMethod] at htakes
    rcases htakes with _ | ⟨-, _ | ⟨-, ⟨⟩⟩⟩
    exact h (.submitCounterState _ a.1 a.2, _)
  · simp only [settleAfterTimeoutMethod] at htakes
    rcases htakes with _ | ⟨-, _ | ⟨hclock, ⟨⟩⟩⟩
    obtain rfl := (AccountSpec.takes_sysvar _ _).mp hclock
    exact h (.settleAfterTimeout _ a, instructionsSysvarId)
  · obtain ⟨channel, claimer, vault, escrowVault, sysvar, rfl⟩ := exists_keys_of_payout htakes
    exact h (.payout channel claimer vault escrowVault (.claim a), sysvar)
  · obtain ⟨channel, claimer, vault, escrowVault, sysvar, rfl⟩ := exists_keys_of_payout htakes
    exact h (.payout channel claimer vault escrowVault (.verifyHtlc a), sysvar)
  · obtain ⟨channel, claimer, vault, escrowVault, sysvar, rfl⟩ := exists_keys_of_payout htakes
    exact h (.payout channel claimer vault escrowVault (.htlcRefund a), sysvar)
  · simp only [finalizeSettlementMethod] at htakes
    rcases htakes with _ | ⟨-, _ | ⟨-, _ | ⟨-, _ | ⟨-, _ | ⟨-, _ | ⟨htoken, _ | ⟨hclock,
      _ | ⟨-, ⟨⟩⟩⟩⟩⟩⟩⟩⟩⟩
    obtain rfl := (AccountSpec.takes_program _ _).mp htoken
    obtain rfl := (AccountSpec.takes_sysvar _ _).mp hclock
    exact h (.finalizeSettlement _ _ _ _ _, _)

/-- The client, which may put another account in the place of the instructions sysvar. -/
def client (cl : Cluster) : Client (methods cl) (Request × Pubkey) where
  method r := r.1.method cl
  keys r := r.1.keys r.2
  args r := r.1.args cl
  mem r := r.1.method_mem cl
  takes r := r.1.takes cl r.2
  exhausts := exhausts cl

/-- No two methods have one discriminator. -/
theorem distinct_methods (cl : Cluster) : Distinct (methods cl) := by
  show (["open_channel", "fund_channel", "cooperative_settle", "trigger_challenge",
    "submit_counter_state", "settle_after_timeout", "claim", "verify_htlc", "htlc_refund",
    "finalize_settlement"].map discriminator).Nodup
  decide +kernel

/-- The accounts that are listed for a request, with another one in the place of the sysvar. -/
def Request.listed (r : Request) (sysvar : Pubkey) : List AccountMeta :=
  List.zipWith AccountSpec.toMeta (r.method ⟨Address.key, fun _ => []⟩).accounts (r.keys sysvar)

theorem Request.listed_eq (cl : Cluster) (r : Request) (sysvar : Pubkey) : r.listed sysvar =
    List.zipWith AccountSpec.toMeta (r.method cl).accounts (r.keys sysvar) := by
  rw [listed]
  cases r with
  | payout _ _ _ _ p =>
    cases p with
    | claim a => rfl
    | verifyHtlc a => rfl
    | htlcRefund a => rfl
  | _ => rfl

end Program
