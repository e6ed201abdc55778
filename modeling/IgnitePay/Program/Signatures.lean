/-
The channel manager's signatures in the program's transactions.

The manager takes signatures on hashes, of a state or of a claim; the program
looks for signatures on the 72 bytes of a channel's id, a number and a root.
The client's builders put the one under the other, in instructions that are not
addressed to the precompile.

* `submissions_pass` — the program itself is content with them;
* `never_usable` — but nothing verifies them: they are not the precompile's to
  check, and what it would check is a message nobody signed.
-/
import IgnitePay.Program.Authenticity
import IgnitePay.Program.Builders
import IgnitePay.StateChannel.Channel

namespace Program

open Bytes Machine Solana

/-! ### Transactions -/

/-- A transaction for a call of the program: its signature instructions, the
instruction itself, and the call it makes, given the bytes of the sysvar. -/
structure Submission where
  signatures : List Instruction
  instruction : Instruction
  call : List UInt8 → Call

namespace Submission

def transaction (s : Submission) : List Instruction := s.signatures ++ [s.instruction]

/-- What the program sees of it. -/
def sysvar (s : Submission) : List UInt8 :=
  (InstructionsSysvar.mk s.transaction s.signatures.length).toBytes

/-- What the call looks for, on the channel `c` in a slot. -/
def checks (s : Submission) (c : ChannelAccount) (slot : UInt64) : List Check :=
  (s.call s.sysvar).checks c slot

end Submission

/-- On the channel `c` in a slot, the transaction passes the call's signature
checks, and each of them stands for a signature that the precompile verified. -/
structure Usable (valid : SignedMessage → Prop) (c : ChannelAccount) (slot : UInt64)
    (s : Submission) : Prop where
  checked : ∀ r ∈ s.checks c slot, checkSignature r.data r.publicKey r.message = .ok ()
  verified : ∀ r ∈ s.checks c slot, ∃ ix ∈ s.signatures, ix.programId = Solana.ed25519ProgramId ∧
    PrecompileAccepts valid s.transaction ix.data ∧
    ∃ sig, Covers s.transaction ix.data ⟨r.publicKey.val, r.message, sig⟩

section

variable (sha : List UInt8 → Bytes 32) (programId channelPda : Pubkey) (c : ChannelAccount)

/-- `cooperative_settle` of a state, with both signatures. -/
def submitSettle (state : StateChannel.SignedState) (userPubkey providerPubkey : Pubkey)
    (settleWindow : UInt64) : Submission where
  signatures := buildCooperativeSettleEd25519Ixs userPubkey providerPubkey
    (channelMessage c.channelId state.sequence state.root) state.sigA state.sigB
  instruction := buildCooperativeSettleIx sha programId channelPda state.sequence state.root
    settleWindow
  call data := .cooperativeSettle ⟨.channel c.channelId, data⟩ state.sequence state.root settleWindow

/-- `submit_counter_state` of a state, with both signatures. -/
def submitCounter (state : StateChannel.SignedState) (userPubkey providerPubkey : Pubkey) :
    Submission where
  signatures := buildSubmitCounterStateEd25519Ixs userPubkey providerPubkey
    (channelMessage c.channelId state.sequence state.root) state.sigA state.sigB
  instruction := buildSubmitCounterStateIx sha programId channelPda state.sequence state.root
  call data := .submitCounterState ⟨.channel c.channelId, data⟩ state.sequence state.root

/-- `trigger_challenge` in a slot, with the challenger's signature. -/
def submitTrigger (challenger : Pubkey) (slot : UInt64) (submittedRoot : Bytes 32)
    (submittedSequence : UInt64) (signature : Bytes 64) : Submission where
  signatures := [buildTriggerChallengeEd25519Ix challenger
    (channelMessage c.channelId slot submittedRoot) signature]
  instruction := buildTriggerChallengeIx sha programId channelPda challenger submittedRoot
    submittedSequence
  call data := .triggerChallenge ⟨.channel c.channelId, challenger, data⟩ submittedRoot
    submittedSequence

/-- `claim` in a slot, with the claimer's signature. -/
def submitClaim (claimer vault escrowVault : Pubkey) (slot : UInt64) (a : ClaimArgs)
    (signature : Bytes 64) : Submission where
  signatures := [buildClaimEd25519Ix claimer (channelMessage c.channelId slot c.currentRoot) signature]
  instruction := buildClaimIx sha programId channelPda claimer vault escrowVault a
  call data := .payout ⟨.channel c.channelId, claimer, .key vault, .escrow c.channelId, data⟩
    (.claim a)

end

/-! ### What the program makes of them -/

section

variable {c : ChannelAccount} {slot : UInt64} {s : Submission}

/-- The transaction carries a built signature for every check of the call. -/
def Carries (s : Submission) (c : ChannelAccount) (slot : UInt64) : Prop :=
  ∀ r ∈ s.checks c slot, r.data = s.sysvar ∧
    ∃ sig, buildEd25519Ix r.publicKey r.message sig ∈ s.signatures

/-- Then the program finds them all, whatever is signed. -/
theorem checked_of_carries (hcarries : Carries s c slot) (hsmall : s.sysvar.length < 2 ^ 16) :
    ∀ r ∈ s.checks c slot, checkSignature r.data r.publicKey r.message = .ok () := by
  intro r hr
  obtain ⟨hdata, sig, hmem⟩ := hcarries r hr
  -- The signature stands before the program's instruction, which comes last and is current.
  obtain ⟨xs, ys, hsplit⟩ := List.append_of_mem hmem
  have hsysvar : s.sysvar = (InstructionsSysvar.mk
      (xs ++ buildEd25519Ix r.publicKey r.message sig :: (ys ++ [s.instruction]))
      s.signatures.length).toBytes := by
    rw [Submission.sysvar, Submission.transaction, hsplit, List.append_assoc, List.cons_append]
  have hlength : s.signatures.length = xs.length + (ys.length + 1) := by
    rw [hsplit]
    simp
  rw [hdata, hsysvar]
  rw [hsysvar] at hsmall
  have hlong := @length_toBytes xs (ys ++ [s.instruction])
    (buildEd25519Ix r.publicKey r.message sig) s.signatures.length
  have hbefore := @length_bytesBefore xs (ys ++ [s.instruction])
    (buildEd25519Ix r.publicKey r.message sig)
  have hcount : (xs ++ buildEd25519Ix r.publicKey r.message sig :: (ys ++ [s.instruction])).length
      = s.signatures.length + 1 := by
    rw [hlength]
    simp
    omega
  exact checkSignature_built (by omega) (by omega) hsmall

end

section

variable {sha : List UInt8 → Bytes 32} {programId channelPda : Pubkey} {c : ChannelAccount}

/-- The program passes all its signature checks. -/
def Passes (c : ChannelAccount) (slot : UInt64) (s : Submission) : Prop :=
  s.sysvar.length < 2 ^ 16 →
    ∀ r ∈ s.checks c slot, checkSignature r.data r.publicKey r.message = .ok ()

theorem carries_submitSettle {state : StateChannel.SignedState} {settleWindow slot : UInt64} :
    Carries (submitSettle sha programId channelPda c state c.userPubkey c.providerPubkey
      settleWindow) c slot := by
  intro r hr
  rcases List.mem_pair.mp hr with rfl | rfl
  · exact ⟨rfl, state.sigA, List.mem_cons_self⟩
  · exact ⟨rfl, state.sigB, List.mem_cons_of_mem _ List.mem_cons_self⟩

theorem carries_submitCounter {state : StateChannel.SignedState} {slot : UInt64} :
    Carries (submitCounter sha programId channelPda c state c.userPubkey c.providerPubkey) c slot := by
  intro r hr
  rcases List.mem_pair.mp hr with rfl | rfl
  · exact ⟨rfl, state.sigA, List.mem_cons_self⟩
  · exact ⟨rfl, state.sigB, List.mem_cons_of_mem _ List.mem_cons_self⟩

theorem carries_submitTrigger {challenger : Pubkey} {submittedRoot : Bytes 32}
    {slot submittedSequence : UInt64} {signature : Bytes 64} :
    Carries (submitTrigger sha programId channelPda c challenger slot submittedRoot
      submittedSequence signature) c slot := by
  intro r hr
  obtain rfl := List.mem_singleton.mp hr
  exact ⟨rfl, signature, List.mem_cons_self⟩

theorem carries_submitClaim {claimer vault escrowVault : Pubkey} {a : ClaimArgs} {slot : UInt64}
    {signature : Bytes 64} :
    Carries (submitClaim sha programId channelPda c claimer vault escrowVault slot a signature)
      c slot := by
  intro r hr
  obtain rfl := List.mem_singleton.mp hr
  exact ⟨rfl, signature, List.mem_cons_self⟩

/-- In a transaction that fits the sysvar, the program is content with the
builders' instructions, whoever signed whatever. -/
theorem submissions_pass (sha : List UInt8 → Bytes 32) (programId channelPda : Pubkey)
    (c : ChannelAccount) (slot : UInt64) :
    (∀ state settleWindow, Passes c slot (submitSettle sha programId channelPda c state
      c.userPubkey c.providerPubkey settleWindow)) ∧
    (∀ state, Passes c slot (submitCounter sha programId channelPda c state c.userPubkey
      c.providerPubkey)) ∧
    (∀ challenger root sequence signature, Passes c slot (submitTrigger sha programId channelPda c
      challenger slot root sequence signature)) ∧
    (∀ claimer vault escrowVault a signature, Passes c slot (submitClaim sha programId channelPda c
      claimer vault escrowVault slot a signature)) := by
  refine ⟨?_, ?_, ?_, ?_⟩
  · intro state settleWindow
    exact checked_of_carries carries_submitSettle
  · intro state
    exact checked_of_carries carries_submitCounter
  · intro challenger root sequence signature
    exact checked_of_carries carries_submitTrigger
  · intro claimer vault escrowVault a signature
    exact checked_of_carries carries_submitClaim

end

/-! ### What verifies -/

/-- A signature that verifies for one message is valid for no other. -/
def SignsOnce (env : StateChannel.Env) (valid : SignedMessage → Prop) : Prop :=
  ∀ (pk : Pubkey) (m m' : List UInt8) (sig : Bytes 64), env.verifyStrict pk m sig →
    valid ⟨pk.val, m', sig.val⟩ → m' = m

/-- The transaction is of no use: its signature instructions are not addressed to
the precompile, and if they were, it would accept none of them. -/
def Useless (env : StateChannel.Env) (valid : SignedMessage → Prop) (c : ChannelAccount)
    (slot : UInt64) (s : Submission) : Prop :=
  ¬ Usable valid c slot s ∧
    (SignsOnce env valid → ∀ ix ∈ s.signatures, ¬ PrecompileAccepts valid s.transaction ix.data)

section

variable {env : StateChannel.Env} {valid : SignedMessage → Prop} {c : ChannelAccount}

/-- The instruction was built for 72 bytes with a signature that the manager
took for one on a hash. -/
def Misplaced (env : StateChannel.Env) (ix : Instruction) : Prop :=
  ∃ (pk : Pubkey) (hash : Bytes 32) (channelId : Bytes 32) (number : UInt64) (root : Bytes 32)
    (sig : Bytes 64), env.verifyEd25519Signature hash sig pk ∧
      ix = buildEd25519Ix pk (channelMessage channelId number root) sig

theorem not_accepts_of_misplaced {ix : Instruction} {ixs : List Instruction}
    (h : Misplaced env ix) (honce : SignsOnce env valid) : ¬ PrecompileAccepts valid ixs ix.data := by
  obtain ⟨pk, hash, channelId, number, root, sig, hverified, rfl⟩ := h
  have hlength := length_channelMessage channelId number root
  rw [accepts_built_iff (by omega)]
  intro hvalid
  -- A valid signature would make the message of 72 bytes the hash of 32.
  have hsame := honce pk _ _ sig hverified hvalid
  rw [hsame, length_val] at hlength
  exact absurd hlength (by decide)

theorem useless_of_misplaced {s : Submission} {slot : UInt64} (hne : s.checks c slot ≠ [])
    (h : ∀ ix ∈ s.signatures, Misplaced env ix) : Useless env valid c slot s := by
  refine ⟨fun husable => ?_, fun honce ix hix => not_accepts_of_misplaced (h ix hix) honce⟩
  obtain ⟨r, hr⟩ := List.exists_mem_of_ne_nil _ hne
  obtain ⟨ix, hix, hid, -⟩ := husable.verified r hr
  obtain ⟨pk, hash, channelId, number, root, sig, -, rfl⟩ := h ix hix
  exact built_ne_precompile hid

theorem misplaced_of_signedBy {state : StateChannel.SignedState} {userPubkey providerPubkey : Pubkey}
    (h : StateChannel.SignedBy env state userPubkey providerPubkey) (channelId : Bytes 32)
    (number : UInt64) (root : Bytes 32) :
    ∀ ix ∈ [buildEd25519Ix userPubkey (channelMessage channelId number root) state.sigA,
      buildEd25519Ix providerPubkey (channelMessage channelId number root) state.sigB],
      Misplaced env ix := by
  intro ix hix
  rcases List.mem_pair.mp hix with rfl | rfl
  · exact ⟨_, _, _, _, _, _, h.sigA, rfl⟩
  · exact ⟨_, _, _, _, _, _, h.sigB, rfl⟩

end

/-- Whatever signatures the manager accepts for closing, countering, challenging
or claiming: the transactions that carry them are of no use to any account. -/
theorem never_usable (env : StateChannel.Env) (valid : SignedMessage → Prop)
    (sha : List UInt8 → Bytes 32) (programId channelPda : Pubkey) (c : ChannelAccount)
    (l l' : StateChannel.Local) :
    (∀ state userPubkey providerPubkey currentSlot settleWindow slot,
      Returns (StateChannel.closeChannel env state userPubkey providerPubkey currentSlot
        settleWindow) l () l' →
      Useless env valid c slot (submitSettle sha programId channelPda c state userPubkey
        providerPubkey settleWindow)) ∧
    (∀ state counterLeaves userPubkey providerPubkey slot,
      Returns (StateChannel.submitCounterState env state counterLeaves userPubkey providerPubkey)
        l () l' →
      Useless env valid c slot (submitCounter sha programId channelPda c state userPubkey
        providerPubkey)) ∧
    (∀ challenger currentSlot root sequence signature slot,
      Returns (StateChannel.triggerChallenge env challenger currentSlot root sequence signature)
        l () l' →
      Useless env valid c slot (submitTrigger sha programId channelPda c challenger slot root
        sequence signature)) ∧
    (∀ leafIndex amount claimer slot signature vault escrowVault a,
      Returns (StateChannel.claimLeaf env leafIndex amount claimer slot signature) l () l' →
      Useless env valid c slot (submitClaim sha programId channelPda c claimer vault escrowVault
        slot a signature)) := by
  refine ⟨?_, ?_, ?_, ?_⟩
  · intro state userPubkey providerPubkey currentSlot settleWindow slot h
    obtain ⟨hcloses, -⟩ := StateChannel.closeChannel_returns.mp h
    exact useless_of_misplaced (List.cons_ne_nil _ _)
      (misplaced_of_signedBy hcloses.signed _ _ _)
  · intro state counterLeaves userPubkey providerPubkey slot h
    obtain ⟨hcounters, -⟩ := StateChannel.submitCounterState_returns.mp h
    exact useless_of_misplaced (List.cons_ne_nil _ _)
      (misplaced_of_signedBy hcounters.signed _ _ _)
  · intro challenger currentSlot root sequence signature slot h
    obtain ⟨htriggers, -⟩ := StateChannel.triggerChallenge_returns.mp h
    refine useless_of_misplaced (List.cons_ne_nil _ _) fun ix hix => ?_
    exact ⟨_, _, _, _, _, _, htriggers.signature, List.mem_singleton.mp hix⟩
  · intro leafIndex amount claimer slot signature vault escrowVault a h
    obtain ⟨hclaims, -⟩ := StateChannel.claimLeaf_returns.mp h
    refine useless_of_misplaced (List.cons_ne_nil _ _) fun ix hix => ?_
    exact ⟨_, _, _, _, _, _, hclaims.signature, List.mem_singleton.mp hix⟩

/-! ### A channel of two keys -/

namespace Hashed

def channelId : Bytes 32 := fill 32 1

def user : Pubkey :=
  ⟨[37, 237, 71, 30, 16, 27, 231, 253, 108, 120, 220, 6, 149, 50, 58, 71,
    15, 100, 224, 155, 197, 244, 224, 61, 164, 131, 56, 77, 142, 139, 101, 247], rfl⟩

def provider : Pubkey :=
  ⟨[31, 88, 58, 72, 57, 4, 187, 29, 78, 117, 207, 19, 161, 42, 120, 170,
    182, 105, 35, 129, 224, 166, 250, 154, 216, 232, 140, 159, 39, 43, 185, 7], rfl⟩

/-- The hash of the one leaf, 3000 for the user. -/
def root : Bytes 32 :=
  ⟨[47, 119, 201, 95, 101, 85, 184, 155, 27, 220, 59, 63, 120, 16, 172, 210,
    114, 89, 25, 241, 6, 193, 9, 232, 172, 142, 142, 25, 212, 102, 133, 87], rfl⟩

/-- The hash of the channel's id, sequence 3 and the root. -/
def stateMessage : Bytes 32 :=
  ⟨[242, 78, 127, 160, 187, 98, 255, 8, 50, 175, 111, 38, 180, 253, 205, 109,
    0, 16, 77, 163, 220, 28, 150, 37, 227, 91, 39, 25, 197, 205, 11, 150], rfl⟩

/-- The hash of a claim of the leaf in slot 30. -/
def claimMessage : Bytes 32 :=
  ⟨[44, 4, 205, 167, 94, 109, 28, 138, 29, 42, 103, 186, 197, 113, 203, 135,
    245, 218, 157, 232, 146, 223, 69, 91, 36, 48, 221, 154, 241, 122, 156, 132], rfl⟩

def sigA : Bytes 64 :=
  ⟨[223, 92, 139, 102, 137, 127, 15, 254, 52, 176, 76, 47, 230, 217, 232, 21,
    228, 241, 153, 247, 244, 202, 104, 58, 210, 5, 15, 90, 226, 28, 242, 108,
    107, 218, 11, 164, 19, 95, 202, 14, 43, 248, 14, 197, 223, 118, 230, 56,
    172, 49, 90, 246, 127, 118, 60, 159, 61, 186, 107, 253, 30, 183, 232, 4], rfl⟩

def sigB : Bytes 64 :=
  ⟨[30, 155, 57, 125, 233, 137, 144, 106, 40, 210, 196, 120, 165, 61, 132, 36,
    73, 14, 20, 254, 244, 31, 106, 241, 17, 46, 82, 9, 11, 71, 207, 61,
    42, 208, 130, 95, 214, 125, 92, 127, 176, 116, 149, 96, 156, 188, 203, 220,
    37, 178, 152, 254, 131, 161, 61, 54, 181, 222, 252, 126, 136, 58, 82, 8], rfl⟩

def claimSignature : Bytes 64 :=
  ⟨[3, 169, 35, 194, 185, 86, 140, 165, 99, 15, 163, 50, 12, 133, 243, 114,
    237, 49, 29, 1, 109, 55, 33, 155, 191, 67, 190, 168, 107, 196, 68, 138,
    81, 26, 25, 188, 171, 3, 36, 16, 198, 104, 157, 231, 35, 169, 252, 254,
    6, 82, 214, 247, 252, 1, 207, 192, 135, 247, 112, 50, 21, 207, 17, 0], rfl⟩

/-- The signatures there are, with their keys and messages. -/
def made : List (Pubkey × List UInt8 × Bytes 64) :=
  [(user, stateMessage.val, sigA), (provider, stateMessage.val, sigB),
    (user, claimMessage.val, claimSignature)]

def env : StateChannel.Env where
  sha := Sha256.sha256
  verifyStrict pk m s := decide ((pk, m, s) ∈ made)
  overflowChecks := true

def valid (m : SignedMessage) : Prop :=
  ∃ k ∈ made, m = ⟨k.1.val, k.2.1, k.2.2.val⟩

/-- The manager's channel, with the user's leaf in its tree. -/
def start (status : StateChannel.ChannelStatus) (sequence : UInt64) : StateChannel.Local where
  channel := {
    metadata := {
      channelId
      userPubkey := user
      providerPubkey := provider
      tokenMint := fill 32 30
      treeDepth := 0
      status
      sequence
      currentRoot := root
      totalDeposited := 3000
      openSlot := 0
      challengeSlot := none
      vaultA := fill 32 20
      vaultB := fill 32 21
      depositA := 3000
      depositB := 0
      challengeDuration := 0
      minChallengeDelay := 0
      autoCloseSlot := none
      totalClaimed := 0
      settleDeadline := some 40
      leafCount := 1
      claimedLeaves := ∅ }
    tree := ⟨[.standard user 3000], [root], [[root]], 0, 1⟩
    providerCosign := none }
  db := ⟨∅, ∅, ∅⟩

def signed : StateChannel.SignedState := ⟨channelId, 3, root, sigA, sigB⟩

theorem signedBy : StateChannel.SignedBy env signed user provider :=
  ⟨by decide +kernel, by decide +kernel⟩

theorem closed : ∃ l', Returns (StateChannel.closeChannel env signed user provider 10 20)
    (start .opened 3) () l' :=
  ⟨_, StateChannel.closeChannel_returns.mpr
    ⟨⟨rfl, rfl, rfl, rfl, rfl, signedBy⟩, 30, by decide, rfl⟩⟩

theorem countered : ∃ l', Returns (StateChannel.submitCounterState env signed none user provider)
    (start .challenged 2) () l' :=
  ⟨_, StateChannel.submitCounterState_returns.mpr ⟨⟨rfl, rfl, by decide, signedBy⟩, rfl⟩⟩

theorem triggered : ∃ l', Returns (StateChannel.triggerChallenge env user 10 root 3 sigA)
    (start .opened 2) () l' :=
  ⟨_, StateChannel.triggerChallenge_returns.mpr
    ⟨⟨rfl, .inl rfl, ⟨0, by decide, by decide⟩, by decide, signedBy.sigA⟩, rfl⟩⟩

theorem claimed : ∃ l', Returns (StateChannel.claimLeaf env 0 3000 user 30 claimSignature)
    (start .settling 3) () l' := by
  have hsignature : env.verifyEd25519Signature
      (StateChannel.claimMessage env.sha channelId 0 3000 30) claimSignature user := by
    decide +kernel
  have hleaf : StateChannel.ClaimsLeaf env (start .settling 3).channel 0 3000 user
      (.standard user 3000) [] :=
    ⟨rfl, by decide, rfl, rfl, rfl, rfl, by decide +kernel⟩
  exact ⟨_, StateChannel.claimLeaf_returns.mpr
    ⟨⟨rfl, ⟨40, rfl, by decide⟩, by decide, .inl rfl, hsignature⟩, ⟨_, _, hleaf⟩, by decide, rfl⟩⟩

/-- The program's account of the channel. -/
def account : ChannelAccount :=
  { channelOf channelId user with providerPubkey := provider, currentRoot := root }

/-- No two of the signatures are equal. -/
theorem signsOnce : SignsOnce env valid := by
  intro pk m m' sig hverified hvalid
  have hmem : (pk, m, sig) ∈ made := of_decide_eq_true hverified
  obtain ⟨k, hk, heq⟩ := hvalid
  rw [SignedMessage.mk.injEq] at heq
  obtain ⟨-, rfl, hsig⟩ := heq
  have hnodup : (made.map fun k => k.2.2).Nodup := by decide
  have hsame : (pk, m, sig) = k := List.inj_on_of_nodup_map hnodup hmem hk (Subtype.ext hsig)
  rw [← hsame]

end Hashed

/-- Both parties signed the state and the manager closes the channel on it; the
transaction with their signatures cannot settle it. -/
theorem settlement_unusable :
    ¬ ∀ (env : StateChannel.Env) (valid : SignedMessage → Prop) (sha : List UInt8 → Bytes 32)
      (programId channelPda : Pubkey) (c : ChannelAccount) (l l' : StateChannel.Local)
      (state : StateChannel.SignedState) (currentSlot settleWindow slot : UInt64),
      c.channelId = l.channel.metadata.channelId →
        Returns (StateChannel.closeChannel env state c.userPubkey c.providerPubkey currentSlot
          settleWindow) l () l' →
        Usable valid c slot (submitSettle sha programId channelPda c state c.userPubkey
          c.providerPubkey settleWindow) := by
  intro hall
  obtain ⟨l', hclosed⟩ := Hashed.closed
  have husable := hall Hashed.env Hashed.valid Sha256.sha256 (fill 32 50) (fill 32 51)
    Hashed.account _ l' Hashed.signed 10 20 10 rfl hclosed
  have huseless : Useless Hashed.env Hashed.valid Hashed.account 10
      (submitSettle Sha256.sha256 (fill 32 50) (fill 32 51) Hashed.account Hashed.signed Hashed.user
        Hashed.provider 20) :=
    useless_of_misplaced (List.cons_ne_nil _ _) (misplaced_of_signedBy Hashed.signedBy _ _ _)
  exact huseless.1 husable

/-- The two keys' signatures, for all four methods. -/
theorem never_usable_hashed :
    Useless Hashed.env Hashed.valid Hashed.account 10
      (submitSettle Sha256.sha256 (fill 32 50) (fill 32 51) Hashed.account Hashed.signed Hashed.user
        Hashed.provider 20) ∧
    Useless Hashed.env Hashed.valid Hashed.account 10
      (submitCounter Sha256.sha256 (fill 32 50) (fill 32 51) Hashed.account Hashed.signed Hashed.user
        Hashed.provider) ∧
    Useless Hashed.env Hashed.valid Hashed.account 10
      (submitTrigger Sha256.sha256 (fill 32 50) (fill 32 51) Hashed.account Hashed.user 10
        Hashed.root 3 Hashed.sigA) ∧
    Useless Hashed.env Hashed.valid Hashed.account 30
      (submitClaim Sha256.sha256 (fill 32 50) (fill 32 51) Hashed.account Hashed.user (fill 32 20)
        (fill 32 52) 30 ⟨0, 3000, Hashed.user, Hashed.root, [], []⟩ Hashed.claimSignature) ∧
    SignsOnce Hashed.env Hashed.valid := by
  obtain ⟨l₁, hclosed⟩ := Hashed.closed
  obtain ⟨l₂, hcountered⟩ := Hashed.countered
  obtain ⟨l₃, htriggered⟩ := Hashed.triggered
  obtain ⟨l₄, hclaimed⟩ := Hashed.claimed
  exact ⟨(never_usable _ _ _ _ _ _ _ l₁).1 _ _ _ _ _ _ hclosed,
    (never_usable _ _ _ _ _ _ _ l₂).2.1 _ _ _ _ _ hcountered,
    (never_usable _ _ _ _ _ _ _ l₃).2.2.1 _ _ _ _ _ _ htriggered,
    (never_usable _ _ _ _ _ _ _ l₄).2.2.2 _ _ _ _ _ _ _ _ hclaimed, Hashed.signsOnce⟩

end Program
