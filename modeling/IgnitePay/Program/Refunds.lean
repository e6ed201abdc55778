/-
The refunds of the two finalizations: the program's and the channel manager's.

Both give party A its share of what was not claimed and party B the rest.  The
manager multiplies first; the program first rounds the ratio of the deposits
down to millionths.  So the program's refund of A is at most the manager's, and
they agree exactly when the amount's remainder makes up for the ratio's.

* `refunds_eq_scaledSplit`, `refunds_eq_floorSplit` — the two pairs;
* `refunds_agree_iff` — when they agree and are exact;
* `refunds_differ` — deposits of one and two thousand million, refunded unlike.
-/
import IgnitePay.Lib.Share
import IgnitePay.Program.Settlement
import IgnitePay.Program.Signatures

namespace Program

open Bytes Machine Solana Token Share

/-! ### The program's pair -/

/-- What `finalize_settlement` refunds. -/
def ChannelAccount.refunds (c : ChannelAccount) : ℕ × ℕ := (c.refundA, c.refundB)

/-- A finalization pays the pair `r` out of the escrow. -/
def PaysRefunds (w w' : World) (ctx : FinalizeSettlement) (c : ChannelAccount) (r : ℕ × ℕ) : Prop :=
  ∃ mid, Moved w.tokens mid (.escrow c.channelId) ctx.vaultA r.1 ∧
    Moved mid w'.tokens (.escrow c.channelId) ctx.vaultB r.2

/-- With the claims, the pair adds up to the deposits, and it rounds the exact
shares of what was not claimed. -/
def ExactRefunds (c : ChannelAccount) (r : ℕ × ℕ) : Prop :=
  r.1 + r.2 + c.totalClaimed.toNat = c.totalDeposited.toNat ∧
    Divides c.unclaimed c.depositA.toNat c.depositB.toNat r

section

variable {sha : List UInt8 → Bytes 32} {w w' : World} {c : ChannelAccount}

theorem finalize_pays {ctx : FinalizeSettlement} (hc : w.channelAt ctx.channel = some c)
    (h : exec sha (.finalizeSettlement ctx) w = .ok w') :
    PaysRefunds w w' ctx c c.refunds ∧ c.totalClaimed.toNat ≤ c.totalDeposited.toNat := by
  obtain ⟨c₀, c', hu, -⟩ := @finalizeSettlement_update sha _ _ _ h
  cases hu with
  | finalize hchecked hclaimed hmoved =>
    obtain rfl : c₀ = c := Option.some_inj.mp (hchecked.channel_eq.symm.trans hc)
    exact ⟨hmoved, hclaimed⟩

/-- The balance of party A's vault shows what was paid to it. -/
theorem PaysRefunds.fst_eq {ctx : FinalizeSettlement} {r r' : ℕ × ℕ}
    (h : PaysRefunds w w' ctx c r) (h' : PaysRefunds w w' ctx c r')
    (hescrow : ctx.vaultA ≠ .escrow c.channelId) (hvaults : ctx.vaultA ≠ ctx.vaultB) :
    r.1 = r'.1 := by
  obtain ⟨_, hA, hB⟩ := h
  obtain ⟨_, hA', hB'⟩ := h'
  have hbalance := balance_of_refunds hA hB ctx.vaultA
  have hbalance' := balance_of_refunds hA' hB' ctx.vaultA
  rw [amountAt_of_ne hescrow, amountAt_self, amountAt_of_ne hvaults] at hbalance hbalance'
  omega

/-- The program's pair, in channels whose deposits are all there is. -/
theorem refunds_eq_scaledSplit (htotal : c.totalDeposited.toNat = c.depositA.toNat + c.depositB.toNat) :
    c.refunds = scaledSplit 1000000 c.unclaimed c.depositA.toNat c.totalDeposited.toNat := by
  have hA : c.refundA
      = scaledShare 1000000 c.unclaimed c.depositA.toNat c.totalDeposited.toNat := by
    rw [htotal]
    rfl
  have hB : c.refundB = c.unclaimed - c.refundA := by
    rw [ChannelAccount.refundB]
    split
    · have hzero : c.unclaimed = 0 := by
        rw [ChannelAccount.unclaimed]
        omega
      rw [hzero, Nat.zero_sub]
    · rfl
  rw [ChannelAccount.refunds, hB, hA]
  rfl

end

/-! ### The manager's pair -/

/-- The account and the metadata have the same amounts. -/
structure SameFunds (c : ChannelAccount) (m : StateChannel.ChannelMetadata) : Prop where
  depositA_eq : m.depositA = c.depositA
  depositB_eq : m.depositB = c.depositB
  totalDeposited_eq : m.totalDeposited = c.totalDeposited
  totalClaimed_eq : m.totalClaimed = c.totalClaimed

/-- A pair of amounts, as numbers. -/
def toNats (r : UInt64 × UInt64) : ℕ × ℕ := (r.1.toNat, r.2.toNat)

section

variable {c : ChannelAccount} {m : StateChannel.ChannelMetadata}

theorem refunds_eq_floorSplit (hsame : SameFunds c m)
    (htotal : c.totalDeposited.toNat = c.depositA.toNat + c.depositB.toNat) :
    toNats (StateChannel.refunds m)
      = floorSplit c.unclaimed c.depositA.toNat c.totalDeposited.toNat := by
  have hunclaimed : (saturatingSub m.totalDeposited m.totalClaimed).toNat = c.unclaimed := by
    rw [toNat_saturatingSub, hsame.totalDeposited_eq, hsame.totalClaimed_eq]
    rfl
  have hdeposit : (saturatingAdd m.depositA m.depositB).toNat = c.totalDeposited.toNat := by
    have hlt := c.totalDeposited.toNat_lt
    rw [hsame.depositA_eq, hsame.depositB_eq, toNat_saturatingAdd_of_lt (by omega), htotal]
  rw [StateChannel.refunds]
  by_cases hpos : saturatingAdd m.depositA m.depositB > 0
  · -- The manager's `as u64` does not truncate a share.
    have hle : floorShare c.unclaimed c.depositA.toNat c.totalDeposited.toNat ≤ c.unclaimed :=
      floorShare_le (by omega)
    have hlt : c.unclaimed < 2 ^ 64 := hunclaimed ▸ UInt64.toNat_lt _
    have hrefundA : (UInt64.ofNat ((saturatingSub m.totalDeposited m.totalClaimed).toNat
        * m.depositA.toNat / (saturatingAdd m.depositA m.depositB).toNat)).toNat
        = floorShare c.unclaimed c.depositA.toNat c.totalDeposited.toNat := by
      rw [hunclaimed, hdeposit, hsame.depositA_eq]
      exact UInt64.toNat_ofNat_of_lt' (hle.trans_lt hlt)
    rw [if_pos hpos]
    refine Prod.ext hrefundA ?_
    show (saturatingSub _ _).toNat = _
    rw [toNat_saturatingSub, hrefundA, hunclaimed]
    rfl
  · have hzero : c.totalDeposited.toNat = 0 := by
      have hnot : ¬ 0 < (saturatingAdd m.depositA m.depositB).toNat :=
        fun h => hpos (UInt64.lt_iff_toNat_lt.mpr h)
      omega
    have hnone : c.unclaimed = 0 := by
      rw [ChannelAccount.unclaimed]
      omega
    rw [if_neg hpos, toNats, hunclaimed, hnone, hzero]
    simp [floorSplit, floorShare]

end

/-! ### When they agree -/

/-- What the ratio in millionths loses of the product is no more than the
rounding of the product takes off anyway. -/
def RatioFits (u a t : ℕ) : Prop := u * (a * 1000000 % t) ≤ u * a % t * 1000000

/-- Whatever the two finalizations are called with: the program pays its pair,
and it is the manager's, exact on both sides, exactly when the ratio fits. -/
theorem refunds_agree_iff {sha : List UInt8 → Bytes 32} {w w' : World} {ctx : FinalizeSettlement}
    {c : ChannelAccount} {env : StateChannel.Env} {l l' : StateChannel.Local}
    {currentSlot : UInt64} {caller : Pubkey} {signature : Bytes 64} {r : UInt64 × UInt64}
    (hc : w.channelAt ctx.channel = some c)
    (hprogram : exec sha (.finalizeSettlement ctx) w = .ok w')
    (hmanager : Returns (StateChannel.finalizeSettlement env currentSlot caller signature) l r l')
    (hsame : SameFunds c l.channel.metadata)
    (htotal : c.totalDeposited.toNat = c.depositA.toNat + c.depositB.toNat) :
    PaysRefunds w w' ctx c c.refunds ∧
      ((c.refunds = toNats r ∧ ExactRefunds c c.refunds ∧ ExactRefunds c (toNats r)) ↔
        RatioFits c.unclaimed c.depositA.toNat c.totalDeposited.toNat) := by
  obtain ⟨hpays, hclaimed⟩ := finalize_pays hc hprogram
  obtain ⟨-, rfl, -⟩ := StateChannel.finalizeSettlement_returns.mp hmanager
  -- Both divide the same numbers; what differs is how often they round.
  have hfloor := refunds_eq_floorSplit hsame htotal
  have hscaled := refunds_eq_scaledSplit htotal
  have hagree : c.refunds = toNats (StateChannel.refunds l.channel.metadata) ↔
      RatioFits c.unclaimed c.depositA.toNat c.totalDeposited.toNat := by
    rw [hfloor, hscaled]
    exact scaledSplit_eq_iff (by norm_num)
  -- The manager's pair is exact in any case.
  have hexact : ExactRefunds c (toNats (StateChannel.refunds l.channel.metadata)) := by
    have hdivides : Divides c.unclaimed c.depositA.toNat c.depositB.toNat
        (toNats (StateChannel.refunds l.channel.metadata)) := by
      rw [hfloor, htotal]
      refine divides_floorSplit fun hzero => ?_
      rw [ChannelAccount.unclaimed]
      omega
    refine ⟨?_, hdivides⟩
    rw [hdivides.sum_eq, ChannelAccount.unclaimed]
    omega
  refine ⟨hpays, ?_⟩
  rw [← hagree]
  constructor
  · intro h
    exact h.1
  · intro h
    exact ⟨h, h ▸ hexact, hexact⟩

/-! ### A third of the deposits -/

namespace Thirds

open Hashed (channelId user provider)
open Stolen (mint tokenAccount)

/-- The root of the tree with one leaf, all of the deposits for the user. -/
def root : Bytes 32 :=
  ⟨[124, 216, 49, 247, 8, 244, 196, 205, 193, 27, 10, 243, 100, 69, 61, 34,
    232, 62, 21, 207, 59, 92, 12, 178, 152, 38, 198, 187, 240, 47, 224, 174], rfl⟩

/-- The hash of the channel's id, slot 50 and the root. -/
def message : Bytes 32 :=
  ⟨[236, 115, 97, 207, 70, 145, 38, 65, 37, 234, 23, 193, 127, 58, 57, 197,
    35, 132, 228, 184, 255, 16, 196, 142, 39, 238, 143, 162, 130, 187, 253, 133], rfl⟩

/-- The user's signature on it. -/
def signature : Bytes 64 :=
  ⟨[169, 83, 162, 132, 152, 76, 226, 227, 169, 57, 59, 107, 239, 27, 185, 157,
    117, 170, 156, 135, 52, 245, 107, 135, 101, 34, 123, 33, 39, 198, 52, 214,
    191, 8, 173, 175, 23, 19, 10, 243, 126, 137, 151, 177, 247, 200, 181, 166,
    205, 133, 99, 121, 156, 228, 42, 163, 176, 150, 215, 182, 197, 72, 134, 10], rfl⟩

/-- The program's account: the window is over and nothing was claimed. -/
def account (depositA depositB : UInt64) : ChannelAccount :=
  { channelOf channelId user with
    providerPubkey := provider
    status := .settling
    currentRoot := root
    totalDeposited := 3000000000
    depositA
    depositB
    settleDeadline := some 40 }

def world (depositA depositB : UInt64) : World where
  channels := (∅ : Store.Map Address ChannelEntry).insert (.channel channelId)
    ⟨ChannelAccount.space 0, account depositA depositB⟩
  tokens := (((∅ : Token.Ledger Address).insert (.key (fill 32 20))
    (tokenAccount (.key user) 0)).insert (.key (fill 32 21))
    (tokenAccount (.key provider) 0)).insert (.escrow channelId)
    (tokenAccount (.escrow channelId) 3000000000)
  slot := 50

def context : FinalizeSettlement :=
  ⟨.channel channelId, user, .key (fill 32 20), .key (fill 32 21), .escrow channelId,
    sysvarBytes [(user, channelMessage channelId 50 root)]⟩

/-- The manager's channel, with the same amounts. -/
def state (depositA depositB : UInt64) : StateChannel.ChannelState where
  metadata := {
    channelId
    userPubkey := user
    providerPubkey := provider
    tokenMint := mint
    treeDepth := 0
    status := .settling
    sequence := 0
    currentRoot := root
    totalDeposited := 3000000000
    openSlot := 0
    challengeSlot := none
    vaultA := fill 32 20
    vaultB := fill 32 21
    depositA
    depositB
    challengeDuration := 0
    minChallengeDelay := 0
    autoCloseSlot := none
    totalClaimed := 0
    settleDeadline := some 40
    leafCount := 1
    claimedLeaves := ∅ }
  tree := ⟨[.standard user 3000000000], [root], [[root]], 0, 1⟩
  providerCosign := none

/-- The user's one signature. -/
def env : StateChannel.Env where
  sha := Sha256.sha256
  verifyStrict pk m s := decide (pk = user ∧ m = message.val ∧ s = signature)
  overflowChecks := true

theorem paid (h : depositA = 1000000000 ∧ depositB = 2000000000 ∨
    depositA = 1500000000 ∧ depositB = 1500000000) :
    ∃ w', exec Sha256.sha256 (.finalizeSettlement context) (world depositA depositB) = .ok w' := by
  rcases h with ⟨rfl, rfl⟩ | ⟨rfl, rfl⟩
  · exact exists_of_isOk (by decide +kernel)
  · exact exists_of_isOk (by decide +kernel)

theorem returned (depositA depositB : UInt64) :
    ∃ r l', Returns (StateChannel.finalizeSettlement env 50 user signature)
      ⟨state depositA depositB, ⟨∅, ∅, ∅⟩⟩ r l' := by
  have hsignature : env.verifyEd25519Signature
      (StateChannel.stateMessage env.sha channelId 50 root) signature user := by decide +kernel
  exact ⟨_, _, StateChannel.finalizeSettlement_returns.mpr
    ⟨⟨rfl, ⟨40, rfl, by decide⟩, hsignature⟩, rfl, rfl⟩⟩

end Thirds

/-- Of three thousand million unclaimed, one thousand million belongs to party A:
the manager returns just that, and the program pays a thousand less. -/
theorem refunds_differ :
    ¬ ∀ (sha : List UInt8 → Bytes 32) (w w' : World) (ctx : FinalizeSettlement)
      (c : ChannelAccount) (env : StateChannel.Env) (l l' : StateChannel.Local)
      (currentSlot : UInt64) (caller : Pubkey) (signature : Bytes 64) (r : UInt64 × UInt64),
      w.channelAt ctx.channel = some c → exec sha (.finalizeSettlement ctx) w = .ok w' →
        Returns (StateChannel.finalizeSettlement env currentSlot caller signature) l r l' →
          SameFunds c l.channel.metadata →
            c.totalDeposited.toNat = c.depositA.toNat + c.depositB.toNat →
              PaysRefunds w w' ctx c (toNats r) := by
  intro hagree
  obtain ⟨w', hok⟩ := Thirds.paid (.inl ⟨rfl, rfl⟩)
  obtain ⟨r, l', hreturned⟩ := Thirds.returned 1000000000 2000000000
  have hc : (Thirds.world 1000000000 2000000000).channelAt Thirds.context.channel
      = some (Thirds.account 1000000000 2000000000) :=
    World.channelAt_eq_some.mpr ⟨_, AList.lookup_insert _⟩
  have hpaid := hagree _ _ w' _ _ _ _ l' _ _ _ r hc hok hreturned ⟨rfl, rfl, rfl, rfl⟩ rfl
  obtain ⟨-, rfl, -⟩ := StateChannel.finalizeSettlement_returns.mp hreturned
  have hrefund := (finalize_pays hc hok).1.fst_eq hpaid (by decide) (by decide)
  exact absurd hrefund (by decide)

/-- Halves: both refunds are one and a half thousand million. -/
theorem refunds_agree_iff_halves : ∃ w' l' r,
    exec Sha256.sha256 (.finalizeSettlement Thirds.context) (Thirds.world 1500000000 1500000000)
      = .ok w' ∧
    Returns (StateChannel.finalizeSettlement Thirds.env 50 Hashed.user Thirds.signature)
      ⟨Thirds.state 1500000000 1500000000, ⟨∅, ∅, ∅⟩⟩ r l' ∧
    ((Thirds.account 1500000000 1500000000).refunds = toNats r ∧
      ExactRefunds (Thirds.account 1500000000 1500000000) (toNats r)) := by
  obtain ⟨w', hok⟩ := Thirds.paid (.inr ⟨rfl, rfl⟩)
  obtain ⟨r, l', hreturned⟩ := Thirds.returned 1500000000 1500000000
  have hc : (Thirds.world 1500000000 1500000000).channelAt Thirds.context.channel
      = some (Thirds.account 1500000000 1500000000) :=
    World.channelAt_eq_some.mpr ⟨_, AList.lookup_insert _⟩
  have hfits : RatioFits (Thirds.account 1500000000 1500000000).unclaimed 1500000000 3000000000 := by
    unfold RatioFits
    decide
  have hagree := (refunds_agree_iff hc hok hreturned ⟨rfl, rfl, rfl, rfl⟩ rfl).2.mpr hfits
  exact ⟨w', l', r, hok, hreturned, hagree.1, hagree.2.2⟩

end Program
