/-
The set of claimed leaves of the channel program.

The three payouts keep one list of leaf indices, and refuse an index that is in
it.  The index is an argument: no check ties it to the leaf data, to the proof
or to the size of the tree.  So what the list guards are the indices that were
passed, and it grows with any of them.

* `nodup_payouts` — no index is passed twice;
* `paidOnce_iff` — when that makes every leaf paid at most once;
* `claims_fit_iff` — when the list stays within the tree and the account.
-/
import IgnitePay.Program.Effect

namespace Program

open Bytes Machine Solana HashTree StateChannel

/-! ### The payouts of a run -/

/-- What a call opens, if it is a payout from the channel at `a`. -/
def Call.payoutFrom (a : Address) : Call → Option Opening
  | .payout ctx p => if ctx.channel = a then some p.opening else none
  | _ => none

/-- The payouts of a run from the channel at `a`, the latest first. -/
def payouts (a : Address) (calls : List Call) : List Opening :=
  calls.filterMap (Call.payoutFrom a)

theorem payoutFrom_eq_some {a : Address} {call : Call} {o : Opening} :
    call.payoutFrom a = some o ↔
      ∃ ctx p, call = .payout ctx p ∧ ctx.channel = a ∧ p.opening = o := by
  cases call with
  | payout ctx p =>
    rw [Call.payoutFrom]
    by_cases h : ctx.channel = a
    · simp [h]
    · simp [h]
  | _ => simp [Call.payoutFrom]

theorem payouts_cons (a : Address) (call : Call) (calls : List Call) :
    payouts a (call :: calls) = (call.payoutFrom a).toList ++ payouts a calls := by
  rw [payouts, payouts, List.filterMap_cons]
  cases call.payoutFrom a with
  | none => rfl
  | some o => rfl

section

variable {sha : List UInt8 → Bytes 32} {w₀ w w' : World} {c c' : ChannelAccount} {a : Address}
  {h : List (World × Call)}

/-- An index is in the list of the channel at `a`. -/
def Claimed (w : World) (a : Address) (i : UInt32) : Prop :=
  ∃ c, w.channelAt a = some c ∧ i ∈ c.claimedLeaves

/-- An update adds the index of a payout to the list, and nothing else. -/
theorem Update.claimedLeaves_eq {call : Call} (hu : Update sha w w' c call c') :
    c'.claimedLeaves = c.claimedLeaves ∨
      ∃ ctx p, call = .payout ctx p ∧ p.opening.leafIndex ∉ c.claimedLeaves ∧
        c'.claimedLeaves = c.claimedLeaves ++ [p.opening.leafIndex] := by
  cases hu with
  | @pay ctx p total hp _ _ => exact .inr ⟨ctx, p, rfl, hp.claimable.fresh, rfl⟩
  | _ => exact .inl rfl

theorem Claimed.exec {call : Call} {i : UInt32} (hi : Claimed w a i)
    (hok : exec sha call w = .ok w') : Claimed w' a i := by
  obtain ⟨c, hc, hmem⟩ := hi
  obtain ⟨n, hn⟩ := World.channelAt_eq_some.mp hc
  rcases exec_entry hok hn with hsame | ⟨c', -, hu, -, hafter⟩
  · exact ⟨c, World.channelAt_eq_some.mpr ⟨n, hsame⟩, hmem⟩
  · refine ⟨c', World.channelAt_eq_some.mpr ⟨n, hafter⟩, ?_⟩
    rcases hu.claimedLeaves_eq with heq | ⟨_, _, -, -, heq⟩
    · rw [heq]
      exact hmem
    · rw [heq]
      exact List.mem_append_left _ hmem

/-- A payout passes an index that was not in the list, and puts it there. -/
theorem claimed_of_payout {call : Call} {o : Opening} (ho : call.payoutFrom a = some o)
    (hok : exec sha call w = .ok w') : ¬ Claimed w a o.leafIndex ∧ Claimed w' a o.leafIndex := by
  obtain ⟨ctx, p, rfl, rfl, rfl⟩ := payoutFrom_eq_some.mp ho
  obtain ⟨c, c', hu, hs⟩ := payout_update hok
  obtain ⟨n, hn, -, hch⟩ := hs.stored
  cases hu with
  | pay hp _ _ =>
    constructor
    · rintro ⟨c₁, hc₁, hmem⟩
      obtain rfl : c₁ = c := Option.some_inj.mp (hc₁.symm.trans hp.claimable.channel_eq)
      exact hp.claimable.fresh hmem
    · refine ⟨_, World.channelAt_eq_some.mpr ⟨n, by rw [hch, AList.lookup_insert]⟩, ?_⟩
      exact List.mem_append_right _ (List.mem_singleton.mpr rfl)

/-- No index is passed twice to the payouts from a channel. -/
theorem nodup_payouts (hrun : Run (exec sha) w₀ h w) :
    ((payouts a (h.map Prod.snd)).map Opening.leafIndex).Nodup := by
  -- Every index passed so far is in the list, where a later payout finds it.
  suffices hall : ((payouts a (h.map Prod.snd)).map Opening.leafIndex).Nodup ∧
      ∀ o ∈ payouts a (h.map Prod.snd), Claimed w a o.leafIndex from hall.1
  induction hrun with
  | start => exact ⟨List.nodup_nil, fun o ho => absurd ho (by simp [payouts])⟩
  | @step h w w' call _ hok ih =>
    obtain ⟨hnodup, hclaimed⟩ := ih
    rw [List.map_cons, payouts_cons]
    have hkept : ∀ o ∈ payouts a (h.map Prod.snd), Claimed w' a o.leafIndex :=
      fun o ho => (hclaimed o ho).exec hok
    rcases ho : call.payoutFrom a with _ | o
    · exact ⟨hnodup, hkept⟩
    · obtain ⟨hfresh, hnow⟩ := claimed_of_payout ho hok
      rw [Option.toList_some, List.singleton_append, List.map_cons, List.nodup_cons,
        List.forall_mem_cons]
      refine ⟨⟨fun hmem => ?_, hnodup⟩, hnow, hkept⟩
      obtain ⟨o', ho', heq⟩ := List.mem_map.mp hmem
      exact hfresh (heq ▸ hclaimed o' ho')

/-! ### Every leaf once -/

/-- Each of the leaves is the basis of at most one of the payouts. -/
def PaidOnce (leaves : List UTXOLeaf) (paid : List Opening) : Prop :=
  ∀ leaf ∈ leaves, paid.countP (fun o => o.leafData = leaf.toVec) ≤ 1

instance (leaves : List UTXOLeaf) (paid : List Opening) : Decidable (PaidOnce leaves paid) :=
  inferInstanceAs (Decidable (∀ leaf ∈ leaves, _))

/-- A payout of one of the leaves passes the index that `position` assigns to it. -/
def NamesPosition (leaves : List UTXOLeaf) (position : UTXOLeaf → UInt32) (o : Opening) : Prop :=
  ∀ leaf ∈ leaves, o.leafData = leaf.toVec → o.leafIndex = position leaf

/-- Of the entries with a property at most one stands in the list, so all of
them are one. -/
theorem eq_of_countP_le_one {α : Type} {p : α → Bool} {l : List α} (hl : l.countP p ≤ 1) {x y : α}
    (hx : x ∈ l) (hy : y ∈ l) (hpx : p x = true) (hpy : p y = true) : x = y := by
  rw [List.countP_eq_length_filter] at hl
  have hx' : x ∈ l.filter p := List.mem_filter.mpr ⟨hx, hpx⟩
  have hy' : y ∈ l.filter p := List.mem_filter.mpr ⟨hy, hpy⟩
  match hf : l.filter p with
  | [] =>
    rw [hf] at hx'
    exact absurd hx' (by simp)
  | [z] =>
    rw [hf, List.mem_singleton] at hx' hy'
    exact hx'.trans hy'.symm
  | _ :: _ :: _ =>
    rw [hf] at hl
    simp at hl

/-- Where an index determines the entry, one index for all entries with a
property leaves at most one of them. -/
theorem countP_le_one {α β : Type} {f : α → β} {p : α → Bool} {l : List α}
    (hnodup : (l.map f).Nodup) {b : β} (hf : ∀ x ∈ l, p x = true → f x = b) :
    l.countP p ≤ 1 := by
  induction l with
  | nil => exact Nat.zero_le 1
  | cons x l ih =>
    rw [List.map_cons, List.nodup_cons] at hnodup
    rw [List.countP_cons]
    by_cases hx : p x = true
    · have hzero : l.countP p = 0 := by
        refine List.countP_eq_zero.mpr fun y hy hpy => hnodup.1 ?_
        have hsame : f y = f x :=
          (hf y (List.mem_cons_of_mem _ hy) hpy).trans (hf x List.mem_cons_self hx).symm
        exact hsame ▸ List.mem_map_of_mem hy
      rw [hzero, if_pos hx]
    · rw [if_neg hx]
      exact ih hnodup.2 fun y hy => hf y (List.mem_cons_of_mem _ hy)

/-- In every run, each leaf is paid at most once exactly when there is one index
for each leaf that all its payouts pass. -/
theorem paidOnce_iff {leaves : List UTXOLeaf} (hrun : Run (exec sha) w₀ h w) :
    PaidOnce leaves (payouts a (h.map Prod.snd)) ↔
      ∃ position, ∀ o ∈ payouts a (h.map Prod.snd), NamesPosition leaves position o := by
  constructor
  · intro honce
    -- A leaf that is paid goes to the index of its only payout.
    have hindex : ∀ leaf, ∃ i, leaf ∈ leaves → ∀ o ∈ payouts a (h.map Prod.snd),
        o.leafData = leaf.toVec → o.leafIndex = i := by
      intro leaf
      by_cases hpaid : ∃ o ∈ payouts a (h.map Prod.snd), o.leafData = leaf.toVec
      · obtain ⟨o, ho, hdata⟩ := hpaid
        refine ⟨o.leafIndex, fun hleaf o' ho' hdata' => congrArg Opening.leafIndex ?_⟩
        exact eq_of_countP_le_one (honce leaf hleaf) ho' ho (decide_eq_true hdata')
          (decide_eq_true hdata)
      · exact ⟨0, fun _ o ho hdata => absurd ⟨o, ho, hdata⟩ hpaid⟩
    choose position hposition using hindex
    exact ⟨position, fun o ho leaf hleaf hdata => hposition leaf hleaf o ho hdata⟩
  · rintro ⟨position, hnames⟩ leaf hleaf
    exact countP_le_one (nodup_payouts hrun) fun o ho hdata =>
      hnames o ho leaf hleaf (of_decide_eq_true hdata)

/-- Payouts that name the position of their leaf in the tree pay it once. -/
theorem paidOnce_of_positions {leaves : List UTXOLeaf} (hdistinct : leaves.Nodup)
    (hrun : Run (exec sha) w₀ h w)
    (hnames : ∀ o ∈ payouts a (h.map Prod.snd), ∀ leaf ∈ leaves, o.leafData = leaf.toVec →
      leaves[o.leafIndex.toNat]? = some leaf) : PaidOnce leaves (payouts a (h.map Prod.snd)) := by
  refine (paidOnce_iff hrun).mpr ⟨fun leaf => UInt32.ofNat (leaves.idxOf leaf), ?_⟩
  intro o ho leaf hleaf hdata
  obtain ⟨hlt, hget⟩ := List.getElem?_eq_some_iff.mp (hnames o ho leaf hleaf hdata)
  have hidx : leaves.idxOf leaf = o.leafIndex.toNat := by
    rw [← hget]
    exact hdistinct.idxOf_getElem _ hlt
  show o.leafIndex = UInt32.ofNat (leaves.idxOf leaf)
  rw [hidx, UInt32.ofNat_toNat]

end

/-! ### A leaf paid twice -/

namespace Twice

open Stolen

/-- Both parties agree on the root the channel was opened with. -/
def agreement : List UInt8 :=
  sysvarBytes [(user, channelMessage channelId 0 root), (provider, channelMessage channelId 0 root)]

/-- The user opens the channel and both settle it. -/
def settled : List Call :=
  [.openChannel ⟨.channel channelId, user, user, provider, mint, .key (fill 32 20),
      .key (fill 32 21), sysvarBytes [(user, openArgs.message)]⟩ openArgs,
    .cooperativeSettle ⟨.channel channelId, agreement⟩ 0 root 100]

def claimArgs (leafIndex : UInt32) : ClaimArgs where
  leafIndex := leafIndex
  claimAmount := 500
  leafOwner := user
  leafHash := leafHash
  proof := [emptyHash]
  leafData := leaf.toVec

def accounts : PayoutAccounts :=
  ⟨.channel channelId, user, .key (fill 32 20), .escrow channelId, data⟩

/-- The user claims the leaf at position 0, under an index of choice. -/
def claimAt (leafIndex : UInt32) : Call := .payout accounts (.claim (claimArgs leafIndex))

/-- Both claims go through: under the leaf's own index and under the next one. -/
theorem reached : ∃ h w, Run (exec Sha256.sha256) start h w ∧
    h.map Prod.snd = (settled ++ [claimAt 0, claimAt 1]).reverse ∧
    (w.channelAt (.channel channelId)).map ChannelAccount.currentRoot = some root :=
  Run.exists_of_test (by decide +kernel)

/-- One claim. -/
theorem reached_once : ∃ h w, Run (exec Sha256.sha256) start h w ∧
    h.map Prod.snd = (settled ++ [claimAt 0]).reverse ∧ w.slot = 10 :=
  Run.exists_of_test (by decide +kernel)

end Twice

/-- The owner of a leaf claims it a second time under the index of another. -/
theorem leaf_paid_twice :
    ¬ ∀ (sha : List UInt8 → Bytes 32) (leaves : List UTXOLeaf) (depth : ℕ) (tree : MerkleTree)
      (w₀ w : World) (h : List (World × Call)) (a : Address) (c : ChannelAccount),
      w₀.channels = ∅ → Run (exec sha) w₀ h w → w.channelAt a = some c →
        MerkleTree.new sha leaves depth = some tree → leaves.Nodup → tree.root = c.currentRoot →
          PaidOnce leaves (payouts a (h.map Prod.snd)) := by
  intro honce
  obtain ⟨h, w, hrun, hcalls, hroot⟩ := Twice.reached
  obtain ⟨c, hc, hroot⟩ := Option.map_eq_some_iff.mp hroot
  have htwice := honce Sha256.sha256 [Stolen.leaf] 1 Stolen.tree Stolen.start w h _ c rfl hrun hc
    Stolen.built (List.nodup_singleton _) hroot.symm
  rw [hcalls] at htwice
  exact absurd htwice (by decide)

/-- A run with one claim, which passes one index for the leaf. -/
theorem paidOnce_iff_once : ∃ h w, Run (exec Sha256.sha256) Stolen.start h w ∧
    h.map Prod.snd = (Twice.settled ++ [Twice.claimAt 0]).reverse ∧
    PaidOnce [Stolen.leaf] (payouts (.channel Stolen.channelId) (h.map Prod.snd)) := by
  obtain ⟨h, w, hrun, hcalls, -⟩ := Twice.reached_once
  refine ⟨h, w, hrun, hcalls, (paidOnce_iff hrun).mpr ⟨fun _ => 0, ?_⟩⟩
  rw [hcalls]
  intro o ho leaf _ _
  obtain rfl := List.mem_singleton.mp ho
  rfl

/-! ### The space of the list -/

/-- A payout passes the index of a position of the tree. -/
def InRange (w : World) : Call → Prop
  | .payout ctx p =>
    ∀ c, w.channelAt ctx.channel = some c → p.opening.leafIndex.toNat < 2 ^ c.treeDepth.toNat
  | _ => True

/-- The list of claimed leaves stays within the tree, and the account within the
space for it. -/
structure Compact (c : ChannelAccount) : Prop where
  nodup : c.claimedLeaves.Nodup
  below : ∀ i ∈ c.claimedLeaves, i.toNat < 2 ^ c.treeDepth.toNat
  length_le : c.claimedLeaves.length ≤ 2 ^ c.treeDepth.toNat
  size_le : c.size ≤ ChannelAccount.space c.treeDepth

/-- All channels are compact, and no payout of a position of the tree fails for
lack of space. -/
def Roomy (sha : List UInt8 → Bytes 32) (w : World) : Prop :=
  ∀ a c, w.channelAt a = some c → Compact c ∧ ∀ ctx p, ctx.channel = a →
    InRange w (.payout ctx p) → payout sha ctx p w ≠ .error .accountDidNotSerialize

/-- What every channel keeps, whatever indices are passed. -/
structure Sized (n : ℕ) (c : ChannelAccount) : Prop where
  space_eq : n = ChannelAccount.space c.treeDepth
  depth_le : c.treeDepth.toNat ≤ 12
  size_le : c.size ≤ n
  nodup : c.claimedLeaves.Nodup

section

variable {sha : List UInt8 → Bytes 32} {w₀ w w' : World} {c c' : ChannelAccount} {a : Address}
  {n : ℕ} {h : List (World × Call)}

theorem optionSize_le (o : Option UInt64) : ChannelAccount.optionSize o ≤ 9 := by
  cases o with
  | none => exact (by norm_num : (1 : ℕ) ≤ 9)
  | some x => exact le_refl 9

/-- An account is as long as its space allows once its list is. -/
theorem size_le_space (hdepth : c.treeDepth.toNat ≤ 12)
    (hlen : c.claimedLeaves.length ≤ 2 ^ c.treeDepth.toNat) :
    c.size ≤ ChannelAccount.space c.treeDepth := by
  have h1 := optionSize_le c.challengeSlot
  have h2 := optionSize_le c.settleDeadline
  have h3 := optionSize_le c.autoCloseSlot
  rw [ChannelAccount.size, ChannelAccount.space, ChannelAccount.sizeWith,
    ChannelAccount.sizeWith, Nat.min_eq_left hdepth]
  omega

theorem nodup_append {l : List UInt32} {i : UInt32} (hnodup : l.Nodup) (hi : i ∉ l) :
    (l ++ [i]).Nodup := by
  rw [← List.concat_eq_append]
  exact hnodup.concat hi

/-- Distinct indices below a bound are no more than the bound. -/
theorem length_le_of_below {l : List UInt32} {m : ℕ} (hnodup : l.Nodup)
    (hbelow : ∀ i ∈ l, i.toNat < m) : l.length ≤ m := by
  have hmap : (l.map UInt32.toNat).Nodup :=
    hnodup.map fun _ _ heq => UInt32.toNat_inj.mp heq
  have hsub : l.map UInt32.toNat ⊆ List.range m := by
    intro k hk
    obtain ⟨i, hi, rfl⟩ := List.mem_map.mp hk
    exact List.mem_range.mpr (hbelow i hi)
  have hle := (List.subperm_of_subset hmap hsub).length_le
  rw [List.length_map, List.length_range] at hle
  exact hle

theorem Update.treeDepth_eq {call : Call} (hu : Update sha w w' c call c') :
    c'.treeDepth = c.treeDepth := by
  cases hu <;> rfl

theorem sized_of_run (hempty : w₀.channels = ∅) (hrun : Run (exec sha) w₀ h w)
    (hc : w.channels.lookup a = some ⟨n, c⟩) : Sized n c := by
  refine reachable_channels hempty ?_ ?_ hrun hc
  · intro w w' ctx args ho
    have hdepth : args.treeDepth.toNat ≤ 12 := UInt32.le_iff_toNat_le.mp ho.depth_le
    exact ⟨rfl, hdepth, size_le_space hdepth (Nat.zero_le _), List.nodup_nil⟩
  · intro n w w' c call c' hsized hu hsize
    have hdepth := hu.treeDepth_eq
    refine ⟨hdepth ▸ hsized.space_eq, hdepth ▸ hsized.depth_le, hsize, ?_⟩
    rcases hu.claimedLeaves_eq with heq | ⟨ctx, p, -, hfresh, heq⟩
    · rw [heq]
      exact hsized.nodup
    · rw [heq]
      exact nodup_append hsized.nodup hfresh

/-- Indices below the bound are all it takes. -/
theorem Sized.compact (hs : Sized n c)
    (hbelow : ∀ i ∈ c.claimedLeaves, i.toNat < 2 ^ c.treeDepth.toNat) : Compact c :=
  ⟨hs.nodup, hbelow, length_le_of_below hs.nodup hbelow, hs.space_eq ▸ hs.size_le⟩

/-- A compact channel has space for one more position of the tree. -/
theorem Sized.paid_size_le (hs : Sized n c)
    (hbelow : ∀ i ∈ c.claimedLeaves, i.toNat < 2 ^ c.treeDepth.toNat) {i : UInt32}
    (hfresh : i ∉ c.claimedLeaves) (hi : i.toNat < 2 ^ c.treeDepth.toNat) (total : UInt64) :
    (c.paid total i).size ≤ n := by
  rw [hs.space_eq]
  refine size_le_space (c := c.paid total i) hs.depth_le ?_
  refine length_le_of_below (nodup_append hs.nodup hfresh) fun j hj => ?_
  rcases List.mem_append.mp hj with hj | hj
  · exact hbelow j hj
  · exact List.mem_singleton.mp hj ▸ hi

/-! A payout fails for lack of space at its end only. -/

theorem payOut_full {ctx : PayoutAccounts} {i : UInt32} {amount : UInt64}
    (hc : w.channels.lookup ctx.channel = some ⟨n, c⟩)
    (h : payOut ctx c i amount w = .error .accountDidNotSerialize) :
    ∃ total, n < (c.paid total i).size := by
  have save : ∀ {w₁ : World} {total : UInt64}, w₁.channels = w.channels →
      saveChannel w₁ ctx.channel (c.paid total i) = .error .accountDidNotSerialize →
      n < (c.paid total i).size := by
    intro w₁ total hch hsave
    simp only [saveChannel, hch, hc, bind_eq_error, require_eq_error, orErr_eq_error, orErr_eq_ok,
      Option.some_inj, reduceCtorEq, false_or, pure, Except.pure, and_false, exists_const,
      or_false] at hsave
    obtain ⟨_, rfl, hnot, -⟩ := hsave
    exact not_le.mp hnot
  simp only [payOut, bind_eq_error, require_eq_error, orErr_eq_error, orErr_eq_ok, reduceCtorEq,
    and_false, false_or] at h
  obtain ⟨total, -, _, -, h⟩ := h
  -- A transfer has errors of its own, and writes no channel.
  by_cases hpos : amount > 0
  · rw [if_pos hpos, bind_eq_error] at h
    rcases h with h | ⟨w₁, htransfer, h⟩
    · exact absurd h (transferTokens_ne (by simp))
    · exact ⟨total, save (transferTokens_ok htransfer).1 h⟩
  · rw [if_neg hpos] at h
    exact ⟨total, save rfl h⟩

/-- A payout that fails for lack of space passed a new index, for which there is
none. -/
theorem payout_full {ctx : PayoutAccounts} {p : Payout}
    (h : payout sha ctx p w = .error .accountDidNotSerialize) :
    ∃ n c total, w.channels.lookup ctx.channel = some ⟨n, c⟩ ∧
      p.opening.leafIndex ∉ c.claimedLeaves ∧ n < (c.paid total p.opening.leafIndex).size := by
  -- No check before the transfer fails with this error, so each handler got to its end.
  have last : ∀ {admitted : ChannelStatus → Bool} {c : ChannelAccount} {i : UInt32}
      {amount : UInt64}, loadPayout ctx admitted w = .ok c →
      payOut ctx c i amount w = .error .accountDidNotSerialize →
      ∃ n total, w.channels.lookup ctx.channel = some ⟨n, c⟩ ∧ n < (c.paid total i).size := by
    intro admitted c i amount hload hpay
    obtain ⟨n, hn⟩ := World.channelAt_eq_some.mp (loadPayout_ok hload).1
    obtain ⟨total, hfull⟩ := payOut_full hn hpay
    exact ⟨n, total, hn, hfull⟩
  cases p with
  | claim a =>
    simp (disch := simp) only [payout, claim, bind_eq_error, require_eq_error, orErr_eq_error, require_eq_ok,
      checkSignature_eq_ok, loadPayout_ne, checkSignature_ne, reduceCtorEq, and_false, false_or,
      exists_const] at h
    obtain ⟨c, hload, -, -, -, -, hfresh, -, -, -, -, -, hpay⟩ := h
    obtain ⟨n, total, hn, hfull⟩ := last hload hpay
    exact ⟨n, c, total, hn, hfresh, hfull⟩
  | verifyHtlc a =>
    simp (disch := simp) only [payout, verifyHtlc, bind_eq_error, require_eq_error, require_eq_ok,
      checkSignature_eq_ok, loadPayout_ne, htlcDeadline_ne, checkHtlcLeafData_ne, checkSignature_ne,
      reduceCtorEq, and_false, false_or, exists_const] at h
    obtain ⟨c, hload, -, -, -, -, hfresh, -, -, -, -, -, -, hpay⟩ := h
    obtain ⟨n, total, hn, hfull⟩ := last hload hpay
    exact ⟨n, c, total, hn, hfresh, hfull⟩
  | htlcRefund a =>
    simp (disch := simp) only [payout, htlcRefund, bind_eq_error, require_eq_error, require_eq_ok,
      checkSignature_eq_ok, loadPayout_ne, htlcDeadline_ne, checkHtlcLeafData_ne, checkSignature_ne,
      reduceCtorEq, and_false, false_or, exists_const] at h
    obtain ⟨c, hload, -, -, -, -, hfresh, -, -, -, -, -, hpay⟩ := h
    obtain ⟨n, total, hn, hfull⟩ := last hload hpay
    exact ⟨n, c, total, hn, hfresh, hfull⟩

/-- Where all lists stay within their trees, there is space. -/
theorem roomy_of_below (hempty : w₀.channels = ∅) (hrun : Run (exec sha) w₀ h w)
    (hbelow : ∀ a c, w.channelAt a = some c →
      ∀ i ∈ c.claimedLeaves, i.toNat < 2 ^ c.treeDepth.toNat) : Roomy sha w := by
  intro a c hc
  obtain ⟨n, hn⟩ := World.channelAt_eq_some.mp hc
  have hsized := sized_of_run hempty hrun hn
  refine ⟨hsized.compact (hbelow a c hc), ?_⟩
  rintro ctx p rfl hrange hfull
  -- The list has room for one entry more than it has, as long as that is a new one.
  obtain ⟨n', c', total, hn', hfresh, hlt⟩ := payout_full hfull
  rw [hn, Option.some_inj, ChannelEntry.mk.injEq] at hn'
  obtain ⟨rfl, rfl⟩ := hn'
  have hle := hsized.paid_size_le (hbelow _ _ hc) hfresh (hrange c hc) total
  exact absurd hlt (not_lt.mpr hle)

/-- A call that passes an index within its tree leaves all lists within theirs. -/
theorem below_step {call : Call} (hok : exec sha call w = .ok w') (hrange : InRange w call)
    (hbelow : ∀ a c, w.channelAt a = some c →
      ∀ i ∈ c.claimedLeaves, i.toNat < 2 ^ c.treeDepth.toNat) :
    ∀ a c, w'.channelAt a = some c → ∀ i ∈ c.claimedLeaves, i.toNat < 2 ^ c.treeDepth.toNat := by
  intro a c hc
  obtain ⟨n, hn⟩ := World.channelAt_eq_some.mp hc
  rcases hbefore : w.channels.lookup a with _ | ⟨n₀, c₀⟩
  · -- A new channel has an empty list.
    obtain ⟨ctx, args, -, -, -, heq⟩ := exec_new hok hbefore hn
    rw [ChannelEntry.mk.injEq] at heq
    rw [heq.2]
    exact fun i hi => absurd hi (by simp [ChannelAccount.opened])
  have hat := World.channelAt_eq_some.mpr ⟨n₀, hbefore⟩
  rcases exec_entry hok hbefore with hsame | ⟨c₁, ha, hu, -, hafter⟩
  · rw [hsame, Option.some_inj, ChannelEntry.mk.injEq] at hn
    exact hn.2 ▸ hbelow a c₀ hat
  · rw [hafter, Option.some_inj, ChannelEntry.mk.injEq] at hn
    rw [← hn.2, hu.treeDepth_eq]
    rcases hu.claimedLeaves_eq with heq | ⟨ctx, p, rfl, -, heq⟩
    · rw [heq]
      exact hbelow a c₀ hat
    · -- The one index that joins the list is the one that the payout passed.
      rw [heq]
      intro i hi
      rcases List.mem_append.mp hi with hi | hi
      · exact hbelow a c₀ hat i hi
      · obtain rfl : ctx.channel = a := Option.some_inj.mp ha
        exact List.mem_singleton.mp hi ▸ hrange c₀ hat

/-- The index that a payout passed is on the list, and so within the tree if
the list is. -/
theorem inRange_of_roomy {call : Call} (hok : exec sha call w = .ok w') (hroomy : Roomy sha w') :
    InRange w call := by
  cases call with
  | payout ctx p =>
    intro c hc
    obtain ⟨-, c', hc', hmem⟩ :=
      claimed_of_payout (payoutFrom_eq_some.mpr ⟨ctx, p, rfl, rfl, rfl⟩) hok
    obtain ⟨n, hn⟩ := World.channelAt_eq_some.mp hc
    have hbelow := (hroomy _ _ hc').1.below _ hmem
    rcases exec_entry hok hn with hsame | ⟨c₁, -, hu, -, hafter⟩
    · rw [World.channelAt_eq_some.mpr ⟨n, hsame⟩, Option.some_inj] at hc'
      exact hc' ▸ hbelow
    · rw [World.channelAt_eq_some.mpr ⟨n, hafter⟩, Option.some_inj] at hc'
      rw [← hu.treeDepth_eq, hc']
      exact hbelow
  | _ => exact trivial

/-- A call leaves the lists within their trees exactly if it passes an index
within its tree. -/
theorem roomy_step_iff {call : Call} (hempty : w₀.channels = ∅) (hrun : Run (exec sha) w₀ h w)
    (hroomy : Roomy sha w) (hok : exec sha call w = .ok w') :
    Roomy sha w' ↔ InRange w call := by
  constructor
  · exact inRange_of_roomy hok
  · intro hrange
    exact roomy_of_below hempty (.step hrun hok)
      (below_step hok hrange fun a c hc => (hroomy a c hc).1.below)

/-- In every run, the channels stay within their trees and their accounts, and
payouts are not blocked, exactly when all payouts pass indices within the tree. -/
theorem claims_fit_iff (hempty : w₀.channels = ∅) (hrun : Run (exec sha) w₀ h w) :
    (∀ s ∈ Run.states h w, Roomy sha s) ↔ ∀ p ∈ h, InRange p.1 p.2 := by
  refine Run.forall_states_iff (fun _ _ => True) (roomy_of_below hempty .start ?_) ?_ hrun
    fun _ _ => trivial
  · intro a c hc
    obtain ⟨n, hn⟩ := World.channelAt_eq_some.mp hc
    rw [hempty] at hn
    exact absurd hn (by simp)
  · intro h w call w' hrun hroomy _ hok
    exact roomy_step_iff hempty hrun hroomy hok

end

/-! ### A full account -/

namespace Blocked

open Stolen

/-- The leaf that pads the tree is worth nothing, and can be claimed under any
index. -/
def emptyArgs (leafIndex : UInt32) : ClaimArgs where
  leafIndex := leafIndex
  claimAmount := 0
  leafOwner := user
  leafHash := emptyHash
  proof := [leafHash]
  leafData := StateChannel.UTXOLeaf.empty.toVec

def claimEmpty (leafIndex : UInt32) : Call := .payout Twice.accounts (.claim (emptyArgs leafIndex))

/-- Six claims of nothing, outside a tree of two positions. -/
def filled : List Call := Twice.settled ++ [2, 3, 4, 5, 6, 7].map claimEmpty

def errorOf (x : Except Error World) : Option Error :=
  match x with
  | .error e => some e
  | .ok _ => none

theorem eq_error_of_errorOf {x : Except Error World} {e : Error} (h : errorOf x = some e) :
    x = .error e := by
  cases x with
  | error e' => exact congrArg _ (Option.some_inj.mp h)
  | ok w => exact absurd h (by simp [errorOf])

/-- They fill the account: the claim of the leaf at position 0 does not fit. -/
theorem reached : ∃ h w, Run (exec Sha256.sha256) start h w ∧ h.map Prod.snd = filled.reverse ∧
    (w.channelAt (.channel channelId)).map ChannelAccount.treeDepth = some 1 ∧
    errorOf (exec Sha256.sha256 (Twice.claimAt 0) w) = some .accountDidNotSerialize :=
  Run.exists_of_test (by decide +kernel)

end Blocked

/-- One party fills the account with claims of nothing, and the leaf at position
0 cannot be claimed any more. -/
theorem claims_blocked :
    ¬ ∀ (sha : List UInt8 → Bytes 32) (w₀ w : World) (h : List (World × Call)),
      w₀.channels = ∅ → Run (exec sha) w₀ h w → Roomy sha w := by
  intro hroomy
  obtain ⟨h, w, hrun, -, hdepth, hfull⟩ := Blocked.reached
  obtain ⟨c, hc, hdepth⟩ := Option.map_eq_some_iff.mp hdepth
  have hfull : payout Sha256.sha256 Twice.accounts (.claim (Twice.claimArgs 0)) w
      = .error .accountDidNotSerialize := Blocked.eq_error_of_errorOf hfull
  refine (hroomy Sha256.sha256 Stolen.start w h rfl hrun _ c hc).2 _ _ rfl ?_ hfull
  intro c' hc'
  obtain rfl : c' = c := Option.some_inj.mp (hc'.symm.trans hc)
  rw [hdepth]
  decide

/-- A run with one claim, of a position of the tree. -/
theorem claims_fit_iff_once : ∃ h w, Run (exec Sha256.sha256) Stolen.start h w ∧
    h.map Prod.snd = (Twice.settled ++ [Twice.claimAt 0]).reverse ∧
    ((∀ s ∈ Run.states h w, Roomy Sha256.sha256 s) ↔ ∀ p ∈ h, InRange p.1 p.2) := by
  obtain ⟨h, w, hrun, hcalls, -⟩ := Twice.reached_once
  exact ⟨h, w, hrun, hcalls, claims_fit_iff rfl hrun⟩

end Program
