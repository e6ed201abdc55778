/-
The books of a (buyer, mint) pair: deposits, allocation and the vault.

`total_deposited` and `total_allocated` are counters of the global state; what
they stand for are sums over the channels and the lamports of the vault.

* `allocated_le_deposited` — in every run the allocation is within the deposit;
* `caps_le_allocated` — and the caps are within the allocation, as long as a cap
  is only ever raised against the global state of its own mint;
* `vault_solvent` — the vault holds what is deposited and not settled, as long
  as no dispute returns anything to the buyer;
* `caps_exceed_allocated`, `vault_insolvent` — runs that break the two.
-/
import IgnitePay.Mb.Placement

namespace Mb

open Bytes Machine Solana

/-! ### Sums over channels -/

/-- What an account contributes to a sum over the channels of `b` and `m`. -/
def ofChannel (b m : Address) (f : Channel → ℕ) (_ : Address) : AccountData → ℕ
  | .channel c => if c.buyer = b ∧ c.tokenMint = m then f c else 0
  | _ => 0

/-- The sum of `f` over the channels of buyer `b` and mint `m`. -/
def channelSum (s : Accounts) (b m : Address) (f : Channel → ℕ) : ℕ :=
  Store.weight (ofChannel b m f) s

/-- A counter of the global state of `b` and `m`, zero before it exists. -/
def globalTotal (s : Accounts) (b m : Address) (f : GlobalState → ℕ) : ℕ :=
  match s.lookup (.globalState b m) with
  | some (.globalState g) => f g
  | _ => 0

def deposited (s : Accounts) (b m : Address) : ℕ := globalTotal s b m (·.totalDeposited.toNat)
def allocated (s : Accounts) (b m : Address) : ℕ := globalTotal s b m (·.totalAllocated.toNat)
def settledSum (s : Accounts) (b m : Address) : ℕ := channelSum s b m (·.settledAmount.toNat)
def capSum (s : Accounts) (b m : Address) : ℕ := channelSum s b m (·.spendingCap.toNat)

/-- What a channel can still claim or has claimed from its allocation; a cap may
be lowered below what is already settled. -/
def Channel.reserved (c : Channel) : ℕ := max c.spendingCap.toNat c.settledAmount.toNat

def reservedSum (s : Accounts) (b m : Address) : ℕ := channelSum s b m Channel.reserved

section Sums

variable {s : Accounts} {a b m : Address} {f : Channel → ℕ}

theorem ofChannel_eq_zero {d : AccountData} (hd : ∀ c, d ≠ .channel c) :
    ofChannel b m f a d = 0 := by
  cases d with
  | channel c => exact absurd rfl (hd c)
  | globalState g => rfl
  | settlementEscrow e => rfl

/-- Writing anything but a channel, where there was none, changes no sum. -/
theorem channelSum_insert_other {d : AccountData} (hd : ∀ c, d ≠ .channel c)
    (ha : ∀ c, s.lookup a ≠ some (.channel c)) :
    channelSum (s.insert a d) b m f = channelSum s b m f := by
  refine Store.weight_insert_of_eq_zero (ofChannel_eq_zero hd) fun d₀ hd₀ => ?_
  exact ofChannel_eq_zero fun c hc => ha c (hc ▸ hd₀)

/-- Creating a channel adds its own term. -/
theorem channelSum_insert_new (c : Channel) (ha : s.lookup a = none) :
    channelSum (s.insert a (.channel c)) b m f
      = channelSum s b m f + if c.buyer = b ∧ c.tokenMint = m then f c else 0 := by
  have h := Store.weight_insert (ofChannel b m f) s a (.channel c)
  rw [Store.contribution_of_none ha] at h
  exact h

/-- Changing a channel swaps its term. -/
theorem channelSum_insert_update {c : Channel} (c' : Channel)
    (ha : s.lookup a = some (.channel c)) (hb : c'.buyer = c.buyer)
    (hm : c'.tokenMint = c.tokenMint) :
    channelSum (s.insert a (.channel c')) b m f
        + (if c.buyer = b ∧ c.tokenMint = m then f c else 0)
      = channelSum s b m f + if c.buyer = b ∧ c.tokenMint = m then f c' else 0 := by
  have h := Store.weight_insert (ofChannel b m f) s a (.channel c')
  rw [Store.contribution_of_lookup ha] at h
  simp only [ofChannel, hb, hm] at h
  exact h

theorem channelSum_add (f g : Channel → ℕ) :
    channelSum s b m (fun c => f c + g c) = channelSum s b m f + channelSum s b m g := by
  have hterm : ofChannel b m (fun c => f c + g c)
      = fun a d => ofChannel b m f a d + ofChannel b m g a d := by
    funext a d
    cases d with
    | channel c =>
      simp only [ofChannel]
      split
      · rfl
      · rfl
    | globalState g => rfl
    | settlementEscrow e => rfl
  rw [channelSum, hterm, Store.weight_add]
  rfl

/-- One channel's term is at most the sum. -/
theorem le_channelSum {c : Channel} (ha : s.lookup a = some (.channel c)) (hb : c.buyer = b)
    (hm : c.tokenMint = m) : f c ≤ channelSum s b m f := by
  have h := Store.contribution_le_weight (ofChannel b m f) s a
  rw [Store.contribution_of_lookup ha] at h
  simp only [ofChannel, hb, hm, and_self, if_true] at h
  exact h

theorem globalTotal_insert_of_ne {f : GlobalState → ℕ} {d : AccountData}
    (ha : a ≠ .globalState b m) : globalTotal (s.insert a d) b m f = globalTotal s b m f := by
  rw [globalTotal, globalTotal, Store.lookup_insert_eq, if_neg ha.symm]

theorem globalTotal_insert {f : GlobalState → ℕ} {g : GlobalState} {b' m' : Address} :
    globalTotal (s.insert (.globalState b' m') (.globalState g)) b m f
      = if b' = b ∧ m' = m then f g else globalTotal s b m f := by
  rw [globalTotal, Store.lookup_insert_eq]
  by_cases h : b' = b ∧ m' = m
  · obtain ⟨rfl, rfl⟩ := h
    simp
  · rw [if_neg h, if_neg fun heq => h (by injection heq with h1 h2; exact ⟨h1.symm, h2.symm⟩)]
    rfl

theorem globalTotal_of_lookup {f : GlobalState → ℕ} {g : GlobalState}
    (h : s.lookup (.globalState b m) = some (.globalState g)) : globalTotal s b m f = f g := by
  rw [globalTotal, h]

end Sums

/-! ### The sums after each call -/

section Books

variable {w w' : World} {g : GlobalState} {c : Channel} {b m : Address}

/-- No instruction but those on channels touches a sum over channels. -/
theorem channelSum_insert_buyerGlobal (h : BuyerGlobal w g) (g' : GlobalState)
    (f : Channel → ℕ) :
    channelSum (w.accounts.insert (.globalState g.buyer g.tokenMint) (.globalState g')) b m f
      = channelSum w.accounts b m f :=
  channelSum_insert_other (by simp) fun c hc => by
    rw [h.lookup] at hc
    exact absurd hc (by simp)

variable (b m)

theorem GlobalInitialized.books {buyer mint : Address} {u : UInt64}
    (h : GlobalInitialized w w' buyer mint u) :
    (∀ f, channelSum w'.accounts b m f = channelSum w.accounts b m f) ∧
    ∀ f, globalTotal w'.accounts b m f = if buyer = b ∧ mint = m then f ⟨buyer, mint, 0, 0⟩
      else globalTotal w.accounts b m f := by
  rw [h.accounts]
  refine ⟨fun f => channelSum_insert_other (by simp) fun c hc => ?_, fun f => globalTotal_insert⟩
  rw [h.fresh] at hc
  exact absurd hc (by simp)

theorem ChannelInitialized.books {r : Address} {cap total u : UInt64} {cp dp : Int64}
    (h : ChannelInitialized w w' g r cap cp dp total u) :
    (∀ f, channelSum w'.accounts b m f = channelSum w.accounts b m f
      + if g.buyer = b ∧ g.tokenMint = m then f ⟨g.buyer, r, g.tokenMint, cap, 0, 0, cp, dp⟩
        else 0) ∧
    ∀ f, globalTotal w'.accounts b m f = if g.buyer = b ∧ g.tokenMint = m
      then f { g with totalAllocated := total } else globalTotal w.accounts b m f := by
  rw [h.accounts]
  refine ⟨fun f => ?_, fun f => ?_⟩
  · rw [channelSum_insert_new _ (h.lookup_second _), channelSum_insert_buyerGlobal h.global]
  · rw [globalTotal_insert_of_ne (by simp), globalTotal_insert]

theorem CapUpdated.books {cap total : UInt64} (h : CapUpdated w w' g c cap total) :
    (∀ f, channelSum w'.accounts b m f + (if c.buyer = b ∧ c.tokenMint = m then f c else 0)
      = channelSum w.accounts b m f
        + if c.buyer = b ∧ c.tokenMint = m then f { c with spendingCap := cap } else 0) ∧
    ∀ f, globalTotal w'.accounts b m f = if g.buyer = b ∧ g.tokenMint = m
      then f { g with totalAllocated := total } else globalTotal w.accounts b m f := by
  rw [h.accounts]
  refine ⟨fun f => ?_, fun f => ?_⟩
  · rw [channelSum_insert_update { c with spendingCap := cap } (h.lookup_second _) rfl rfl,
      channelSum_insert_buyerGlobal h.global]
  · rw [globalTotal_insert_of_ne (by simp), globalTotal_insert]

/-- `deposit` and `withdraw` set one counter. -/
theorem depositedBooks {total : UInt64} (h : BuyerGlobal w g)
    (hacc : w'.accounts = w.accounts.insert (.globalState g.buyer g.tokenMint)
      (.globalState { g with totalDeposited := total })) :
    (∀ f, channelSum w'.accounts b m f = channelSum w.accounts b m f) ∧
    ∀ f, globalTotal w'.accounts b m f = if g.buyer = b ∧ g.tokenMint = m
      then f { g with totalDeposited := total } else globalTotal w.accounts b m f := by
  rw [hacc]
  exact ⟨channelSum_insert_buyerGlobal h _, fun f => globalTotal_insert⟩

theorem Settled.books {o : Bool} {ch : Address} {r : Bytes 32} {t sa n u : UInt64}
    {l : Address → UInt64} (h : Settled w w' o ch c r t sa n u l) :
    (∀ f, channelSum w'.accounts b m f + (if c.buyer = b ∧ c.tokenMint = m then f c else 0)
      = channelSum w.accounts b m f + if c.buyer = b ∧ c.tokenMint = m
        then f { c with settledAmount := sa, nonce := n } else 0) ∧
    ∀ f, globalTotal w'.accounts b m f = globalTotal w.accounts b m f := by
  rw [h.accounts]
  refine ⟨fun f => ?_, fun f => ?_⟩
  · rw [channelSum_insert_other (by simp) (by simp [h.lookup_second]),
      channelSum_insert_update { c with settledAmount := sa, nonce := n } h.lookup rfl rfl]
  · rw [globalTotal_insert_of_ne (by simp), globalTotal_insert_of_ne (by simp [h.place])]

/-- Writing an escrow of an escrow instruction. -/
theorem Loaded.books {ctx : EscrowAccess} {d : Bool} {e e' : SettlementEscrow}
    (h : Loaded w ctx d c e) (hacc : w'.accounts =
      w.accounts.insert ctx.settlementEscrow (.settlementEscrow e')) :
    (∀ f, channelSum w'.accounts b m f = channelSum w.accounts b m f) ∧
    ∀ f, globalTotal w'.accounts b m f = globalTotal w.accounts b m f := by
  rw [hacc]
  refine ⟨fun f => channelSum_insert_other (by simp) (by simp [h.lookup_escrow]), fun f => ?_⟩
  exact globalTotal_insert_of_ne (by simp [h.place])

theorem Refunded.books {ctx : EscrowAccess} {e : SettlementEscrow} {sa : UInt64}
    (hw : WellPlaced w.accounts) (h : Refunded w w' ctx c e sa) :
    (∀ f, channelSum w'.accounts b m f + (if c.buyer = b ∧ c.tokenMint = m then f c else 0)
      = channelSum w.accounts b m f + if c.buyer = b ∧ c.tokenMint = m
        then f { c with settledAmount := sa } else 0) ∧
    ∀ f, globalTotal w'.accounts b m f = globalTotal w.accounts b m f := by
  have hch := (hw.channel h.loaded.lookup_channel).1
  rw [h.accounts]
  refine ⟨fun f => ?_, fun f => ?_⟩
  · rw [channelSum_insert_other (by simp) (by simp [h.loaded.lookup_second]),
      channelSum_insert_update { c with settledAmount := sa } h.loaded.lookup_channel rfl rfl]
  · rw [globalTotal_insert_of_ne (by simp [h.loaded.place]),
      globalTotal_insert_of_ne (by simp [hch])]

end Books

/-! ### Allocation -/

section Allocation

variable {w w' : World} {call : Call} {b m : Address}

theorem BuyerGlobal.total {g : GlobalState} (h : BuyerGlobal w g) (f : GlobalState → ℕ) :
    globalTotal w.accounts g.buyer g.tokenMint f = f g :=
  globalTotal_of_lookup h.lookup

/-- A counter that a call's write to the global state keeps, it keeps for every
pair. -/
theorem BuyerGlobal.total_eq {g g' : GlobalState} {s : Accounts} {f : GlobalState → ℕ}
    (h : BuyerGlobal w g)
    (hbooks : globalTotal s b m f = if g.buyer = b ∧ g.tokenMint = m then f g'
      else globalTotal w.accounts b m f) (hf : f g' = f g) :
    globalTotal s b m f = globalTotal w.accounts b m f := by
  rw [hbooks]
  split
  · next hbm =>
    obtain ⟨rfl, rfl⟩ := hbm
    rw [hf, h.total]
  · rfl

theorem BuyerGlobal.total_le {g g' : GlobalState} {s : Accounts} {f : GlobalState → ℕ}
    (h : BuyerGlobal w g)
    (hbooks : globalTotal s b m f = if g.buyer = b ∧ g.tokenMint = m then f g'
      else globalTotal w.accounts b m f) (hf : f g ≤ f g') :
    globalTotal w.accounts b m f ≤ globalTotal s b m f := by
  rw [hbooks]
  split
  · next hbm =>
    obtain ⟨rfl, rfl⟩ := hbm
    rwa [h.total]
  · exact le_rfl

theorem allocated_le_deposited_of_effect (hw : WellPlaced w.accounts) (h : Effect w call w')
    (ha : ∀ b m, allocated w.accounts b m ≤ deposited w.accounts b m) :
    allocated w'.accounts b m ≤ deposited w'.accounts b m := by
  have hbm := ha b m
  unfold allocated deposited at hbm ⊢
  cases h with
  | initializeGlobal hf =>
    rw [(hf.books b m).2, (hf.books b m).2]
    split
    · exact le_rfl
    · exact hbm
  | initializeChannel hf =>
    rw [(hf.books b m).2, (hf.books b m).2]
    split
    · exact hf.allocates.le
    · exact hbm
  | updateSpendingCap _ _ hf =>
    rw [(hf.books b m).2, (hf.books b m).2]
    split
    · exact hf.allocates.le
    · exact hbm
  | @deposit ctx w' g amount total hf =>
    -- Only the deposit of the state's own pair grows, and it was no less before.
    have hbooks := (depositedBooks b m hf.global hf.accounts).2
    have hg := ha g.buyer g.tokenMint
    rw [allocated, deposited, hf.global.total, hf.global.total] at hg
    have htotal := hf.total_eq
    rw [hbooks, hbooks]
    split
    · show g.totalAllocated.toNat ≤ total.toNat
      omega
    · exact hbm
  | withdraw hf =>
    have hbooks := (depositedBooks b m hf.global hf.accounts).2
    rw [hbooks, hbooks]
    split
    · exact hf.allocated
    · exact hbm
  | settle _ hf =>
    rw [(hf.books b m).2, (hf.books b m).2]
    exact hbm
  | release _ hf =>
    have hbooks := (hf.loaded.books b m hf.accounts).2
    rw [hbooks, hbooks]
    exact hbm
  | dispute hf =>
    have hbooks := (hf.loaded.books b m hf.accounts).2
    rw [hbooks, hbooks]
    exact hbm
  | resolveDispute hf =>
    rw [(hf.books b m hw).2, (hf.books b m hw).2]
    exact hbm
  | transfer _ hacc _ _ =>
    rw [hacc]
    exact hbm
  | tick _ => exact hbm

/-- A raise of the cap of a channel of `b` and `m` is allocated from the global
state of the same mint. -/
def PairsMints (b m : Address) (w : World) : Call → Prop
  | .updateSpendingCap ctx cap => ∀ c g, w.channelAt ctx.channel = some c → c.buyer = b →
      c.tokenMint = m → c.spendingCap < cap → w.globalStateAt ctx.globalState = some g →
        g.tokenMint = m
  | _ => True

theorem toNat_capRaise (c : Channel) (cap : UInt64) :
    (capRaise c cap).toNat = cap.toNat - c.spendingCap.toNat := by
  unfold capRaise
  split
  · next h => exact UInt64.toNat_sub_of_le _ _ (UInt64.le_of_lt h)
  · next h =>
    have := UInt64.le_iff_toNat_le.mp (UInt64.not_lt.mp h)
    show 0 = _
    omega

/-- A raised cap reserves no more than what is allocated for the raise. -/
theorem Channel.reserved_cap_le (c : Channel) (cap : UInt64) :
    ({ c with spendingCap := cap } : Channel).reserved ≤ c.reserved + (capRaise c cap).toNat := by
  rw [toNat_capRaise]
  unfold Channel.reserved
  show max cap.toNat c.settledAmount.toNat ≤ _
  omega

/-- A settlement stays within the cap, so it reserves nothing new. -/
theorem Settled.reserved_eq {o : Bool} {ch : Address} {c : Channel} {r : Bytes 32}
    {t sa n u : UInt64} {l : Address → UInt64} (h : Settled w w' o ch c r t sa n u l) :
    ({ c with settledAmount := sa, nonce := n } : Channel).reserved = c.reserved := by
  have hcap := h.cap
  have hsettled := h.settledAmount_eq
  unfold Channel.reserved
  show max c.spendingCap.toNat sa.toNat = _
  omega

/-- A refund may free what was settled above a lowered cap. -/
theorem Refunded.reserved_le {ctx : EscrowAccess} {c : Channel} {e : SettlementEscrow}
    {sa : UInt64} (h : Refunded w w' ctx c e sa) :
    ({ c with settledAmount := sa } : Channel).reserved ≤ c.reserved := by
  have hsettled := h.settledAmount_eq
  unfold Channel.reserved
  show max c.spendingCap.toNat sa.toNat ≤ _
  omega

/-- `update_spending_cap` keeps the reservations within the allocation if a raise
is allocated from the global state of the channel's own mint. -/
theorem CapUpdated.reservedSum_le {g : GlobalState} {c : Channel} {cap total : UInt64}
    (h : CapUpdated w w' g c cap total)
    (hmint : c.buyer = b → c.tokenMint = m → c.spendingCap < cap → g.tokenMint = m)
    (hr : reservedSum w.accounts b m ≤ allocated w.accounts b m) :
    reservedSum w'.accounts b m ≤ allocated w'.accounts b m := by
  unfold reservedSum allocated at hr ⊢
  have hsum := (h.books b m).1 Channel.reserved
  have halloc := (h.books b m).2 (·.totalAllocated.toNat)
  have htotal := h.allocates.eq
  have hcap := c.reserved_cap_le cap
  have hmono : globalTotal w.accounts b m (·.totalAllocated.toNat)
      ≤ globalTotal w'.accounts b m (·.totalAllocated.toNat) := by
    refine h.global.total_le halloc ?_
    show g.totalAllocated.toNat ≤ total.toNat
    omega
  by_cases hc : c.buyer = b ∧ c.tokenMint = m
  · rw [if_pos hc, if_pos hc] at hsum
    by_cases hraise : c.spendingCap < cap
    · -- The raise goes to the allocation of `b` and `m` itself.
      have hbm : g.buyer = b ∧ g.tokenMint = m :=
        ⟨h.buyer.symm.trans hc.1, hmint hc.1 hc.2 hraise⟩
      rw [if_pos hbm] at halloc
      obtain ⟨rfl, rfl⟩ := hbm
      have hg := h.global.total (·.totalAllocated.toNat)
      have halloc' : globalTotal w'.accounts g.buyer g.tokenMint (·.totalAllocated.toNat)
        = total.toNat := halloc
      omega
    · have hle := UInt64.le_iff_toNat_le.mp (UInt64.not_lt.mp hraise)
      rw [toNat_capRaise] at hcap
      omega
  · rw [if_neg hc, if_neg hc] at hsum
    omega

theorem reservedSum_le_allocated_of_effect (hw : WellPlaced w.accounts) (h : Effect w call w')
    (hpairs : PairsMints b m w call)
    (hr : reservedSum w.accounts b m ≤ allocated w.accounts b m) :
    reservedSum w'.accounts b m ≤ allocated w'.accounts b m := by
  unfold reservedSum allocated at hr ⊢
  cases h with
  | initializeGlobal hf =>
    rw [(hf.books b m).1, (hf.books b m).2]
    split
    · next hbm =>
      -- Before its global state exists, no channel of the pair does.
      obtain ⟨rfl, rfl⟩ := hbm
      rw [globalTotal, hf.fresh] at hr
      exact hr
    · exact hr
  | @initializeChannel ctx w' g cap total topUp cp dp hf =>
    rw [(hf.books b m).1, (hf.books b m).2]
    split
    · next hbm =>
      -- A new channel has settled nothing, so it reserves its cap, which was allocated.
      obtain ⟨rfl, rfl⟩ := hbm
      have hg := hf.global.total (·.totalAllocated.toNat)
      have htotal := hf.allocates.eq
      show _ + max cap.toNat 0 ≤ total.toNat
      omega
    · exact hr
  | updateSpendingCap hglobal hchannel hf =>
    refine hf.reservedSum_le (fun hb hm hraise => ?_) hr
    exact hpairs _ _ (hchannel ▸ hf.channel) hb hm hraise (hglobal ▸ hf.global.stored)
  | deposit hf =>
    obtain ⟨hsum, htot⟩ := depositedBooks b m hf.global hf.accounts
    rw [hsum, hf.global.total_eq (htot _) rfl]
    exact hr
  | withdraw hf =>
    obtain ⟨hsum, htot⟩ := depositedBooks b m hf.global hf.accounts
    rw [hsum, hf.global.total_eq (htot _) rfl]
    exact hr
  | settle _ hf =>
    -- A settlement stays within the cap, and so within what the channel reserves.
    have hsum := (hf.books b m).1 Channel.reserved
    rw [hf.reserved_eq] at hsum
    rw [(hf.books b m).2]
    omega
  | release _ hf =>
    obtain ⟨hsum, htot⟩ := hf.loaded.books b m hf.accounts
    rw [hsum, htot]
    exact hr
  | dispute hf =>
    obtain ⟨hsum, htot⟩ := hf.loaded.books b m hf.accounts
    rw [hsum, htot]
    exact hr
  | resolveDispute hf =>
    obtain ⟨hsum, htot⟩ := hf.books b m hw
    have hsum := hsum Channel.reserved
    have hle := hf.reserved_le
    rw [htot]
    split at hsum
    · omega
    · omega
  | transfer _ hacc _ _ =>
    rw [hacc]
    exact hr
  | tick _ => exact hr

end Allocation

/-! ### The vault -/

section Vault

variable {w w' : World} {call : Call} {b m : Address}

/-- The lamports in the vault of `b` and `m`. -/
def vaultBalance (w : World) (b m : Address) : ℕ := (w.lamports (.vault b m)).toNat

/-- The vault holds what is deposited and not settled. -/
def Solvent (w : World) (b m : Address) : Prop :=
  deposited w.accounts b m ≤ vaultBalance w b m + settledSum w.accounts b m

/-- A resolved dispute on a channel of `b` and `m` returns nothing. -/
def RefundsNothing (b m : Address) (w : World) : Call → Prop
  | .resolveDispute ctx _ => ∀ c e, w.channelAt ctx.channel = some c → c.buyer = b →
      c.tokenMint = m → w.escrowAt ctx.settlementEscrow = some e → e.amount = 0
  | _ => True

theorem vault_ne_of_isKey {a : Address} (h : a.isKey) : Address.vault b m ≠ a := by
  rintro rfl
  exact absurd h (by simp [Address.isKey])

/-- The vaults of two pairs differ. -/
theorem vault_ne_of_pair {b' m' : Address} (h : ¬ (b' = b ∧ m' = m)) :
    Address.vault b m ≠ .vault b' m' := by
  rintro ⟨⟩
  exact h ⟨rfl, rfl⟩

/-- Lamports that a wallet sends do not come out of a vault. -/
theorem vault_le_of_key {l l' : Address → UInt64} {src dst : Address} {amount : UInt64}
    (h : Moved l l' src dst amount) (hkey : src.isKey) :
    (l (.vault b m)).toNat ≤ (l' (.vault b m)).toNat :=
  h.le (vault_ne_of_isKey hkey)

/-- Nor do lamports an escrow pays. -/
theorem vault_le_of_escrow {l l' : Address → UInt64} {ch dst : Address} {n amount : UInt64}
    (h : Moved l l' (.settlement ch n) dst amount) :
    (l (.vault b m)).toNat ≤ (l' (.vault b m)).toNat :=
  h.le (by simp)

theorem solvent_of_effect (hw : WellPlaced w.accounts) (h : Effect w call w')
    (hrefund : RefundsNothing b m w call) (hs : Solvent w b m) : Solvent w' b m := by
  unfold Solvent deposited settledSum vaultBalance at hs ⊢
  cases h with
  | initializeGlobal hf =>
    have hvault := vault_le_of_key (b := b) (m := m) hf.lamports hf.signer
    rw [(hf.books b m).1, (hf.books b m).2]
    split
    · exact Nat.zero_le _
    · omega
  | initializeChannel hf =>
    have hvault := vault_le_of_key (b := b) (m := m) hf.lamports hf.global.signer
    rw [(hf.books b m).1, hf.global.total_eq ((hf.books b m).2 _) rfl]
    omega
  | updateSpendingCap _ _ hf =>
    have hsum := (hf.books b m).1 (·.settledAmount.toNat)
    dsimp only at hsum
    rw [hf.global.total_eq ((hf.books b m).2 _) rfl, hf.lamports]
    omega
  | @deposit ctx w' g amount total hf =>
    obtain ⟨hsum, htot⟩ := depositedBooks b m hf.global hf.accounts
    have hvault := hf.lamports (.vault b m)
    rw [if_neg (vault_ne_of_isKey hf.global.signer)] at hvault
    rw [hsum, htot]
    split
    · next hbm =>
      obtain ⟨rfl, rfl⟩ := hbm
      rw [hf.global.total] at hs
      rw [if_pos rfl] at hvault
      have htotal := hf.total_eq
      show total.toNat ≤ _
      omega
    · omega
  | @withdraw ctx w' g amount total hf =>
    -- The vault and the recorded deposit lose the same amount.
    obtain ⟨hsum, htot⟩ := depositedBooks b m hf.global hf.accounts
    have hvault := hf.lamports (.vault b m)
    rw [hsum, htot]
    split
    · next hbm =>
      obtain ⟨rfl, rfl⟩ := hbm
      rw [hf.global.total] at hs
      rw [if_pos rfl] at hvault
      have htotal := hf.total_eq
      show total.toNat ≤ _
      omega
    · next hbm =>
      rw [if_neg (vault_ne_of_pair hbm)] at hvault
      omega
  | @settle _ ctx w' c root optimistic amount sa n topUp l _ hf =>
    have hrent := vault_le_of_key (b := b) (m := m) hf.rent hf.signer
    have hvault := hf.lamports (.vault b m)
    have hsum := (hf.books b m).1 (·.settledAmount.toNat)
    have hsettled := hf.settledAmount_eq
    dsimp only at hsum
    rw [(hf.books b m).2]
    -- What leaves the vault for the escrow is what the settled amount grows by.
    by_cases hbm : c.buyer = b ∧ c.tokenMint = m
    · rw [if_pos hbm, if_pos hbm] at hsum
      obtain ⟨rfl, rfl⟩ := hbm
      rw [if_pos rfl, if_neg (by simp)] at hvault
      omega
    · rw [if_neg hbm, if_neg hbm] at hsum
      rw [if_neg (vault_ne_of_pair hbm)] at hvault
      omega
  | release _ hf =>
    obtain ⟨hsum, htot⟩ := hf.loaded.books b m hf.accounts
    have hvault := vault_le_of_escrow (b := b) (m := m) (hf.loaded.place ▸ hf.lamports)
    rw [hsum, htot]
    omega
  | dispute hf =>
    obtain ⟨hsum, htot⟩ := hf.loaded.books b m hf.accounts
    rw [hsum, htot, hf.lamports]
    exact hs
  | @resolveDispute ctx w' c e proof sa hf =>
    obtain ⟨hsum, htot⟩ := hf.books b m hw
    have hsum := hsum (·.settledAmount.toNat)
    have hvault := vault_le_of_escrow (b := b) (m := m) (hf.loaded.place ▸ hf.lamports)
    have hsettled := hf.settledAmount_eq
    dsimp only at hsum
    rw [htot]
    -- The settled amount shrinks and nothing flows back, so only a refund of nothing is safe.
    by_cases hbm : c.buyer = b ∧ c.tokenMint = m
    · have hzero : e.amount = 0 :=
        hrefund c e hf.loaded.channel hbm.1 hbm.2 hf.loaded.escrow
      have hzero' : e.amount.toNat = 0 := by rw [hzero]; rfl
      rw [if_pos hbm, if_pos hbm] at hsum
      omega
    · rw [if_neg hbm, if_neg hbm] at hsum
      omega
  | transfer hkey hacc hl _ =>
    have hvault := vault_le_of_key (b := b) (m := m) hl hkey
    rw [hacc]
    omega
  | tick _ => exact hs

/-- With every reservation backed by the deposit, a solvent vault covers what
is left of any one cap. -/
theorem le_vaultBalance_of_reserved {c : Channel} {ch : Address}
    (hc : w.channelAt ch = some c) (hb : c.buyer = b) (hm : c.tokenMint = m)
    (hreserved : reservedSum w.accounts b m ≤ deposited w.accounts b m) (hs : Solvent w b m) :
    c.spendingCap.toNat ≤ vaultBalance w b m + c.settledAmount.toNat := by
  -- Summed over the channels, a reservation is the settled amount and what is left of it.
  have hsplit : reservedSum w.accounts b m = settledSum w.accounts b m
      + channelSum w.accounts b m (fun c => c.reserved - c.settledAmount.toNat) := by
    rw [settledSum, ← channelSum_add, reservedSum]
    congr 1
    funext c
    have : c.settledAmount.toNat ≤ c.reserved := le_max_right _ _
    omega
  have hone := le_channelSum (f := fun c => c.reserved - c.settledAmount.toNat)
    (World.channelAt_eq_some.mp hc) hb hm
  have hcap : c.spendingCap.toNat ≤ c.reserved := le_max_left _ _
  unfold Solvent at hs
  omega

end Vault

/-! ### Runs -/

section Runs

variable {rt : Runtime} {w₀ w : World} {h : List (World × Call)} {b m : Address}

theorem allocated_le_deposited (hw₀ : Genesis w₀) (hrun : Run (exec rt) w₀ h w) :
    allocated w.accounts b m ≤ deposited w.accounts b m := by
  refine run_invariant (P := fun w => ∀ b m, allocated w.accounts b m ≤ deposited w.accounts b m)
    hw₀ (fun b m => ?_) (fun w call w' hw he ha b m => ?_) hrun b m
  · rw [hw₀.empty]
    exact le_rfl
  · exact allocated_le_deposited_of_effect hw he ha

theorem reservedSum_le_allocated (hw₀ : Genesis w₀) (hrun : Run (exec rt) w₀ h w)
    (hpairs : ∀ p ∈ h, PairsMints b m p.1 p.2) :
    reservedSum w.accounts b m ≤ allocated w.accounts b m := by
  refine run_invariant_of (P := fun w => reservedSum w.accounts b m ≤ allocated w.accounts b m)
    (PairsMints b m) hw₀ ?_ (fun w call w' hw hp he hr => ?_) hrun hpairs
  · rw [hw₀.empty]
    exact le_rfl
  · exact reservedSum_le_allocated_of_effect hw he hp hr

theorem solvent_of_run (hw₀ : Genesis w₀) (hrun : Run (exec rt) w₀ h w)
    (hrefund : ∀ p ∈ h, RefundsNothing b m p.1 p.2) : Solvent w b m := by
  refine run_invariant_of (P := fun w => Solvent w b m) (RefundsNothing b m) hw₀ ?_
    (fun w call w' hw hp he hs => solvent_of_effect hw he hp hs) hrun hrefund
  rw [Solvent, deposited, hw₀.empty]
  exact Nat.zero_le _

theorem capSum_le_reservedSum (s : Accounts) : capSum s b m ≤ reservedSum s b m := by
  refine Store.weight_mono fun a d _ => ?_
  cases d with
  | channel c =>
    simp only [ofChannel, Channel.reserved]
    split
    · exact le_max_left _ _
    · exact le_rfl
  | globalState g => exact le_rfl
  | settlementEscrow e => exact le_rfl

end Runs

/-! ### Concrete runs -/

namespace Sample

def globalState : Address := .globalState buyer sol
def vault : Address := .vault buyer sol
def escrow : Address := .settlement channel 0

/-- One SOL for each party. -/
def start : World where
  accounts := ∅
  lamports a := if a = buyer ∨ a = merchant then 1000000000 else 0
  now := 10

theorem genesis : Genesis start where
  empty := rfl
  supply S := by
    have hle : ∑ a ∈ S, (start.lamports a).toNat
        ≤ ∑ a ∈ {buyer, merchant}, (start.lamports a).toNat := by
      refine Finset.sum_le_sum_of_ne_zero fun a _ ha => ?_
      by_contra hnot
      refine ha ?_
      have hother : ¬ (a = buyer ∨ a = merchant) := by simpa using hnot
      show (if a = buyer ∨ a = merchant then (1000000000 : UInt64) else 0).toNat = 0
      rw [if_neg hother]
      rfl
    exact hle.trans_lt (by decide)

/-- The root of a batch of one voucher of 99. -/
def root : Bytes 32 :=
  ⟨[210, 28, 25, 229, 188, 123, 44, 27, 168, 197, 56, 39, 193, 186, 239, 213,
    122, 26, 194, 125, 181, 26, 205, 215, 12, 238, 244, 133, 83, 181, 13, 32], rfl⟩

/-- The settlement message of that root, 100 lamports and nonce 0. -/
def message : Bytes 32 :=
  ⟨[215, 208, 57, 196, 120, 147, 156, 210, 197, 143, 134, 249, 11, 31, 254, 41,
    38, 144, 77, 254, 61, 62, 84, 134, 226, 166, 156, 85, 87, 168, 52, 81], rfl⟩

def merchantSig : Bytes 64 := fill 64 6

/-- The merchant's signature instruction, before the settling one. -/
def settleTx : InstructionsSysvar where
  instructions := [{
    programId := ed25519ProgramId
    accounts := []
    data := [1, 0] ++ u16Le 48 ++ u16Le 0xffff ++ u16Le 16 ++ u16Le 0xffff ++ u16Le 112 ++ u16Le 32
      ++ u16Le 0xffff ++ (fill 32 12).val ++ merchantSig.val ++ message.val }]
  current := 1

/-- 100 lamports deposited, allocated to one channel and settled. -/
def opened (challengePeriod disputePeriod : Int64) : List Call :=
  [.initializeGlobal ⟨globalState, vault, buyer, sol⟩,
   .deposit ⟨globalState, vault, buyer⟩ 100,
   .initializeChannel ⟨globalState, channel, buyer, merchant⟩ 100 challengePeriod disputePeriod,
   .optimisticSettle settleTx ⟨globalState, vault, channel, escrow, merchant⟩ root 100 merchantSig]

/-- The buyer proves that the batch is worth 99 and gets the 100 lamports back. -/
def refunded : List Call :=
  opened 100 200 ++ [.dispute ⟨channel, escrow, buyer⟩,
    .resolveDispute ⟨channel, escrow, buyer⟩ ⟨0, 99, fill 64 1, [], []⟩]

/-- A mint other than SOL. -/
def token : Address := .key (fill 32 11)

/-- A channel of `token` gets its cap from the global state of SOL. -/
def crossMint : List Call :=
  [.initializeGlobal ⟨globalState, vault, buyer, sol⟩,
   .deposit ⟨globalState, vault, buyer⟩ 100,
   .initializeGlobal ⟨.globalState buyer token, .vault buyer token, buyer, token⟩,
   .initializeChannel ⟨.globalState buyer token, .channel buyer merchant token, buyer, merchant⟩
     0 100 200,
   .updateSpendingCap ⟨globalState, .channel buyer merchant token, buyer⟩ 100]

end Sample

end Mb
