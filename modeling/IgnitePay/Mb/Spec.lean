/-
What each instruction of the MagicBlock program can do.

For every instruction one structure lists the facts a success establishes: the
accounts it loaded and where they stand, the checks that passed, the accounts
it wrote, and between which accounts lamports moved.  `Effect` collects them
by call.

* `exec_effect` — every successful call has the effect listed for it.

The invariants are proved from `Effect`; nothing else unfolds an instruction.
-/
import IgnitePay.Mb.Program

namespace Mb

open Bytes Machine Solana

/-- `amount` lamports go from `src` to `dst`, and nothing else changes. -/
def Moved (l l' : Address → UInt64) (src dst : Address) (amount : UInt64) : Prop :=
  ∀ a, (l' a).toNat + (if a = src then amount.toNat else 0)
    = (l a).toNat + (if a = dst then amount.toNat else 0)

/-- An account that is not the source loses nothing. -/
theorem Moved.le {l l' : Address → UInt64} {src dst a : Address} {amount : UInt64}
    (h : Moved l l' src dst amount) (ha : a ≠ src) : (l a).toNat ≤ (l' a).toNat := by
  have := h a
  rw [if_neg ha] at this
  omega

/-- An account that is neither end keeps its lamports. -/
theorem Moved.eq {l l' : Address → UInt64} {src dst a : Address} {amount : UInt64}
    (h : Moved l l' src dst amount) (hs : a ≠ src) (hd : a ≠ dst) :
    (l' a).toNat = (l a).toNat := by
  have := h a
  rw [if_neg hs, if_neg hd] at this
  omega

/-- Lamports over a set that contains both ends do not change. -/
theorem Moved.sum_eq {l l' : Address → UInt64} {src dst : Address} {amount : UInt64}
    (h : Moved l l' src dst amount) {S : Finset Address} (hs : src ∈ S) (hd : dst ∈ S) :
    ∑ a ∈ S, (l' a).toNat = ∑ a ∈ S, (l a).toNat := by
  have hsum := Finset.sum_congr (rfl : S = S) fun a _ => h a
  rw [Finset.sum_add_distrib, Finset.sum_add_distrib, Finset.sum_ite_eq', Finset.sum_ite_eq',
    if_pos hs, if_pos hd] at hsum
  omega

/-! ### The facts behind each success -/

section Facts

variable (w w' : World)

structure GlobalInitialized (buyer tokenMint : Address) (topUp : UInt64) : Prop where
  signer : buyer.isKey
  fresh : w.accounts.lookup (.globalState buyer tokenMint) = none
  accounts : w'.accounts = w.accounts.insert (.globalState buyer tokenMint)
    (.globalState ⟨buyer, tokenMint, 0, 0⟩)
  lamports : Moved w.lamports w'.lamports buyer (.globalState buyer tokenMint) topUp
  now : w'.now = w.now

/-- The global state of the signing buyer. -/
structure BuyerGlobal (g : GlobalState) : Prop where
  signer : g.buyer.isKey
  stored : w.globalStateAt (.globalState g.buyer g.tokenMint) = some g

/-- `total_allocated` after allocating `more` to a channel. -/
structure Allocates (g : GlobalState) (more total : UInt64) : Prop where
  eq : total.toNat = g.totalAllocated.toNat + more.toNat
  le : total.toNat ≤ g.totalDeposited.toNat

structure ChannelInitialized (g : GlobalState) (merchant : Address) (spendingCap : UInt64)
    (challengePeriod disputePeriod : Int64) (total topUp : UInt64) : Prop where
  global : BuyerGlobal w g
  allocates : Allocates g spendingCap total
  fresh : w.accounts.lookup (.channel g.buyer merchant g.tokenMint) = none
  accounts : w'.accounts =
    (w.accounts.insert (.globalState g.buyer g.tokenMint)
        (.globalState { g with totalAllocated := total })).insert
      (.channel g.buyer merchant g.tokenMint)
      (.channel ⟨g.buyer, merchant, g.tokenMint, spendingCap, 0, 0, challengePeriod,
        disputePeriod⟩)
  lamports : Moved w.lamports w'.lamports g.buyer (.channel g.buyer merchant g.tokenMint) topUp
  now : w'.now = w.now

/-- How much `update_spending_cap` allocates: the raise, or nothing. -/
def capRaise (c : Channel) (newSpendingCap : UInt64) : UInt64 :=
  if newSpendingCap > c.spendingCap then newSpendingCap - c.spendingCap else 0

structure CapUpdated (g : GlobalState) (c : Channel) (newSpendingCap total : UInt64) : Prop where
  global : BuyerGlobal w g
  channel : w.channelAt (.channel c.buyer c.merchant c.tokenMint) = some c
  buyer : c.buyer = g.buyer
  allocates : Allocates g (capRaise c newSpendingCap) total
  accounts : w'.accounts =
    (w.accounts.insert (.globalState g.buyer g.tokenMint)
        (.globalState { g with totalAllocated := total })).insert
      (.channel c.buyer c.merchant c.tokenMint)
      (.channel { c with spendingCap := newSpendingCap })
  lamports : w'.lamports = w.lamports
  now : w'.now = w.now

structure Deposited (g : GlobalState) (amount total : UInt64) : Prop where
  global : BuyerGlobal w g
  total_eq : total.toNat = g.totalDeposited.toNat + amount.toNat
  accounts : w'.accounts = w.accounts.insert (.globalState g.buyer g.tokenMint)
    (.globalState { g with totalDeposited := total })
  lamports : Moved w.lamports w'.lamports g.buyer (.vault g.buyer g.tokenMint) amount
  now : w'.now = w.now

structure Withdrawn (g : GlobalState) (amount total : UInt64) : Prop where
  global : BuyerGlobal w g
  total_eq : g.totalDeposited.toNat = total.toNat + amount.toNat
  allocated : g.totalAllocated.toNat ≤ total.toNat
  accounts : w'.accounts = w.accounts.insert (.globalState g.buyer g.tokenMint)
    (.globalState { g with totalDeposited := total })
  lamports : Moved w.lamports w'.lamports (.vault g.buyer g.tokenMint) g.buyer amount
  now : w'.now = w.now

/-- The escrow a settlement creates. -/
def newEscrow (channel : Address) (c : Channel) (merkleRoot : Bytes 32) (totalAmount : UInt64)
    (optimistic : Bool) : SettlementEscrow where
  channel := channel
  merchant := c.merchant
  tokenMint := c.tokenMint
  amount := totalAmount
  merkleRoot := merkleRoot
  nonce := c.nonce
  createdAt := w.now
  claimed := false
  disputed := false
  optimistic := optimistic

structure Settled (optimistic : Bool) (ch : Address) (c : Channel) (merkleRoot : Bytes 32)
    (totalAmount settledAmount nonce topUp : UInt64) (l : Address → UInt64) : Prop where
  signer : c.merchant.isKey
  channel : w.channelAt ch = some c
  place : ch = .channel c.buyer c.merchant c.tokenMint
  global : ∃ g, w.globalStateAt (.globalState c.buyer c.tokenMint) = some g
  fresh : w.accounts.lookup (.settlement ch c.nonce) = none
  settledAmount_eq : settledAmount.toNat = c.settledAmount.toNat + totalAmount.toNat
  cap : settledAmount.toNat ≤ c.spendingCap.toNat
  nonce_eq : nonce.toNat = c.nonce.toNat + 1
  challengePeriod : optimistic = true → 0 < c.challengePeriod.toInt
  accounts : w'.accounts =
    (w.accounts.insert ch (.channel { c with settledAmount, nonce })).insert
      (.settlement ch c.nonce)
      (.settlementEscrow (newEscrow w ch c merkleRoot totalAmount optimistic))
  rent : Moved w.lamports l c.merchant (.settlement ch c.nonce) topUp
  lamports : Moved l w'.lamports (.vault c.buyer c.tokenMint) (.settlement ch c.nonce) totalAmount
  now : w'.now = w.now

/-- What the four instructions on an escrow load. -/
structure Loaded (ctx : EscrowAccess) (disputed : Bool) (c : Channel)
    (e : SettlementEscrow) : Prop where
  signer : ctx.party.isKey
  channel : w.channelAt ctx.channel = some c
  escrow : w.escrowAt ctx.settlementEscrow = some e
  place : ctx.settlementEscrow = .settlement ctx.channel e.nonce
  claimed : e.claimed = false
  disputed : e.disputed = disputed

structure Released (ctx : EscrowAccess) (disputed : Bool) (period : Channel → Int64)
    (c : Channel) (e : SettlementEscrow) : Prop where
  loaded : Loaded w ctx disputed c e
  merchant : c.merchant = ctx.party
  inRange : InI64 (e.createdAt.toInt + (period c).toInt)
  due : e.createdAt.toInt + (period c).toInt ≤ w.now.toInt
  accounts : w'.accounts = w.accounts.insert ctx.settlementEscrow
    (.settlementEscrow { e with claimed := true })
  lamports : Moved w.lamports w'.lamports ctx.settlementEscrow ctx.party e.amount
  now : w'.now = w.now

structure Disputed (ctx : EscrowAccess) (c : Channel) (e : SettlementEscrow) : Prop where
  loaded : Loaded w ctx false c e
  buyer : ctx.party = c.buyer
  early : w.now.toInt < e.createdAt.toInt + c.challengePeriod.toInt
  accounts : w'.accounts = w.accounts.insert ctx.settlementEscrow
    (.settlementEscrow { e with disputed := true })
  lamports : w'.lamports = w.lamports
  now : w'.now = w.now

structure Refunded (ctx : EscrowAccess) (c : Channel) (e : SettlementEscrow)
    (settledAmount : UInt64) : Prop where
  loaded : Loaded w ctx true c e
  buyer : ctx.party = c.buyer
  settledAmount_eq : c.settledAmount.toNat = settledAmount.toNat + e.amount.toNat
  accounts : w'.accounts =
    (w.accounts.insert ctx.channel (.channel { c with settledAmount })).insert
      ctx.settlementEscrow (.settlementEscrow { e with claimed := true })
  lamports : Moved w.lamports w'.lamports ctx.settlementEscrow ctx.party e.amount
  now : w'.now = w.now

end Facts

/-- The two settlements: whether optimistic, the accounts, the root, the amount. -/
def Call.settlement : Call → Option (Bool × BatchSettle × Bytes 32 × UInt64)
  | .settleBatch _ ctx merkleRoot totalAmount _ _ => some (false, ctx, merkleRoot, totalAmount)
  | .optimisticSettle _ ctx merkleRoot totalAmount _ => some (true, ctx, merkleRoot, totalAmount)
  | _ => none

/-- The two releases to the merchant: the accounts, which `disputed` flag the
escrow has, and the period that must have passed. -/
def Call.release : Call → Option (EscrowAccess × Bool × (Channel → Int64))
  | .releaseSettlement ctx => some (ctx, false, Channel.challengePeriod)
  | .forceRelease ctx => some (ctx, true, Channel.disputePeriod)
  | _ => none

theorem release_period {call : Call} {ctx : EscrowAccess} {disputed : Bool}
    {period : Channel → Int64} (h : call.release = some (ctx, disputed, period)) :
    period = Channel.challengePeriod ∨ period = Channel.disputePeriod := by
  cases call <;> simp_all [Call.release]

/-- What a call can do. -/
inductive Effect (w : World) : Call → World → Prop
  | initializeGlobal {ctx : InitializeGlobal} {w' : World} {topUp : UInt64} :
      GlobalInitialized w w' ctx.buyer ctx.tokenMint topUp →
      Effect w (.initializeGlobal ctx) w'
  | initializeChannel {ctx : InitializeChannel} {w' : World} {g : GlobalState}
      {cap total topUp : UInt64} {cp dp : Int64} :
      ChannelInitialized w w' g ctx.merchant cap cp dp total topUp →
      Effect w (.initializeChannel ctx cap cp dp) w'
  | updateSpendingCap {ctx : UpdateSpendingCap} {w' : World} {g : GlobalState} {c : Channel}
      {cap total : UInt64} :
      ctx.globalState = .globalState g.buyer g.tokenMint →
      ctx.channel = .channel c.buyer c.merchant c.tokenMint →
      CapUpdated w w' g c cap total → Effect w (.updateSpendingCap ctx cap) w'
  | deposit {ctx : VaultAccess} {w' : World} {g : GlobalState} {amount total : UInt64} :
      Deposited w w' g amount total → Effect w (.deposit ctx amount) w'
  | withdraw {ctx : VaultAccess} {w' : World} {g : GlobalState} {amount total : UInt64} :
      Withdrawn w w' g amount total → Effect w (.withdraw ctx amount) w'
  | settle {call : Call} {ctx : BatchSettle} {w' : World} {c : Channel} {merkleRoot : Bytes 32}
      {optimistic : Bool} {totalAmount settledAmount nonce topUp : UInt64}
      {l : Address → UInt64} :
      call.settlement = some (optimistic, ctx, merkleRoot, totalAmount) →
      Settled w w' optimistic ctx.channel c merkleRoot totalAmount settledAmount nonce topUp l →
      Effect w call w'
  | release {call : Call} {ctx : EscrowAccess} {w' : World} {c : Channel} {e : SettlementEscrow}
      {disputed : Bool} {period : Channel → Int64} :
      call.release = some (ctx, disputed, period) →
      Released w w' ctx disputed period c e → Effect w call w'
  | dispute {ctx : EscrowAccess} {w' : World} {c : Channel} {e : SettlementEscrow} :
      Disputed w w' ctx c e → Effect w (.dispute ctx) w'
  | resolveDispute {ctx : EscrowAccess} {w' : World} {c : Channel} {e : SettlementEscrow}
      {proof : FraudProof} {settledAmount : UInt64} :
      Refunded w w' ctx c e settledAmount → Effect w (.resolveDispute ctx proof) w'
  | transfer {src dst : Address} {amount : UInt64} {w' : World} :
      src.isKey → w'.accounts = w.accounts → Moved w.lamports w'.lamports src dst amount →
      w'.now = w.now → Effect w (.transfer src dst amount) w'
  | tick {now : Int64} :
      w.now.toInt ≤ now.toInt → Effect w (.tick now) { w with now }

/-! ### Inversion -/

section Inversion

variable {rt : Runtime} {w w' : World}

theorem loadGlobalState_eq_ok {a : Address} {g : GlobalState} :
    loadGlobalState w a = .ok g ↔ w.globalStateAt a = some g := orErr_eq_ok

theorem loadChannel_eq_ok {a : Address} {c : Channel} :
    loadChannel w a = .ok c ↔ w.channelAt a = some c := orErr_eq_ok

theorem loadSettlementEscrow_eq_ok {a : Address} {e : SettlementEscrow} :
    loadSettlementEscrow w a = .ok e ↔ w.escrowAt a = some e := orErr_eq_ok

theorem initAccount_ok {a payer : Address} {space : ℕ}
    (h : initAccount rt w a payer space = .ok w') :
    w.accounts.lookup a = none ∧ w'.accounts = w.accounts ∧ w'.now = w.now ∧
      ∃ topUp, Moved w.lamports w'.lamports payer a topUp := by
  simp only [initAccount, bind_eq_ok, require_eq_ok, orErr_eq_ok, exists_const] at h
  obtain ⟨hfresh, hmove⟩ := h
  obtain ⟨hacc, hnow, hl⟩ := World.of_moveLamports hmove
  exact ⟨hfresh, hacc, hnow, _, hl⟩

theorem initializeGlobal_ok {ctx : InitializeGlobal}
    (h : initializeGlobal rt ctx w = .ok w') :
    ∃ topUp, GlobalInitialized w w' ctx.buyer ctx.tokenMint topUp := by
  simp only [initializeGlobal, bind_eq_ok, require_eq_ok, exists_const, pure, Except.pure,
    Except.ok.injEq] at h
  obtain ⟨hsigner, -, hplace, -, w₁, hinit, rfl⟩ := h
  obtain ⟨hfresh, hacc, hnow, topUp, hl⟩ := initAccount_ok hinit
  rw [hplace] at hfresh hl ⊢
  refine ⟨topUp, hsigner, hfresh, ?_, hl, hnow⟩
  rw [World.accounts_setAccount, hacc]

/-- The checks on the buyer's global state that four account structs share. -/
theorem buyerGlobal_of_checks {a buyer : Address} {g : GlobalState} (hsigner : buyer.isKey)
    (hg : w.globalStateAt a = some g) (hone : g.buyer = buyer)
    (hplace : a = .globalState buyer g.tokenMint) :
    a = .globalState g.buyer g.tokenMint ∧ BuyerGlobal w g := by
  subst hone
  exact ⟨hplace, hsigner, hplace ▸ hg⟩

theorem allocates_of_checks {g : GlobalState} {more total : UInt64}
    (hadd : checkedAdd g.totalAllocated more = some total) (hle : total ≤ g.totalDeposited) :
    Allocates g more total :=
  ⟨checkedAdd_eq_some.mp hadd, UInt64.le_iff_toNat_le.mp hle⟩

theorem initializeChannel_ok {ctx : InitializeChannel} {cap : UInt64} {cp dp : Int64}
    (h : initializeChannel rt ctx cap cp dp w = .ok w') :
    ∃ g total topUp, ChannelInitialized w w' g ctx.merchant cap cp dp total topUp := by
  simp only [initializeChannel, bind_eq_ok, require_eq_ok, orErr_eq_ok, loadGlobalState_eq_ok,
    exists_const, pure, Except.pure, Except.ok.injEq] at h
  obtain ⟨hsigner, -, g, hg, hone, hplace, hchannel, w₁, hinit, total, hadd, hle, rfl⟩ := h
  obtain ⟨hfresh, hacc, hnow, topUp, hl⟩ := initAccount_ok hinit
  obtain ⟨hplace, hglobal⟩ := buyerGlobal_of_checks hsigner hg hone hplace
  rw [← hone] at hchannel hl ⊢
  rw [hchannel] at hfresh hl ⊢
  refine ⟨g, total, topUp, hglobal, allocates_of_checks hadd hle, hfresh, ?_, hl, hnow⟩
  rw [World.accounts_setAccount, World.accounts_setAccount, hacc, hplace]

theorem updateSpendingCap_ok {ctx : UpdateSpendingCap} {cap : UInt64}
    (h : updateSpendingCap ctx cap w = .ok w') :
    ∃ g c total, ctx.globalState = .globalState g.buyer g.tokenMint ∧
      ctx.channel = .channel c.buyer c.merchant c.tokenMint ∧ CapUpdated w w' g c cap total := by
  simp only [updateSpendingCap, bind_eq_ok, require_eq_ok, orErr_eq_ok, loadGlobalState_eq_ok,
    loadChannel_eq_ok, exists_const, pure, Except.pure, Except.ok.injEq] at h
  obtain ⟨hsigner, g, hg, hone, hplace, c, hc, hbuyer, hchannel, total, hadd, hle, rfl⟩ := h
  obtain ⟨hplace, hglobal⟩ := buyerGlobal_of_checks hsigner hg hone hplace
  rw [hchannel] at hc
  refine ⟨g, c, total, hplace, hchannel, hglobal, hc, hbuyer.trans hone.symm,
    allocates_of_checks hadd hle, ?_, rfl, rfl⟩
  rw [World.accounts_setAccount, World.accounts_setAccount, hplace, hchannel]

theorem loadVault_ok {ctx : VaultAccess} {g : GlobalState} (h : loadVault ctx w = .ok g) :
    BuyerGlobal w g ∧ ctx.buyer = g.buyer ∧ ctx.globalState = .globalState g.buyer g.tokenMint ∧
      ctx.vault = .vault g.buyer g.tokenMint := by
  simp only [loadVault, bind_eq_ok, require_eq_ok, loadGlobalState_eq_ok, exists_const, pure,
    Except.pure, Except.ok.injEq] at h
  obtain ⟨hsigner, g', hg, hone, hplace, hvault, rfl⟩ := h
  obtain ⟨hplace, hglobal⟩ := buyerGlobal_of_checks hsigner hg hone hplace
  rw [← hone] at hvault
  exact ⟨hglobal, hone.symm, hplace, hvault⟩

theorem deposit_ok {ctx : VaultAccess} {amount : UInt64} (h : deposit ctx amount w = .ok w') :
    ∃ g total, ctx.globalState = .globalState g.buyer g.tokenMint ∧
      Deposited w w' g amount total := by
  simp only [deposit, bind_eq_ok, orErr_eq_ok, pure, Except.pure, Except.ok.injEq] at h
  obtain ⟨g, hload, w₁, hmove, total, hadd, rfl⟩ := h
  obtain ⟨hglobal, hbuyer, hplace, hvault⟩ := loadVault_ok hload
  obtain ⟨hacc, hnow, hl⟩ := World.of_moveLamports hmove
  rw [hbuyer, hvault] at hl
  refine ⟨g, total, hplace, hglobal, checkedAdd_eq_some.mp hadd, ?_, hl, hnow⟩
  rw [World.accounts_setAccount, hacc, hplace]

theorem withdraw_ok {ctx : VaultAccess} {amount : UInt64} (h : withdraw ctx amount w = .ok w') :
    ∃ g total, ctx.globalState = .globalState g.buyer g.tokenMint ∧
      Withdrawn w w' g amount total := by
  simp only [withdraw, bind_eq_ok, require_eq_ok, orErr_eq_ok, exists_const] at h
  obtain ⟨g, hload, unallocated, hun, hle, total, hsub, hmove⟩ := h
  obtain ⟨hglobal, hbuyer, hplace, hvault⟩ := loadVault_ok hload
  obtain ⟨hacc, hnow, hl⟩ := World.of_moveLamports hmove
  rw [hbuyer, hvault] at hl
  have hun' := checkedSub_eq_some.mp hun
  have hsub' := checkedSub_eq_some.mp hsub
  have hle' := UInt64.le_iff_toNat_le.mp hle
  refine ⟨g, total, hplace, hglobal, hsub', by omega, ?_, hl, hnow⟩
  rw [hacc, World.accounts_setAccount, hplace]

theorem settleWith_ok {optimistic : Bool} {defences : Channel → Bytes 32 → Except Error Unit}
    {ctx : BatchSettle} {root : Bytes 32} {amount : UInt64}
    (hpositive : optimistic = true → ∀ c m, defences c m = .ok () → 0 < c.challengePeriod.toInt)
    (h : settleWith rt optimistic defences ctx root amount w = .ok w') :
    ∃ c settledAmount nonce topUp l,
      Settled w w' optimistic ctx.channel c root amount settledAmount nonce topUp l := by
  simp only [settleWith, bind_eq_ok, require_eq_ok, orErr_eq_ok, loadGlobalState_eq_ok,
    loadChannel_eq_ok, exists_const, pure, Except.pure, Except.ok.injEq] at h
  obtain ⟨hsigner, c, hc, g, hg, hglobal, hvault, hone, hplace, hescrow, w₁, hinit, cumulative,
    hcum, hcap, -, ⟨⟩, hdef, settledAmount, hset, w₂, hmove, nonce, hnonce, rfl⟩ := h
  obtain ⟨hfresh, hacc₁, hnow₁, topUp, hl₁⟩ := initAccount_ok hinit
  obtain ⟨hacc₂, hnow₂, hl₂⟩ := World.of_moveLamports hmove
  have hsettled := checkedAdd_eq_some.mp hset
  have hcumulative := checkedAdd_eq_some.mp hcum
  have hcap' := UInt64.le_iff_toNat_le.mp hcap
  have hnow : w₂.now = w.now := hnow₂.trans hnow₁
  -- The addresses that were passed are the ones that the program derives.
  rw [← hone] at hsigner hplace hl₁
  rw [hescrow] at hfresh hl₁ hl₂ ⊢
  rw [hvault] at hl₂
  rw [hglobal] at hg
  refine ⟨c, settledAmount, nonce, topUp, w₁.lamports, hsigner, hc, hplace, ⟨g, hg⟩, hfresh,
    hsettled, by omega, checkedAdd_eq_some.mp hnonce, fun ho => hpositive ho c _ hdef, ?_, hl₁,
    hl₂, hnow⟩
  rw [World.accounts_setAccount, World.accounts_setAccount, World.now_setAccount, hacc₂, hacc₁,
    hnow]
  rfl

theorem settleBatch_ok {ixs : InstructionsSysvar} {ctx : BatchSettle} {root : Bytes 32}
    {amount : UInt64} {bsig msig : Bytes 64}
    (h : settleBatch rt ixs ctx root amount bsig msig w = .ok w') :
    ∃ c settledAmount nonce topUp l,
      Settled w w' false ctx.channel c root amount settledAmount nonce topUp l := by
  unfold settleBatch at h
  exact settleWith_ok (fun ho => absurd ho (by decide)) h

theorem optimisticSettle_ok {ixs : InstructionsSysvar} {ctx : BatchSettle} {root : Bytes 32}
    {amount : UInt64} {msig : Bytes 64}
    (h : optimisticSettle rt ixs ctx root amount msig w = .ok w') :
    ∃ c settledAmount nonce topUp l,
      Settled w w' true ctx.channel c root amount settledAmount nonce topUp l := by
  unfold optimisticSettle at h
  refine settleWith_ok (fun _ c m hdef => ?_) h
  rw [bind_eq_ok] at hdef
  obtain ⟨_, hperiod, -⟩ := hdef
  exact Int64.lt_iff_toInt_lt.mp (require_eq_ok.mp hperiod)

theorem loadEscrow_eq_ok {ctx : EscrowAccess} {hasOneMerchant disputed : Bool} {flag : ErrorCode}
    {c : Channel} {e : SettlementEscrow} :
    loadEscrow ctx hasOneMerchant disputed flag w = .ok (c, e) ↔
      Loaded w ctx disputed c e ∧ (hasOneMerchant → c.merchant = ctx.party) := by
  simp only [loadEscrow, bind_eq_ok, require_eq_ok, loadChannel_eq_ok, loadSettlementEscrow_eq_ok,
    exists_const, pure, Except.pure, Except.ok.injEq, Prod.mk.injEq]
  constructor
  · rintro ⟨hsigner, c', hc, hone, e', he, hplace, hclaimed, hdisputed, rfl, rfl⟩
    exact ⟨⟨hsigner, hc, he, hplace, hclaimed, hdisputed⟩, hone⟩
  · rintro ⟨⟨hsigner, hc, he, hplace, hclaimed, hdisputed⟩, hone⟩
    exact ⟨hsigner, c, hc, hone, e, he, hplace, hclaimed, hdisputed, rfl, rfl⟩

theorem payOut_ok {ctx : EscrowAccess} {e : SettlementEscrow} (h : payOut ctx e w = .ok w') :
    w'.accounts = w.accounts.insert ctx.settlementEscrow
        (.settlementEscrow { e with claimed := true }) ∧
      Moved w.lamports w'.lamports ctx.settlementEscrow ctx.party e.amount ∧ w'.now = w.now := by
  obtain ⟨hacc, hnow, hl⟩ := World.of_moveLamports (orErr_eq_ok.mp h)
  exact ⟨hacc, hl, hnow⟩

/-- A payout needs the amount in the escrow and room for it at the other end. -/
theorem exists_payOut {ctx : EscrowAccess} {e : SettlementEscrow}
    (hfunds : e.amount.toNat ≤ (w.lamports ctx.settlementEscrow).toNat)
    (hroom : (w.lamports ctx.party).toNat + e.amount.toNat < 2 ^ 64) :
    ∃ w', payOut ctx e w = .ok w' := by
  obtain ⟨w', hmove⟩ := World.exists_moveLamports
    (w := w.setAccount ctx.settlementEscrow (.settlementEscrow { e with claimed := true }))
    hfunds fun _ => hroom
  exact ⟨w', orErr_eq_ok.mpr hmove⟩

/-- The signing party is not the escrow, which is a derived address. -/
theorem Loaded.party_ne {ctx : EscrowAccess} {d : Bool} {c : Channel} {e : SettlementEscrow}
    (h : Loaded w ctx d c e) : ctx.party ≠ ctx.settlementEscrow := by
  intro heq
  have hkey := h.signer
  rw [heq, h.place] at hkey
  exact absurd hkey (by simp [Address.isKey])

/-- `release_settlement` and `force_release` after loading: the deadline is the
creation time plus a period of the channel. -/
theorem released_of_payOut {ctx : EscrowAccess} {disputed : Bool} {period : Channel → Int64}
    {c : Channel} {e : SettlementEscrow} {deadline : Int64} (hload : Loaded w ctx disputed c e)
    (hone : c.merchant = ctx.party) (hdeadline : addI64 e.createdAt (period c) = some deadline)
    (hdue : w.now ≥ deadline) (hpay : payOut ctx e w = .ok w') :
    Released w w' ctx disputed period c e := by
  obtain ⟨hacc, hl, hnow⟩ := payOut_ok hpay
  have hdue' : deadline.toInt ≤ w.now.toInt := Int64.le_iff_toInt_le.mp hdue
  have hrange := inI64_toInt deadline
  rw [addI64_eq_some.mp hdeadline] at hdue' hrange
  exact ⟨hload, hone, hrange, hdue', hacc, hl, hnow⟩

theorem releaseSettlement_ok {ctx : EscrowAccess} (h : releaseSettlement ctx w = .ok w') :
    ∃ c e, Released w w' ctx false Channel.challengePeriod c e := by
  simp only [releaseSettlement, bind_eq_ok, require_eq_ok, orErr_eq_ok, exists_const,
    Prod.exists] at h
  obtain ⟨c, e, hload, deadline, hdeadline, hdue, hpay⟩ := h
  obtain ⟨hload, hone⟩ := loadEscrow_eq_ok.mp hload
  exact ⟨c, e, released_of_payOut hload (hone rfl) hdeadline hdue hpay⟩

theorem forceRelease_ok {ctx : EscrowAccess} (h : forceRelease ctx w = .ok w') :
    ∃ c e, Released w w' ctx true Channel.disputePeriod c e := by
  simp only [forceRelease, bind_eq_ok, require_eq_ok, orErr_eq_ok, exists_const,
    Prod.exists] at h
  obtain ⟨c, e, hload, deadline, hdeadline, hdue, hpay⟩ := h
  obtain ⟨hload, hone⟩ := loadEscrow_eq_ok.mp hload
  exact ⟨c, e, released_of_payOut hload (hone rfl) hdeadline hdue hpay⟩

theorem dispute_ok {ctx : EscrowAccess} (h : dispute ctx w = .ok w') :
    ∃ c e, Disputed w w' ctx c e := by
  simp only [dispute, bind_eq_ok, require_eq_ok, orErr_eq_ok, exists_const, Prod.exists, pure,
    Except.pure, Except.ok.injEq] at h
  obtain ⟨c, e, hload, deadline, hdeadline, hearly, hbuyer, rfl⟩ := h
  obtain ⟨hload, -⟩ := loadEscrow_eq_ok.mp hload
  have hearly' : w.now.toInt < deadline.toInt := Int64.lt_iff_toInt_lt.mp hearly
  rw [addI64_eq_some.mp hdeadline] at hearly'
  exact ⟨c, e, hload, hbuyer, hearly', rfl, rfl, rfl⟩

/-- Everything `resolve_dispute` asks for. -/
theorem resolveDispute_eq_ok {ctx : EscrowAccess} {proof : FraudProof} :
    resolveDispute rt ctx proof w = .ok w' ↔
      ∃ c e, Loaded w ctx true c e ∧ ctx.party = c.buyer ∧
        proof.siblingHashes.length = proof.siblingSums.length ∧
        (∃ total, verifySumMerkleProof rt.sha256
          (rt.sha256 (leafPreimage (ctx.channel.bytes rt) proof.voucherSeq proof.voucherAmount
            (c.buyer.bytes rt) proof.buyerVoucherSig))
          proof.voucherAmount proof.siblingHashes proof.siblingSums e.merkleRoot
            = .ok (true, total)) ∧
        proof.voucherAmount.toNat < e.amount.toNat ∧
        ∃ settledAmount, checkedSub c.settledAmount e.amount = some settledAmount ∧
          payOut ctx e (w.setAccount ctx.channel (.channel { c with settledAmount })) = .ok w' := by
  simp only [resolveDispute, bind_eq_ok, require_eq_ok, orErr_eq_ok, exists_const, Prod.exists,
    loadEscrow_eq_ok, UInt64.lt_iff_toNat_lt]
  constructor
  · rintro ⟨c, e, ⟨hload, -⟩, hbuyer, hlen, matched, total, hverify, hmatched, hlt, hrest⟩
    rw [hmatched] at hverify
    exact ⟨c, e, hload, hbuyer, hlen, ⟨total, hverify⟩, hlt, hrest⟩
  · rintro ⟨c, e, hload, hbuyer, hlen, ⟨total, hverify⟩, hlt, hrest⟩
    exact ⟨c, e, ⟨hload, by simp⟩, hbuyer, hlen, true, total, hverify, rfl, hlt, hrest⟩

theorem resolveDispute_ok {ctx : EscrowAccess} {proof : FraudProof}
    (h : resolveDispute rt ctx proof w = .ok w') :
    ∃ c e settledAmount, Refunded w w' ctx c e settledAmount := by
  obtain ⟨c, e, hload, hbuyer, -, -, -, settledAmount, hsub, hpay⟩ := resolveDispute_eq_ok.mp h
  obtain ⟨hacc, hl, hnow⟩ := payOut_ok hpay
  exact ⟨c, e, settledAmount, hload, hbuyer, checkedSub_eq_some.mp hsub, hacc, hl, hnow⟩

theorem exec_effect {call : Call} (h : exec rt call w = .ok w') : Effect w call w' := by
  cases call with
  | initializeGlobal ctx =>
    obtain ⟨topUp, hfacts⟩ := initializeGlobal_ok h
    exact .initializeGlobal hfacts
  | initializeChannel ctx cap cp dp =>
    obtain ⟨g, total, topUp, hfacts⟩ := initializeChannel_ok h
    exact .initializeChannel hfacts
  | updateSpendingCap ctx cap =>
    obtain ⟨g, c, total, hglobal, hchannel, hfacts⟩ := updateSpendingCap_ok h
    exact .updateSpendingCap hglobal hchannel hfacts
  | deposit ctx amount =>
    obtain ⟨g, total, -, hfacts⟩ := deposit_ok h
    exact .deposit hfacts
  | settleBatch ixs ctx root amount bsig msig =>
    obtain ⟨c, settledAmount, nonce, topUp, l, hfacts⟩ := settleBatch_ok h
    exact .settle rfl hfacts
  | optimisticSettle ixs ctx root amount msig =>
    obtain ⟨c, settledAmount, nonce, topUp, l, hfacts⟩ := optimisticSettle_ok h
    exact .settle rfl hfacts
  | releaseSettlement ctx =>
    obtain ⟨c, e, hfacts⟩ := releaseSettlement_ok h
    exact .release rfl hfacts
  | dispute ctx =>
    obtain ⟨c, e, hfacts⟩ := dispute_ok h
    exact .dispute hfacts
  | forceRelease ctx =>
    obtain ⟨c, e, hfacts⟩ := forceRelease_ok h
    exact .release rfl hfacts
  | resolveDispute ctx proof =>
    obtain ⟨c, e, settledAmount, hfacts⟩ := resolveDispute_ok h
    exact .resolveDispute hfacts
  | withdraw ctx amount =>
    obtain ⟨g, total, -, hfacts⟩ := withdraw_ok h
    exact .withdraw hfacts
  | transfer src dst amount =>
    simp only [exec, transfer, bind_eq_ok, require_eq_ok, orErr_eq_ok, exists_const] at h
    obtain ⟨hsigner, hmove⟩ := h
    obtain ⟨hacc, hnow, hl⟩ := World.of_moveLamports hmove
    exact .transfer hsigner hacc hl hnow
  | tick now =>
    simp only [exec, tick, bind_eq_ok, require_eq_ok, exists_const, pure, Except.pure,
      Except.ok.injEq] at h
    obtain ⟨hle, rfl⟩ := h
    exact .tick (Int64.le_iff_toInt_le.mp hle)

/-- The effect of a release, from the call's side. -/
theorem exists_released {call : Call} (he : Effect w call w') {ctx : EscrowAccess}
    {disputed : Bool} {period : Channel → Int64}
    (hcall : call.release = some (ctx, disputed, period)) :
    ∃ c e, Released w w' ctx disputed period c e := by
  cases he with
  | release hcall' hf =>
    rw [hcall', Option.some_inj] at hcall
    cases hcall
    exact ⟨_, _, hf⟩
  | @settle call _ _ _ _ _ _ _ _ _ _ hset _ =>
    cases call <;> simp_all [Call.settlement, Call.release]
  | _ => exact absurd hcall (by simp [Call.release])

end Inversion

end Mb
