/-
Where the accounts of the MagicBlock program stand, and what they keep.

No account is ever removed.  A global state, a channel and an escrow keep the
fields that identify them, a channel's nonce only grows, and an escrow's two
flags are only ever set (`Keeps`).  Every account stands at the address its
fields derive, next to the accounts it belongs to (`Placed`).

* `wellPlaced_of_effect` — what one call preserves;
* `creates_of_effect` — which calls create an account, and which one;
* `wellPlaced_of_run` — so every state reached from a ledger without program
  accounts is well placed;
* `run_invariant`, `run_invariant_of` — what calls preserve in such a state
  holds after every run.
-/
import IgnitePay.Lib.Run
import IgnitePay.Mb.Spec

namespace Mb

open Bytes Machine

abbrev Accounts := Store.Map Address AccountData

/-! ### Keeping an account -/

/-- `d'` is the same account as `d`, later. -/
inductive KeepsData : AccountData → AccountData → Prop
  | globalState {g g' : GlobalState} (buyer : g'.buyer = g.buyer)
      (tokenMint : g'.tokenMint = g.tokenMint) : KeepsData (.globalState g) (.globalState g')
  | channel {c c' : Channel} (buyer : c'.buyer = c.buyer) (merchant : c'.merchant = c.merchant)
      (tokenMint : c'.tokenMint = c.tokenMint)
      (challengePeriod : c'.challengePeriod = c.challengePeriod)
      (disputePeriod : c'.disputePeriod = c.disputePeriod)
      (nonce : c.nonce.toNat ≤ c'.nonce.toNat) : KeepsData (.channel c) (.channel c')
  | settlementEscrow {e e' : SettlementEscrow}
      (same : e' = { e with claimed := e'.claimed, disputed := e'.disputed })
      (claimed : e.claimed = true → e'.claimed = true)
      (disputed : e.disputed = true → e'.disputed = true) :
      KeepsData (.settlementEscrow e) (.settlementEscrow e')

theorem KeepsData.refl : ∀ d, KeepsData d d
  | .globalState _ => .globalState rfl rfl
  | .channel _ => .channel rfl rfl rfl rfl rfl le_rfl
  | .settlementEscrow _ => .settlementEscrow rfl id id

theorem KeepsData.trans {d₁ d₂ d₃ : AccountData} (h : KeepsData d₁ d₂) (h' : KeepsData d₂ d₃) :
    KeepsData d₁ d₃ := by
  cases h with
  | globalState hb hm =>
    cases h' with
    | globalState hb' hm' => exact .globalState (hb'.trans hb) (hm'.trans hm)
  | channel hb hr hm hcp hdp hn =>
    cases h' with
    | channel hb' hr' hm' hcp' hdp' hn' =>
      exact .channel (hb'.trans hb) (hr'.trans hr) (hm'.trans hm) (hcp'.trans hcp)
        (hdp'.trans hdp) (hn.trans hn')
  | settlementEscrow hs hc hd =>
    cases h' with
    | settlementEscrow hs' hc' hd' =>
      refine .settlementEscrow ?_ (hc' ∘ hc) (hd' ∘ hd)
      rw [hs', hs]

/-! The writes of the instructions. -/

theorem KeepsData.allocate (g : GlobalState) (total : UInt64) :
    KeepsData (.globalState g) (.globalState { g with totalAllocated := total }) :=
  .globalState rfl rfl

theorem KeepsData.deposit (g : GlobalState) (total : UInt64) :
    KeepsData (.globalState g) (.globalState { g with totalDeposited := total }) :=
  .globalState rfl rfl

theorem KeepsData.cap (c : Channel) (spendingCap : UInt64) :
    KeepsData (.channel c) (.channel { c with spendingCap }) :=
  .channel rfl rfl rfl rfl rfl le_rfl

theorem KeepsData.settle (c : Channel) (settledAmount : UInt64) {nonce : UInt64}
    (h : nonce.toNat = c.nonce.toNat + 1) :
    KeepsData (.channel c) (.channel { c with settledAmount, nonce }) :=
  .channel rfl rfl rfl rfl rfl (h ▸ Nat.le_succ _)

theorem KeepsData.rollBack (c : Channel) (settledAmount : UInt64) :
    KeepsData (.channel c) (.channel { c with settledAmount }) :=
  .channel rfl rfl rfl rfl rfl le_rfl

theorem KeepsData.claim (e : SettlementEscrow) :
    KeepsData (.settlementEscrow e) (.settlementEscrow { e with claimed := true }) :=
  .settlementEscrow rfl (fun _ => rfl) id

theorem KeepsData.dispute (e : SettlementEscrow) :
    KeepsData (.settlementEscrow e) (.settlementEscrow { e with disputed := true }) :=
  .settlementEscrow rfl id fun _ => rfl

/-- Every account of `s` is still in `s'`. -/
def Keeps (s s' : Accounts) : Prop :=
  ∀ a d, s.lookup a = some d → ∃ d', s'.lookup a = some d' ∧ KeepsData d d'

theorem Keeps.refl (s : Accounts) : Keeps s s := fun _ d h => ⟨d, h, .refl d⟩

theorem Keeps.trans {s₁ s₂ s₃ : Accounts} (h : Keeps s₁ s₂) (h' : Keeps s₂ s₃) : Keeps s₁ s₃ := by
  intro a d hd
  obtain ⟨d₂, hd₂, hk⟩ := h a d hd
  obtain ⟨d₃, hd₃, hk'⟩ := h' a d₂ hd₂
  exact ⟨d₃, hd₃, hk.trans hk'⟩

/-- Writing an account keeps them all, if the account there is kept. -/
theorem Keeps.insert {s : Accounts} {a : Address} {d : AccountData}
    (h : ∀ d₀, s.lookup a = some d₀ → KeepsData d₀ d) : Keeps s (s.insert a d) := by
  intro a' d' hd'
  rw [Store.lookup_insert_eq]
  split
  · next ha =>
    subst ha
    exact ⟨d, rfl, h d' hd'⟩
  · exact ⟨d', hd', .refl d'⟩

/-- Creating an account keeps all others. -/
theorem Keeps.insert_fresh {s : Accounts} {a : Address} (d : AccountData)
    (h : s.lookup a = none) : Keeps s (s.insert a d) :=
  .insert fun d₀ hd₀ => absurd (hd₀.symm.trans h) (by simp)

theorem Keeps.insert_kept {s : Accounts} {a : Address} {d₀ d : AccountData}
    (h : s.lookup a = some d₀) (hk : KeepsData d₀ d) : Keeps s (s.insert a d) :=
  .insert fun _ hd₁ => Option.some_inj.mp (h.symm.trans hd₁) ▸ hk

theorem Keeps.channel {s s' : Accounts} (h : Keeps s s') {a : Address} {c : Channel}
    (hc : s.lookup a = some (.channel c)) :
    ∃ c', s'.lookup a = some (.channel c') ∧ KeepsData (.channel c) (.channel c') := by
  obtain ⟨d', hd', hk⟩ := h a _ hc
  cases hk with
  | channel hb hr hm hcp hdp hn => exact ⟨_, hd', .channel hb hr hm hcp hdp hn⟩

theorem Keeps.escrow {s s' : Accounts} (h : Keeps s s') {a : Address} {e : SettlementEscrow}
    (he : s.lookup a = some (.settlementEscrow e)) :
    ∃ e', s'.lookup a = some (.settlementEscrow e') ∧
      KeepsData (.settlementEscrow e) (.settlementEscrow e') := by
  obtain ⟨d', hd', hk⟩ := h a _ he
  cases hk with
  | settlementEscrow hs hc hd => exact ⟨_, hd', .settlementEscrow hs hc hd⟩

/-! ### Standing where it belongs -/

/-- What an escrow shares with its channel. -/
structure EscrowOf (c : Channel) (e : SettlementEscrow) : Prop where
  merchant : e.merchant = c.merchant
  tokenMint : e.tokenMint = c.tokenMint
  nonce : e.nonce.toNat < c.nonce.toNat
  signer : c.merchant.isKey
  challengePeriod : e.optimistic = true → 0 < c.challengePeriod.toInt

/-- `d` belongs at the address `a` of a ledger with the accounts `s`. -/
def Placed (s : Accounts) (a : Address) : AccountData → Prop
  | .globalState g => a = .globalState g.buyer g.tokenMint ∧ g.buyer.isKey
  | .channel c => a = .channel c.buyer c.merchant c.tokenMint ∧ c.buyer.isKey ∧
      ∃ g, s.lookup (.globalState c.buyer c.tokenMint) = some (.globalState g)
  | .settlementEscrow e => a = .settlement e.channel e.nonce ∧
      ∃ c, s.lookup e.channel = some (.channel c) ∧ EscrowOf c e

def WellPlaced (s : Accounts) : Prop := ∀ a d, s.lookup a = some d → Placed s a d

theorem Placed.mono {s s' : Accounts} (hk : Keeps s s') {a : Address} {d : AccountData}
    (h : Placed s a d) : Placed s' a d := by
  cases d with
  | globalState g => exact h
  | channel c =>
    obtain ⟨ha, hkey, g, hg⟩ := h
    obtain ⟨d', hd', hkd⟩ := hk _ _ hg
    cases hkd with
    | globalState => exact ⟨ha, hkey, _, hd'⟩
  | settlementEscrow e =>
    obtain ⟨ha, c, hc, ho⟩ := h
    obtain ⟨c', hc', hkc⟩ := hk.channel hc
    cases hkc with
    | channel hb hr hm hcp hdp hn =>
      exact ⟨ha, c', hc', ho.merchant.trans hr.symm, ho.tokenMint.trans hm.symm,
        ho.nonce.trans_le hn, hr ▸ ho.signer, fun hopt => hcp ▸ ho.challengePeriod hopt⟩

theorem WellPlaced.insert {s : Accounts} {a : Address} {d : AccountData} (h : WellPlaced s)
    (hk : Keeps s (s.insert a d)) (hd : Placed (s.insert a d) a d) :
    WellPlaced (s.insert a d) := by
  intro a' d' hd'
  rw [Store.lookup_insert_eq] at hd'
  split at hd'
  · next ha =>
    subst ha
    exact Option.some_inj.mp hd' ▸ hd
  · exact (h a' d' hd').mono hk

theorem WellPlaced.channel {s : Accounts} (h : WellPlaced s) {a : Address} {c : Channel}
    (hc : s.lookup a = some (.channel c)) :
    a = .channel c.buyer c.merchant c.tokenMint ∧ c.buyer.isKey ∧
      ∃ g, s.lookup (.globalState c.buyer c.tokenMint) = some (.globalState g) :=
  h a _ hc

theorem WellPlaced.escrow {s : Accounts} (h : WellPlaced s) {a : Address} {e : SettlementEscrow}
    (he : s.lookup a = some (.settlementEscrow e)) :
    a = .settlement e.channel e.nonce ∧
      ∃ c, s.lookup e.channel = some (.channel c) ∧ EscrowOf c e :=
  h a _ he

/-! ### What one call preserves -/

section Step

variable {w w' : World} {call : Call}

theorem BuyerGlobal.lookup {g : GlobalState} (h : BuyerGlobal w g) :
    w.accounts.lookup (.globalState g.buyer g.tokenMint) = some (.globalState g) :=
  World.globalStateAt_eq_some.mp h.stored

theorem Settled.lookup {o : Bool} {ch : Address} {c : Channel} {r : Bytes 32}
    {t sa n u : UInt64} {l : Address → UInt64} (h : Settled w w' o ch c r t sa n u l) :
    w.accounts.lookup ch = some (.channel c) :=
  World.channelAt_eq_some.mp h.channel

theorem Loaded.lookup_channel {ctx : EscrowAccess} {d : Bool} {c : Channel}
    {e : SettlementEscrow} (h : Loaded w ctx d c e) :
    w.accounts.lookup ctx.channel = some (.channel c) :=
  World.channelAt_eq_some.mp h.channel

theorem Loaded.lookup_escrow {ctx : EscrowAccess} {d : Bool} {c : Channel}
    {e : SettlementEscrow} (h : Loaded w ctx d c e) :
    w.accounts.lookup ctx.settlementEscrow = some (.settlementEscrow e) :=
  World.escrowAt_eq_some.mp h.escrow

/-- In a well placed ledger the channel of an escrow instruction is the
escrow's own. -/
theorem Loaded.escrow_channel {ctx : EscrowAccess} {d : Bool} {c : Channel}
    {e : SettlementEscrow} (h : Loaded w ctx d c e) (hw : WellPlaced w.accounts) :
    e.channel = ctx.channel := by
  have ha := (hw.escrow h.lookup_escrow).1
  rw [h.place] at ha
  injection ha with hch
  exact hch.symm

/-- The escrow and the channel of an escrow instruction are two accounts. -/
theorem Loaded.channel_ne {ctx : EscrowAccess} {d : Bool} {c : Channel} {e : SettlementEscrow}
    (h : Loaded w ctx d c e) : ctx.settlementEscrow ≠ ctx.channel := by
  intro heq
  have hc := h.lookup_channel
  rw [← heq, h.lookup_escrow] at hc
  exact absurd hc (by simp)

/-! An instruction that writes two accounts finds the second one as the call
found it, whatever it has just written to the first. -/

theorem ChannelInitialized.lookup_second {g : GlobalState} {r : Address} {cap total u : UInt64}
    {cp dp : Int64} (h : ChannelInitialized w w' g r cap cp dp total u) (d : AccountData) :
    (w.accounts.insert (.globalState g.buyer g.tokenMint) d).lookup
      (.channel g.buyer r g.tokenMint) = none := by
  rw [Store.lookup_insert_eq, if_neg (by simp)]
  exact h.fresh

theorem CapUpdated.lookup_second {g : GlobalState} {c : Channel} {cap total : UInt64}
    (h : CapUpdated w w' g c cap total) (d : AccountData) :
    (w.accounts.insert (.globalState g.buyer g.tokenMint) d).lookup
      (.channel c.buyer c.merchant c.tokenMint) = some (.channel c) := by
  rw [Store.lookup_insert_eq, if_neg (by simp)]
  exact World.channelAt_eq_some.mp h.channel

/-- The escrow of a settlement is not its channel. -/
theorem Settled.channel_ne {o : Bool} {ch : Address} {c : Channel} {r : Bytes 32}
    {t sa n u : UInt64} {l : Address → UInt64} (h : Settled w w' o ch c r t sa n u l) :
    ch ≠ .settlement ch c.nonce := by
  rw [h.place]
  simp

theorem Settled.lookup_second {o : Bool} {ch : Address} {c : Channel} {r : Bytes 32}
    {t sa n u : UInt64} {l : Address → UInt64} (h : Settled w w' o ch c r t sa n u l)
    (d : AccountData) :
    (w.accounts.insert ch d).lookup (.settlement ch c.nonce) = none := by
  rw [Store.lookup_insert_eq, if_neg h.channel_ne.symm]
  exact h.fresh

theorem Loaded.lookup_second {ctx : EscrowAccess} {disputed : Bool} {c : Channel}
    {e : SettlementEscrow} (h : Loaded w ctx disputed c e) (d : AccountData) :
    (w.accounts.insert ctx.channel d).lookup ctx.settlementEscrow
      = some (.settlementEscrow e) := by
  rw [Store.lookup_insert_eq, if_neg h.channel_ne]
  exact h.lookup_escrow

/-- Storing a later version of an account that is there. -/
theorem WellPlaced.update {s : Accounts} {a : Address} {d₀ d : AccountData} (h : WellPlaced s)
    (hd₀ : s.lookup a = some d₀) (hk : KeepsData d₀ d) :
    Keeps s (s.insert a d) ∧ WellPlaced (s.insert a d) := by
  have hkeeps : Keeps s (s.insert a d) := .insert_kept hd₀ hk
  -- The others stay in place; the later version has the fields its address derives from.
  refine ⟨hkeeps, h.insert hkeeps ?_⟩
  have hp := (h a d₀ hd₀).mono hkeeps
  cases hk with
  | globalState hb hm =>
    obtain ⟨ha, hkey⟩ := hp
    rw [← hb, ← hm] at ha
    exact ⟨ha, hb ▸ hkey⟩
  | channel hb hr hm =>
    obtain ⟨ha, hkey, hg⟩ := hp
    rw [← hb, ← hr, ← hm] at ha
    rw [← hb, ← hm] at hg
    exact ⟨ha, hb ▸ hkey, hg⟩
  | settlementEscrow hs =>
    rw [hs]
    obtain ⟨ha, c, hc, ho⟩ := hp
    rw [hs] at hc ⊢
    exact ⟨ha, c, hc, ho.merchant, ho.tokenMint, ho.nonce, ho.signer, ho.challengePeriod⟩

/-- Storing a new account where it belongs. -/
theorem WellPlaced.create {s : Accounts} {a : Address} {d : AccountData} (h : WellPlaced s)
    (hfresh : s.lookup a = none) (hd : Placed (s.insert a d) a d) :
    Keeps s (s.insert a d) ∧ WellPlaced (s.insert a d) :=
  ⟨.insert_fresh d hfresh, h.insert (.insert_fresh d hfresh) hd⟩

/-- A call keeps every account, and every account in its place. -/
theorem wellPlaced_of_effect (hw : WellPlaced w.accounts) (h : Effect w call w') :
    Keeps w.accounts w'.accounts ∧ WellPlaced w'.accounts := by
  cases h with
  | initializeGlobal hf =>
    rw [hf.accounts]
    exact hw.create hf.fresh ⟨rfl, hf.signer⟩
  | @initializeChannel ctx w' g cap total topUp cp dp hf =>
    obtain ⟨hk₁, hw₁⟩ := hw.update hf.global.lookup (.allocate g total)
    -- The global state that the new channel belongs to is the one just written.
    have hglobal : ((w.accounts.insert (.globalState g.buyer g.tokenMint)
        (.globalState { g with totalAllocated := total })).insert
          (.channel g.buyer ctx.merchant g.tokenMint)
          (.channel ⟨g.buyer, ctx.merchant, g.tokenMint, cap, 0, 0, cp, dp⟩)).lookup
            (.globalState g.buyer g.tokenMint)
          = some (.globalState { g with totalAllocated := total }) := by
      rw [Store.lookup_insert_eq, if_neg (by simp), Store.lookup_insert_eq, if_pos rfl]
    obtain ⟨hk₂, hw₂⟩ := hw₁.create (d := .channel
      ⟨g.buyer, ctx.merchant, g.tokenMint, cap, 0, 0, cp, dp⟩) (hf.lookup_second _)
      ⟨rfl, hf.global.signer, _, hglobal⟩
    rw [hf.accounts]
    exact ⟨hk₁.trans hk₂, hw₂⟩
  | @updateSpendingCap ctx w' g c cap total hglobal hchannel hf =>
    obtain ⟨hk₁, hw₁⟩ := hw.update hf.global.lookup (.allocate g total)
    obtain ⟨hk₂, hw₂⟩ := hw₁.update (hf.lookup_second _) (.cap c cap)
    rw [hf.accounts]
    exact ⟨hk₁.trans hk₂, hw₂⟩
  | deposit hf =>
    rw [hf.accounts]
    exact hw.update hf.global.lookup (.deposit _ _)
  | withdraw hf =>
    rw [hf.accounts]
    exact hw.update hf.global.lookup (.deposit _ _)
  | @settle _ ctx w' c root optimistic total settled nonce topUp l _ hf =>
    have hnonce := hf.nonce_eq
    obtain ⟨hk₁, hw₁⟩ := hw.update hf.lookup (.settle c settled hnonce)
    -- The new escrow has the nonce that the channel has just moved past.
    have hplaced : Placed ((w.accounts.insert ctx.channel
        (.channel { c with settledAmount := settled, nonce := nonce })).insert
          (.settlement ctx.channel c.nonce)
          (.settlementEscrow (newEscrow w ctx.channel c root total optimistic)))
        (.settlement ctx.channel c.nonce)
        (.settlementEscrow (newEscrow w ctx.channel c root total optimistic)) := by
      refine ⟨rfl, { c with settledAmount := settled, nonce := nonce }, ?_, rfl, rfl, ?_,
        hf.signer, hf.challengePeriod⟩
      · show AList.lookup ctx.channel _ = _
        rw [Store.lookup_insert_eq, if_neg hf.channel_ne, Store.lookup_insert_eq, if_pos rfl]
      · show c.nonce.toNat < nonce.toNat
        omega
    obtain ⟨hk₂, hw₂⟩ := hw₁.create (hf.lookup_second _) hplaced
    rw [hf.accounts]
    exact ⟨hk₁.trans hk₂, hw₂⟩
  | release _ hf =>
    rw [hf.accounts]
    exact hw.update hf.loaded.lookup_escrow (.claim _)
  | dispute hf =>
    rw [hf.accounts]
    exact hw.update hf.loaded.lookup_escrow (.dispute _)
  | @resolveDispute ctx w' c e proof settled hf =>
    obtain ⟨hk₁, hw₁⟩ := hw.update hf.loaded.lookup_channel (.rollBack c settled)
    obtain ⟨hk₂, hw₂⟩ := hw₁.update (hf.loaded.lookup_second _) (.claim e)
    rw [hf.accounts]
    exact ⟨hk₁.trans hk₂, hw₂⟩
  | transfer _ hacc _ _ =>
    rw [hacc]
    exact ⟨.refl _, hw⟩
  | tick _ => exact ⟨.refl _, hw⟩

/-- The account at `a` that a call creates. -/
inductive Creates (w w' : World) : Call → Address → AccountData → Prop
  | globalState {ctx : InitializeGlobal} : Creates w w' (.initializeGlobal ctx)
      (.globalState ctx.buyer ctx.tokenMint) (.globalState ⟨ctx.buyer, ctx.tokenMint, 0, 0⟩)
  | channel {ctx : InitializeChannel} {g : GlobalState} {cap : UInt64} {cp dp : Int64} :
      Creates w w' (.initializeChannel ctx cap cp dp) (.channel g.buyer ctx.merchant g.tokenMint)
        (.channel ⟨g.buyer, ctx.merchant, g.tokenMint, cap, 0, 0, cp, dp⟩)
  | settlementEscrow {call : Call} {o : Bool} {ctx : BatchSettle} {r : Bytes 32} {c : Channel}
      {t sa n u : UInt64} {l : Address → UInt64} (hcall : call.settlement = some (o, ctx, r, t))
      (hf : Settled w w' o ctx.channel c r t sa n u l) :
      Creates w w' call (.settlement ctx.channel c.nonce)
        (.settlementEscrow (newEscrow w ctx.channel c r t o))

/-- An account that a call finds missing and leaves behind, it created. -/
theorem creates_of_effect (h : Effect w call w') {a : Address} {d : AccountData}
    (hfresh : w.accounts.lookup a = none) (ha : w'.accounts.lookup a = some d) :
    Creates w w' call a d := by
  have hnone : w.accounts.lookup a ≠ some d := by simp [hfresh]
  -- A write to an account that the call loaded is not at `a`.
  have hold : ∀ {s : Accounts} {a' : Address} {d₀ d' : AccountData},
      w.accounts.lookup a' = some d₀ → (s.insert a' d').lookup a = some d → s.lookup a = some d := by
    intro s a' d₀ d' hd₀ hins
    rwa [Store.lookup_insert_eq, if_neg (Store.ne_of_lookup hfresh hd₀)] at hins
  cases h with
  | initializeGlobal hf =>
    rw [hf.accounts, Store.lookup_insert_eq] at ha
    split at ha
    · next heq =>
      cases ha
      exact heq ▸ .globalState
    · exact absurd ha hnone
  | @initializeChannel ctx w' g cap total topUp cp dp hf =>
    rw [hf.accounts, Store.lookup_insert_eq] at ha
    split at ha
    · next heq =>
      cases ha
      exact heq ▸ .channel
    · exact absurd (hold hf.global.lookup ha) hnone
  | updateSpendingCap _ _ hf =>
    rw [hf.accounts] at ha
    have ha := hold (World.channelAt_eq_some.mp hf.channel) ha
    exact absurd (hold hf.global.lookup ha) hnone
  | deposit hf =>
    rw [hf.accounts] at ha
    exact absurd (hold hf.global.lookup ha) hnone
  | withdraw hf =>
    rw [hf.accounts] at ha
    exact absurd (hold hf.global.lookup ha) hnone
  | settle hcall hf =>
    rw [hf.accounts, Store.lookup_insert_eq] at ha
    split at ha
    · next heq =>
      cases ha
      exact heq ▸ .settlementEscrow hcall hf
    · exact absurd (hold hf.lookup ha) hnone
  | release _ hf =>
    rw [hf.accounts] at ha
    exact absurd (hold hf.loaded.lookup_escrow ha) hnone
  | dispute hf =>
    rw [hf.accounts] at ha
    exact absurd (hold hf.loaded.lookup_escrow ha) hnone
  | resolveDispute hf =>
    rw [hf.accounts] at ha
    have ha := hold hf.loaded.lookup_escrow ha
    exact absurd (hold hf.loaded.lookup_channel ha) hnone
  | transfer _ hacc _ _ =>
    rw [hacc] at ha
    exact absurd ha hnone
  | tick _ => exact absurd ha hnone

end Step

/-! ### Runs -/

/-- A ledger before the program's first call: no program account, and no more
lamports than a `u64` counts. -/
structure Genesis (w : World) : Prop where
  empty : w.accounts = ∅
  supply : ∀ S : Finset Address, ∑ a ∈ S, (w.lamports a).toNat < 2 ^ 64

variable {rt : Runtime} {w₀ w : World} {h : List (World × Call)}

theorem Genesis.wellPlaced (h : Genesis w) : WellPlaced w.accounts := by
  intro a d hd
  rw [h.empty, AList.lookup_empty] at hd
  exact absurd hd (by simp)

theorem wellPlaced_of_run (hw₀ : Genesis w₀) (hrun : Run (exec rt) w₀ h w) :
    WellPlaced w.accounts :=
  hrun.invariant (P := fun w => WellPlaced w.accounts) hw₀.wellPlaced fun _ _ _ hs he =>
    (wellPlaced_of_effect hs (exec_effect he)).2

/-- What every allowed call preserves in a well placed ledger holds after every
run of allowed calls. -/
theorem run_invariant_of {P : World → Prop} (allowed : World → Call → Prop) (hw₀ : Genesis w₀)
    (hstart : P w₀) (hstep : ∀ w call w', WellPlaced w.accounts → allowed w call →
      Effect w call w' → P w → P w')
    (hrun : Run (exec rt) w₀ h w) (hall : ∀ p ∈ h, allowed p.1 p.2) : P w := by
  have hinv : WellPlaced w.accounts ∧ P w := by
    refine hrun.invariant_of (P := fun w => WellPlaced w.accounts ∧ P w) allowed
      ⟨hw₀.wellPlaced, hstart⟩ ?_ hall
    intro s i s' ⟨hw, hp⟩ hi he
    exact ⟨(wellPlaced_of_effect hw (exec_effect he)).2, hstep s i s' hw hi (exec_effect he) hp⟩
  exact hinv.2

theorem run_invariant {P : World → Prop} (hw₀ : Genesis w₀) (hstart : P w₀)
    (hstep : ∀ w call w', WellPlaced w.accounts → Effect w call w' → P w → P w')
    (hrun : Run (exec rt) w₀ h w) : P w :=
  run_invariant_of (fun _ _ => True) hw₀ hstart (fun w c w' hw _ he => hstep w c w' hw he) hrun
    fun _ _ => trivial

end Mb
