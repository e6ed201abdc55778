/-
Whether the channel program's signature checks mean a signature.

An instruction reads the signatures it requires from the bytes of an account
the caller chose.  Its success means that these bytes hold a record for every
required key and message, and nothing about the transaction.  So for given
bytes and a given transaction, every success is authentic exactly when the
transaction signs whatever the bytes hold.

* `exec_checks` — a successful call finds its records;
* `authentic_iff` — when success means that the keys signed;
* `settled_unsigned` — a channel settled by a transaction that nobody signed.
-/
import IgnitePay.Program.Spec

namespace Program

open Bytes Machine Solana

/-! ### What a call requires -/

/-- A key and a message that a call looks for in the bytes of an account. -/
structure Check where
  data : List UInt8
  publicKey : Pubkey
  message : List UInt8

namespace Call

/-- The channel a call works on. -/
def channel : Call → Option Address
  | .openChannel ctx _ => some ctx.channel
  | .fundChannel ctx _ => some ctx.channel
  | .cooperativeSettle ctx _ _ _ => some ctx.channel
  | .triggerChallenge ctx _ _ => some ctx.channel
  | .submitCounterState ctx _ _ => some ctx.channel
  | .settleAfterTimeout ctx _ => some ctx.channel
  | .payout ctx _ => some ctx.channel
  | .finalizeSettlement ctx => some ctx.channel
  | .tokenTransfer .. => none
  | .tick _ => none

/-- The signatures a call on the channel `c` requires in a slot: of both parties
on a sequence and a root, or of the caller on the slot and a root. -/
def checks (c : ChannelAccount) (slot : UInt64) : Call → List Check
  | .cooperativeSettle ctx sequence root _ =>
    let msg := channelMessage c.channelId sequence root
    [⟨ctx.instructionSysvar, c.userPubkey, msg⟩, ⟨ctx.instructionSysvar, c.providerPubkey, msg⟩]
  | .submitCounterState ctx sequence root =>
    let msg := channelMessage c.channelId sequence root
    [⟨ctx.instructionSysvar, c.userPubkey, msg⟩, ⟨ctx.instructionSysvar, c.providerPubkey, msg⟩]
  | .triggerChallenge ctx submittedRoot _ =>
    [⟨ctx.instructionSysvar, ctx.challenger, channelMessage c.channelId slot submittedRoot⟩]
  | .payout ctx _ =>
    [⟨ctx.instructionSysvar, ctx.claimer, channelMessage c.channelId slot c.currentRoot⟩]
  | .finalizeSettlement ctx =>
    [⟨ctx.instructionSysvar, ctx.caller, channelMessage c.channelId slot c.currentRoot⟩]
  | _ => []

end Call

section

variable {sha : List UInt8 → Bytes 32} {w w' : World} {c : ChannelAccount}

theorem payout_ok {ctx : PayoutAccounts} {p : Payout} (h : payout sha ctx p w = .ok w') :
    ∃ leafIndex leafHash proof c, Claimable sha w ctx leafIndex leafHash proof c := by
  cases p with
  | claim a =>
    obtain ⟨c, hc, -⟩ := claim_ok h
    exact ⟨_, _, _, c, hc⟩
  | verifyHtlc a =>
    obtain ⟨c, hc, -⟩ := verifyHtlc_ok h
    exact ⟨_, _, _, c, hc⟩
  | htlcRefund a =>
    obtain ⟨c, hc, -⟩ := htlcRefund_ok h
    exact ⟨_, _, _, c, hc⟩

/-- A call that goes through has found a record for everything it requires. -/
theorem exec_checks {call : Call} (hc : call.channel.bind w.channelAt = some c)
    (h : exec sha call w = .ok w') :
    ∀ r ∈ call.checks c w.slot, Record r.data r.publicKey.val r.message := by
  -- The channel that a handler loads is the one that `checks` is asked about.
  have same : ∀ {a : Address} {c' : ChannelAccount}, call.channel = some a →
      w.channelAt a = some c' → c' = c := by
    intro a c' ha hc'
    rw [ha, Option.bind_some, hc', Option.some_inj] at hc
    exact hc
  cases call with
  | cooperativeSettle ctx sequence root window =>
    obtain ⟨c', ha⟩ := cooperativeSettle_ok h
    obtain rfl := same rfl ha.channel_eq
    exact List.forall_mem_cons.mpr ⟨ha.user, List.forall_mem_singleton.mpr ha.provider⟩
  | submitCounterState ctx sequence root =>
    obtain ⟨c', ha⟩ := submitCounterState_ok h
    obtain rfl := same rfl ha.channel_eq
    exact List.forall_mem_cons.mpr ⟨ha.user, List.forall_mem_singleton.mpr ha.provider⟩
  | triggerChallenge ctx root sequence =>
    obtain ⟨c', ht, -⟩ := triggerChallenge_eq_ok.mp h
    obtain rfl := same rfl ht.channel_eq
    exact List.forall_mem_singleton.mpr ht.record
  | payout ctx p =>
    obtain ⟨_, _, _, c', hp⟩ := payout_ok h
    obtain rfl := same rfl hp.channel_eq
    exact List.forall_mem_singleton.mpr hp.record
  | finalizeSettlement ctx =>
    obtain ⟨c', hf⟩ := finalizeSettlement_ok h
    obtain rfl := same rfl hf.channel_eq
    exact List.forall_mem_singleton.mpr hf.record
  | openChannel ctx a => exact fun r hr => absurd hr (by simp [Call.checks])
  | fundChannel ctx depositB => exact fun r hr => absurd hr (by simp [Call.checks])
  | settleAfterTimeout ctx window => exact fun r hr => absurd hr (by simp [Call.checks])
  | tokenTransfer src dst authority amount => exact fun r hr => absurd hr (by simp [Call.checks])
  | tick slot => exact fun r hr => absurd hr (by simp [Call.checks])

/-! ### Messages -/

theorem length_channelMessage (channelId : Bytes 32) (number : UInt64) (root : Bytes 32) :
    (channelMessage channelId number root).length = 72 := by
  simp [channelMessage]

/-- Every 72 bytes are the message of some channel, number and root. -/
theorem exists_channelMessage {msg : List UInt8} (h : msg.length = 72) :
    ∃ channelId number root, msg = channelMessage channelId number root := by
  have hn : (slice msg 32 8).length = 8 := length_slice (by omega)
  refine ⟨⟨msg.take 32, by rw [List.length_take]; omega⟩, u64OfLe (slice msg 32 8),
    ⟨msg.drop 40, by rw [List.length_drop]; omega⟩, ?_⟩
  rw [channelMessage, u64Le_u64OfLe hn, slice]
  have hrest : (msg.drop 32).take 8 ++ msg.drop 40 = msg.drop 32 := by
    rw [show msg.drop 40 = (msg.drop 32).drop 8 by rw [List.drop_drop]]
    exact List.take_append_drop 8 _
  rw [hrest]
  exact (List.take_append_drop 32 msg).symm

theorem Record.length_publicKey {data pk msg : List UInt8} (h : Record data pk msg) :
    pk.length = 32 := by
  obtain ⟨-, -, -, ixData, -, hentry⟩ := h
  rw [← hentry.publicKey_eq]
  exact length_slice hentry.publicKey_le

theorem length_of_mem_checks {call : Call} {slot : UInt64} {r : Check}
    (hr : r ∈ call.checks c slot) : r.message.length = 72 := by
  cases call <;> simp only [Call.checks, List.mem_cons, List.not_mem_nil, or_false] at hr
  case cooperativeSettle => rcases hr with rfl | rfl <;> exact length_channelMessage _ _ _
  case submitCounterState => rcases hr with rfl | rfl <;> exact length_channelMessage _ _ _
  case triggerChallenge => exact hr ▸ length_channelMessage _ _ _
  case payout => exact hr ▸ length_channelMessage _ _ _
  case finalizeSettlement => exact hr ▸ length_channelMessage _ _ _

/-- A freshly opened channel between a party and a nobody. -/
def channelOf (channelId : Bytes 32) (party : Pubkey) : ChannelAccount where
  channelId := channelId
  userPubkey := party
  providerPubkey := defaultPubkey
  tokenMint := defaultPubkey
  status := .opened
  sequence := 0
  currentRoot := fill 32 0
  totalDeposited := 1
  openSlot := 0
  challengeSlot := none
  vaultA := .key defaultPubkey
  vaultB := .key defaultPubkey
  depositA := 1
  depositB := 0
  challengeDuration := 0
  minChallengeDelay := 0
  totalClaimed := 0
  settleDeadline := none
  treeDepth := 0
  leafCount := 1
  claimedLeaves := []
  autoCloseSlot := none

/-- Whatever the bytes hold for a key and 72 bytes, the key can challenge some
channel with it. -/
theorem exists_triggerChallenge {data : List UInt8} {pk : Pubkey} {channelId root : Bytes 32}
    {slot : UInt64} (h : Record data pk.val (channelMessage channelId slot root)) :
    ∃ w w', w.slot = slot ∧ w.channelAt (.channel channelId) = some (channelOf channelId pk) ∧
      triggerChallenge ⟨.channel channelId, pk, data⟩ root 1 w = .ok w' := by
  let entry : ChannelEntry := ⟨ChannelAccount.space 0, channelOf channelId pk⟩
  let w : World := ⟨(∅ : Store.Map Address ChannelEntry).insert (.channel channelId) entry, ∅, slot⟩
  have hlookup : w.channels.lookup (.channel channelId) = some entry := AList.lookup_insert _
  have hat : w.channelAt (.channel channelId) = some (channelOf channelId pk) :=
    World.channelAt_eq_some.mpr ⟨_, hlookup⟩
  have htriggered : Triggered w ⟨.channel channelId, pk, data⟩ root 1 (channelOf channelId pk) :=
    ⟨hat, rfl, .inl rfl, Nat.zero_le _, UInt64.lt_iff_toNat_lt.mpr Nat.one_pos, h⟩
  have hsize : ChannelAccount.sizeWith 9 1 1 0 ≤ ChannelAccount.space 0 := by decide
  exact ⟨w, _, rfl, hat, triggerChallenge_eq_ok.mpr
    ⟨_, htriggered, saveChannel_eq_ok.mpr ⟨entry, hlookup, hsize, rfl⟩⟩⟩

/-! ### Authenticity -/

/-- Whatever the precompile takes for a valid signature: if it accepted the
transaction, every call that goes through on the bytes `data` is covered, key
by key and message by message, by its Ed25519 instructions. -/
def Authentic (sha : List UInt8 → Bytes 32) (tx : List Instruction) (data : List UInt8) : Prop :=
  ∀ valid, Verified valid tx → ∀ (w w' : World) (call : Call) (c : ChannelAccount),
    call.channel.bind w.channelAt = some c → exec sha call w = .ok w' →
      ∀ r ∈ call.checks c w.slot, r.data = data →
        ∃ sig, Signs tx ⟨r.publicKey.val, r.message, sig⟩ ∧ valid ⟨r.publicKey.val, r.message, sig⟩

/-- Success is authentic exactly when the transaction signs every record that
the bytes of the unchecked account hold. -/
theorem authentic_iff {tx : List Instruction} {data : List UInt8}
    (hverified : ∃ valid, Verified valid tx) :
    Authentic sha tx data ↔
      ∀ pk msg, msg.length = 72 → Record data pk msg → ∃ sig, Signs tx ⟨pk, msg, sig⟩ := by
  constructor
  · intro hauth pk msg hlen hrecord
    obtain ⟨valid, hv⟩ := hverified
    obtain ⟨channelId, slot, root, rfl⟩ := exists_channelMessage hlen
    let party : Pubkey := ⟨pk, hrecord.length_publicKey⟩
    obtain ⟨w, w', hslot, hat, hok⟩ :=
      @exists_triggerChallenge data party channelId root slot hrecord
    let call : Call := .triggerChallenge ⟨.channel channelId, party, data⟩ root 1
    obtain ⟨sig, hsig, -⟩ := hauth valid hv w w' call _ hat hok _ List.mem_cons_self rfl
    exact ⟨sig, hslot ▸ hsig⟩
  · intro hsigned valid hv w w' call c hc hok r hr hdata
    have hrecord := exec_checks hc hok r hr
    obtain ⟨sig, hsig⟩ := hsigned _ _ (length_of_mem_checks hr) (hdata ▸ hrecord)
    exact ⟨sig, hsig, hv.valid_of_signs hsig⟩

end

/-! ### A channel that nobody settled -/

namespace Unsigned

def user : Pubkey := fill 32 9
def provider : Pubkey := fill 32 12
def root : Bytes 32 := fill 32 7

/-- The channel as `open_channel` writes it. -/
def channel : ChannelAccount :=
  { channelOf (fill 32 1) user with
    providerPubkey := provider
    currentRoot := root
    totalDeposited := 1000
    depositA := 1000 }

def world : World where
  channels := (∅ : Store.Map Address ChannelEntry).insert (.channel (fill 32 1))
    ⟨ChannelAccount.space 0, channel⟩
  tokens := ∅
  slot := 50

/-- The data of an account that a stranger wrote: both parties' keys over
sequence 3 and the root. -/
def data : List UInt8 :=
  sysvarBytes [(user, channelMessage (fill 32 1) 3 root),
    (provider, channelMessage (fill 32 1) 3 root)]

def programId : Pubkey :=
  ⟨[182, 178, 192, 151, 43, 132, 71, 81, 202, 187, 0, 102, 36, 34, 193, 108,
    247, 203, 38, 66, 66, 101, 187, 132, 5, 66, 209, 212, 188, 201, 14, 67], rfl⟩

/-- The stranger's transaction calls the program and nothing else; what the
instruction carries plays no part in what the transaction signs. -/
def transaction : List Instruction := [⟨programId, [], []⟩]

def call : Call := .cooperativeSettle ⟨.channel (fill 32 1), data⟩ 3 root 100

theorem verified : Verified (fun _ => False) transaction := by
  intro ix hix hid
  rw [List.mem_singleton.mp hix] at hid
  exact absurd hid (by decide)

theorem settled : ∃ w', exec Sha256.sha256 call world = .ok w' :=
  exists_of_isOk (by decide +kernel)

end Unsigned

/-- A cooperative settlement goes through in a transaction without a single
signature check. -/
theorem settled_unsigned :
    ¬ ∀ (sha : List UInt8 → Bytes 32) (tx : List Instruction) (data : List UInt8),
      (∃ valid, Verified valid tx) → Authentic sha tx data := by
  intro hauth
  obtain ⟨w', hok⟩ := Unsigned.settled
  obtain ⟨-, -, hvalid⟩ := hauth Sha256.sha256 Unsigned.transaction Unsigned.data
    ⟨_, Unsigned.verified⟩ _ Unsigned.verified Unsigned.world w' Unsigned.call Unsigned.channel rfl
    hok _ List.mem_cons_self rfl
  exact hvalid

/-- The criterion at that transaction. -/
theorem authentic_iff_unsigned :
    Authentic Sha256.sha256 Unsigned.transaction Unsigned.data ↔
      ∀ pk msg, msg.length = 72 → Record Unsigned.data pk msg →
        ∃ sig, Signs Unsigned.transaction ⟨pk, msg, sig⟩ :=
  authentic_iff ⟨_, Unsigned.verified⟩

end Program
