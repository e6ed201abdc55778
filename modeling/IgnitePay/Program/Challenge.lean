/-
Which root a channel of the program ends on.

A root is agreed by both parties with a sequence number, except in
`trigger_challenge`, where one party signs a root with the current slot and
names a sequence number that nobody signs.  `submit_counter_state` then asks
for a sequence number above that one.  Here a passed signature check is taken
for a signature (`Genuine`).

* `settled_root` — where the root of a settling channel comes from;
* `answers_iff` — when the latest agreed state answers a challenge;
* `never_settles_newer` — no newer state can be settled by agreement.
-/
import IgnitePay.Program.Effect

namespace Program

open Bytes Machine Solana

/-! ### Signatures -/

/-- Every signature a call is checked for was made. -/
def Genuine (signed : Pubkey → List UInt8 → Prop) (w : World) (call : Call) : Prop :=
  ∀ c, call.channel.bind w.channelAt = some c →
    ∀ r ∈ call.checks c w.slot, signed r.publicKey r.message

/-- Both parties of the channel signed a root with a number. -/
structure SignedBoth (signed : Pubkey → List UInt8 → Prop) (c : ChannelAccount)
    (sequence : UInt64) (root : Bytes 32) : Prop where
  user : signed c.userPubkey (channelMessage c.channelId sequence root)
  provider : signed c.providerPubkey (channelMessage c.channelId sequence root)

/-- The channels have the same id and parties. -/
structure SameParties (c c' : ChannelAccount) : Prop where
  channelId : c'.channelId = c.channelId
  user : c'.userPubkey = c.userPubkey
  provider : c'.providerPubkey = c.providerPubkey

section

variable {sha : List UInt8 → Bytes 32} {signed : Pubkey → List UInt8 → Prop}
  {w w' : World} {c c' c'' : ChannelAccount} {sequence : UInt64} {root : Bytes 32}

theorem SameParties.refl (c : ChannelAccount) : SameParties c c := ⟨rfl, rfl, rfl⟩

theorem SameParties.trans (h : SameParties c c') (h' : SameParties c' c'') : SameParties c c'' :=
  ⟨h'.channelId.trans h.channelId, h'.user.trans h.user, h'.provider.trans h.provider⟩

theorem SignedBoth.of_same (h : SameParties c c') (hs : SignedBoth signed c sequence root) :
    SignedBoth signed c' sequence root := by
  obtain ⟨huser, hprovider⟩ := hs
  rw [← h.channelId] at huser hprovider
  rw [← h.user] at huser
  rw [← h.provider] at hprovider
  exact ⟨huser, hprovider⟩

theorem SameParties.symm (h : SameParties c c') : SameParties c' c :=
  ⟨h.channelId.symm, h.user.symm, h.provider.symm⟩

theorem Update.sameParties {call : Call} (hu : Update sha w w' c call c') : SameParties c c' := by
  cases hu <;> exact ⟨rfl, rfl, rfl⟩

theorem Genuine.agree {ctx : CooperativeSettle} {window : UInt64}
    (hg : Genuine signed w (.cooperativeSettle ctx sequence root window))
    (hc : w.channelAt ctx.channel = some c) : SignedBoth signed c sequence root := by
  have hall := hg c hc
  exact ⟨hall _ List.mem_cons_self, hall _ (List.mem_cons_of_mem _ List.mem_cons_self)⟩

theorem Genuine.counter {ctx : SubmitCounterState}
    (hg : Genuine signed w (.submitCounterState ctx sequence root))
    (hc : w.channelAt ctx.channel = some c) : SignedBoth signed c sequence root := by
  have hall := hg c hc
  exact ⟨hall _ List.mem_cons_self, hall _ (List.mem_cons_of_mem _ List.mem_cons_self)⟩

theorem Genuine.trigger {ctx : TriggerChallenge}
    (hg : Genuine signed w (.triggerChallenge ctx root sequence))
    (hc : w.channelAt ctx.channel = some c) :
    signed ctx.challenger (channelMessage c.channelId w.slot root) :=
  hg c hc _ List.mem_cons_self

/-- The bytes say the channel, the number and the root, but not what they are for. -/
theorem channelMessage_eq_iff {channelId channelId' root root' : Bytes 32} {n n' : UInt64} :
    channelMessage channelId n root = channelMessage channelId' n' root' ↔
      (channelId, n, root) = (channelId', n', root') := by
  constructor
  · intro h
    obtain ⟨hid, hrest⟩ := List.append_inj h (by simp)
    obtain ⟨hn, hroot⟩ := List.append_inj hrest (by simp)
    rw [Subtype.ext hid, u64Le_inj hn, Subtype.ext hroot]
  · intro h
    obtain ⟨rfl, rfl, rfl⟩ : channelId = channelId' ∧ n = n' ∧ root = root' := by simpa using h
    rfl

end

/-! ### The root of a settling channel -/

/-- The root is one that both parties signed, with some sequence number. -/
def AgreedRoot (signed : Pubkey → List UInt8 → Prop) (c : ChannelAccount) : Prop :=
  ∃ sequence, SignedBoth signed c sequence c.currentRoot

/-- The root is one that a party signed, with the slot of the challenge. -/
def ChallengedRoot (signed : Pubkey → List UInt8 → Prop) (c : ChannelAccount) (cs : UInt64) :
    Prop :=
  c.challengeSlot = some cs ∧
    ∃ k, isParty c k ∧ signed k (channelMessage c.channelId cs c.currentRoot)

/-- The challenge of slot `cs` ran out. -/
def RanOut (c : ChannelAccount) (cs slot : UInt64) : Prop :=
  cs.toNat + c.challengeDuration.toNat < slot.toNat

/-- Where the root of a channel comes from, in any state: `initial` is the root
it was opened with. -/
def RootFrom (signed : Pubkey → List UInt8 → Prop) (initial : Bytes 32) (slot : UInt64)
    (c : ChannelAccount) : Prop :=
  c.currentRoot = initial ∨ AgreedRoot signed c ∨
    ∃ cs, ChallengedRoot signed c cs ∧ (c.status = .challenged ∨ RanOut c cs slot)

section

variable {sha : List UInt8 → Bytes 32} {signed : Pubkey → List UInt8 → Prop}
  {w₀ w₁ w w' : World} {c c' : ChannelAccount} {initial : Bytes 32}
  {h : List (World × Call)}

theorem RootFrom.later {s s' : UInt64} (hle : s ≤ s') (hr : RootFrom signed initial s c) :
    RootFrom signed initial s' c := by
  rcases hr with hinit | hagreed | ⟨cs, hch, hstatus | hout⟩
  · exact .inl hinit
  · exact .inr (.inl hagreed)
  · exact .inr (.inr ⟨cs, hch, .inl hstatus⟩)
  · exact .inr (.inr ⟨cs, hch, .inr (lt_of_lt_of_le hout (UInt64.le_iff_toNat_le.mp hle))⟩)

/-- An update that leaves the root alone keeps where it comes from, as long as a
channel under dispute stays so until the challenge ran out. -/
theorem RootFrom.keep {slot : UInt64} (hr : RootFrom signed initial slot c)
    (hsame : SameParties c c') (hroot : c'.currentRoot = c.currentRoot)
    (hslot : c'.challengeSlot = c.challengeSlot)
    (hduration : c'.challengeDuration = c.challengeDuration)
    (hstatus : ∀ cs, c.challengeSlot = some cs → c.status = .challenged →
      c'.status = .challenged ∨ RanOut c cs slot) : RootFrom signed initial slot c' := by
  have hout : ∀ {cs}, RanOut c cs slot → RanOut c' cs slot := by
    intro cs h
    rw [RanOut, hduration]
    exact h
  rcases hr with hinit | ⟨sequence, hboth⟩ | ⟨cs, ⟨hcs, k, hparty, hk⟩, h⟩
  · exact .inl (hroot.trans hinit)
  · exact .inr (.inl ⟨sequence, hroot ▸ hboth.of_same hsame⟩)
  · have hch : ChallengedRoot signed c' cs := by
      refine ⟨hslot.trans hcs, k, ?_, ?_⟩
      · rw [isParty, hsame.user, hsame.provider]
        exact hparty
      · rw [hsame.channelId, hroot]
        exact hk
    rcases h with hchallenged | h
    · exact .inr (.inr ⟨cs, hch, (hstatus cs hcs hchallenged).imp_right hout⟩)
    · exact .inr (.inr ⟨cs, hch, .inr (hout h)⟩)

/-- One update keeps where the root comes from. -/
theorem RootFrom.update {call : Call} (hr : RootFrom signed initial w.slot c)
    (hg : Genuine signed w call) (hu : Update sha w w' c call c') :
    RootFrom signed initial w.slot c' := by
  have hsame := hu.sameParties
  cases hu with
  | fund _ _ _ => exact hr.keep hsame rfl rfl rfl fun _ _ hs => .inl hs
  | agree hagreed _ _ =>
    have hboth := hg.agree hagreed.channel_eq
    rw [hagreed.root_eq] at hboth
    exact .inr (.inl ⟨_, hboth.of_same hsame⟩)
  | trigger ht _ =>
    -- Whatever the root was, it is now the challenger's.
    have hk := @hg.trigger _ _ c _ _ _ ht.channel_eq
    exact .inr (.inr ⟨w.slot, ⟨rfl, _, ht.party, hk⟩, .inl rfl⟩)
  | counter hcountered _ =>
    have hboth := hg.counter hcountered.channel_eq
    exact .inr (.inl ⟨_, hboth.of_same hsame⟩)
  | timeout hdue _ _ =>
    refine hr.keep hsame rfl rfl rfl fun cs hcs hstatus => ?_
    -- The challenge that set the root is the one that is due.
    rcases hdue.due with ⟨-, cs', hcs', hout⟩ | ⟨hopen, -⟩
    · obtain rfl : cs' = cs := Option.some_inj.mp (hcs'.symm.trans hcs)
      exact .inr hout
    · rw [hopen] at hstatus
      exact absurd hstatus (by decide)
  | pay _ _ _ => exact hr.keep hsame rfl rfl rfl fun _ _ hs => .inl hs
  | finalize hf _ _ =>
    refine hr.keep hsame rfl rfl rfl fun cs hcs hstatus => ?_
    rw [hf.status_eq] at hstatus
    exact absurd hstatus (by decide)

/-- A settling channel has the root it was opened with, a root that both parties
signed with a sequence number, or the root of a challenge that one party signed
and that ran out without a counter-state. -/
theorem settled_root {ctx : OpenChannel} {args : OpenChannelArgs}
    (hopen : exec sha (.openChannel ctx args) w₀ = .ok w₁) (hrun : Run (exec sha) w₁ h w)
    (hgenuine : ∀ p ∈ h, Genuine signed p.1 p.2) (hc : w.channelAt ctx.channel = some c)
    (hstatus : c.status = .settling) :
    c.currentRoot = args.initialRoot ∨ AgreedRoot signed c ∨
      ∃ cs, ChallengedRoot signed c cs ∧ RanOut c cs w.slot := by
  have ho := openChannel_ok hopen
  have hstart : w₁.channels.lookup ctx.channel =
      some ⟨ChannelAccount.space args.treeDepth, .opened ctx args⟩ := by
    rw [ho.channels_eq, AList.lookup_insert]
  have hsize : (ChannelAccount.opened ctx args).size ≤ ChannelAccount.space args.treeDepth := by
    show ChannelAccount.sizeWith 1 1 1 0 ≤ ChannelAccount.sizeWith 9 9 9 _
    rw [ChannelAccount.sizeWith, ChannelAccount.sizeWith]
    omega
  obtain ⟨c', hc', -, hfrom⟩ := follow_channel (P := RootFrom signed args.initialRoot)
    (Genuine signed) hstart hsize (.inl rfl) (fun _ _ _ hle hr => hr.later hle)
    (fun _ _ _ _ _ _ hr hg _ hu => hr.update hg hu) hrun hgenuine
  obtain rfl : c' = c :=
    Option.some_inj.mp ((World.channelAt_eq_some.mpr ⟨_, hc'⟩).symm.trans hc)
  rcases hfrom with hinit | hagreed | ⟨cs, hch, hchallenged | hout⟩
  · exact .inl hinit
  · exact .inr (.inl hagreed)
  · rw [hstatus] at hchallenged
    exact absurd hchallenged (by decide)
  · exact .inr (.inr ⟨cs, hch, hout⟩)

end

namespace Alone

open Stolen

def otherRoot : Bytes 32 := fill 32 77

def openContext : OpenChannel :=
  ⟨.channel channelId, user, user, provider, mint, .key (fill 32 20), .key (fill 32 21),
    sysvarBytes [(user, openArgs.message)]⟩

/-- The user challenges with a root of its own in slot 10, waits, and settles. -/
def calls : List Call :=
  [.triggerChallenge ⟨.channel channelId, user,
      sysvarBytes [(user, channelMessage channelId 10 otherRoot)]⟩ otherRoot 1,
    .tick 111, .settleAfterTimeout ⟨.channel channelId⟩ 50]

/-- The user signs whatever it likes, and the provider nothing. -/
def signed (k : Pubkey) (_ : List UInt8) : Prop := k = user

theorem reached : ∃ w₁ h w, exec Sha256.sha256 (.openChannel openContext openArgs) start = .ok w₁ ∧
    Run (exec Sha256.sha256) w₁ h w ∧ h.map Prod.snd = calls.reverse ∧
    (w.channelAt (.channel channelId)).map
      (fun c => (c.status, c.currentRoot, c.providerPubkey)) = some (.settling, otherRoot, provider) :=
  Run.exists_of_test_after (by decide +kernel)

theorem genuine {h : List (World × Call)} (hcalls : h.map Prod.snd = calls.reverse) :
    ∀ p ∈ h, Genuine signed p.1 p.2 := by
  refine Run.forall_of_calls hcalls fun call hcall w c _ r hr => ?_
  simp only [calls, List.mem_cons, List.not_mem_nil, or_false] at hcall
  rcases hcall with rfl | rfl | rfl
  · rw [List.mem_singleton.mp hr]
    rfl
  · exact absurd hr (by simp [Call.checks])
  · exact absurd hr (by simp [Call.checks])

end Alone

/-- One party settles the channel on a root that the other never signed. -/
theorem settled_alone :
    ¬ ∀ (sha : List UInt8 → Bytes 32) (signed : Pubkey → List UInt8 → Prop) (ctx : OpenChannel)
      (args : OpenChannelArgs) (w₀ w₁ w : World) (h : List (World × Call)) (c : ChannelAccount),
      exec sha (.openChannel ctx args) w₀ = .ok w₁ → Run (exec sha) w₁ h w →
        (∀ p ∈ h, Genuine signed p.1 p.2) → w.channelAt ctx.channel = some c →
          c.status = .settling → c.currentRoot = args.initialRoot ∨ AgreedRoot signed c := by
  intro hroot
  obtain ⟨w₁, h, w, hopen, hrun, hcalls, hc⟩ := Alone.reached
  obtain ⟨c, hc, hfields⟩ := Option.map_eq_some_iff.mp hc
  obtain ⟨hstatus, hcurrent, hprovider⟩ : c.status = .settling ∧ c.currentRoot = Alone.otherRoot ∧
      c.providerPubkey = Stolen.provider := by simpa using hfields
  rcases hroot _ _ _ _ _ _ _ _ _ hopen hrun (Alone.genuine hcalls) hc hstatus with hinit | hagreed
  · rw [hcurrent] at hinit
    exact absurd hinit (by decide)
  · obtain ⟨sequence, hboth⟩ := hagreed
    have hsigned : c.providerPubkey = Stolen.user := hboth.provider
    rw [hprovider] at hsigned
    exact absurd hsigned (by decide)

/-- What the code does promise of that run. -/
theorem settled_root_alone : ∃ (w : World) (c : ChannelAccount),
    w.channelAt (.channel Stolen.channelId) = some c ∧ c.currentRoot = Alone.otherRoot ∧
    (c.currentRoot = Stolen.root ∨ AgreedRoot Alone.signed c ∨
      ∃ cs, ChallengedRoot Alone.signed c cs ∧ RanOut c cs w.slot) := by
  obtain ⟨w₁, h, w, hopen, hrun, hcalls, hc⟩ := Alone.reached
  obtain ⟨c, hc, hfields⟩ := Option.map_eq_some_iff.mp hc
  obtain ⟨hstatus, hcurrent, -⟩ : c.status = .settling ∧ c.currentRoot = Alone.otherRoot ∧
      c.providerPubkey = Stolen.provider := by simpa using hfields
  exact ⟨w, c, hc, hcurrent, settled_root hopen hrun (Alone.genuine hcalls) hc hstatus⟩

/-! ### Answering a challenge -/

/-- The state with the highest number of those that both parties ever signed. -/
structure Latest (signed : Pubkey → List UInt8 → Prop) (c : ChannelAccount) (sequence : UInt64)
    (root : Bytes 32) : Prop where
  both : SignedBoth signed c sequence root
  highest : ∀ sequence' root', SignedBoth signed c sequence' root' →
    sequence' < sequence ∨ (sequence' = sequence ∧ root' = root)

/-- The bytes hold both signatures of a state. -/
structure Shown (data : List UInt8) (c : ChannelAccount) (sequence : UInt64) (root : Bytes 32) :
    Prop where
  user : Record data c.userPubkey.val (channelMessage c.channelId sequence root)
  provider : Record data c.providerPubkey.val (channelMessage c.channelId sequence root)

/-- The call submits the state to the channel at `a`. -/
def Submits (a : Address) (sequence : UInt64) (root : Bytes 32) (call : Call) : Prop :=
  ∃ ctx, ctx.channel = a ∧ call = .submitCounterState ctx sequence root

/-- From `w₁` on, as long as the channel at `a` is under dispute and the state
was not submitted yet, submitting it goes through, and then no call replaces
its root. -/
def Answers (sha : List UInt8 → Bytes 32) (signed : Pubkey → List UInt8 → Prop) (a : Address)
    (sequence : UInt64) (root : Bytes 32) (data : List UInt8) (w₁ : World) : Prop :=
  ∀ h w₂ c₂, Run (exec sha) w₁ h w₂ →
    (∀ p ∈ h, Genuine signed p.1 p.2 ∧ ¬ Submits a sequence root p.2) →
    w₂.channelAt a = some c₂ → c₂.status = .challenged →
      ∃ w₃, exec sha (.submitCounterState ⟨a, data⟩ sequence root) w₂ = .ok w₃ ∧
        ∀ h' w₄, Run (exec sha) w₃ h' w₄ → (∀ p ∈ h', Genuine signed p.1 p.2) →
          ∃ c₄, w₄.channelAt a = some c₄ ∧ c₄.currentRoot = root

section

variable {sha : List UInt8 → Bytes 32} {signed : Pubkey → List UInt8 → Prop}
  {w w₁ w₂ w' : World} {c c' c₁ : ChannelAccount} {a : Address} {sequence q : UInt64}
  {root : Bytes 32} {data : List UInt8} {n : ℕ}

/-- A channel that was challenged, with a number below that of the state. -/
structure Unanswered (c₁ : ChannelAccount) (sequence : UInt64) (c : ChannelAccount) : Prop where
  same : SameParties c₁ c
  started : c.status ≠ .opened
  below : c.sequence < sequence

theorem Unanswered.update {call : Call} (hp : Unanswered c₁ sequence c)
    (hlatest : Latest signed c₁ sequence root) (ha : call.channel = some a) (hg : Genuine signed w call)
    (hnot : ¬ Submits a sequence root call) (hu : Update sha w w' c call c') :
    Unanswered c₁ sequence c' := by
  have hsame := hp.same.trans hu.sameParties
  cases hu with
  | fund hf _ _ => exact absurd hf.status_eq hp.started
  | agree hagreed _ _ => exact absurd hagreed.status_eq hp.started
  | trigger ht _ => exact absurd ht.status_eq hp.started
  | @counter ctx sequence' root' hcountered _ =>
    refine ⟨hsame, hp.started, ?_⟩
    have hboth := (hg.counter hcountered.channel_eq).of_same hp.same.symm
    -- Another agreed state has a lower number, and this one was not submitted.
    rcases hlatest.highest sequence' root' hboth with hlt | ⟨rfl, rfl⟩
    · exact hlt
    · exact absurd ⟨ctx, Option.some_inj.mp ha, rfl⟩ hnot
  | timeout _ _ _ => exact ⟨hsame, by simp [ChannelAccount.settledUntil], hp.below⟩
  | pay _ _ _ => exact ⟨hsame, hp.started, hp.below⟩
  | finalize _ _ _ => exact ⟨hsame, by simp [ChannelAccount.finalized], hp.below⟩

/-- A channel that was challenged and has the state. -/
structure Answered (c₁ : ChannelAccount) (sequence : UInt64) (root : Bytes 32)
    (c : ChannelAccount) : Prop where
  same : SameParties c₁ c
  started : c.status ≠ .opened
  sequence_eq : c.sequence = sequence
  root_eq : c.currentRoot = root

theorem Answered.update {call : Call} (hp : Answered c₁ sequence root c)
    (hlatest : Latest signed c₁ sequence root) (hg : Genuine signed w call)
    (hu : Update sha w w' c call c') : Answered c₁ sequence root c' := by
  have hsame := hp.same.trans hu.sameParties
  cases hu with
  | fund hf _ _ => exact absurd hf.status_eq hp.started
  | agree hagreed _ _ => exact absurd hagreed.status_eq hp.started
  | trigger ht _ => exact absurd ht.status_eq hp.started
  | @counter ctx sequence' root' hcountered _ =>
    -- No agreed state has a higher number.
    have hboth := (hg.counter hcountered.channel_eq).of_same hp.same.symm
    have hlt : sequence < sequence' := hp.sequence_eq ▸ hcountered.sequence_lt
    rcases hlatest.highest sequence' root' hboth with hlt' | ⟨rfl, -⟩
    · exact absurd (UInt64.lt_trans hlt hlt') (UInt64.lt_irrefl _)
    · exact absurd hlt (UInt64.lt_irrefl _)
  | timeout _ _ _ =>
    exact ⟨hsame, by simp [ChannelAccount.settledUntil], hp.sequence_eq, hp.root_eq⟩
  | pay _ _ _ => exact ⟨hsame, hp.started, hp.sequence_eq, hp.root_eq⟩
  | finalize _ _ _ =>
    exact ⟨hsame, by simp [ChannelAccount.finalized], hp.sequence_eq, hp.root_eq⟩

/-- A counter-state with a higher number and both signatures goes through: it
writes no more bytes than there are. -/
theorem exists_submitCounterState (hc : w.channels.lookup a = some ⟨n, c⟩) (hsize : c.size ≤ n)
    (hstatus : c.status = .challenged) (hlt : c.sequence < sequence)
    (hshown : Shown data c sequence root) :
    ∃ w', exec sha (.submitCounterState ⟨a, data⟩ sequence root) w = .ok w' ∧
      w'.channels.lookup a = some ⟨n, c.countered sequence root⟩ := by
  have hat := World.channelAt_eq_some.mpr ⟨n, hc⟩
  have hcountered : Countered w ⟨a, data⟩ sequence root c :=
    ⟨hat, hstatus, hlt, hshown.user, hshown.provider⟩
  have hfits : (c.countered sequence root).size ≤ n := hsize
  have hok := submitCounterState_eq_ok.mpr
    ⟨c, hcountered, saveChannel_eq_ok.mpr ⟨⟨n, c⟩, hc, hfits, rfl⟩⟩
  exact ⟨_, hok, AList.lookup_insert _⟩

theorem answers_of_lt (hc : w₁.channels.lookup a = some ⟨n, c₁⟩) (hsize : c₁.size ≤ n)
    (hlatest : Latest signed c₁ sequence root) (hshown : Shown data c₁ sequence root)
    (hstart : Unanswered c₁ sequence c₁) : Answers sha signed a sequence root data w₁ := by
  intro h w₂ c₂ hrun hall hc₂ hstatus
  -- Until the counter-state is submitted, the number stays below that of the latest state,
  obtain ⟨c, hcn, hsize, hun⟩ := follow_channel (P := fun _ => Unanswered c₁ sequence)
    (fun w call => Genuine signed w call ∧ ¬ Submits a sequence root call) hc hsize hstart
    (fun _ _ _ _ hp => hp)
    (fun w w' c call c' _ hp hg ha hu => hp.update hlatest ha hg.1 hg.2 hu) hrun hall
  obtain rfl : c = c₂ :=
    Option.some_inj.mp ((World.channelAt_eq_some.mpr ⟨n, hcn⟩).symm.trans hc₂)
  have hshown₂ : Shown data c sequence root := by
    obtain ⟨huser, hprovider⟩ := hshown
    rw [← hun.same.channelId] at huser hprovider
    rw [← hun.same.user] at huser
    rw [← hun.same.provider] at hprovider
    exact ⟨huser, hprovider⟩
  obtain ⟨w₃, hok, hc₃⟩ := exists_submitCounterState hcn hsize hstatus hun.below hshown₂
  refine ⟨w₃, hok, fun h' w₄ hrun' hall' => ?_⟩
  have hsize₃ : (c.countered sequence root).size ≤ n := hsize
  -- and from then on no other root gets in, for none is signed with a larger number.
  have hanswered : Answered c₁ sequence root (c.countered sequence root) :=
    ⟨hun.same.trans ⟨rfl, rfl, rfl⟩, hun.started, rfl, rfl⟩
  obtain ⟨c₄, hc₄, -, hend⟩ := follow_channel (P := fun _ => Answered c₁ sequence root)
    (Genuine signed) hc₃ hsize₃ hanswered (fun _ _ _ _ hp => hp)
    (fun w w' c call c' _ hp hg _ hu => hp.update hlatest hg hu) hrun' hall'
  exact ⟨c₄, World.channelAt_eq_some.mpr ⟨n, hc₄⟩, hend.root_eq⟩

/-- A challenge that goes through leaves its number on the channel. -/
theorem triggered_of_exec {ctx : TriggerChallenge} {submittedRoot : Bytes 32}
    (h : exec sha (.triggerChallenge ctx submittedRoot q) w = .ok w₁)
    (hc : w.channelAt ctx.channel = some c) :
    ∃ n, w₁.channels.lookup ctx.channel = some ⟨n, c.triggered w.slot submittedRoot q⟩ ∧
      (c.triggered w.slot submittedRoot q).size ≤ n := by
  obtain ⟨c₀, hchecked, hsave⟩ := triggerChallenge_eq_ok.mp h
  obtain rfl : c₀ = c := Option.some_inj.mp (hchecked.channel_eq.symm.trans hc)
  obtain ⟨hstored, -⟩ := stored_of_save hc rfl rfl hsave
  obtain ⟨n, -, hsize, hch⟩ := hstored.stored
  exact ⟨n, by rw [hch, AList.lookup_insert], hsize⟩

/-- Only a number above the one on the channel answers. -/
theorem lt_of_answers (hc : w₁.channels.lookup a = some ⟨n, c₁⟩) (hstatus : c₁.status = .challenged)
    (h : Answers sha signed a sequence root data w₁) : c₁.sequence < sequence := by
  have hat := World.channelAt_eq_some.mpr ⟨n, hc⟩
  obtain ⟨w₃, hok, -⟩ := h [] w₁ c₁ .start (fun p hp => absurd hp (by simp)) hat hstatus
  obtain ⟨c, hcountered⟩ := submitCounterState_ok hok
  obtain rfl : c = c₁ := Option.some_inj.mp (hcountered.channel_eq.symm.trans hat)
  exact hcountered.sequence_lt

/-- After a challenge, the latest state that both parties signed answers it
exactly when the challenger named a lower number. -/
theorem answers_iff {ctx : TriggerChallenge} {submittedRoot : Bytes 32}
    (htrigger : exec sha (.triggerChallenge ctx submittedRoot q) w = .ok w₁)
    (hc : w.channelAt ctx.channel = some c) (hlatest : Latest signed c sequence root)
    (hshown : Shown data c sequence root) :
    Answers sha signed ctx.channel sequence root data w₁ ↔ q < sequence := by
  obtain ⟨n, hn, hsize⟩ := triggered_of_exec htrigger hc
  constructor
  · intro h
    exact lt_of_answers hn rfl h
  · intro hlt
    refine answers_of_lt hn hsize ⟨?_, ?_⟩ ⟨hshown.user, hshown.provider⟩
      ⟨.refl _, by simp [ChannelAccount.triggered], hlt⟩
    · exact ⟨hlatest.both.user, hlatest.both.provider⟩
    · exact fun s r hs => hlatest.highest s r ⟨hs.user, hs.provider⟩

end

namespace Outbid

open Stolen

def latestRoot : Bytes 32 := fill 32 44

/-- Both signatures of the state with sequence number 3. -/
def shown : List UInt8 :=
  sysvarBytes [(user, channelMessage channelId 3 latestRoot),
    (provider, channelMessage channelId 3 latestRoot)]

/-- The user signs anything, the provider only that state. -/
def signed (k : Pubkey) (msg : List UInt8) : Prop :=
  k = user ∨ msg = channelMessage channelId 3 latestRoot

/-- The channel as the user opens it, before any challenge. -/
def opened : List Call := [.openChannel Alone.openContext openArgs]

/-- The user challenges with a root of its own and a number of choice. -/
def challenge (sequence : UInt64) : Call :=
  .triggerChallenge ⟨.channel channelId, user,
    sysvarBytes [(user, channelMessage channelId 10 Alone.otherRoot)]⟩ Alone.otherRoot sequence

/-- The channel before the challenge. -/
structure Before (c : ChannelAccount) : Prop where
  channelId_eq : c.channelId = channelId
  user_eq : c.userPubkey = user
  provider_eq : c.providerPubkey = provider

theorem before_of_map {w : World} (h : (w.channelAt (.channel channelId)).map (fun c =>
    (c.channelId, c.userPubkey, c.providerPubkey)) = some (channelId, user, provider)) :
    ∃ c, w.channelAt (.channel channelId) = some c ∧ Before c := by
  obtain ⟨c, hc, hfields⟩ := Option.map_eq_some_iff.mp h
  obtain ⟨hid, huser, hprovider⟩ : c.channelId = channelId ∧ c.userPubkey = user ∧
      c.providerPubkey = provider := by simpa using hfields
  exact ⟨c, hc, hid, huser, hprovider⟩

theorem latest {c : ChannelAccount} (hb : Before c) : Latest signed c 3 latestRoot := by
  refine ⟨⟨.inl hb.user_eq, .inr (by rw [hb.channelId_eq])⟩, fun sequence root hs => .inr ?_⟩
  have hprovider := hs.provider
  rw [hb.provider_eq, hb.channelId_eq] at hprovider
  rcases hprovider with hk | hmsg
  · exact absurd hk (by decide)
  · obtain ⟨-, heq⟩ := Prod.mk.inj (channelMessage_eq_iff.mp hmsg)
    exact Prod.mk.inj heq

theorem records {c : ChannelAccount} (hb : Before c) : Shown shown c 3 latestRoot := by
  have hrecord : ∀ k, (checkSignature shown k (channelMessage channelId 3 latestRoot)).isOk = true →
      Record shown k.val (channelMessage channelId 3 latestRoot) := by
    intro k hok
    obtain ⟨_, h⟩ := exists_of_isOk hok
    exact checkSignature_eq_ok.mp h
  obtain ⟨hid, huser, hprovider⟩ := hb
  constructor
  · rw [huser, hid]
    exact hrecord user (by decide +kernel)
  · rw [hprovider, hid]
    exact hrecord provider (by decide +kernel)

/-- A world in which the channel is open and can be challenged with any of two
numbers. -/
theorem reached : ∃ h w, Run (exec Sha256.sha256) start h w ∧ h.map Prod.snd = opened.reverse ∧
    (w.channelAt (.channel channelId)).map (fun c => (c.channelId, c.userPubkey,
      c.providerPubkey)) = some (channelId, user, provider) ∧
    (w.channelAt (.channel channelId)).map ChannelAccount.sequence = some 0 ∧
    (exec Sha256.sha256 (challenge 1) w).isOk = true ∧
    (exec Sha256.sha256 (challenge 18446744073709551615) w).isOk = true :=
  Run.exists_of_test (by decide +kernel)

end Outbid

/-- A challenger names the highest number there is, and the latest state that
both signed no longer answers. -/
theorem challenge_unanswered :
    ¬ ∀ (sha : List UInt8 → Bytes 32) (signed : Pubkey → List UInt8 → Prop) (ctx : TriggerChallenge)
      (submittedRoot root : Bytes 32) (q sequence : UInt64) (data : List UInt8) (w w₁ : World)
      (c : ChannelAccount), w.channelAt ctx.channel = some c → c.sequence < sequence →
        exec sha (.triggerChallenge ctx submittedRoot q) w = .ok w₁ →
          Latest signed c sequence root → Shown data c sequence root →
            Answers sha signed ctx.channel sequence root data w₁ := by
  intro hall
  obtain ⟨h, w, -, -, hc, hsequence, -, hok⟩ := Outbid.reached
  obtain ⟨c, hc, hbefore⟩ := Outbid.before_of_map hc
  rw [hc, Option.map_some, Option.some_inj] at hsequence
  obtain ⟨w₁, hw₁⟩ := exists_of_isOk hok
  have hlt : c.sequence < 3 := by
    rw [hsequence]
    decide
  have hanswers := hall Sha256.sha256 Outbid.signed _ _ _ _ _ _ w w₁ c hc hlt hw₁
    (Outbid.latest hbefore) (Outbid.records hbefore)
  obtain ⟨n, hn, -⟩ := triggered_of_exec hw₁ hc
  have hbelow : (18446744073709551615 : UInt64) < 3 := lt_of_answers hn rfl hanswers
  exact absurd hbelow (by decide)

/-- A challenge with number 1 on the same channel is answered. -/
theorem answers_iff_low : ∃ w w₁, exec Sha256.sha256 (Outbid.challenge 1) w = .ok w₁ ∧
    Answers Sha256.sha256 Outbid.signed (.channel Stolen.channelId) 3 Outbid.latestRoot
      Outbid.shown w₁ := by
  obtain ⟨h, w, -, -, hc, -, hok, -⟩ := Outbid.reached
  obtain ⟨c, hc, hbefore⟩ := Outbid.before_of_map hc
  obtain ⟨w₁, hw₁⟩ := exists_of_isOk hok
  exact ⟨w, w₁, hw₁, (answers_iff hw₁ hc (Outbid.latest hbefore)
    (Outbid.records hbefore)).mpr (by decide)⟩

/-! ### Settling a newer state -/

/-- A cooperative settlement goes through and leaves the channel settling on the
root, with the sequence number. -/
def SettlesOn (w : World) (ctx : CooperativeSettle) (sequence : UInt64) (root : Bytes 32)
    (window : UInt64) : Prop :=
  ∃ w' c', cooperativeSettle ctx sequence root window w = .ok w' ∧
    w'.channelAt ctx.channel = some c' ∧ c'.status = .settling ∧ c'.currentRoot = root ∧
    c'.sequence = sequence

section

variable {w : World} {c : ChannelAccount} {ctx : CooperativeSettle} {sequence window : UInt64}
  {root : Bytes 32}

/-- The number is checked and forgotten. -/
theorem not_settlesOn (hc : w.channelAt ctx.channel = some c) (hnewer : c.sequence < sequence) :
    ¬ SettlesOn w ctx sequence root window := by
  rintro ⟨w', c', hok, hc', -, -, hsequence⟩
  obtain ⟨c₀, c₁, hu, hs⟩ := @cooperativeSettle_update Sha256.sha256 _ _ _ _ _ _ hok
  obtain ⟨n, hn, -, hch⟩ := hs.stored
  obtain rfl : c₀ = c :=
    Option.some_inj.mp ((World.channelAt_eq_some.mpr ⟨n, hn⟩).symm.trans hc)
  have hafter : w'.channels.lookup ctx.channel = some ⟨n, c₁⟩ := by
    rw [hch, AList.lookup_insert]
  obtain rfl : c₁ = c' :=
    Option.some_inj.mp ((World.channelAt_eq_some.mpr ⟨n, hafter⟩).symm.trans hc')
  cases hu with
  | agree _ _ _ =>
    have hsame : c₀.sequence = sequence := hsequence
    rw [hsame] at hnewer
    exact UInt64.lt_irrefl _ hnewer

/-- A root other than the one on the channel is refused, whatever was signed. -/
theorem prevHashMismatch_of_ne (hc : w.channelAt ctx.channel = some c) (hopen : c.status = .opened)
    (hnewer : c.sequence < sequence) (hroot : root ≠ c.currentRoot) :
    cooperativeSettle ctx sequence root window w = .error (.code .prevHashMismatch) := by
  have hload : loadChannel w ctx.channel = .ok c := loadChannel_eq_ok.mpr hc
  have hle : sequence ≥ c.sequence := UInt64.le_of_lt hnewer
  rw [cooperativeSettle, hload]
  show (require (c.status = .opened) _ >>= _) = _
  rw [require_bind hopen, require_bind hle, require, if_neg hroot]
  rfl

/-- No state newer than the one on the channel is ever settled by agreement: if
its root is another one the call fails, and if not its number is lost. -/
theorem never_settles_newer (hc : w.channelAt ctx.channel = some c) (hopen : c.status = .opened)
    (hnewer : c.sequence < sequence) :
    ¬ SettlesOn w ctx sequence root window ∧ (root ≠ c.currentRoot →
      cooperativeSettle ctx sequence root window w = .error (.code .prevHashMismatch)) :=
  ⟨not_settlesOn hc hnewer, prevHashMismatch_of_ne hc hopen hnewer⟩

end

namespace Newer

open Unsigned

def newerRoot : Bytes 32 := fill 32 8

/-- Both signatures of the state with number 3 and another root. -/
def data : List UInt8 :=
  sysvarBytes [(user, channelMessage (fill 32 1) 3 newerRoot),
    (provider, channelMessage (fill 32 1) 3 newerRoot)]

theorem records : Shown data channel 3 newerRoot := by
  constructor
  · obtain ⟨_, h⟩ := exists_of_isOk (x := checkSignature data channel.userPubkey
      (channelMessage channel.channelId 3 newerRoot)) (by decide +kernel)
    exact checkSignature_eq_ok.mp h
  · obtain ⟨_, h⟩ := exists_of_isOk (x := checkSignature data channel.providerPubkey
      (channelMessage channel.channelId 3 newerRoot)) (by decide +kernel)
    exact checkSignature_eq_ok.mp h

end Newer

/-- An open channel and a newer state that both parties signed, which cannot be
settled. -/
theorem newer_refused :
    ¬ ∀ (w : World) (ctx : CooperativeSettle) (sequence window : UInt64) (root : Bytes 32)
      (c : ChannelAccount), w.channelAt ctx.channel = some c → c.status = .opened →
        c.sequence < sequence → Shown ctx.instructionSysvar c sequence root →
          SettlesOn w ctx sequence root window := by
  intro hall
  have hsettles := hall Unsigned.world ⟨.channel (fill 32 1), Newer.data⟩ 3 100 Newer.newerRoot
    Unsigned.channel rfl rfl (by decide) Newer.records
  exact not_settlesOn rfl (by decide : Unsigned.channel.sequence < 3) hsettles

/-- The same channel and state. -/
theorem never_settles_newer_signed :
    ¬ SettlesOn Unsigned.world ⟨.channel (fill 32 1), Newer.data⟩ 3 Newer.newerRoot 100 ∧
      (Newer.newerRoot ≠ Unsigned.channel.currentRoot →
        cooperativeSettle ⟨.channel (fill 32 1), Newer.data⟩ 3 Newer.newerRoot 100 Unsigned.world
          = .error (.code .prevHashMismatch)) :=
  never_settles_newer (c := Unsigned.channel) rfl rfl (by decide)

end Program
