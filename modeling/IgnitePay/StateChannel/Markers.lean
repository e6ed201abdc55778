/-
Compliance markers in the tree (`create_compliance_leaf`), and the calls that look for an empty
slot.

A marker is a leaf without an amount.  `fund_channel`, `split_from_rest`, `partial_transfer` and
`merge_spent_leaves` take a slot to be empty when its amount is zero (`is_empty`), whatever the
type of its leaf, and write a standard leaf there.

* `SlotCall.takes_target` — a call that goes through has filled the slot that it takes to be empty;
* `markers_kept_iff` — so the markers last exactly where no call is led to the slot of one.
-/
import IgnitePay.StateChannel.Helpers
import IgnitePay.StateChannel.Effect

namespace StateChannel

open Bytes Machine Solana

/-! ### Markers -/

/-- `create_compliance_leaf`. -/
def createComplianceLeaf (complianceHash : Bytes 32) : UTXOLeaf :=
  ⟨.compliance, defaultPubkey, 0, some complianceHash, none, none⟩

def UTXOLeaf.IsMarker (l : UTXOLeaf) : Prop := ∃ complianceHash, l = createComplianceLeaf complianceHash

instance (l : UTXOLeaf) : Decidable l.IsMarker :=
  decidable_of_iff (l.hashLock.any fun h => l = createComplianceLeaf h) (by
    constructor
    · intro h
      obtain ⟨complianceHash, -, heq⟩ := (Option.any_eq_true _ _).mp h
      exact ⟨complianceHash, of_decide_eq_true heq⟩
    · rintro ⟨complianceHash, rfl⟩
      exact decide_eq_true rfl)

/-- No marker stands there. -/
def Unmarked (t : MerkleTree) (index : ℕ) : Prop :=
  ∀ leaf, t.getLeaf index = some leaf → ¬ leaf.IsMarker

instance (t : MerkleTree) (index : ℕ) : Decidable (Unmarked t index) :=
  decidable_of_iff ((t.getLeaf index).all fun leaf => ¬ leaf.IsMarker) (by
    simp [Unmarked, Option.all_eq_true])

/-! ### Calls -/

/-- A call on a channel: of its manager, or of a helper or a pipeline on its tree. -/
inductive SlotCall
  | manager (r : Request)
  | onTree (c : LeafCall)

namespace SlotCall

/-- What the call returns, and the session it leaves. -/
def call (env : Env) (c : SlotCall) (s : Session) : Except Failure Unit × Session :=
  match c with
  | manager r => (r.method env).call s
  | onTree c =>
    let r := c.call env s.channel.tree
    (r.1, { s with channel := { s.channel with tree := r.2 } })

/-- A call that goes through. -/
def exec (env : Env) (c : SlotCall) (s : Session) : Except Failure Session :=
  match c.call env s with
  | (.ok _, s') => .ok s'
  | (.error e, _) => .error e

/-- The slot that a call takes to be empty: the one it is given, or the first without an amount. -/
def target (t : MerkleTree) : SlotCall → Option ℕ
  | manager (.fundChannel _ _ (some providerLeafIndex)) => some providerLeafIndex
  | manager (.fundChannel _ _ none) => t.availableSlots.head?
  | onTree (.splitFromRest _ _ targetIdx _ _ _) => some targetIdx
  | onTree (.pipeline _ (.partialTransfer _ destIndex _ _)) => some destIndex
  | onTree (.mergeSpentLeaves _ _ targetIdx _ _) => some targetIdx
  | _ => none

/-- A marker in the slot that the call takes to be empty is there afterwards. -/
def KeepsMarkers (c : SlotCall) (s s' : Session) : Prop :=
  ∀ index ∈ c.target s.channel.tree, ∀ complianceHash,
    s.channel.tree.getLeaf index = some (createComplianceLeaf complianceHash) →
      s'.channel.tree.getLeaf index = some (createComplianceLeaf complianceHash)

/-- The call is not led to a marker. -/
def SparesMarkers (c : SlotCall) (t : MerkleTree) : Prop := ∀ index ∈ c.target t, Unmarked t index

instance (c : SlotCall) (t : MerkleTree) : Decidable (c.SparesMarkers t) :=
  decidable_of_iff ((c.target t).all fun index => Unmarked t index) (by
    simp [SparesMarkers, Option.all_eq_true])

end SlotCall

/-! ### What a call puts in the slot -/

section

variable {env : Env} {s s' : Session} {t t' : MerkleTree} {c : SlotCall} {index : ℕ}

/-- A standard leaf stands there. -/
def Filled (t : MerkleTree) (index : ℕ) : Prop :=
  ∃ leaf, t.getLeaf index = some leaf ∧ leaf.leafType = .standard

theorem Filled.of_updateLeaf {leaf : UTXOLeaf} (hindex : ∃ prevLeaf, t.getLeaf index = some prevLeaf)
    (h : t.updateLeaf env.sha index leaf = some t') (hstandard : leaf.leafType = .standard) :
    Filled t' index := by
  obtain ⟨prevLeaf, hprev⟩ := hindex
  refine ⟨leaf, ?_, hstandard⟩
  rw [MerkleTree.getLeaf, leaves_updateLeaf h, List.getElem?_set_self (getLeaf_lt hprev)]

theorem Filled.of_rewritten {ws : List Write} (h : Rewritten env ws t t')
    (hstandard : ∀ w ∈ ws, w.newLeaf.leafType = .standard) (hw : ∃ w ∈ ws, w.index = index) :
    Filled t' index := by
  obtain ⟨w, hw, rfl⟩ := hw
  rcases h.getLeaf w.index with ⟨-, hother⟩ | ⟨w', hw', -, hnow⟩
  · exact absurd rfl (hother w hw)
  · exact ⟨w'.newLeaf, hnow, hstandard w' hw'⟩

theorem Filled.not_marker (h : Filled t index) (complianceHash : Bytes 32) :
    t.getLeaf index ≠ some (createComplianceLeaf complianceHash) := by
  obtain ⟨leaf, hleaf, hstandard⟩ := h
  intro hmarker
  obtain rfl := Option.some_inj.mp (hleaf.symm.trans hmarker)
  exact absurd hstandard (by simp [createComplianceLeaf])

namespace SlotCall

theorem exec_eq_ok : exec env c s = .ok s' ↔ c.call env s = (.ok (), s') := by
  rw [exec]
  rcases c.call env s with ⟨e | _, s₁⟩
  · simp
  · simp

theorem onTree_eq_ok {c : LeafCall} (h : exec env (onTree c) s = .ok s') :
    LeafCall.exec env c s.channel.tree = .ok s'.channel.tree := by
  rw [LeafCall.exec_eq_ok]
  obtain ⟨hok, rfl⟩ := Prod.mk.inj (exec_eq_ok.mp h)
  exact Prod.ext hok rfl

theorem fundChannel_takes {k : Keypair} {depositB : UInt64} {requested : Option ℕ}
    (h : exec env (manager (.fundChannel k depositB requested)) s = .ok s')
    (hindex : index ∈ (manager (.fundChannel k depositB requested)).target s.channel.tree) :
    Filled s'.channel.tree index := by
  obtain ⟨_, _, hr, rfl⟩ := returns_quietly.mp (exec_eq_ok.mp h)
  obtain ⟨-, index', prevLeaf, newSequence, tree, hslot, hprev, -, -, htree, -, rfl⟩ :=
    fundChannel_returns.mp hr
  obtain rfl : index' = index := by
    cases requested with
    | none => exact Option.some_inj.mp (hslot.symm.trans hindex)
    | some requested => exact hslot.1.trans (Option.some_inj.mp hindex)
  exact .of_updateLeaf ⟨prevLeaf, hprev⟩ htree rfl

/-- A call that goes through has filled the slot that it took to be empty. -/
theorem takes_target (h : exec env c s = .ok s') (hindex : index ∈ c.target s.channel.tree) :
    Filled s'.channel.tree index := by
  cases c with
  | manager r =>
    cases r with
    | fundChannel => exact fundChannel_takes h hindex
    | _ => exact absurd hindex (by simp [target])
  | onTree c =>
    obtain ⟨ws, hdoes, hrewritten, -⟩ := LeafCall.does_of_exec (onTree_eq_ok h)
    cases hdoes with
    | pipeline hdoes =>
      cases hdoes with
      | partialTransfer =>
        obtain rfl := Option.some_inj.mp hindex
        exact .of_rewritten hrewritten (by simp [UTXOLeaf.standard]) ⟨_, List.mem_cons_self, rfl⟩
      | _ => exact absurd hindex (by simp [target])
    | splitFromRest =>
      obtain rfl := Option.some_inj.mp hindex
      exact .of_rewritten hrewritten (by simp [UTXOLeaf.standard])
        ⟨_, List.mem_cons_of_mem _ List.mem_cons_self, rfl⟩
    | mergeSpentLeaves =>
      obtain rfl := Option.some_inj.mp hindex
      refine .of_rewritten hrewritten ?_ ⟨_, List.mem_cons_self, rfl⟩
      exact List.forall_mem_cons.mpr ⟨rfl, List.forall_mem_map.mpr fun _ _ => rfl⟩

/-- One call keeps the markers where it is not led to one. -/
theorem keepsMarkers_iff (h : exec env c s = .ok s') :
    c.KeepsMarkers s s' ↔ c.SparesMarkers s.channel.tree := by
  constructor
  · -- What stands in the slot afterwards is a standard leaf, and so no marker.
    rintro hkeeps index hindex leaf hleaf ⟨complianceHash, rfl⟩
    exact (takes_target h hindex).not_marker complianceHash (hkeeps index hindex complianceHash hleaf)
  · intro hspares index hindex complianceHash hmarker
    exact absurd ⟨complianceHash, rfl⟩ (hspares index hindex _ hmarker)

/-- A call that looks for an empty slot, and returns an error, has written nothing. -/
theorem error_keeps_tree {error : StateChannelError} (htree : IsTree env.sha s.channel.tree)
    (hlooks : (c.target s.channel.tree).isSome) (h : c.call env s = (.error (.error error), s')) :
    s'.channel.tree = s.channel.tree := by
  cases c with
  | manager r =>
    cases r with
    | fundChannel k depositB requested =>
      obtain ⟨l, hfails, rfl⟩ := fails_quietly.mp h
      have hclean : Clean (fun _ => True) (fundChannel env k depositB requested) := fundChannel_clean
      obtain rfl := hclean _ _ _ trivial hfails
      rfl
    | _ => exact absurd hlooks (by simp [target])
  | onTree c =>
    obtain ⟨he, rfl⟩ := Prod.mk.inj h
    exact LeafCall.error_unchanged htree (Prod.ext he rfl)

/-- In every run on a channel, the markers last exactly where no call is led to the slot of one. -/
theorem markers_kept_iff (env : Env) (s₀ : Session) {h : List (Session × SlotCall)} {s : Session}
    (hrun : Run (exec env) s₀ h s) :
    (∀ (c : SlotCall) error s', IsTree env.sha s.channel.tree → (c.target s.channel.tree).isSome →
      c.call env s = (.error (.error error), s') → s'.channel.tree = s.channel.tree) ∧
    ((∀ c ∈ h, ∀ s', exec env c.2 c.1 = .ok s' → c.2.KeepsMarkers c.1 s') ↔
      ∀ c ∈ h, c.2.SparesMarkers c.1.channel.tree) := by
  refine ⟨fun c error s' htree hlooks => error_keeps_tree htree hlooks, ?_⟩
  constructor
  · intro hall c hc
    obtain ⟨-, s', -, -, hexec⟩ := hrun.of_mem hc
    exact (keepsMarkers_iff hexec).mp (hall c hc s' hexec)
  · intro hall c hc s' hexec
    exact (keepsMarkers_iff hexec).mpr (hall c hc)

end SlotCall

end

/-! ### A marker lost, and one that lasts -/

namespace Sample

def holder : Pubkey := number 0xf7658b8e4d3883a43de0f4c59be0640f473a329506dc786cfde71b101e47ed25

def funder : Pubkey := number 0x07b92b279f8ce8d89afaa6e0812369b6aa782aa113cf754e1dbb0439483a581f

/-- The signatures that the two make. -/
def marking : List ((Pubkey × Bytes 32) × Bytes 64) := [
  -- The state with the marker in the tree.
  ((holder, number 0x3020f6fa855916afd907f8e1f04104d82f3a597d0b6e61f1899a4717e3f1c909),
    signature 0x58ab30a615860d9757b56c19911c8a286b1dd3c516c3f117ad4ae2c7ac2527b5
      0x047e67e960de35667bcf29fcaf1f2efb74ac0775e2615874788940b0666f2e06),
  ((funder, number 0x3020f6fa855916afd907f8e1f04104d82f3a597d0b6e61f1899a4717e3f1c909),
    signature 0x72d722acef9faf13603bbdcdc37615927ad8abf0e91e0aecb9c22d4507d43647
      0x0f7f1f962a68c0d38d2979cac45d7191d4c1d266ae2bdd55e75df865d705d21a),
  -- The deposit of the provider, in the second leaf and in the third.
  ((funder, number 0xe015c7e269e0cd539d0ca4980126d184fc72048ebc606bc6f96b89a60d78b221),
    signature 0xe3e4f5b29e000bec9c432dece415c0e7206e42e9c1619b4ace326c9b59d68b92
      0x0e943f895c7be2a686cc04b15627538c99859105d5b8a042a2baf7d01e7688a6),
  ((funder, number 0x5320aa034c0fff1cdcbeba38dd3bd549081d3e0601e4e77fa34611a019852ae5),
    signature 0x3c9919660567373fad275677141b680df088f36f789c4a7f24b2957230b1a50d
      0x064b4e36f9d3f0ab4958b529b06cb208c974cdfc2b2ca04e00ee7f123aa81bf0),
  -- The first leaf is split.
  ((holder, number 0xe304479169c08519bb64f79be73ee8001392c68bd51a0ea201d335e8cdc3e628),
    signature 0x2e9d9a7c1ee8e45bf9ee1d9e237544f169503a1ea36e93e8da4cefa21dd3474c
      0x0ab06f0a7716f1403f3a3a7a83871a43d3585b130d5daf2f91ca6276bec85f9b),
  ((holder, number 0x54e6f32a819392c01f944466cfa742c45124da63daab07a6663add29cab1b74c),
    signature 0x91b1241a700e942d8a81b0b09daffbaf1a1576b7bdcb1915ca303a4a60822d60
      0x0a00d9d6bbd97dc0e4aa81e06d5479afb978a394e04fa5d4a5d5dbf1411a0519)]

def holderKeypair : Keypair := ⟨holder, signAlso marking holder⟩

def funderKeypair : Keypair := ⟨funder, signAlso marking funder⟩

/-- A channel of four leaves, with a deposit in the first. -/
def marked : Except StateChannelError Session := do
  let args := { openArgs 10 with
    userPubkey := holder
    providerPubkey := funder
    treeDepth := 2 }
  let (channel, db) ← openChannel env args channelId ⟨∅, ∅, ∅⟩
  return ⟨⟨channel, db⟩, none⟩

/-- The marker that a payment of 10 in slot 5 calls for. -/
def marker : UTXOLeaf :=
  createComplianceLeaf (computeComplianceHash env.sha channelId holder funder 10 5)

/-- Both agree on a tree with the marker in its second leaf. -/
def writeMarker : SlotCall :=
  .manager (.constructSplitTree [.standard holder 10, marker] holderKeypair funderKeypair)

/-- The provider funds the channel. -/
def funds (index : Option ℕ) : SlotCall := .manager (.fundChannel funderKeypair 4 index)

/-- The provider asks for the third leaf, and the fourth is split from the first. -/
def sparingCalls : List SlotCall :=
  [writeMarker, funds (some 2), .onTree (.splitFromRest channelId 0 3 6 3 holderKeypair)]

end Sample

namespace SlotCall

/-- The provider funds the channel, and its deposit is where the marker was. -/
theorem funding_takes_marker : ∃ s₀ h s, Sample.marked = .ok s₀ ∧ Run (exec Sample.env) s₀ h s ∧
    ¬ ∀ c ∈ h, ∀ s', exec Sample.env c.2 c.1 = .ok s' → c.2.KeepsMarkers c.1 s' := by
  have htest : Sample.marked.toOption.any fun s₀ =>
      (Run.record (exec Sample.env) [Sample.writeMarker, Sample.funds none] [] s₀).toOption.any fun r =>
        r.1.any fun c => c.2.target c.1.channel.tree = some 1 ∧
          c.1.channel.tree.getLeaf 1 = some Sample.marker ∧
          (exec Sample.env c.2 c.1).toOption.any fun s' =>
            s'.channel.tree.getLeaf 1 = some (.standard Sample.funder 4) := by
    decide +kernel
  obtain ⟨s₀, hs₀, htest⟩ := exists_of_any htest
  obtain ⟨h, s, hrun, htest⟩ := Run.exists_of_record htest
  obtain ⟨c, hc, hstep⟩ := List.any_eq_true.mp htest
  obtain ⟨htarget, hbefore, hstep⟩ := of_decide_eq_true hstep
  obtain ⟨s', hexec, hafter⟩ := exists_of_any hstep
  refine ⟨s₀, h, s, hs₀, hrun, fun hkeeps => ?_⟩
  have hkept := hkeeps c hc s' hexec 1 htarget _ hbefore
  exact absurd ((of_decide_eq_true hafter).symm.trans hkept) (by decide)

theorem markers_kept_sparing : ∃ s₀ h s, Sample.marked = .ok s₀ ∧ Run (exec Sample.env) s₀ h s ∧
    h.map Prod.snd = Sample.sparingCalls.reverse ∧
    s.channel.tree.getLeaf 1 = some Sample.marker ∧
    ∀ c ∈ h, ∀ s', exec Sample.env c.2 c.1 = .ok s' → c.2.KeepsMarkers c.1 s' := by
  have htest : Sample.marked.toOption.any fun s₀ =>
      Run.tryAll (exec Sample.env) (fun s c => c.SparesMarkers s.channel.tree)
        (fun s => s.channel.tree.getLeaf 1 = some Sample.marker) Sample.sparingCalls s₀ := by
    decide +kernel
  obtain ⟨s₀, hs₀, htest⟩ := exists_of_any htest
  obtain ⟨h, s, hrun, hcalls, hspares, hmarker⟩ :=
    Run.exists_of_tryAll .start (fun _ hc => absurd hc List.not_mem_nil) htest
  rw [List.map_nil, List.append_nil] at hcalls
  exact ⟨s₀, h, s, hs₀, hrun, hcalls, hmarker,
    (markers_kept_iff Sample.env s₀ hrun).2.mpr hspares⟩

end SlotCall

end StateChannel
