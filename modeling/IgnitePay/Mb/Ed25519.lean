/-
Signature introspection of the MagicBlock program (`utils/ed25519.rs`).

`verifyEd25519ForPubkey` looks at one earlier instruction of the transaction,
and if it is addressed to the Ed25519 precompile, compares a signature, a key
and a message found in its data with the expected ones.  The offsets come from
the same header the precompile reads, but the three instruction-index fields
of an entry are never looked at: the precompile may have verified bytes of
another instruction.

* `verifyEd25519ForPubkey_eq_ok` — what a success says, entry by entry;
* `introspectionSound_iff` — when a success means that the key signed;
* `introspectionSound_of_selfReferencing` — entries that point into their own
  instruction are enough;
* `introspection_forged` — a transaction in which a key that never signed
  anything passes.
-/
import IgnitePay.Mb.State

namespace Mb

open Bytes Machine Solana

inductive VerifiedParty
  | buyer
  | merchant
deriving DecidableEq, Repr

/-- The byte strings an instruction is compared with. -/
structure Expected where
  message : List UInt8
  buyerSig : List UInt8
  merchantSig : List UInt8
  buyerPubkey : List UInt8
  merchantPubkey : List UInt8

def Expected.sig (x : Expected) : VerifiedParty → List UInt8
  | .buyer => x.buyerSig
  | .merchant => x.merchantSig

def Expected.pubkey (x : Expected) : VerifiedParty → List UInt8
  | .buyer => x.buyerPubkey
  | .merchant => x.merchantPubkey

/-- Whose key this is; the buyer is asked first. -/
def Expected.partyOf (x : Expected) (pk : List UInt8) : Option VerifiedParty :=
  if pk = x.buyerPubkey then some .buyer
  else if pk = x.merchantPubkey then some .merchant
  else none

/-- The body of the loop over the header entries; `none` is `continue`. -/
def matchEntry (data : List UInt8) (x : Expected) (sigIdx : ℕ) : Option VerifiedParty :=
  let headerOffset := 2 + sigIdx * 14
  if data.length < headerOffset + 14 then none
  else
    let sigOffset := u16At data headerOffset
    let pubkeyOffset := u16At data (headerOffset + 4)
    let msgOffset := u16At data (headerOffset + 8)
    let msgSize := u16At data (headerOffset + 10)
    if data.length < pubkeyOffset + 32 then none
    else
      match x.partyOf (slice data pubkeyOffset 32) with
      | none => none
      | some party =>
        if data.length < sigOffset + 64 then none
        else if slice data sigOffset 64 ≠ x.sig party then none
        else if data.length < msgOffset + msgSize then none
        else if slice data msgOffset msgSize ≠ x.message then none
        else some party

/-- `verify_ed25519_for_pubkey`. -/
def verifyEd25519ForPubkey (ixSysvar : InstructionsSysvar) (ixIndex : ℕ) (x : Expected) :
    Except Error VerifiedParty := do
  let invalid := Error.code .invalidSignatureInstruction
  require (¬ ixIndex ≥ ixSysvar.loadCurrentIndex) invalid
  let instruction ← orErr (ixSysvar.loadInstructionAt ixIndex) invalid
  require (instruction.programId = ed25519ProgramId) invalid
  let data := instruction.data
  require (¬ data.length < 16) invalid
  let numSigs := (data.getD 0 0).toNat
  require (numSigs ≠ 0) invalid
  orErr ((List.range numSigs).findSome? (matchEntry data x)) invalid

/-! ### What a success says -/

theorem Expected.partyOf_eq_some {x : Expected} {pk : List UInt8} {p : VerifiedParty}
    (h : x.partyOf pk = some p) : pk = x.pubkey p := by
  unfold Expected.partyOf at h
  split at h
  · next hb =>
    rw [Option.some_inj] at h
    subst h
    exact hb
  · split at h
    · next hm =>
      rw [Option.some_inj] at h
      subst h
      exact hm
    · exact absurd h (by simp)

/-- A matched entry lies inside the data, and the bytes it points at there are
the party's key, its signature and the message. -/
theorem matchEntry_eq_some {data : List UInt8} {x : Expected} {k : ℕ} {p : VerifiedParty}
    (h : matchEntry data x k = some p) :
    (offsetsAt data k).signatureOffset + 64 ≤ data.length ∧
    (offsetsAt data k).publicKeyOffset + 32 ≤ data.length ∧
    (offsetsAt data k).messageDataOffset + (offsetsAt data k).messageDataSize ≤ data.length ∧
    slice data (offsetsAt data k).signatureOffset 64 = x.sig p ∧
    slice data (offsetsAt data k).publicKeyOffset 32 = x.pubkey p ∧
    slice data (offsetsAt data k).messageDataOffset (offsetsAt data k).messageDataSize
      = x.message := by
  -- Every early exit of the source is `none`; what it would have exited on is the negation.
  simp only [matchEntry] at h
  split at h
  · exact absurd h (by simp)
  split at h
  · exact absurd h (by simp)
  next hpk =>
  split at h
  · exact absurd h (by simp)
  next party hparty =>
  split at h
  · exact absurd h (by simp)
  next hsigLen =>
  split at h
  · exact absurd h (by simp)
  next hsig =>
  split at h
  · exact absurd h (by simp)
  next hmsgLen =>
  split at h
  · exact absurd h (by simp)
  next hmsg =>
  rw [Option.some_inj] at h
  subst h
  exact ⟨not_lt.mp hsigLen, not_lt.mp hpk, not_lt.mp hmsgLen, not_not.mp hsig,
    Expected.partyOf_eq_some hparty, not_not.mp hmsg⟩

/-- Entry `k` is the first one of the header that matches. -/
def FirstMatch (data : List UInt8) (x : Expected) (k : ℕ) (p : VerifiedParty) : Prop :=
  k < numSignatures data ∧ matchEntry data x k = some p ∧
    ∀ j < k, matchEntry data x j = none

theorem findSome_range_eq_some {α : Type} {f : ℕ → Option α} {n : ℕ} {a : α} :
    (List.range n).findSome? f = some a ↔
      ∃ k < n, f k = some a ∧ ∀ j < k, f j = none := by
  induction n with
  | zero => simp
  | succ n ih =>
    rw [List.range_succ, List.findSome?_append, Option.or_eq_some_iff, ih]
    simp only [List.findSome?_eq_none_iff, List.mem_range, List.findSome?_singleton]
    constructor
    · rintro (⟨k, hk, hf⟩ | ⟨hnone, hf⟩)
      · exact ⟨k, by omega, hf⟩
      · exact ⟨n, by omega, hf, hnone⟩
    · rintro ⟨k, hk, hf, hnone⟩
      rcases Nat.lt_succ_iff_lt_or_eq.mp hk with hlt | rfl
      · exact .inl ⟨k, hlt, hf, hnone⟩
      · exact .inr ⟨hnone, hf⟩

theorem verifyEd25519ForPubkey_eq_ok {s : InstructionsSysvar} {i : ℕ} {x : Expected}
    {p : VerifiedParty} :
    verifyEd25519ForPubkey s i x = .ok p ↔
      i < s.current ∧ ∃ ix, s.instructions[i]? = some ix ∧ ix.programId = ed25519ProgramId ∧
        16 ≤ ix.data.length ∧ ∃ k, FirstMatch ix.data x k p := by
  simp only [verifyEd25519ForPubkey, bind_eq_ok, require_eq_ok, orErr_eq_ok, exists_const,
    findSome_range_eq_some, InstructionsSysvar.loadCurrentIndex,
    InstructionsSysvar.loadInstructionAt, not_le, not_lt, ge_iff_le, FirstMatch, numSignatures]
  constructor
  · rintro ⟨hi, ix, hix, hid, hlen, -, k, hk⟩
    exact ⟨hi, ix, hix, hid, hlen, k, hk⟩
  · rintro ⟨hi, ix, hix, hid, hlen, k, hk⟩
    exact ⟨hi, ix, hix, hid, hlen, by omega, k, hk⟩

/-! ### When a success means a signature -/

/-- Whatever the precompile takes for a valid signature: if it accepted the
transaction, a party found at index `i` signed the expected message. -/
def IntrospectionSound (s : InstructionsSysvar) (i : ℕ) (x : Expected) : Prop :=
  ∀ valid, Verified valid s.instructions → ∀ p, verifyEd25519ForPubkey s i x = .ok p →
    ∃ sig, valid ⟨x.pubkey p, x.message, sig⟩

/-- Introspection is sound at an index exactly when the entry it matches there
claims no more than what the transaction's header entries designate, with
their instruction-index fields followed. -/
theorem introspectionSound_iff {s : InstructionsSysvar} {i : ℕ} {x : Expected}
    (hverified : ∃ valid, Verified valid s.instructions) (hi : i < s.current) :
    IntrospectionSound s i x ↔
      ∀ ix, s.instructions[i]? = some ix → ix.programId = ed25519ProgramId →
        16 ≤ ix.data.length → ∀ k p, FirstMatch ix.data x k p →
          ∃ sig, Signs s.instructions ⟨x.pubkey p, x.message, sig⟩ := by
  constructor
  · intro hsound ix hix hid hlen k p hk
    -- Under the least validity the precompile can have, valid means designated.
    obtain ⟨valid, hv⟩ := hverified
    have hok : verifyEd25519ForPubkey s i x = .ok p :=
      verifyEd25519ForPubkey_eq_ok.mpr ⟨hi, ix, hix, hid, hlen, k, hk⟩
    exact hsound _ hv.least p hok
  · intro hdesignated valid hv p hok
    obtain ⟨-, ix, hix, hid, hlen, k, hk⟩ := verifyEd25519ForPubkey_eq_ok.mp hok
    obtain ⟨sig, hsig⟩ := hdesignated ix hix hid hlen k p hk
    exact ⟨sig, hv.valid_of_signs hsig⟩

/-- An instruction whose entries all point into it is never misread. -/
theorem introspectionSound_of_selfReferencing {s : InstructionsSysvar} {i : ℕ} {x : Expected}
    (hself : ∀ ix, s.instructions[i]? = some ix → ∀ k < numSignatures ix.data,
      SelfReferencing (offsetsAt ix.data k) i) :
    IntrospectionSound s i x := by
  intro valid hv p hok
  obtain ⟨-, ix, hix, hid, -, k, hk, hmatch, -⟩ := verifyEd25519ForPubkey_eq_ok.mp hok
  obtain ⟨hsig, hpk, hmsg, -, hpkEq, hmsgEq⟩ := matchEntry_eq_some hmatch
  have hown : (s.instructions[i]?).map (·.data) = some ix.data := by rw [hix]; rfl
  have hd := designated_of_selfReferencing hown (hself ix hix k hk) hsig hpk hmsg
  rw [hpkEq, hmsgEq] at hd
  exact ⟨_, hv.valid_of_signs ⟨ix, List.mem_of_getElem? hix, hid, k, hk, hd⟩⟩

/-! ### A forged transaction -/

namespace Forged

def victim : Solana.Pubkey := fill 32 3
def attacker : Solana.Pubkey := fill 32 9
def message : Bytes 32 := fill 32 5
def fakeSignature : Bytes 64 := fill 64 3

/-- An instruction to some other program, whose data carries a signature of the
attacker where the header below points. -/
def carrier : Instruction where
  programId := fill 32 1
  accounts := []
  data := List.replicate 16 0 ++ (fill 64 4).val ++ attacker.val ++ message.val

/-- A precompile instruction whose three index fields name instruction 0, and
whose own data has the victim's key at the same offsets. -/
def spliced : Instruction where
  programId := ed25519ProgramId
  accounts := []
  data := [1, 0] ++ u16Le 16 ++ u16Le 0 ++ u16Le 80 ++ u16Le 0 ++ u16Le 112 ++ u16Le 32 ++ u16Le 0
    ++ fakeSignature.val ++ victim.val ++ message.val

/-- The settling instruction stands at index 2. -/
def sysvar : InstructionsSysvar where
  instructions := [carrier, spliced]
  current := 2

def expected : Expected where
  message := message.val
  buyerSig := fakeSignature.val
  merchantSig := (fill 64 0).val
  buyerPubkey := victim.val
  merchantPubkey := attacker.val

/-- Only the attacker's key ever signs. -/
def valid (m : SignedMessage) : Prop := m.publicKey = attacker.val

theorem verified : Verified valid sysvar.instructions := by
  intro ix hix hid
  simp only [sysvar, List.mem_cons, List.not_mem_nil, or_false] at hix
  rcases hix with rfl | rfl
  · exact absurd hid (by decide)
  · refine ⟨by decide +kernel, fun k hk => ?_⟩
    have hzero : k = 0 := Nat.lt_one_iff.mp hk
    subst hzero
    exact ⟨⟨attacker.val, message.val, (fill 64 4).val⟩, by decide +kernel, rfl⟩

theorem accepted : verifyEd25519ForPubkey sysvar 1 expected = .ok .buyer := by
  decide +kernel

end Forged

/-- The victim's key passes in a transaction the precompile accepts, although
it never signed anything. -/
theorem introspection_forged :
    ¬ ∀ (valid : SignedMessage → Prop) (s : InstructionsSysvar) (i : ℕ) (x : Expected),
      Verified valid s.instructions → i < s.current → ∀ p,
        verifyEd25519ForPubkey s i x = .ok p → ∃ sig, valid ⟨x.pubkey p, x.message, sig⟩ := by
  intro hsound
  obtain ⟨sig, hsig⟩ := hsound Forged.valid Forged.sysvar 1 Forged.expected Forged.verified
    (by decide) .buyer Forged.accepted
  exact absurd (show Forged.victim.val = Forged.attacker.val from hsig) (by decide)

/-- At the forged transaction the criterion of `introspectionSound_iff` can be
applied. -/
theorem introspectionSound_iff_forged :
    IntrospectionSound Forged.sysvar 1 Forged.expected ↔
      ∀ ix, Forged.sysvar.instructions[1]? = some ix → ix.programId = ed25519ProgramId →
        16 ≤ ix.data.length → ∀ k p, FirstMatch ix.data Forged.expected k p →
          ∃ sig, Signs Forged.sysvar.instructions
            ⟨Forged.expected.pubkey p, Forged.expected.message, sig⟩ :=
  introspectionSound_iff ⟨Forged.valid, Forged.verified⟩ (by decide)

end Mb
