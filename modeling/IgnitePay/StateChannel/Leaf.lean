/-
The leaves of the state channel (`types.rs`) and their borsh encoding.

A leaf is written as its type (one byte), its owner (32 bytes) and its amount
(8 bytes), so these three stand at fixed offsets.  After byte 41 come three
options, each one byte 0, or one byte 1 and the value; where the second and the
third of them start depends on what is before them.

* `UTXOLeaf.toVec_inj` — the encoding determines the leaf;
* `UTXOLeaf.length_toVec_ne` — and is never as long as a pair of hashes.
-/
import IgnitePay.Lib.Solana

namespace StateChannel

open Bytes Solana

inductive LeafType
  | standard
  | htlc
  | compliance
deriving DecidableEq, Repr

/-- The variant's byte in borsh. -/
def LeafType.toByte : LeafType → UInt8
  | .standard => 0
  | .htlc => 1
  | .compliance => 2

theorem LeafType.toByte_inj {t t' : LeafType} (h : t.toByte = t'.toByte) : t = t' := by
  cases t <;> cases t' <;> first | rfl | exact absurd h (by decide)

/-- An option in borsh. -/
def optionToVec {α : Type} (enc : α → List UInt8) : Option α → List UInt8
  | none => [0]
  | some a => 1 :: enc a

structure UTXOLeaf where
  leafType : LeafType
  owner : Pubkey
  amount : UInt64
  /-- SHA-256 of the preimage, for HTLC leaves. -/
  hashLock : Option (Bytes 32)
  /-- Slot after which an HTLC can be refunded. -/
  timelockSlot : Option UInt64
  /-- Intended recipient of an HTLC. -/
  beneficiary : Option Pubkey
deriving DecidableEq

namespace UTXOLeaf

def standard (owner : Pubkey) (amount : UInt64) : UTXOLeaf :=
  ⟨.standard, owner, amount, none, none, none⟩

def htlc (owner : Pubkey) (amount : UInt64) (hashLock : Bytes 32) (timelockSlot : UInt64)
    (beneficiary : Pubkey) : UTXOLeaf :=
  ⟨.htlc, owner, amount, some hashLock, some timelockSlot, some beneficiary⟩

/-- The zero-amount leaf that pads a tree. -/
def empty : UTXOLeaf := ⟨.standard, defaultPubkey, 0, none, none, none⟩

/-- What follows the amount. -/
def optionsToVec (l : UTXOLeaf) : List UInt8 :=
  optionToVec (fun h : Bytes 32 => h.val) l.hashLock ++
    (optionToVec u64Le l.timelockSlot ++
      optionToVec (fun k : Pubkey => k.val) l.beneficiary)

/-- `borsh::to_vec(leaf)`. -/
def toVec (l : UTXOLeaf) : List UInt8 :=
  [l.leafType.toByte] ++ (l.owner.val ++ (u64Le l.amount ++ l.optionsToVec))

/-- `UTXOLeaf::hash`. -/
def hash (sha : List UInt8 → Bytes 32) (l : UTXOLeaf) : Bytes 32 := sha l.toVec

end UTXOLeaf

/-! ### Reading an encoding back -/

/-- Options of fixed-width values are prefix free. -/
theorem optionToVec_append_inj {α : Type} {enc : α → List UInt8} {n : ℕ}
    (hlen : ∀ a, (enc a).length = n) (hinj : ∀ a b, enc a = enc b → a = b) {o o' : Option α}
    {s s' : List UInt8} (h : optionToVec enc o ++ s = optionToVec enc o' ++ s') :
    o = o' ∧ s = s' := by
  cases o with
  | none =>
    cases o' with
    | none => exact ⟨rfl, by simpa [optionToVec] using h⟩
    | some b => exact absurd h (by simp [optionToVec])
  | some a =>
    cases o' with
    | none => exact absurd h (by simp [optionToVec])
    | some b =>
      simp only [optionToVec, List.cons_append, List.cons.injEq, true_and] at h
      obtain ⟨henc, hs⟩ := List.append_inj h (by rw [hlen, hlen])
      exact ⟨congrArg some (hinj a b henc), hs⟩

theorem bytesOption_append_inj {o o' : Option (Bytes 32)} {s s' : List UInt8}
    (h : optionToVec (fun b : Bytes 32 => b.val) o ++ s
      = optionToVec (fun b : Bytes 32 => b.val) o' ++ s') : o = o' ∧ s = s' :=
  optionToVec_append_inj (fun b => b.property) (fun _ _ h => Subtype.ext h) h

theorem u64Option_append_inj {o o' : Option UInt64} {s s' : List UInt8}
    (h : optionToVec u64Le o ++ s = optionToVec u64Le o' ++ s') : o = o' ∧ s = s' :=
  optionToVec_append_inj length_u64Le (fun _ _ h => u64Le_inj h) h

theorem bytesOption_inj {o o' : Option (Bytes 32)}
    (h : optionToVec (fun b : Bytes 32 => b.val) o = optionToVec (fun b : Bytes 32 => b.val) o') :
    o = o' := by
  refine (@bytesOption_append_inj o o' [] [] ?_).1
  rw [List.append_nil, List.append_nil, h]

theorem length_bytesOption (o : Option (Bytes 32)) :
    (optionToVec (fun b : Bytes 32 => b.val) o).length = 1 ∨
      (optionToVec (fun b : Bytes 32 => b.val) o).length = 33 := by
  cases o with
  | none => exact .inl rfl
  | some b => exact .inr (by simp [optionToVec])

theorem length_u64Option (o : Option UInt64) :
    (optionToVec u64Le o).length = 1 ∨ (optionToVec u64Le o).length = 9 := by
  cases o with
  | none => exact .inl rfl
  | some x => exact .inr (by simp [optionToVec])

namespace UTXOLeaf

theorem optionsToVec_inj {l l' : UTXOLeaf} (h : l.optionsToVec = l'.optionsToVec) :
    l.hashLock = l'.hashLock ∧ l.timelockSlot = l'.timelockSlot ∧
      l.beneficiary = l'.beneficiary := by
  obtain ⟨hlock, h⟩ := bytesOption_append_inj h
  obtain ⟨htime, h⟩ := u64Option_append_inj h
  exact ⟨hlock, htime, bytesOption_inj h⟩

theorem toVec_inj {l l' : UTXOLeaf} (h : l.toVec = l'.toVec) : l = l' := by
  obtain ⟨htype, h⟩ := List.append_inj h rfl
  obtain ⟨howner, h⟩ := List.append_inj h (by simp)
  obtain ⟨hamount, h⟩ := List.append_inj h (by simp)
  obtain ⟨hlock, htime, hben⟩ := optionsToVec_inj h
  cases l
  cases l'
  simp only [UTXOLeaf.mk.injEq]
  exact ⟨LeafType.toByte_inj (List.singleton_inj.mp htype), Subtype.ext howner, u64Le_inj hamount,
    hlock, htime, hben⟩

theorem length_toVec (l : UTXOLeaf) : l.toVec.length = 41 + l.optionsToVec.length := by
  simp only [toVec, List.length_append, List.length_singleton, length_val, length_u64Le]
  omega

/-- A leaf is never encoded on 64 bytes, the length of a pair of hashes. -/
theorem length_toVec_ne (l : UTXOLeaf) : l.toVec.length ≠ 64 := by
  have hlock := length_bytesOption l.hashLock
  have htime := length_u64Option l.timelockSlot
  have hben := length_bytesOption l.beneficiary
  rw [length_toVec, optionsToVec, List.length_append, List.length_append]
  rcases hlock with h1 | h1 <;> rcases htime with h2 | h2 <;> rcases hben with h3 | h3 <;>
    rw [h1, h2, h3] <;> decide

/-! The fixed offsets. -/

theorem slice_owner (l : UTXOLeaf) : slice l.toVec 1 32 = l.owner.val := by
  rw [toVec, slice_append_right (by simp), slice_append_left (by simp)]
  exact slice_zero_of_length l.owner.property

theorem slice_amount (l : UTXOLeaf) : slice l.toVec 33 8 = u64Le l.amount := by
  rw [toVec, slice_append_right (by simp), slice_append_right (by simp),
    slice_append_left (by simp)]
  have hstart : 33 - [l.leafType.toByte].length - l.owner.val.length = 0 := by simp
  rw [hstart]
  exact slice_zero_of_length (length_u64Le l.amount)

theorem drop_toVec (l : UTXOLeaf) : l.toVec.drop 41 = l.optionsToVec := by
  rw [toVec, ← List.append_assoc, ← List.append_assoc]
  exact List.drop_left' (by simp)

end UTXOLeaf

end StateChannel
