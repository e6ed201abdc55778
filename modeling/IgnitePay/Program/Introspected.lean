/-
Signature introspection on real transactions (`lib.rs`).

The program parses the bytes of the instructions sysvar by hand.  On the bytes
of a transaction it reads each instruction as it was written, and so finds a
signature exactly where an instruction before the current one is addressed to
its constant and carries one entry for the key and the message.

* `introspection_exact` — on any bytes the parser stays in bounds, and on those
  of a transaction it finds what the transaction holds.
-/
import IgnitePay.Program.Builders

namespace Program

open Bytes Machine Solana

/-- An instruction before the current one is addressed to the program's Ed25519
id and its data is one entry, pointing into itself, for the key and the message. -/
def Introspected (s : InstructionsSysvar) (publicKey : Pubkey) (message : List UInt8) : Prop :=
  ∃ i, i < s.current ∧ ∃ ix, s.instructions[i]? = some ix ∧ ix.programId = ed25519ProgramId ∧
    SingleEntry ix.data publicKey.val message

section

variable {s : InstructionsSysvar} {data publicKey message : List UInt8} {current : ℕ}

theorem readCurrentIxIndex_ne_panic : readCurrentIxIndex data ≠ .error .panic := by
  unfold readCurrentIxIndex
  by_cases h2 : data.length < 2
  · rw [require, if_neg (not_not.mpr h2)]
    intro h
    cases h
  · rw [require_bind h2, readU16_eq (by omega)]
    intro h
    cases h

/-- With any index for the current one, also one that the bytes do not hold. -/
theorem verifyEd25519SignatureIntrospection_ne_panic :
    verifyEd25519SignatureIntrospection data publicKey message current ≠ .error .panic := by
  unfold verifyEd25519SignatureIntrospection
  by_cases h4 : data.length < 4
  · rw [require, if_neg (not_not.mpr h4)]
    intro h
    cases h
  · rw [require_bind h4, readU16_eq (by omega)]
    show scanInstructions data publicKey message current (u16At data 0) 0 ≠ _
    rw [scanInstructions_eq]
    split
    · intro h
      cases h
    · intro h
      cases h

/-- A list, split at one of its entries. -/
theorem exists_split {α : Type} {l : List α} {i : ℕ} {a : α} (h : l[i]? = some a) :
    ∃ xs ys, l = xs ++ a :: ys ∧ xs.length = i := by
  obtain ⟨hi, rfl⟩ := List.getElem?_eq_some_iff.mp h
  refine ⟨l.take i, l.drop (i + 1), ?_, ?_⟩
  · rw [List.cons_getElem_drop_succ, List.take_append_drop]
  · rw [List.length_take, Nat.min_eq_left hi.le]

/-- What the program reads at an index of the table is the instruction there. -/
theorem instructionAt_iff {i : ℕ} {ix : Instruction} {ixData : List UInt8}
    (hsmall : s.toBytes.length < 2 ^ 16) (hix : s.instructions[i]? = some ix) :
    InstructionAt s.toBytes i ixData ↔ ix.programId = ed25519ProgramId ∧ ixData = ix.data := by
  obtain ⟨xs, ys, hsplit, rfl⟩ := exists_split hix
  obtain ⟨ixs, current⟩ := s
  subst hsplit
  exact instructionAt_toBytes_iff hsmall

theorem length_le_toBytes : s.instructions.length ≤ s.toBytes.length := by
  simp only [InstructionsSysvar.toBytes, List.length_append, length_flatMap_u16Le,
    length_instructionStarts]
  omega

theorem record_toBytes_iff {publicKey : Pubkey} (hcurrent : s.current < 2 ^ 16)
    (hsmall : s.toBytes.length < 2 ^ 16) :
    Record s.toBytes publicKey.val message ↔ Introspected s publicKey message := by
  have hcount : u16At s.toBytes 0 = s.instructions.length :=
    u16At_u16Le (lt_of_le_of_lt length_le_toBytes hsmall) _
  have hlast : u16At s.toBytes (s.toBytes.length - 2) = s.current := u16At_current hcurrent rfl
  unfold Record Introspected
  rw [hcount, hlast]
  constructor
  · rintro ⟨i, hi, hlt, ixData, hat, hentry⟩
    have hix := List.getElem?_eq_getElem hi
    obtain ⟨hid, rfl⟩ := (instructionAt_iff hsmall hix).mp hat
    exact ⟨i, hlt, _, hix, hid, hentry⟩
  · rintro ⟨i, hlt, ix, hix, hid, hentry⟩
    obtain ⟨hi, -⟩ := List.getElem?_eq_some_iff.mp hix
    exact ⟨i, hi, hlt, ix.data, (instructionAt_iff hsmall hix).mpr ⟨hid, rfl⟩, hentry⟩

end

/-- The parser reads no byte out of range; and on the bytes of a transaction it
finds a signature exactly where the transaction holds one, in particular a built one. -/
theorem introspection_exact :
    (∀ data : List UInt8, readCurrentIxIndex data ≠ .error .panic ∧
      ∀ (publicKey message : List UInt8) (current : ℕ),
        verifyEd25519SignatureIntrospection data publicKey message current ≠ .error .panic) ∧
    ∀ s : InstructionsSysvar, s.current < 2 ^ 16 → s.toBytes.length < 2 ^ 16 →
      ∀ (publicKey : Pubkey) (message : List UInt8),
        (checkSignature s.toBytes publicKey message = .ok () ↔ Introspected s publicKey message) ∧
        ∀ signature, buildEd25519Ix publicKey message signature ∈ s.instructions.take s.current →
          checkSignature s.toBytes publicKey message = .ok () := by
  refine ⟨fun data => ⟨readCurrentIxIndex_ne_panic, fun _ _ _ =>
    verifyEd25519SignatureIntrospection_ne_panic⟩, fun s hcurrent hsmall publicKey message => ?_⟩
  have hiff : checkSignature s.toBytes publicKey message = .ok () ↔
      Introspected s publicKey message :=
    checkSignature_eq_ok.trans (record_toBytes_iff hcurrent hsmall)
  refine ⟨hiff, fun signature hbuilt => hiff.mpr ?_⟩
  obtain ⟨i, hi, hix⟩ := List.mem_iff_getElem.mp hbuilt
  rw [List.length_take] at hi
  rw [List.getElem_take] at hix
  -- A built instruction is part of the bytes, so its message is as short as they are.
  have hget : s.instructions[i]? = some (buildEd25519Ix publicKey message signature) := by
    rw [← hix]
    exact List.getElem?_eq_getElem _
  have hmessage : message.length < 2 ^ 16 := by
    obtain ⟨xs, ys, hsplit, -⟩ := exists_split hget
    obtain ⟨ixs, current⟩ := s
    subst hsplit
    have hlength := @length_toBytes xs ys (buildEd25519Ix publicKey message signature) current
    have hbuilt := @length_built publicKey message signature
    omega
  exact ⟨i, by omega, _, hget, rfl, singleEntry_built hmessage⟩

/-- One signature instruction, in front of the one that asks for it. -/
theorem introspection_exact_one :
    checkSignature
      (InstructionsSysvar.mk [buildEd25519Ix (fill 32 7) [1, 2, 3] (fill 64 9)] 1).toBytes
      (fill 32 7) [1, 2, 3] = .ok () :=
  (introspection_exact.2 (.mk [buildEd25519Ix (fill 32 7) [1, 2, 3] (fill 64 9)] 1)
    (by decide) (by decide +kernel) (fill 32 7) [1, 2, 3]).2 (fill 64 9) List.mem_cons_self

end Program
