/-
The bytes of the instructions sysvar.

They start with the number of instructions and a table of their offsets; the
instructions follow, each with its accounts, its program id and its data; the
index of the current instruction stands in the last two bytes.  All numbers are
`u16`, so what is read back is what was written if the bytes are fewer than
`2 ^ 16`.

* `u16At_table` — where the table says that an instruction starts;
* `u16At_accounts`, `slice_programId`, `u16At_dataLength`, `slice_data` — what is
  read there.
-/
import IgnitePay.Lib.Solana

namespace Solana

open Bytes

/-- The flags, `is_signer` in the low bit, and the key. -/
def AccountMeta.toBytes (m : AccountMeta) : List UInt8 :=
  UInt8.ofNat (m.isSigner.toNat + 2 * m.isWritable.toNat) :: m.pubkey.val

def Instruction.toBytes (ix : Instruction) : List UInt8 :=
  u16Le ix.accounts.length ++ (ix.accounts.flatMap AccountMeta.toBytes ++
    (ix.programId.val ++ (u16Le ix.data.length ++ ix.data)))

/-- The instructions, one after the other. -/
def instructionBytes (ixs : List Instruction) : List UInt8 := ixs.flatMap Instruction.toBytes

/-- Where they start, with the first at `start`. -/
def instructionStarts : ℕ → List Instruction → List ℕ
  | _, [] => []
  | start, ix :: ixs => start :: instructionStarts (start + ix.toBytes.length) ixs

/-- `construct_instructions_data`, with the current index. -/
def InstructionsSysvar.toBytes (s : InstructionsSysvar) : List UInt8 :=
  u16Le s.instructions.length ++
    ((instructionStarts (2 + 2 * s.instructions.length) s.instructions).flatMap u16Le ++
      (instructionBytes s.instructions ++ u16Le s.current))

section

variable {xs ys : List Instruction} {ix : Instruction}

theorem length_accountBytes (ms : List AccountMeta) :
    (ms.flatMap AccountMeta.toBytes).length = ms.length * 33 := by
  induction ms with
  | nil => rfl
  | cons m ms ih =>
    rw [List.flatMap_cons, List.length_append, ih, List.length_cons, AccountMeta.toBytes,
      List.length_cons, length_val]
    omega

theorem length_instructionStarts (start : ℕ) (ixs : List Instruction) :
    (instructionStarts start ixs).length = ixs.length := by
  induction ixs generalizing start with
  | nil => rfl
  | cons ix ixs ih => rw [instructionStarts, List.length_cons, ih, List.length_cons]

theorem length_flatMap_u16Le (ns : List ℕ) : (ns.flatMap u16Le).length = 2 * ns.length := by
  induction ns with
  | nil => rfl
  | cons n ns ih =>
    rw [List.flatMap_cons, List.length_append, ih, length_u16Le, List.length_cons]
    omega

/-- An instruction starts behind the bytes of those before it. -/
theorem instructionStarts_append (start : ℕ) :
    instructionStarts start (xs ++ ys)
      = instructionStarts start xs ++ instructionStarts (start + (instructionBytes xs).length) ys := by
  induction xs generalizing start with
  | nil => rfl
  | cons x xs ih =>
    rw [List.cons_append, instructionStarts, ih, instructionStarts, List.cons_append]
    simp only [instructionBytes, List.flatMap_cons, List.length_append, Nat.add_assoc]

theorem instructionBytes_append :
    instructionBytes (xs ++ ix :: ys)
      = instructionBytes xs ++ (ix.toBytes ++ instructionBytes ys) := by
  rw [instructionBytes, List.flatMap_append, List.flatMap_cons]
  rfl

/-- What stands before the instruction after `xs`, in the bytes of a sysvar. -/
def bytesBefore (xs : List Instruction) (ix : Instruction) (ys : List Instruction) : List UInt8 :=
  u16Le (xs ++ ix :: ys).length ++
    ((instructionStarts (2 + 2 * (xs ++ ix :: ys).length) (xs ++ ix :: ys)).flatMap u16Le ++
      instructionBytes xs)

theorem length_bytesBefore :
    (bytesBefore xs ix ys).length
      = 2 + 2 * (xs ++ ix :: ys).length + (instructionBytes xs).length := by
  simp only [bytesBefore, List.length_append, length_u16Le, length_flatMap_u16Le,
    length_instructionStarts]
  omega

/-- The fields of one instruction, and what stands around it. -/
theorem toBytes_eq (current : ℕ) :
    (InstructionsSysvar.mk (xs ++ ix :: ys) current).toBytes
      = bytesBefore xs ix ys ++ (u16Le ix.accounts.length ++
        (ix.accounts.flatMap AccountMeta.toBytes ++ (ix.programId.val ++
          (u16Le ix.data.length ++ (ix.data ++ (instructionBytes ys ++ u16Le current)))))) := by
  rw [InstructionsSysvar.toBytes, instructionBytes_append, bytesBefore, Instruction.toBytes]
  simp only [List.append_assoc]

theorem length_toBytes (current : ℕ) :
    (InstructionsSysvar.mk (xs ++ ix :: ys) current).toBytes.length
      = (bytesBefore xs ix ys).length + 2 + ix.accounts.length * 33 + 34 + ix.data.length
        + (instructionBytes ys).length + 2 := by
  rw [toBytes_eq]
  simp only [List.length_append, length_u16Le, length_accountBytes, length_val]
  omega

/-- The table holds the length of what stands before the instruction. -/
theorem u16At_table {current : ℕ} (hsmall : (bytesBefore xs ix ys).length < 2 ^ 16) :
    u16At (InstructionsSysvar.mk (xs ++ ix :: ys) current).toBytes (2 + 2 * xs.length)
      = (bytesBefore xs ix ys).length := by
  rw [length_bytesBefore] at hsmall ⊢
  rw [InstructionsSysvar.toBytes, u16At_append_right (by simp)]
  have hindex : 2 + 2 * xs.length
      - (u16Le (InstructionsSysvar.mk (xs ++ ix :: ys) current).instructions.length).length
      = 2 * xs.length := by
    rw [length_u16Le]
    omega
  rw [hindex, instructionStarts_append, List.flatMap_append, List.append_assoc,
    u16At_append_right (by rw [length_flatMap_u16Le, length_instructionStarts]),
    length_flatMap_u16Le, length_instructionStarts, Nat.sub_self, instructionStarts,
    List.flatMap_cons, List.append_assoc]
  exact u16At_u16Le hsmall _

/-! Reading the instruction back. -/

section Fields

variable {current : ℕ}

theorem u16At_count (h : (xs ++ ix :: ys).length < 2 ^ 16) :
    u16At (InstructionsSysvar.mk (xs ++ ix :: ys) current).toBytes 0 = (xs ++ ix :: ys).length :=
  u16At_u16Le h _

theorem u16At_current (h : current < 2 ^ 16) {s : InstructionsSysvar} (hs : s.current = current) :
    u16At s.toBytes (s.toBytes.length - 2) = current := by
  refine u16At_of_eq
    (a := u16Le s.instructions.length ++
      ((instructionStarts (2 + 2 * s.instructions.length) s.instructions).flatMap u16Le ++
        instructionBytes s.instructions)) (c := []) ?_ ?_ h
  · simp only [InstructionsSysvar.toBytes, hs, List.append_assoc, List.append_nil]
  · simp only [InstructionsSysvar.toBytes, List.length_append, length_u16Le]
    omega

theorem u16At_accounts (h : ix.accounts.length < 2 ^ 16) :
    u16At (InstructionsSysvar.mk (xs ++ ix :: ys) current).toBytes (bytesBefore xs ix ys).length
      = ix.accounts.length :=
  u16At_of_eq (toBytes_eq current) rfl h

theorem slice_programId :
    slice (InstructionsSysvar.mk (xs ++ ix :: ys) current).toBytes
      ((bytesBefore xs ix ys).length + 2 + ix.accounts.length * 33) 32 = ix.programId.val := by
  refine slice_of_eq (a := bytesBefore xs ix ys ++ (u16Le ix.accounts.length ++
    ix.accounts.flatMap AccountMeta.toBytes))
    (c := u16Le ix.data.length ++ (ix.data ++ (instructionBytes ys ++ u16Le current)))
    ?_ ?_ (length_val _).symm
  · simp only [toBytes_eq, List.append_assoc]
  · simp only [List.length_append, length_u16Le, length_accountBytes]
    omega

theorem u16At_dataLength (h : ix.data.length < 2 ^ 16) :
    u16At (InstructionsSysvar.mk (xs ++ ix :: ys) current).toBytes
      ((bytesBefore xs ix ys).length + 2 + ix.accounts.length * 33 + 32) = ix.data.length := by
  refine u16At_of_eq (a := bytesBefore xs ix ys ++ (u16Le ix.accounts.length ++
    (ix.accounts.flatMap AccountMeta.toBytes ++ ix.programId.val)))
    (c := ix.data ++ (instructionBytes ys ++ u16Le current)) ?_ ?_ h
  · simp only [toBytes_eq, List.append_assoc]
  · simp only [List.length_append, length_u16Le, length_accountBytes, length_val]
    omega

theorem slice_data :
    slice (InstructionsSysvar.mk (xs ++ ix :: ys) current).toBytes
      ((bytesBefore xs ix ys).length + 2 + ix.accounts.length * 33 + 34) ix.data.length
      = ix.data := by
  refine slice_of_eq (a := bytesBefore xs ix ys ++ (u16Le ix.accounts.length ++
    (ix.accounts.flatMap AccountMeta.toBytes ++ (ix.programId.val ++ u16Le ix.data.length))))
    (c := instructionBytes ys ++ u16Le current) ?_ ?_ rfl
  · simp only [toBytes_eq, List.append_assoc]
  · simp only [List.length_append, length_u16Le, length_accountBytes, length_val]
    omega

end Fields

end

end Solana
