/-
The execution of a legacy transaction.

A cluster takes a transaction whose message is well formed, which names a recent blockhash and which
every required key signed.  It charges the fee to the first key and then runs the instructions one
after the other; if one fails, only the fee is charged.

What programs may do is a law of the runtime (`Programs.unsigned`): a wallet loses no lamports and
no tokens by an instruction that is not handed its key as a signer, unless it has let somebody else
dispose of them.

* `runAll_keeps` — so it does by a list of instructions none of which is handed its key;
* `process_keeps` — and by a whole transaction, the fee apart.
-/
import IgnitePay.Lib.LegacyTransaction

namespace Solana.Legacy

open Bytes

/-- Lamports and tokens, the latter by owner and mint, and who has approved a delegate. -/
structure Ledger where
  lamports : Pubkey → ℕ
  tokens : Pubkey → Pubkey → ℕ
  delegated : Pubkey → Bool

/-- A ledger has at least what another has for a key, which has approved no delegate. -/
structure Keeps (key : Pubkey) (before after : Ledger) : Prop where
  lamports : before.lamports key ≤ after.lamports key
  tokens : ∀ mint, before.tokens key mint ≤ after.tokens key mint
  delegated : after.delegated key = false

/-- No account that an instruction is handed is the key as a signer. -/
def Unsigned (key : Pubkey) (accounts : List AccountMeta) : Prop :=
  ∀ m ∈ accounts, m.pubkey = key → m.isSigner = false

/-- The programs of a cluster. -/
structure Programs where
  /-- A key that the System Program owns, and that no program signs for. -/
  isWallet : Pubkey → Prop
  run : Pubkey → List AccountMeta → List UInt8 → Ledger → Option Ledger
  unsigned {key program : Pubkey} {accounts : List AccountMeta} {data : List UInt8} {l l' : Ledger} :
    run program accounts data l = some l' → isWallet key → l.delegated key = false →
      Unsigned key accounts → Keeps key l l'

structure Cluster extends Programs where
  ed : Ed25519
  isRecent : Bytes 32 → Bool
  fee : Message → ℕ

theorem Keeps.refl {key : Pubkey} {l : Ledger} (h : l.delegated key = false) : Keeps key l l :=
  ⟨le_refl _, fun _ => le_refl _, h⟩

theorem Keeps.trans {key : Pubkey} {l l' l'' : Ledger} (h : Keeps key l l') (h' : Keeps key l' l'') :
    Keeps key l l'' :=
  ⟨h.lamports.trans h'.lamports, fun mint => (h.tokens mint).trans (h'.tokens mint), h'.delegated⟩

/-! ### Instructions -/

/-- One instruction of a message. -/
def runInstruction (p : Programs) (m : Message) (ix : CompiledInstruction) (l : Ledger) :
    Option Ledger := do
  let program ← m.programOf ix
  let accounts ← m.accountsOf ix
  p.run program accounts ix.data l

/-- Instructions one after the other. -/
def runAll (p : Programs) (m : Message) : List CompiledInstruction → Ledger → Option Ledger
  | [], l => some l
  | ix :: ixs, l => (runInstruction p m ix l).bind (runAll p m ixs)

/-- No instruction is handed the key as a signer. -/
def NoAuthority (m : Message) (key : Pubkey) : Prop :=
  ∀ ix ∈ m.instructions, ∀ accounts, m.accountsOf ix = some accounts → Unsigned key accounts

theorem runAll_keeps {p : Programs} {m : Message} {key : Pubkey} (hwallet : p.isWallet key)
    {ixs : List CompiledInstruction}
    (hunsigned : ∀ ix ∈ ixs, ∀ accounts, m.accountsOf ix = some accounts → Unsigned key accounts)
    {l l' : Ledger} (hdelegated : l.delegated key = false) (h : runAll p m ixs l = some l') :
    Keeps key l l' := by
  induction ixs generalizing l with
  | nil =>
    obtain rfl := Option.some.inj h
    exact .refl hdelegated
  | cons ix ixs ih =>
    obtain ⟨l₁, hone, hrest⟩ := Option.bind_eq_some_iff.mp h
    obtain ⟨program, -, hone⟩ := Option.bind_eq_some_iff.mp hone
    obtain ⟨accounts, haccounts, hone⟩ := Option.bind_eq_some_iff.mp hone
    have hstep := p.unsigned hone hwallet hdelegated (hunsigned ix List.mem_cons_self accounts haccounts)
    exact hstep.trans (ih (fun ix hix => hunsigned ix (List.mem_cons_of_mem _ hix)) hstep.delegated hrest)

/-! ### Transactions -/

/-- What a message must be for a cluster to run it. -/
def Message.WellFormed (m : Message) : Prop := m.Sane ∧ m.accountKeys.Nodup

instance (m : Message) : Decidable m.WellFormed := inferInstanceAs (Decidable (_ ∧ _))

instance (ed : Ed25519) (tx : Transaction) : Decidable (tx.Verifies ed) :=
  inferInstanceAs (Decidable (_ ∧ _))

/-- The fee is taken from the first key. -/
def charge (payer : Pubkey) (fee : ℕ) (l : Ledger) : Ledger :=
  { l with lamports := fun key => if key = payer then l.lamports key - fee else l.lamports key }

/-- `none` if the cluster does not take the transaction. -/
def process (c : Cluster) (tx : Transaction) (l : Ledger) : Option Ledger :=
  if tx.message.WellFormed ∧ tx.Verifies c.ed ∧ c.isRecent tx.message.recentBlockhash = true then
    tx.message.accountKeys.head?.bind fun payer =>
      if c.fee tx.message ≤ l.lamports payer then
        let charged := charge payer (c.fee tx.message) l
        some ((runAll c.toPrograms tx.message tx.message.instructions charged).getD charged)
      else none
  else none

theorem wellFormed_of_process {c : Cluster} {tx : Transaction} {l l' : Ledger}
    (h : process c tx l = some l') : tx.message.WellFormed := by
  rw [process] at h
  split at h
  · next hok => exact hok.1
  · exact absurd h (by simp)

/-- A transaction that hands no instruction a wallet's key as a signer takes no more from it than
the fee. -/
theorem process_keeps {c : Cluster} {tx : Transaction} {key : Pubkey} (hwallet : c.isWallet key)
    (hauthority : NoAuthority tx.message key) {l l' : Ledger} (hdelegated : l.delegated key = false)
    (h : process c tx l = some l') :
    l.lamports key ≤ l'.lamports key + c.fee tx.message ∧
      ∀ mint, l.tokens key mint ≤ l'.tokens key mint := by
  rw [process] at h
  split at h
  · obtain ⟨payer, -, h⟩ := Option.bind_eq_some_iff.mp h
    split at h
    · obtain rfl := Option.some.inj h
      set charged := charge payer (c.fee tx.message) l with hcharged
      have hfee : l.lamports key ≤ charged.lamports key + c.fee tx.message := by
        simp only [hcharged, charge]
        split <;> omega
      have hkeeps : Keeps key charged
          ((runAll c.toPrograms tx.message tx.message.instructions charged).getD charged) := by
        rcases hrun : runAll c.toPrograms tx.message tx.message.instructions charged with _ | after
        · exact .refl hdelegated
        · exact runAll_keeps hwallet hauthority hdelegated hrun
      have hlamports := hkeeps.lamports
      exact ⟨by omega, hkeeps.tokens⟩
    · exact absurd h (by simp)
  · exact absurd h (by simp)

end Solana.Legacy
