/-
What the relayer's signature costs it, and what it leaves of the client's.

The relayer signs whatever names it as the fee payer.  Its key is the first of the message and
therefore a signer: an instruction that lists the index 0 is handed its authority, and may move its
lamports and tokens.  And it signs over the latest blockhash: when that is not the one that the
client signed over, the client's signature is gone.

* `noAuthority_iff` — a well-formed message hands out the fee payer's authority exactly if one of
  its instructions lists the index 0;
* `keepsSignatures_iff` — the client's signatures stay exactly if the blockhash does;
* `sponsorship_iff` — together: when what is sent costs only the fee and is still signed.
-/
import IgnitePay.Relayer.State

namespace Relayer

open Agent (encodeBase58 decodeBase58_encodeBase58)
open Bytes Solana Legacy

/-! ### The two promises -/

/-- What is sent hands nobody the key's authority, and takes no more than the fee from it. -/
structure CostsOnlyFee (c : Cluster) (key : Pubkey) (sent : Legacy.Transaction) : Prop where
  authority : sent.message.WellFormed → NoAuthority sent.message key
  debit : ∀ l l', l.delegated key = false → process c sent l = some l' →
    l.lamports key ≤ l'.lamports key + c.fee sent.message ∧
      ∀ mint, l.tokens key mint ≤ l'.tokens key mint

/-- The `i`-th required key is `other`, and it signed the message. -/
def SignedBy (ed : Ed25519) (tx : Legacy.Transaction) (i : ℕ) (other : Pubkey) : Prop :=
  tx.message.signerKeys[i]? = some other ∧
    ∃ s, tx.signatures[i]? = some s ∧ ed.verify other tx.message.serialize s = true

/-- Whoever else signed what was submitted, while its blockhash is recent, signed what is sent. -/
def KeepsSignatures (c : Cluster) (key : Pubkey) (tx sent : Legacy.Transaction) : Prop :=
  c.isRecent tx.message.recentBlockhash = true →
    ∀ i other, other ≠ key → SignedBy c.ed tx i other → SignedBy c.ed sent i other

/-! ### The conditions -/

/-- Some instruction lists the fee payer among its accounts. -/
def NamesFeePayer (m : Message) : Prop := ∃ ix ∈ m.instructions, (0 : UInt8) ∈ ix.accounts

/-- The submission uses the relayer to pay the fee and for nothing else, and if its blockhash is
recent it is the latest, or nobody else has signed. -/
def PaysOnly (c : Cluster) (key : Pubkey) (latest : Bytes 32) (tx : Legacy.Transaction) : Prop :=
  (tx.message.WellFormed → ¬NamesFeePayer tx.message) ∧
    (c.isRecent tx.message.recentBlockhash = true → latest = tx.message.recentBlockhash ∨
      ∀ i other, other ≠ key → ¬SignedBy c.ed tx i other)

/-! ### Authority -/

section

variable {m : Message} {key : Pubkey}

/-- With distinct keys the fee payer's stands nowhere but in front. -/
theorem eq_zero_of_accountAt (hdistinct : m.accountKeys.Nodup) (hfirst : m.accountKeys.head? = some key)
    {i : UInt8} {a : AccountMeta} (h : m.accountAt i.toNat = some a) (hkey : a.pubkey = key) : i = 0 := by
  obtain ⟨k, hk, rfl⟩ := Option.map_eq_some_iff.mp h
  have hk' : m.accountKeys[i.toNat]? = some key := hkey ▸ hk
  have hzero : m.accountKeys[0]? = some key := by rw [← List.head?_eq_getElem?, hfirst]
  obtain ⟨hlt, -⟩ := List.getElem?_eq_some_iff.mp hk'
  have hindex := (List.getElem?_inj hlt hdistinct).mp (hk'.trans hzero.symm)
  exact UInt8.toNat_inj.mp hindex

theorem noAuthority_iff (hwell : m.WellFormed) (hfirst : m.accountKeys.head? = some key) :
    NoAuthority m key ↔ ¬NamesFeePayer m := by
  constructor
  · rintro h ⟨ix, hix, hzero⟩
    obtain ⟨accounts, haccounts⟩ := Option.isSome_iff_exists.mp (hwell.1.accountsOf_isSome hix)
    have hat : m.accountAt 0 = some ⟨key, m.isSigner 0, m.isWritable 0⟩ := by
      rw [Message.accountAt, ← List.head?_eq_getElem?, hfirst, Option.map_some]
    have hmem := (Message.mem_of_accountsOf haccounts).mpr ⟨0, hzero, hat⟩
    -- The fee payer signs: the header asks for more signers than are read only.
    have hsigner : m.isSigner 0 = true := by
      have hlt := UInt8.lt_iff_toNat_lt.mp hwell.1.2.1
      rw [Message.isSigner, decide_eq_true_eq]
      omega
    exact absurd (h ix hix accounts haccounts _ hmem rfl) (by simp [hsigner])
  · intro h ix hix accounts haccounts a ha hkey
    obtain ⟨i, hi, hat⟩ := (Message.mem_of_accountsOf haccounts).mp ha
    obtain rfl := eq_zero_of_accountAt hwell.2 hfirst hat hkey
    exact absurd ⟨ix, hix, hi⟩ h

end

/-! ### What is sent -/

section

/-- The transaction that goes out for a submission. -/
abbrev sentFor (c : Cluster) (secret latest : Bytes 32) (tx : Legacy.Transaction) :
    Legacy.Transaction := signAt c.ed secret 0 (withBlockhash latest tx)

variable (c : Cluster) (secret latest : Bytes 32) (tx : Legacy.Transaction)

theorem wellFormed_sentFor : (sentFor c secret latest tx).message.WellFormed ↔ tx.message.WellFormed := by
  simp only [Message.WellFormed, Message.Sane, message_signAt, accountKeys_withBlockhash,
    instructions_withBlockhash, header_withBlockhash]

theorem namesFeePayer_sentFor : NamesFeePayer (sentFor c secret latest tx).message ↔
    NamesFeePayer tx.message := by
  rw [NamesFeePayer, NamesFeePayer, message_signAt, instructions_withBlockhash]

variable {c secret latest tx}

theorem costsOnlyFee_iff (hwallet : c.isWallet (c.ed.publicKey secret))
    (hfirst : tx.message.accountKeys.head? = some (c.ed.publicKey secret)) :
    CostsOnlyFee c (c.ed.publicKey secret) (sentFor c secret latest tx) ↔
      (tx.message.WellFormed → ¬NamesFeePayer tx.message) := by
  have hfirst' : (sentFor c secret latest tx).message.accountKeys.head? = some (c.ed.publicKey secret) := by
    rw [message_signAt, accountKeys_withBlockhash, hfirst]
  rw [← wellFormed_sentFor c secret latest, ← namesFeePayer_sentFor c secret latest]
  constructor
  · intro h hwell
    exact (noAuthority_iff hwell hfirst').mp (h.authority hwell)
  · intro h
    have hauthority : (sentFor c secret latest tx).message.WellFormed →
        NoAuthority (sentFor c secret latest tx).message (c.ed.publicKey secret) :=
      fun hwell => (noAuthority_iff hwell hfirst').mpr (h hwell)
    refine ⟨hauthority, ?_⟩
    intro l l' hdelegated hprocess
    exact process_keeps hwallet (hauthority (wellFormed_of_process hprocess)) hdelegated hprocess

theorem keepsSignatures_iff (hdefault : ∀ key text, c.ed.verify key text (fill 64 0) = false)
    (hfirst : tx.message.accountKeys.head? = some (c.ed.publicKey secret)) :
    KeepsSignatures c (c.ed.publicKey secret) tx (sentFor c secret latest tx) ↔
      (c.isRecent tx.message.recentBlockhash = true → latest = tx.message.recentBlockhash ∨
        ∀ i other, other ≠ c.ed.publicKey secret → ¬SignedBy c.ed tx i other) := by
  -- Who is not the fee payer stands behind the first place.
  have hbehind : ∀ {i other}, other ≠ c.ed.publicKey secret →
      tx.message.signerKeys[i]? = some other → 0 < i := by
    intro i other hne hother
    rcases i with _ | i
    · rw [Message.signerKeys, ← List.head?_eq_getElem?, List.head?_take] at hother
      split at hother
      · exact absurd hother (by simp)
      · rw [hfirst] at hother
        exact absurd (Option.some.inj hother).symm hne
    · exact Nat.succ_pos i
  constructor
  · intro h hrecent
    rw [or_iff_not_imp_left]
    intro hhash i other hne hsigned
    obtain ⟨-, s, hs, hverify⟩ := h hrecent i other hne hsigned
    rw [signature_of_signed (hbehind hne hsigned.1), if_neg hhash] at hs
    obtain ⟨-, -, rfl⟩ := Option.map_eq_some_iff.mp hs
    rw [hdefault] at hverify
    exact absurd hverify (by simp)
  · intro h hrecent i other hne hsigned
    rcases h hrecent with hhash | hnobody
    · obtain ⟨hother, s, hs, hverify⟩ := hsigned
      have hsame : withBlockhash latest tx = tx := if_pos hhash
      refine ⟨by rw [message_signAt, hsame, hother], s, ?_, by rwa [message_signAt, hsame]⟩
      rw [signature_of_signed (hbehind hne hother), if_pos hhash, hs]
    · exact absurd hsigned (hnobody i other hne)

/-- What is sent for a text costs the relayer only the fee and is signed by whoever signed the
submission, exactly if the submission uses it to pay and its blockhash is the latest. -/
theorem sponsorship_iff (hwallet : c.isWallet (c.ed.publicKey secret))
    (hdefault : ∀ key text, c.ed.verify key text (fill 64 0) = false) (rpc : Rpc)
    (transaction : String) :
    (∀ tx sent, Submits c.ed secret transaction tx →
      (postSponsor c.ed secret rpc transaction).sent = some sent →
        CostsOnlyFee c (c.ed.publicKey secret) sent ∧
          KeepsSignatures c (c.ed.publicKey secret) tx sent) ↔
    ∀ tx latest, Submits c.ed secret transaction tx → rpc.getLatestBlockhash = .ok latest →
      HasPlace tx → PaysOnly c (c.ed.publicKey secret) latest tx := by
  constructor
  · intro h tx latest hsubmits hlatest hplace
    obtain ⟨hcosts, hkeeps⟩ := h tx _ hsubmits (sent_iff.mpr ⟨tx, latest, hsubmits, hlatest, hplace, rfl⟩)
    exact ⟨(costsOnlyFee_iff hwallet hsubmits.2).mp hcosts,
      (keepsSignatures_iff hdefault hsubmits.2).mp hkeeps⟩
  · intro h tx sent hsubmits hsent
    obtain ⟨tx', latest, hsubmits', hlatest, hplace, rfl⟩ := sent_iff.mp hsent
    obtain rfl : tx = tx' := Option.some.inj (hsubmits.1.symm.trans hsubmits'.1)
    obtain ⟨hfee, hsignatures⟩ := h tx latest hsubmits hlatest hplace
    exact ⟨(costsOnlyFee_iff hwallet hsubmits.2).mpr hfee,
      (keepsSignatures_iff hdefault hsubmits.2).mpr hsignatures⟩

end

/-! ### A transfer and a payment -/

namespace Sample

/-- The relayer's secret key, and its public key. -/
def secret : Bytes 32 := ⟨ofLiteral "relayer" ++ List.replicate 25 0, rfl⟩

def relayer : Pubkey :=
  ⟨[247, 45, 162, 238, 116, 12, 26, 17, 35, 217, 249, 217, 49, 61, 211, 190, 70, 233, 110, 98,
    151, 73, 111, 148, 251, 32, 73, 213, 114, 44, 255, 123], rfl⟩

def mallory : Pubkey :=
  ⟨[94, 82, 105, 241, 68, 160, 239, 144, 32, 119, 230, 146, 101, 92, 91, 140, 136, 79, 101, 1,
    199, 175, 141, 184, 48, 79, 73, 127, 215, 84, 154, 11], rfl⟩

def ephemeral : Pubkey :=
  ⟨[170, 12, 225, 25, 133, 122, 224, 78, 94, 169, 213, 108, 149, 59, 215, 204, 112, 57, 213, 112,
    5, 250, 33, 109, 226, 44, 18, 141, 141, 20, 207, 154], rfl⟩

def shop : Pubkey :=
  ⟨[3, 231, 230, 76, 211, 252, 99, 25, 78, 225, 50, 35, 118, 246, 144, 151, 152, 144, 196, 152,
    252, 154, 10, 109, 82, 43, 156, 124, 13, 72, 34, 120], rfl⟩

def sessionPda : Pubkey :=
  ⟨[122, 82, 2, 22, 228, 135, 43, 124, 115, 172, 236, 226, 134, 43, 170, 196, 183, 171, 249, 118,
    218, 150, 6, 68, 125, 233, 141, 209, 142, 187, 127, 94], rfl⟩

def sessionProgramId : Pubkey :=
  ⟨[2, 139, 43, 67, 232, 200, 186, 181, 252, 153, 231, 44, 235, 62, 207, 211, 223, 239, 82, 20,
    193, 156, 49, 197, 208, 122, 8, 136, 158, 242, 190, 50], rfl⟩

def clockSysvarId : Pubkey :=
  ⟨[6, 167, 213, 23, 24, 199, 116, 201, 40, 86, 99, 152, 105, 29, 94, 182, 139, 94, 184, 163, 155,
    75, 109, 92, 115, 85, 91, 33, 0, 0, 0, 0], Eq.refl (nat_lit 32)⟩

/-- The latest blockhash. -/
def latest : Bytes 32 := fill 32 7

/-- One SOL from the relayer to Mallory, as the System Program transfers it. -/
def transferMessage : Message where
  header := ⟨1, 0, 1⟩
  accountKeys := [relayer, mallory, systemProgramId]
  recentBlockhash := latest
  instructions := [⟨2, [0, 1], leBytes 4 2 ++ u64Le 1000000000⟩]

def transferTx : Legacy.Transaction := ⟨[fill 64 0], transferMessage⟩

/-- `execute_payment` of 5000 lamports to a shop, for which the relayer pays the fee. -/
def paymentMessage : Message where
  header := ⟨2, 1, 3⟩
  accountKeys := [relayer, ephemeral, shop, sessionPda, systemProgramId, sessionProgramId, clockSysvarId]
  recentBlockhash := latest
  instructions := [⟨5, [3, 1, 2, 4, 6],
    [86, 4, 7, 7, 120, 139, 232, 139, 136, 19, 0, 0, 0, 0, 0, 0, 12, 0, 0, 0, 115, 111, 108, 58, 116,
      114, 97, 110, 115, 102, 101, 114]⟩]

/-- The session key's signature on it. -/
def paymentSignature : Bytes 64 :=
  ⟨[61, 242, 203, 36, 110, 198, 223, 145, 172, 180, 108, 197, 30, 232, 106, 52, 213, 190, 124,
    100, 152, 253, 251, 117, 165, 217, 64, 16, 110, 135, 71, 110, 169, 216, 223, 139, 210, 189,
    163, 129, 128, 185, 138, 17, 83, 241, 5, 157, 252, 218, 102, 218, 127, 38, 119, 69, 74, 108,
    70, 70, 168, 74, 208, 3], rfl⟩

def paymentTx : Legacy.Transaction := ⟨[fill 64 0, paymentSignature], paymentMessage⟩

/-- The relayer's signatures on the two messages. -/
def transferSponsored : Bytes 64 :=
  ⟨[198, 40, 4, 95, 252, 36, 128, 255, 28, 231, 59, 237, 130, 213, 211, 20, 147, 2, 107, 160, 79,
    133, 53, 126, 169, 182, 0, 252, 108, 138, 230, 13, 214, 2, 7, 217, 228, 94, 133, 124, 171,
    253, 126, 251, 89, 108, 172, 74, 159, 35, 210, 182, 139, 248, 165, 99, 60, 11, 218, 126, 206,
    39, 158, 6], rfl⟩

def paymentSponsored : Bytes 64 :=
  ⟨[92, 3, 255, 99, 24, 20, 98, 48, 21, 59, 81, 194, 130, 92, 45, 105, 177, 146, 221, 201, 174,
    37, 133, 182, 79, 111, 44, 122, 228, 203, 239, 236, 169, 214, 119, 192, 52, 185, 158, 231, 81,
    3, 140, 204, 213, 208, 57, 34, 32, 27, 128, 170, 21, 138, 78, 25, 27, 117, 246, 212, 215, 177,
    69, 3], rfl⟩

/-- Ed25519 on these keys and messages. -/
def ed : Ed25519 where
  publicKey s := if s = secret then relayer else fill 32 0
  sign s text := if s = secret ∧ text = transferMessage.serialize then transferSponsored
    else if s = secret ∧ text = paymentMessage.serialize then paymentSponsored else fill 64 0
  verify key text s := decide
    ((key = relayer ∧ text = transferMessage.serialize ∧ s = transferSponsored) ∨
      (key = relayer ∧ text = paymentMessage.serialize ∧ s = paymentSponsored) ∨
      (key = ephemeral ∧ text = paymentMessage.serialize ∧ s = paymentSignature))

/-- The transfer of the System Program: the source signs. -/
def systemTransfer (accounts : List AccountMeta) (data : List UInt8) (l : Ledger) : Option Ledger :=
  match accounts with
  | src :: dst :: _ =>
    let amount := ofLe (data.drop 4)
    if src.isSigner = true ∧ src.isWritable = true ∧ dst.isWritable = true ∧ data.length = 12 ∧
        data.take 4 = leBytes 4 2 ∧ amount ≤ l.lamports src.pubkey then
      let taken := Function.update l.lamports src.pubkey (l.lamports src.pubkey - amount)
      some { l with lamports := Function.update taken dst.pubkey (taken dst.pubkey + amount) }
    else none
  | _ => none

theorem systemTransfer_keeps {accounts : List AccountMeta} {data : List UInt8} {l l' : Ledger}
    {key : Pubkey} (h : systemTransfer accounts data l = some l') (hdelegated : l.delegated key = false)
    (hunsigned : Unsigned key accounts) : Keeps key l l' := by
  unfold systemTransfer at h
  rcases accounts with _ | ⟨src, _ | ⟨dst, rest⟩⟩
  · exact absurd h (by simp)
  · exact absurd h (by simp)
  · simp only at h
    split at h
    · next hok =>
      obtain rfl := Option.some.inj h
      have hsrc : key ≠ src.pubkey := by
        intro heq
        have := hunsigned src List.mem_cons_self heq.symm
        rw [hok.1] at this
        exact absurd this (by simp)
      refine ⟨?_, fun _ => le_refl _, hdelegated⟩
      simp only [Function.update_apply]
      split <;> simp_all
    · exact absurd h (by simp)

/-- A cluster with the System Program; the session is not registered on it. -/
def cluster : Cluster where
  isWallet key := key = relayer ∨ key = mallory ∨ key = ephemeral ∨ key = shop
  run program accounts data l :=
    if program = systemProgramId then systemTransfer accounts data l else none
  unsigned h _ hdelegated hunsigned := by
    split at h
    · exact systemTransfer_keeps h hdelegated hunsigned
    · exact absurd h (by simp)
  ed := ed
  isRecent blockhash := decide (blockhash = latest)
  fee m := 5000 * m.header.numRequiredSignatures.toNat

def rpc : Rpc where
  getLatestBlockhash := .ok latest
  sendAndConfirmTransaction tx := .ok (tx.signatures.headD (fill 64 0))
  describeBase58 _ := ""
  describeBincode _ := ""

/-- The relayer has two SOL. -/
def ledger : Ledger where
  lamports key := if key = relayer then 2000000000 else 0
  tokens _ _ := 0
  delegated _ := false

theorem publicKey_secret : ed.publicKey secret = relayer :=
  (if_pos rfl : (if secret = secret then relayer else fill 32 0) = relayer)

theorem wallet : cluster.isWallet (cluster.ed.publicKey secret) := .inl publicKey_secret

theorem no_default (key : Pubkey) (text : List UInt8) : ed.verify key text (fill 64 0) = false := by
  have h₁ : fill 64 0 ≠ transferSponsored := by decide
  have h₂ : fill 64 0 ≠ paymentSponsored := by decide
  have h₃ : fill 64 0 ≠ paymentSignature := by decide
  simp [ed, h₁, h₂, h₃]

/-- What a client posts. -/
def post (tx : Legacy.Transaction) : String := encodeBase58 tx.serialize

theorem submits {tx : Legacy.Transaction} (hfits : tx.Fits)
    (hfirst : tx.message.accountKeys.head? = some relayer) : Submits ed secret (post tx) tx := by
  have hread := readTransaction_serialize hfits []
  rw [List.append_nil] at hread
  refine ⟨?_, by rw [hfirst, publicKey_secret]⟩
  rw [post, decodeBase58_encodeBase58, Option.bind_some, deserializeTransaction, hread]
  rfl

theorem transferTx_fits : transferTx.Fits := by
  refine ⟨by decide, by decide, by decide, ?_⟩
  intro ix hix
  obtain rfl := List.mem_singleton.mp hix
  exact ⟨by decide, by decide⟩

theorem paymentTx_fits : paymentTx.Fits := by
  refine ⟨by decide, by decide, by decide, ?_⟩
  intro ix hix
  obtain rfl := List.mem_singleton.mp hix
  exact ⟨by decide, by decide⟩

/-- The relayer signs the transfer, and one SOL and the fee are gone. -/
theorem transfer_takes : (process cluster (sentFor cluster secret latest transferTx) ledger).map
    (fun l => l.lamports relayer) = some 999995000 := by
  decide +kernel

end Sample

/-- Anybody moves the relayer's lamports. -/
theorem sponsored_transfer : ¬∀ (c : Cluster) (secret : Bytes 32) (rpc : Rpc) (transaction : String),
    c.isWallet (c.ed.publicKey secret) → (∀ key text, c.ed.verify key text (fill 64 0) = false) →
    ∀ tx sent, Submits c.ed secret transaction tx →
      (postSponsor c.ed secret rpc transaction).sent = some sent →
        CostsOnlyFee c (c.ed.publicKey secret) sent ∧
          KeepsSignatures c (c.ed.publicKey secret) tx sent := by
  intro hall
  have hsubmits := Sample.submits Sample.transferTx_fits rfl
  have hsent : (postSponsor Sample.ed Sample.secret Sample.rpc (Sample.post Sample.transferTx)).sent
      = some (sentFor Sample.cluster Sample.secret Sample.latest Sample.transferTx) :=
    sent_iff.mpr ⟨_, _, hsubmits, rfl, ⟨by decide, by decide, by decide⟩, rfl⟩
  obtain ⟨hcosts, -⟩ := hall Sample.cluster Sample.secret Sample.rpc _ Sample.wallet Sample.no_default _ _
    hsubmits hsent
  obtain ⟨after, hprocess, hlamports⟩ := Option.map_eq_some_iff.mp Sample.transfer_takes
  have hkey : Sample.cluster.ed.publicKey Sample.secret = Sample.relayer := Sample.publicKey_secret
  have hdebit := (hcosts.debit Sample.ledger after rfl hprocess).1
  have hbefore : Sample.ledger.lamports Sample.relayer = 2000000000 :=
    (if_pos rfl : (if Sample.relayer = Sample.relayer then 2000000000 else 0) = 2000000000)
  have hfee : Sample.cluster.fee (sentFor Sample.cluster Sample.secret Sample.latest
    Sample.transferTx).message = 5000 := rfl
  rw [hkey, hbefore, hfee, hlamports] at hdebit
  omega

/-- A payment for which the relayer pays the fee goes out with the session key's signature. -/
theorem sponsored_payment : ∃ tx sent, Submits Sample.ed Sample.secret (Sample.post Sample.paymentTx) tx ∧
    (postSponsor Sample.ed Sample.secret Sample.rpc (Sample.post Sample.paymentTx)).sent = some sent ∧
      CostsOnlyFee Sample.cluster Sample.relayer sent ∧
        KeepsSignatures Sample.cluster Sample.relayer tx sent := by
  have hpost := Sample.submits Sample.paymentTx_fits rfl
  have hsent : (postSponsor Sample.ed Sample.secret Sample.rpc (Sample.post Sample.paymentTx)).sent
      = some (sentFor Sample.cluster Sample.secret Sample.latest Sample.paymentTx) :=
    sent_iff.mpr ⟨_, _, hpost, rfl, ⟨by decide, by decide, by decide⟩, rfl⟩
  refine ⟨_, _, hpost, hsent, ?_⟩
  refine (sponsorship_iff (c := Sample.cluster) Sample.wallet Sample.no_default Sample.rpc _).mpr ?_
    _ _ hpost hsent
  intro tx latest hsubmits hlatest hplace
  obtain rfl : Sample.paymentTx = tx :=
    Option.some.inj ((Sample.submits Sample.paymentTx_fits rfl).1.symm.trans hsubmits.1)
  obtain rfl : Sample.latest = latest := Except.ok.inj hlatest
  refine ⟨fun _ => ?_, fun _ => .inl rfl⟩
  rintro ⟨ix, hix, hzero⟩
  obtain rfl := List.mem_singleton.mp hix
  exact absurd hzero (by decide)

end Relayer
