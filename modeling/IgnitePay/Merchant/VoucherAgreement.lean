/-
The payer's vouchers before the merchant (`ignite-pay-mcp/src/main.rs`,
`ignite-pay-mb/sdk/src/signing.rs`, `src/main.rs`).

The payer signs the number and the amount with their low byte first, the merchant reads them with
their high byte first.  In the text that the payer prints the digest is in base58, and the merchant
compares it with a digest in hexadecimal.

* `proofFields_display` — the merchant reads the fields as the payer printed them;
* `vouchers_disagree` — a voucher is received exactly if its number and its amount read the same in
  both orders, and no text of a proof is ever accepted.
-/
import IgnitePay.Lib.Sha256
import IgnitePay.Merchant.State

namespace Agent

open Bytes Solana

/-! ### What the payer prints -/

/-- `PaymentProof`, with all that is printed of it. -/
inductive PrintedProof
  | voucher (channel : String) (seq amount : UInt64) (msgHash signature : String)
  | txSignature (sig : String)

/-- The lines of `{}`. -/
def PrintedProof.lines : PrintedProof → List (List Char)
  | .voucher channel seq amount msgHash signature =>
    ["Voucher payment.".toList, "Channel: ".toList ++ channel.toList,
      "Seq: ".toList ++ Text.decimal seq.toNat, "Amount: ".toList ++ Text.decimal amount.toNat,
      "Signature: ".toList ++ signature.toList, "Message hash: ".toList ++ msgHash.toList]
  | .txSignature sig => ["Tx: ".toList ++ sig.toList]

def PrintedProof.display (proof : PrintedProof) : String :=
  String.ofList (List.intercalate ['\n'] proof.lines)

/-- The digest that `sign_voucher` returns with the signature. -/
def msgHash (b : Buyer) (channelId : Pubkey) (seq amount : UInt64) : Bytes 32 :=
  b.sha (channelId.val ++ u64Le seq ++ u64Le amount)

/-- What `try_mb_voucher_payment` returns for a voucher. -/
def voucherProof (b : Buyer) (v : StoredVoucher) : PrintedProof :=
  .voucher (encodeBase58 v.channelId.val) v.seq v.amount
    (encodeBase58 (msgHash b v.channelId v.seq v.amount).val) (encodeBase58 v.buyerSig.val)

end Agent

namespace Merchant

open Bytes Machine Solana
open Agent (decodeBase58 encodeBase58 exactly parsePubkey)

/-! ### Reading the lines -/

/-- A text without white space, and not empty. -/
def Plain (v : List Char) : Prop := v ≠ [] ∧ v.any Text.isWhitespace = false

theorem Plain.of_mem {v : List Char} (h : Plain v) {c : Char} (hc : c ∈ v) :
    Text.isWhitespace c = false := by
  simpa using List.any_eq_false.mp h.2 c hc

/-- No character of an alphabet without white space is white space. -/
theorem plain_of_alphabet {v alphabet : List Char} (hne : v ≠ [])
    (hno : alphabet.any Text.isWhitespace = false) (h : ∀ c ∈ v, c ∈ alphabet) : Plain v :=
  ⟨hne, List.any_eq_false.mpr fun c hc => List.any_eq_false.mp hno c (h c hc)⟩

theorem plain_encodeBase58 {bytes : List UInt8} (h : bytes ≠ []) : Plain (encodeBase58 bytes).toList := by
  refine plain_of_alphabet (fun hnil => ?_) (by decide) fun c hc => Agent.mem_encodeBase58 hc
  have hback := Agent.decodeBase58_encodeBase58 bytes
  rw [String.toList_eq_nil_iff.mp hnil] at hback
  exact h (Option.some.inj hback).symm

theorem plain_decimal (n : ℕ) : Plain (Text.decimal n) :=
  plain_of_alphabet (Text.decimal_ne_nil n) (by decide) fun _ hc => Text.mem_decimal hc

section

variable {v : List Char} {f : ProofFields}

theorem trim_label {label : List Char}
    (hlabel : (label.head?.any fun c => !Text.isWhitespace c) = true) (hv : Plain v) :
    Text.trim (label ++ v) = label ++ v := by
  obtain ⟨c, hc, hblack⟩ := (Option.any_eq_true _ _).mp hlabel
  have hne : label ≠ [] := by
    rintro rfl
    simp at hc
  refine Text.trim_of_ends (fun c' hc' => ?_) fun c' hc' => ?_
  · rw [List.head?_append_of_ne_nil _ hne, hc] at hc'
    obtain rfl := Option.some.inj hc'
    simpa using hblack
  · rw [List.getLast?_append_of_ne_nil _ hv.1] at hc'
    exact hv.of_mem (List.mem_of_getLast? hc')

theorem readLine_channel (hv : Plain v) :
    f.readLine ("Channel: ".toList ++ v) = { f with channel := String.ofList v } := by
  rw [ProofFields.readLine, trim_label (by decide) hv]
  rfl

theorem readLine_seq (hv : Plain v) :
    f.readLine ("Seq: ".toList ++ v) = { f with seq := Text.parseU64 v } := by
  rw [ProofFields.readLine, trim_label (by decide) hv]
  rfl

theorem readLine_amount (hv : Plain v) :
    f.readLine ("Amount: ".toList ++ v) = { f with amount := Text.parseU64 v } := by
  rw [ProofFields.readLine, trim_label (by decide) hv]
  rfl

theorem readLine_signature (hv : Plain v) :
    f.readLine ("Signature: ".toList ++ v) = { f with signature := String.ofList v } := by
  rw [ProofFields.readLine, trim_label (by decide) hv]
  rfl

theorem readLine_msgHash (hv : Plain v) :
    f.readLine ("Message hash: ".toList ++ v) = { f with msgHash := String.ofList v } := by
  rw [ProofFields.readLine, trim_label (by decide) hv]
  rfl

/-- A line holds no newline, and does not end in a carriage return. -/
theorem plain_line {label : List Char} (hlabel : '\n' ∉ label) (hv : Plain v) :
    '\n' ∉ label ++ v ∧ (label ++ v).getLast? ≠ some '\r' := by
  constructor
  · intro hmem
    rcases List.mem_append.mp hmem with hmem | hmem
    · exact hlabel hmem
    · exact absurd (hv.of_mem hmem) (by decide)
  · intro hlast
    rw [List.getLast?_append_of_ne_nil _ hv.1] at hlast
    exact absurd (hv.of_mem (List.mem_of_getLast? hlast)) (by decide)

end

/-- The fields are read as they were printed. -/
theorem proofFields_display {channel msgHash signature : String} (seq amount : UInt64)
    (hchannel : Plain channel.toList) (hhash : Plain msgHash.toList)
    (hsignature : Plain signature.toList) :
    proofFields (Agent.PrintedProof.voucher channel seq amount msgHash signature).display
      = ⟨channel, some seq, some amount, signature, msgHash⟩ := by
  have hseq := plain_decimal seq.toNat
  have hamount := plain_decimal amount.toNat
  have hlines : Text.lines (Agent.PrintedProof.voucher channel seq amount msgHash signature).display.toList
      = (Agent.PrintedProof.voucher channel seq amount msgHash signature).lines := by
    rw [Agent.PrintedProof.display, String.toList_ofList]
    refine @Text.lines_intercalate [_, _, _, _, _] _ (fun l hl => ?_) (fun l hl => ?_) (by simp)
    · simp only [List.cons_append, List.nil_append, List.mem_cons, List.not_mem_nil, or_false] at hl
      rcases hl with rfl | rfl | rfl | rfl | rfl | rfl
      · decide
      · exact (plain_line (by decide) hchannel).1
      · exact (plain_line (by decide) hseq).1
      · exact (plain_line (by decide) hamount).1
      · exact (plain_line (by decide) hsignature).1
      · exact (plain_line (by decide) hhash).1
    · simp only [List.mem_cons, List.not_mem_nil, or_false] at hl
      rcases hl with rfl | rfl | rfl | rfl | rfl
      · decide
      · exact (plain_line (by decide) hchannel).2
      · exact (plain_line (by decide) hseq).2
      · exact (plain_line (by decide) hamount).2
      · exact (plain_line (by decide) hsignature).2
  have hfirst : ({} : ProofFields).readLine "Voucher payment.".toList = {} := by decide
  rw [proofFields, hlines, Agent.PrintedProof.lines]
  simp only [List.foldl_cons, List.foldl_nil, hfirst, readLine_channel hchannel, readLine_seq hseq,
    readLine_amount hamount, readLine_signature hsignature, readLine_msgHash hhash,
    Text.parseU64_decimal, String.ofList_toList]

/-! ### The digest in two encodings -/

theorem length_hexEncode (bytes : List UInt8) : (hexEncode bytes).toList.length = 2 * bytes.length := by
  rw [hexEncode, String.toList_ofList, List.length_flatMap]
  simp [Nat.mul_comm]

theorem hexEncode_ne_encodeBase58 (hash hash' : Bytes 32) :
    hexEncode hash.val ≠ encodeBase58 hash'.val := by
  intro heq
  have hlt := Agent.length_encodeBase58_lt hash'.property
  have hlength := length_hexEncode hash.val
  rw [heq, length_val] at hlength
  omega

theorem ne_nil_of_length {n : ℕ} (hn : n ≠ 0) (b : Bytes n) : b.val ≠ [] := by
  intro hnil
  have hlength := length_val b
  rw [hnil, List.length_nil] at hlength
  omega

section

variable {m : Server} {b : Agent.Buyer}

/-- No proof that the payer prints is accepted. -/
theorem proof_rejected (v : Agent.StoredVoucher) (order : PaymentOrder) (p : ProvenVoucher) :
    m.verifyVoucherProof (Agent.voucherProof b v).display order ≠ .ok p := by
  intro hok
  have hchannel := plain_encodeBase58 (ne_nil_of_length (by decide) v.channelId)
  have hhash := plain_encodeBase58
    (ne_nil_of_length (by decide) (Agent.msgHash b v.channelId v.seq v.amount))
  have hsig := plain_encodeBase58 (ne_nil_of_length (by decide) v.buyerSig)
  rw [Server.verifyVoucherProof, Agent.voucherProof, proofFields_display _ _ hchannel hhash hsig] at hok
  simp only [bind_eq_ok, orErr_eq_ok, require_eq_ok, exists_const] at hok
  obtain ⟨amount, -, -, channelId, -, hcompared, -⟩ := hok
  -- The digest is printed, and it is shorter than any that it is compared with.
  rcases hcompared with hempty | heq
  · exact hhash.1 (by rw [hempty]; rfl)
  · exact hexEncode_ne_encodeBase58 _ _ heq

/-! ### The two byte orders -/

/-- The bytes of a number are the same from both ends. -/
def ReadsBothWays (x : UInt64) : Prop := (u64Le x).reverse = u64Le x

instance (x : UInt64) : Decidable (ReadsBothWays x) := inferInstanceAs (Decidable (_ = _))

theorem message_inj {c c' : Pubkey} {x x' y y' : List UInt8} (hx : x.length = x'.length)
    (h : c.val ++ x ++ y = c'.val ++ x' ++ y') : c = c' ∧ x = x' ∧ y = y' := by
  obtain ⟨hleft, hy⟩ := List.append_inj h (by simp [hx])
  obtain ⟨hc, hx⟩ := List.append_inj hleft (by simp)
  exact ⟨Subtype.ext hc, hx, hy⟩

/-- The messages that the payer and the merchant hash. -/
def messages (channelId channelId' : Pubkey) (seq amount : UInt64) : Set (List UInt8) :=
  {channelId.val ++ u64Le seq ++ u64Le amount, channelId'.val ++ u64Be seq ++ u64Be amount}

theorem hash_eq_iff (hsha : m.keypair.sha = b.sha) {channelId channelId' : Pubkey} {seq amount : UInt64}
    (hfree : Sha256.CollisionFree b.sha (messages channelId channelId' seq amount)) :
    m.voucherHash channelId' seq amount = Agent.msgHash b channelId seq amount ↔
      channelId' = channelId ∧ ReadsBothWays seq ∧ ReadsBothWays amount := by
  rw [Server.voucherHash, Agent.msgHash, hsha]
  constructor
  · intro heq
    have hmessage := hfree (.inr rfl) (.inl rfl) heq
    exact message_inj (by simp) hmessage
  · rintro ⟨rfl, hseq, hamount⟩
    rw [u64Be, u64Be, hseq, hamount]

/-- What the buyer hands to the merchant. -/
def receiveInput (b : Agent.Buyer) (v : Agent.StoredVoucher) (orderId : Option String) :
    MbReceiveVoucherInput where
  buyerPubkey := encodeBase58 b.pubkey.val
  seq := v.seq
  amount := v.amount
  buyerSig := encodeBase58 v.buyerSig.val
  orderId := orderId

/-- The voucher is received if the signature verifies. -/
theorem received_iff (v : Agent.StoredVoucher) (orderId : Option String) :
    (∃ c, m.receivedVoucher (receiveInput b v orderId) = .ok c) ↔
      m.verifySignature b.pubkey (m.voucherHash (m.channelPda b.pubkey) v.seq v.amount) v.buyerSig
        = true := by
  have hsig : (decodeBase58 (encodeBase58 v.buyerSig.val)).bind (exactly 64) = some v.buyerSig := by
    rw [Agent.decodeBase58_encodeBase58, Option.bind_some, exactly, dif_pos v.buyerSig.property]
  have hbuyer := Agent.parsePubkey_encodeBase58 b.pubkey
  constructor
  · rintro ⟨c, hc⟩
    obtain ⟨hbuyer', hsig', hchannel, hseq, hamount, hverified⟩ := m.receivedVoucher_eq_ok.mp hc
    obtain hb : b.pubkey = c.buyer := Option.some.inj (hbuyer.symm.trans hbuyer')
    obtain hs : v.buyerSig = c.buyerSig := Option.some.inj (hsig.symm.trans hsig')
    rw [hchannel, hseq, hamount, ← hb, ← hs] at hverified
    exact hverified
  · intro hverified
    exact ⟨⟨m.channelPda b.pubkey, b.pubkey, v.seq, v.amount, v.buyerSig⟩,
      m.receivedVoucher_eq_ok.mpr ⟨hbuyer, hsig, rfl, rfl, rfl, hverified⟩⟩

/-! ### The agreement -/

/-- A signature verifies for the digest and the key that it was made with, and for no other. -/
def Ideal (m : Server) (b : Agent.Buyer) : Prop :=
  ∀ key hash hash', m.verifySignature key hash' (b.sign hash) = true ↔ key = b.pubkey ∧ hash' = hash

/-- Payer and merchant agree on the voucher of a number and an amount for their channel: it is
received, and the proof that is printed for it is accepted for every order of at most the amount. -/
def Agree (m : Server) (b : Agent.Buyer) (seq amount : UInt64) : Prop :=
  let v := Agent.signVoucher b (m.channelPda b.pubkey) m.keypair.pubkey seq amount
  (∃ c, m.receivedVoucher (receiveInput b v none) = .ok c) ∧
    ∀ order : PaymentOrder, order.amount ≤ amount →
      ∃ p, m.verifyVoucherProof (Agent.voucherProof b v).display order = .ok p

def sampleOrder (amount : UInt64) : PaymentOrder where
  orderId := "order"
  merchantDid := ""
  amount := amount
  description := ""
  hubEndpoint := ""
  status := .pending
  createdAt := 0
  confirmedAt := none
  channelId := none
  leafIndex := none
  sequence := none

/-- They agree on no voucher.  For whatever channel the payer signs, the merchant receives the voucher
exactly if the channel is theirs, and number and amount read the same in both byte orders; the proof
that is printed is accepted for no order. -/
theorem vouchers_disagree (m : Server) (b : Agent.Buyer) (channelId merchant : Pubkey)
    (seq amount : UInt64) (hsha : m.keypair.sha = b.sha) (hideal : Ideal m b)
    (hfree : Sha256.CollisionFree b.sha (messages channelId (m.channelPda b.pubkey) seq amount)) :
    ¬ Agree m b seq amount ∧
      (∀ orderId, (∃ c, m.receivedVoucher
          (receiveInput b (Agent.signVoucher b channelId merchant seq amount) orderId) = .ok c) ↔
        m.channelPda b.pubkey = channelId ∧ ReadsBothWays seq ∧ ReadsBothWays amount) ∧
      ∀ order p, m.verifyVoucherProof
        (Agent.voucherProof b (Agent.signVoucher b channelId merchant seq amount)).display order
          ≠ .ok p := by
  refine ⟨?_, fun orderId => ?_, fun order p => proof_rejected _ order p⟩
  · rintro ⟨-, haccepted⟩
    obtain ⟨p, hp⟩ := haccepted (sampleOrder amount) (UInt64.le_refl amount)
    exact proof_rejected _ _ p hp
  · rw [received_iff]
    refine (hideal _ _ _).trans ?_
    rw [eq_self_iff_true, true_and]
    exact hash_eq_iff hsha hfree

end

namespace Sample

def buyerKey : Pubkey := number 32 0xeb53833bc9b0965506bcf3c5c876454512eb135f5d5dbbcf5ddc8d8d0e32b71

def merchantKey : Pubkey := number 32 0xaa0640b85b78250226c60abddaf216fc69b43b44e7160a2ba85830b0d5e619fa

def programId : Pubkey := number 32 0x68b8380afefc7ab613d220ed08fc8b439532af9dbefe354e8eff96278e266556

/-- The channel of the two keys. -/
def channelId : Pubkey := number 32 0x23eb801c6fee349cc67f4e9425b0ebb254474b1e5038a774018f5230fd77fa95

/-- The digest of voucher 1 over 5, and its signature. -/
def signedHash : Bytes 32 := number 32 0xd63e2331b4a172357d79b24fbca36b3109b9c83dad10e4ee246fb5769c30ac67

def signature : Bytes 64 := number 64
  0xe4399d5864bcc760338a427068c15ae91c5d9908415b30ee2425db99191bb3dea23d314f9e4d620ed50cf3c29a81daa002877df4d82e68f676c65c119593360

def sign (hash : Bytes 32) : Bytes 64 :=
  if hash = signedHash then signature
  else ⟨buyerKey.val ++ hash.val, by rw [List.length_append, length_val, length_val]⟩

def buyer : Agent.Buyer where
  sha := Sha256.sha256
  findProgramAddress := fun _ _ => channelId
  sign := sign
  pubkey := buyerKey
  programId := programId
  overflowChecks := false

def server : Server where
  keypair := { buyer with pubkey := merchantKey, sign := fun _ => fill 64 0 }
  verifySignature := fun key hash sig => decide (key = buyerKey) && decide (sig = sign hash)
  did := "did:ignite:merchant"
  merchantWallet := "wallet"
  products := []

example : (Agent.signVoucher buyer channelId merchantKey 1 5).buyerSig = signature := by decide

theorem sign_inj {hash hash' : Bytes 32} (h : sign hash = sign hash') : hash = hash' := by
  have hother : ∀ hash : Bytes 32, signature.val ≠ buyerKey.val ++ hash.val := by
    intro hash heq
    have htake := congrArg (List.take 32) heq
    rw [List.take_left' (length_val buyerKey)] at htake
    exact absurd htake (by decide)
  rw [sign, sign] at h
  split at h
  · next heq =>
    split at h
    · next heq' => rw [heq, heq']
    · exact absurd (congrArg Subtype.val h) (hother hash')
  · split at h
    · exact absurd (congrArg Subtype.val h).symm (hother hash)
    · exact Subtype.ext (List.append_cancel_left (congrArg Subtype.val h))

theorem ideal : Ideal server buyer := by
  intro key hash hash'
  show (decide (key = buyerKey) && decide (sign hash = sign hash')) = true ↔ key = buyerKey ∧ hash' = hash
  rw [Bool.and_eq_true, decide_eq_true_iff, decide_eq_true_iff]
  exact and_congr_right fun _ => ⟨fun h => (sign_inj h).symm, fun h => by rw [h]⟩

theorem collisionFree : Sha256.CollisionFree buyer.sha (messages channelId channelId 1 5) := by
  have hne : buyer.sha (channelId.val ++ u64Le 1 ++ u64Le 5)
      ≠ buyer.sha (channelId.val ++ u64Be 1 ++ u64Be 5) := by decide
  rintro x (rfl | rfl) y (rfl | rfl) heq
  · rfl
  · exact absurd heq hne
  · exact absurd heq.symm hne
  · rfl

end Sample

/-- Voucher 1 over 5. -/
theorem voucher_one_disagrees :
    ¬ Agree Sample.server Sample.buyer 1 5 ∧
      (∀ orderId, (∃ c, Sample.server.receivedVoucher (receiveInput Sample.buyer
          (Agent.signVoucher Sample.buyer Sample.channelId Sample.merchantKey 1 5) orderId) = .ok c) ↔
        Sample.channelId = Sample.channelId ∧ ReadsBothWays 1 ∧ ReadsBothWays 5) ∧
      ∀ order p, Sample.server.verifyVoucherProof (Agent.voucherProof Sample.buyer
        (Agent.signVoucher Sample.buyer Sample.channelId Sample.merchantKey 1 5)).display order ≠ .ok p :=
  vouchers_disagree Sample.server Sample.buyer Sample.channelId Sample.merchantKey 1 5 rfl Sample.ideal
    Sample.collisionFree

theorem not_agree : ¬ ∀ (m : Server) (b : Agent.Buyer) (seq amount : UInt64),
    m.keypair.sha = b.sha → Ideal m b → Agree m b seq amount := by
  intro hagree
  obtain ⟨-, haccepted⟩ := hagree Sample.server Sample.buyer 1 5 rfl Sample.ideal
  obtain ⟨p, hp⟩ := haccepted (sampleOrder 5) (UInt64.le_refl 5)
  exact proof_rejected _ _ p hp

end Merchant
