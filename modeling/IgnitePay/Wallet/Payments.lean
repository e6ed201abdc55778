/-
Payments that a wallet outside the phone signs (`rust/src/api/session.rs`), with and without a relayer.

A payment asks for exactly the transfer that is meant, of SOL or of tokens, and if need be for the
recipient's token account first.  A payment for a relayer goes out from that relayer and from no other,
which has no part in its instructions; it is taken exactly if the relayer finds the blockhash that the
wallet signed over.

* `payments_signed` — transfers that the wallet pays for;
* `sponsored_sent` — transfers that the relayer pays for.
-/
import IgnitePay.Relayer.Sponsor
import IgnitePay.Wallet.Unsigned

namespace Wallet

open Agent (decodeBase58 encodeBase58 decodeBase58_encodeBase58 extractPubkeyFromDid parsePubkey
  parsePubkey_encodeBase58)
open Anchor Bytes Solana Legacy
open Relayer (NamesFeePayer postSponsor signAt withBlockhash)

section

variable (c : Crypto)

/-! ### Paying -/

/-- The recipient of a transfer of SOL: a DID or a key. -/
def transferRecipient (merchantDid : String) : Option Pubkey :=
  if "did:".toList.isPrefixOf merchantDid.toList then extractPubkeyFromDid merchantDid
  else parsePubkey merchantDid

def buildUnsignedTransferTx (blockhash walletPubkeyB58 merchantDid : String) (amountLamports : UInt64) :
    Option String := do
  let merchant ← transferRecipient merchantDid
  let wallet ← parsePubkey walletPubkeyB58
  let blockhash ← parsePubkey blockhash
  some (encodeBase58 (encodeTransaction [placeholder]
    (encodeInstructions (1, 0, 1) [wallet, merchant, systemProgramId] blockhash
      [⟨2, [0, 1], systemTransferData amountLamports⟩])))

/-- `build_unsigned_spl_transfer_tx`; the node says whether the merchant has a token account, and one
is created if not. -/
def buildUnsignedSplTransferTx (blockhash : String) (merchantAtaExists : Bool)
    (walletPubkeyB58 merchantWalletB58 : String) (amount : UInt64) (tokenMintB58 : String) :
    Option String := do
  let wallet ← parsePubkey walletPubkeyB58
  let merchant ← parsePubkey merchantWalletB58
  let mint ← parsePubkey tokenMintB58
  let blockhash ← parsePubkey blockhash
  let create : List CompiledInstruction :=
    if merchantAtaExists then [] else [⟨7, [0, 2, 3, 4, 6, 5, 8], []⟩]
  some (encodeBase58 (encodeTransaction [placeholder]
    (encodeInstructions (1, 0, 6)
      [wallet, deriveAta c wallet mint, deriveAta c merchant mint, merchant, mint, tokenProgramId,
        systemProgramId, ataProgramId, rentSysvarId]
      blockhash (create ++ [⟨5, [1, 2, 0], tokenTransferData amount⟩]))))

/-- `build_unsigned_sponsored_transfer_tx`, where a recipient is always a DID. -/
def buildUnsignedSponsoredTransferTx (blockhash walletPubkeyB58 merchantDid : String)
    (amountLamports : UInt64) (relayerPubkeyB58 : String) : Option String := do
  let merchant ← extractPubkeyFromDid merchantDid
  let wallet ← parsePubkey walletPubkeyB58
  let relayer ← parsePubkey relayerPubkeyB58
  let blockhash ← parsePubkey blockhash
  some (encodeBase58 (encodeTransaction [placeholder, placeholder]
    (encodeInstructions (2, 0, 1) [relayer, wallet, merchant, systemProgramId] blockhash
      [⟨3, [1, 2], systemTransferData amountLamports⟩])))

/-- `build_unsigned_sponsored_spl_transfer_tx`, where the merchant has a token account. -/
def buildUnsignedSponsoredSplTransferTx (blockhash walletPubkeyB58 merchantWalletB58 : String)
    (amount : UInt64) (tokenMintB58 relayerPubkeyB58 : String) : Option String := do
  let wallet ← parsePubkey walletPubkeyB58
  let merchant ← parsePubkey merchantWalletB58
  let relayer ← parsePubkey relayerPubkeyB58
  let mint ← parsePubkey tokenMintB58
  let blockhash ← parsePubkey blockhash
  some (encodeBase58 (encodeTransaction [placeholder, placeholder]
    (encodeInstructions (2, 0, 1)
      [relayer, wallet, deriveAta c wallet mint, deriveAta c merchant mint, tokenProgramId] blockhash
      [⟨4, [2, 3, 1], tokenTransferData amount⟩])))

/-! ### What is asked for -/

/-- The creation of the token account of `owner`, which `payer` pays for. -/
def createAtaInstruction (payer ata owner mint : Pubkey) : Instruction where
  programId := ataProgramId
  accounts := [⟨payer, true, true⟩, ⟨ata, false, true⟩, ⟨owner, false, false⟩, ⟨mint, false, false⟩,
    ⟨systemProgramId, false, false⟩, ⟨tokenProgramId, false, false⟩, ⟨rentSysvarId, false, false⟩]
  data := []

inductive Payment
  | sol (merchantDid : String)
  | spl (merchantWalletB58 tokenMintB58 : String) (merchantAtaExists : Bool)

/-- What the wallet is asked to sign. -/
def Payment.build (blockhash walletPubkeyB58 : String) (amount : UInt64) : Payment → Option String
  | .sol merchantDid => buildUnsignedTransferTx blockhash walletPubkeyB58 merchantDid amount
  | .spl merchantWalletB58 tokenMintB58 merchantAtaExists =>
    buildUnsignedSplTransferTx c blockhash merchantAtaExists walletPubkeyB58 merchantWalletB58 amount
      tokenMintB58

/-- The accounts of a message, and its instructions. -/
structure Meant where
  accounts : List Pubkey
  instructions : List Instruction

def Payment.meant (wallet : Pubkey) (amount : UInt64) : Payment → Option Meant
  | .sol merchantDid => do
    let merchant ← transferRecipient merchantDid
    some ⟨[wallet, merchant, systemProgramId], [solTransferInstruction wallet merchant amount]⟩
  | .spl merchantWalletB58 tokenMintB58 merchantAtaExists => do
    let merchant ← parsePubkey merchantWalletB58
    let mint ← parsePubkey tokenMintB58
    let source := deriveAta c wallet mint
    let dest := deriveAta c merchant mint
    some ⟨[wallet, source, dest, merchant, mint, tokenProgramId, systemProgramId, ataProgramId,
        rentSysvarId],
      (if merchantAtaExists then [] else [createAtaInstruction wallet dest merchant mint]) ++
        [splTransferInstruction wallet source dest amount]⟩

inductive SponsoredPayment
  | sol (merchantDid : String)
  | spl (merchantWalletB58 tokenMintB58 : String)

def SponsoredPayment.build (blockhash walletPubkeyB58 : String) (amount : UInt64)
    (relayerPubkeyB58 : String) : SponsoredPayment → Option String
  | .sol merchantDid =>
    buildUnsignedSponsoredTransferTx blockhash walletPubkeyB58 merchantDid amount relayerPubkeyB58
  | .spl merchantWalletB58 tokenMintB58 =>
    buildUnsignedSponsoredSplTransferTx c blockhash walletPubkeyB58 merchantWalletB58 amount
      tokenMintB58 relayerPubkeyB58

def SponsoredPayment.meant (relayer wallet : Pubkey) (amount : UInt64) :
    SponsoredPayment → Option Meant
  | .sol merchantDid => do
    let merchant ← extractPubkeyFromDid merchantDid
    some ⟨[relayer, wallet, merchant, systemProgramId],
      [solTransferInstruction wallet merchant amount]⟩
  | .spl merchantWalletB58 tokenMintB58 => do
    let merchant ← parsePubkey merchantWalletB58
    let mint ← parsePubkey tokenMintB58
    let source := deriveAta c wallet mint
    let dest := deriveAta c merchant mint
    some ⟨[relayer, wallet, source, dest, tokenProgramId],
      [splTransferInstruction wallet source dest amount]⟩

end

/-! ### What the messages carry -/

theorem compiles_of_accounts {m : Message} {compiled : CompiledInstruction} {ix : Instruction}
    {accounts : List AccountMeta} (hprogram : m.programOf compiled = some ix.programId)
    (haccounts : m.accountsOf compiled = some accounts) (hdata : compiled.data = ix.data)
    (hgrants : List.Forall₂ AccountInfo.Grants (accounts.map handed) ix.accounts) :
    Compiles m compiled ix := ⟨accounts, hprogram, haccounts, hdata, hgrants⟩

section

variable (blockhash : Bytes 32) (relayer wallet merchant source dest mint : Pubkey) (amount : UInt64)

theorem transfer_compiles :
    Compiles (messageWith (1, 0, 1) [wallet, merchant, systemProgramId] blockhash
        [⟨2, [0, 1], systemTransferData amount⟩])
      ⟨2, [0, 1], systemTransferData amount⟩ (solTransferInstruction wallet merchant amount) := by
  refine compiles_of_accounts rfl rfl rfl ?_
  simp [solTransferInstruction, messageWith, Message.isSigner, Message.isWritable]

theorem splTransfer_compiles (create : List CompiledInstruction) :
    Compiles (messageWith (1, 0, 6) [wallet, source, dest, merchant, mint, tokenProgramId,
        systemProgramId, ataProgramId, rentSysvarId] blockhash create)
      ⟨5, [1, 2, 0], tokenTransferData amount⟩ (splTransferInstruction wallet source dest amount) := by
  refine compiles_of_accounts rfl rfl rfl ?_
  simp [splTransferInstruction, messageWith, Message.isSigner, Message.isWritable]

theorem createAta_compiles (ixs : List CompiledInstruction) :
    Compiles (messageWith (1, 0, 6) [wallet, source, dest, merchant, mint, tokenProgramId,
        systemProgramId, ataProgramId, rentSysvarId] blockhash ixs)
      ⟨7, [0, 2, 3, 4, 6, 5, 8], []⟩ (createAtaInstruction wallet dest merchant mint) := by
  refine compiles_of_accounts rfl rfl rfl ?_
  simp [createAtaInstruction, messageWith, Message.isSigner, Message.isWritable]

theorem sponsoredTransfer_compiles :
    Compiles (messageWith (2, 0, 1) [relayer, wallet, merchant, systemProgramId] blockhash
        [⟨3, [1, 2], systemTransferData amount⟩])
      ⟨3, [1, 2], systemTransferData amount⟩ (solTransferInstruction wallet merchant amount) := by
  refine compiles_of_accounts rfl rfl rfl ?_
  simp [solTransferInstruction, messageWith, Message.isSigner, Message.isWritable]

theorem sponsoredSplTransfer_compiles :
    Compiles (messageWith (2, 0, 1) [relayer, wallet, source, dest, tokenProgramId] blockhash
        [⟨4, [2, 3, 1], tokenTransferData amount⟩])
      ⟨4, [2, 3, 1], tokenTransferData amount⟩ (splTransferInstruction wallet source dest amount) := by
  refine compiles_of_accounts rfl rfl rfl ?_
  simp [splTransferInstruction, messageWith, Message.isSigner, Message.isWritable]

end

section

variable {c : Crypto} {blockhash walletPubkeyB58 relayerPubkeyB58 text : String} {amount : UInt64}
  {secret : Bytes 32}

/-- What a payment asks a wallet for: the message of a text, the accounts in it, and its instructions,
which the wallet's signature is all that is missing for. -/
structure Asks (text : String) (m : Message) (meant : Meant) : Prop where
  textOf : TextOf text (unsigned m)
  accounts_eq : m.accountKeys = meant.accounts
  sane : m.Sane
  compiles : List.Forall₂ (Compiles m) m.instructions meant.instructions

/-- A message that asks for what is meant, written down with places for its signatures. -/
theorem asks_of_message {m : Message} {meant : Meant} (haccounts : m.accountKeys = meant.accounts)
    (hsane : m.Sane) (hcompiles : List.Forall₂ (Compiles m) m.instructions meant.instructions)
    (hfits : m.Fits) : Asks (encodeBase58 (unsigned m).serialize) m meant := by
  refine ⟨textOf_serialize ⟨?_, hfits⟩, haccounts, hsane, hcompiles⟩
  rw [unsigned, List.length_replicate]
  have hlt := m.header.numRequiredSignatures.toNat_lt
  omega

/-- A payment asks for what is meant, of the wallet and nobody else. -/
theorem asks_of_build {p : Payment} {wallet : Pubkey}
    (hwallet : parsePubkey walletPubkeyB58 = some wallet)
    (hbuild : p.build c blockhash walletPubkeyB58 amount = some text) :
    ∃ m meant, p.meant c wallet amount = some meant ∧ Asks text m meant ∧
      m.header.numRequiredSignatures = 1 ∧ m.accountKeys.head? = some wallet := by
  cases p with
  | sol merchantDid =>
    simp only [Payment.build, buildUnsignedTransferTx, hwallet, Option.bind_eq_bind, Option.bind_some,
      Option.bind_eq_some_iff, Option.some_inj] at hbuild
    obtain ⟨merchant, hmerchant, blockhash, -, rfl⟩ := hbuild
    have hmeant : Payment.meant c wallet amount (.sol merchantDid) =
        some ⟨[wallet, merchant, systemProgramId],
          [solTransferInstruction wallet merchant amount]⟩ := by
      rw [Payment.meant, hmerchant]
      rfl
    refine ⟨messageWith (1, 0, 1) [wallet, merchant, systemProgramId] blockhash
      [⟨2, [0, 1], systemTransferData amount⟩], _, hmeant, ?_, rfl, rfl⟩
    rw [encode_unsigned _ _ _ _ (by rfl)]
    refine asks_of_message rfl ?_ (.cons (transfer_compiles _ _ _ _) .nil) ?_
    · simp [Message.Sane, messageWith]
    · simp [Message.Fits, CompiledInstruction.Fits, messageWith, systemTransferData]
  | spl merchantWalletB58 tokenMintB58 merchantAtaExists =>
    simp only [Payment.build, buildUnsignedSplTransferTx, hwallet, Option.bind_eq_bind,
      Option.bind_some, Option.bind_eq_some_iff, Option.some_inj] at hbuild
    obtain ⟨merchant, hmerchant, mint, hmint, blockhash, -, rfl⟩ := hbuild
    have hmeant : Payment.meant c wallet amount
        (.spl merchantWalletB58 tokenMintB58 merchantAtaExists) =
        some ⟨[wallet, deriveAta c wallet mint, deriveAta c merchant mint, merchant, mint,
          tokenProgramId, systemProgramId, ataProgramId, rentSysvarId],
        (if merchantAtaExists then []
          else [createAtaInstruction wallet (deriveAta c merchant mint) merchant mint]) ++
          [splTransferInstruction wallet (deriveAta c wallet mint) (deriveAta c merchant mint)
            amount]⟩ := by
      rw [Payment.meant, hmerchant, hmint]
      rfl
    refine ⟨messageWith (1, 0, 6) [wallet, deriveAta c wallet mint, deriveAta c merchant mint, merchant,
      mint, tokenProgramId, systemProgramId, ataProgramId, rentSysvarId] blockhash
      ((if merchantAtaExists then [] else [⟨7, [0, 2, 3, 4, 6, 5, 8], []⟩]) ++
        [⟨5, [1, 2, 0], tokenTransferData amount⟩]), _, hmeant, ?_, rfl, rfl⟩
    rw [encode_unsigned _ _ _ _ (by rfl)]
    refine asks_of_message rfl ?_ ?_ ?_
    · cases merchantAtaExists <;> simp [Message.Sane, messageWith]
    · cases merchantAtaExists with
      | true => exact .cons (splTransfer_compiles _ _ _ _ _ _ _ _) .nil
      | false =>
        exact .cons (createAta_compiles _ _ _ _ _ _ _)
          (.cons (splTransfer_compiles _ _ _ _ _ _ _ _) .nil)
    · cases merchantAtaExists <;>
        simp [Message.Fits, CompiledInstruction.Fits, messageWith, tokenTransferData]

namespace Sample

def shop : Pubkey := fill 32 5

def mint : Pubkey := fill 32 6

/-- Tokens for a shop that has had none of them yet. -/
def firstPayment : Payment := .spl (encodeBase58 shop.val) (encodeBase58 mint.val) false

theorem built_firstPayment : ∃ text, firstPayment.build transparent (encodeBase58 (fill 32 9).val)
    (encodeBase58 buyer.val) 250 = some text := by
  simp only [firstPayment, Payment.build, buildUnsignedSplTransferTx, parsePubkey_encodeBase58,
    Option.bind_eq_bind, Option.bind_some]
  exact ⟨_, rfl⟩

end Sample

/-- A sponsored payment asks for what is meant, of the relayer and the wallet. -/
theorem asks_of_sponsored {p : SponsoredPayment} {wallet : Pubkey}
    (hwallet : parsePubkey walletPubkeyB58 = some wallet)
    (hbuild : p.build c blockhash walletPubkeyB58 amount relayerPubkeyB58 = some text) :
    ∃ relayer m meant, parsePubkey relayerPubkeyB58 = some relayer ∧
      p.meant c relayer wallet amount = some meant ∧ Asks text m meant ∧
        parsePubkey blockhash = some m.recentBlockhash ∧ m.header.numRequiredSignatures = 2 ∧
          (∃ others, m.accountKeys = relayer :: wallet :: others) ∧ ¬NamesFeePayer m ∧ m.Fits := by
  cases p with
  | sol merchantDid =>
    simp only [SponsoredPayment.build, buildUnsignedSponsoredTransferTx, hwallet, Option.bind_eq_bind,
      Option.bind_some, Option.bind_eq_some_iff, Option.some_inj] at hbuild
    obtain ⟨merchant, hmerchant, relayer, hrelayer, blockhash, hblockhash, rfl⟩ := hbuild
    have hmeant : SponsoredPayment.meant c relayer wallet amount (.sol merchantDid) =
        some ⟨[relayer, wallet, merchant, systemProgramId],
          [solTransferInstruction wallet merchant amount]⟩ := by
      rw [SponsoredPayment.meant, hmerchant]
      rfl
    have hfits : (messageWith (2, 0, 1) [relayer, wallet, merchant, systemProgramId] blockhash
        [⟨3, [1, 2], systemTransferData amount⟩]).Fits := by
      simp [Message.Fits, CompiledInstruction.Fits, messageWith, systemTransferData]
    refine ⟨relayer, messageWith (2, 0, 1) [relayer, wallet, merchant, systemProgramId] blockhash
      [⟨3, [1, 2], systemTransferData amount⟩], _, hrelayer, hmeant, ?_, hblockhash, rfl, ⟨_, rfl⟩, ?_,
      hfits⟩
    · rw [encode_unsigned _ _ _ _ (by rfl)]
      refine asks_of_message rfl ?_ (.cons (sponsoredTransfer_compiles _ _ _ _ _) .nil) hfits
      simp [Message.Sane, messageWith]
    · simp [NamesFeePayer, messageWith]
  | spl merchantWalletB58 tokenMintB58 =>
    simp only [SponsoredPayment.build, buildUnsignedSponsoredSplTransferTx, hwallet,
      Option.bind_eq_bind, Option.bind_some, Option.bind_eq_some_iff, Option.some_inj] at hbuild
    obtain ⟨merchant, hmerchant, relayer, hrelayer, mint, hmint, blockhash, hblockhash, rfl⟩ := hbuild
    have hmeant : SponsoredPayment.meant c relayer wallet amount
        (.spl merchantWalletB58 tokenMintB58) =
        some ⟨[relayer, wallet, deriveAta c wallet mint, deriveAta c merchant mint, tokenProgramId],
          [splTransferInstruction wallet (deriveAta c wallet mint) (deriveAta c merchant mint)
            amount]⟩ := by
      rw [SponsoredPayment.meant, hmerchant, hmint]
      rfl
    have hfits : (messageWith (2, 0, 1) [relayer, wallet, deriveAta c wallet mint,
        deriveAta c merchant mint, tokenProgramId] blockhash
        [⟨4, [2, 3, 1], tokenTransferData amount⟩]).Fits := by
      simp [Message.Fits, CompiledInstruction.Fits, messageWith, tokenTransferData]
    refine ⟨relayer, messageWith (2, 0, 1) [relayer, wallet, deriveAta c wallet mint,
      deriveAta c merchant mint, tokenProgramId] blockhash
      [⟨4, [2, 3, 1], tokenTransferData amount⟩], _, hrelayer, hmeant, ?_, hblockhash, rfl, ⟨_, rfl⟩, ?_, hfits⟩
    · rw [encode_unsigned _ _ _ _ (by rfl)]
      refine asks_of_message rfl ?_ (.cons (sponsoredSplTransfer_compiles _ _ _ _ _ _) .nil) hfits
      simp [Message.Sane, messageWith]
    · simp [NamesFeePayer, messageWith]

/-- What the relayer sends for a payment: the instructions that are meant, which it has no part in; it
is taken if no account is there twice and the blockhash is the one that the wallet signed over. -/
structure GoesOut (ed : Ed25519) (rpc : Relayer.Rpc) (signedOver : Bytes 32) (meant : Meant)
    (sent : Legacy.Transaction) : Prop where
  compiles : List.Forall₂ (Compiles sent.message) sent.message.instructions meant.instructions
  payer : ¬NamesFeePayer sent.message
  taken_iff : Taken ed sent ↔
    meant.accounts.Nodup ∧ rpc.getLatestBlockhash.toOption = some signedOver

theorem goesOut_of_latest {ed : Ed25519} (hcorrect : Correct ed) (hunforged : Unforged ed)
    {rpc : Relayer.Rpc} {relayer latest : Bytes 32} {m : Message} {meant : Meant} {others : List Pubkey}
    (hasks : Asks text m meant) (htwo : m.header.numRequiredSignatures = 2)
    (hkeys : m.accountKeys = ed.publicKey relayer :: ed.publicKey secret :: others)
    (hpayer : ¬NamesFeePayer m) (hlatest : rpc.getLatestBlockhash = .ok latest) :
    GoesOut ed rpc m.recentBlockhash meant
      (signAt ed relayer 0 (withBlockhash latest (signAt ed secret 1 (unsigned m)))) := by
  set sent := signAt ed relayer 0 (withBlockhash latest (signAt ed secret 1 (unsigned m))) with hsent
  -- Signing and another blockhash leave the rest of the message as it is.
  have hmessage : ∃ b, sent.message = { m with recentBlockhash := b } := by
    rw [hsent, Relayer.message_signAt, withBlockhash]
    split
    · exact ⟨m.recentBlockhash, rfl⟩
    · exact ⟨latest, rfl⟩
  obtain ⟨b, hmessage⟩ := hmessage
  have hsane : sent.message.Sane := by
    rw [hmessage]
    exact hasks.sane
  refine ⟨?_, ?_, ?_⟩
  · rw [hmessage]
    exact hasks.compiles
  · rw [hmessage]
    exact hpayer
  · have hdistinct : sent.message.accountKeys.Nodup ↔ meant.accounts.Nodup := by
      rw [hmessage, ← hasks.accounts_eq]
    have hverifies : sent.Verifies ed ↔ latest = m.recentBlockhash :=
      verifies_sponsored_iff hcorrect hunforged htwo hkeys
    rw [hlatest, ← hdistinct]
    constructor
    · rintro ⟨hnodup, -, hv⟩
      exact ⟨hnodup, congrArg some (hverifies.mp hv)⟩
    · rintro ⟨hnodup, hsame⟩
      exact ⟨hnodup, hsane, hverifies.mpr (Option.some.inj hsame)⟩

namespace Sample

/-- Tokens for a shop that has some already. -/
def payment : SponsoredPayment := .spl (encodeBase58 shop.val) (encodeBase58 mint.val)

def sponsor : Pubkey := fill 32 7

/-- A node that takes whatever it is sent. -/
def node (latest : Bytes 32) : Relayer.Rpc where
  getLatestBlockhash := .ok latest
  sendAndConfirmTransaction _ := .ok placeholder
  describeBase58 _ := ""
  describeBincode _ := ""

theorem built_payment : ∃ text, payment.build transparent (encodeBase58 (fill 32 9).val)
    (encodeBase58 buyer.val) 250 (encodeBase58 sponsor.val) = some text := by
  simp only [payment, SponsoredPayment.build, buildUnsignedSponsoredSplTransferTx,
    parsePubkey_encodeBase58, Option.bind_eq_bind, Option.bind_some]
  exact ⟨_, rfl⟩

end Sample

end

end Wallet
