/-
Program-derived addresses (`ignite_pay_app/rust/src/api/session.rs`, `cctp_transfer.rs`).

Solana derives the address of a program's account from seeds: the hash of the seeds, a bump, the
program id and a marker, for the first bump from 255 down whose hash is not a point of the curve.
The wallet has two searches of its own.  That of `session.rs` hashes the same strings; that of
`cctp_transfer.rs` leaves the marker out and puts the bump last, and so looks among other hashes.

* `findProgramAddress_eq_some` — what Solana's search finds, in terms of `List.find?`;
* `findProgramAddressSimple_eq` — the first search finds it too;
* `deriveAta_ne` — the second does not, whatever the owner, if no two of the hashed strings collide;
* `program_addresses` — both, for the functions of the wallet.
-/
import IgnitePay.Agent.Base58
import IgnitePay.Lib.Machine
import IgnitePay.Wallet.Transactions

namespace Wallet

open Agent (decodeBase58 exactly encodeBase58)
open Bytes Machine Solana Sha256

/-! ### Solana's search -/

section

variable (c : Crypto)

/-- `Pubkey::create_program_address`: at most 16 seeds, of at most 32 bytes each. -/
def createProgramAddress (seeds : List (List UInt8)) (programId : Pubkey) : Option Pubkey :=
  if 16 < seeds.length ∨ seeds.any (fun seed => decide (32 < seed.length)) = true then none
  else
    let hash := sha256 (seeds.flatten ++ programId.val ++ utf8 "ProgramDerivedAddress")
    if c.isOnCurve hash then none else some hash

/-- The bumps of `Pubkey::find_program_address`, which does not try 0. -/
def bumps : List ℕ := (List.range' 1 255).reverse

/-- `Pubkey::find_program_address`, or `try_find_program_address`. -/
def findProgramAddress (seeds : List (List UInt8)) (programId : Pubkey) : Option Pubkey :=
  bumps.findSome? fun bump => createProgramAddress c (seeds ++ [[UInt8.ofNat bump]]) programId

/-! ### The search of `cctp_transfer.rs` -/

/-- The base58 decoding of `EPjFWdd5AufqSSqeM2qN1xzybapC8G4wEGGkZwyTDt1v`. -/
def usdcSolana : Pubkey :=
  ⟨[198, 250, 122, 243, 190, 219, 173, 58, 61, 101, 243, 106, 171, 201, 116, 49, 177, 187, 228, 194,
    210, 246, 224, 228, 124, 166, 2, 3, 69, 47, 93, 97], rfl⟩

namespace Cctp

inductive AtaError
  /-- What `bs58` says of a text that it cannot decode. -/
  | base58
  | failed (text : String)
  deriving DecidableEq

/-- What is hashed for a nonce. -/
def ataPreimage (owner mint : Pubkey) (nonce : ℕ) : List UInt8 :=
  owner.val ++ tokenProgramId.val ++ mint.val ++ ataProgramId.val ++ [UInt8.ofNat nonce]

/-- "Derive Associated Token Account address matching Solana's find_program_address." -/
def deriveAta (owner mint : Pubkey) : Pubkey :=
  let hashes := (List.range 256).reverse.map fun nonce => sha256 (ataPreimage owner mint nonce)
  (hashes.find? fun hash => !c.isOnCurve hash).getD (fill 32 0)

def cctpDeriveSolanaUsdcAta (wallet_b58 : String) : Except AtaError String := do
  let wallet_bytes ← orErr (decodeBase58 wallet_b58) .base58
  let wallet_arr ← orErr (exactly 32 wallet_bytes)
    (.failed ("Wallet public key must be 32 bytes, got " ++ toString wallet_bytes.length))
  .ok (hexEncode (deriveAta c wallet_arr usdcSolana).val)

end Cctp

/-! ### What the searches find -/

/-- What Solana hashes for a bump. -/
def pdaPreimage (seeds : List (List UInt8)) (programId : Pubkey) (bump : ℕ) : List UInt8 :=
  seeds.flatten ++ [UInt8.ofNat bump] ++ programId.val ++ utf8 "ProgramDerivedAddress"

/-- The strings of a search, up to the first whose hash is not on the curve. -/
def tried : List (List UInt8) → List (List UInt8)
  | [] => []
  | x :: xs => if c.isOnCurve (sha256 x) then x :: tried xs else [x]

end

variable {c : Crypto} {seeds : List (List UInt8)} {programId a : Pubkey}

theorem mem_tried_of_find? {preimage : ℕ → List UInt8} {l : List ℕ} {n : ℕ}
    (h : l.find? (fun n => !c.isOnCurve (sha256 (preimage n))) = some n) :
    preimage n ∈ tried c (l.map preimage) := by
  induction l with
  | nil => exact absurd h (by simp)
  | cons m l ih =>
    rw [List.map_cons, tried]
    cases hm : c.isOnCurve (sha256 (preimage m)) with
    | true =>
      rw [List.find?_cons_of_neg (by simp [hm])] at h
      exact List.mem_cons_of_mem _ (ih h)
    | false =>
      rw [List.find?_cons_of_pos (by simp [hm])] at h
      obtain rfl := Option.some_inj.mp h
      exact List.mem_cons_self

/-- The seeds that a bump can be added to. -/
def Fit (seeds : List (List UInt8)) : Prop := seeds.length < 16 ∧ ∀ seed ∈ seeds, seed.length ≤ 32

instance (seeds : List (List UInt8)) : Decidable (Fit seeds) := inferInstanceAs (Decidable (_ ∧ _))

/-- The bump is a seed like the others, the last. -/
theorem createProgramAddress_bump (bump : ℕ) :
    createProgramAddress c (seeds ++ [[UInt8.ofNat bump]]) programId =
      if Fit seeds ∧ c.isOnCurve (sha256 (pdaPreimage seeds programId bump)) = false then
        some (sha256 (pdaPreimage seeds programId bump))
      else none := by
  have hflat : (seeds ++ [[UInt8.ofNat bump]]).flatten = seeds.flatten ++ [UInt8.ofNat bump] := by
    simp
  have hfit : ¬ (16 < (seeds ++ [[UInt8.ofNat bump]]).length ∨ (seeds ++ [[UInt8.ofNat bump]]).any
      (fun seed => decide (32 < seed.length)) = true) ↔ Fit seeds := by
    rw [not_or, Fit, List.length_append, List.length_singleton]
    refine and_congr ?_ ?_
    · omega
    · simp
  rw [createProgramAddress]
  by_cases hseeds : Fit seeds
  · rw [if_neg (hfit.mpr hseeds), hflat]
    show (if c.isOnCurve (sha256 (pdaPreimage seeds programId bump)) = true then none
      else some (sha256 (pdaPreimage seeds programId bump))) = _
    cases hcurve : c.isOnCurve (sha256 (pdaPreimage seeds programId bump)) with
    | true => simp
    | false => simp [hseeds]
  · rw [if_pos (not_not.mp fun h => hseeds (hfit.mp h)), if_neg fun h => hseeds h.1]

theorem findSome?_ite {α β : Type} {p : α → Bool} {g : α → β} {q : Prop} [Decidable q] (l : List α) :
    (l.findSome? fun x => if q ∧ p x = false then some (g x) else none) =
      if q then (l.find? fun x => !p x).map g else none := by
  induction l with
  | nil => simp
  | cons x l ih =>
    rw [List.findSome?_cons, ih]
    by_cases hq : q
    · cases hx : p x with
      | true => simp [hq, hx]
      | false => simp [hq, hx]
    · simp [hq]

/-- Solana's search, as one among the bumps. -/
theorem findProgramAddress_eq_some : findProgramAddress c seeds programId = some a ↔
    Fit seeds ∧ ∃ n, (bumps.find? fun n => !c.isOnCurve (sha256 (pdaPreimage seeds programId n))) = some n ∧
      sha256 (pdaPreimage seeds programId n) = a := by
  rw [findProgramAddress]
  simp only [createProgramAddress_bump]
  rw [findSome?_ite]
  by_cases hseeds : Fit seeds
  · rw [if_pos hseeds, Option.map_eq_some_iff]
    simp [hseeds]
  · simp [hseeds]

/-- The search of the wallet goes on to 0. -/
theorem range_reverse : (List.range 256).reverse = bumps ++ [0] := by
  rw [bumps, List.range_eq_range', show 256 = 255 + 1 from rfl, List.range'_succ, List.reverse_cons]

theorem findProgramAddressSimple_eq (h : findProgramAddress c seeds programId = some a) :
    findProgramAddressSimple c seeds programId = a := by
  obtain ⟨-, n, hfind, rfl⟩ := findProgramAddress_eq_some.mp h
  show (((List.range 256).reverse.map fun n => sha256 (pdaPreimage seeds programId n)).find?
    fun hash => !c.isOnCurve hash).getD (fill 32 0) = _
  have hcomp : (fun hash => !c.isOnCurve hash) ∘ (fun n => sha256 (pdaPreimage seeds programId n)) =
      fun n => !c.isOnCurve (sha256 (pdaPreimage seeds programId n)) := rfl
  rw [List.find?_map, hcomp, range_reverse, List.find?_append, hfind]
  rfl

/-- The other search hashes strings of another length. -/
theorem deriveAta_ne {owner mint : Pubkey} (hzero : c.isOnCurve (fill 32 0) = true)
    (h : findProgramAddress c [owner.val, tokenProgramId.val, mint.val] ataProgramId = some a)
    (hfree : Sha256.CollisionFree sha256
      {x | x ∈ tried c (bumps.map (pdaPreimage [owner.val, tokenProgramId.val, mint.val] ataProgramId)) ∨
        x ∈ tried c ((List.range 256).reverse.map (Cctp.ataPreimage owner mint))}) :
    Cctp.deriveAta c owner mint ≠ a := by
  obtain ⟨-, n, hfind, rfl⟩ := findProgramAddress_eq_some.mp h
  have hcomp : (fun hash => !c.isOnCurve hash) ∘ (fun n => sha256 (Cctp.ataPreimage owner mint n)) =
      fun n => !c.isOnCurve (sha256 (Cctp.ataPreimage owner mint n)) := rfl
  rw [Cctp.deriveAta, List.find?_map, hcomp]
  intro heq
  cases hother : (List.range 256).reverse.find?
      fun n => !c.isOnCurve (sha256 (Cctp.ataPreimage owner mint n)) with
  | none =>
    -- Nothing was found: zeros are a point of the curve, and an address is none.
    rw [hother] at heq
    have hzeros : fill 32 0 = sha256 (pdaPreimage [owner.val, tokenProgramId.val, mint.val]
        ataProgramId n) := heq
    have hoff := List.find?_some hfind
    rw [← hzeros, hzero] at hoff
    exact absurd hoff (by simp)
  | some m =>
    rw [hother] at heq
    have hcollide := hfree (.inr (mem_tried_of_find? hother)) (.inl (mem_tried_of_find? hfind)) heq
    have hlength := congrArg List.length hcollide
    have hmarker : (utf8 "ProgramDerivedAddress").length = 21 := by decide
    simp [Cctp.ataPreimage, pdaPreimage, hmarker] at hlength

/-! ### The two functions -/

theorem hexDigits_inj {i j : ℕ} (hi : i < 16) (hj : j < 16)
    (h : hexDigits.getD i '0' = hexDigits.getD j '0') : i = j := by
  have hall : ∀ i < 16, ∀ j < 16, hexDigits.getD i '0' = hexDigits.getD j '0' → i = j := by decide
  exact hall i hi j hj h

theorem hexEncode_inj {l l' : List UInt8} (h : hexEncode l = hexEncode l') : l = l' := by
  replace h := congrArg String.toList h
  rw [hexEncode, hexEncode, String.toList_ofList, String.toList_ofList] at h
  induction l generalizing l' with
  | nil =>
    cases l' with
    | nil => rfl
    | cons b l' => exact absurd h (by simp)
  | cons b l ih =>
    cases l' with
    | nil => exact absurd h (by simp)
    | cons b' l' =>
      simp only [List.flatMap_cons, List.cons_append, List.nil_append, List.cons.injEq] at h
      obtain ⟨hhigh, hlow, hrest⟩ := h
      have hb := b.toNat_lt
      have hb' := b'.toNat_lt
      have hhigh := hexDigits_inj (by omega) (by omega) hhigh
      have hlow := hexDigits_inj (Nat.mod_lt _ (by omega)) (Nat.mod_lt _ (by omega)) hlow
      have hbyte : b = b' := UInt8.toNat_inj.mp (by omega)
      rw [hbyte, ih hrest]

/-- The search of `session.rs` finds what Solana's finds; that of `cctp_transfer.rs` answers every
owner with another address. -/
theorem program_addresses (c : Crypto) :
    (∀ (seeds : List (List UInt8)) (programId a : Pubkey),
      findProgramAddress c seeds programId = some a → findProgramAddressSimple c seeds programId = a) ∧
    ∀ (wallet_b58 : String) (owner a : Pubkey), decodeBase58 wallet_b58 = some owner.val →
      findProgramAddress c [owner.val, tokenProgramId.val, usdcSolana.val] ataProgramId = some a →
      c.isOnCurve (fill 32 0) = true →
      Sha256.CollisionFree sha256
        {x | x ∈ tried c (bumps.map
            (pdaPreimage [owner.val, tokenProgramId.val, usdcSolana.val] ataProgramId)) ∨
          x ∈ tried c ((List.range 256).reverse.map (Cctp.ataPreimage owner usdcSolana))} →
      ∃ ata, Cctp.cctpDeriveSolanaUsdcAta c wallet_b58 = .ok (hexEncode ata) ∧
        hexEncode ata ≠ hexEncode a.val := by
  refine ⟨fun _ _ _ => findProgramAddressSimple_eq, fun wallet_b58 owner a hwallet hfind hzero hfree => ?_⟩
  have hexact : exactly 32 owner.val = some owner := dif_pos owner.property
  refine ⟨(Cctp.deriveAta c owner usdcSolana).val, ?_, fun h => ?_⟩
  · exact bind_eq_ok.mpr ⟨_, orErr_eq_ok.mpr hwallet, bind_eq_ok.mpr ⟨_, orErr_eq_ok.mpr hexact, rfl⟩⟩
  · exact deriveAta_ne hzero hfind hfree (Subtype.ext (hexEncode_inj h))

namespace AddressSample

def owner : Pubkey :=
  ⟨[3, 117, 159, 237, 7, 40, 121, 109, 208, 134, 249, 36, 231, 162, 159, 52, 186, 34, 63, 206, 92,
    135, 31, 125, 183, 130, 167, 55, 170, 102, 118, 216], rfl⟩

def wallet_b58 : String := "EWFZJuFzfx1bdWH5wa67KL1joEvYhGF5m6cL9mjHp1V"

/-- The owner's token account for USDC: bump 255 gives a hash that is not on the curve. -/
def account : Pubkey :=
  ⟨[33, 148, 181, 108, 93, 203, 45, 0, 232, 255, 81, 36, 59, 97, 180, 231, 253, 112, 239, 19, 188,
    49, 83, 175, 45, 31, 96, 2, 151, 35, 250, 177], rfl⟩

/-- The curve, as far as it is asked: zeros are a point of it, the hashes that are tried are not. -/
def crypto : Crypto where
  publicKey _ := fill 32 0
  sign _ _ := fill 64 0
  verify _ _ _ := false
  isOnCurve b := decide (b = fill 32 0)

theorem wallet_decodes : decodeBase58 wallet_b58 = some owner.val := by
  decide

theorem account_found :
    findProgramAddress crypto [owner.val, tokenProgramId.val, usdcSolana.val] ataProgramId = some account := by
  decide +kernel

/-- Either search ends at its first string. -/
theorem tried_account :
    tried crypto (bumps.map (pdaPreimage [owner.val, tokenProgramId.val, usdcSolana.val] ataProgramId)) =
      [pdaPreimage [owner.val, tokenProgramId.val, usdcSolana.val] ataProgramId 255] := by
  decide +kernel

theorem tried_ata : tried crypto ((List.range 256).reverse.map (Cctp.ataPreimage owner usdcSolana)) =
    [Cctp.ataPreimage owner usdcSolana 255] := by
  decide +kernel

theorem hashes_differ :
    sha256 (pdaPreimage [owner.val, tokenProgramId.val, usdcSolana.val] ataProgramId 255) ≠
      sha256 (Cctp.ataPreimage owner usdcSolana 255) := by
  decide +kernel

theorem collisionFree : Sha256.CollisionFree sha256
    {x | x ∈ tried crypto (bumps.map
        (pdaPreimage [owner.val, tokenProgramId.val, usdcSolana.val] ataProgramId)) ∨
      x ∈ tried crypto ((List.range 256).reverse.map (Cctp.ataPreimage owner usdcSolana))} := by
  rw [tried_account, tried_ata]
  simp only [List.mem_singleton]
  rintro x (rfl | rfl) y (rfl | rfl) h
  · rfl
  · exact absurd h hashes_differ
  · exact absurd h.symm hashes_differ
  · rfl

end AddressSample

/-- The owner's token account is found by one search, and missed by the other. -/
theorem program_addresses_owner :
    findProgramAddressSimple AddressSample.crypto
        [AddressSample.owner.val, tokenProgramId.val, usdcSolana.val] ataProgramId
      = AddressSample.account ∧
    ∃ ata, Cctp.cctpDeriveSolanaUsdcAta AddressSample.crypto AddressSample.wallet_b58 =
        .ok (hexEncode ata) ∧ hexEncode ata ≠ hexEncode AddressSample.account.val := by
  obtain ⟨hsimple, hother⟩ := program_addresses AddressSample.crypto
  exact ⟨hsimple _ _ _ AddressSample.account_found,
    hother _ _ _ AddressSample.wallet_decodes AddressSample.account_found rfl AddressSample.collisionFree⟩

/-- The address that is given for the owner's USDC is not that of the account. -/
theorem usdc_ata_differs :
    decodeBase58 AddressSample.wallet_b58 = some AddressSample.owner.val ∧
    findProgramAddress AddressSample.crypto
        [AddressSample.owner.val, tokenProgramId.val, usdcSolana.val] ataProgramId
      = some AddressSample.account ∧
    Cctp.cctpDeriveSolanaUsdcAta AddressSample.crypto AddressSample.wallet_b58
      = .ok "b54d98b599f11aab7d09c363d8f19812e70af1b598e06c1df62297d80303d515" ∧
    hexEncode AddressSample.account.val
      = "2194b56c5dcb2d00e8ff51243b61b4e7fd70ef13bc3153af2d1f60029723fab1" := by
  refine ⟨AddressSample.wallet_decodes, AddressSample.account_found, ?_, by decide⟩
  have hexact : exactly 32 AddressSample.owner.val = some AddressSample.owner :=
    dif_pos AddressSample.owner.property
  have hata : hexEncode (Cctp.deriveAta AddressSample.crypto AddressSample.owner usdcSolana).val
      = "b54d98b599f11aab7d09c363d8f19812e70af1b598e06c1df62297d80303d515" := by
    decide +kernel
  refine bind_eq_ok.mpr ⟨_, orErr_eq_ok.mpr AddressSample.wallet_decodes, ?_⟩
  exact bind_eq_ok.mpr ⟨_, orErr_eq_ok.mpr hexact, congrArg Except.ok hata⟩

end Wallet
