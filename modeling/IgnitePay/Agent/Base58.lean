/-
Writing in base58, and reading back what was written (`bs58`).

* `decodeBase58_encodeBase58` — what was written is read back;
* `length_encodeBase58_lt` — 32 bytes take fewer than 64 characters.
-/
import IgnitePay.Agent.Identity

namespace Agent

open Bytes Solana

/-- `bs58::encode`: a leading zero byte is a `1`. -/
def encodeBase58 (bytes : List UInt8) : String :=
  let zeros := bytes.takeWhile fun b => b = 0
  let digits := (Nat.digits 58 (ofLe bytes.reverse)).reverse
  String.ofList (zeros.map (fun _ => '1') ++ digits.map fun d => base58Alphabet.getD d '1')

theorem debugPubkey_eq (k : Pubkey) : debugPubkey k = encodeBase58 k.val := rfl

/-! ### Characters -/

/-- A character of the alphabet is at the place of its digit. -/
theorem idxOf?_base58Alphabet {d : ℕ} (hd : d < 58) :
    base58Alphabet.idxOf? (base58Alphabet.getD d '1') = some d := by
  revert d
  decide

theorem getD_base58Alphabet_eq_one {d : ℕ} (hd : d < 58) (h : base58Alphabet.getD d '1' = '1') :
    d = 0 := by
  have hplace := idxOf?_base58Alphabet hd
  rw [h] at hplace
  exact (Option.some.inj hplace).symm

theorem mem_encodeBase58 {bytes : List UInt8} {c : Char} (h : c ∈ (encodeBase58 bytes).toList) :
    c ∈ base58Alphabet := by
  rw [encodeBase58, String.toList_ofList] at h
  rcases List.mem_append.mp h with h | h
  · obtain ⟨-, -, rfl⟩ := List.mem_map.mp h
    decide
  · obtain ⟨d, -, rfl⟩ := List.mem_map.mp h
    rw [List.getD_eq_getElem?_getD]
    rcases hd : base58Alphabet[d]? with _ | c
    · decide
    · exact List.mem_of_getElem? hd

/-! ### Numbers -/

theorem ofLe_eq_ofDigits (l : List UInt8) : ofLe l = Nat.ofDigits 256 (l.map UInt8.toNat) := by
  induction l with
  | nil => rfl
  | cons b l ih =>
    rw [ofLe, ih, List.map_cons, Nat.ofDigits_cons]

theorem ofLe_append_replicate (l : List UInt8) (n : ℕ) : ofLe (l ++ List.replicate n 0) = ofLe l := by
  rw [ofLe_eq_ofDigits, ofLe_eq_ofDigits, List.map_append, List.map_replicate]
  exact Nat.ofDigits_append_replicate_zero _

/-- Bytes that do not end in zero are the digits of their number. -/
theorem digits_ofLe {l : List UInt8} (h : ∀ b ∈ l.getLast?, b ≠ 0) :
    (Nat.digits 256 (ofLe l)).map UInt8.ofNat = l := by
  rw [ofLe_eq_ofDigits, Nat.digits_ofDigits 256 (by omega)]
  · rw [List.map_map]
    exact (List.map_congr_left fun b _ => UInt8.ofNat_toNat).trans (List.map_id l)
  · intro d hd
    obtain ⟨b, -, rfl⟩ := List.mem_map.mp hd
    exact b.toNat_lt
  · intro hne hlast
    have hne' : l ≠ [] := fun hnil => hne (by rw [hnil]; rfl)
    rw [List.getLast_map] at hlast
    exact h _ (List.getLast?_eq_some_getLast hne') (UInt8.toNat_inj.mp hlast)

/-! ### The round trip -/

/-- The zeros in front, and the rest. -/
theorem zeros_append_rest (bytes : List UInt8) : ∃ rest : List UInt8,
    bytes = List.replicate (bytes.takeWhile fun b => b = 0).length 0 ++ rest ∧
      ∀ b ∈ rest.head?, b ≠ 0 := by
  refine ⟨bytes.dropWhile fun b => b = 0, ?_, ?_⟩
  · have hzeros : (bytes.takeWhile fun b => b = 0) =
        List.replicate (bytes.takeWhile fun b => b = 0).length 0 :=
      List.eq_replicate_of_mem fun b hb => by simpa using List.mem_takeWhile_imp hb
    rw [← hzeros]
    exact List.takeWhile_append_dropWhile.symm
  · intro b hb hzero
    have hnot := List.head?_dropWhile_not (fun b : UInt8 => decide (b = 0)) bytes
    rw [Option.mem_def.mp hb] at hnot
    simp [hzero] at hnot

/-- The first digit of a number is not zero. -/
theorem head?_digits_ne_zero {b n d : ℕ} (h : d ∈ (Nat.digits b n).reverse.head?) : d ≠ 0 := by
  rw [List.head?_reverse] at h
  have hne : Nat.digits b n ≠ [] := by
    rintro hnil
    rw [hnil] at h
    simp at h
  rw [List.getLast?_eq_some_getLast hne] at h
  obtain rfl := Option.some.inj h
  exact Nat.getLast_digit_ne_zero b fun hzero => hne (by rw [hzero, Nat.digits_zero])

theorem takeWhile_encodeBase58 (zeros : List UInt8) {digits : List ℕ} (hlt : ∀ d ∈ digits, d < 58)
    (hhead : ∀ d ∈ digits.head?, d ≠ 0) :
    ((zeros.map (fun _ => '1') ++ digits.map fun d => base58Alphabet.getD d '1').takeWhile
      fun c => c = '1').length = zeros.length := by
  induction zeros with
  | nil =>
    rcases digits with _ | ⟨d, digits⟩
    · rfl
    · have hne : base58Alphabet.getD d '1' ≠ '1' := fun h =>
        hhead d rfl (getD_base58Alphabet_eq_one (hlt d List.mem_cons_self) h)
      rw [List.map_nil, List.nil_append, List.map_cons, List.takeWhile_cons_of_neg (by simpa using hne)]
      rfl
  | cons b zeros ih =>
    rw [List.map_cons, List.cons_append, List.takeWhile_cons_of_pos rfl, List.length_cons, ih,
      List.length_cons]

theorem mapM_idxOf? (zeros : List UInt8) {digits : List ℕ} (hlt : ∀ d ∈ digits, d < 58) :
    (zeros.map (fun _ => '1') ++ digits.map fun d => base58Alphabet.getD d '1').mapM
        (fun c => base58Alphabet.idxOf? c) = some (List.replicate zeros.length 0 ++ digits) := by
  induction zeros with
  | nil =>
    induction digits with
    | nil => rfl
    | cons d digits ih =>
      have ih := ih fun d hd => hlt d (List.mem_cons_of_mem _ hd)
      rw [List.map_nil, List.nil_append] at ih ⊢
      rw [List.map_cons, List.mapM_cons, idxOf?_base58Alphabet (hlt d List.mem_cons_self), ih]
      rfl
  | cons b zeros ih =>
    rw [List.map_cons, List.cons_append, List.mapM_cons, ih]
    rfl

/-- What was written is read back. -/
theorem decodeBase58_encodeBase58 (bytes : List UInt8) :
    decodeBase58 (encodeBase58 bytes) = some bytes := by
  obtain ⟨rest, hsplit, hrest⟩ := zeros_append_rest bytes
  set zeros := bytes.takeWhile fun b => b = 0 with hzeros
  have hnumber : ofLe bytes.reverse = ofLe rest.reverse := by
    rw [hsplit, List.reverse_append, List.reverse_replicate, ofLe_append_replicate]
  have hlt : ∀ d ∈ (Nat.digits 58 (ofLe bytes.reverse)).reverse, d < 58 := fun d hd =>
    Nat.digits_lt_base (by omega) (List.mem_reverse.mp hd)
  rw [decodeBase58, encodeBase58, String.toList_ofList]
  rw [takeWhile_encodeBase58 _ hlt fun d hd => head?_digits_ne_zero hd, mapM_idxOf? _ hlt,
    Option.map_some, List.reverse_append, List.reverse_reverse, List.reverse_replicate,
    Nat.ofDigits_append_replicate_zero, Nat.ofDigits_digits, hnumber]
  -- The digits to the base 256 are the bytes after the zeros.
  have hdigits : (Nat.digits 256 (ofLe rest.reverse)).map UInt8.ofNat = rest.reverse :=
    digits_ofLe fun b hb => hrest b (by rwa [List.getLast?_reverse] at hb)
  rw [List.map_reverse, hdigits, List.reverse_reverse, ← hsplit]

theorem parsePubkey_encodeBase58 (k : Pubkey) : parsePubkey (encodeBase58 k.val) = some k := by
  rw [parsePubkey, decodeBase58_encodeBase58, Option.bind_some, exactly, dif_pos k.property]

/-! ### The length -/

/-- 32 bytes take fewer than 64 characters. -/
theorem length_encodeBase58_lt {bytes : List UInt8} (h : bytes.length = 32) :
    (encodeBase58 bytes).toList.length < 64 := by
  obtain ⟨rest, hsplit, -⟩ := zeros_append_rest bytes
  have hnumber : ofLe bytes.reverse = ofLe rest.reverse := by
    rw [hsplit, List.reverse_append, List.reverse_replicate, ofLe_append_replicate]
  have hlength : (bytes.takeWhile fun b => b = 0).length + rest.length = 32 := by
    have := congrArg List.length hsplit
    rw [List.length_append, List.length_replicate] at this
    omega
  rw [encodeBase58, String.toList_ofList, List.length_append, List.length_map, List.length_map,
    List.length_reverse]
  have hlt := ofLe_lt rest.reverse
  rw [← hnumber, List.length_reverse] at hlt
  -- Two characters are enough for a byte, and 44 for all of them.
  have htwice : (Nat.digits 58 (ofLe bytes.reverse)).length ≤ 2 * rest.length := by
    refine (Nat.digits_length_le_iff (by omega) _).mpr (hlt.trans_le ?_)
    calc 256 ^ rest.length ≤ (58 ^ 2) ^ rest.length := Nat.pow_le_pow_left (by norm_num) _
      _ = 58 ^ (2 * rest.length) := (pow_mul 58 2 rest.length).symm
  have hall : (Nat.digits 58 (ofLe bytes.reverse)).length ≤ 44 := by
    refine (Nat.digits_length_le_iff (by omega) _).mpr (hlt.trans_le ?_)
    calc 256 ^ rest.length ≤ 256 ^ 32 := Nat.pow_le_pow_right (by omega) (by omega)
      _ ≤ 58 ^ 44 := by norm_num
  omega

end Agent
