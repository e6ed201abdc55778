/-
Text as a program takes it apart: lines, white space around a text, bytes in hexadecimal, and
numbers in decimal.

* `lines_intercalate` — lines that were joined come apart again;
* `trim_of_ends` — a text that does not begin or end with white space is left as it is;
* `parseU64_decimal` — a number that was written is read back.
-/
import Mathlib

namespace Text

/-- The text of the characters; its bytes are put together as a list. -/
def ofChars (l : List Char) : String where
  toByteArray := ⟨⟨l.flatMap String.utf8EncodeChar⟩⟩
  isValidUTF8 := by
    refine .intro l (ByteArray.ext ?_)
    rw [List.utf8Encode, List.data_toByteArray]

theorem ofChars_eq (l : List Char) : ofChars l = String.ofList l := by
  refine String.toByteArray_inj.mp (ByteArray.ext ?_)
  show (⟨l.flatMap String.utf8EncodeChar⟩ : Array UInt8) = (l.utf8Encode).data
  rw [List.utf8Encode, List.data_toByteArray]

/-- `char::is_whitespace`. -/
def isWhitespace (c : Char) : Bool :=
  let n := c.toNat
  (9 ≤ n && n ≤ 13) || n = 0x20 || n = 0x85 || n = 0xa0 || n = 0x1680 || (0x2000 ≤ n && n ≤ 0x200a)
    || n = 0x2028 || n = 0x2029 || n = 0x202f || n = 0x205f || n = 0x3000

/-- `str::trim`. -/
def trim (s : List Char) : List Char := (s.dropWhile isWhitespace).rdropWhile isWhitespace

/-- One carriage return at the end of a line is not part of it. -/
def stripReturn (line : List Char) : List Char :=
  if line.getLast? = some '\r' then line.dropLast else line

/-- `str::lines`: what follows the last newline is a line only if it is not empty. -/
def lines (s : List Char) : List (List Char) :=
  let parts := s.splitOn '\n'
  parts.dropLast.map stripReturn ++ parts.getLast?.toList.filter fun line => line ≠ []

/-- `str::contains`. -/
def contains (pattern s : String) : Bool := s.toList.tails.any fun t => pattern.toList.isPrefixOf t

/-- `str::is_char_boundary`. -/
def isCharBoundary (s : String) (n : ℕ) : Bool :=
  s.toList.inits.any fun t => (t.map Char.utf8Size).sum = n

/-- The value of a hexadecimal digit, in either case. -/
def hexValue (c : Char) : Option ℕ :=
  ("0123456789abcdef".toList.idxOf? c).or ("0123456789ABCDEF".toList.idxOf? c)

/-- `hex::decode`: two digits for each byte. -/
def hexDecode : List Char → Option (List UInt8)
  | [] => some []
  | [_] => none
  | high :: low :: rest => do
    let x ← hexValue high
    let y ← hexValue low
    let bytes ← hexDecode rest
    some (UInt8.ofNat (16 * x + y) :: bytes)

def decimalDigits : List Char := "0123456789".toList

/-- A number in decimal. -/
def decimal (n : ℕ) : List Char :=
  if n = 0 then ['0'] else (Nat.digits 10 n).reverse.map fun d => decimalDigits.getD d '0'

/-- `str::parse::<u64>`: digits, with at most one plus sign before them. -/
def parseU64 (s : List Char) : Option UInt64 :=
  let digits := if s.head? = some '+' then s.tail else s
  if digits = [] then none
  else (digits.mapM fun c => decimalDigits.idxOf? c).bind fun ds =>
    let n := Nat.ofDigits 10 ds.reverse
    if n < 2 ^ 64 then some (UInt64.ofNat n) else none

/-! ### Lines -/

theorem lines_intercalate {ls : List (List Char)} {last : List Char}
    (hno : ∀ l ∈ ls ++ [last], '\n' ∉ l) (hreturn : ∀ l ∈ ls, l.getLast? ≠ some '\r')
    (hlast : last ≠ []) : lines (List.intercalate ['\n'] (ls ++ [last])) = ls ++ [last] := by
  have hparts : (List.intercalate ['\n'] (ls ++ [last])).splitOn '\n' = ls ++ [last] :=
    List.splitOn_intercalate _ hno (by simp)
  have hstrip : ls.map stripReturn = ls := by
    conv_rhs => rw [← List.map_id ls]
    exact List.map_congr_left fun l hl => if_neg (hreturn l hl)
  rw [lines, hparts, List.dropLast_concat, List.getLast?_concat, hstrip]
  simp [hlast]

/-! ### White space -/

theorem trim_of_ends {s : List Char} (hhead : ∀ c ∈ s.head?, isWhitespace c = false)
    (hlast : ∀ c ∈ s.getLast?, isWhitespace c = false) : trim s = s := by
  have hleft : s.dropWhile isWhitespace = s := by
    rcases s with _ | ⟨c, s⟩
    · rfl
    · exact List.dropWhile_cons_of_neg (by simp [hhead c rfl])
  rw [trim, hleft]
  rcases List.eq_nil_or_concat s with rfl | ⟨s, c, rfl⟩
  · rfl
  · rw [List.concat_eq_append] at hlast ⊢
    exact List.rdropWhile_concat_neg _ _ _ (by simp [hlast c (by simp)])

/-! ### Numbers -/

theorem idxOf?_decimalDigits {d : ℕ} (hd : d < 10) :
    decimalDigits.idxOf? (decimalDigits.getD d '0') = some d := by
  revert d
  decide

theorem mem_decimal {n : ℕ} {c : Char} (h : c ∈ decimal n) : c ∈ decimalDigits := by
  rw [decimal] at h
  split at h
  · obtain rfl := List.mem_singleton.mp h
    decide
  · obtain ⟨d, -, rfl⟩ := List.mem_map.mp h
    rw [List.getD_eq_getElem?_getD]
    rcases hd : decimalDigits[d]? with _ | c
    · decide
    · exact List.mem_of_getElem? hd

theorem decimal_ne_nil (n : ℕ) : decimal n ≠ [] := by
  rw [decimal]
  split
  · simp
  · next hn => simpa using Nat.digits_ne_nil_iff_ne_zero.mpr hn

theorem mapM_idxOf? {ds : List ℕ} (hlt : ∀ d ∈ ds, d < 10) :
    (ds.map fun d => decimalDigits.getD d '0').mapM (fun c => decimalDigits.idxOf? c) = some ds := by
  induction ds with
  | nil => rfl
  | cons d ds ih =>
    rw [List.map_cons, List.mapM_cons, idxOf?_decimalDigits (hlt d List.mem_cons_self),
      ih fun d hd => hlt d (List.mem_cons_of_mem _ hd)]
    rfl

theorem mapM_decimal (n : ℕ) : ∃ ds : List ℕ,
    (decimal n).mapM (fun c => decimalDigits.idxOf? c) = some ds ∧ Nat.ofDigits 10 ds.reverse = n := by
  by_cases hn : n = 0
  · subst hn
    exact ⟨[0], rfl, rfl⟩
  · rw [decimal, if_neg hn]
    refine ⟨_, mapM_idxOf? fun d hd => ?_, by rw [List.reverse_reverse, Nat.ofDigits_digits]⟩
    exact Nat.digits_lt_base (by omega) (List.mem_reverse.mp hd)

/-- A number that was written is read back. -/
theorem parseU64_decimal (x : UInt64) : parseU64 (decimal x.toNat) = some x := by
  obtain ⟨ds, hmapM, hvalue⟩ := mapM_decimal x.toNat
  have hsign : (decimal x.toNat).head? ≠ some '+' := by
    intro hplus
    have hmem := mem_decimal (List.mem_of_mem_head? hplus)
    revert hmem
    decide
  rw [parseU64, if_neg hsign, if_neg (decimal_ne_nil _), hmapM, Option.bind_some, hvalue,
    if_pos x.toNat_lt, UInt64.ofNat_toNat]

end Text
