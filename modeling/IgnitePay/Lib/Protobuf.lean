/-
Messages in the wire format of protocol buffers.

A message is a list of fields, each a number and a value: an integer in base 128, or a
string of bytes with its length before it.  A value that is zero or empty is left out, a
nested message is a field of bytes, and of a field that may occur once the last
occurrence counts.

* `readFields_encodeFields` — the fields of a message are read back;
* `number_integer`, `bytes_blob` — so is the value of a field, left out or not.

Fixed-width values and groups are not treated, nor is the bound of 64 bits on an integer:
a reader here takes what the format says a writer produces.
-/
import Mathlib

namespace Protobuf

/-! ### Integers -/

/-- Base 128, low digits first; every byte but the last has its high bit set. -/
def varint (n : ℕ) : List UInt8 :=
  if n < 128 then [UInt8.ofNat n] else UInt8.ofNat (n % 128 + 128) :: varint (n / 128)

def readVarint : List UInt8 → Option (ℕ × List UInt8)
  | [] => none
  | b :: rest =>
    if b.toNat < 128 then some (b.toNat, rest)
    else (readVarint rest).map fun r => (b.toNat - 128 + 128 * r.1, r.2)

theorem readVarint_varint (n : ℕ) (rest : List UInt8) :
    readVarint (varint n ++ rest) = some (n, rest) := by
  induction n using varint.induct with
  | case1 n hn =>
    have hbyte : (UInt8.ofNat n).toNat = n := by
      rw [UInt8.toNat_ofNat']
      omega
    rw [varint, if_pos hn, List.singleton_append, readVarint, hbyte, if_pos hn]
  | case2 n hn ih =>
    have hbyte : (UInt8.ofNat (n % 128 + 128)).toNat = n % 128 + 128 := by
      rw [UInt8.toNat_ofNat']
      omega
    rw [varint, if_neg hn, List.cons_append, readVarint, hbyte, if_neg (by omega), ih]
    show some (n % 128 + 128 - 128 + 128 * (n / 128), rest) = _
    rw [show n % 128 + 128 - 128 + 128 * (n / 128) = n by omega]

/-! ### Fields -/

inductive Value
  | integer (n : ℕ)
  | bytes (l : List UInt8)

/-- The number of a field, and its value. -/
abbrev Field := ℕ × Value

/-- The key of a field is its number and, in the low three bits, its wire type. -/
def encodeField : Field → List UInt8
  | (k, .integer n) => varint (8 * k) ++ varint n
  | (k, .bytes l) => varint (8 * k + 2) ++ (varint l.length ++ l)

def readField (bytes : List UInt8) : Option (Field × List UInt8) := do
  let (key, rest) ← readVarint bytes
  let (n, rest) ← readVarint rest
  match key % 8 with
  | 0 => some ((key / 8, .integer n), rest)
  | 2 => if n ≤ rest.length then some ((key / 8, .bytes (rest.take n)), rest.drop n) else none
  | _ => none

theorem readField_encodeField (f : Field) (rest : List UInt8) :
    readField (encodeField f ++ rest) = some (f, rest) := by
  obtain ⟨k, n | l⟩ := f
  · rw [encodeField, List.append_assoc, readField, readVarint_varint]
    show (readVarint (varint n ++ rest)).bind _ = _
    rw [readVarint_varint]
    show (match 8 * k % 8 with
      | 0 => some ((8 * k / 8, Value.integer n), rest)
      | 2 => _
      | _ => none) = _
    rw [show 8 * k % 8 = 0 by omega, show 8 * k / 8 = k by omega]
    rfl
  · rw [encodeField, List.append_assoc, List.append_assoc, readField, readVarint_varint]
    show (readVarint (varint l.length ++ (l ++ rest))).bind _ = _
    rw [readVarint_varint]
    show (match (8 * k + 2) % 8 with
      | 0 => some (((8 * k + 2) / 8, Value.integer l.length), l ++ rest)
      | 2 => if l.length ≤ (l ++ rest).length then
          some (((8 * k + 2) / 8, Value.bytes ((l ++ rest).take l.length)), (l ++ rest).drop l.length)
        else none
      | _ => none) = _
    rw [show (8 * k + 2) % 8 = 2 by omega, show (8 * k + 2) / 8 = k by omega]
    show (if l.length ≤ (l ++ rest).length then _ else _) = _
    rw [if_pos (by rw [List.length_append]; omega), List.take_left, List.drop_left]

def encodeFields (fields : List Field) : List UInt8 := fields.flatMap encodeField

/-- At most so many fields. -/
def readUpTo : ℕ → List UInt8 → Option (List Field)
  | _, [] => some []
  | 0, _ => none
  | limit + 1, bytes => do
    let (f, rest) ← readField bytes
    let fields ← readUpTo limit rest
    some (f :: fields)

def readFields (bytes : List UInt8) : Option (List Field) := readUpTo bytes.length bytes

theorem length_encodeField_pos (f : Field) : 0 < (encodeField f).length := by
  have hpos : ∀ n, 0 < (varint n).length := by
    intro n
    rw [varint]
    split
    · exact Nat.one_pos
    · exact Nat.succ_pos _
  obtain ⟨k, n | l⟩ := f
  · rw [encodeField, List.length_append]
    have := hpos (8 * k)
    omega
  · rw [encodeField, List.length_append]
    have := hpos (8 * k + 2)
    omega

theorem readUpTo_encodeFields {fields : List Field} {limit : ℕ}
    (hlimit : (encodeFields fields).length ≤ limit) :
    readUpTo limit (encodeFields fields) = some fields := by
  induction fields generalizing limit with
  | nil => cases limit <;> rfl
  | cons f fields ih =>
    rw [encodeFields, List.flatMap_cons, ← encodeFields] at hlimit ⊢
    have hpos := length_encodeField_pos f
    rw [List.length_append] at hlimit
    obtain ⟨limit, rfl⟩ : ∃ m, limit = m + 1 := ⟨limit - 1, by omega⟩
    rcases hbytes : encodeField f ++ encodeFields fields with _ | ⟨b, bytes⟩
    · rw [(List.append_eq_nil_iff.mp hbytes).1] at hpos
      exact absurd hpos (by simp)
    · rw [readUpTo, ← hbytes, readField_encodeField]
      · show (readUpTo limit (encodeFields fields)).bind _ = _
        rw [ih (by omega)]
        rfl
      · exact List.cons_ne_nil b bytes

theorem readFields_encodeFields (fields : List Field) :
    readFields (encodeFields fields) = some fields := readUpTo_encodeFields le_rfl

/-! ### Messages -/

/-- A field with an integer; zero is left out. -/
def integer (k n : ℕ) : List Field := if n = 0 then [] else [(k, .integer n)]

/-- A field with bytes; the empty string is left out. -/
def blob (k : ℕ) (l : List UInt8) : List Field := if l = [] then [] else [(k, .bytes l)]

/-- A field for every message of a list. -/
def nested (k : ℕ) (ls : List (List UInt8)) : List Field := ls.map fun l => (k, .bytes l)

/-- The integers under a number. -/
def integers (k : ℕ) (fields : List Field) : List ℕ := fields.filterMap fun
  | (k', .integer n) => if k' = k then some n else none
  | _ => none

/-- The strings of bytes under a number. -/
def blobs (k : ℕ) (fields : List Field) : List (List UInt8) := fields.filterMap fun
  | (k', .bytes l) => if k' = k then some l else none
  | _ => none

/-- The value of a field that occurs once. -/
def number (k : ℕ) (fields : List Field) : ℕ := ((integers k fields).getLast?).getD 0

def bytes (k : ℕ) (fields : List Field) : List UInt8 := ((blobs k fields).getLast?).getD []

variable {k k' n : ℕ} {l : List UInt8} {ls : List (List UInt8)} {fields fields' : List Field}

@[simp] theorem integers_append :
    integers k (fields ++ fields') = integers k fields ++ integers k fields' := List.filterMap_append

@[simp] theorem blobs_append :
    blobs k (fields ++ fields') = blobs k fields ++ blobs k fields' := List.filterMap_append

@[simp] theorem integers_blob : integers k (blob k' l) = [] := by
  rw [blob]
  split <;> rfl

@[simp] theorem integers_nested : integers k (nested k' ls) = [] := by
  rw [integers, nested, List.filterMap_map]
  exact List.filterMap_eq_nil_iff.mpr fun _ _ => rfl

@[simp] theorem blobs_integer : blobs k (integer k' n) = [] := by
  rw [integer]
  split <;> rfl

theorem integers_integer :
    integers k (integer k' n) = if k' = k ∧ n ≠ 0 then [n] else [] := by
  rw [integer]
  by_cases hn : n = 0
  · rw [if_pos hn, if_neg fun h => h.2 hn]
    rfl
  · rw [if_neg hn]
    by_cases hk : k' = k
    · rw [if_pos ⟨hk, hn⟩]
      simp [integers, hk]
    · rw [if_neg fun h => hk h.1]
      simp [integers, hk]

theorem blobs_blob : blobs k (blob k' l) = if k' = k ∧ l ≠ [] then [l] else [] := by
  rw [blob]
  by_cases hl : l = []
  · rw [if_pos hl, if_neg fun h => h.2 hl]
    rfl
  · rw [if_neg hl]
    by_cases hk : k' = k
    · rw [if_pos ⟨hk, hl⟩]
      simp [blobs, hk]
    · rw [if_neg fun h => hk h.1]
      simp [blobs, hk]

@[simp] theorem integers_integer_of_ne (h : k' ≠ k) : integers k (integer k' n) = [] := by
  rw [integers_integer, if_neg fun hk => h hk.1]

@[simp] theorem blobs_blob_of_ne (h : k' ≠ k) : blobs k (blob k' l) = [] := by
  rw [blobs_blob, if_neg fun hk => h hk.1]

@[simp] theorem blobs_nested : blobs k (nested k ls) = ls := by
  rw [blobs, nested, List.filterMap_map]
  simp

@[simp] theorem blobs_nested_of_ne (h : k' ≠ k) : blobs k (nested k' ls) = [] := by
  rw [blobs, nested, List.filterMap_map]
  simp [h]

@[simp] theorem number_integer : ((integers k (integer k n)).getLast?).getD 0 = n := by
  rw [integers_integer]
  by_cases hn : n = 0
  · rw [if_neg fun h => h.2 hn, hn]
    rfl
  · rw [if_pos ⟨rfl, hn⟩]
    rfl

@[simp] theorem bytes_blob : ((blobs k (blob k l)).getLast?).getD [] = l := by
  rw [blobs_blob]
  by_cases hl : l = []
  · rw [if_neg fun h => h.2 hl, hl]
    rfl
  · rw [if_pos ⟨rfl, hl⟩]
    rfl

end Protobuf
