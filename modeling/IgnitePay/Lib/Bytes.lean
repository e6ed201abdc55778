/-
Byte strings of fixed width and little-endian integers.

A Rust array `[u8; n]` is `Bytes n`, a list that carries its length, so a
value of the wrong width cannot be built.  The integer encodings of the wire
formats are `leBytes w x` (the `w` low bytes of `x`, low byte first) and its
inverse `ofLe`:

* `ofLe_leBytes` — what was written is read back, if it fits the width;
* `leBytes_inj` — so two integers that fit and encode alike are equal;
* `slice_of_eq`, `u16At_of_eq` — reading a field back out of a concatenation, the
  step every layout proof takes.
-/
import Mathlib

/-- `[u8; n]`. -/
abbrev Bytes (n : ℕ) := {l : List UInt8 // l.length = n}

namespace Bytes

@[simp] theorem length_val {n : ℕ} (b : Bytes n) : b.val.length = n := b.property

/-- The array that repeats one byte, `[x; n]`. -/
def fill (n : ℕ) (x : UInt8) : Bytes n := ⟨List.replicate n x, List.length_replicate⟩

/-- `b"..."`, of an ASCII literal. -/
def ofLiteral (s : String) : List UInt8 := s.toList.map fun c => UInt8.ofNat c.toNat

def hexDigits : List Char := "0123456789abcdef".toList

/-- `hex::encode`. -/
def hexEncode (bytes : List UInt8) : String :=
  String.ofList (bytes.flatMap fun b =>
    [hexDigits.getD (b.toNat / 16) '0', hexDigits.getD (b.toNat % 16) '0'])

/-- Little-endian encoding of `x` on `w` bytes. -/
def leBytes : ℕ → ℕ → List UInt8
  | 0, _ => []
  | w + 1, x => UInt8.ofNat (x % 256) :: leBytes w (x / 256)

/-- The integer a little-endian byte string stands for. -/
def ofLe : List UInt8 → ℕ
  | [] => 0
  | b :: bs => b.toNat + 256 * ofLe bs

@[simp] theorem length_leBytes (w x : ℕ) : (leBytes w x).length = w := by
  induction w generalizing x with
  | zero => rfl
  | succ w ih => simp [leBytes, ih]

/-- A number written out on `w` bytes, the lowest first. -/
def number (w x : ℕ) : Bytes w := ⟨leBytes w x, length_leBytes w x⟩

theorem ofLe_leBytes {w x : ℕ} (h : x < 256 ^ w) : ofLe (leBytes w x) = x := by
  induction w generalizing x with
  | zero =>
    have hx : x = 0 := by simpa using h
    subst hx
    rfl
  | succ w ih =>
    have hq : x / 256 < 256 ^ w := by
      rw [Nat.div_lt_iff_lt_mul (by norm_num)]
      simpa [pow_succ] using h
    rw [leBytes, ofLe, ih hq, UInt8.toNat_ofNat_of_lt' (Nat.mod_lt _ (by norm_num))]
    exact Nat.mod_add_div x 256

theorem ofLe_lt (l : List UInt8) : ofLe l < 256 ^ l.length := by
  induction l with
  | nil => simp [ofLe]
  | cons b bs ih =>
    have hb : b.toNat < 256 := b.toNat_lt
    rw [ofLe, List.length_cons, pow_succ]
    omega

theorem leBytes_ofLe (l : List UInt8) : leBytes l.length (ofLe l) = l := by
  induction l with
  | nil => rfl
  | cons b bs ih =>
    have hb : b.toNat < 256 := b.toNat_lt
    have hmod : (b.toNat + 256 * ofLe bs) % 256 = b.toNat := by omega
    have hdiv : (b.toNat + 256 * ofLe bs) / 256 = ofLe bs := by omega
    rw [List.length_cons, leBytes, ofLe, hmod, hdiv, ih, UInt8.ofNat_toNat]

theorem leBytes_inj {w x y : ℕ} (hx : x < 256 ^ w) (hy : y < 256 ^ w)
    (h : leBytes w x = leBytes w y) : x = y := by
  rw [← ofLe_leBytes hx, ← ofLe_leBytes hy, h]

/-- `x.to_le_bytes()` on a `u64`. -/
def u64Le (x : UInt64) : List UInt8 := leBytes 8 x.toNat

@[simp] theorem length_u64Le (x : UInt64) : (u64Le x).length = 8 := length_leBytes 8 _

theorem u64Le_inj {x y : UInt64} (h : u64Le x = u64Le y) : x = y := by
  have hx : x.toNat < 256 ^ 8 := lt_of_lt_of_eq x.toNat_lt (by norm_num)
  have hy : y.toNat < 256 ^ 8 := lt_of_lt_of_eq y.toNat_lt (by norm_num)
  exact UInt64.toNat_inj.mp (leBytes_inj hx hy h)

/-- `u64::from_le_bytes`. -/
def u64OfLe (l : List UInt8) : UInt64 := UInt64.ofNat (ofLe l)

@[simp] theorem u64OfLe_u64Le (x : UInt64) : u64OfLe (u64Le x) = x := by
  have hx : x.toNat < 256 ^ 8 := lt_of_lt_of_eq x.toNat_lt (by norm_num)
  rw [u64OfLe, u64Le, ofLe_leBytes hx, UInt64.ofNat_toNat]

theorem u64Le_u64OfLe {l : List UInt8} (h : l.length = 8) : u64Le (u64OfLe l) = l := by
  have hlt : ofLe l < 2 ^ 64 := lt_of_lt_of_eq (ofLe_lt l) (by rw [h]; norm_num)
  rw [u64Le, u64OfLe, UInt64.toNat_ofNat_of_lt' hlt, ← h, leBytes_ofLe]

/-- `x.to_le_bytes()` on a `u16`. -/
def u16Le (x : ℕ) : List UInt8 := leBytes 2 x

@[simp] theorem length_u16Le (x : ℕ) : (u16Le x).length = 2 := length_leBytes 2 _

/-- `u16::from_le_bytes([data[i], data[i + 1]]) as usize`; every caller has
checked that both bytes are there. -/
def u16At (data : List UInt8) (i : ℕ) : ℕ := ofLe [data.getD i 0, data.getD (i + 1) 0]

/-! ### Slices -/

/-- `data[start..start + len]`. -/
def slice (data : List UInt8) (start len : ℕ) : List UInt8 := (data.drop start).take len

theorem length_slice {data : List UInt8} {start len : ℕ} (h : start + len ≤ data.length) :
    (slice data start len).length = len := by
  simp only [slice, List.length_take, List.length_drop]
  omega

/-- A slice that lies in the first part of a concatenation. -/
theorem slice_append_left {a b : List UInt8} {start len : ℕ} (h : start + len ≤ a.length) :
    slice (a ++ b) start len = slice a start len := by
  rw [slice, List.drop_append_of_le_length (by omega),
    List.take_append_of_le_length (by simp only [List.length_drop]; omega)]
  rfl

/-- A slice that starts after the first part of a concatenation. -/
theorem slice_append_right {a b : List UInt8} {start len : ℕ} (h : a.length ≤ start) :
    slice (a ++ b) start len = slice b (start - a.length) len := by
  rw [slice, List.drop_append, List.drop_eq_nil_of_le h, List.nil_append]
  rfl

@[simp] theorem slice_zero_length (a : List UInt8) : slice a 0 a.length = a := by
  simp [slice]

theorem slice_zero_of_length {a : List UInt8} {n : ℕ} (h : a.length = n) : slice a 0 n = a := by
  rw [← h, slice_zero_length]

/-- A field of a concatenation, by what stands before and behind it. -/
theorem slice_of_eq {data a b c : List UInt8} {start len : ℕ} (h : data = a ++ (b ++ c))
    (hstart : start = a.length) (hlen : len = b.length) : slice data start len = b := by
  rw [h, hstart, hlen, slice_append_right (le_refl _), Nat.sub_self, slice_append_left (by simp),
    slice_zero_length]

/-! ### Reading `u16` fields -/

theorem u16At_append_left {a b : List UInt8} {i : ℕ} (h : i + 2 ≤ a.length) :
    u16At (a ++ b) i = u16At a i := by
  rw [u16At, u16At, List.getD_append _ _ _ _ (by omega), List.getD_append _ _ _ _ (by omega)]

theorem u16At_append_right {a b : List UInt8} {i : ℕ} (h : a.length ≤ i) :
    u16At (a ++ b) i = u16At b (i - a.length) := by
  rw [u16At, u16At, List.getD_append_right _ _ _ _ h, List.getD_append_right _ _ _ _ (by omega)]
  have hnext : i + 1 - a.length = i - a.length + 1 := by omega
  rw [hnext]

/-- A field that was written is read back. -/
theorem u16At_u16Le {x : ℕ} (h : x < 2 ^ 16) (b : List UInt8) : u16At (u16Le x ++ b) 0 = x := by
  have hx : x < 256 ^ 2 := lt_of_lt_of_eq h (by norm_num)
  rw [u16At_append_left (by simp)]
  exact ofLe_leBytes hx

theorem u16At_of_eq {data a c : List UInt8} {start x : ℕ} (h : data = a ++ (u16Le x ++ c))
    (hstart : start = a.length) (hx : x < 2 ^ 16) : u16At data start = x := by
  rw [h, hstart, u16At_append_right (le_refl _), Nat.sub_self, u16At_u16Le hx]

end Bytes
