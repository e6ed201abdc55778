/-
The Borsh encoding.

A codec writes a value and reads one off the front of a string of bytes.  That what is written is
read back, whatever follows it, and that what is read was written, are part of the type; so a codec
put together from others needs no proof of its own.  Integers have their low byte first, a list has
its length before it in four bytes, a record is its fields one after the other.

* `Codec.write_inj` — what is written tells the value;
* `Codec.pair`, `Codec.vec`, `Codec.iso` — codecs of records and lists.

`Fits` says which values can be written: a length is cut off at four bytes.
-/
import IgnitePay.Lib.Bytes

open Bytes

/-- How values of a type are written and read. -/
structure Codec (α : Type*) where
  write : α → List UInt8
  read : List UInt8 → Option (α × List UInt8)
  Fits : α → Prop
  read_write : ∀ a rest, Fits a → read (write a ++ rest) = some (a, rest)
  of_read : ∀ l a rest, read l = some (a, rest) → Fits a ∧ l = write a ++ rest

namespace Codec

variable {α β : Type*}

theorem write_inj (c : Codec α) {a b : α} (ha : c.Fits a) (hb : c.Fits b)
    (h : c.write a = c.write b) : a = b := by
  have hread := c.read_write a [] ha
  rw [h, c.read_write b [] hb] at hread
  exact (congrArg Prod.fst (Option.some.inj hread)).symm

/-- With what follows it, for a value that stands before other values. -/
theorem write_append_inj (c : Codec α) {a b : α} {rest rest' : List UInt8} (ha : c.Fits a)
    (hb : c.Fits b) (h : c.write a ++ rest = c.write b ++ rest') : a = b ∧ rest = rest' := by
  have hread := c.read_write a rest ha
  rw [h, c.read_write b rest' hb] at hread
  exact Prod.mk.inj (Option.some.inj hread).symm

/-! ### Records -/

/-- No bytes. -/
def unit : Codec Unit where
  write _ := []
  read l := some ((), l)
  Fits _ := True
  read_write _ _ _ := rfl
  of_read l a rest h := by
    obtain rfl := congrArg Prod.snd (Option.some.inj h)
    exact ⟨trivial, rfl⟩

/-- A value, and then another one. -/
def pair (c : Codec α) (d : Codec β) : Codec (α × β) where
  write p := c.write p.1 ++ d.write p.2
  read l := (c.read l).bind fun r => (d.read r.2).map fun r' => ((r.1, r'.1), r'.2)
  Fits p := c.Fits p.1 ∧ d.Fits p.2
  read_write p rest h := by
    rw [List.append_assoc, c.read_write _ _ h.1, Option.bind_some, d.read_write _ _ h.2]
    rfl
  of_read l p rest h := by
    obtain ⟨r, hr, h⟩ := Option.bind_eq_some_iff.mp h
    obtain ⟨r', hr', h⟩ := Option.map_eq_some_iff.mp h
    obtain ⟨rfl, rfl⟩ := Prod.mk.inj h
    obtain ⟨hfits, hl⟩ := c.of_read _ _ _ hr
    obtain ⟨hfits', hl'⟩ := d.of_read _ _ _ hr'
    exact ⟨⟨hfits, hfits'⟩, by rw [hl, hl', List.append_assoc]⟩

/-- The same bytes, for another type of values. -/
def iso (e : α ≃ β) (c : Codec α) : Codec β where
  write b := c.write (e.symm b)
  read l := (c.read l).map fun r => (e r.1, r.2)
  Fits b := c.Fits (e.symm b)
  read_write b rest h := by
    rw [c.read_write _ _ h, Option.map_some, e.apply_symm_apply]
  of_read l b rest h := by
    obtain ⟨r, hr, h⟩ := Option.map_eq_some_iff.mp h
    obtain ⟨rfl, rfl⟩ := Prod.mk.inj h
    rw [e.symm_apply_apply]
    exact c.of_read _ _ _ hr

/-- The values of a type that are of a kind. -/
def refine (c : Codec α) (P : α → Prop) [DecidablePred P] : Codec {a // P a} where
  write a := c.write a.val
  read l := (c.read l).bind fun r => if h : P r.1 then some (⟨r.1, h⟩, r.2) else none
  Fits a := c.Fits a.val
  read_write a rest h := by
    rw [c.read_write _ _ h, Option.bind_some, dif_pos a.property]
  of_read l a rest h := by
    obtain ⟨r, hr, h⟩ := Option.bind_eq_some_iff.mp h
    split at h
    · obtain ⟨rfl, rfl⟩ := Prod.mk.inj (Option.some.inj h)
      exact c.of_read _ _ _ hr
    · cases h

/-! ### Integers -/

/-- An array of bytes, `[u8; n]`. -/
def bytes (n : ℕ) : Codec (Bytes n) where
  write b := b.val
  read l := if h : (l.take n).length = n then some (⟨l.take n, h⟩, l.drop n) else none
  Fits _ := True
  read_write b rest _ := by
    have htake : (b.val ++ rest).take n = b.val := List.take_left' b.property
    rw [dif_pos (by rw [htake, b.property])]
    simp only [htake, List.drop_left' b.property]
  of_read l b rest h := by
    split at h
    · obtain ⟨rfl, rfl⟩ := Prod.mk.inj (Option.some.inj h)
      exact ⟨trivial, (List.take_append_drop n l).symm⟩
    · cases h

/-- A number in `w` bytes, by way of the natural numbers that fit them. -/
def integer (w : ℕ) (toNat : α → ℕ) (ofNat : ℕ → α) (lt : ∀ x, toNat x < 256 ^ w)
    (ofNat_toNat : ∀ x, ofNat (toNat x) = x) (toNat_ofNat : ∀ n < 256 ^ w, toNat (ofNat n) = n) :
    Codec α :=
  iso
    { toFun := fun b => ofNat (ofLe b.val)
      invFun := fun x => number w (toNat x)
      left_inv := by
        intro b
        have hlt := ofLe_lt b.val
        have hback := leBytes_ofLe b.val
        rw [b.property] at hlt hback
        refine Subtype.ext ?_
        show leBytes w (toNat (ofNat (ofLe b.val))) = b.val
        rw [toNat_ofNat _ hlt, hback]
      right_inv := by
        intro x
        show ofNat (ofLe (leBytes w (toNat x))) = x
        rw [ofLe_leBytes (lt x), ofNat_toNat] }
    (bytes w)

def u8 : Codec UInt8 :=
  integer 1 UInt8.toNat UInt8.ofNat (fun x => x.toNat_lt) (fun _ => UInt8.ofNat_toNat)
    fun _ h => UInt8.toNat_ofNat_of_lt' h

def u32 : Codec UInt32 :=
  integer 4 UInt32.toNat UInt32.ofNat (fun x => x.toNat_lt) (fun _ => UInt32.ofNat_toNat)
    fun _ h => UInt32.toNat_ofNat_of_lt' h

def u64 : Codec UInt64 :=
  integer 8 UInt64.toNat UInt64.ofNat (fun x => x.toNat_lt) (fun _ => UInt64.ofNat_toNat)
    fun _ h => UInt64.toNat_ofNat_of_lt' h

/-- In two's complement. -/
def i64 : Codec Int64 :=
  iso ⟨UInt64.toInt64, Int64.toUInt64, UInt64.toUInt64_toInt64, Int64.toInt64_toUInt64⟩ u64

@[simp] theorem write_u64 (x : UInt64) : u64.write x = u64Le x := rfl

@[simp] theorem write_u32 (x : UInt32) : u32.write x = leBytes 4 x.toNat := rfl

@[simp] theorem write_bytes {n : ℕ} (b : Bytes n) : (bytes n).write b = b.val := rfl

/-- One byte, 0 or 1. -/
def bool : Codec Bool where
  write b := [if b then 1 else 0]
  read
    | 0 :: l => some (false, l)
    | 1 :: l => some (true, l)
    | _ => none
  Fits _ := True
  read_write b rest _ := by
    cases b with
    | false => rfl
    | true => rfl
  of_read l b rest h := by
    split at h
    · obtain ⟨rfl, rfl⟩ := Prod.mk.inj (Option.some.inj h)
      exact ⟨trivial, rfl⟩
    · obtain ⟨rfl, rfl⟩ := Prod.mk.inj (Option.some.inj h)
      exact ⟨trivial, rfl⟩
    · cases h

/-! ### Lists -/

/-- A number of values, one after the other. -/
def readN (c : Codec α) : ℕ → List UInt8 → Option (List α × List UInt8)
  | 0, l => some ([], l)
  | n + 1, l => (c.read l).bind fun r => (readN c n r.2).map fun r' => (r.1 :: r'.1, r'.2)

theorem readN_flatMap (c : Codec α) {as : List α} (h : ∀ a ∈ as, c.Fits a) (rest : List UInt8) :
    c.readN as.length (as.flatMap c.write ++ rest) = some (as, rest) := by
  induction as with
  | nil => rfl
  | cons a as ih =>
    rw [List.flatMap_cons, List.append_assoc, List.length_cons, readN,
      c.read_write _ _ (h a List.mem_cons_self), Option.bind_some,
      ih fun b hb => h b (List.mem_cons_of_mem a hb)]
    rfl

theorem of_readN (c : Codec α) {n : ℕ} {l : List UInt8} {as : List α} {rest : List UInt8}
    (h : c.readN n l = some (as, rest)) :
    as.length = n ∧ (∀ a ∈ as, c.Fits a) ∧ l = as.flatMap c.write ++ rest := by
  induction n generalizing l as with
  | zero =>
    obtain ⟨rfl, rfl⟩ := Prod.mk.inj (Option.some.inj h)
    exact ⟨rfl, by simp, rfl⟩
  | succ n ih =>
    obtain ⟨r, hr, h⟩ := Option.bind_eq_some_iff.mp h
    obtain ⟨r', hr', h⟩ := Option.map_eq_some_iff.mp h
    obtain ⟨rfl, rfl⟩ := Prod.mk.inj h
    obtain ⟨hfits, hl⟩ := c.of_read _ _ _ hr
    obtain ⟨hlength, hall, hl'⟩ := ih hr'
    refine ⟨by rw [List.length_cons, hlength], List.forall_mem_cons.mpr ⟨hfits, hall⟩, ?_⟩
    rw [hl, hl', List.flatMap_cons, List.append_assoc]

/-- A list, after its length. -/
def vec (c : Codec α) : Codec (List α) where
  write as := leBytes 4 as.length ++ as.flatMap c.write
  read l := (u32.read l).bind fun r => c.readN r.1.toNat r.2
  Fits as := as.length < 2 ^ 32 ∧ ∀ a ∈ as, c.Fits a
  read_write as rest h := by
    have hlength : (UInt32.ofNat as.length).toNat = as.length := UInt32.toNat_ofNat_of_lt' h.1
    have hread := u32.read_write (UInt32.ofNat as.length) (as.flatMap c.write ++ rest) trivial
    rw [write_u32, hlength] at hread
    rw [List.append_assoc, hread, Option.bind_some, hlength]
    exact c.readN_flatMap h.2 rest
  of_read l as rest h := by
    obtain ⟨r, hr, h⟩ := Option.bind_eq_some_iff.mp h
    obtain ⟨-, hl⟩ := u32.of_read _ _ _ hr
    obtain ⟨hlength, hall, hl'⟩ := c.of_readN h
    refine ⟨⟨by rw [hlength]; exact r.1.toNat_lt, hall⟩, ?_⟩
    rw [hl, hl', hlength, write_u32, List.append_assoc]

@[simp] theorem write_u8 (x : UInt8) : u8.write x = [x] := by
  show [UInt8.ofNat (x.toNat % 256)] = [x]
  rw [Nat.mod_eq_of_lt (show x.toNat < 256 from x.toNat_lt), UInt8.ofNat_toNat]

@[simp] theorem fits_vec_u8 (l : List UInt8) : (vec u8).Fits l ↔ l.length < 2 ^ 32 :=
  and_iff_left fun _ _ => trivial

@[simp] theorem fits_vec_bytes {n : ℕ} (l : List (Bytes n)) :
    (vec (bytes n)).Fits l ↔ l.length < 2 ^ 32 :=
  and_iff_left fun _ _ => trivial

@[simp] theorem write_vec_u8 (l : List UInt8) : (vec u8).write l = leBytes 4 l.length ++ l := by
  have hbytes : l.flatMap u8.write = l := by
    rw [funext write_u8]
    exact List.flatMap_singleton' l
  show leBytes 4 l.length ++ l.flatMap u8.write = _
  rw [hbytes]

/-- The bytes of a text in UTF-8. -/
def utf8 (s : String) : List UInt8 := s.toByteArray.data.toList

/-- A text, as its bytes. -/
def string : Codec String :=
  iso
    { toFun := fun b => String.ofByteArray ⟨b.val.toArray⟩ b.property
      invFun := fun s => ⟨utf8 s, by simpa [utf8] using s.isValidUTF8⟩
      left_inv := fun b => Subtype.ext rfl
      right_inv := fun s => rfl }
    (refine (vec u8) fun b => (⟨b.toArray⟩ : ByteArray).IsValidUTF8)

@[simp] theorem write_string (s : String) :
    string.write s = leBytes 4 (utf8 s).length ++ utf8 s := write_vec_u8 (utf8 s)

@[simp] theorem fits_string (s : String) : string.Fits s ↔ s.utf8ByteSize < 2 ^ 32 :=
  fits_vec_u8 (utf8 s)

end Codec
