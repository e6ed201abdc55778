/-
JSON objects that are put together member by member, and what is read from them.

A member may be left out: `json!` of the members that are always there, and an assignment under
a condition for each of the others.  A value is read under its name as a value of some kind.

* `get_build_cons` — the member of a name is the one that was put there;
* `asUInt64_ofU64`, `asI64_ofI64`, `asStrings_ofStrings` — each kind comes back as it was put;
* `read_cons_of_ne`, `read_cons_map` — a value that was put is read, whatever stands before it.
-/
import IgnitePay.Lib.Json

namespace Json

/-- The object of the members that have a value. -/
def build (members : List (String × Option Json)) : Json :=
  .object (members.filterMap fun m => m.2.map fun v => (m.1, v))

theorem get_build_nil (name : String) : (build []).get name = none := rfl

/-- A name that is listed twice is read where it has a value first. -/
theorem get_build_cons (name n : String) (v : Option Json) (members : List (String × Option Json)) :
    (build ((n, v) :: members)).get name =
      if name = n then v.or ((build members).get name) else (build members).get name := by
  cases v with
  | none => simp [build, get]
  | some v =>
    simp only [build, List.filterMap_cons, Option.map_some, get, Option.some_or]
    by_cases h : name = n
    · rw [if_pos h, h, List.lookup_cons_self]
    · have hne : (name == n) = false := beq_false_of_ne h
      rw [if_neg h, List.lookup_cons, hne]

/-! ### Values of a kind -/

def ofU64 (n : UInt64) : Json := .integer n.toNat
def ofU32 (n : UInt32) : Json := .integer n.toNat
def ofI64 (n : Int64) : Json := .integer n.toInt
def ofStrings (l : List String) : Json := .array (l.map .string)

def asUInt64 (v : Json) : Option UInt64 := v.asU64.map UInt64.ofNat

/-- The texts of a list; what is no text is passed over. -/
def asStrings (v : Json) : Option (List String) := v.asArray.map fun l => l.filterMap asString

theorem asU64_natCast {n : ℕ} (h : n < 2 ^ 64) : (integer n).asU64 = some n := by
  have hfits : (0 : ℤ) ≤ n ∧ (n : ℤ) < 2 ^ 64 := by omega
  rw [asU64, if_pos hfits, Int.toNat_natCast]

@[simp] theorem asUInt64_ofU64 (n : UInt64) : (ofU64 n).asUInt64 = some n := by
  rw [asUInt64, ofU64, asU64_natCast n.toNat_lt, Option.map_some, UInt64.ofNat_toNat]

@[simp] theorem asUInt64_ofU32 (n : UInt32) : (ofU32 n).asUInt64 = some n.toUInt64 := by
  have h := n.toNat_lt
  rw [asUInt64, ofU32, asU64_natCast (by omega), Option.map_some, UInt64.ofNat_uInt32ToNat]

@[simp] theorem asI64_ofI64 (n : Int64) : (ofI64 n).asI64 = some n.toInt := by
  have h := n.le_toInt
  have h' := n.toInt_lt
  rw [ofI64, asI64, if_pos ⟨by omega, by omega⟩]

@[simp] theorem asStrings_ofStrings (l : List String) : (ofStrings l).asStrings = some l := by
  simp [ofStrings, asStrings, asArray, List.filterMap_map, Function.comp_def, asString]

@[simp] theorem asString_string (s : String) : (string s).asString = some s := rfl

@[simp] theorem asBool_bool (b : Bool) : (bool b).asBool = some b := rfl

/-! ### Reading -/

/-- The value under a name, if it is one of the kind. -/
def read {α : Type} (as : Json → Option α) (name : String) (body : Json) : Option α :=
  (body.get name).bind as

section

variable {α β : Type} {as : Json → Option α} {of : β → Json} {name n : String} {v : Option Json}
  {members : List (String × Option Json)}

@[simp] theorem read_nil : read as name (build []) = none := rfl

@[simp] theorem read_cons_of_ne (h : name ≠ n) :
    read as name (build ((n, v) :: members)) = read as name (build members) := by
  rw [read, get_build_cons, if_neg h, ← read]

@[simp] theorem read_cons_none :
    read as name (build ((n, none) :: members)) = read as name (build members) := by
  rw [read, get_build_cons, Option.none_or, ite_self, ← read]

@[simp] theorem read_cons_some (x : Json) :
    read as name (build ((name, some x) :: members)) = as x := by
  rw [read, get_build_cons, if_pos rfl, Option.some_or, Option.bind_some]

/-- What was put under the name is read; what stands under it later is, where nothing was put. -/
theorem read_cons_map {f : β → α} (h : ∀ b, as (of b) = some (f b)) (b : Option β) :
    read as name (build ((name, b.map of) :: members)) =
      (b.map f).or (read as name (build members)) := by
  cases b with
  | none => rw [Option.map_none, read_cons_none, Option.map_none, Option.none_or]
  | some b => rw [Option.map_some, read_cons_some, h, Option.map_some, Option.some_or]

@[simp] theorem read_map_string (s : Option String) :
    read asString name (build ((name, s.map string) :: members)) =
      s.or (read asString name (build members)) := by
  rw [read_cons_map asString_string, Option.map_id']

@[simp] theorem read_map_u64 (k : Option UInt64) :
    read asUInt64 name (build ((name, k.map ofU64) :: members)) =
      k.or (read asUInt64 name (build members)) := by
  rw [read_cons_map asUInt64_ofU64, Option.map_id']

@[simp] theorem read_map_u32 (k : Option UInt32) :
    read asUInt64 name (build ((name, k.map ofU32) :: members)) =
      (k.map UInt32.toUInt64).or (read asUInt64 name (build members)) :=
  read_cons_map asUInt64_ofU32 k

end

end Json
