/-
JSON values, and how a program reaches into them.

A number is kept as an integer, or as its text where it is none.  `get` finds a member
of an object and nothing elsewhere; the `as` functions give the value if it is of their
kind.  An object that was parsed lists a name once.  `compact` writes a value without blanks.
-/
import Mathlib

inductive Json
  | null
  | bool (b : Bool)
  | integer (n : ℤ)
  | decimal (text : String)
  | string (s : String)
  | array (items : List Json)
  | object (members : List (String × Json))

namespace Json

def get (name : String) : Json → Option Json
  | object members => members.lookup name
  | _ => none

/-- The member of the name; `null` where there is none. -/
def index (name : String) (v : Json) : Json := (v.get name).getD null

def asString : Json → Option String
  | string s => some s
  | _ => none

def asArray : Json → Option (List Json)
  | array items => some items
  | _ => none

def asBool : Json → Option Bool
  | bool b => some b
  | _ => none

def isObject : Json → Bool
  | object _ => true
  | _ => false

def isNull : Json → Bool
  | null => true
  | _ => false

/-- An integer that fits in 64 bits with a sign. -/
def asI64 : Json → Option ℤ
  | integer n => if -2 ^ 63 ≤ n ∧ n < 2 ^ 63 then some n else none
  | _ => none

/-- An integer that fits in 64 bits without a sign. -/
def asU64 : Json → Option ℕ
  | integer n => if 0 ≤ n ∧ n < 2 ^ 64 then some n.toNat else none
  | _ => none

/-- A quote, a backslash or a control character is escaped. -/
def escaped (c : Char) : List Char :=
  if c.toNat = 34 ∨ c.toNat = 92 then [Char.ofNat 92, c]
  else if c.toNat = 8 then [Char.ofNat 92, 'b']
  else if c.toNat = 9 then [Char.ofNat 92, 't']
  else if c.toNat = 10 then [Char.ofNat 92, 'n']
  else if c.toNat = 12 then [Char.ofNat 92, 'f']
  else if c.toNat = 13 then [Char.ofNat 92, 'r']
  else if c.toNat < 32 then
    [Char.ofNat 92, 'u', '0', '0', Nat.digitChar (c.toNat / 16), Nat.digitChar (c.toNat % 16)]
  else [c]

def quoted (s : String) : List Char := Char.ofNat 34 :: (s.toList.flatMap escaped ++ [Char.ofNat 34])

mutual

def compact : Json → List Char
  | null => "null".toList
  | bool b => (toString b).toList
  | integer n => (toString n).toList
  | decimal text => text.toList
  | string s => quoted s
  | array items => '[' :: (compactItems items ++ [']'])
  | object members => Char.ofNat 123 :: (compactMembers members ++ [Char.ofNat 125])

def compactItems : List Json → List Char
  | [] => []
  | [v] => compact v
  | v :: w :: items => compact v ++ ',' :: compactItems (w :: items)

def compactMembers : List (String × Json) → List Char
  | [] => []
  | [(name, v)] => quoted name ++ ':' :: compact v
  | (name, v) :: m :: members => quoted name ++ ':' :: (compact v ++ ',' :: compactMembers (m :: members))

end

end Json
