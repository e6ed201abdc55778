/-
Messages, and the checks that the router makes before it handles one.

A message is refused if it has expired, if it was created too long ago, or if a message
with its id was handled before and the record of that is still there.  A record lasts
for 300 seconds.  Times are seconds since 1970.

* `accepts_of_le` — what the first two checks refuse they refuse ever after.
-/
import IgnitePay.Lib.Json
import IgnitePay.Lib.Machine
import IgnitePay.Lib.Store

namespace Router

open Machine

inductive RouterError
  | didcomm (text : String)
  | sessionNotFound (text : String)
  | protocol (text : String)
  | unauthorized (text : String)
  | panicked
  deriving DecidableEq

/-- What is attached to a message: JSON, or text in base64. -/
structure Attachment where
  json : Option Json
  base64 : Option String

/-- A DIDComm message in the clear; `sender` is its `from`. -/
structure Message where
  id : String
  typ : String
  sender : Option String
  body : Json
  created_time : Option UInt64
  expires_time : Option UInt64
  attachments : Option (List Attachment)
  extra : List (String × Json)

/-- Reject if `expires_time` is set and has passed. -/
def checkExpires (now_secs : ℕ) (msg : Message) : Except RouterError Unit :=
  match msg.expires_time with
  | some expires => require (now_secs ≤ expires.toNat) (.protocol
      ("Message expired: expires_time " ++ toString expires.toNat ++ " is in the past"))
  | none => .ok ()

/-- Reject if `created_time` is too old. -/
def checkAge (overflowChecks : Bool) (max_age : UInt64) (now_secs : ℕ) (msg : Message) :
    Except RouterError Unit :=
  match msg.created_time with
  | some created => do
    let last ← orErr (addU64 overflowChecks created max_age) .panicked
    require (now_secs ≤ last.toNat) (.protocol
      ("Message too old: created " ++ toString (now_secs - created.toNat) ++ "s ago, max allowed " ++
        toString max_age.toNat ++ "s"))
  | none => .ok ()

/-- Both checks. -/
def checkTimes (overflowChecks : Bool) (max_age : UInt64) (now_secs : ℕ) (msg : Message) :
    Except RouterError Unit := do
  checkExpires now_secs msg
  checkAge overflowChecks max_age now_secs msg

/-- The checks let a message through. -/
def Accepts (overflowChecks : Bool) (max_age : UInt64) (now_secs : ℕ) (msg : Message) : Prop :=
  checkTimes overflowChecks max_age now_secs msg = .ok ()

theorem accepts_iff {overflowChecks : Bool} {max_age : UInt64} {now : ℕ} {msg : Message} :
    Accepts overflowChecks max_age now msg ↔
      (∀ expires ∈ msg.expires_time, now ≤ expires.toNat) ∧
      ∀ created ∈ msg.created_time,
        ∃ last, addU64 overflowChecks created max_age = some last ∧ now ≤ last.toNat := by
  rw [Accepts, checkTimes, bind_eq_ok]
  constructor
  · rintro ⟨_, hexpires, hage⟩
    constructor
    · intro expires hmem
      rw [checkExpires, Option.mem_def.mp hmem] at hexpires
      exact require_eq_ok.mp hexpires
    · intro created hmem
      rw [checkAge, Option.mem_def.mp hmem] at hage
      obtain ⟨last, hlast, hnow⟩ := bind_eq_ok.mp hage
      exact ⟨last, orErr_eq_ok.mp hlast, require_eq_ok.mp hnow⟩
  · rintro ⟨hexpires, hage⟩
    refine ⟨(), ?_, ?_⟩
    · rw [checkExpires]
      split
      · next expires hmem => exact require_eq_ok.mpr (hexpires expires hmem)
      · rfl
    · rw [checkAge]
      split
      · next created hmem =>
        obtain ⟨last, hlast, hnow⟩ := hage created hmem
        exact bind_eq_ok.mpr ⟨last, orErr_eq_ok.mpr hlast, require_eq_ok.mpr hnow⟩
      · rfl

/-- What is accepted was accepted at any time before. -/
theorem accepts_of_le {overflowChecks : Bool} {max_age : UInt64} {now now' : ℕ} {msg : Message}
    (hle : now ≤ now') (h : Accepts overflowChecks max_age now' msg) :
    Accepts overflowChecks max_age now msg := by
  obtain ⟨hexpires, hage⟩ := accepts_iff.mp h
  refine accepts_iff.mpr ⟨fun expires hmem => hle.trans (hexpires expires hmem), ?_⟩
  intro created hmem
  obtain ⟨last, hlast, hnow⟩ := hage created hmem
  exact ⟨last, hlast, hle.trans hnow⟩

/-! ### Replay protection -/

/-- Processed message IDs: msg_id -> expiry timestamp. -/
abbrev SeenIds := Store.Map String ℕ

/-- 5 minutes. -/
def ttl : ℕ := 300

/-- There are enough entries to prune the expired ones. -/
def isFull (seen : SeenIds) : Bool := decide (100000 < seen.entries.length)

def dropExpired (now : ℕ) (seen : SeenIds) : SeenIds :=
  Store.retain (fun expiry => decide (now < expiry)) seen

/-- Reject messages that were already processed. -/
def checkSeen (now : ℕ) (seen : SeenIds) (msg_id : String) : Except RouterError Unit :=
  match seen.lookup msg_id with
  | some existing => require (existing ≤ now) (.protocol ("Duplicate message ID: " ++ msg_id))
  | none => .ok ()

/-- Mark a message as seen. -/
def markSeen (now : ℕ) (msg_id : String) (seen : SeenIds) : SeenIds := seen.insert msg_id (now + ttl)

end Router
