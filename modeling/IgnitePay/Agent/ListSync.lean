/-
The merchant lists while they are replaced (`ignite-pay-core/src/list_store.rs`).

`sync_from_ipfs` clears both trees and writes the downloaded entries one by one; a risk check
reads the blacklist, the whitelist and the cumulative amount, each by itself.  A run here is any
interleaving of these accesses, with a stop at any of them.  In between, a merchant can be on
neither list, or be read on the old blacklist and the new whitelist.

* `riskCheck_eq` — a check that runs alone gives the verdict of the lists;
* `synced_exportLists` — a sync of exported lists writes them entry for entry;
* `sync_keeps_verdicts` — what the reads must find so that every verdict is one of the old lists
  or of the new ones;
* `sync_opens_gap` — a merchant on both blacklists is approved during a sync.
-/
import IgnitePay.Agent.State
import IgnitePay.Lib.Run
import IgnitePay.Lib.SortedTree

namespace Agent

open Machine

/-! ### The lists -/

/-- An entry of either list, with all its fields. -/
structure ListedMerchant extends MerchantListEntry where
  did : String
  name : Option String
  addedAt : ℤ
deriving DecidableEq

/-- One of the two trees: every entry stands under its own DID. -/
structure MerchantTree where
  tree : SortedTree String ListedMerchant
  keyed : ∀ e ∈ tree.entries, e.2.did = e.1

namespace MerchantTree

/-- What `clear` leaves. -/
def empty : MerchantTree := ⟨∅, fun _ he => absurd he List.not_mem_nil⟩

def get (t : MerchantTree) (did : String) : Option ListedMerchant := t.tree.get did

/-- `tree.insert(&entry.did, value)`. -/
def insert (t : MerchantTree) (entry : ListedMerchant) : MerchantTree where
  tree := t.tree.insert entry.did entry
  keyed := by
    intro e he
    rcases SortedTree.mem_entries_insert.mp he with rfl | ⟨he, -⟩
    · rfl
    · exact t.keyed e he

/-- The values, in the order of an iteration. -/
def values (t : MerchantTree) : List ListedMerchant := t.tree.values

theorem eq_of_entries {t t' : MerchantTree} (h : t.tree.entries = t'.tree.entries) : t = t' := by
  obtain ⟨tree, keyed⟩ := t
  obtain ⟨tree', keyed'⟩ := t'
  obtain rfl : tree = tree' := SortedTree.eq_of_entries h
  rfl

end MerchantTree

/-- What is stored on IPFS. -/
structure MerchantLists where
  whitelist : List ListedMerchant
  blacklist : List ListedMerchant
deriving DecidableEq

/-- The `ListStore`. -/
structure ListDb where
  whitelist : MerchantTree
  blacklist : MerchantTree
  /-- What has been spent at each merchant. -/
  merchantSpending : Store.Map String UInt64
  currentCid : Option String

namespace ListDb

variable (db : ListDb) (now : ℕ) (did : String) (amount : UInt64)

def isBlacklisted : Bool := (db.blacklist.get did).any fun entry => !entry.expired now

def checkWhitelist : WhitelistResult :=
  match db.whitelist.get did with
  | none => ⟨false, none, none, none⟩
  | some entry =>
    if entry.expired now then ⟨false, none, none, none⟩
    else ⟨entry.maxAmount.all fun max => decide (amount ≤ max), entry.maxAmount, entry.label,
      entry.expires⟩

def getMerchantSpent : UInt64 := (db.merchantSpending.lookup did).getD 0

/-- `export_lists`. -/
def exportLists : MerchantLists := ⟨db.whitelist.values, db.blacklist.values⟩

end ListDb

/-- The end of `risk_check`, for a merchant that is not on the blacklist. -/
def decideWhitelist (wl : WhitelistResult) (cumulative amount : UInt64) : RiskControlDecision :=
  if wl.isWhitelisted ∧ ¬ wl.maxAmount.any fun max => decide (saturatingAdd cumulative amount > max)
  then .autoApproved wl.maxAmount wl.label else .needsAuth

/-- What `risk_check` returns on lists that stay as they are, if it reads the blacklist at
`t₁` and the whitelist at `t₂`, and takes `cumulative` for what has been spent. -/
def ListDb.verdict (db : ListDb) (t₁ t₂ : ℕ) (cumulative : UInt64) (did : String)
    (amount : UInt64) : RiskControlDecision :=
  if db.isBlacklisted t₁ did then .blocked
  else decideWhitelist (db.checkWhitelist t₂ did amount) cumulative amount

/-- IPFS, with the lists under their CIDs. -/
abbrev Ipfs := Store.Map String MerchantLists

/-- `upload_to_ipfs`; the CID is chosen by IPFS. -/
def uploadToIpfs (cid : String) (db : ListDb) (ipfs : Ipfs) : ListDb × Ipfs :=
  ({ db with currentCid := some cid }, ipfs.insert cid db.exportLists)

/-! ### Accesses -/

/-- One access of a sync. -/
inductive SyncAccess
  | clearWhitelist
  | clearBlacklist
  | insertWhitelist (entry : ListedMerchant)
  | insertBlacklist (entry : ListedMerchant)
  | setCurrentCid (cid : String)
deriving DecidableEq

def SyncAccess.apply (db : ListDb) : SyncAccess → ListDb
  | clearWhitelist => { db with whitelist := .empty }
  | clearBlacklist => { db with blacklist := .empty }
  | insertWhitelist entry => { db with whitelist := db.whitelist.insert entry }
  | insertBlacklist entry => { db with blacklist := db.blacklist.insert entry }
  | setCurrentCid cid => { db with currentCid := some cid }

/-- The accesses of `sync_from_ipfs`, once the lists are downloaded. -/
def syncFromIpfs (cid : String) (lists : MerchantLists) : List SyncAccess :=
  [.clearWhitelist, .clearBlacklist] ++ lists.whitelist.map .insertWhitelist ++
    lists.blacklist.map .insertBlacklist ++ [.setCurrentCid cid]

/-- The store after a sync that has done all its accesses. -/
def synced (db : ListDb) (cid : String) (lists : MerchantLists) : ListDb :=
  (syncFromIpfs cid lists).foldl SyncAccess.apply db

/-- How far a risk check is, with the times of its reads. -/
inductive CheckStage
  | started
  /-- Not on the blacklist when it was read. -/
  | unlisted (t₁ : ℕ)
  /-- On the whitelist with a cap, before the cumulative amount is read. -/
  | capped (t₁ t₂ : ℕ) (wl : WhitelistResult)
  | decided (t₁ t₂ : ℕ) (cumulative : UInt64) (decision : RiskControlDecision)
deriving DecidableEq

structure Check where
  did : String
  amount : UInt64
  stage : CheckStage
deriving DecidableEq

/-- The next access of a check; a cumulative amount that cannot be read counts as zero. -/
def Check.next (c : Check) (db : ListDb) (now : ℕ) (readable : Bool) : CheckStage :=
  let spent := db.getMerchantSpent c.did
  match c.stage with
  | .started =>
    if db.isBlacklisted now c.did then .decided now now spent .blocked else .unlisted now
  | .unlisted t₁ =>
    let wl := db.checkWhitelist now c.did c.amount
    if wl.isWhitelisted = true ∧ wl.maxAmount.isSome then .capped t₁ now wl
    else .decided t₁ now spent
      (if wl.isWhitelisted then .autoApproved wl.maxAmount wl.label else .needsAuth)
  | .capped t₁ t₂ wl =>
    let cumulative := if readable then spent else 0
    .decided t₁ t₂ cumulative (decideWhitelist wl cumulative c.amount)
  | .decided t₁ t₂ cumulative decision => .decided t₁ t₂ cumulative decision

/-! ### Interleavings -/

/-- The store, what is left of a sync, and the risk checks. -/
structure SyncState where
  db : ListDb
  now : ℕ
  pending : List SyncAccess
  checks : Store.Map ℕ Check

inductive SyncStep
  /-- The sync does its next access. -/
  | sync
  /-- An access of the sync fails, and it returns. -/
  | giveUp
  /-- The process stops; what it was doing is gone. -/
  | stop
  | startCheck (i : ℕ) (did : String) (amount : UInt64)
  /-- Check `i` does its next access. -/
  | check (i : ℕ) (readable : Bool)
  /-- An access of check `i` fails, and it returns with the error. -/
  | failCheck (i : ℕ)
  | tick (now : ℕ)
deriving DecidableEq

def SyncStep.exec : SyncStep → SyncState → Except Unit SyncState
  | sync, s => match s.pending with
    | [] => .error ()
    | a :: rest => .ok { s with db := a.apply s.db, pending := rest }
  | giveUp, s => .ok { s with pending := [] }
  | stop, s => .ok { s with pending := [], checks := ∅ }
  | startCheck i did amount, s =>
    .ok { s with checks := s.checks.insert i ⟨did, amount, .started⟩ }
  | check i readable, s => do
    let c ← orErr (s.checks.lookup i) ()
    .ok { s with checks := s.checks.insert i { c with stage := c.next s.db s.now readable } }
  | failCheck i, s => .ok { s with checks := s.checks.erase i }
  | tick now, s => do
    require (s.now ≤ now) ()
    .ok { s with now }

/-- A sync of the lists `lists` is about to begin. -/
def beginning (db : ListDb) (now : ℕ) (cid : String) (lists : MerchantLists) : SyncState :=
  ⟨db, now, syncFromIpfs cid lists, ∅⟩

/-! ### The lists and the checks -/

section

variable {db old new : ListDb} {c : Check} {did cid : String} {amount : UInt64}

/-- The store has the entries that the rest of the agent sees. -/
structure ListDb.Represents (db : ListDb) (l : ListStore) : Prop where
  whitelist_eq : ∀ did, l.whitelist.lookup did
    = (db.whitelist.get did).map ListedMerchant.toMerchantListEntry
  blacklist_eq : ∀ did, l.blacklist.lookup did
    = (db.blacklist.get did).map ListedMerchant.toMerchantListEntry
  merchantSpending_eq : l.merchantSpending = db.merchantSpending

/-- A check that nothing comes in between gives the verdict of the lists. -/
theorem riskCheck_eq {l : ListStore} (h : db.Represents l) (now : ℕ) (did : String)
    (amount : UInt64) : l.riskCheck ⟨true, true, true⟩ now did amount
      = .ok (db.verdict now now (db.getMerchantSpent did) did amount) := by
  have hblack : (l.blacklist.lookup did).any (fun entry => !entry.expired now)
      = db.isBlacklisted now did := by
    rw [h.blacklist_eq, ListDb.isBlacklisted]
    cases db.blacklist.get did with
    | none => rfl
    | some e => rfl
  have hwhite : l.checkWhitelist ⟨true, true, true⟩ now did amount
      = .ok (db.checkWhitelist now did amount) := by
    rw [ListStore.checkWhitelist, h.whitelist_eq, ListDb.checkWhitelist]
    cases db.whitelist.get did with
    | none => rfl
    | some e => rfl
  have hspent : ∀ max, l.cumulativeExceeds ⟨true, true, true⟩ did amount max
      = decide (saturatingAdd (db.getMerchantSpent did) amount > max) := by
    intro max
    rw [ListStore.cumulativeExceeds, ListStore.getMerchantSpent, h.merchantSpending_eq]
    rfl
  have hlisted : l.isBlacklisted ⟨true, true, true⟩ now did = .ok (db.isBlacklisted now did) :=
    congrArg Except.ok hblack
  rw [ListStore.riskCheck, hlisted, ListDb.verdict]
  show (if db.isBlacklisted now did = true then _ else _) = _
  by_cases hb : db.isBlacklisted now did = true
  · rw [if_pos hb, if_pos hb]
    rfl
  · rw [if_neg hb, if_neg hb, hwhite, decideWhitelist]
    simp only [← hspent]
    rfl

/-! ### Export and sync -/

theorem foldl_insert_entries (l : List (String × ListedMerchant)) (t : MerchantTree)
    (hsorted : (t.tree.entries ++ l).Pairwise fun e e' => e.1 < e'.1)
    (hkeyed : ∀ e ∈ l, e.2.did = e.1) :
    ((l.map Prod.snd).foldl MerchantTree.insert t).tree.entries = t.tree.entries ++ l := by
  -- By induction on what is still to be written: each key is above all that are there.
  induction l generalizing t with
  | nil => rw [List.map_nil, List.foldl_nil, List.append_nil]
  | cons e l ih =>
    obtain ⟨he, hl⟩ := List.forall_mem_cons.mp hkeyed
    have hlt : ∀ d ∈ t.tree.entries, d.1 < e.2.did := by
      intro d hd
      rw [he]
      exact (List.pairwise_append.mp hsorted).2.2 d hd e List.mem_cons_self
    have hentries : (t.insert e.2).tree.entries = t.tree.entries ++ [e] := by
      rw [MerchantTree.insert, SortedTree.entries_insert_of_lt _ hlt, he]
    rw [List.map_cons, List.foldl_cons, ih (t.insert e.2) ?_ hl, hentries, List.append_assoc,
      List.singleton_append]
    rw [hentries, List.append_assoc, List.singleton_append]
    exact hsorted

/-- The values of a tree, written into an empty one, are the tree. -/
theorem foldl_insert_values (t : MerchantTree) :
    t.values.foldl MerchantTree.insert .empty = t := by
  refine MerchantTree.eq_of_entries ?_
  have hfold := foldl_insert_entries t.tree.entries .empty (by
    show ([] ++ t.tree.entries).Pairwise _
    exact t.tree.sorted) t.keyed
  exact hfold

theorem foldl_insertWhitelist (l : List ListedMerchant) (db : ListDb) :
    (l.map SyncAccess.insertWhitelist).foldl SyncAccess.apply db
      = { db with whitelist := l.foldl MerchantTree.insert db.whitelist } := by
  induction l generalizing db with
  | nil => rfl
  | cons e l ih =>
    rw [List.map_cons, List.foldl_cons, ih]
    rfl

theorem foldl_insertBlacklist (l : List ListedMerchant) (db : ListDb) :
    (l.map SyncAccess.insertBlacklist).foldl SyncAccess.apply db
      = { db with blacklist := l.foldl MerchantTree.insert db.blacklist } := by
  induction l generalizing db with
  | nil => rfl
  | cons e l ih =>
    rw [List.map_cons, List.foldl_cons, ih]
    rfl

/-- The accesses of a sync, all done: both trees hold the downloaded entries. -/
theorem synced_eq (db : ListDb) (cid : String) (lists : MerchantLists) :
    synced db cid lists =
      { db with
        whitelist := lists.whitelist.foldl MerchantTree.insert .empty
        blacklist := lists.blacklist.foldl MerchantTree.insert .empty
        currentCid := some cid } := by
  rw [synced, syncFromIpfs, List.foldl_append, List.foldl_append, List.foldl_append,
    foldl_insertWhitelist, foldl_insertBlacklist]
  rfl

theorem synced_exportLists (db db' : ListDb) (cid : String) :
    (synced db' cid db.exportLists).whitelist = db.whitelist ∧
      (synced db' cid db.exportLists).blacklist = db.blacklist := by
  rw [synced_eq]
  exact ⟨foldl_insert_values db.whitelist, foldl_insert_values db.blacklist⟩

/-! ### What a check returns -/

/-- A check that has decided did so as the old lists or the new ones would, and blocked a
merchant that is on both blacklists. -/
def Check.Answered (old new : ListDb) (c : Check) : Prop :=
  ∀ t₁ t₂ cumulative decision, c.stage = .decided t₁ t₂ cumulative decision →
    (old.isBlacklisted t₁ c.did = true → new.isBlacklisted t₁ c.did = true →
      decision = .blocked) ∧
    (decision = old.verdict t₁ t₂ cumulative c.did c.amount ∨
      decision = new.verdict t₁ t₂ cumulative c.did c.amount)

/-- These lists did not block the merchant when the blacklist was read, and have what the store
has for it on the whitelist. -/
def ListDb.ShownTo (l : ListDb) (s : SyncState) (c : Check) (t₁ : ℕ) : Prop :=
  l.isBlacklisted t₁ c.did = false ∧
    s.db.checkWhitelist s.now c.did c.amount = l.checkWhitelist s.now c.did c.amount

instance (l : ListDb) (s : SyncState) (c : Check) (t₁ : ℕ) : Decidable (l.ShownTo s c t₁) :=
  inferInstanceAs (Decidable (_ ∧ _))

/-- The next read of a check finds the old lists or the new ones: an entry that blocks is on one of
the two blacklists, and the whitelist is that of lists that did not block. -/
def CheckStage.Steady (old new : ListDb) (s : SyncState) (c : Check) : CheckStage → Prop
  | started => s.db.isBlacklisted s.now c.did = true →
    old.isBlacklisted s.now c.did = true ∨ new.isBlacklisted s.now c.did = true
  | unlisted t₁ => old.ShownTo s c t₁ ∨ new.ShownTo s c t₁
  | capped .. => True
  | decided .. => True

instance (old new : ListDb) (s : SyncState) (c : Check) :
    (stage : CheckStage) → Decidable (stage.Steady old new s c)
  | .started => inferInstanceAs (Decidable (_ → _))
  | .unlisted _ => inferInstanceAs (Decidable (_ ∨ _))
  | .capped .. => inferInstanceAs (Decidable True)
  | .decided .. => inferInstanceAs (Decidable True)

def Steady (old new : ListDb) (s : SyncState) : SyncStep → Prop
  | .check i _ => ∀ c ∈ s.checks.lookup i, c.stage.Steady old new s c
  | _ => True

instance (old new : ListDb) (s : SyncState) : (a : SyncStep) → Decidable (Steady old new s a)
  | .sync | .giveUp | .stop | .startCheck .. | .failCheck _ | .tick _ =>
    inferInstanceAs (Decidable True)
  | .check i _ => inferInstanceAs (Decidable (∀ c ∈ s.checks.lookup i, c.stage.Steady old new s c))

/-- What a check has read so far is what one of the two lists has. -/
def Check.Consistent (old new : ListDb) (c : Check) : Prop :=
  match c.stage with
  | .started => True
  | .unlisted _ => True
  | .capped t₁ t₂ wl => ∃ l, (l = old ∨ l = new) ∧ l.isBlacklisted t₁ c.did = false ∧
    wl = l.checkWhitelist t₂ c.did c.amount
  | .decided t₁ t₂ cumulative decision => ∃ l, (l = old ∨ l = new) ∧
    decision = l.verdict t₁ t₂ cumulative c.did c.amount

theorem ListDb.verdict_of_listed {l : ListDb} {t₁ : ℕ} (h : l.isBlacklisted t₁ did = true)
    (t₂ : ℕ) (cumulative : UInt64) : l.verdict t₁ t₂ cumulative did amount = .blocked := by
  rw [ListDb.verdict, if_pos h]

theorem ListDb.verdict_of_unlisted {l : ListDb} {t₁ : ℕ} (h : l.isBlacklisted t₁ did = false)
    (t₂ : ℕ) (cumulative : UInt64) : l.verdict t₁ t₂ cumulative did amount
      = decideWhitelist (l.checkWhitelist t₂ did amount) cumulative amount := by
  rw [ListDb.verdict, h, if_neg Bool.false_ne_true]

theorem Check.Consistent.answered (h : c.Consistent old new) : c.Answered old new := by
  intro t₁ t₂ cumulative decision hstage
  rw [Check.Consistent, hstage] at h
  obtain ⟨l, hl, rfl⟩ := h
  constructor
  · intro hold hnew
    have hlisted : l.isBlacklisted t₁ c.did = true := by
      rcases hl with rfl | rfl
      · exact hold
      · exact hnew
    exact ListDb.verdict_of_listed hlisted t₂ cumulative
  · rcases hl with rfl | rfl
    · exact .inl rfl
    · exact .inr rfl

/-- Without a cap that has to be compared, the whitelist alone decides. -/
theorem decideWhitelist_of_uncapped {wl : WhitelistResult}
    (h : ¬ (wl.isWhitelisted = true ∧ wl.maxAmount.isSome)) (cumulative amount : UInt64) :
    decideWhitelist wl cumulative amount
      = if wl.isWhitelisted then .autoApproved wl.maxAmount wl.label else .needsAuth := by
  rw [decideWhitelist]
  by_cases hwl : wl.isWhitelisted = true
  · have hmax : wl.maxAmount = none := by
      rw [← Option.not_isSome_iff_eq_none]
      exact fun hsome => h ⟨hwl, hsome⟩
    rw [hmax, if_pos hwl, if_pos ⟨hwl, by rw [Option.any_none]; exact Bool.false_ne_true⟩]
  · rw [if_neg hwl, if_neg fun hboth => hwl hboth.1]

/-! ### Interleaved with a sync -/

/-- One access of a check. -/
theorem Check.Consistent.next {s : SyncState} {i : ℕ} {readable : Bool}
    (hc : s.checks.lookup i = some c) (h : c.Consistent old new)
    (hsteady : Steady old new s (.check i readable)) :
    Check.Consistent old new { c with stage := c.next s.db s.now readable } := by
  have hsteady := hsteady c hc
  -- `either` names the lists that the read has found.
  have either : ∀ {P : ListDb → Prop}, P old ∨ P new → ∃ l, (l = old ∨ l = new) ∧ P l := by
    rintro P (hP | hP)
    · exact ⟨old, .inl rfl, hP⟩
    · exact ⟨new, .inr rfl, hP⟩
  rcases hstage : c.stage with _ | t₁ | ⟨t₁, t₂, wl⟩ | ⟨t₁, t₂, cumulative, decision⟩
  · rw [hstage] at hsteady
    simp only [Check.next, hstage]
    by_cases hb : s.db.isBlacklisted s.now c.did = true
    · rw [if_pos hb]
      obtain ⟨l, hl, hlisted⟩ := either (P := fun l => l.isBlacklisted s.now c.did = true) (hsteady hb)
      exact ⟨l, hl, (ListDb.verdict_of_listed hlisted _ _).symm⟩
    · rw [if_neg hb]
      trivial
  · rw [hstage] at hsteady
    obtain ⟨l, hl, hfree, hwl⟩ := either (P := fun l => l.ShownTo s c t₁) hsteady
    simp only [Check.next, hstage]
    by_cases hcap : (s.db.checkWhitelist s.now c.did c.amount).isWhitelisted = true ∧
        (s.db.checkWhitelist s.now c.did c.amount).maxAmount.isSome
    · rw [if_pos hcap]
      exact ⟨l, hl, hfree, hwl⟩
    · rw [if_neg hcap]
      refine ⟨l, hl, ?_⟩
      rw [ListDb.verdict_of_unlisted hfree, ← hwl]
      exact (decideWhitelist_of_uncapped hcap _ _).symm
  · rw [Check.Consistent, hstage] at h
    obtain ⟨l, hl, hfree, rfl⟩ := h
    simp only [Check.next, hstage]
    exact ⟨l, hl, (ListDb.verdict_of_unlisted hfree _ _).symm⟩
  · rw [Check.Consistent, hstage] at h
    simp only [Check.next, hstage]
    exact h

/-- All checks are consistent. -/
def SyncState.Consistent (old new : ListDb) (s : SyncState) : Prop :=
  ∀ i c, s.checks.lookup i = some c → c.Consistent old new

/-- Only an access of a check does something to a check. -/
theorem SyncState.Consistent.step {s s' : SyncState} {a : SyncStep} (h : s.Consistent old new)
    (hsteady : Steady old new s a) (hok : a.exec s = .ok s') : s'.Consistent old new := by
  cases a with
  | sync =>
    rcases hpending : s.pending with _ | ⟨a, rest⟩
    · simp [SyncStep.exec, hpending] at hok
    · simp only [SyncStep.exec, hpending] at hok
      obtain rfl := Except.ok.inj hok
      exact h
  | giveUp =>
    obtain rfl := Except.ok.inj hok
    exact h
  | stop =>
    obtain rfl := Except.ok.inj hok
    intro i c hc
    exact absurd hc (by simp)
  | startCheck i did amount =>
    obtain rfl := Except.ok.inj hok
    intro j c hc
    rw [Store.lookup_insert_eq] at hc
    split at hc
    · obtain rfl := Option.some_inj.mp hc
      trivial
    · exact h j c hc
  | check i readable =>
    simp only [SyncStep.exec, bind_eq_ok, orErr_eq_ok] at hok
    obtain ⟨c, hc, hok⟩ := hok
    obtain rfl := Except.ok.inj hok
    intro j d hd
    rw [Store.lookup_insert_eq] at hd
    split at hd
    · obtain rfl := Option.some_inj.mp hd
      exact (h i c hc).next hc hsteady
    · exact h j d hd
  | failCheck i =>
    obtain rfl := Except.ok.inj hok
    intro j c hc
    rcases eq_or_ne j i with rfl | hne
    · rw [AList.lookup_erase] at hc
      exact absurd hc (by simp)
    · rw [AList.lookup_erase_ne hne] at hc
      exact h j c hc
  | tick now =>
    simp only [SyncStep.exec, bind_eq_ok, require_eq_ok, exists_const] at hok
    obtain ⟨-, hok⟩ := hok
    obtain rfl := Except.ok.inj hok
    exact h

end

/-- Whatever comes in between the accesses of a sync, and wherever it stops: if each read finds the
old lists or the new ones, every check returns what one of them would, and blocks what both block.
And a sync of what a store has uploaded makes both lists those of that store. -/
theorem sync_keeps_verdicts {old : ListDb} {now : ℕ} {cid : String} {lists : MerchantLists}
    {h : List (SyncState × SyncStep)} {s : SyncState}
    (hrun : Run SyncStep.exec (beginning old now cid lists) h s)
    (hsteady : ∀ p ∈ h, Steady old (synced old cid lists) p.1 p.2) :
    (∀ i c, s.checks.lookup i = some c → c.Answered old (synced old cid lists)) ∧
      ∀ (db db' : ListDb) (ipfs : Ipfs) (cid : String), ∃ lists,
        (uploadToIpfs cid db ipfs).2.lookup cid = some lists ∧
        (synced db' cid lists).whitelist = db.whitelist ∧
        (synced db' cid lists).blacklist = db.blacklist := by
  have hstart : (beginning old now cid lists).Consistent old (synced old cid lists) := by
    intro i c hc
    exact absurd hc (by simp [beginning])
  have hconsistent : s.Consistent old (synced old cid lists) :=
    hrun.invariant_of (Steady old (synced old cid lists)) hstart
      (fun s a s' hs ha hok => hs.step ha hok) hsteady
  constructor
  · intro i c hc
    exact (hconsistent i c hc).answered
  · intro db db' ipfs cid
    exact ⟨db.exportLists, AList.lookup_insert _, synced_exportLists db db' cid⟩

/-! ### A merchant on every list -/

namespace Sample

/-- An entry without a cap that never expires. -/
def listed : ListedMerchant := ⟨⟨none, none, none⟩, "did:ignite:zMerchant", none, 0⟩

/-- The merchant is on the blacklist. -/
def blocking : ListDb := ⟨.empty, .insert .empty listed, ∅, none⟩

/-- The synced lists have it on both. -/
def lists : MerchantLists := ⟨[listed], [listed]⟩

def checking : List SyncStep :=
  [.startCheck 0 listed.did 5, .check 0 true, .check 0 true]

/-- Both trees are cleared, and the whitelist is written. -/
def midway : List SyncStep := [.sync, .sync, .sync] ++ checking

/-- A check, the sync, and a check. -/
def apart : List SyncStep := checking.take 2 ++ List.replicate 5 .sync ++ checking.take 2

theorem approved : ∃ h s, Run SyncStep.exec (beginning blocking 0 "cid" lists) h s ∧
    h.map Prod.snd = midway.reverse ∧
    (s.checks.lookup 0).any (fun c => decide (c =
      ⟨listed.did, 5, .decided 0 0 0 (.autoApproved none none)⟩)) = true :=
  Run.exists_of_test (by decide)

theorem apart_steady : Run.tryAll SyncStep.exec (Steady blocking (synced blocking "cid" lists))
    (fun s => s.pending = []) apart (beginning blocking 0 "cid" lists) = true := by decide

end Sample

/-- The sync has written the whitelist and not yet the blacklist, which it had cleared: a merchant
that both blacklists hold is approved. -/
theorem sync_opens_gap :
    ¬ ∀ (old : ListDb) (now : ℕ) (cid : String) (lists : MerchantLists)
      (h : List (SyncState × SyncStep)) (s : SyncState),
      Run SyncStep.exec (beginning old now cid lists) h s →
        ∀ i c, s.checks.lookup i = some c → c.Answered old (synced old cid lists) := by
  intro hall
  obtain ⟨h, s, hrun, -, htest⟩ := Sample.approved
  rcases hc : s.checks.lookup 0 with _ | c
  · rw [hc] at htest
    exact absurd htest (by simp)
  rw [hc] at htest
  obtain rfl := of_decide_eq_true htest
  have hold : Sample.blocking.isBlacklisted 0 Sample.listed.did = true := by decide
  have hnew : (synced Sample.blocking "cid" Sample.lists).isBlacklisted 0 Sample.listed.did
      = true := by decide
  have hblocked := (hall _ _ _ _ _ _ hrun 0 _ hc 0 0 0 _ rfl).1 hold hnew
  exact absurd hblocked (by decide)

/-- A check before the sync, and one after it. -/
theorem sync_keeps_verdicts_apart : ∃ h s,
    Run SyncStep.exec (beginning Sample.blocking 0 "cid" Sample.lists) h s ∧
    s.pending = [] ∧
    ∀ i c, s.checks.lookup i = some c →
      c.Answered Sample.blocking (synced Sample.blocking "cid" Sample.lists) := by
  obtain ⟨h, s, hrun, -, hsteady, hpending⟩ :=
    Run.exists_of_tryAll .start (fun _ hc => absurd hc List.not_mem_nil) Sample.apart_steady
  exact ⟨h, s, hrun, hpending, (sync_keeps_verdicts hrun hsteady).1⟩

end Agent
