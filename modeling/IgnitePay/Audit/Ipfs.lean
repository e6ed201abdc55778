/-
IPFS (`ignite-pay-core/src/ipfs.rs`).

A client uploads data under a CID that it is given for it, and downloads what a CID stands
for.  The mock client keeps the data in memory, under CIDs that it counts.

* `mock_roundTrips` — what the mock client uploads is downloaded, then and later.
-/
import IgnitePay.Lib.Machine
import IgnitePay.Lib.Store

namespace Audit

open Machine

/-- An IPFS client. -/
structure Ipfs (S : Type) where
  upload : List UInt8 → Method S String String
  download : String → S → Except String (List UInt8)

/-- What was uploaded is downloaded under its CID, and later uploads do not change it. -/
structure Ipfs.RoundTrips {S : Type} (ipfs : Ipfs S) : Prop where
  uploaded : ∀ {data s cid s'}, Returns (ipfs.upload data) s cid s' → ipfs.download cid s' = .ok data
  kept : ∀ {data s cid s'}, Returns (ipfs.upload data) s cid s' →
    ∀ {cid' data'}, ipfs.download cid' s = .ok data' → ipfs.download cid' s' = .ok data'

/-- What can be downloaded before can be downloaded after. -/
def Ipfs.Keeps {S : Type} (ipfs : Ipfs S) (s s' : S) : Prop :=
  ∀ cid data, ipfs.download cid s = .ok data → ipfs.download cid s' = .ok data

theorem Ipfs.RoundTrips.keeps {S : Type} {ipfs : Ipfs S} (hipfs : ipfs.RoundTrips) {data : List UInt8}
    {s s' : S} {cid : String} (h : Returns (ipfs.upload data) s cid s') : ipfs.Keeps s s' :=
  fun _ _ => hipfs.kept h

/-- An upload that fails changes nothing about what can be downloaded, either. -/
structure Ipfs.Durable {S : Type} (ipfs : Ipfs S) : Prop extends ipfs.RoundTrips where
  failed : ∀ {data s e s'}, Fails (ipfs.upload data) s e s' → ipfs.Keeps s s'

/-! ### The mock client -/

def mockCid (n : ℕ) : String := "bafyreiMock" ++ Nat.repr n

theorem mockCid_inj {m n : ℕ} (h : mockCid m = mockCid n) : m = n :=
  Nat.repr_injective ((String.append_right_inj _).mp h)

/-- `MockIpfsClient`; no CID is in use that is yet to be counted. -/
structure MockIpfs where
  store : Store.Map String (List UInt8)
  counter : ℕ
  unused : ∀ n, counter < n → store.lookup (mockCid n) = none

namespace MockIpfs

def empty : MockIpfs := ⟨∅, 0, fun _ _ => rfl⟩

def put (data : List UInt8) (s : MockIpfs) : MockIpfs where
  store := s.store.insert (mockCid (s.counter + 1)) data
  counter := s.counter + 1
  unused := by
    intro n hn
    have hne : mockCid n ≠ mockCid (s.counter + 1) := by
      intro h
      have := mockCid_inj h
      omega
    rw [AList.lookup_insert_ne hne]
    exact s.unused n (by omega)

end MockIpfs

def mock : Ipfs MockIpfs where
  upload data := ExceptT.mk fun s => (.ok (mockCid (s.counter + 1)), s.put data)
  download cid s := orErr (s.store.lookup cid) ("CID not found: " ++ cid)

theorem returns_mock_upload (data : List UInt8) (s : MockIpfs) :
    Returns (mock.upload data) s (mockCid (s.counter + 1)) (s.put data) := rfl

theorem mock_roundTrips : mock.RoundTrips where
  uploaded {data s cid s'} h := by
    obtain ⟨rfl, rfl⟩ := (returns_mock_upload data s).unique h
    exact orErr_eq_ok.mpr (AList.lookup_insert _)
  kept {data s cid s'} h {cid' data'} hdownload := by
    obtain ⟨rfl, rfl⟩ := (returns_mock_upload data s).unique h
    have hlookup : s.store.lookup cid' = some data' := orErr_eq_ok.mp hdownload
    refine orErr_eq_ok.mpr ?_
    have hne : cid' ≠ mockCid (s.counter + 1) := by
      rintro rfl
      exact absurd (hlookup.symm.trans (s.unused _ (Nat.lt_succ_self _))) (by simp)
    exact (AList.lookup_insert_ne hne).trans hlookup

theorem mock_durable : mock.Durable where
  toRoundTrips := mock_roundTrips
  failed {data s _ _} h := absurd h (returns_mock_upload data s).not_fails

end Audit
