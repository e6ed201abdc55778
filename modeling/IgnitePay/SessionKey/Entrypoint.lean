/-
The entry of the session program (`lib.rs`), and the client that enters it
(`ignite-pay-solana/src/session_program.rs`).

What the client writes is what the program reads, except for two slips.  A registration names its
target program twice, as an account and as an argument, and only the argument is used; so any account
can stand in the place of the other.  And the two withdrawals list the owner as read only where the
program asks for a writable account, so that they pass only where something else in the transaction
has the owner written to, such as its fee.

* `methods` — what the program reads;
* `Request` — what the client writes, one case for each builder;
* `entered_iff_requested` — a call is made exactly by what one of the builders gives for it, where the
  owner of a withdrawal is writable as well.
-/
import IgnitePay.Lib.Anchor
import IgnitePay.Program.Builders
import IgnitePay.SessionKey.Program

namespace SessionKey

open Anchor Bytes Machine Solana
open Program (clockId pushU32 pushVec splTokenId)

/-! ### What the program reads -/

def SessionTerms.codec : Codec SessionTerms :=
  .iso
    { toFun := fun (targetProgram, expiresAt, spendingLimit, scopes, tokenMint, perTxLimit,
        dailyTxCountLimit) => ⟨targetProgram, expiresAt, spendingLimit, scopes, tokenMint, perTxLimit,
          dailyTxCountLimit⟩
      invFun := fun terms => (terms.targetProgram, terms.expiresAt, terms.spendingLimit, terms.scopes,
        terms.tokenMint, terms.perTxLimit, terms.dailyTxCountLimit)
      left_inv := fun _ => rfl
      right_inv := fun _ => rfl }
    (.pair (.bytes 32) (.pair .i64 (.pair .u64 (.pair (.vec .string) (.pair (.bytes 32)
      (.pair .u64 .u32))))))

section

variable (locate : Pubkey → Address)

def registerSessionKeyMethod : Method Call where
  name := "register_session_key"
  Args := SessionTerms
  args := SessionTerms.codec
  accounts := [.mutable, .mutableSigner, .readonly, .readonly, .program systemProgramId,
    .sysvar clockId]
  call
    | [session, owner, ephemeralSigner, _, _, _], terms =>
      some (.registerSessionKey ⟨locate session, locate owner, locate ephemeralSigner⟩ terms)
    | _, _ => none

def executePaymentMethod : Method Call where
  name := "execute_payment"
  Args := UInt64 × String
  args := .pair .u64 .string
  accounts := [.mutable, .signer, .mutable, .program systemProgramId, .sysvar clockId]
  call
    | [session, ephemeralSigner, recipient, _, _], (amount, scope) =>
      some (.executePayment ⟨⟨locate session, locate ephemeralSigner⟩, locate recipient⟩ amount scope)
    | _, _ => none

def executeSplPaymentMethod : Method Call where
  name := "execute_spl_payment"
  Args := UInt64 × String
  args := .pair .u64 .string
  accounts := [.mutable, .signer, .mutable, .mutable, .readonly, .program splTokenId, .sysvar clockId]
  call
    | [session, ephemeralSigner, sourceAta, destAta, tokenMint, _, _], (amount, scope) =>
      some (.executeSplPayment ⟨⟨locate session, locate ephemeralSigner⟩, locate sourceAta,
        locate destAta, tokenMint⟩ amount scope)
    | _, _ => none

def withdrawRemainingMethod : Method Call where
  name := "withdraw_remaining"
  Args := Unit
  args := .unit
  accounts := [.mutable, .mutableSigner, .mutable, .program systemProgramId]
  call
    | [session, owner, recipient, _], _ =>
      some (.withdrawRemaining ⟨locate session, locate owner⟩ (locate recipient))
    | _, _ => none

def withdrawSplRemainingMethod : Method Call where
  name := "withdraw_spl_remaining"
  Args := UInt64
  args := .u64
  accounts := [.mutable, .mutableSigner, .mutable, .mutable, .program splTokenId]
  call
    | [session, owner, sourceAta, destAta, _], amount =>
      some (.withdrawSplRemaining ⟨locate session, locate owner⟩ (locate sourceAta) (locate destAta)
        amount)
    | _, _ => none

def revokeSessionMethod : Method Call where
  name := "revoke_session"
  Args := Unit
  args := .unit
  accounts := [.mutable, .signer]
  call
    | [session, owner], _ => some (.revokeSession ⟨locate session, locate owner⟩)
    | _, _ => none

def closeSessionMethod : Method Call where
  name := "close_session"
  Args := Unit
  args := .unit
  accounts := [.mutable, .mutableSigner, .sysvar clockId]
  call
    | [session, owner, _], _ => some (.closeSession ⟨locate session, locate owner⟩)
    | _, _ => none

/-- `#[program] mod ignite_pay_session_program`. -/
def methods : List (Method Call) :=
  [registerSessionKeyMethod locate, executePaymentMethod locate, executeSplPaymentMethod locate,
    withdrawRemainingMethod locate, withdrawSplRemainingMethod locate, revokeSessionMethod locate,
    closeSessionMethod locate]

end

/-! ### What the client writes -/

/-- `anchor_sighash`. -/
def anchorSighash (name : String) : List UInt8 :=
  (Sha256.sha256 (ofLiteral "global:" ++ ofLiteral name)).val.take 8

def buildRegisterSessionIx (programId sessionPda owner ephemeralSigner targetProgram : Pubkey)
    (expiresAt : Int64) (spendingLimit : UInt64) (scopes : List String) (tokenMint : Pubkey)
    (perTxLimit : UInt64) (dailyTxCountLimit : UInt32) : Instruction where
  programId
  accounts := [.new sessionPda false, .new owner true, .newReadonly ephemeralSigner false,
    .newReadonly targetProgram false, .newReadonly systemProgramId false, .newReadonly clockId false]
  data := anchorSighash "register_session_key" ++ (targetProgram.val ++ (u64Le expiresAt.toUInt64 ++
    (u64Le spendingLimit ++ ((pushU32 scopes.length ++
      scopes.flatMap fun scope => pushVec (Codec.utf8 scope)) ++ (tokenMint.val ++
        (u64Le perTxLimit ++ pushU32 dailyTxCountLimit.toNat))))))

def buildExecutePaymentIx (programId sessionPda ephemeralSigner recipient : Pubkey) (amount : UInt64)
    (scope : String) : Instruction where
  programId
  accounts := [.new sessionPda false, .newReadonly ephemeralSigner true, .new recipient false,
    .newReadonly systemProgramId false, .newReadonly clockId false]
  data := anchorSighash "execute_payment" ++ (u64Le amount ++ pushVec (Codec.utf8 scope))

def buildExecuteSplPaymentIx (programId sessionPda ephemeralSigner sourceAta destAta
    tokenMint : Pubkey) (amount : UInt64) (scope : String) : Instruction where
  programId
  accounts := [.new sessionPda false, .newReadonly ephemeralSigner true, .new sourceAta false,
    .new destAta false, .newReadonly tokenMint false, .newReadonly splTokenId false,
    .newReadonly clockId false]
  data := anchorSighash "execute_spl_payment" ++ (u64Le amount ++ pushVec (Codec.utf8 scope))

def buildRevokeSessionIx (programId sessionPda owner : Pubkey) : Instruction where
  programId
  accounts := [.new sessionPda false, .newReadonly owner true]
  data := anchorSighash "revoke_session"

def buildCloseSessionIx (programId sessionPda owner : Pubkey) : Instruction where
  programId
  accounts := [.new sessionPda false, .new owner true, .newReadonly clockId false]
  data := anchorSighash "close_session"

def buildWithdrawRemainingIx (programId sessionPda owner recipient : Pubkey) : Instruction where
  programId
  accounts := [.new sessionPda false, .newReadonly owner true, .new recipient false,
    .newReadonly systemProgramId false]
  data := anchorSighash "withdraw_remaining"

def buildWithdrawSplRemainingIx (programId sessionPda owner sourceAta destAta : Pubkey)
    (amount : UInt64) : Instruction where
  programId
  accounts := [.new sessionPda false, .newReadonly owner true, .new sourceAta false,
    .new destAta false, .newReadonly splTokenId false]
  data := anchorSighash "withdraw_spl_remaining" ++ u64Le amount

/-- What a builder is called with. -/
inductive Request
  | registerSession (sessionPda owner ephemeralSigner : Pubkey) (terms : SessionTerms)
  | executePayment (sessionPda ephemeralSigner recipient : Pubkey) (amount : UInt64) (scope : String)
  | executeSplPayment (sessionPda ephemeralSigner sourceAta destAta tokenMint : Pubkey)
      (amount : UInt64) (scope : String)
  | revokeSession (sessionPda owner : Pubkey)
  | closeSession (sessionPda owner : Pubkey)
  | withdrawRemaining (sessionPda owner recipient : Pubkey)
  | withdrawSplRemaining (sessionPda owner sourceAta destAta : Pubkey) (amount : UInt64)

namespace Request

def build (programId : Pubkey) : Request → Instruction
  | registerSession sessionPda owner ephemeralSigner terms =>
    buildRegisterSessionIx programId sessionPda owner ephemeralSigner terms.targetProgram
      terms.expiresAt terms.spendingLimit terms.scopes terms.tokenMint terms.perTxLimit
      terms.dailyTxCountLimit
  | executePayment sessionPda ephemeralSigner recipient amount scope =>
    buildExecutePaymentIx programId sessionPda ephemeralSigner recipient amount scope
  | executeSplPayment sessionPda ephemeralSigner sourceAta destAta tokenMint amount scope =>
    buildExecuteSplPaymentIx programId sessionPda ephemeralSigner sourceAta destAta tokenMint amount
      scope
  | revokeSession sessionPda owner => buildRevokeSessionIx programId sessionPda owner
  | closeSession sessionPda owner => buildCloseSessionIx programId sessionPda owner
  | withdrawRemaining sessionPda owner recipient =>
    buildWithdrawRemainingIx programId sessionPda owner recipient
  | withdrawSplRemaining sessionPda owner sourceAta destAta amount =>
    buildWithdrawSplRemainingIx programId sessionPda owner sourceAta destAta amount

/-- The call that is asked for. -/
def call (locate : Pubkey → Address) : Request → Call
  | registerSession sessionPda owner ephemeralSigner terms =>
    .registerSessionKey ⟨locate sessionPda, locate owner, locate ephemeralSigner⟩ terms
  | executePayment sessionPda ephemeralSigner recipient amount scope =>
    .executePayment ⟨⟨locate sessionPda, locate ephemeralSigner⟩, locate recipient⟩ amount scope
  | executeSplPayment sessionPda ephemeralSigner sourceAta destAta tokenMint amount scope =>
    .executeSplPayment ⟨⟨locate sessionPda, locate ephemeralSigner⟩, locate sourceAta,
      locate destAta, tokenMint⟩ amount scope
  | revokeSession sessionPda owner => .revokeSession ⟨locate sessionPda, locate owner⟩
  | closeSession sessionPda owner => .closeSession ⟨locate sessionPda, locate owner⟩
  | withdrawRemaining sessionPda owner recipient =>
    .withdrawRemaining ⟨locate sessionPda, locate owner⟩ (locate recipient)
  | withdrawSplRemaining sessionPda owner sourceAta destAta amount =>
    .withdrawSplRemaining ⟨locate sessionPda, locate owner⟩ (locate sourceAta) (locate destAta) amount

/-- The scopes are no more and no longer than their lengths can say. -/
def Fits : Request → Prop
  | registerSession _ _ _ terms =>
    terms.scopes.length < 2 ^ 32 ∧ ∀ scope ∈ terms.scopes, scope.utf8ByteSize < 2 ^ 32
  | executePayment _ _ _ _ scope => scope.utf8ByteSize < 2 ^ 32
  | executeSplPayment _ _ _ _ _ _ scope => scope.utf8ByteSize < 2 ^ 32
  | _ => True

/-- The accounts that a builder lists, with `target` in the place of a registration's target
program. -/
def listed (programId target : Pubkey) (r : Request) : List AccountMeta :=
  match r with
  | registerSession .. => (r.build programId).accounts.set 3 (.newReadonly target false)
  | _ => (r.build programId).accounts

def IsWithdrawal : Request → Prop
  | withdrawRemaining .. => True
  | withdrawSplRemaining .. => True
  | _ => False

def method (locate : Pubkey → Address) : Request → Method Call
  | registerSession .. => registerSessionKeyMethod locate
  | executePayment .. => executePaymentMethod locate
  | executeSplPayment .. => executeSplPaymentMethod locate
  | revokeSession .. => revokeSessionMethod locate
  | closeSession .. => closeSessionMethod locate
  | withdrawRemaining .. => withdrawRemainingMethod locate
  | withdrawSplRemaining .. => withdrawSplRemainingMethod locate

def keys (target : Pubkey) : Request → List Pubkey
  | registerSession sessionPda owner ephemeralSigner _ =>
    [sessionPda, owner, ephemeralSigner, target, systemProgramId, clockId]
  | executePayment sessionPda ephemeralSigner recipient _ _ =>
    [sessionPda, ephemeralSigner, recipient, systemProgramId, clockId]
  | executeSplPayment sessionPda ephemeralSigner sourceAta destAta tokenMint _ _ =>
    [sessionPda, ephemeralSigner, sourceAta, destAta, tokenMint, splTokenId, clockId]
  | revokeSession sessionPda owner => [sessionPda, owner]
  | closeSession sessionPda owner => [sessionPda, owner, clockId]
  | withdrawRemaining sessionPda owner recipient => [sessionPda, owner, recipient, systemProgramId]
  | withdrawSplRemaining sessionPda owner sourceAta destAta _ =>
    [sessionPda, owner, sourceAta, destAta, splTokenId]

def args (locate : Pubkey → Address) : (r : Request) → (r.method locate).Args
  | registerSession _ _ _ terms => terms
  | executePayment _ _ _ amount scope => (amount, scope)
  | executeSplPayment _ _ _ _ _ amount scope => (amount, scope)
  | revokeSession .. => ()
  | closeSession .. => ()
  | withdrawRemaining .. => ()
  | withdrawSplRemaining _ _ _ _ amount => amount

variable (locate : Pubkey → Address) (programId target : Pubkey) (r : Request)

theorem method_mem : r.method locate ∈ methods locate := by
  rw [methods]
  cases r <;> simp [method]

theorem takes : List.Forall₂ AccountSpec.Takes (r.method locate).accounts (r.keys target) := by
  cases r with
  | registerSession => simp [method, keys, registerSessionKeyMethod]
  | executePayment => simp [method, keys, executePaymentMethod]
  | executeSplPayment => simp [method, keys, executeSplPaymentMethod]
  | revokeSession => simp [method, keys, revokeSessionMethod]
  | closeSession => simp [method, keys, closeSessionMethod]
  | withdrawRemaining => simp [method, keys, withdrawRemainingMethod]
  | withdrawSplRemaining => simp [method, keys, withdrawSplRemainingMethod]

theorem call_eq :
    (r.method locate).call (r.keys target) (r.args locate) = some (r.call locate) := by
  cases r <;> rfl

theorem fits_iff : (r.method locate).args.Fits (r.args locate) ↔ r.Fits := by
  cases r with
  | registerSession _ _ _ terms =>
    show True ∧ True ∧ True ∧ (Codec.vec .string).Fits terms.scopes ∧ True ∧ True ∧ True ↔ _
    simp only [true_and, and_true, Fits]
    show terms.scopes.length < 2 ^ 32 ∧ (∀ scope ∈ terms.scopes, Codec.string.Fits scope) ↔ _
    simp only [Codec.fits_string]
  | executePayment _ _ _ _ scope =>
    show True ∧ Codec.string.Fits scope ↔ _
    simp [Fits]
  | executeSplPayment _ _ _ _ _ _ scope =>
    show True ∧ Codec.string.Fits scope ↔ _
    simp [Fits]
  | _ => exact Iff.rfl

/-- A builder writes the data that its method reads. -/
theorem data_eq : (r.build programId).data =
    ((r.method locate).build programId (r.keys target) (r.args locate)).data := by
  cases r with
  | registerSession _ _ _ terms =>
    have hscopes : (terms.scopes.flatMap fun scope => pushVec (Codec.utf8 scope)) =
        terms.scopes.flatMap Codec.string.write :=
      congrArg terms.scopes.flatMap (funext fun scope => (Codec.write_string scope).symm)
    rw [build, buildRegisterSessionIx, hscopes]
    rfl
  | executePayment _ _ _ _ scope =>
    rw [build, buildExecutePaymentIx, pushVec, pushU32, ← Codec.write_string]
    rfl
  | executeSplPayment _ _ _ _ _ _ scope =>
    rw [build, buildExecuteSplPaymentIx, pushVec, pushU32, ← Codec.write_string]
    rfl
  | withdrawSplRemaining => rfl
  | _ => exact (List.append_nil _).symm

/-- To have the second account writable as well. -/
theorem grants_second_iff {first : AccountMeta} {key : Pubkey} {others : List AccountMeta}
    (taken : List AccountInfo) :
    List.Forall₂ AccountInfo.Grants taken (first :: ⟨key, true, true⟩ :: others) ↔
      List.Forall₂ AccountInfo.Grants taken (first :: ⟨key, true, false⟩ :: others) ∧
        ∀ info ∈ taken[1]?, info.isWritable = true := by
  constructor
  · rintro (_ | ⟨hfirst, _ | ⟨hsecond, hothers⟩⟩)
    exact ⟨.cons hfirst (.cons ⟨hsecond.key, hsecond.signer, fun h => by cases h⟩ hothers),
      fun info h => Option.some.inj h ▸ hsecond.writable rfl⟩
  · rintro ⟨_ | ⟨hfirst, _ | ⟨hsecond, hothers⟩⟩, hwritable⟩
    exact .cons hfirst (.cons ⟨hsecond.key, hsecond.signer, fun _ => hwritable _ rfl⟩ hothers)

/-- What the program asks for is granted if what the builder lists is, and if the owner of a
withdrawal is writable. -/
theorem grants_iff (taken : List AccountInfo) :
    List.Forall₂ AccountInfo.Grants taken
        ((r.method locate).build programId (r.keys target) (r.args locate)).accounts ↔
      List.Forall₂ AccountInfo.Grants taken (r.listed programId target) ∧
        (r.IsWithdrawal → ∀ owner ∈ taken[1]?, owner.isWritable = true) := by
  cases r with
  | withdrawRemaining => exact (grants_second_iff taken).trans (and_congr_right' (true_imp_iff).symm)
  | withdrawSplRemaining => exact (grants_second_iff taken).trans (and_congr_right' (true_imp_iff).symm)
  | _ => exact (and_iff_left (False.elim ·)).symm

end Request

/-- Whatever a method of the program can take is asked for by a request. -/
theorem exhausts (locate : Pubkey → Address) (P : ∀ m : Method Call, List Pubkey → m.Args → Prop)
    (h : ∀ r : Request × Pubkey, P (r.1.method locate) (r.1.keys r.2) (r.1.args locate)) :
    ∀ m ∈ methods locate, ∀ ks, List.Forall₂ AccountSpec.Takes m.accounts ks → ∀ a, P m ks a := by
  intro m hm ks htakes a
  simp only [methods, List.mem_cons, List.not_mem_nil, or_false] at hm
  rcases hm with rfl | rfl | rfl | rfl | rfl | rfl | rfl
  · simp only [registerSessionKeyMethod] at htakes
    rcases htakes with _ | ⟨-, _ | ⟨-, _ | ⟨-, _ | ⟨-, _ | ⟨hsystem, _ | ⟨hclock, ⟨⟩⟩⟩⟩⟩⟩⟩
    obtain rfl := (AccountSpec.takes_program _ _).mp hsystem
    obtain rfl := (AccountSpec.takes_sysvar _ _).mp hclock
    exact h (.registerSession _ _ _ a, _)
  · simp only [executePaymentMethod] at htakes
    rcases htakes with _ | ⟨-, _ | ⟨-, _ | ⟨-, _ | ⟨hsystem, _ | ⟨hclock, ⟨⟩⟩⟩⟩⟩⟩
    obtain rfl := (AccountSpec.takes_program _ _).mp hsystem
    obtain rfl := (AccountSpec.takes_sysvar _ _).mp hclock
    exact h (.executePayment _ _ _ a.1 a.2, defaultPubkey)
  · simp only [executeSplPaymentMethod] at htakes
    rcases htakes with _ | ⟨-, _ | ⟨-, _ | ⟨-, _ | ⟨-, _ | ⟨-, _ | ⟨htoken, _ | ⟨hclock, ⟨⟩⟩⟩⟩⟩⟩⟩⟩
    obtain rfl := (AccountSpec.takes_program _ _).mp htoken
    obtain rfl := (AccountSpec.takes_sysvar _ _).mp hclock
    exact h (.executeSplPayment _ _ _ _ _ a.1 a.2, defaultPubkey)
  · simp only [withdrawRemainingMethod] at htakes
    rcases htakes with _ | ⟨-, _ | ⟨-, _ | ⟨-, _ | ⟨hsystem, ⟨⟩⟩⟩⟩⟩
    obtain rfl := (AccountSpec.takes_program _ _).mp hsystem
    exact h (.withdrawRemaining _ _ _, defaultPubkey)
  · simp only [withdrawSplRemainingMethod] at htakes
    rcases htakes with _ | ⟨-, _ | ⟨-, _ | ⟨-, _ | ⟨-, _ | ⟨htoken, ⟨⟩⟩⟩⟩⟩⟩
    obtain rfl := (AccountSpec.takes_program _ _).mp htoken
    exact h (.withdrawSplRemaining _ _ _ _ a, defaultPubkey)
  · simp only [revokeSessionMethod] at htakes
    rcases htakes with _ | ⟨-, _ | ⟨-, ⟨⟩⟩⟩
    exact h (.revokeSession _ _, defaultPubkey)
  · simp only [closeSessionMethod] at htakes
    rcases htakes with _ | ⟨-, _ | ⟨-, _ | ⟨hclock, ⟨⟩⟩⟩⟩
    obtain rfl := (AccountSpec.takes_sysvar _ _).mp hclock
    exact h (.closeSession _ _, defaultPubkey)

/-- The client, which may put another account in the place of a registration's target program. -/
def client (locate : Pubkey → Address) : Client (methods locate) (Request × Pubkey) where
  method r := r.1.method locate
  keys r := r.1.keys r.2
  args r := r.1.args locate
  mem r := r.1.method_mem locate
  takes r := r.1.takes locate r.2
  exhausts := exhausts locate

/-- No two methods have one discriminator. -/
theorem distinct_methods (locate : Pubkey → Address) : Distinct (methods locate) := by
  show (["register_session_key", "execute_payment", "execute_spl_payment", "withdraw_remaining",
    "withdraw_spl_remaining", "revoke_session", "close_session"].map discriminator).Nodup
  decide +kernel

/-- A call is made exactly by what a builder gives for it, with any account in the place of a
registration's target program, and with the owner of a withdrawal writable. -/
theorem entered_iff_requested (locate : Pubkey → Address) (programId : Pubkey)
    (infos : List AccountInfo) (data : List UInt8) (c : Call) :
    dispatch (methods locate) infos data = .ok c ↔
      ∃ (r : Request) (target : Pubkey) (rest : List UInt8) (taken more : List AccountInfo),
        r.Fits ∧ c = r.call locate ∧ data = (r.build programId).data ++ rest ∧
          infos = taken ++ more ∧ List.Forall₂ AccountInfo.Grants taken (r.listed programId target) ∧
            (r.IsWithdrawal → ∀ owner ∈ taken[1]?, owner.isWritable = true) := by
  rw [(client locate).dispatch_eq_ok_iff (distinct_methods locate) programId]
  constructor
  · rintro ⟨⟨r, target⟩, rest, taken, more, hfits, hcall, hdata, hinfos, hgrants⟩
    refine ⟨r, target, rest, taken, more, (r.fits_iff locate).mp hfits, ?_, ?_, hinfos,
      (r.grants_iff locate programId target taken).mp hgrants⟩
    · exact Option.some.inj (hcall.symm.trans (r.call_eq locate target))
    · rw [hdata, r.data_eq locate programId target]
      rfl
  · rintro ⟨r, target, rest, taken, more, hfits, rfl, hdata, hinfos, hgrants⟩
    refine ⟨(r, target), rest, taken, more, (r.fits_iff locate).mpr hfits, r.call_eq locate target,
      ?_, hinfos, (r.grants_iff locate programId target taken).mpr hgrants⟩
    rw [hdata, r.data_eq locate programId target]
    rfl

end SessionKey
