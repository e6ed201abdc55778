/-
What a request does in one access (`did-registry/src/handlers/`).

`Access` lists the writes that a request can make, and `Makes` the transactions that it sends or
prepares.  An invariant of all requests, however they come in between each other, has to be kept by
each of these writes.

* `does_handle` — every access of every request is one of these;
* `Service.invariant` — what they keep holds in every interleaving.
-/
import IgnitePay.Registry.State

namespace Registry

open Bytes Machine
open Solana (Pubkey)
open Did (MerchantDidAccount)
open Did.Service (OnchainMode Transaction)
open Handler (Does check orAnswer call read modify)

/-- The transactions that a request makes; `mode` says who sends them. -/
inductive Makes (r : Service) : Call → OnchainMode → Transaction → Prop
  | register {o : Outcome} {req : RegisterMerchantRequest} {signer key : Pubkey} {vcHash : Bytes 32}
      {sig : Bytes 64} (hash : r.parseHash "platform_vc_hash" req.platformVcHash = .ok vcHash) :
      Makes r (.registerMerchant o req) req.mode
        (Did.Service.initializeDid req.mode signer vcHash sig key)
  | rotate {o : Outcome} {req : RotateKeyRequest} {signer key : Pubkey} {nonce : UInt64} :
      Makes r (.rotateKey o req) req.mode (Did.Service.setRecoveryKey req.mode signer key nonce)
  | update {o : Outcome} {req : UpdateVcRequest} {signer subject : Pubkey} {vcHash : Bytes 32}
      {nonce : UInt64} {sig : Bytes 64} (hash : r.parseHash "new_vc_hash" req.newVcHash = .ok vcHash) :
      Makes r (.updateVc o req) req.mode
        (Did.Service.updateDidWithVc req.mode signer vcHash nonce sig subject)
  | revoke {o : Outcome} {req : RevokeVcRequest} {vcHash : Bytes 32} {subject : Pubkey}
      (hash : r.parseHash "vc_hash" req.vcHash = .ok vcHash) :
      Makes r (.revokeVc o req) .sponsored
        (Did.Service.revokeVc r.payer vcHash subject req.reason)

/-- The credential is put together for the request. -/
inductive Issues (r : Service) : Call → VerifiableCredential → Prop
  | issue {o : Outcome} {req : IssueVcRequest} {now : ℕ} : Issues r (.issueVc o req) (r.credential now o.uuid req)

/-- One access of a request. -/
inductive Access (r : Service) (c : Call) (s : State) : State → Prop
  | reads : Access r c s s
  | issuesNonce {nonce : String} : Access r c s (s.issueNonce nonce)
  | consumesNonce {nonce : String} : Access r c s (s.consumeNonce nonce).2
  | signs {key : Pubkey} {vcHash : Bytes 32} :
      Access r c s { s with bindings := (key, vcHash) :: s.bindings }
  | sends {o : Outcome} {tx : Transaction} (makes : Makes r c .sponsored tx) :
      Access r c s (r.submit o tx s).2
  | prepares {tx : Transaction} (makes : Makes r c .selfOnchain tx) :
      Access r c s { s with pending := s.pending ++ [Did.Service.signed .selfOnchain tx] }
  | caches {didHash : Bytes 32} {account : MerchantDidAccount} :
      Access r c s (s.cacheMerchant didHash account)
  | charges {didHash : Bytes 32} {operation did : String} {fee : UInt64} :
      Access r c s (s.recordFee didHash operation fee did)
  | saves {vc : VerifiableCredential} (issues : Issues r c vc) : Access r c s (r.saveVc vc s)
  | marks {req : RevokeVcRequest} : Access r c s (r.markVcRevoked req s)
  | lands {n : ℕ} : Access r c s (r.land n s)
  | expires {n : ℕ} : Access r c s { s with pending := s.pending.eraseIdx n }
  | ticks {clock : ℕ} : Access r c s { s with clock }

section

variable {r : Service} {c : Call} {did : String} {o : Outcome} {tx : Transaction}
  {k : Handler State Response}

theorem does_read {β : Type} {f : State → β} {k : β → Handler State Response}
    (hk : ∀ b, Does (Access r c) (k b)) : Does (Access r c) (read f k) :=
  Handler.does_read (fun _ => .reads) hk

theorem does_withNonce {nonce : String} {refused : Response} (hk : Does (Access r c) k) :
    Does (Access r c) (Service.withNonce nonce refused k) :=
  Handler.does_call (fun _ => .consumesNonce) fun _ => Handler.does_check hk

theorem does_signVcBinding {key : Pubkey} {vcHash : Bytes 32}
    {k : Bytes 64 → Handler State Response} (hk : ∀ sig, Does (Access r c) (k sig)) :
    Does (Access r c) (r.signVcBinding key vcHash k) :=
  Handler.does_modify (fun _ => .signs) (hk _)

theorem does_send {k : String → Handler State Response} (hmakes : Makes r c .sponsored tx)
    (hk : ∀ sig, Does (Access r c) (k sig)) : Does (Access r c) (r.send o tx k) :=
  Handler.does_call (fun _ => .sends hmakes) fun _ => Handler.does_orAnswer hk

theorem does_prepare {k : Handler State Response → Handler State Response}
    (hmakes : Makes r c .selfOnchain tx)
    (hk : ∀ h, Does (Access r c) h → Does (Access r c) (k h)) : Does (Access r c) (r.prepare o tx k) :=
  Handler.does_check (Handler.does_modify (fun _ => .prepares hmakes) (hk _ trivial))

theorem does_cache {account : MerchantDidAccount} (hk : Does (Access r c) k) :
    Does (Access r c) (r.cache did account k) :=
  Handler.does_modify (fun _ => .caches) hk

/-- What follows a transaction that has succeeded: the cache, the fee and the answer. -/
theorem does_settle {account : MerchantDidAccount} {operation : String} {fee : UInt64} (a : Response) :
    Does (Access r c) (r.cache did account (r.charge did operation fee (.answer a))) :=
  does_cache (Handler.does_modify (fun _ => .charges) trivial)

theorem does_withKnownMerchant {k : MerchantDidAccount → Handler State Response}
    (hk : ∀ account, Does (Access r c) (k account)) :
    Does (Access r c) (r.withKnownMerchant did k) := by
  rw [Service.withKnownMerchant, Service.withMerchant]
  exact does_read fun cached => Handler.does_orAnswer hk

theorem does_authorize {cached : Option MerchantDidAccount} (hk : Does (Access r c) k) :
    Does (Access r c) (Service.authorize did cached k) := by
  cases cached with
  | none => exact hk
  | some account => exact Handler.does_orAnswer fun _ => Handler.does_check hk

end

/-- Every access of every request is one of those that are listed. -/
theorem does_handle (r : Service) (c : Call) : Does (Access r c) (r.handle c) := by
  cases c with
  | issueNonce nonce => exact Handler.does_modify (fun _ => .issuesNonce) trivial
  | registerMerchant o req =>
    refine Handler.does_check (does_withNonce (Handler.does_check (Handler.does_orAnswer fun key =>
      Handler.does_orAnswer_of fun hash hhash => does_signVcBinding fun sig => ?_)))
    have hmakes : ∀ signer, Makes r (.registerMerchant o req) req.mode
        (Did.Service.initializeDid req.mode signer hash sig key) := fun _ => .register hhash
    rw [Service.registerOnchain]
    split
    · next hmode => exact does_send (by simpa only [hmode] using hmakes r.payer) fun _ => does_settle _
    · next hmode => exact does_prepare (by simpa only [hmode] using hmakes key) fun _ h => h
  | confirmRegister o req =>
    refine Handler.does_check (does_withNonce (Handler.does_check (Handler.does_orAnswer fun key =>
      Handler.does_orAnswer fun _ => Handler.does_orAnswer fun hash => does_read fun cached => ?_)))
    exact Handler.does_check (Handler.does_check (Handler.does_check (does_cache trivial)))
  | rotateKey o req =>
    refine Handler.does_check (Handler.does_orAnswer fun key => does_withNonce (Handler.does_check
      (does_withKnownMerchant fun account => ?_)))
    have hmakes : ∀ signer, Makes r (.rotateKey o req) req.mode
        (Did.Service.setRecoveryKey req.mode signer key account.nonce) := fun _ => .rotate
    rw [Service.rotateOnchain]
    split
    · next hmode => exact does_send (by simpa only [hmode] using hmakes r.payer) fun _ => does_settle _
    · next hmode =>
      exact does_prepare (by simpa only [hmode] using hmakes account.controllerPk) fun _ h => does_cache h
  | updateVc o req =>
    refine Handler.does_check (Handler.does_orAnswer_of fun hash hhash => does_withNonce
      (Handler.does_check (does_withKnownMerchant fun account => does_signVcBinding fun sig => ?_)))
    have hmakes : ∀ signer, Makes r (.updateVc o req) req.mode
        (Did.Service.updateDidWithVc req.mode signer hash account.nonce sig account.controllerPk) :=
      fun _ => .update hhash
    rw [Service.updateOnchain]
    split
    · next hmode => exact does_send (by simpa only [hmode] using hmakes r.payer) fun _ => does_settle _
    · next hmode =>
      exact does_prepare (by simpa only [hmode] using hmakes account.controllerPk) fun _ h => h
  | issueVc o req =>
    refine Handler.does_check (does_withNonce (Handler.does_check (does_read fun cached =>
      does_authorize (does_read fun now => Handler.does_check ?_))))
    exact Handler.does_modify (fun _ => .saves .issue) trivial
  | revokeVc o req =>
    refine Handler.does_orAnswer_of fun hash hhash => Handler.does_orAnswer fun key => does_withNonce
      (Handler.does_check (does_send (.revoke hhash) fun _ => ?_))
    exact Handler.does_modify (fun _ => .marks) trivial
  | merchantProfile did =>
    exact Handler.does_check (does_withKnownMerchant fun account => Handler.does_check
      (does_read fun _ => Handler.does_orAnswer fun _ => Handler.does_orAnswer fun _ => trivial))
  | lands n => exact Handler.does_modify (fun _ => .lands) trivial
  | expires n => exact Handler.does_modify (fun _ => .expires) trivial
  | ticks clock => exact Handler.does_modify (fun _ => .ticks) trivial

/-- A property that every access of every request keeps, in a run in which the requests come in
between each other. -/
theorem Service.invariant (r : Service) {calls : ℕ → Call} {P : State → Prop} {s₀ : State}
    (hkeep : ∀ i s s', P s → Access r (calls i) s s' → P s') (hstart : P s₀)
    {h : List (System State (Handler State Response) × ℕ)} {s : System State (Handler State Response)}
    (hrun : Run (System.turn Handler.next) ⟨s₀, fun i => r.handle (calls i)⟩ h s) : P s.shared := by
  refine Handler.invariant (R := fun s s' => ∃ i, Access r (calls i) s s') (P := P) ?_ hstart ?_ hrun
  · rintro s s' hs ⟨i, haccess⟩
    exact hkeep i s s' hs haccess
  · exact fun i => (does_handle r (calls i)).imp fun s s' haccess => ⟨i, haccess⟩

end Registry
