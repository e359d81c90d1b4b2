import NebLite.Iam.Authentication
import NebLite.Atomic.Interleaving

/-! One-time passwords and refresh tokens under concurrent calls. A check reads
the cache entry of a credential, compares, and deletes the entry in a call of
its own. -/

namespace NebLite

open Atomic

/-- A concurrent call, or the expiry of one cache entry. -/
inductive AuthOp where
  | getOtp (clientId : Id) (clientType : EClientType) (otpCode : String)
  | verifyOtp (verifyOtpDto : VerifyOtpDto)
  | getRefreshToken (refreshToken : Jwt)
  | logout (refreshToken : Jwt)
  | expire (key : CacheKey)

namespace AuthOp

def program (env : IamEnvironment) : AuthOp → IamService Unit
  | getOtp clientId clientType otpCode => do
    let _ ← NebLite.getOtp env clientId clientType otpCode
  | verifyOtp dto => do let _ ← NebLite.verifyOtp env dto
  | getRefreshToken token => do let _ ← NebLite.getRefreshToken env token
  | logout token => do let _ ← NebLite.logout token
  | expire key => iamCall (.cacheDel key)

/-- The token that a call presents. -/
def presents : AuthOp → Option Jwt
  | getRefreshToken token | logout token => some token
  | _ => none

/-- The entries that a call uses up. -/
def consumes : AuthOp → CacheKey → Bool
  | verifyOtp _, .otp _ => true
  | getRefreshToken _, .refreshToken _ _ => true
  | logout _, .refreshToken _ _ => true
  | _, _ => false

end AuthOp

/-- A key with the value under it. -/
abbrev Credential := Σ key : CacheKey, key.Value

instance : (key : CacheKey) → DecidableEq key.Value
  | .otp _ => inferInstanceAs (DecidableEq HashedOtp)
  | .refreshToken _ _ => inferInstanceAs (DecidableEq ℕ)
  | .accessToken _ _ => inferInstanceAs (DecidableEq ℕ)

abbrev AuthPool (ι : Type) := Pool ι IamCall IamCall.Answer ServiceError Unit IamWorld

/-- The credential that a cache read has answered with. -/
def readOf : Event IamCall IamCall.Answer ServiceError → Option Credential
  | ⟨.cacheGet key, .ok value⟩ => value.map fun v => ⟨key, v⟩
  | _ => none

variable {ι : Type} [DecidableEq ι]

/-- The credential that process `i` has read last. -/
def lastRead (c : AuthPool ι) (i : ι) : Option Credential :=
  c.trace.findSome? fun e => if e.1 = i then readOf e.2 else none

/-- Process `i` does not delete a credential other than the one it has read, and it
does not compare two undefined token identifiers. -/
def StillHolds (ops : ι → AuthOp) (c : AuthPool ι) (i : ι) : Prop :=
  match (c.procs i).pending with
  | some (.cacheDel key) => (ops i).consumes key = true →
      c.store.cache key ≠ none ∧ (c.store.cache key).map (Sigma.mk key) = lastRead c i
  | some (.cacheGet (.refreshToken role clientId)) =>
      c.store.cache (.refreshToken role clientId) = none →
        ((ops i).presents.bind (·.refreshTokenId)) ≠ none
  | _ => True

instance (ops : ι → AuthOp) (c : AuthPool ι) (i : ι) : Decidable (StillHolds ops c i) := by
  unfold StillHolds
  split <;> infer_instance

/-- What a process has seen, used up and is about to put into the cache. -/
structure AuthLabel where
  seen : Option Credential := none
  used : Option Credential := none
  makes : Option Credential := none
  verified : Bool := false
  stray : Bool := false

/-- Calls that touch no credential. -/
def IamCall.Aside : IamCall → Prop
  | .findClient _ _ | .randomUUID | .signToken .. | .emitOtp .. | .addOtpJob .. | .verifyToken _
  | .cacheSet (.accessToken _ _) _ _ | .cacheDel (.accessToken _ _) => True
  | _ => False

/-- The calls of an operation, and what they make of its label. -/
inductive AuthMove (op : AuthOp) (w : IamWorld) : AuthLabel → IamCall → AuthLabel → Prop
  | aside {l c} : c.Aside → AuthMove op w l c l
  | verify {l token} : op.presents = some token → token ∈ w.signed →
      AuthMove op w l (.verifyToken token) { l with verified := true }
  | miss {l key} : l.seen = none → l.used = none → AuthMove op w l (.cacheGet key) l
  | read {l key v} : l.seen = none → l.used = none → w.cache key = some v →
      AuthMove op w l (.cacheGet key) { l with seen := some ⟨key, v⟩ }
  | undefined {l role id token} : op.presents = some token → token.refreshTokenId = none →
      w.cache (.refreshToken role id) = none →
      AuthMove op w l (.cacheGet (.refreshToken role id)) { l with stray := true }
  | consume {l key v} : l.seen = some ⟨key, v⟩ → op.consumes key = true →
      AuthMove op w l (.cacheDel key) { l with seen := none, used := some ⟨key, v⟩ }
  | expire {l key} : op = .expire key → AuthMove op w l (.cacheDel key) l
  | makeOtp {l phone otpCode} : l.makes = none → AuthMove op w l (.hash otpCode)
      { l with makes := some ⟨.otp phone, ⟨otpCode, w.nextSalt⟩⟩ }
  | makeToken {l role id} : l.makes = none → AuthMove op w l .randomUUID
      { l with makes := some ⟨.refreshToken role id, w.nextUuid⟩ }
  | put {l key v ttl} : l.makes = some ⟨key, v⟩ →
      AuthMove op w l (.cacheSet key v ttl) { l with makes := none }
  | astray {l c} : l.stray = true → AuthMove op w l c l

/-- The token has been verified and its identifier used up. -/
def AuthLabel.Redeemed (l : AuthLabel) (token : Jwt) : Prop :=
  l.stray = true ∨ (l.verified = true ∧
    ∃ u, token.refreshTokenId = some u ∧ l.used = some ⟨.refreshToken token.role token.sub, u⟩)

/-- How a successful call ends. -/
def AuthOp.Done (op : AuthOp) (l : AuthLabel) : Prop :=
  match op with
  | .verifyOtp _ => ∃ phone hashed, l.used = some ⟨.otp phone, hashed⟩
  | .getRefreshToken token | .logout token => l.Redeemed token
  | _ => True

def authOutline (op : AuthOp) : Outline AuthLabel IamCall IamWorld where
  pre _ _ := True
  move l c w l' := AuthMove op w l c l'

/-- The program moves from the label `l`, and `Q` holds of the label where it returns. -/
abbrev Spends {α : Type} (op : AuthOp) (Q : AuthLabel → Prop) (l : AuthLabel) (p : IamService α) : Prop :=
  (authOutline op).Follows iamHandle (fun l r => ∀ a, r = .ok a → Q l) l p

section Spends

variable {env : IamEnvironment} {op : AuthOp} {Q : AuthLabel → Prop} {l : AuthLabel} {α β : Type}

theorem spends_throw (e : ServiceError) : Spends op Q l (.throw e : IamService α) :=
  fun _ h => nomatch h

theorem spends_client {clientId : Id} {clientType : EClientType} {f : Client → IamService β}
    (hf : ∀ msisdn, Spends op Q l (f ⟨clientId, msisdn, clientType⟩)) :
    Spends op Q l (getClientData clientId clientType >>= f) := by
  unfold getClientData
  simp only [bind_assoc]
  apply Outline.Follows.perform
  intro w _
  refine ⟨l, .aside trivial, ?_⟩
  simp only [iamHandle, Program.ofExcept_ok, Program.ret_bind]
  cases hc : w.findClient clientType clientId with
  | none => exact spends_throw _
  | some client =>
    obtain ⟨p, hp, hpc⟩ := Option.bind_eq_some_iff.mp hc
    have hid : p.id = clientId := Table.key_of_find hp
    by_cases ha : p.status = .active
    · rw [if_pos ha] at hpc
      cases hpc
      rw [hid]
      exact hf p.msisdn
    · rw [if_neg ha] at hpc
      cases hpc

/-- Calls aside before the rest of a program. -/
theorem spends_aside {c : IamCall} {f : c.Answer → IamService β} (hc : c.Aside)
    (hf : ∀ a, Spends op Q l (f a)) : Spends op Q l (iamCall c >>= f) := by
  apply Outline.Follows.perform
  intro w _
  refine ⟨l, .aside hc, ?_⟩
  cases (iamHandle c w).1 with
  | ok a => exact hf a
  | error e => exact spends_throw e

theorem spends_generateTokens {client : Client} (hl : l.makes = none)
    (hdone : Q { l with makes := none }) : Spends op Q l (generateTokens env client) := by
  unfold generateTokens
  refine spends_aside trivial fun accessTokenId => ?_
  apply Outline.Follows.perform
  intro w _
  refine ⟨{ l with makes := some ⟨.refreshToken client.role client.id, w.nextUuid⟩ }, .makeToken hl, ?_⟩
  simp only [iamHandle, Program.ofExcept_ok, Program.ret_bind]
  refine spends_aside trivial fun accessToken => spends_aside trivial fun refreshToken => ?_
  apply Outline.Follows.perform
  intro v _
  refine ⟨{ l with makes := none }, .put rfl, ?_⟩
  refine spends_aside trivial fun _ => ?_
  exact fun _ _ => hdone

theorem spends_getOtp {clientId : Id} {clientType : EClientType} {otpCode : String} :
    Spends (.getOtp clientId clientType otpCode) (fun _ => True) {} (getOtp env clientId clientType otpCode) := by
  unfold getOtp
  refine spends_client fun msisdn => ?_
  apply Outline.Follows.perform
  intro w _
  refine ⟨{ makes := some ⟨.otp msisdn, ⟨otpCode, w.nextSalt⟩⟩ }, .makeOtp rfl, ?_⟩
  simp only [iamHandle, Program.ofExcept_ok, Program.ret_bind]
  apply Outline.Follows.perform
  intro v _
  refine ⟨{}, .put rfl, ?_⟩
  refine spends_aside trivial fun _ => ?_
  split
  · exact fun _ _ => trivial
  · refine spends_aside trivial fun _ => ?_
    exact fun _ _ => trivial

theorem spends_verifyOtp {dto : VerifyOtpDto} :
    Spends (.verifyOtp dto) (AuthOp.verifyOtp dto).Done {} (verifyOtp env dto) := by
  unfold verifyOtp
  refine spends_client fun msisdn => ?_
  apply Outline.Follows.perform
  intro w _
  cases hh : w.cache (.otp msisdn) with
  | none =>
    refine ⟨{}, .miss rfl rfl, ?_⟩
    simp only [iamHandle, hh, Program.ofExcept_ok, Program.ret_bind]
    exact spends_throw _
  | some hashed =>
    refine ⟨{ seen := some ⟨.otp msisdn, hashed⟩ }, .read rfl rfl hh, ?_⟩
    simp only [iamHandle, hh, Program.ofExcept_ok, Program.ret_bind, ↓Program.throw_seq]
    split
    · exact spends_throw _
    · apply Outline.Follows.perform
      intro v _
      refine ⟨{ used := some ⟨.otp msisdn, hashed⟩ }, .consume rfl rfl, ?_⟩
      exact spends_generateTokens rfl ⟨msisdn, hashed, rfl⟩

/-- The checks of a presented token, before the rest of its operation. -/
theorem spends_validated {token : Jwt} {f : Client → Bool → IamService β}
    (hp : op.presents = some token) (hc : ∀ role id, op.consumes (.refreshToken role id) = true)
    (hvalid : ∀ msisdn l, l.makes = none → l.Redeemed token →
      Spends op Q l (f ⟨token.sub, msisdn, token.role⟩ true))
    (hinvalid : ∀ client l, Spends op Q l (f client false)) :
    Spends op Q {} (do
      let (client, refreshTokenId) ← getClientAndTokenIdInfo token
      let isValidRefreshToken ← validateRefreshToken client refreshTokenId
      f client isValidRefreshToken) := by
  unfold getClientAndTokenIdInfo
  simp only [bind_assoc]
  apply Outline.Follows.perform
  intro w _
  by_cases hv : token ∈ w.signed ∧ w.now < token.exp
  · refine ⟨{ verified := true }, .verify hp hv.1, ?_⟩
    have hok : (iamHandle (.verifyToken token) w).1 = .ok token := by
      simp [iamHandle, IamWorld.verifyToken, hv]
    rw [hok]
    simp only [Program.ofExcept_ok, Program.ret_bind]
    refine spends_client fun msisdn => ?_
    unfold validateRefreshToken
    simp only [pure_bind, bind_assoc]
    apply Outline.Follows.perform
    intro v _
    simp only [iamHandle, Program.ofExcept_ok, Program.ret_bind]
    by_cases he : v.cache (.refreshToken token.role token.sub) = token.refreshTokenId
    · simp only [he, if_true]
      cases ht : token.refreshTokenId with
      | none =>
        refine ⟨{ verified := true, stray := true }, .undefined hp ht (he.trans ht), ?_⟩
        simp only [bind_assoc]
        apply Outline.Follows.perform
        intro x _
        refine ⟨{ verified := true, stray := true }, .astray rfl, ?_⟩
        exact hvalid msisdn _ rfl (.inl rfl)
      | some u =>
        refine ⟨{ verified := true, seen := some ⟨.refreshToken token.role token.sub, u⟩ },
          .read rfl rfl (he.trans ht), ?_⟩
        simp only [bind_assoc]
        apply Outline.Follows.perform
        intro x _
        refine ⟨{ verified := true, used := some ⟨.refreshToken token.role token.sub, u⟩ },
          .consume rfl (hc _ _), ?_⟩
        exact hvalid msisdn _ rfl (.inr ⟨rfl, u, ht, rfl⟩)
    · refine ⟨{ verified := true }, .miss rfl rfl, ?_⟩
      simp only [he, if_false, pure_bind]
      exact hinvalid _ _
  · refine ⟨{}, .aside trivial, ?_⟩
    have herr : ∃ e, (iamHandle (.verifyToken token) w).1 = .error e := by
      simp only [iamHandle, IamWorld.verifyToken]
      by_cases hs : token ∈ w.signed
      · have hn : ¬ w.now < token.exp := fun hn => hv ⟨hs, hn⟩
        exact ⟨_, by rw [if_pos hs, if_neg hn]⟩
      · exact ⟨_, if_neg hs⟩
    obtain ⟨e, he⟩ := herr
    rw [he]
    exact spends_throw e

theorem spends_logout {token : Jwt} :
    Spends (.logout token) (AuthOp.logout token).Done {} (logout token) := by
  unfold logout
  have hc (role : EClientType) (id : Id) :
      (AuthOp.logout token).consumes (.refreshToken role id) = true := rfl
  refine spends_validated (f := fun client isValidRefreshToken =>
    if isValidRefreshToken then do
      iamCall (.cacheDel (.accessToken client.role client.id))
      return "successfully logout"
    else throw (.badRequest "error validating refresh token")) rfl hc (fun msisdn l _ hl => ?_) ?_
  · simp only [if_true]
    refine spends_aside trivial fun _ => ?_
    exact fun _ _ => hl
  · exact fun _ _ => spends_throw _

theorem spends_getRefreshToken {token : Jwt} :
    Spends (.getRefreshToken token) (AuthOp.getRefreshToken token).Done {} (getRefreshToken env token) := by
  unfold getRefreshToken
  have hc (role : EClientType) (id : Id) :
      (AuthOp.getRefreshToken token).consumes (.refreshToken role id) = true := rfl
  have hbody : Spends (.getRefreshToken token) (fun l => l.makes = none ∧ l.Redeemed token) {} (do
      let (client, refreshTokenId) ← getClientAndTokenIdInfo token
      let isValidRefreshToken ← validateRefreshToken client refreshTokenId
      if ¬ isValidRefreshToken then
        throw (.badRequest "error validating refresh token")
      return client : IamService Client) := by
    refine spends_validated (f := fun client isValidRefreshToken => do
      if ¬ isValidRefreshToken then
        throw (.badRequest "error validating refresh token")
      return client) rfl hc (fun msisdn l hm hl => ?_) ?_
    · exact fun _ _ => ⟨hm, hl⟩
    · exact fun _ _ => spends_throw _
  have hcaught := hbody.catching (fun l a ha => ha)
    (g := fun _ => throw (.unauthorized "Unauthoried refreshtoken")) fun l e _ => spends_throw _
  refine hcaught.bind (fun l client hl => ?_) fun l e _ _ h => nomatch h
  obtain ⟨hm, hr⟩ := hl client rfl
  exact spends_generateTokens hm hr

theorem AuthOp.spends (env : IamEnvironment) (op : AuthOp) :
    Spends op op.Done {} (op.program env) := by
  have discard {α : Type} {p : IamService α} (hp : Spends op op.Done {} p) :
      Spends op op.Done {} (p >>= fun _ => pure ()) :=
    hp.bind (fun l a ha _ _ => ha a rfl) fun _ _ _ _ h => nomatch h
  cases op with
  | getOtp => exact discard spends_getOtp
  | verifyOtp => exact discard spends_verifyOtp
  | getRefreshToken => exact discard spends_getRefreshToken
  | logout => exact discard spends_logout
  | expire key => exact fun _ _ => ⟨{}, .expire rfl, fun _ _ => trivial⟩

end Spends

end NebLite
