import NebLite.Iam.Authentication
import NebLite.Atomic.Runs

/-! Sessions over sequential runs of the identity service: which access token
the guard should accept, and which tokens it does accept. -/

namespace NebLite

open Atomic

/-- The operations of a sequential run; a cache entry expires, or time passes. -/
inductive SessionOp where
  | getOtp (clientId : Id) (clientType : EClientType) (otpCode : String)
  | verifyOtp (verifyOtpDto : VerifyOtpDto)
  | getRefreshToken (refreshToken : Jwt)
  | logout (refreshToken : Jwt)
  | expire (key : CacheKey)
  | tick (seconds : ℕ)

/-- For each client the access token of the latest issue that no logout has followed. -/
abbrev Sessions := EClientType → Id → Option Jwt

namespace Sessions

def set (s : Sessions) (role : EClientType) (id : Id) (token : Option Jwt) : Sessions :=
  fun r i => if r = role ∧ i = id then token else s r i

/-- The issue of tokens, when there was one. -/
def issued (s : Sessions) : Except ServiceError Tokens → Sessions
  | .ok tokens => s.set tokens.accessToken.role tokens.accessToken.sub (some tokens.accessToken)
  | .error _ => s

/-- The logout with a token, when it succeeded. -/
def loggedOut (s : Sessions) (token : Jwt) : Except ServiceError String → Sessions
  | .ok _ => s.set token.role token.sub none
  | .error _ => s

end Sessions

structure SessionState where
  world : IamWorld
  sessions : Sessions

def SessionOp.step (env : IamEnvironment) (s : SessionState) : SessionOp → SessionState
  | .getOtp clientId clientType otpCode =>
    { s with world := ((NebLite.getOtp env clientId clientType otpCode).run iamHandle s.world).2 }
  | .verifyOtp dto =>
    let (tokens, world) := (NebLite.verifyOtp env dto).run iamHandle s.world
    { world, sessions := s.sessions.issued tokens }
  | .getRefreshToken token =>
    let (tokens, world) := (NebLite.getRefreshToken env token).run iamHandle s.world
    { world, sessions := s.sessions.issued tokens }
  | .logout token =>
    let (done, world) := (NebLite.logout token).run iamHandle s.world
    { world, sessions := s.sessions.loggedOut token done }
  | .expire key => { s with world := { s.world with cache := Function.update s.world.cache key none } }
  | .tick seconds => { s with world := { s.world with now := s.world.now + seconds } }

/-- The guard lets a request with this token pass. -/
def IamWorld.Accepts (w : IamWorld) (token : Jwt) : Prop :=
  ∃ client, ((canActivate (some token)).run iamHandle w).1 = .ok client

def SessionState.start (profiles : EClientType → Table Profile) : SessionState :=
  ⟨.initial profiles, fun _ _ => none⟩

/-- The state after a run. -/
def SessionState.after (env : IamEnvironment) (s : SessionState) (ops : List SessionOp) : SessionState :=
  ops.foldl (SessionOp.step env) s

variable {env : IamEnvironment} {w : IamWorld}

section Run

variable {β : Type} (w : IamWorld)

@[simp] theorem run_findClient (t : EClientType) (id : Id) (f : (IamCall.findClient t id).Answer → IamService β) :
    (iamCall (.findClient t id) >>= f).run iamHandle w = (f (w.findClient t id)).run iamHandle w := rfl

@[simp] theorem run_cacheGet (key : CacheKey) (f : (IamCall.cacheGet key).Answer → IamService β) :
    (iamCall (.cacheGet key) >>= f).run iamHandle w = (f (w.cache key)).run iamHandle w := rfl

@[simp] theorem run_cacheSet (key : CacheKey) (value : key.Value) (ttl : ℕ)
    (f : (IamCall.cacheSet key value ttl).Answer → IamService β) :
    (iamCall (.cacheSet key value ttl) >>= f).run iamHandle w =
      (f ()).run iamHandle { w with cache := Function.update w.cache key (some value) } := rfl

@[simp] theorem run_cacheDel (key : CacheKey) (f : (IamCall.cacheDel key).Answer → IamService β) :
    (iamCall (.cacheDel key) >>= f).run iamHandle w =
      (f ()).run iamHandle { w with cache := Function.update w.cache key none } := rfl

theorem run_verified {token : Jwt} (hs : token ∈ w.signed) (hn : w.now < token.exp)
    (f : Jwt → IamService β) :
    (iamCall (.verifyToken token) >>= f).run iamHandle w = (f token).run iamHandle w := by
  change (Program.ofExcept (w.verifyToken token) >>= f).run iamHandle w = _
  rw [IamWorld.verifyToken, if_pos hs, if_pos hn]
  rfl

theorem run_unverified {token : Jwt} (h : ¬ (token ∈ w.signed ∧ w.now < token.exp))
    (f : Jwt → IamService β) :
    ∃ e, (iamCall (.verifyToken token) >>= f).run iamHandle w = (.error e, w) := by
  have hv : ∃ e, w.verifyToken token = .error e := by
    unfold IamWorld.verifyToken
    by_cases hs : token ∈ w.signed
    · have hn : ¬ w.now < token.exp := fun hn => h ⟨hs, hn⟩
      exact ⟨_, by rw [if_pos hs, if_neg hn]⟩
    · exact ⟨_, if_neg hs⟩
  obtain ⟨e, he⟩ := hv
  refine ⟨e, ?_⟩
  change (Program.ofExcept (w.verifyToken token) >>= f).run iamHandle w = _
  rw [he]
  rfl

theorem run_client {t : EClientType} {id : Id} {client : Client} (h : w.findClient t id = some client)
    (f : Client → IamService β) :
    (getClientData id t >>= f).run iamHandle w = (f client).run iamHandle w := by
  have hrun : (getClientData id t).run iamHandle w = (.ok client, w) := by
    unfold getClientData
    rw [run_findClient, h]
    rfl
  rw [Program.run_bind_ok _ hrun]

theorem run_noClient {t : EClientType} {id : Id} (h : w.findClient t id = none)
    (f : Client → IamService β) :
    (getClientData id t >>= f).run iamHandle w = (.error (.badRequest "client data not found"), w) := by
  have hrun : (getClientData id t).run iamHandle w =
      (.error (.badRequest "client data not found"), w) := by
    unfold getClientData
    rw [run_findClient, h]
    rfl
  rw [Program.run_bind_error _ hrun]

end Run

theorem findClient_some {t : EClientType} {id : Id} {client : Client}
    (h : w.findClient t id = some client) : client.role = t ∧ client.id = id := by
  obtain ⟨p, hp, hc⟩ := Option.bind_eq_some_iff.mp h
  have hid : p.id = id := Table.key_of_find hp
  by_cases ha : p.status = .active
  · rw [if_pos ha] at hc
    cases hc
    exact ⟨rfl, hid⟩
  · rw [if_neg ha] at hc
    cases hc

/-- Exactly when the guard accepts. -/
theorem accepts_iff {token : Jwt} : w.Accepts token ↔
    token ∈ w.signed ∧ w.now < token.exp ∧ (w.findClient token.role token.sub).isSome ∧
      w.cache (.accessToken token.role token.sub) = token.accessTokenId := by
  unfold IamWorld.Accepts canActivate
  simp only [Program.run_catching]
  by_cases hv : token ∈ w.signed ∧ w.now < token.exp
  · rw [run_verified w hv.1 hv.2]
    cases hc : w.findClient token.role token.sub with
    | none => simp [run_noClient w hc]
    | some client =>
      rw [run_client w hc, run_cacheGet]
      by_cases he : w.cache (.accessToken token.role token.sub) = token.accessTokenId
      · simp [he, hv]
      · simp [he, ↓Program.throw_seq]
  · obtain ⟨e, he⟩ := run_unverified (β := RequestClient) w hv fun payload => do
      let client ← getClientData payload.sub payload.role
      let cachedAccessTokenId ← iamCall (.cacheGet (.accessToken payload.role payload.sub))
      if cachedAccessTokenId ≠ payload.accessTokenId then
        throw (.unauthorized "Unauthorized, already logged-out")
      return ⟨payload.sub, payload.role, client.msisdn⟩
    rw [he]
    constructor
    · rintro ⟨client, hc⟩
      cases hc
    · rintro ⟨hs, hn, -⟩
      exact absurd ⟨hs, hn⟩ hv

/-- The tokens that are issued to a client, and the state with them. -/
def IamWorld.tokens (env : IamEnvironment) (w : IamWorld) (client : Client) : Tokens where
  accessToken := ⟨client.id, client.role, some w.nextUuid, none, w.now + env.accessTokenTtl⟩
  refreshToken := ⟨client.id, client.role, none, some (w.nextUuid + 1), w.now + env.refreshTokenTtl⟩

def IamWorld.issue (env : IamEnvironment) (w : IamWorld) (client : Client) : IamWorld :=
  { w with
    nextUuid := w.nextUuid + 2
    signed := (w.tokens env client).refreshToken :: (w.tokens env client).accessToken :: w.signed
    cache := Function.update
      (Function.update w.cache (.refreshToken client.role client.id) (some (w.nextUuid + 1)))
      (.accessToken client.role client.id) (some w.nextUuid) }

/-- A cache without one entry. -/
def IamWorld.drop (w : IamWorld) (key : CacheKey) : IamWorld :=
  { w with cache := Function.update w.cache key none }

theorem run_verifyOtp (env : IamEnvironment) (dto : VerifyOtpDto) (w : IamWorld) :
    (∃ e, (verifyOtp env dto).run iamHandle w = (.error e, w)) ∨
    ∃ client hashed, w.findClient dto.clientType dto.clientId = some client ∧
      w.cache (.otp client.msisdn) = some hashed ∧ hashed.compare dto.otpCode = true ∧
      (verifyOtp env dto).run iamHandle w =
        ((w.drop (.otp client.msisdn)).tokens env client |> .ok,
          (w.drop (.otp client.msisdn)).issue env client) := by
  unfold verifyOtp
  cases hc : w.findClient dto.clientType dto.clientId with
  | none => exact .inl ⟨_, run_noClient w hc _⟩
  | some client =>
    rw [run_client w hc, run_cacheGet]
    cases hh : w.cache (.otp client.msisdn) with
    | none => exact .inl ⟨_, rfl⟩
    | some hashed =>
      by_cases he : hashed.compare dto.otpCode = true
      · refine .inr ⟨client, hashed, rfl, hh, he, ?_⟩
        simp only [he, not_true_eq_false, if_false]
        rfl
      · refine .inl ⟨.unauthorized "invalid otp-code", ?_⟩
        simp [he, ↓Program.throw_seq]

/-- A presented token that passes the refresh check of one operation. -/
def IamWorld.Refreshes (w : IamWorld) (token : Jwt) (client : Client) : Prop :=
  (token ∈ w.signed ∧ w.now < token.exp) ∧ w.findClient token.role token.sub = some client ∧
    w.cache (.refreshToken client.role client.id) = token.refreshTokenId

/-- The checks that `getRefreshToken` and `logout` begin with. -/
theorem run_validated {β : Type} (token : Jwt) (w : IamWorld) (f : Client → Bool → IamService β) :
    (∃ client, w.Refreshes token client ∧ ((do
        let (client, refreshTokenId) ← getClientAndTokenIdInfo token
        let isValidRefreshToken ← validateRefreshToken client refreshTokenId
        f client isValidRefreshToken) : IamService β).run iamHandle w =
      (f client true).run iamHandle (w.drop (.refreshToken client.role client.id))) ∨
    (¬ (∃ client, w.Refreshes token client)) ∧ ((∃ e, ((do
        let (client, refreshTokenId) ← getClientAndTokenIdInfo token
        let isValidRefreshToken ← validateRefreshToken client refreshTokenId
        f client isValidRefreshToken) : IamService β).run iamHandle w = (.error e, w)) ∨
      ∃ client, ((do
        let (client, refreshTokenId) ← getClientAndTokenIdInfo token
        let isValidRefreshToken ← validateRefreshToken client refreshTokenId
        f client isValidRefreshToken) : IamService β).run iamHandle w = (f client false).run iamHandle w) := by
  unfold getClientAndTokenIdInfo
  simp only [bind_assoc]
  by_cases hv : token ∈ w.signed ∧ w.now < token.exp
  · rw [run_verified w hv.1 hv.2]
    cases hc : w.findClient token.role token.sub with
    | none =>
      refine .inr ⟨?_, .inl ⟨_, run_noClient w hc _⟩⟩
      rintro ⟨client, -, hclient, -⟩
      rw [hc] at hclient
      cases hclient
    | some client =>
      rw [run_client w hc]
      unfold validateRefreshToken
      simp only [pure_bind, bind_assoc]
      rw [run_cacheGet]
      by_cases he : w.cache (.refreshToken client.role client.id) = token.refreshTokenId
      · refine .inl ⟨client, ⟨hv, hc, he⟩, ?_⟩
        simp only [he, if_true, bind_assoc]
        rfl
      · refine .inr ⟨?_, .inr ⟨client, ?_⟩⟩
        · rintro ⟨client', -, hclient, hcache⟩
          rw [hc, Option.some.injEq] at hclient
          exact he (hclient ▸ hcache)
        · simp [he]
  · obtain ⟨e, he⟩ := run_unverified w hv fun payload => (getClientData payload.sub payload.role >>=
      fun client => pure (client, payload.refreshTokenId) >>= fun x =>
        validateRefreshToken x.1 x.2 >>= f x.1)
    refine .inr ⟨?_, .inl ⟨e, he⟩⟩
    rintro ⟨client, hvalid, -⟩
    exact hv hvalid

theorem run_getRefreshToken (env : IamEnvironment) (token : Jwt) (w : IamWorld) :
    (∃ client, w.Refreshes token client ∧ (getRefreshToken env token).run iamHandle w =
      (.ok ((w.drop (.refreshToken client.role client.id)).tokens env client),
        (w.drop (.refreshToken client.role client.id)).issue env client)) ∨
    (¬ ∃ client, w.Refreshes token client) ∧
      ∃ e, (getRefreshToken env token).run iamHandle w = (.error e, w) := by
  unfold getRefreshToken
  rw [Program.run_bind, Program.run_catching]
  obtain ⟨client, hr, hrun⟩ | ⟨hr, ⟨e, hrun⟩ | ⟨client, hrun⟩⟩ := run_validated token w
    fun client isValidRefreshToken => (do
      if ¬ isValidRefreshToken then
        throw (.badRequest "error validating refresh token")
      return client : IamService Client)
  · refine .inl ⟨client, hr, ?_⟩
    rw [hrun]
    rfl
  · refine .inr ⟨hr, .unauthorized "Unauthoried refreshtoken", ?_⟩
    rw [hrun]
    rfl
  · refine .inr ⟨hr, .unauthorized "Unauthoried refreshtoken", ?_⟩
    rw [hrun]
    rfl

theorem run_logout (token : Jwt) (w : IamWorld) :
    (∃ client, w.Refreshes token client ∧ (logout token).run iamHandle w =
      (.ok "successfully logout", (w.drop (.refreshToken client.role client.id)).drop
        (.accessToken client.role client.id))) ∨
    (¬ ∃ client, w.Refreshes token client) ∧ ∃ e, (logout token).run iamHandle w = (.error e, w) := by
  unfold logout
  obtain ⟨client, hr, hrun⟩ | ⟨hr, ⟨e, hrun⟩ | ⟨client, hrun⟩⟩ := run_validated token w
    fun client isValidRefreshToken => (do
      if isValidRefreshToken then
        iamCall (.cacheDel (.accessToken client.role client.id))
        return "successfully logout"
      else
        throw (.badRequest "error validating refresh token") : IamService String)
  · exact .inl ⟨client, hr, hrun⟩
  · exact .inr ⟨hr, _, hrun⟩
  · exact .inr ⟨hr, _, hrun⟩

theorem run_getOtp (env : IamEnvironment) (clientId : Id) (clientType : EClientType) (otpCode : String) (w : IamWorld) :
    ((getOtp env clientId clientType otpCode).run iamHandle w).2 = w ∨
    ∃ phone hashed, ((getOtp env clientId clientType otpCode).run iamHandle w).2 =
      { w with
        nextSalt := w.nextSalt + 1
        cache := Function.update w.cache (.otp phone) (some hashed) } := by
  unfold getOtp
  cases hc : w.findClient clientType clientId with
  | none => exact .inl (by rw [run_noClient w hc])
  | some client =>
    refine .inr ⟨client.msisdn, ⟨otpCode, w.nextSalt⟩, ?_⟩
    rw [run_client w hc]
    cases hs : env.skipSmsNotif with
    | true => rfl
    | false => rfl

/-- What the tokens, the cache and the sessions have to do with each other. -/
structure SessionState.Consistent (s : SessionState) : Prop where
  cached : ∀ role id u, s.world.cache (.accessToken role id) = some u →
    ∃ t ∈ s.world.signed, s.sessions role id = some t ∧ t.accessTokenId = some u
  fresh : ∀ t ∈ s.world.signed, ∀ u, t.accessTokenId = some u → u < s.world.nextUuid
  unique : ∀ t ∈ s.world.signed, ∀ t' ∈ s.world.signed, ∀ u,
    t.accessTokenId = some u → t'.accessTokenId = some u → t = t'

/-- A change that issues nothing and puts no access token into the cache. -/
def IamWorld.Lessens (w w' : IamWorld) : Prop :=
  w'.signed = w.signed ∧ w'.nextUuid = w.nextUuid ∧
    ∀ role id, w'.cache (.accessToken role id) = w.cache (.accessToken role id) ∨
      w'.cache (.accessToken role id) = none

theorem lessens_drop (w : IamWorld) (key : CacheKey) : w.Lessens (w.drop key) := by
  refine ⟨rfl, rfl, fun role id => ?_⟩
  by_cases hk : key = .accessToken role id
  · subst hk
    exact .inr (Function.update_self ..)
  · exact .inl (Function.update_of_ne (Ne.symm hk) ..)

theorem SessionState.Consistent.lessens {s : SessionState} {w' : IamWorld} (h : s.Consistent)
    (hw : s.world.Lessens w') : SessionState.Consistent ⟨w', s.sessions⟩ := by
  obtain ⟨hsigned, huuid, hcache⟩ := hw
  refine ⟨fun role id u hu => ?_, ?_, ?_⟩
  · rcases hcache role id with hc | hc
    · obtain ⟨t, ht, hst⟩ := h.cached role id u (hc ▸ hu)
      exact ⟨t, hsigned ▸ ht, hst⟩
    · rw [hc] at hu
      cases hu
  · rw [hsigned, huuid]
    exact h.fresh
  · rw [hsigned]
    exact h.unique

/-- The issue of tokens replaces the session of its client. -/
theorem SessionState.Consistent.issue {s : SessionState} (h : s.Consistent) (client : Client) :
    SessionState.Consistent
      ⟨s.world.issue env client, s.sessions.issued (.ok (s.world.tokens env client))⟩ := by
  have hmem (t : Jwt) (ht : t ∈ (s.world.issue env client).signed) (u : Uuid)
      (hu : t.accessTokenId = some u) : t = (s.world.tokens env client).accessToken ∧ u = s.world.nextUuid ∨
        t ∈ s.world.signed ∧ u < s.world.nextUuid := by
    rcases List.mem_cons.mp ht with rfl | ht
    · cases hu
    · rcases List.mem_cons.mp ht with rfl | ht
      · exact .inl ⟨rfl, (Option.some.inj hu).symm⟩
      · exact .inr ⟨ht, h.fresh t ht u hu⟩
  refine ⟨fun role id u hu => ?_, fun t ht u hu => ?_, fun t ht t' ht' u hu hu' => ?_⟩
  · by_cases hk : role = client.role ∧ id = client.id
    · obtain ⟨rfl, rfl⟩ := hk
      have hcached : (s.world.issue env client).cache (.accessToken client.role client.id) =
          some s.world.nextUuid := Function.update_self ..
      rw [hcached] at hu
      refine ⟨(s.world.tokens env client).accessToken, ?_, ?_, hu⟩
      · exact List.mem_cons_of_mem _ List.mem_cons_self
      · exact if_pos ⟨rfl, rfl⟩
    · have hne : CacheKey.accessToken role id ≠ .accessToken client.role client.id := by
        simpa using hk
      have hold : (s.world.issue env client).cache (.accessToken role id) =
          s.world.cache (.accessToken role id) := by
        refine (Function.update_of_ne hne ..).trans ?_
        exact Function.update_of_ne (by simp) ..
      rw [hold] at hu
      obtain ⟨t, ht, hst, htu⟩ := h.cached role id u hu
      refine ⟨t, List.mem_cons_of_mem _ (List.mem_cons_of_mem _ ht), ?_, htu⟩
      exact (if_neg hk).trans hst
  · have hlt : u < s.world.nextUuid + 2 := by
      rcases hmem t ht u hu with ⟨-, rfl⟩ | ⟨-, hlt⟩
      · exact Nat.lt_add_of_pos_right (by decide)
      · exact Nat.lt_add_right 2 hlt
    exact hlt
  · rcases hmem t ht u hu with ⟨rfl, he⟩ | ⟨hin, hlt⟩
    · rcases hmem t' ht' u hu' with ⟨rfl, -⟩ | ⟨-, hlt⟩
      · rfl
      · exact absurd he (Nat.ne_of_lt hlt)
    · rcases hmem t' ht' u hu' with ⟨-, he⟩ | ⟨hin', -⟩
      · exact absurd he (Nat.ne_of_lt hlt)
      · exact h.unique t hin t' hin' u hu hu'

theorem SessionState.Consistent.logout {s : SessionState} (h : s.Consistent) (role : EClientType)
    (id : Id) (hgone : s.world.cache (.accessToken role id) = none) :
    SessionState.Consistent ⟨s.world, s.sessions.set role id none⟩ := by
  refine ⟨fun r i u hu => ?_, h.fresh, h.unique⟩
  obtain ⟨t, ht, hst, htu⟩ := h.cached r i u hu
  have hne : ¬ (r = role ∧ i = id) := by
    rintro ⟨rfl, rfl⟩
    rw [hgone] at hu
    cases hu
  exact ⟨t, ht, (if_neg hne).trans hst, htu⟩

theorem SessionState.Consistent.step {s : SessionState} (h : s.Consistent) (op : SessionOp) :
    (op.step env s).Consistent := by
  cases op with
  | getOtp clientId clientType otpCode =>
    simp only [SessionOp.step]
    rcases run_getOtp env clientId clientType otpCode s.world with hw | ⟨phone, hashed, hw⟩
    · rw [hw]
      exact h
    · rw [hw]
      refine h.lessens ⟨rfl, rfl, fun role id => .inl ?_⟩
      have hne : CacheKey.accessToken role id ≠ .otp phone := by simp
      exact Function.update_of_ne hne (some hashed) s.world.cache
  | verifyOtp dto =>
    simp only [SessionOp.step]
    obtain ⟨e, hrun⟩ | ⟨client, hashed, -, -, -, hrun⟩ := run_verifyOtp env dto s.world
    · rw [hrun]
      exact h
    · rw [hrun]
      exact (h.lessens (lessens_drop s.world (.otp client.msisdn))).issue client
  | getRefreshToken token =>
    simp only [SessionOp.step]
    obtain ⟨client, -, hrun⟩ | ⟨-, e, hrun⟩ := run_getRefreshToken env token s.world
    · rw [hrun]
      exact (h.lessens (lessens_drop s.world (.refreshToken client.role client.id))).issue client
    · rw [hrun]
      exact h
  | logout token =>
    simp only [SessionOp.step]
    obtain ⟨client, hr, hrun⟩ | ⟨-, e, hrun⟩ := run_logout token s.world
    · rw [hrun]
      obtain ⟨hrole, hid⟩ := findClient_some hr.2.1
      have hdrop := h.lessens (lessens_drop s.world (.refreshToken client.role client.id))
      have hdrop' := hdrop.lessens (lessens_drop _ (.accessToken client.role client.id))
      have hgone : ((s.world.drop (.refreshToken client.role client.id)).drop
          (.accessToken client.role client.id)).cache (.accessToken token.role token.sub) = none := by
        rw [hrole, hid]
        exact Function.update_self ..
      exact hdrop'.logout token.role token.sub hgone
    · rw [hrun]
      exact h
  | expire key => exact h.lessens (lessens_drop s.world key)
  | tick seconds => exact h.lessens ⟨rfl, rfl, fun role id => .inl rfl⟩

theorem consistent_after (env : IamEnvironment) (profiles : EClientType → Table Profile) (ops : List SessionOp) :
    ((SessionState.start profiles).after env ops).Consistent := by
  have hstart : (SessionState.start profiles).Consistent := by
    refine ⟨fun _ _ _ hu => ?_, fun _ ht => ?_, fun _ ht => ?_⟩
    · cases hu
    · cases ht
    · cases ht
  exact Runs.invariant (fun s op h _ => h.step op) hstart (Runs.meets_true _ ops)

/-- The token is the access token of its client's session, and has not expired. -/
def SessionState.Current (s : SessionState) (token : Jwt) : Prop :=
  token.accessTokenId ≠ none ∧ s.sessions token.role token.sub = some token ∧ s.world.now < token.exp

/-- The guard accepts a signed token only as the current one, exactly when the token
is an access token or its client's access token is still in the cache (or the token
does not get as far as the comparison). -/
theorem accepts_current_iff (env : IamEnvironment) (profiles : EClientType → Table Profile)
    (ops : List SessionOp) (token : Jwt)
    (hsigned : token ∈ ((SessionState.start profiles).after env ops).world.signed) :
    (((SessionState.start profiles).after env ops).world.Accepts token →
      ((SessionState.start profiles).after env ops).Current token) ↔
    token.accessTokenId ≠ none ∨
      ((SessionState.start profiles).after env ops).world.cache
        (.accessToken token.role token.sub) ≠ none ∨
      ¬ ((SessionState.start profiles).after env ops).world.now < token.exp ∨
      ((SessionState.start profiles).after env ops).world.findClient token.role token.sub = none := by
  have hc := consistent_after env profiles ops
  generalize (SessionState.start profiles).after env ops = s at hsigned hc
  rw [accepts_iff]
  constructor
  · intro h
    by_contra hno
    simp only [not_or, not_not] at hno
    obtain ⟨haccess, hcache, hnow, hclient⟩ := hno
    have hcurrent := h ⟨hsigned, hnow, Option.isSome_iff_ne_none.mpr hclient, hcache.trans haccess.symm⟩
    exact hcurrent.1 haccess
  · rintro hok ⟨-, hnow, hclient, hcache⟩
    obtain ⟨u, hu⟩ : ∃ u, token.accessTokenId = some u := by
      rcases hok with haccess | hin | hexp | hgone
      · exact Option.ne_none_iff_exists'.mp haccess
      · exact Option.ne_none_iff_exists'.mp (hcache ▸ hin)
      · exact absurd hnow hexp
      · rw [hgone] at hclient
        cases hclient
    obtain ⟨t, ht, hst, htu⟩ := hc.cached token.role token.sub u (hcache.trans hu)
    obtain rfl := hc.unique t ht token hsigned u htu hu
    exact ⟨by simp [hu], hst, hnow⟩

/-- One active rider. -/
def oneRider : EClientType → Table Profile
  | .rider => Table.empty.insert (fun id => ⟨id, "+628111", .active⟩) fun _ => rfl
  | .driver => Table.empty

def hourly : IamEnvironment := ⟨300, 3600, 8640000, true⟩

/-- Rider 1 logs in. -/
def loggedIn : List SessionOp :=
  [.getOtp 1 .rider "123456", .verifyOtp ⟨1, "123456", .rider⟩]

def riderAccess : Jwt := ⟨1, .rider, some 0, none, 3600⟩

def riderRefresh : Jwt := ⟨1, .rider, none, some 1, 8640000⟩

theorem accepts_current_logged_in :
    ((SessionState.start oneRider).after hourly loggedIn).Current riderAccess :=
  (accepts_current_iff hourly oneRider loggedIn riderAccess (by decide +kernel)).mpr
    (.inl (by decide)) (accepts_iff.mpr (by decide +kernel))

/-- After the logout the guard accepts the refresh token. -/
theorem refresh_token_accepted :
    riderRefresh ∈ ((SessionState.start oneRider).after hourly
      (loggedIn ++ [.logout riderRefresh])).world.signed ∧
    ¬ (((SessionState.start oneRider).after hourly
        (loggedIn ++ [.logout riderRefresh])).world.Accepts riderRefresh →
      ((SessionState.start oneRider).after hourly
        (loggedIn ++ [.logout riderRefresh])).Current riderRefresh) := by
  refine ⟨by decide +kernel, fun h => ?_⟩
  have haccepted : ((SessionState.start oneRider).after hourly
      (loggedIn ++ [.logout riderRefresh])).world.Accepts riderRefresh :=
    accepts_iff.mpr (by decide +kernel)
  exact (h haccepted).1 rfl

end NebLite
