import NebLite.Gateway.RideIsolation
import NebLite.Iam.Sessions
import NebLite.Atomic.Attempt

/-! The two guards in front of every endpoint of the gateway, and which requests they let
reach a handler. -/

namespace NebLite

open Atomic

inductive EAuthType where
  | bearer
  | none
  deriving DecidableEq, Repr

/-- What a request ends with when its handler does not return. -/
inductive GatewayError where
  | thrown (e : ServiceError)
  | forbidden (message : String)
  deriving DecidableEq

/-- A text is decoded to the token that it spells, if it spells one. -/
structure GatewayEnvironment where
  iam : IamEnvironment
  app : Environment
  decodeToken : String → Option Jwt

/-- `authorization?.split(' ') ?? []`, of which the second word is taken. -/
def extractTokenFromHeader (authorization : Option String) : Option String :=
  authorization.bind fun header => (header.toList.splitOn ' ')[1]?.map String.ofList

section Guards

variable (decodeToken : String → Option Jwt) (authorization : Option String)

/-- `AccessTokenGuard.canActivate` on the header. A text that spells no token does not verify. -/
def accessTokenGuard : IamService RequestClient :=
  match extractTokenFromHeader authorization with
  | none => canActivate none
  | some text =>
    if text.isEmpty then
      canActivate none
    else
      match decodeToken text with
      | none => throw (.unauthorized "Authorization failed")
      | some token => canActivate (some token)

/-- The guard of an authentication type, and the client that it attaches to the request. -/
def authTypeGuard : EAuthType → IamService (Option RequestClient)
  | .bearer => some <$> accessTokenGuard decodeToken authorization
  | .none => pure none

/-- The loop over the guards keeps the error of the last one. -/
def tryGuards : List EAuthType → ServiceError → IamService (Option RequestClient)
  | [], error => throw error
  | authType :: authTypes, _ => do
    match ← (authTypeGuard decodeToken authorization authType).attempt with
    | .ok client => return client
    | .error err => tryGuards authTypes err

/-- `AuthenticationGuard.canActivate`; without the decorator the type is Bearer. -/
def authenticationGuard (authTypes : Option (List EAuthType)) : IamService (Option RequestClient) :=
  tryGuards decodeToken authorization (authTypes.getD [.bearer]) (.unauthorized "Unauthorized")

end Guards

/-- `AccessRoleGuard.canActivate`. -/
def accessRoleGuard : Option (List EClientType) → Option RequestClient → Except ServiceError Bool
  | none, _ => .ok true
  | some [], _ => .ok false
  | some _, none => .error (.error "Cannot read properties of undefined (reading 'role')")
  | some contextRoles, some client => .ok (contextRoles.any fun role => client.role == role)

inductive Endpoint where
  | signupRider
  | signupDriver
  | getOtp
  | simulateGetOtp
  | verifyOtp
  | getRefreshToken
  | logout
  | upsertDriverLocation
  | getNearbyDrivers
  | streamNotifications
  | createRide
  | ride (e : RideEndpoint)
  | handlePaymentNotification

namespace Endpoint

/-- The `@Auth` of the endpoint. -/
def authTypes : Endpoint → Option (List EAuthType)
  | signupRider | signupDriver | getOtp | simulateGetOtp | verifyOtp | getRefreshToken | logout
  | handlePaymentNotification => some [.none]
  | upsertDriverLocation | getNearbyDrivers => none
  | streamNotifications | createRide | ride _ => some [.bearer]

/-- The `@Roles` of the endpoint. -/
def roles : Endpoint → Option (List EClientType)
  | upsertDriverLocation => some [.driver]
  | getNearbyDrivers | createRide => some [.rider]
  | ride e => e.roles
  | _ => none

/-- Anyone may call the endpoint. -/
def Public : Endpoint → Prop
  | signupRider | signupDriver | getOtp | simulateGetOtp | verifyOtp | getRefreshToken | logout
  | handlePaymentNotification => True
  | _ => False

end Endpoint

/-- The guards in the order in which the module provides them. -/
def guards (genv : GatewayEnvironment) (authorization : Option String) (e : Endpoint) (w : IamWorld) :
    Except GatewayError (Option RequestClient) × IamWorld :=
  match (authenticationGuard genv.decodeToken authorization e.authTypes).run iamHandle w with
  | (.error err, w') => (.error (.thrown err), w')
  | (.ok client, w') =>
    match accessRoleGuard e.roles client with
    | .error err => (.error (.thrown err), w')
    | .ok true => (.ok client, w')
    | .ok false => (.error (.forbidden "Forbidden resource"), w')

/-- The second word of the header spells a token that the guard accepts. -/
structure IamWorld.Presents (w : IamWorld) (decodeToken : String → Option Jwt) (authorization : Option String)
    (token : Jwt) : Prop where
  spelled : ∃ text, extractTokenFromHeader authorization = some text ∧ text ≠ "" ∧ decodeToken text = some token
  accepted : w.Accepts token

section Authentication

variable {decodeToken : String → Option Jwt} {authorization : Option String} {w : IamWorld}

theorem canActivate_none (w : IamWorld) : (canActivate none).run iamHandle w =
    (.error (.unauthorized "Authorization token not found"), w) := rfl

/-- What the guard decides about a token, which leaves the store as it is. -/
theorem canActivate_run (token : Jwt) (w : IamWorld) :
    (∃ client, w.findClient token.role token.sub = some client ∧ w.Accepts token ∧
      (canActivate (some token)).run iamHandle w = (.ok ⟨token.sub, token.role, client.msisdn⟩, w)) ∨
    (¬ w.Accepts token ∧
      (canActivate (some token)).run iamHandle w = (.error (.unauthorized "Authorization failed"), w)) := by
  have hfails (he : (canActivate (some token)).run iamHandle w =
      (.error (.unauthorized "Authorization failed"), w)) : ¬ w.Accepts token := by
    rintro ⟨client, hc⟩
    rw [he] at hc
    cases hc
  have hdecides : (∃ client, w.findClient token.role token.sub = some client ∧
      (canActivate (some token)).run iamHandle w = (.ok ⟨token.sub, token.role, client.msisdn⟩, w)) ∨
      (canActivate (some token)).run iamHandle w = (.error (.unauthorized "Authorization failed"), w) := by
    unfold canActivate
    simp only [Program.run_catching]
    by_cases hv : token ∈ w.signed ∧ w.now < token.exp
    · rw [run_verified w hv.1 hv.2]
      cases hc : w.findClient token.role token.sub with
      | none => exact .inr (by rw [run_noClient w hc]; rfl)
      | some client =>
        rw [run_client w hc, run_cacheGet]
        by_cases hcached : w.cache (.accessToken token.role token.sub) = token.accessTokenId
        · left
          refine ⟨client, rfl, ?_⟩
          rw [if_neg (not_not.mpr hcached)]
          rfl
        · right
          rw [if_pos hcached]
          rfl
    · right
      obtain ⟨e, he⟩ := run_unverified (β := RequestClient) w hv fun payload => do
        let client ← getClientData payload.sub payload.role
        let cachedAccessTokenId ← iamCall (.cacheGet (.accessToken payload.role payload.sub))
        if cachedAccessTokenId ≠ payload.accessTokenId then
          throw (.unauthorized "Unauthorized, already logged-out")
        return ⟨payload.sub, payload.role, client.msisdn⟩
      rw [he]
      rfl
  obtain ⟨client, hc, hrun⟩ | hrun := hdecides
  · have haccepts : w.Accepts token := ⟨_, congrArg Prod.fst hrun⟩
    exact .inl ⟨client, hc, haccepts, hrun⟩
  · exact .inr ⟨hfails hrun, hrun⟩

/-- What the guard makes of the header of a request. -/
theorem accessTokenGuard_run (decodeToken : String → Option Jwt) (authorization : Option String) (w : IamWorld) :
    (∃ token client, w.Presents decodeToken authorization token ∧
      w.findClient token.role token.sub = some client ∧
      (accessTokenGuard decodeToken authorization).run iamHandle w =
        (.ok ⟨token.sub, token.role, client.msisdn⟩, w)) ∨
    (extractTokenFromHeader authorization = none ∨ extractTokenFromHeader authorization = some "") ∧
      (accessTokenGuard decodeToken authorization).run iamHandle w =
        (.error (.unauthorized "Authorization token not found"), w) ∨
    (∃ text, extractTokenFromHeader authorization = some text ∧ text ≠ "" ∧
      ∀ token, decodeToken text = some token → ¬ w.Accepts token) ∧
      (accessTokenGuard decodeToken authorization).run iamHandle w =
        (.error (.unauthorized "Authorization failed"), w) := by
  unfold accessTokenGuard
  cases ht : extractTokenFromHeader authorization with
  | none => exact .inr (.inl ⟨.inl rfl, rfl⟩)
  | some text =>
    simp only
    by_cases hempty : text = ""
    · subst hempty
      exact .inr (.inl ⟨.inr rfl, rfl⟩)
    have hne : ¬ text.isEmpty = true := by simpa using hempty
    rw [if_neg hne]
    cases hd : decodeToken text with
    | none =>
      refine .inr (.inr ⟨⟨text, rfl, hempty, fun token h => ?_⟩, rfl⟩)
      rw [hd] at h
      cases h
    | some token =>
      obtain ⟨client, hc, haccepts, hrun⟩ | ⟨hno, hrun⟩ := canActivate_run token w
      · exact .inl ⟨token, client, ⟨⟨text, ht, hempty, hd⟩, haccepts⟩, hc, hrun⟩
      · refine .inr (.inr ⟨⟨text, rfl, hempty, fun t h => ?_⟩, hrun⟩)
        rw [hd] at h
        cases h
        exact hno

theorem IamWorld.Presents.unique {token token' : Jwt} (h : w.Presents decodeToken authorization token)
    (h' : w.Presents decodeToken authorization token') : token = token' := by
  obtain ⟨text, ht, -, hd⟩ := h.spelled
  obtain ⟨text', ht', -, hd'⟩ := h'.spelled
  obtain rfl : text = text' := Option.some.inj (ht.symm.trans ht')
  exact Option.some.inj (hd.symm.trans hd')

theorem authenticationGuard_none (decodeToken : String → Option Jwt) (authorization : Option String) (w : IamWorld) :
    (authenticationGuard decodeToken authorization (some [.none])).run iamHandle w = (.ok none, w) := rfl

/-- With the one type Bearer the outcome is that of the access token guard. -/
theorem authenticationGuard_bearer (decodeToken : String → Option Jwt) (authorization : Option String) (w : IamWorld) :
    (authenticationGuard decodeToken authorization (some [.bearer])).run iamHandle w =
      (some <$> accessTokenGuard decodeToken authorization).run iamHandle w := by
  change ((some <$> accessTokenGuard decodeToken authorization).attempt >>= _).run iamHandle w = _
  rw [Program.run_bind_ok _ (Program.run_attempt _ w)]
  rcases (some <$> accessTokenGuard decodeToken authorization).run iamHandle w with ⟨_ | _, v⟩ <;> rfl

end Authentication

/-- What the guards make of a request to the endpoint. -/
inductive Admission (genv : GatewayEnvironment) (authorization : Option String) (e : Endpoint) (w : IamWorld) :
    Except GatewayError (Option RequestClient) → Prop where
  | opened (hopen : e.Public) : Admission genv authorization e w (.ok none)
  | admitted {token : Jwt} {client : Client} (hclosed : ¬ e.Public)
    (hp : w.Presents genv.decodeToken authorization token)
    (hc : w.findClient token.role token.sub = some client) (hr : ∀ rs ∈ e.roles, token.role ∈ rs) :
    Admission genv authorization e w (.ok (some ⟨token.sub, token.role, client.msisdn⟩))
  | barred {token : Jwt} (hclosed : ¬ e.Public) (hp : w.Presents genv.decodeToken authorization token)
    (hr : ¬ ∀ rs ∈ e.roles, token.role ∈ rs) :
    Admission genv authorization e w (.error (.forbidden "Forbidden resource"))
  | bare (hclosed : ¬ e.Public)
    (ht : extractTokenFromHeader authorization = none ∨ extractTokenFromHeader authorization = some "") :
    Admission genv authorization e w (.error (.thrown (.unauthorized "Authorization token not found")))
  | refused {text : String} (hclosed : ¬ e.Public) (ht : extractTokenFromHeader authorization = some text)
    (hne : text ≠ "") (hno : ∀ token, genv.decodeToken text = some token → ¬ w.Accepts token) :
    Admission genv authorization e w (.error (.thrown (.unauthorized "Authorization failed")))

section Admission

variable {genv : GatewayEnvironment} {authorization : Option String} {e : Endpoint} {w : IamWorld}
  {v v' : Except GatewayError (Option RequestClient)}

theorem authTypes_public (h : e.Public) : e.authTypes = some [.none] ∧ e.roles = none := by
  cases e <;> first | exact ⟨rfl, rfl⟩ | exact h.elim

theorem authTypes_closed (h : ¬ e.Public) : e.authTypes.getD [.bearer] = [.bearer] := by
  cases e <;> first | rfl | exact absurd trivial h

theorem accessRoleGuard_some (roles : Option (List EClientType)) (client : RequestClient) :
    accessRoleGuard roles (some client) = .ok (decide (∀ rs ∈ roles, client.role ∈ rs)) := by
  cases roles with
  | none => simp [accessRoleGuard]
  | some rs =>
    have hmem : decide (∀ l ∈ some rs, client.role ∈ l) = decide (client.role ∈ rs) := by simp
    rw [hmem]
    cases rs with
    | nil => rfl
    | cons r rs =>
      have hany : ((r :: rs).any fun role => client.role == role) = decide (client.role ∈ r :: rs) := by
        rw [List.any_beq, List.contains_eq_mem]
      exact congrArg Except.ok hany

/-- A token that is presented meets neither complaint about the header. -/
theorem IamWorld.Presents.header {token : Jwt} (h : w.Presents genv.decodeToken authorization token) :
    ¬ (extractTokenFromHeader authorization = none ∨ extractTokenFromHeader authorization = some "") ∧
      ∀ text, extractTokenFromHeader authorization = some text →
        ¬ ∀ t, genv.decodeToken text = some t → ¬ w.Accepts t := by
  obtain ⟨text, ht, hne, hd⟩ := h.spelled
  constructor
  · rintro (hnone | hempty)
    · rw [ht] at hnone
      cases hnone
    · rw [ht, Option.some.injEq] at hempty
      exact hne hempty
  · intro text' ht' hno
    obtain rfl : text = text' := Option.some.inj (ht.symm.trans ht')
    exact hno token hd h.accepted

theorem guards_admission (genv : GatewayEnvironment) (authorization : Option String) (e : Endpoint) (w : IamWorld) :
    Admission genv authorization e w (guards genv authorization e w).1 ∧ (guards genv authorization e w).2 = w := by
  unfold guards
  by_cases hopen : e.Public
  · obtain ⟨htypes, hroles⟩ := authTypes_public hopen
    rw [htypes, hroles, authenticationGuard_none]
    exact ⟨.opened hopen, rfl⟩
  have hbearer : (authenticationGuard genv.decodeToken authorization e.authTypes).run iamHandle w =
      (some <$> accessTokenGuard genv.decodeToken authorization).run iamHandle w := by
    rw [← authenticationGuard_bearer]
    unfold authenticationGuard
    rw [authTypes_closed hopen]
    rfl
  rw [hbearer, map_eq_pure_bind]
  obtain ⟨token, client, hp, hc, hrun⟩ | ⟨ht, hrun⟩ | ⟨⟨text, ht, hne, hno⟩, hrun⟩ :=
    accessTokenGuard_run genv.decodeToken authorization w
  · rw [Program.run_bind_ok _ hrun]
    simp only [Program.run_pure, accessRoleGuard_some]
    by_cases hr : ∀ rs ∈ e.roles, token.role ∈ rs
    · rw [decide_eq_true hr]
      exact ⟨.admitted hopen hp hc hr, rfl⟩
    · rw [decide_eq_false hr]
      exact ⟨.barred hopen hp hr, rfl⟩
  · rw [Program.run_bind_error _ hrun]
    exact ⟨.bare hopen ht, rfl⟩
  · rw [Program.run_bind_error _ hrun]
    exact ⟨.refused hopen ht hne hno, rfl⟩

theorem Admission.unique (h : Admission genv authorization e w v) (h' : Admission genv authorization e w v') :
    v = v' := by
  cases h with
  | opened hopen =>
    cases h' with
    | opened => rfl
    | admitted hclosed | barred hclosed | bare hclosed | refused hclosed => exact absurd hopen hclosed
  | admitted hclosed hp hc hr =>
    cases h' with
    | opened hopen => exact absurd hopen hclosed
    | admitted _ hp' hc' =>
      obtain rfl := hp.unique hp'
      obtain rfl := Option.some.inj (hc.symm.trans hc')
      rfl
    | barred _ hp' hr' =>
      obtain rfl := hp.unique hp'
      exact absurd hr hr'
    | bare _ ht => exact absurd ht hp.header.1
    | refused _ ht _ hno => exact absurd hno (hp.header.2 _ ht)
  | barred hclosed hp hr =>
    cases h' with
    | opened hopen => exact absurd hopen hclosed
    | admitted _ hp' _ hr' =>
      obtain rfl := hp.unique hp'
      exact absurd hr' hr
    | barred => rfl
    | bare _ ht => exact absurd ht hp.header.1
    | refused _ ht _ hno => exact absurd hno (hp.header.2 _ ht)
  | bare hclosed ht =>
    cases h' with
    | opened hopen => exact absurd hopen hclosed
    | admitted _ hp | barred _ hp => exact absurd ht hp.header.1
    | bare => rfl
    | refused _ ht' hne =>
      rcases ht with ht | ht <;> rw [ht] at ht'
      · cases ht'
      · exact absurd (Option.some.inj ht').symm hne
  | refused hclosed ht hne hno =>
    cases h' with
    | opened hopen => exact absurd hopen hclosed
    | admitted _ hp | barred _ hp => exact absurd hno (hp.header.2 _ ht)
    | bare _ ht' =>
      rcases ht' with ht' | ht' <;> rw [ht'] at ht
      · cases ht
      · exact absurd (Option.some.inj ht).symm hne
    | refused => rfl

end Admission

end NebLite
