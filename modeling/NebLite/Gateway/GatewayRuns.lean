import NebLite.Gateway.Guards

/-! Runs of the whole gateway: requests behind the guards, the work of the payment queue, and
what happens to profiles, cache and clock. Each change of a ride goes back to somebody who
was entitled to it, and each token to a code that was sent to its owner's telephone. -/

namespace NebLite

open Atomic

/-- A request by what its handler reads of it; `getOtp` has the code that it draws. -/
inductive GatewayRequest where
  | getOtp (clientId : Id) (clientType : EClientType) (otpCode : String)
  | verifyOtp (verifyOtpDto : VerifyOtpDto)
  | getRefreshToken (refreshToken : String)
  | logout (refreshToken : String)
  | createRide (createRideDto : CreateRideInput)
  | ride (rideId : Id) (e : RideEndpoint)
  | handlePaymentNotification (payload : PaymentNotification) (source : Request)

def GatewayRequest.endpoint : GatewayRequest → Endpoint
  | getOtp .. => .getOtp
  | verifyOtp _ => .verifyOtp
  | getRefreshToken _ => .getRefreshToken
  | logout _ => .logout
  | createRide _ => .createRide
  | ride _ e => .ride e
  | handlePaymentNotification .. => .handlePaymentNotification

structure GatewayState where
  iam : IamWorld
  app : World

inductive RequestReply where
  | text (message : String)
  | tokens (tokens : Tokens)
  | created (ride : Ride) (candidates : List RideDriverCandidate)
  | ride (ride : Option Ride)
  | noted

namespace GatewayState

/-- A program of the identity service, and the reply made of its answer. -/
def identify {α : Type} (s : GatewayState) (p : IamService α) (reply : α → RequestReply) :
    Except ServiceError RequestReply × GatewayState :=
  let (r, iam) := p.run iamHandle s.iam
  (r.map reply, { s with iam })

/-- A program of the ride services, and the reply made of its answer. -/
def serve {α : Type} (env : Environment) (s : GatewayState) (p : Service α) (reply : α → RequestReply) :
    Except ServiceError RequestReply × GatewayState :=
  let (r, app) := p.run (handle env) s.app
  (r.map reply, { s with app })

end GatewayState

/-- `getClientId` of `getAuthenticatedClient`. -/
def authenticatedClient : Option RequestClient → Except ServiceError AuthenticatedClient
  | none => .error (.unauthorized "Client identifier not found in request")
  | some client => .ok ⟨client.sub, client.role⟩

section Handlers

variable (genv : GatewayEnvironment)

/-- The handlers of `GatewayController`. -/
def GatewayRequest.handler (client : Option RequestClient) (now : Time) (s : GatewayState) :
    GatewayRequest → Except ServiceError RequestReply × GatewayState
  | getOtp clientId clientType otpCode => s.identify (NebLite.getOtp genv.iam clientId clientType otpCode) .text
  | verifyOtp dto => s.identify (NebLite.verifyOtp genv.iam dto) .tokens
  | getRefreshToken refreshToken =>
    match genv.decodeToken refreshToken with
    | none => (.error (.unauthorized "Unauthoried refreshtoken"), s)
    | some token => s.identify (NebLite.getRefreshToken genv.iam token) .tokens
  | logout refreshToken =>
    match genv.decodeToken refreshToken with
    | none => (.error (.error "jwt malformed"), s)
    | some token => s.identify (NebLite.logout token) .text
  | createRide dto =>
    match authenticatedClient client with
    | .error e => (.error e, s)
    | .ok rider => s.serve genv.app (NebLite.createRide genv.app (some rider.id) dto now) fun r => .created r.1 r.2
  | ride rideId e =>
    match authenticatedClient client with
    | .error err => (.error err, s)
    | .ok caller => s.serve genv.app (e.program genv.app rideId caller now) .ride
  | handlePaymentNotification payload source =>
    s.serve genv.app (NebLite.handlePaymentNotification payload (extractClientIp source) now) fun _ => .noted

/-- A request passes the guards and then reaches its handler. -/
def GatewayRequest.serve (authorization : Option String) (now : Time) (s : GatewayState) (r : GatewayRequest) :
    Except GatewayError RequestReply × GatewayState :=
  match guards genv authorization r.endpoint s.iam with
  | (.error e, iam) => (.error e, { s with iam })
  | (.ok client, iam) =>
    match r.handler genv client now { s with iam } with
    | (.error e, s') => (.error (.thrown e), s')
    | (.ok reply, s') => (.ok reply, s')

/-- What happens around the gateway. -/
inductive GatewayStep where
  | request (authorization : Option String) (now : Time) (r : GatewayRequest)
  | processOutbox (outboxId : Id) (startedAt endedAt : Time)
  | profiles (stored : EClientType → Table Profile)
  | expire (key : CacheKey)
  | tick (seconds : ℕ)

def GatewayStep.step (s : GatewayState) : GatewayStep → GatewayState
  | request authorization now r => (r.serve genv authorization now s).2
  | processOutbox outboxId startedAt endedAt =>
    { s with app := (RideOp.processOutbox outboxId startedAt endedAt).step genv.app s.app }
  | profiles stored => { s with iam := { s.iam with profiles := stored } }
  | expire key => { s with iam := s.iam.drop key }
  | tick seconds => { s with iam := { s.iam with now := s.iam.now + seconds } }

def GatewayState.after (s : GatewayState) (steps : List GatewayStep) : GatewayState :=
  steps.foldl (GatewayStep.step genv) s

end Handlers

def GatewayState.start (stored : EClientType → Table Profile) (whitelist : List String) : GatewayState :=
  ⟨.initial stored, .initial whitelist⟩

section Endpoint

variable {env : Environment} {w : World} {rid k : Id} {client : AuthenticatedClient} {now : Time}

/-- The operation on rides that an endpoint comes to; a look-up is none. -/
def RideEndpoint.op (rid : Id) (client : AuthenticatedClient) (now : Time) : RideEndpoint → Option RideOp
  | getRide => none
  | cancelRide reason => some (.lifecycle (.cancelRide rid client.requester reason now))
  | acceptRideAsDriver => some (.lifecycle (.acceptRideByDriver rid client.id now))
  | rejectRideAsDriver reason => some (.lifecycle (.rejectRideByDriver rid client.id reason now))
  | confirmDriverAcceptance => some (.lifecycle (.confirmDriverAcceptance rid client.id now))
  | rejectDriverAcceptance reason => some (.lifecycle (.rejectDriverAcceptance rid client.id reason now))
  | startRide location => some (.lifecycle (.startRide rid (some client.id) location))
  | recordTripLocation location => some (.lifecycle (.recordTripLocation rid client.requester location))
  | completeRide location discount => some (.lifecycle (.completeRide rid client.requester location discount))
  | proceedRidePayment => some (.proceedRidePayment rid client.id)

/-- The store after a program does not depend on what is made of its answer. -/
theorem run_then_pure {α β : Type} (p : Service α) (f : α → β) (w : World) :
    ((p >>= fun a => pure (f a)).run (handle env) w).2 = (p.run (handle env) w).2 := by
  rw [Program.run_bind]
  rcases p.run (handle env) w with ⟨_ | _, v⟩ <;> rfl

theorem endpoint_step (e : RideEndpoint) (w : World) :
    ((e.program env rid client now).run (handle env) w).2 =
      ((e.op rid client now).map fun op => op.step env w).getD w := by
  cases e with
  | getRide => rw [RideEndpoint.program, run_some, getRideById_run]; rfl
  | recordTripLocation => exact run_then_pure _ (fun _ => none) w
  | proceedRidePayment =>
    exact (run_then_pure _ (fun x : Ride × Option FormattedPayment => some x.1) w).trans (run_then_pure _ (fun _ => ()) w).symm
  | _ => exact (run_some _ w).trans (run_then_pure _ (fun _ => ()) w).symm

/-- A ride that does not exist is left alone. -/
theorem endpoint_absent (h : w.rides.find rid = none) (e : RideEndpoint) :
    ((e.program env rid client now).run (handle env) w).2 = w := by
  have hread {α : Type} {f : Option Ride → Service α} (hf : ((f none).run (handle env) w).2 = w) :
      ((findById rid >>= f).run (handle env) w).2 = w := by
    rw [Program.run_bind_ok _ (run_findById env rid w), h]
    exact hf
  cases e with
  | getRide => rw [RideEndpoint.program, run_some, getRideById_run]
  | cancelRide => exact (run_some _ w).trans (hread rfl)
  | acceptRideAsDriver => exact (run_some _ w).trans (hread rfl)
  | rejectRideAsDriver => exact (run_some _ w).trans (hread rfl)
  | confirmDriverAcceptance => exact (run_some _ w).trans (hread rfl)
  | rejectDriverAcceptance => exact (run_some _ w).trans (hread rfl)
  | startRide => exact (run_some _ w).trans (hread rfl)
  | recordTripLocation => exact (run_then_pure _ (fun _ => none) w).trans (hread rfl)
  | completeRide => exact (run_some _ w).trans (hread rfl)
  | proceedRidePayment =>
    refine (run_then_pure _ (fun x : Ride × Option FormattedPayment => some x.1) w).trans ?_
    have hnone : w.findPaymentRide rid = none := by rw [World.findPaymentRide, h]; rfl
    unfold proceedRidePayment
    rw [Program.run_bind_ok _ (run_call env (.findPaymentRide rid) w)]
    rw [hnone]
    rfl

/-- The client is the rider of ride `k`, its driver, or one of the drivers invited to it. -/
def World.TakesPart (w : World) (k : Id) (client : AuthenticatedClient) : Prop :=
  ∃ r, w.rides.find k = some r ∧
    ((client.role = .rider ∧ r.riderId = client.id) ∨
      (client.role = .driver ∧ (r.driverId = some client.id ∨
        ∃ c ∈ w.candidates.rows, c.rideId = k ∧ c.driverId = client.id)))

theorem World.stranger_of_not {r : Ride} (hr : w.rides.find k = some r) (h : ¬ w.TakesPart k client) :
    w.Stranger r client := by
  have hid : r.id = k := Table.key_of_find hr
  refine ⟨fun hrole he => ?_, fun hrole he => ?_, fun hrole c hc hride he => ?_⟩
  · exact h ⟨r, hr, .inl ⟨hrole, he⟩⟩
  · exact h ⟨r, hr, .inr ⟨hrole, .inl he⟩⟩
  · exact h ⟨r, hr, .inr ⟨hrole, .inr ⟨c, hc, hride.trans hid, he⟩⟩⟩

/-- An endpoint changes its own ride alone, and that one only for those who take part in it. -/
theorem endpoint_changes (htied : w.Tied) {e : RideEndpoint} (he : e.Admits client)
    (h : ((e.program env rid client now).run (handle env) w).2.recordOf k ≠ w.recordOf k) :
    rid = k ∧ w.TakesPart k client := by
  have hown : rid = k := by
    by_contra hne
    apply h
    rw [endpoint_step]
    cases hop : e.op rid client now with
    | none => rfl
    | some op =>
      apply op.recordOf_step env htied
      have hride : op.ride w = some rid := by
        cases e <;> cases hop <;> rfl
      rw [hride]
      exact fun he => hne (Option.some.inj he)
  subst hown
  refine ⟨rfl, ?_⟩
  by_contra hno
  apply h
  cases hr : w.rides.find rid with
  | none => rw [endpoint_absent hr]
  | some r =>
    have hid : r.id = rid := Table.key_of_find hr
    subst hid
    obtain ⟨-, err, hrun⟩ | ⟨-, hrun⟩ := stranger_run env now hr (World.stranger_of_not hr hno) he
    · rw [hrun]
    · rw [hrun]

/-- Each operation, run to its end, leaves every outbox row with its payment detail. -/
theorem RideOp.tied_step (env : Environment) (htied : w.Tied) (op : RideOp) : (op.step env w).Tied := by
  have hstart : Trail.empty.Fits w ∧ w.Tied := ⟨Trail.fits_empty w, htied⟩
  have hrun : ∃ t, True ∧ Trail.Fits t (op.step env w) ∧ (op.step env w).Tied := by
    refine (op.tracks env).run_keeps (I := fun t v => t.Fits v ∧ v.Tied) (fun _ _ _ => trivial) ?_ hstart
    rintro t c v t' ⟨hf, ht⟩ ⟨rfl, htends⟩
    have hc : c.Identifies v := htends.identifies hf
    exact ⟨hf.reads (keeps_handle env hc) (Trail.reads env v t c), ht.handle env hc⟩
  obtain ⟨t, -, -, hend⟩ := hrun
  exact hend

theorem endpoint_tied (htied : w.Tied) (e : RideEndpoint) :
    ((e.program env rid client now).run (handle env) w).2.Tied := by
  rw [endpoint_step]
  cases e.op rid client now with
  | none => exact htied
  | some op => exact op.tied_step env htied

end Endpoint

section Identity

variable {genv : GatewayEnvironment} {s : GatewayState} {authorization : Option String} {now : Time}

theorem IamWorld.Presents.signed {decodeToken : String → Option Jwt} {w : IamWorld} {token : Jwt}
    (h : w.Presents decodeToken authorization token) : token ∈ w.signed := (accepts_iff.mp h.accepted).1

/-- What a step is to the identity service. -/
def GatewayStep.sessionOp (genv : GatewayEnvironment) : GatewayStep → Option SessionOp
  | request _ _ (.getOtp clientId clientType otpCode) => some (.getOtp clientId clientType otpCode)
  | request _ _ (.verifyOtp dto) => some (.verifyOtp dto)
  | request _ _ (.getRefreshToken text) => (genv.decodeToken text).map .getRefreshToken
  | request _ _ (.logout text) => (genv.decodeToken text).map .logout
  | expire key => some (.expire key)
  | tick seconds => some (.tick seconds)
  | _ => none

theorem guards_public {e : Endpoint} (h : e.Public) (authorization : Option String) (w : IamWorld) :
    guards genv authorization e w = (.ok none, w) := by
  obtain ⟨htypes, hroles⟩ := authTypes_public h
  unfold guards
  rw [htypes, hroles, authenticationGuard_none]
  rfl

/-- A request to an endpoint for anyone comes to its handler. -/
theorem serve_public (r : GatewayRequest) (h : r.endpoint.Public) :
    (r.serve genv authorization now s).2 = (r.handler genv none now s).2 := by
  unfold GatewayRequest.serve
  rw [guards_public h]
  simp only
  rcases r.handler genv none now s with ⟨_ | _, s'⟩ <;> rfl

/-- A request behind the guards is turned away, or it comes to its handler with the owner of
an accepted token. -/
theorem serve_closed (authorization : Option String) (r : GatewayRequest) (h : ¬ r.endpoint.Public) :
    (r.serve genv authorization now s).2 = s ∨
    ∃ token client, s.iam.Presents genv.decodeToken authorization token ∧
      (∀ rs ∈ r.endpoint.roles, token.role ∈ rs) ∧ client.sub = token.sub ∧ client.role = token.role ∧
      (r.serve genv authorization now s).2 = (r.handler genv (some client) now s).2 := by
  obtain ⟨hadmission, hkept⟩ := guards_admission genv authorization r.endpoint s.iam
  unfold GatewayRequest.serve
  rcases hg : guards genv authorization r.endpoint s.iam with ⟨v, iam⟩
  rw [hg] at hadmission hkept
  obtain rfl : iam = s.iam := hkept
  cases hadmission with
  | opened hopen => exact absurd hopen h
  | @admitted token client _ hp _ hr =>
    refine .inr ⟨token, ⟨token.sub, token.role, client.msisdn⟩, hp, hr, rfl, rfl, ?_⟩
    simp only
    split <;> next hrun => rw [hrun]
  | barred | bare | refused => exact .inl rfl

/-- The identity service sees of a run its own operations only, and what becomes of the profiles. -/
theorem step_iam (genv : GatewayEnvironment) (s : GatewayState) (sessions : Sessions) {st : GatewayStep} (hst : ∀ stored, st ≠ .profiles stored) :
    (st.step genv s).iam =
      ((st.sessionOp genv).map fun op => (op.step genv.iam ⟨s.iam, sessions⟩).world).getD s.iam := by
  cases st with
  | request authorization now r =>
    have hpublic (h : r.endpoint.Public) : (GatewayStep.step genv s (.request authorization now r)).iam =
        (r.handler genv none now s).2.iam := congrArg GatewayState.iam (serve_public r h)
    have hclosed (h : ¬ r.endpoint.Public) (hkept : ∀ client, (r.handler genv client now s).2.iam = s.iam) :
        (GatewayStep.step genv s (.request authorization now r)).iam = s.iam := by
      obtain hsame | ⟨token, client, -, -, -, -, hrun⟩ := serve_closed authorization r h
      · exact congrArg GatewayState.iam hsame
      · exact (congrArg GatewayState.iam hrun).trans (hkept _)
    cases r with
    | getOtp | verifyOtp => exact hpublic trivial
    | getRefreshToken text | logout text =>
      refine (hpublic trivial).trans ?_
      simp only [GatewayRequest.handler, GatewayStep.sessionOp]
      cases genv.decodeToken text <;> rfl
    | createRide | ride => exact hclosed id fun client => by cases client <;> rfl
    | handlePaymentNotification => exact hpublic trivial
  | profiles stored => exact absurd rfl (hst stored)
  | processOutbox | expire | tick => rfl

end Identity

section Stores

/-- What a step makes of the store of the ride services. -/
inductive AppStep (genv : GatewayEnvironment) (s : GatewayState) : GatewayStep → World → Prop where
  | none {st : GatewayStep} : AppStep genv s st s.app
  | creation {authorization : Option String} {now : Time} {dto : CreateRideInput} {token : Jwt}
    (hp : s.iam.Presents genv.decodeToken authorization token) (hrole : token.role = .rider) :
    AppStep genv s (.request authorization now (.createRide dto))
      ((RideOp.lifecycle (.createRide (some token.sub) dto now)).step genv.app s.app)
  | endpoint {authorization : Option String} {now : Time} {rid : Id} {e : RideEndpoint} {token : Jwt}
    (hp : s.iam.Presents genv.decodeToken authorization token) (hadmits : e.Admits ⟨token.sub, token.role⟩) :
    AppStep genv s (.request authorization now (.ride rid e))
      ((e.program genv.app rid ⟨token.sub, token.role⟩ now).run (handle genv.app) s.app).2
  | provider {authorization : Option String} {now : Time} {payload : PaymentNotification} {source : Request} :
    AppStep genv s (.request authorization now (.handlePaymentNotification payload source))
      ((RideOp.handlePaymentNotification payload (extractClientIp source) now).step genv.app s.app)
  | worker {outboxId : Id} {startedAt endedAt : Time} : AppStep genv s (.processOutbox outboxId startedAt endedAt)
      ((RideOp.processOutbox outboxId startedAt endedAt).step genv.app s.app)

theorem appStep (genv : GatewayEnvironment) (s : GatewayState) (st : GatewayStep) :
    AppStep genv s st (st.step genv s).app := by
  cases st with
  | request authorization now r =>
    have hpublic (hr : r.endpoint.Public) : (GatewayStep.step genv s (.request authorization now r)).app =
        (r.handler genv none now s).2.app := congrArg GatewayState.app (serve_public r hr)
    have hclosed (hr : ¬ r.endpoint.Public) : (GatewayStep.step genv s (.request authorization now r)).app = s.app ∨
        ∃ token client, s.iam.Presents genv.decodeToken authorization token ∧
          (∀ rs ∈ r.endpoint.roles, token.role ∈ rs) ∧ client.sub = token.sub ∧ client.role = token.role ∧
          (GatewayStep.step genv s (.request authorization now r)).app =
            (r.handler genv (some client) now s).2.app := by
      obtain hsame | ⟨token, client, hp, hr, hsub, hrole, hrun⟩ := serve_closed authorization r hr
      · exact .inl (congrArg GatewayState.app hsame)
      · exact .inr ⟨token, client, hp, hr, hsub, hrole, congrArg GatewayState.app hrun⟩
    cases r with
    | getOtp | verifyOtp =>
      rw [hpublic trivial]
      exact .none
    | getRefreshToken text | logout text =>
      rw [hpublic trivial]
      simp only [GatewayRequest.handler]
      cases genv.decodeToken text <;> exact .none
    | createRide dto =>
      obtain hsame | ⟨token, client, hp, hr, hsub, -, hrun⟩ := hclosed id
      · rw [hsame]
        exact .none
      · have hop : (GatewayStep.step genv s (.request authorization now (.createRide dto))).app =
            (RideOp.lifecycle (.createRide (some token.sub) dto now)).step genv.app s.app := by
          rw [hrun, ← hsub]
          exact (run_then_pure _ (fun _ => ()) s.app).symm
        rw [hop]
        exact .creation hp (List.mem_singleton.mp (hr _ rfl))
    | ride rid e =>
      obtain hsame | ⟨token, client, hp, hr, hsub, hrole, hrun⟩ := hclosed id
      · rw [hsame]
        exact .none
      · have hop : (GatewayStep.step genv s (.request authorization now (.ride rid e))).app =
            ((e.program genv.app rid ⟨token.sub, token.role⟩ now).run (handle genv.app) s.app).2 := by
          rw [hrun, ← hsub, ← hrole]
          rfl
        rw [hop]
        exact .endpoint hp hr
    | handlePaymentNotification payload source =>
      have hop : (GatewayStep.step genv s (.request authorization now (.handlePaymentNotification payload source))).app =
          (RideOp.handlePaymentNotification payload (extractClientIp source) now).step genv.app s.app := by
        rw [hpublic trivial]
        exact (run_then_pure _ (fun _ => ()) s.app).symm
      rw [hop]
      exact .provider
  | processOutbox => exact .worker
  | profiles | expire | tick => exact .none

end Stores

section Origins

variable {env : IamEnvironment} {w : IamWorld} {sessions : Sessions}

/-- A token that is issued goes to an owner of an older one, or to one who showed its code. -/
theorem signed_step (op : SessionOp) {t : Jwt} (ht : t ∈ (op.step env ⟨w, sessions⟩).world.signed) :
    (∃ t' ∈ w.signed, t'.role = t.role ∧ t'.sub = t.sub) ∨
    ∃ dto tokens client hashed, op = .verifyOtp dto ∧ dto.clientType = t.role ∧ dto.clientId = t.sub ∧
      ((verifyOtp env dto).run iamHandle w).1 = .ok tokens ∧
      w.findClient dto.clientType dto.clientId = some client ∧
      w.cache (.otp client.msisdn) = some hashed ∧ hashed.code = dto.otpCode := by
  have hold (h : t ∈ w.signed) : ∃ t' ∈ w.signed, t'.role = t.role ∧ t'.sub = t.sub := ⟨t, h, rfl, rfl⟩
  have hissued {v : IamWorld} {client : Client} (h : t ∈ (v.issue env client).signed) :
      t ∈ v.signed ∨ (t.role = client.role ∧ t.sub = client.id) := by
    rcases List.mem_cons.mp h with rfl | h
    · exact .inr ⟨rfl, rfl⟩
    rcases List.mem_cons.mp h with rfl | h
    · exact .inr ⟨rfl, rfl⟩
    · exact .inl h
  cases op with
  | getOtp clientId clientType otpCode =>
    left
    simp only [SessionOp.step] at ht
    rcases run_getOtp env clientId clientType otpCode w with hw | ⟨phone, hashed, hw⟩
    · rw [hw] at ht
      exact hold ht
    · rw [hw] at ht
      exact hold ht
  | verifyOtp dto =>
    simp only [SessionOp.step] at ht
    obtain ⟨e, hrun⟩ | ⟨client, hashed, hc, hh, hcode, hrun⟩ := run_verifyOtp env dto w
    · rw [hrun] at ht
      exact .inl (hold ht)
    · obtain ⟨hrole, hid⟩ := findClient_some hc
      have hran : ((verifyOtp env dto).run iamHandle w).1 = .ok ((w.drop (.otp client.msisdn)).tokens env client) := by
        rw [hrun]
      rw [hrun] at ht
      rcases hissued ht with h | ⟨hr, hs⟩
      · exact .inl (hold h)
      · exact .inr ⟨dto, _, client, hashed, rfl, hrole.symm.trans hr.symm, hid.symm.trans hs.symm, hran, hc, hh,
          by simpa [HashedOtp.compare] using hcode⟩
  | getRefreshToken token =>
    left
    simp only [SessionOp.step] at ht
    obtain ⟨client, ⟨hvalid, hc, -⟩, hrun⟩ | ⟨-, e, hrun⟩ := run_getRefreshToken env token w
    · obtain ⟨hrole, hid⟩ := findClient_some hc
      rw [hrun] at ht
      rcases hissued ht with h | ⟨hr, hs⟩
      · exact hold h
      · exact ⟨token, hvalid.1, hrole.symm.trans hr.symm, hid.symm.trans hs.symm⟩
    · rw [hrun] at ht
      exact hold ht
  | logout token =>
    left
    simp only [SessionOp.step] at ht
    obtain ⟨client, -, hrun⟩ | ⟨-, e, hrun⟩ := run_logout token w
    · rw [hrun] at ht
      exact hold ht
    · rw [hrun] at ht
      exact hold ht
  | expire | tick => exact .inl (hold ht)

/-- A code in the cache was there before, or it has been drawn for the telephone of a client. -/
theorem codes_step (op : SessionOp) {phone : String} {hashed : HashedOtp}
    (hh : (op.step env ⟨w, sessions⟩).world.cache (.otp phone) = some hashed) :
    w.cache (.otp phone) = some hashed ∨
    ∃ clientId clientType client, op = .getOtp clientId clientType hashed.code ∧
      w.findClient clientType clientId = some client ∧ client.msisdn = phone := by
  have hdropped {v : IamWorld} {key : CacheKey} (h : (v.drop key).cache (.otp phone) = some hashed) :
      v.cache (.otp phone) = some hashed := by
    by_cases hk : CacheKey.otp phone = key
    · subst hk
      have hnone : (v.drop (.otp phone)).cache (.otp phone) = none := Function.update_self ..
      rw [hnone] at h
      cases h
    · have hkept : (v.drop key).cache (.otp phone) = v.cache (.otp phone) := Function.update_of_ne hk ..
      exact hkept.symm.trans h
  have hissued {v : IamWorld} {client : Client} (h : (v.issue env client).cache (.otp phone) = some hashed) :
      v.cache (.otp phone) = some hashed := by
    have haccess : CacheKey.otp phone ≠ .accessToken client.role client.id := by simp
    have hrefresh : CacheKey.otp phone ≠ .refreshToken client.role client.id := by simp
    have hkept : (v.issue env client).cache (.otp phone) = v.cache (.otp phone) := by
      simp only [IamWorld.issue]
      rw [Function.update_of_ne haccess, Function.update_of_ne hrefresh]
    exact hkept.symm.trans h
  cases op with
  | getOtp clientId clientType otpCode =>
    simp only [SessionOp.step] at hh
    cases hc : w.findClient clientType clientId with
    | none =>
      unfold getOtp at hh
      rw [run_noClient w hc] at hh
      exact .inl hh
    | some client =>
      have hrun : ((getOtp env clientId clientType otpCode).run iamHandle w).2.cache =
          Function.update w.cache (.otp client.msisdn) (some ⟨otpCode, w.nextSalt⟩) := by
        unfold getOtp
        rw [run_client w hc]
        cases env.skipSmsNotif <;> rfl
      rw [hrun] at hh
      by_cases hp : phone = client.msisdn
      · subst hp
        rw [Function.update_self, Option.some.injEq] at hh
        subst hh
        exact .inr ⟨clientId, clientType, client, rfl, hc, rfl⟩
      · rw [Function.update_of_ne (by simpa using hp)] at hh
        exact .inl hh
  | verifyOtp dto =>
    simp only [SessionOp.step] at hh
    obtain ⟨e, hrun⟩ | ⟨client, -, -, -, -, hrun⟩ := run_verifyOtp env dto w
    · rw [hrun] at hh
      exact .inl hh
    · rw [hrun] at hh
      exact .inl (hdropped (hissued hh))
  | getRefreshToken token =>
    simp only [SessionOp.step] at hh
    obtain ⟨client, -, hrun⟩ | ⟨-, e, hrun⟩ := run_getRefreshToken env token w
    · rw [hrun] at hh
      exact .inl (hdropped (hissued hh))
    · rw [hrun] at hh
      exact .inl hh
  | logout token =>
    simp only [SessionOp.step] at hh
    obtain ⟨client, -, hrun⟩ | ⟨-, e, hrun⟩ := run_logout token w
    · rw [hrun] at hh
      exact .inl (hdropped (hdropped hh))
    · rw [hrun] at hh
      exact .inl hh
  | expire key => exact .inl (hdropped hh)
  | tick => exact .inl hh

end Origins

section Authority

variable (genv : GatewayEnvironment) (s₀ : GatewayState)

/-- A request of the steps has drawn the code for a client with the telephone number. -/
def DrewCode (steps : List GatewayStep) (phone otpCode : String) : Prop :=
  ∃ before authorization now clientId clientType rest client,
    steps = before ++ .request authorization now (.getOtp clientId clientType otpCode) :: rest ∧
    (s₀.after genv before).iam.findClient clientType clientId = some client ∧ client.msisdn = phone

/-- The client has been given tokens for a code that was drawn for its telephone number before. -/
def ShowedCode (steps : List GatewayStep) (role : EClientType) (id : Id) : Prop :=
  ∃ before authorization now dto rest client tokens,
    steps = before ++ .request authorization now (.verifyOtp dto) :: rest ∧
    dto.clientType = role ∧ dto.clientId = id ∧
    (s₀.after genv before).iam.findClient role id = some client ∧
    DrewCode genv s₀ before client.msisdn dto.otpCode ∧
    ((verifyOtp genv.iam dto).run iamHandle (s₀.after genv before).iam).1 = .ok tokens

/-- What entitles a step, taken after `steps`, to change what is stored of ride `k`. -/
inductive Entitled (steps : List GatewayStep) (k : Id) : GatewayStep → Prop where
  | creation {authorization : Option String} {now : Time} {dto : CreateRideInput} {token : Jwt}
    (hp : (s₀.after genv steps).iam.Presents genv.decodeToken authorization token)
    (hrole : token.role = .rider) (hnew : (s₀.after genv steps).app.rides.nextKey = k)
    (hshowed : ShowedCode genv s₀ steps token.role token.sub) :
    Entitled steps k (.request authorization now (.createRide dto))
  | participant {authorization : Option String} {now : Time} {e : RideEndpoint} {token : Jwt}
    (hp : (s₀.after genv steps).iam.Presents genv.decodeToken authorization token)
    (hadmits : e.Admits ⟨token.sub, token.role⟩)
    (hpart : (s₀.after genv steps).app.TakesPart k ⟨token.sub, token.role⟩)
    (hshowed : ShowedCode genv s₀ steps token.role token.sub) :
    Entitled steps k (.request authorization now (.ride k e))
  | provider {authorization : Option String} {now : Time} {payload : PaymentNotification} {source : Request}
    {orderId : OrderId} {d : RidePaymentDetail} (horder : payload.orderId = some orderId)
    (hd : (s₀.after genv steps).app.findDetailByOrder orderId = some d) (hride : d.rideId = k)
    (hallowed : (s₀.after genv steps).app.Allows (extractClientIp source)) :
    Entitled steps k (.request authorization now (.handlePaymentNotification payload source))
  | worker {outboxId : Id} {startedAt endedAt : Time} {x : PaymentOutbox}
    (hx : (s₀.after genv steps).app.outbox.find outboxId = some x) (hride : x.rideId = k) :
    Entitled steps k (.processOutbox outboxId startedAt endedAt)

/-- What every token and every code go back to. -/
structure TokensAccounted (steps : List GatewayStep) (s : GatewayState) : Prop where
  tokens : ∀ t ∈ s.iam.signed, ShowedCode genv s₀ steps t.role t.sub
  codes : ∀ phone hashed, s.iam.cache (.otp phone) = some hashed → DrewCode genv s₀ steps phone hashed.code

variable {genv s₀} {steps : List GatewayStep}

theorem DrewCode.later {phone otpCode : String} (h : DrewCode genv s₀ steps phone otpCode) (more : List GatewayStep) :
    DrewCode genv s₀ (steps ++ more) phone otpCode := by
  obtain ⟨before, authorization, now, clientId, clientType, rest, client, rfl, hc, hp⟩ := h
  exact ⟨before, authorization, now, clientId, clientType, rest ++ more, client, by simp, hc, hp⟩

theorem ShowedCode.later {role : EClientType} {id : Id} (h : ShowedCode genv s₀ steps role id)
    (more : List GatewayStep) : ShowedCode genv s₀ (steps ++ more) role id := by
  obtain ⟨before, authorization, now, dto, rest, client, tokens, rfl, hrest⟩ := h
  exact ⟨before, authorization, now, dto, rest ++ more, client, tokens, by simp, hrest⟩

/-- An operation of the identity service keeps the account. -/
theorem TokensAccounted.sessionOp (h : TokensAccounted genv s₀ steps (s₀.after genv steps)) {st : GatewayStep} {op : SessionOp}
    (hop : st.sessionOp genv = some op) (hiam : (st.step genv (s₀.after genv steps)).iam =
      (op.step genv.iam ⟨(s₀.after genv steps).iam, fun _ _ => none⟩).world) :
    TokensAccounted genv s₀ (steps ++ [st]) (st.step genv (s₀.after genv steps)) := by
  refine ⟨fun t ht => ?_, fun phone hashed hh => ?_⟩
  · rw [hiam] at ht
    obtain ⟨t', ht', hrole, hsub⟩ | ⟨dto, tokens, client, hashed, rfl, hrole, hid, hran, hc, hh, hcode⟩ :=
      signed_step op ht
    · rw [← hrole, ← hsub]
      exact (h.tokens t' ht').later [st]
    · obtain ⟨authorization, now, rfl⟩ : ∃ authorization now, st = .request authorization now (.verifyOtp dto) := by
        unfold GatewayStep.sessionOp at hop
        split at hop <;> simp_all
      have hdrew := h.codes client.msisdn hashed hh
      rw [hcode] at hdrew
      exact ⟨steps, authorization, now, dto, [], client, tokens, rfl, hrole, hid, hrole ▸ hid ▸ hc, hdrew, hran⟩
  · rw [hiam] at hh
    obtain hold | ⟨clientId, clientType, client, rfl, hc, hp⟩ := codes_step op hh
    · exact (h.codes phone hashed hold).later [st]
    · obtain ⟨authorization, now, rfl⟩ : ∃ authorization now,
          st = .request authorization now (.getOtp clientId clientType hashed.code) := by
        unfold GatewayStep.sessionOp at hop
        split at hop <;> simp_all
      exact ⟨steps, authorization, now, clientId, clientType, [], client, rfl, hc, hp⟩

theorem TokensAccounted.step (h : TokensAccounted genv s₀ steps (s₀.after genv steps)) (st : GatewayStep) :
    TokensAccounted genv s₀ (steps ++ [st]) (st.step genv (s₀.after genv steps)) := by
  have hsame (iam : IamWorld) (hsigned : iam.signed = (s₀.after genv steps).iam.signed)
      (hcache : iam.cache = (s₀.after genv steps).iam.cache)
      (hiam : (st.step genv (s₀.after genv steps)).iam = iam) :
      TokensAccounted genv s₀ (steps ++ [st]) (st.step genv (s₀.after genv steps)) := by
    refine ⟨fun t ht => ?_, fun phone hashed hh => ?_⟩
    · rw [hiam, hsigned] at ht
      exact (h.tokens t ht).later [st]
    · rw [hiam, hcache] at hh
      exact (h.codes phone hashed hh).later [st]
  by_cases hst : ∀ stored, st ≠ .profiles stored
  · have hiam := step_iam genv (s₀.after genv steps) (fun _ _ => none) hst
    cases hop : st.sessionOp genv with
    | none =>
      rw [hop] at hiam
      exact hsame _ rfl rfl hiam
    | some op =>
      rw [hop] at hiam
      exact h.sessionOp hop hiam
  · obtain ⟨stored, hst⟩ := not_forall.mp hst
    obtain rfl := not_not.mp hst
    exact hsame { (s₀.after genv steps).iam with profiles := stored } rfl rfl rfl

theorem tokensAccounted_after (genv : GatewayEnvironment) (stored : EClientType → Table Profile) (whitelist : List String) (steps : List GatewayStep) :
    TokensAccounted genv (.start stored whitelist) steps ((GatewayState.start stored whitelist).after genv steps) := by
  refine Runs.history_invariant (I := TokensAccounted genv (.start stored whitelist)) ⟨fun _ ht => ?_, fun _ _ hh => ?_⟩
    (fun pre st h => h.step st) steps
  · cases ht
  · cases hh

/-- A step keeps every outbox row with its payment detail. -/
theorem tied_gatewayStep {s : GatewayState} (h : s.app.Tied) (st : GatewayStep) : (st.step genv s).app.Tied := by
  have hst := appStep genv s st
  generalize (st.step genv s).app = app at hst
  cases hst with
  | none => exact h
  | creation | provider | worker => exact RideOp.tied_step genv.app h _
  | @endpoint authorization now rid e token => exact endpoint_tied h e

theorem tied_after (genv : GatewayEnvironment) (stored : EClientType → Table Profile) (whitelist : List String) (steps : List GatewayStep) :
    ((GatewayState.start stored whitelist).after genv steps).app.Tied :=
  Runs.invariant (I := fun s : GatewayState => s.app.Tied) (fun _ st h _ => tied_gatewayStep h st) (tied_initial whitelist)
    (Runs.meets_true _ steps)

/-- An operation that changes the record of a ride is about that ride. -/
theorem RideOp.ride_of_changes {env : Environment} {w : World} {op : RideOp} {k : Id} (htied : w.Tied)
    (h : (op.step env w).recordOf k ≠ w.recordOf k) : op.ride w = some k := by
  by_contra hne
  exact h (op.recordOf_step env htied hne)

end Authority

/-- In every run a step changes what is stored of a ride only if it is entitled to it. -/
theorem record_changes_entitled (genv : GatewayEnvironment) (stored : EClientType → Table Profile)
    (whitelist : List String) (steps : List GatewayStep) (st : GatewayStep) (k : Id)
    (h : (st.step genv ((GatewayState.start stored whitelist).after genv steps)).app.recordOf k ≠
      ((GatewayState.start stored whitelist).after genv steps).app.recordOf k) :
    Entitled genv (.start stored whitelist) steps k st := by
  have htied := tied_after genv stored whitelist steps
  have haccounted := tokensAccounted_after genv stored whitelist steps
  have hst := appStep genv ((GatewayState.start stored whitelist).after genv steps) st
  generalize (st.step genv ((GatewayState.start stored whitelist).after genv steps)).app = app at h hst
  cases hst with
  | none => exact absurd rfl h
  | creation hp hrole =>
    have hnew := RideOp.ride_of_changes htied h
    exact .creation hp hrole (Option.some.inj hnew) (haccounted.tokens _ hp.signed)
  | endpoint hp hadmits =>
    obtain ⟨rfl, hpart⟩ := endpoint_changes htied hadmits h
    exact .participant hp hadmits hpart (haccounted.tokens _ hp.signed)
  | @provider authorization now payload source =>
    have hallowed : ((GatewayState.start stored whitelist).after genv steps).app.Allows (extractClientIp source) := by
      by_contra hno
      apply h
      exact congrArg (World.recordOf · k) ((run_then_pure _ (fun _ => ()) _).trans (unlisted_run hno))
    obtain ⟨orderId, horder, hfound⟩ := Option.bind_eq_some_iff.mp (RideOp.ride_of_changes htied h)
    obtain ⟨d, hd, hk⟩ := Option.map_eq_some_iff.mp hfound
    exact .provider horder hd hk hallowed
  | worker =>
    obtain ⟨x, hx, hk⟩ := Option.map_eq_some_iff.mp (RideOp.ride_of_changes htied h)
    exact .worker hx hk

/-- The text `access` spells the access token of rider 1. -/
def spelling : GatewayEnvironment :=
  ⟨hourly, .around [7, 8], fun text => if text = "access" then some riderAccess else none⟩

/-- Rider 1 logs in and asks for a ride. -/
def requestedRide : List GatewayStep :=
  [.request none 0 (.getOtp 1 .rider "123456"), .request none 0 (.verifyOtp ⟨1, "123456", .rider⟩),
    .request (some "Bearer access") 0 (.createRide ⟨⟨1, 1⟩, ⟨2, 2⟩, none, none⟩)]

theorem record_changes_entitled_cancellation : Entitled spelling (.start oneRider []) requestedRide 1
    (.request (some "Bearer access") 1 (.ride 1 (.cancelRide none))) := by
  refine record_changes_entitled spelling oneRider [] requestedRide _ 1 fun h => ?_
  have hchanged : ((GatewayStep.request (some "Bearer access") 1 (.ride 1 (.cancelRide none))).step spelling
      ((GatewayState.start oneRider []).after spelling requestedRide)).app.rides.find 1 ≠
      ((GatewayState.start oneRider []).after spelling requestedRide).app.rides.find 1 := by decide +kernel
  exact hchanged (congrArg RideRecord.ride h)

end NebLite
