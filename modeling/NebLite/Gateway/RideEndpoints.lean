import NebLite.Rides.Matching
import NebLite.Payment.PaymentService

/-! The endpoints of the gateway that act on one ride, the roles that their guards
admit, and what they answer to a client that has no part in the ride. -/

namespace NebLite

open Atomic

/-- The authenticated client of a request. -/
structure AuthenticatedClient where
  id : Id
  role : EClientType
  deriving DecidableEq

def AuthenticatedClient.requester (c : AuthenticatedClient) : RequestingClient := ⟨some c.id, some c.role⟩

inductive RideEndpoint where
  | getRide
  | cancelRide (reason : Option String)
  | acceptRideAsDriver
  | rejectRideAsDriver (reason : Option String)
  | confirmDriverAcceptance
  | rejectDriverAcceptance (reason : Option String)
  | startRide (driverLocation : ParticipantLocation)
  | recordTripLocation (location : ParticipantLocation)
  | completeRide (driverLocation : ParticipantLocation) (discountAmount : Option JsNumber)
  | proceedRidePayment

namespace RideEndpoint

/-- The `@Roles` of the endpoint; without the decorator the guard lets every role pass. -/
def roles : RideEndpoint → Option (List EClientType)
  | getRide => none
  | cancelRide _ | confirmDriverAcceptance | rejectDriverAcceptance _ | proceedRidePayment => some [.rider]
  | acceptRideAsDriver | rejectRideAsDriver _ | startRide _ | completeRide _ _ => some [.driver]
  | recordTripLocation _ => some [.driver, .rider]

/-- `AccessRoleGuard.canActivate`. -/
def Admits (e : RideEndpoint) (client : AuthenticatedClient) : Prop := ∀ rs ∈ e.roles, client.role ∈ rs

instance (e : RideEndpoint) (client : AuthenticatedClient) : Decidable (e.Admits client) :=
  inferInstanceAs (Decidable (∀ rs ∈ e.roles, client.role ∈ rs))

/-- What the endpoint asks of the services, and the ride that they return. -/
def program (env : Environment) (rid : Id) (client : AuthenticatedClient) (now : Time) :
    RideEndpoint → Service (Option Ride)
  | getRide => some <$> getRideById rid client.requester
  | cancelRide reason => some <$> NebLite.cancelRide rid client.requester reason now
  | acceptRideAsDriver => some <$> acceptRideByDriver rid client.id now
  | rejectRideAsDriver reason => some <$> rejectRideByDriver rid client.id reason now
  | confirmDriverAcceptance => some <$> NebLite.confirmDriverAcceptance rid client.id now
  | rejectDriverAcceptance reason => some <$> NebLite.rejectDriverAcceptance rid client.id reason now
  | startRide location => some <$> NebLite.startRide env rid (some client.id) location
  | recordTripLocation location => do
    NebLite.recordTripLocation rid client.requester location
    return none
  | completeRide location discount =>
    some <$> NebLite.completeRide env rid client.requester location discount
  | proceedRidePayment => do
    let (ride, _) ← NebLite.proceedRidePayment env rid client.id
    return some ride

end RideEndpoint

/-- The client is not the rider, the assigned driver or a candidate of the ride. -/
structure World.Stranger (w : World) (r : Ride) (client : AuthenticatedClient) : Prop where
  rider : client.role = .rider → r.riderId ≠ client.id
  driver : client.role = .driver → r.driverId ≠ some client.id
  candidate : client.role = .driver → ∀ c ∈ w.candidates.rows, c.rideId = r.id → c.driverId ≠ client.id

instance (w : World) (r : Ride) (client : AuthenticatedClient) : Decidable (w.Stranger r client) :=
  decidable_of_iff ((client.role = .rider → r.riderId ≠ client.id) ∧
      (client.role = .driver → r.driverId ≠ some client.id) ∧
      (client.role = .driver → ∀ c ∈ w.candidates.rows, c.rideId = r.id → c.driverId ≠ client.id))
    ⟨fun ⟨h1, h2, h3⟩ => ⟨h1, h2, h3⟩, fun h => ⟨h.rider, h.driver, h.candidate⟩⟩

/-- The program throws, and leaves the store as it was. -/
def Refuses {α : Type} (env : Environment) (w : World) (p : Service α) : Prop :=
  ∃ e, p.run (handle env) w = (.error e, w)

section Refuses

variable {env : Environment} {w : World} {α β : Type}

theorem refuses_throw (e : ServiceError) : Refuses env w (.throw e : Service α) := ⟨e, rfl⟩

theorem Refuses.bind {p : Service α} (hp : Refuses env w p) (f : α → Service β) :
    Refuses env w (p >>= f) := by
  obtain ⟨e, he⟩ := hp
  exact ⟨e, Program.run_bind_error _ he f⟩

theorem Refuses.map {p : Service α} (hp : Refuses env w p) (f : α → β) : Refuses env w (f <$> p) := by
  rw [map_eq_pure_bind]
  exact hp.bind _

/-- A program goes on from the answer of a call that changes nothing. -/
theorem refuses_call {c : Call} {a : c.Answer} {f : c.Answer → Service β}
    (hc : handle env c w = (.ok a, w)) (hf : Refuses env w (f a)) : Refuses env w (call c >>= f) := by
  obtain ⟨e, he⟩ := hf
  exact ⟨e, (Program.run_bind_ok _ ((run_call env c w).trans hc) f).trans he⟩

theorem refuses_findById {rid : Id} {r : Ride} {f : Option Ride → Service β}
    (hr : w.rides.find rid = some r) (hf : Refuses env w (f (some r))) :
    Refuses env w (findById rid >>= f) :=
  refuses_call (c := .findRide rid) (by rw [handle, hr]) hf

end Refuses

section Stranger

variable {env : Environment} {w : World} {rid : Id} {r : Ride} {client : AuthenticatedClient} {now : Time}

theorem World.Stranger.findCandidate (h : w.Stranger r client) (hrole : client.role = .driver) :
    w.findCandidate r.id client.id = none := by
  apply List.find?_eq_none.mpr
  intro c hc hd
  simp only [Bool.and_eq_true, beq_iff_eq] at hd
  exact h.candidate hrole c hc hd.1 hd.2

theorem refuses_access (h : w.Stranger r client) :
    Refuses env w (ensureRequesterCanAccessRide r client.requester) := by
  unfold ensureRequesterCanAccessRide AuthenticatedClient.requester
  cases hrole : client.role with
  | rider =>
    simp only
    rw [if_pos (h.rider hrole)]
    exact refuses_throw _
  | driver =>
    simp only
    rw [if_pos (h.driver hrole)]
    exact refuses_throw _

theorem refuses_getRideById (hr : w.rides.find rid = some r) (h : w.Stranger r client) :
    Refuses env w (getRideById rid client.requester) := by
  unfold getRideById
  apply refuses_findById hr
  exact (refuses_access h).bind _

theorem refuses_cancelRide (hr : w.rides.find rid = some r) (h : r.riderId ≠ client.id)
    (reason : Option String) : Refuses env w (cancelRide rid client.requester reason now) := by
  unfold cancelRide
  apply refuses_findById hr
  have hne : some r.riderId ≠ client.requester.id := fun he => h (Option.some.inj he)
  simp only [↓Program.throw_seq]
  rw [if_pos hne]
  exact refuses_throw _

theorem refuses_confirmDriverAcceptance (hr : w.rides.find rid = some r) (h : r.riderId ≠ client.id) :
    Refuses env w (confirmDriverAcceptance rid client.id now) := by
  unfold confirmDriverAcceptance
  apply refuses_findById hr
  simp only [↓Program.throw_seq]
  rw [if_pos h]
  exact refuses_throw _

theorem refuses_rejectDriverAcceptance (hr : w.rides.find rid = some r) (h : r.riderId ≠ client.id)
    (reason : Option String) : Refuses env w (rejectDriverAcceptance rid client.id reason now) := by
  unfold rejectDriverAcceptance
  apply refuses_findById hr
  simp only [↓Program.throw_seq]
  rw [if_pos h]
  exact refuses_throw _

theorem refuses_proceedRidePayment (hr : w.rides.find rid = some r) (h : r.riderId ≠ client.id) :
    Refuses env w (proceedRidePayment env rid client.id) := by
  unfold proceedRidePayment
  apply refuses_call (c := .findPaymentRide rid) (by rw [handle, World.findPaymentRide, hr])
  simp only [Option.map_some, ↓Program.throw_seq]
  rw [if_pos h]
  exact refuses_throw _

theorem refuses_startRide (hr : w.rides.find rid = some r) (h : r.driverId ≠ some client.id)
    (location : ParticipantLocation) : Refuses env w (startRide env rid (some client.id) location) := by
  unfold startRide
  apply refuses_findById hr
  simp only [↓Program.throw_seq]
  rw [if_pos h]
  exact refuses_throw _

theorem refuses_completeRide (hr : w.rides.find rid = some r) (h : r.driverId ≠ some client.id)
    (location : ParticipantLocation) (discount : Option JsNumber) :
    Refuses env w (completeRide env rid client.requester location discount) := by
  unfold completeRide
  apply refuses_findById hr
  simp only [↓Program.throw_seq]
  rw [if_pos h]
  exact refuses_throw _

theorem refuses_recordTripLocation (hr : w.rides.find rid = some r) (h : w.Stranger r client)
    (location : ParticipantLocation) :
    Refuses env w (recordTripLocation rid client.requester location) := by
  unfold recordTripLocation
  apply refuses_findById hr
  exact (refuses_access h).bind _

theorem refuses_acceptRideByDriver (hr : w.rides.find rid = some r) (h : w.Stranger r client)
    (hrole : client.role = .driver) : Refuses env w (acceptRideByDriver rid client.id now) := by
  have hid : r.id = rid := Table.key_of_find hr
  have hc := h.findCandidate hrole
  rw [hid] at hc
  unfold acceptRideByDriver
  apply refuses_findById hr
  simp only [↓Program.throw_seq]
  by_cases hcanceled : r.status = .canceled
  · rw [if_pos hcanceled]
    exact refuses_throw _
  by_cases hcompleted : r.status = .completed
  · rw [if_neg hcanceled, if_pos hcompleted]
    exact refuses_throw _
  rw [if_neg hcanceled, if_neg hcompleted]
  apply refuses_call (c := .findCandidate rid client.id) (by rw [handle, hc])
  exact refuses_throw _

/-- A decline of a canceled ride returns the ride before it looks for the candidate. -/
theorem rejectRideByDriver_canceled (hr : w.rides.find rid = some r) (hs : r.status = .canceled)
    (driverId : Id) (reason : Option String) :
    (rejectRideByDriver rid driverId reason now).run (handle env) w = (.ok r, w) := by
  unfold rejectRideByDriver
  rw [Program.run_bind_ok _ (run_findById env rid w), hr]
  simp only
  rw [if_pos hs]
  rfl

theorem refuses_rejectRideByDriver (hr : w.rides.find rid = some r) (h : w.Stranger r client)
    (hrole : client.role = .driver) (hs : r.status ≠ .canceled) (reason : Option String) :
    Refuses env w (rejectRideByDriver rid client.id reason now) := by
  have hid : r.id = rid := Table.key_of_find hr
  have hc := h.findCandidate hrole
  rw [hid] at hc
  unfold rejectRideByDriver
  apply refuses_findById hr
  simp only [↓Program.throw_seq]
  rw [if_neg hs]
  by_cases hcompleted : r.status = .completed
  · rw [if_pos hcompleted]
    exact refuses_throw _
  by_cases henroute : r.status = .enroute
  · rw [if_neg hcompleted, if_pos henroute]
    exact refuses_throw _
  rw [if_neg hcompleted, if_neg henroute]
  apply refuses_call (c := .findCandidate rid client.id) (by rw [handle, hc])
  exact refuses_throw _

/-- The decline of a canceled ride, which asks nothing of its caller. -/
def RideEndpoint.ReturnsEarly (r : Ride) : RideEndpoint → Prop
  | rejectRideAsDriver _ => r.status = .canceled
  | _ => False

/-- A stranger is refused, or it is shown a canceled ride; the store stays in both cases. -/
theorem stranger_run (env : Environment) (now : Time) (hr : w.rides.find rid = some r) (h : w.Stranger r client) {e : RideEndpoint}
    (he : e.Admits client) :
    (¬ e.ReturnsEarly r ∧ Refuses env w (e.program env rid client now)) ∨
      (e.ReturnsEarly r ∧ (e.program env rid client now).run (handle env) w = (.ok (some r), w)) := by
  have hrider (ha : client.role ∈ [EClientType.rider]) : r.riderId ≠ client.id :=
    h.rider (List.mem_singleton.mp ha)
  have hdriver (ha : client.role ∈ [EClientType.driver]) : r.driverId ≠ some client.id :=
    h.driver (List.mem_singleton.mp ha)
  cases e with
  | getRide => exact .inl ⟨id, (refuses_getRideById hr h).map some⟩
  | cancelRide reason => exact .inl ⟨id, (refuses_cancelRide hr (hrider (he _ rfl)) reason).map some⟩
  | acceptRideAsDriver =>
    exact .inl ⟨id, (refuses_acceptRideByDriver hr h (List.mem_singleton.mp (he _ rfl))).map some⟩
  | rejectRideAsDriver reason =>
    by_cases hs : r.status = .canceled
    · refine .inr ⟨hs, ?_⟩
      rw [RideEndpoint.program, map_eq_pure_bind]
      exact Program.run_bind_ok _ (rejectRideByDriver_canceled hr hs client.id reason) _
    · have hrole := List.mem_singleton.mp (he _ rfl)
      exact .inl ⟨hs, (refuses_rejectRideByDriver hr h hrole hs reason).map some⟩
  | confirmDriverAcceptance =>
    exact .inl ⟨id, (refuses_confirmDriverAcceptance hr (hrider (he _ rfl))).map some⟩
  | rejectDriverAcceptance reason =>
    exact .inl ⟨id, (refuses_rejectDriverAcceptance hr (hrider (he _ rfl)) reason).map some⟩
  | startRide location =>
    exact .inl ⟨id, (refuses_startRide hr (hdriver (he _ rfl)) location).map some⟩
  | recordTripLocation location => exact .inl ⟨id, (refuses_recordTripLocation hr h location).bind _⟩
  | completeRide location discount =>
    exact .inl ⟨id, (refuses_completeRide hr (hdriver (he _ rfl)) location discount).map some⟩
  | proceedRidePayment => exact .inl ⟨id, (refuses_proceedRidePayment hr (hrider (he _ rfl))).bind _⟩

end Stranger

/-- An endpoint that its role admits throws at a stranger exactly when it is not the
decline of a canceled ride. -/
theorem stranger_refused_iff (env : Environment) (w : World) (r : Ride) (hr : w.rides.find r.id = some r)
    (client : AuthenticatedClient) (h : w.Stranger r client) (e : RideEndpoint) (he : e.Admits client)
    (now : Time) :
    (∃ err, ((e.program env r.id client now).run (handle env) w).1 = .error err) ↔ ¬ e.ReturnsEarly r := by
  obtain ⟨hno, err, hrun⟩ | ⟨hyes, hrun⟩ := stranger_run env now hr h he
  · rw [hrun]
    exact ⟨fun _ => hno, fun _ => ⟨err, rfl⟩⟩
  · rw [hrun]
    constructor
    · rintro ⟨err, herr⟩
      cases herr
    · intro hno
      exact absurd hyes hno

/-- Rider 1 has canceled the ride to which drivers 7 and 8 were invited. -/
def canceledWorld : World :=
  (World.initial []).after (.around [7, 8])
    [.createRide (some 1) ⟨⟨1, 1⟩, ⟨2, 2⟩, none, none⟩ 0, .cancelRide 1 ⟨some 1, some .rider⟩ none 1]

theorem canceledWorld_stranger : ∃ r, canceledWorld.rides.find r.id = some r ∧
    canceledWorld.Stranger r ⟨9, .driver⟩ ∧ r.status = .canceled := by
  have h : ∃ r ∈ canceledWorld.rides.rows, canceledWorld.rides.find r.id = some r ∧
      canceledWorld.Stranger r ⟨9, .driver⟩ ∧ r.status = .canceled := by decide +kernel
  obtain ⟨r, -, h⟩ := h
  exact ⟨r, h⟩

/-- Driver 9 cannot look up the ride. -/
theorem stranger_refused_lookup : ∃ r, canceledWorld.rides.find r.id = some r ∧
    ∃ err, ((RideEndpoint.getRide.program (.around [7, 8]) r.id ⟨9, .driver⟩ 2).run
      (handle (.around [7, 8])) canceledWorld).1 = .error err := by
  obtain ⟨r, hr, hs, -⟩ := canceledWorld_stranger
  have hguarded : ¬ RideEndpoint.getRide.ReturnsEarly r := id
  exact ⟨r, hr, (stranger_refused_iff (.around [7, 8]) canceledWorld r hr ⟨9, .driver⟩ hs .getRide
    (by decide) 2).mpr hguarded⟩

/-- Driver 9 declines the ride, and is given it. -/
theorem stranger_given_canceled : ∃ r, canceledWorld.rides.find r.id = some r ∧
    canceledWorld.Stranger r ⟨9, .driver⟩ ∧ (RideEndpoint.rejectRideAsDriver none).Admits ⟨9, .driver⟩ ∧
    (((RideEndpoint.rejectRideAsDriver none).program (.around [7, 8]) r.id ⟨9, .driver⟩ 2).run
      (handle (.around [7, 8])) canceledWorld).1 = .ok (some r) := by
  obtain ⟨r, hr, hs, hcanceled⟩ := canceledWorld_stranger
  refine ⟨r, hr, hs, by decide, ?_⟩
  rw [RideEndpoint.program, map_eq_pure_bind]
  rw [Program.run_bind_ok _ (rejectRideByDriver_canceled hr hcanceled 9 none)]
  rfl

end NebLite
