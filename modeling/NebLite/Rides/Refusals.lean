import NebLite.Rides.Cancellation
import NebLite.Rides.Billable
import NebLite.Atomic.Outcomes

/-! What an operation of the lifecycle leaves behind when it throws. -/

namespace NebLite

open Atomic

/-- Rides, candidates, history and tracked trips are the same. -/
structure World.SameTrips (w v : World) : Prop where
  rides : v.rides = w.rides
  candidates : v.candidates = w.candidates
  history : v.history = w.history
  tripStates : v.tripStates = w.tripStates
  tripEvents : v.tripEvents = w.tripEvents

theorem World.sameTrips_refl (w : World) : w.SameTrips w := ⟨rfl, rfl, rfl, rfl, rfl⟩

/-- Another driver holds the ride, and the caller's own candidate has been canceled, nothing else. -/
def World.SupersedesCaller (w : World) (rid d : Id) (v : World) : Prop :=
  (∃ r holder, w.rides.find rid = some r ∧ r.driverId = some holder ∧ holder ≠ d) ∧
    ∃ c canceled, w.findCandidate rid d = some c ∧ canceled.id = c.id ∧ canceled.rideId = c.rideId ∧
      canceled.driverId = c.driverId ∧ canceled.status = .canceled ∧
      ({ w with candidates := w.candidates.put canceled } : World).SameTrips v

/-- The calls that the location checks make. -/
def Call.Asks : Call → Prop
  | .getTripState _ | .geodist _ _ => True
  | _ => False

theorem Call.Asks.sameTrips {c : Call} (hc : c.Asks) (env : Environment) {w v : World} (hv : w.SameTrips v) :
    w.SameTrips (handle env c v).2 := by
  cases c with
  | getTripState | geodist => exact ⟨hv.rides, hv.candidates, hv.history, hv.tripStates, hv.tripEvents⟩
  | _ => exact hc.elim

section Asks

theorem asks_getLatestLocation {rid : Id} {role : EClientType} : (getLatestLocation rid role).Calls Call.Asks :=
  Program.Calls.bind ⟨trivial, fun r => by cases r <;> trivial⟩ fun _ => trivial

theorem asks_ensure {x y : Coordinate} {radius : ℚ} {message : String} :
    (ensureLocationWithinRadius x y radius message).Calls Call.Asks := by
  refine Program.Calls.bind ⟨trivial, fun r => by cases r <;> trivial⟩ fun d => ?_
  split <;> trivial

theorem asks_atPickup {env : Environment} {ride : Ride} {location : ParticipantLocation} :
    (ensureAtPickup env ride location).Calls Call.Asks := by
  refine asks_getLatestLocation.bind fun o => ?_
  cases o with
  | none => trivial
  | some rider => exact asks_ensure.bind fun _ => asks_ensure.bind fun _ => asks_ensure

theorem asks_atDropoff {env : Environment} {ride : Ride} {location : ParticipantLocation} :
    (ensureAtDropoff env ride location).Calls Call.Asks := by
  refine asks_getLatestLocation.bind fun o => ?_
  cases o with
  | none => trivial
  | some rider => exact asks_ensure.bind fun _ => asks_ensure.bind fun _ => asks_ensure

end Asks

/-- As long as the ride is stored, the program returns, and the ride stays stored. -/
def Steady {α : Type} (env : Environment) (rid : Id) (p : Service α) (Q : α → Prop) : Prop :=
  ∀ w : World, w.rides.find rid ≠ none →
    p.Returns (handle env) w fun a v => Q a ∧ v.rides.find rid ≠ none

section Steady

variable {α β : Type} {env : Environment} {rid : Id}

theorem steady_pure {Q : α → Prop} {a : α} (ha : Q a) : Steady env rid (pure a) Q := fun _ hw => ⟨ha, hw⟩

theorem Steady.bind {p : Service α} {f : α → Service β} {Q : α → Prop} {R : β → Prop} (hp : Steady env rid p Q)
    (hf : ∀ a, Q a → Steady env rid (f a) R) : Steady env rid (p >>= f) R :=
  fun w hw => (hp w hw).bind fun a v ha => hf a ha.1 v ha.2

theorem steady_call {c : Call} (hc : ∀ w, ∃ a v, handle env c w = (.ok a, v) ∧ v.rides = w.rides) :
    Steady env rid (call c) fun _ => True := by
  intro w hw
  obtain ⟨a, v, hrun, hrides⟩ := hc w
  refine Program.outcome_of_ok ((run_call env c w).trans hrun) ⟨trivial, ?_⟩
  rw [hrides]
  exact hw

/-- The calls that read a ride, send a notification or keep track of a trip. -/
def Call.Plain : Call → Prop
  | .findRide _ | .emit _ | .getTripState _ | .setTripState _ _ | .addActiveRide _ | .pushTripEvent _ _
  | .expireTripEvents _ | .geodist _ _ | .enqueueFlushRide _ => True
  | _ => False

theorem steady_plain {c : Call} (hc : c.Plain) : Steady env rid (call c) fun _ => True := by
  refine steady_call fun w => ?_
  cases c with
  | findRide | emit | getTripState | setTripState | addActiveRide | pushTripEvent | expireTripEvents | geodist
  | enqueueFlushRide => exact ⟨_, _, rfl, rfl⟩
  | _ => exact hc.elim

theorem steady_findById (id : Id) : Steady env rid (findById id) fun _ => True :=
  steady_plain trivial

theorem steady_saveCandidate (c : RideDriverCandidate) : Steady env rid (saveCandidate c) fun _ => True := by
  refine steady_call fun w => ⟨(), w.saveCandidate c, rfl, ?_⟩
  unfold World.saveCandidate
  split <;> rfl

theorem steady_forM {f : α → Service Unit} (hf : ∀ a, Steady env rid (f a) fun _ => True) (l : List α) :
    Steady env rid (l.forM f) fun _ => True := by
  induction l with
  | nil => exact steady_pure trivial
  | cons a l ih => exact (hf a).bind fun _ _ => ih

theorem steady_dispatch {target targetId event ride message extras} :
    Steady env rid (dispatchNotification target targetId event ride message extras) fun _ => True :=
  steady_plain trivial

theorem steady_both {ride riderEvent driverEvent riderMessage driverMessage extras} :
    Steady env rid (notifyBoth ride riderEvent driverEvent riderMessage driverMessage extras) fun _ => True := by
  unfold notifyBoth
  split
  · exact steady_dispatch
  · exact steady_dispatch.bind fun _ _ => steady_dispatch

theorem steady_updateRide {m : Ride} (hm : m.id = rid) :
    Steady env rid (updateRide m.changes) fun x => x.id = rid := by
  intro w hw
  obtain ⟨r, hr⟩ := Option.ne_none_iff_exists'.mp hw
  subst hm
  have hid : (r.rewrite m).id = m.id := Table.key_of_find hr
  refine Program.outcome_of_ok (run_updateRide env hr) ⟨hid, ?_⟩
  have hstored : (w.rides.put (r.rewrite m)).find (r.rewrite m).id = some (r.rewrite m) :=
    Table.find_put_self (r := r.rewrite m) (hid ▸ hr)
  rw [hid] at hstored
  simp [hstored]

theorem steady_transition (allowed : List ERideStatus) (next : ERideStatus) (context : Option String) :
    Steady env rid (transitionRideStatus rid allowed next context) fun p => p.1.id = rid := by
  intro w hw
  obtain ⟨r, hr⟩ := Option.ne_none_iff_exists'.mp hw
  obtain ⟨ride, changed, v, hrun, hf, -⟩ := transition_becomes env (World.booking_of_find hr) allowed next context
  have hid : ride.id = rid := Table.key_of_find hf
  exact Program.outcome_of_ok hrun ⟨hid, by simp [hf]⟩

theorem steady_refreshed {p : Option Ride → α} (id : Id) :
    Steady env rid (do let refreshed ← findById id; return p refreshed) fun _ => True :=
  (steady_findById id).bind fun _ _ => steady_pure trivial

theorem steady_getState (id : Id) : Steady env rid (getState id) fun _ => True :=
  (steady_plain (c := .getTripState id) trivial).bind fun _ _ => steady_pure trivial

theorem steady_recordLocation {clientId : Id} {role : EClientType} {location : ParticipantLocation} (id : Id) :
    Steady env rid (recordLocation id clientId role location) fun _ => True := by
  refine (steady_getState id).bind fun state _ => ?_
  have hdistance : Steady env rid (driverDistance state role location) fun _ => True := by
    unfold driverDistance
    split
    · exact (steady_plain (c := .geodist _ _) trivial).bind fun _ _ => steady_pure trivial
    · exact steady_pure trivial
  exact hdistance.bind fun _ _ => (steady_plain (c := .setTripState _ _) trivial).bind fun _ _ =>
    (steady_plain (c := .addActiveRide _) trivial).bind fun _ _ =>
    (steady_plain (c := .pushTripEvent _ _) trivial).bind fun _ _ =>
    (steady_plain (c := .expireTripEvents _) trivial).bind fun _ _ => steady_pure trivial

theorem steady_markRideCompleted (id : Id) : Steady env rid (markRideCompleted id) fun _ => True := by
  refine (steady_getState id).bind fun state _ => ?_
  split
  · exact (steady_plain (c := .setTripState _ _) trivial).bind fun _ _ =>
      steady_plain (c := .enqueueFlushRide _) trivial
  · exact steady_pure trivial

theorem steady_acceptClaimedRide (c : RideDriverCandidate) (now : Time) :
    Steady env rid (acceptClaimedRide rid c now) fun _ => True := by
  unfold acceptClaimedRide
  refine (steady_saveCandidate _).bind fun _ _ => (steady_transition _ _ _).bind ?_
  rintro ⟨ride, changed⟩ rfl
  refine (steady_transition _ _ _).bind ?_
  rintro ⟨accepted, changed⟩ -
  exact steady_dispatch.bind fun _ _ => steady_refreshed ride.id

theorem steady_settleRide {r : Ride} (fare : FareCalculationResult) :
    Steady env r.id (settleRide r fare) fun _ => True := by
  unfold settleRide
  refine (steady_transition _ _ _).bind ?_
  rintro ⟨updated, changed⟩ hid
  exact (steady_markRideCompleted r.id).bind fun _ _ => (steady_updateRide (m := withFare updated fare) hid).bind
    fun saved _ => (steady_findById saved.id).bind fun _ _ => steady_both.bind fun _ _ => steady_pure trivial

end Steady

section Refusals

variable {α β : Type} {env : Environment} {w v : World} {Q : β → World → Prop} {E : ServiceError → World → Prop}

theorem outcome_call {c : Call} {f : c.Answer → Service β} {a : c.Answer} (hrun : handle env c w = (.ok a, v))
    (hf : (f a).Outcome (handle env) v Q E) : (call c >>= f).Outcome (handle env) w Q E := by
  unfold Program.Outcome
  rw [Program.run_bind_ok _ ((run_call env c w).trans hrun)]
  exact hf

theorem outcome_findById {rid : Id} {f : Option Ride → Service β}
    (hf : (f (w.rides.find rid)).Outcome (handle env) w Q E) : (findById rid >>= f).Outcome (handle env) w Q E :=
  outcome_call (c := .findRide rid) rfl hf

theorem outcome_guard {p : Prop} [Decidable p] {e : ServiceError} {next : Service β} (hthrow : E e w)
    (hnext : ¬ p → next.Outcome (handle env) w Q E) : (if p then .throw e else next).Outcome (handle env) w Q E := by
  by_cases h : p
  · rw [if_pos h]
    exact Program.outcome_throw hthrow
  · rw [if_neg h]
    exact hnext h

theorem Steady.outcome {rid : Id} {p : Service β} (hw : w.rides.find rid ≠ none)
    (hp : Steady env rid p fun _ => True) : p.Outcome (handle env) w (fun _ _ => True) E := (hp w hw).outcome

/-- A program that leaves the trips alone when it throws. -/
abbrev RefusesCleanly (env : Environment) (w : World) (p : Service α) : Prop :=
  p.Outcome (handle env) w (fun _ _ => True) fun _ v => w.SameTrips v

theorem refuses_of_rests {p : Service α} (hp : Rests env w p) : RefusesCleanly env w p := by
  have hend : (p.run (handle env) w).2 = w := hp
  unfold RefusesCleanly Program.Outcome
  rcases hrun : p.run (handle env) w with ⟨e | a, u⟩
  · rw [hrun] at hend
    exact hend ▸ w.sameTrips_refl
  · trivial

theorem cancelRide_refuses (env : Environment) (w : World) (rid : Id) (requester : RequestingClient)
    (reason : Option String) (now : Time) : RefusesCleanly env w (cancelRide rid requester reason now) := by
  by_cases hopen : ∃ r, w.rides.find rid = some r ∧ some r.riderId = requester.id ∧
      r.status ∉ [ERideStatus.completed, .canceled]
  · obtain ⟨r, hr, hreq, hs⟩ := hopen
    obtain rfl : r.id = rid := Table.key_of_find hr
    obtain ⟨ride, changed, u, htransition, hf, -⟩ := transition_becomes env (World.booking_of_find hr)
      [.requested, .candidatesComputed, .assigned, .accepted, .enroute] .canceled (some (cancellationReason reason))
    exact Program.outcome_of_ok (run_cancelRide env hr hreq hs htransition hf now) trivial
  · have hrests : Rests env w (cancelRide rid requester reason now) := by
      cases hr : w.rides.find rid with
      | none => exact rests_missing hr rfl
      | some r =>
        obtain rfl : r.id = rid := Table.key_of_find hr
        have hidle : (w.bookingOf r).Idle (.cancelRide r.id requester reason now) := by
          by_contra hno
          have hno' : ¬ (some r.riderId ≠ requester.id ∨ r.status = .completed ∨ r.status = .canceled) := hno
          simp only [not_or, not_not] at hno'
          exact hopen ⟨r, hr, hno'.1, by simp [hno'.2]⟩
        exact rests_cancelRide hr hidle
    exact refuses_of_rests hrests

theorem superseded_refuses {r : Ride} {d holder : Id} {c : RideDriverCandidate} {e : ServiceError}
    (hr : w.rides.find r.id = some r) (hd : r.driverId = some holder) (hholder : holder ≠ d)
    (hc : w.findCandidate r.id d = some c) (now : Time) :
    ((do markCandidateSuperseded r c now; .throw e) : Service β).Outcome (handle env) w Q
      fun _ v => w.SameTrips v ∨ w.SupersedesCaller r.id d v := by
  let canceled : RideDriverCandidate :=
    { c with
      status := .canceled, reason := some "Another driver already accepted this ride", respondedAt := some now }
  have hstored : w.candidates.find canceled.id = some c := World.find_of_mem (World.mem_of_findCandidate hc).1
  have hsave : handle env (.saveCandidate canceled) w = (.ok (), { w with candidates := w.candidates.put canceled }) :=
    congrArg (Prod.mk _) (World.saveCandidate_eq hstored rfl rfl)
  have hsupersedes (ns : List Notification) : w.SupersedesCaller r.id d
      { w with candidates := w.candidates.put canceled, notifications := ns } :=
    ⟨⟨r, holder, hr, hd, hholder⟩, c, canceled, hc, rfl, rfl, rfl, rfl, rfl, rfl, rfl, rfl, rfl⟩
  unfold markCandidateSuperseded saveCandidate notifyCandidateSuperseded dispatchNotification
  simp only [bind_assoc]
  exact outcome_call hsave (outcome_call (c := .emit _) rfl (Program.outcome_throw (.inr (hsupersedes _))))

theorem acceptRideByDriver_refuses (env : Environment) (w : World) (rid d : Id) (now : Time) :
    (acceptRideByDriver rid d now).Outcome (handle env) w (fun _ _ => True)
      fun _ v => w.SameTrips v ∨ w.SupersedesCaller rid d v := by
  have hsame : w.SameTrips w ∨ w.SupersedesCaller rid d w := .inl w.sameTrips_refl
  unfold acceptRideByDriver findByRideAndDriver
  refine outcome_findById ?_
  simp only [↓Program.throw_seq]
  cases hr : w.rides.find rid with
  | none => exact Program.outcome_throw hsame
  | some r =>
    obtain rfl : r.id = rid := Table.key_of_find hr
    refine outcome_guard hsame fun _ => outcome_guard hsame fun _ =>
      outcome_call (c := .findCandidate r.id d) rfl ?_
    cases hc : w.findCandidate r.id d with
    | none => exact Program.outcome_throw hsame
    | some c =>
      refine outcome_guard hsame fun _ => outcome_guard hsame fun _ => ?_
      split
      · exact Program.outcome_ret trivial
      cases hd : r.driverId with
      | none =>
        have hclaim : handle env (.claimDriver r.id d) w =
            (.ok true, { w with rides := w.rides.put { r with driverId := some d } }) := by
          simp [handle, World.claimDriver, hr, hd, UpdateResult.length]
        refine outcome_call hclaim ((steady_acceptClaimedRide c now).outcome ?_)
        have hput : (w.rides.put { r with driverId := some d }).find r.id = some { r with driverId := some d } :=
          Table.find_put_self (r := { r with driverId := some d }) hr
        simp [hput]
      | some holder =>
        simp only
        by_cases hholder : holder = d
        · rw [if_neg (not_not.mpr hholder)]
          exact (steady_acceptClaimedRide c now).outcome (by simp [hr])
        · rw [if_pos hholder]
          exact superseded_refuses hr hd hholder hc now

theorem rejectRideByDriver_refuses (env : Environment) (w : World) (rid d : Id) (reason : Option String)
    (now : Time) : RefusesCleanly env w (rejectRideByDriver rid d reason now) := by
  have hsame := w.sameTrips_refl
  unfold RefusesCleanly rejectRideByDriver findByRideAndDriver
  refine outcome_findById ?_
  simp only [↓Program.throw_seq]
  cases hr : w.rides.find rid with
  | none => exact Program.outcome_throw hsame
  | some r =>
    obtain rfl : r.id = rid := Table.key_of_find hr
    simp only
    split
    · exact Program.outcome_ret trivial
    refine outcome_guard hsame fun _ => outcome_guard hsame fun _ =>
      outcome_call (c := .findCandidate r.id d) rfl ?_
    cases hc : w.findCandidate r.id d with
    | none => exact Program.outcome_throw hsame
    | some c =>
      simp only
      split
      · exact Program.outcome_ret trivial
      split
      · exact Program.outcome_ret trivial
      have hstored : w.rides.find r.id ≠ none := by simp [hr]
      refine Steady.outcome hstored ((steady_saveCandidate _).bind fun _ _ => ?_)
      have hdeclined (ride : Ride) (x : RideDriverCandidate) : Steady env r.id (do
          notifyDriverDeclined ride x
          let refreshed ← findById ride.id
          return refreshed.getD ride) fun _ => True :=
        steady_dispatch.bind fun _ _ => steady_refreshed ride.id
      split
      · refine (steady_updateRide (m := { r with driverId := none }) rfl).bind fun ride hid => ?_
        rw [hid]
        exact (steady_transition _ _ _).bind fun p _ => hdeclined p.1 _
      · exact hdeclined r _

theorem confirmDriverAcceptance_refuses (env : Environment) (w : World) (rid rider : Id) (now : Time) :
    RefusesCleanly env w (confirmDriverAcceptance rid rider now) := by
  have hsame := w.sameTrips_refl
  unfold RefusesCleanly confirmDriverAcceptance findByRideAndDriver
  refine outcome_findById ?_
  simp only [↓Program.throw_seq]
  cases hr : w.rides.find rid with
  | none => exact Program.outcome_throw hsame
  | some r =>
    obtain rfl : r.id = rid := Table.key_of_find hr
    refine outcome_guard hsame fun _ => ?_
    cases hd : r.driverId with
    | none => exact Program.outcome_throw hsame
    | some d =>
      refine outcome_guard hsame fun _ => ?_
      split
      · exact Program.outcome_ret trivial
      refine outcome_guard hsame fun _ => ?_
      split
      · exact Program.outcome_ret trivial
      refine outcome_call (c := .findCandidate r.id d) rfl ?_
      cases hc : w.findCandidate r.id d with
      | none => exact Program.outcome_throw hsame
      | some c =>
        refine outcome_guard hsame fun _ => ?_
        have hstored : w.rides.find r.id ≠ none := by simp [hr]
        refine Steady.outcome hstored ((steady_transition _ _ _).bind fun p _ => ?_)
        refine (steady_call fun _ => ⟨_, _, rfl, rfl⟩).bind fun candidates _ => ?_
        refine (steady_forM steady_saveCandidate _).bind fun _ _ => ?_
        have hconfirmed : Steady env r.id (notifyRiderConfirmed p.1 c) fun _ => True := by
          unfold notifyRiderConfirmed
          split
          · exact steady_pure trivial
          · exact steady_dispatch
        exact hconfirmed.bind fun _ _ => (steady_forM (fun _ => steady_dispatch) _).bind fun _ _ =>
          steady_refreshed p.1.id

theorem rejectDriverAcceptance_refuses (env : Environment) (w : World) (rid rider : Id) (reason : Option String)
    (now : Time) : RefusesCleanly env w (rejectDriverAcceptance rid rider reason now) := by
  have hsame := w.sameTrips_refl
  unfold RefusesCleanly rejectDriverAcceptance findByRideAndDriver
  refine outcome_findById ?_
  simp only [↓Program.throw_seq]
  cases hr : w.rides.find rid with
  | none => exact Program.outcome_throw hsame
  | some r =>
    obtain rfl : r.id = rid := Table.key_of_find hr
    refine outcome_guard hsame fun _ => ?_
    cases hd : r.driverId with
    | none => exact Program.outcome_throw hsame
    | some d =>
      simp only
      split
      · exact Program.outcome_ret trivial
      refine outcome_guard hsame fun _ => outcome_guard hsame fun _ => outcome_guard hsame fun _ =>
        outcome_call (c := .findCandidate r.id d) rfl ?_
      cases hc : w.findCandidate r.id d with
      | none => exact Program.outcome_throw hsame
      | some c =>
        have hstored : w.rides.find r.id ≠ none := by simp [hr]
        refine Steady.outcome hstored ((steady_saveCandidate _).bind fun _ _ => ?_)
        exact (steady_updateRide (m := { r with driverId := none }) rfl).bind fun _ _ =>
          (steady_transition _ _ _).bind fun p _ => steady_dispatch.bind fun _ _ => steady_refreshed p.1.id

theorem startRide_refuses (env : Environment) (w : World) (rid : Id) (driverId : Option Id)
    (location : ParticipantLocation) : RefusesCleanly env w (startRide env rid driverId location) := by
  have hsame := w.sameTrips_refl
  unfold RefusesCleanly startRide
  simp only [↓Program.throw_seq]
  cases driverId with
  | none => exact Program.outcome_throw hsame
  | some d =>
    refine outcome_findById ?_
    cases hr : w.rides.find rid with
    | none => exact Program.outcome_throw hsame
    | some r =>
      obtain rfl : r.id = rid := Table.key_of_find hr
      refine outcome_guard hsame fun _ => outcome_guard hsame fun _ => outcome_guard hsame fun _ =>
        outcome_guard hsame fun _ => ?_
      have hchecks : (ensureAtPickup env r location).Outcome (handle env) w (fun _ u => w.SameTrips u)
          fun _ u => w.SameTrips u :=
        asks_atPickup.outcome (fun c hc u hu => hc.sameTrips env hu) hsame
      refine hchecks.bind fun _ u hu => ?_
      have hstored : u.rides.find r.id ≠ none := by simp [hu.rides, hr]
      refine Steady.outcome hstored ((steady_recordLocation r.id).bind fun _ _ => ?_)
      refine (steady_transition _ _ _).bind fun p _ => (steady_findById p.1.id).bind fun refreshed _ => ?_
      split
      · exact steady_both.bind fun _ _ => steady_pure trivial
      · exact steady_pure trivial

theorem ensureAccess_refuses {r : Ride} {requester : RequestingClient} :
    (ensureRequesterCanAccessRide r requester).Outcome (handle env) w (fun _ v => w = v) fun _ v => w = v := by
  unfold ensureRequesterCanAccessRide
  cases requester.id with
  | none => exact Program.outcome_throw rfl
  | some id =>
    rcases requester.role with _ | _ | _
    · exact Program.outcome_ret rfl
    · exact outcome_guard rfl fun _ => Program.outcome_ret rfl
    · exact outcome_guard rfl fun _ => Program.outcome_ret rfl

theorem recordTripLocation_refuses (env : Environment) (w : World) (rid : Id) (requester : RequestingClient)
    (location : ParticipantLocation) : RefusesCleanly env w (recordTripLocation rid requester location) := by
  have hsame := w.sameTrips_refl
  unfold RefusesCleanly recordTripLocation
  simp only [↓Program.throw_seq]
  cases requester.id with
  | none => exact Program.outcome_throw hsame
  | some id =>
    refine outcome_findById ?_
    cases hr : w.rides.find rid with
    | none => exact Program.outcome_throw hsame
    | some r =>
      obtain rfl : r.id = rid := Table.key_of_find hr
      have haccess : (ensureRequesterCanAccessRide r requester).Outcome (handle env) w (fun _ v => w = v)
          fun _ v => w.SameTrips v :=
        ensureAccess_refuses.mono (fun _ _ h => h) fun _ _ h => h ▸ hsame
      refine haccess.bind ?_
      rintro - _ rfl
      have hstored : w.rides.find r.id ≠ none := by simp [hr]
      refine outcome_guard hsame fun _ => outcome_guard hsame fun _ => ?_
      rcases requester.role with _ | _ | _
      · exact Program.outcome_throw hsame
      · exact Steady.outcome hstored
          ((steady_recordLocation r.id).bind fun _ _ => steady_pure trivial)
      · exact outcome_guard hsame fun _ => Steady.outcome hstored
          ((steady_recordLocation r.id).bind fun _ _ => steady_pure trivial)

theorem recordLocation_tracks {rid clientId : Id} {role : EClientType} {location : ParticipantLocation} :
    (recordLocation rid clientId role location).Returns (handle env) w
      fun _ v => (v.tripEvents rid).length = (w.tripEvents rid).length + 1 := by
  unfold recordLocation getState
  simp only [bind_assoc, pure_bind]
  refine outcome_call (c := .getTripState rid) rfl ?_
  have hdistance : (driverDistance ((w.tripStates rid).getD (.initial rid)) role location).Returns (handle env) w
      fun _ v => v.tripEvents = w.tripEvents := by
    unfold driverDistance
    split
    · exact outcome_call (c := .geodist _ _) rfl (Program.outcome_ret rfl)
    · exact Program.outcome_ret rfl
  refine hdistance.bind fun delta v hv => ?_
  refine outcome_call (c := .setTripState _ _) rfl (outcome_call (c := .addActiveRide _) rfl
    (outcome_call (c := .pushTripEvent _ _) rfl (outcome_call (c := .expireTripEvents _) rfl
    (Program.outcome_ret ?_))))
  simp [hv]

end Refusals

section Complete

variable {env : Environment} {w : World} {rid : Id} {requester : RequestingClient} {location : ParticipantLocation}
  {discountAmount : Option JsNumber}

/-- The completion passes all its checks, and then the discount is refused for the fare. -/
def World.DiscountRefused (env : Environment) (w : World) : LifecycleOp → Prop
  | .completeRide rid requester location discountAmount => ∃ r rider,
      w.rides.find rid = some r ∧ (requester.id ≠ none ∧ r.driverId = requester.id) ∧
      r.status ∉ [ERideStatus.canceled, .completed] ∧ w.riderLocation rid = some rider ∧
      (∀ p ∈ completionProbes w r location rider, p.Passes env env.tripCompletionProximityMeters) ∧
      ∃ e, env.fareEngine.calculateFare (billedDistanceKm r (w.drivenMeters env rid location)) discountAmount = .error e
  | _ => False

/-- What is left of a completion once its guards are passed. -/
theorem completeRide_guarded {r : Ride} {d : Id} (hr : w.rides.find r.id = some r) (hid : requester.id = some d)
    (hd : r.driverId = some d) (hs : r.status ∉ [ERideStatus.canceled, .completed]) :
    (completeRide env r.id requester location discountAmount).run (handle env) w =
      (do ensureAtDropoff env r location
          let _ ← recordLocation r.id d .driver location
          let meters ← getTotalDistanceMeters r.id
          let fare ← Program.ofExcept (env.fareEngine.calculateFare (billedDistanceKm r meters) discountAmount)
          settleRide r fare : Service Ride).run (handle env) w := by
  obtain ⟨hcanceled, hcompleted⟩ : r.status ≠ .canceled ∧ r.status ≠ .completed := by simpa using hs
  unfold completeRide
  simp only [↓Program.throw_seq, hid]
  rw [Program.run_bind_ok _ (run_findById env r.id w), hr]
  simp only [hd, hcanceled, hcompleted, ne_eq, not_true_eq_false, if_false]

theorem completeRide_refuses (hdiscount : ¬ w.DiscountRefused env (.completeRide rid requester location discountAmount)) :
    RefusesCleanly env w (completeRide env rid requester location discountAmount) := by
  have hsame := w.sameTrips_refl
  by_cases hopen : ∃ r d, w.rides.find rid = some r ∧ requester.id = some d ∧ r.driverId = some d ∧
      r.status ∉ [ERideStatus.canceled, .completed]
  swap
  · unfold RefusesCleanly completeRide
    simp only [↓Program.throw_seq]
    cases hid : requester.id with
    | none => exact Program.outcome_throw hsame
    | some d =>
      refine outcome_findById ?_
      cases hr : w.rides.find rid with
      | none => exact Program.outcome_throw hsame
      | some r =>
        refine outcome_guard hsame fun hd => outcome_guard hsame fun hcanceled => outcome_guard hsame fun hcompleted => ?_
        exact absurd ⟨r, d, hr, hid, not_not.mp hd, by simp [hcanceled, hcompleted]⟩ hopen
  obtain ⟨r, d, hr, hid, hd, hs⟩ := hopen
  obtain rfl : r.id = rid := Table.key_of_find hr
  unfold RefusesCleanly Program.Outcome
  rw [completeRide_guarded hr hid hd hs]
  have hchecked : (ensureAtDropoff env r location).Outcome (handle env) w (fun _ u => w.SameTrips u)
      fun _ u => w.SameTrips u := asks_atDropoff.outcome (fun c hc u hu => hc.sameTrips env hu) hsame
  rcases run_ensureAtDropoff_cases env w r location with ⟨rider, hl, hpass, hrun⟩ | ⟨-, e, v, hrun, -⟩
  swap
  · rw [Program.run_bind_error _ hrun]
    exact hchecked.error hrun
  obtain ⟨a, u, hrecord, hu, -, htotal⟩ := run_recordDriver env w r.id d location
  rw [Program.run_bind_ok _ hrun, Program.run_bind_ok _ hrecord, Program.run_bind_ok _ htotal]
  cases hf : env.fareEngine.calculateFare (billedDistanceKm r (w.drivenMeters env r.id location)) discountAmount with
  | error e =>
    have hrefused : w.DiscountRefused env (.completeRide r.id requester location discountAmount) :=
      ⟨r, rider, hr, ⟨by simp [hid], hd.trans hid.symm⟩, hs, hl, hpass, e, hf⟩
    exact absurd hrefused hdiscount
  | ok fare =>
    have hstored : u.rides.find r.id ≠ none := by simp [hu.1, hr]
    exact (steady_settleRide fare).outcome hstored

/-- A refused discount leaves the driver's location recorded. -/
theorem completeRide_spoils (hdiscount : w.DiscountRefused env (.completeRide rid requester location discountAmount)) :
    ∃ e v, (completeRide env rid requester location discountAmount).run (handle env) w = (.error e, v) ∧
      ¬ w.SameTrips v := by
  obtain ⟨r, rider, hr, ⟨hsome, hdriver⟩, hs, hl, hpass, e, hf⟩ := hdiscount
  obtain rfl : r.id = rid := Table.key_of_find hr
  obtain ⟨d, hid⟩ := Option.ne_none_iff_exists'.mp hsome
  have hd : r.driverId = some d := hdriver.trans hid
  rcases run_ensureAtDropoff_cases env w r location with ⟨-, -, -, hrun⟩ | ⟨hno, -⟩
  swap
  · exact absurd hpass (hno rider hl)
  obtain ⟨a, u, hrecord, -, -, htotal⟩ := run_recordDriver env w r.id d location
  have htracked : (u.tripEvents r.id).length = (w.tripEvents r.id).length + 1 := by
    have hgrown : (recordLocation r.id d .driver location).Returns (handle env) { w with answered := w.answered + 3 }
        fun _ v => (v.tripEvents r.id).length = (w.tripEvents r.id).length + 1 := recordLocation_tracks
    exact hgrown.ok hrecord
  refine ⟨e, u, ?_, fun hsame => ?_⟩
  · rw [completeRide_guarded hr hid hd hs, Program.run_bind_ok _ hrun, Program.run_bind_ok _ hrecord,
      Program.run_bind_ok _ htotal, hf]
    rfl
  · rw [hsame.tripEvents] at htracked
    omega

end Complete

/-- If the operation throws, it has changed nothing but, refused as a late acceptance, the caller's candidate. -/
def LifecycleOp.LeavesTrips (env : Environment) (w : World) (op : LifecycleOp) : Prop :=
  ∀ e v, (op.program env).run (handle env) w = (.error e, v) →
    w.SameTrips v ∨ ∃ rid d now, op = .acceptRideByDriver rid d now ∧ w.SupersedesCaller rid d v

section Operations

variable {α : Type} {env : Environment} {w : World}

theorem run_discard_error {p : Service α} {e : ServiceError} {v : World}
    (hrun : (p >>= fun _ => pure ()).run (handle env) w = (.error e, v)) : p.run (handle env) w = (.error e, v) := by
  rw [Program.run_bind] at hrun
  rcases hp : p.run (handle env) w with ⟨x | a, u⟩ <;> rw [hp] at hrun
  · obtain ⟨rfl, rfl⟩ : x = e ∧ u = v := by simpa using hrun
    rfl
  · cases hrun

end Operations

end NebLite
