import NebLite.Tracking.Batches
import NebLite.Payment.LedgerRuns

/-! Which rides stay in the set of tracked rides. A flush removes a ride whose
state bears the mark of its completion, and no other. -/

namespace NebLite

open Atomic

section Resembles

/-- The two differ in the events at most, which the tracking service keeps itself. -/
def World.Resembles (u v : World) : Prop := ∃ events, v = { u with tripEvents := events }

variable {env : Environment} {u v : World}

theorem World.Resembles.refl (u : World) : u.Resembles u := ⟨u.tripEvents, rfl⟩

theorem resembles_insertCandidates {rid : Id} {now : Time} {drivers : List NearbyDriver}
    (e : Id → List TrackEvent) (u : World) :
    World.insertCandidates rid now { u with tripEvents := e } drivers =
      (World.insertCandidates rid now u drivers).map fun p => ({ p.1 with tripEvents := e }, p.2) := by
  induction drivers generalizing u with
  | nil => rfl
  | cons driver drivers ih =>
    simp only [World.insertCandidates]
    cases driver.driverId with
    | none => rfl
    | some d =>
      have hrow : ({ u with tripEvents := e } : World).insertCandidate rid now d driver.distanceMeters =
          ({ (u.insertCandidate rid now d driver.distanceMeters).1 with tripEvents := e },
            (u.insertCandidate rid now d driver.distanceMeters).2) := rfl
      simp only [hrow, ih]
      cases World.insertCandidates rid now (u.insertCandidate rid now d driver.distanceMeters).1 drivers <;> rfl

theorem resembles_persistDetail (e : Id → List TrackEvent) (u : World) (d : RidePaymentDetail) :
    ({ u with tripEvents := e } : World).persistDetail d =
      ((u.persistDetail d).1, { (u.persistDetail d).2 with tripEvents := e }) := by
  have hfind : ({ u with tripEvents := e } : World).findDetailByRide d.rideId = u.findDetailByRide d.rideId := rfl
  unfold World.persistDetail
  rw [hfind]
  cases u.findDetailByRide d.rideId <;> rfl

theorem resembles_paymentState (e : Id → List TrackEvent) (u : World) (rid : Id)
    (s : Option ERidePaymentStatus) (url : Option String) :
    ({ u with tripEvents := e } : World).updatePaymentState rid s url =
      ((u.updatePaymentState rid s url).1, { (u.updatePaymentState rid s url).2 with tripEvents := e }) := by
  simp only [World.updatePaymentState]
  cases u.rides.find rid <;> rfl

/-- No call reads the events. -/
theorem handle_resembles (c : Call) (h : u.Resembles v) :
    (handle env c v).1 = (handle env c u).1 ∧ (handle env c u).2.Resembles (handle env c v).2 := by
  obtain ⟨e, rfl⟩ := h
  cases c with
  | pushTripEvent => exact ⟨rfl, _, rfl⟩
  | updateRideRow m =>
    simp only [handle, World.updateRideRow]
    split <;> exact ⟨rfl, e, rfl⟩
  | claimDriver rideId d =>
    simp only [handle, World.claimDriver]
    split
    · exact ⟨rfl, e, rfl⟩
    split <;> exact ⟨rfl, e, rfl⟩
  | insertRide options =>
    simp only [handle, World.insertRide]
    let opened : World := { u with rides := u.rides.insert (World.newRide options.ride options.now) fun _ => rfl }
    have hinserted :
        World.insertCandidates u.rides.nextKey options.now { opened with tripEvents := e } options.nearbyDrivers =
          (World.insertCandidates u.rides.nextKey options.now opened options.nearbyDrivers).map
            fun p => ({ p.1 with tripEvents := e }, p.2) :=
      resembles_insertCandidates e opened
    simp only [opened] at hinserted
    rw [hinserted]
    cases World.insertCandidates u.rides.nextKey options.now { u with
      rides := u.rides.insert (World.newRide options.ride options.now) fun _ => rfl } options.nearbyDrivers with
    | error => exact ⟨rfl, e, rfl⟩
    | ok => exact ⟨rfl, e, rfl⟩
  | saveCandidate n =>
    simp only [handle, World.saveCandidate]
    split <;> exact ⟨trivial, e, rfl⟩
  | updatePaymentState rideId s url =>
    simp only [handle, resembles_paymentState]
    exact ⟨rfl, e, rfl⟩
  | saveDetail d =>
    simp only [handle, resembles_persistDetail]
    exact ⟨rfl, e, rfl⟩
  | saveDetailWithRideUpdate d x y now =>
    simp only [handle, World.saveDetailWithRideUpdate, resembles_persistDetail]
    cases x with
    | none => cases y <;> exact ⟨rfl, e, rfl⟩
    | some x =>
      simp only [World.applyRideUpdate, resembles_paymentState]
      cases y <;> exact ⟨rfl, e, rfl⟩
  | saveDetailAndOutbox d input =>
    simp only [handle, World.saveDetailAndOutbox, resembles_persistDetail]
    exact ⟨rfl, e, rfl⟩
  | waitPaymentJob id => exact ⟨rfl, e, rfl⟩
  | takePaymentJob id =>
    simp only [handle, World.takePaymentJob]
    split
    · split <;> exact ⟨rfl, e, rfl⟩
    · exact ⟨rfl, e, rfl⟩
  | finishPaymentJob id ok =>
    simp only [handle, World.finishPaymentJob]
    split <;> exact ⟨trivial, e, rfl⟩
  | _ => exact ⟨rfl, e, rfl⟩

/-- A program of the ride operations does to the shared state what it does there without
the tracking service. -/
theorem tracked_resembles {α : Type} (p : Service α) {w : TrackingWorld} (h : u.Resembles w.world) :
    ((Tracked p).run (trackingHandle env) w).1 = (p.run (handle env) u).1 ∧
      (p.run (handle env) u).2.Resembles ((Tracked p).run (trackingHandle env) w).2.world := by
  induction p generalizing u w with
  | ret a => exact ⟨rfl, h⟩
  | throw e => exact ⟨rfl, h⟩
  | call op next ih =>
    have hreply : ((trackingHandle env (.service op) w).1.map fun a => a) = (handle env op u).1 := by
      have hsame : (trackingHandle env (.service op) w).1 = (handle env op u).1 := by
        have hanswer : (handle env op w.world).1 = (handle env op u).1 := (handle_resembles op h).1
        cases op <;> exact hanswer
      rw [hsame]
      cases (handle env op u).1 <;> rfl
    have hworld : (handle env op u).2.Resembles (trackingHandle env (.service op) w).2.world := by
      have hnext : (handle env op u).2.Resembles (handle env op w.world).2 := (handle_resembles op h).2
      cases op with
      | pushTripEvent r event =>
        obtain ⟨e, he⟩ := h
        refine ⟨e, ?_⟩
        change w.world = _
        rw [he]
        rfl
      | _ => exact hnext
    have hstep : (Tracked (.call op next)).run (trackingHandle env) w =
        (Tracked (next ((trackingHandle env (.service op) w).1.map fun a => a))).run (trackingHandle env)
          (trackingHandle env (.service op) w).2 := rfl
    rw [hstep, hreply]
    exact ih _ hworld

end Resembles

/-- The state of the ride bears the mark of its completion. -/
def World.marked (w : World) (rid : Id) : Bool := (w.tripStates rid).any (·.completed)

/-- Every finished ride that is still tracked is marked. -/
def World.Marked (w : World) : Prop :=
  ∀ rid ∈ w.activeRides, ∀ s, w.statusOf rid = some s → s.Terminal → w.marked rid = true

/-- The cancellation finishes a ride that is tracked and not marked. -/
def LifecycleOp.CancelsTracked (w : World) : LifecycleOp → Prop
  | cancelRide rid requester _ _ => rid ∈ w.activeRides ∧ w.marked rid = false ∧
      ∃ r ∈ w.rides.find rid, requester.id = some r.riderId ∧
        r.status ∈ [.requested, .candidatesComputed, .assigned, .accepted, .enroute]
  | _ => False

instance (w : World) (op : LifecycleOp) : Decidable (op.CancelsTracked w) := by
  unfold LifecycleOp.CancelsTracked
  split <;> infer_instance

section Frames

variable {env : Environment} {lop : LifecycleOp} {w v : World} {k rid : Id}

/-- What is tracked of ride `k` is the same. -/
structure SameTrip (k : Id) (w v : World) : Prop where
  state : v.tripStates k = w.tripStates k
  active : k ∈ v.activeRides ↔ k ∈ w.activeRides

theorem SameTrip.refl (k : Id) (w : World) : SameTrip k w w := ⟨rfl, Iff.rfl⟩

theorem SameTrip.trans {u : World} (h : SameTrip k w v) (h' : SameTrip k v u) : SameTrip k w u :=
  ⟨h'.state.trans h.state, h'.active.trans h.active⟩

theorem SameTrip.marked (h : SameTrip k w v) : v.marked k = w.marked k := by
  unfold World.marked
  rw [h.state]

/-- Calls that leave the tracked trips alone. -/
def Call.Untracked : Call → Prop
  | .setTripState _ _ | .addActiveRide _ => False
  | _ => True

theorem sameTrip_untracked (env : Environment) {c : Call} (h : c.Untracked) (k : Id) (w : World) :
    SameTrip k w (handle env c w).2 := by
  have hstate (v : World) (rid : Id) (s : Option ERidePaymentStatus) (url : Option String) :
      SameTrip k v (v.updatePaymentState rid s url).2 := by
    unfold World.updatePaymentState
    split <;> exact ⟨rfl, Iff.rfl⟩
  have hdetail (d : RidePaymentDetail) : SameTrip k w (w.persistDetail d).2 := by
    unfold World.persistDetail
    split <;> exact ⟨rfl, Iff.rfl⟩
  cases c with
  | setTripState | addActiveRide => exact h.elim
  | updateRideRow m =>
    simp only [handle, World.updateRideRow]
    split <;> exact ⟨rfl, Iff.rfl⟩
  | claimDriver rideId d =>
    simp only [handle, World.claimDriver]
    split
    · exact ⟨rfl, Iff.rfl⟩
    split <;> exact ⟨rfl, Iff.rfl⟩
  | insertRide options =>
    obtain hkept | ⟨filled, new, -, -, hinserted⟩ := insertRide_cases w options
    · change SameTrip k w (w.insertRide options).2
      rw [hkept]
      exact ⟨rfl, Iff.rfl⟩
    · change SameTrip k w (w.insertRide options).2
      rw [hinserted]
      exact ⟨rfl, Iff.rfl⟩
  | saveCandidate n =>
    simp only [handle, World.saveCandidate]
    split <;> exact ⟨rfl, Iff.rfl⟩
  | updatePaymentState rideId s url => exact hstate w rideId s url
  | saveDetail d => exact hdetail d
  | saveDetailWithRideUpdate d x y now =>
    cases x with
    | none => cases y with
      | none => exact hdetail d
      | some y => exact (hdetail d).trans ⟨rfl, Iff.rfl⟩
    | some x =>
      have hupdated : SameTrip k w ((w.persistDetail d).2.applyRideUpdate x) :=
        (hdetail d).trans (hstate _ x.rideId x.paymentStatus x.paymentUrl)
      cases y with
      | none => exact hupdated
      | some y => exact hupdated.trans ⟨rfl, Iff.rfl⟩
  | saveDetailAndOutbox d input => exact (hdetail d).trans ⟨rfl, Iff.rfl⟩
  | takePaymentJob id =>
    simp only [handle, World.takePaymentJob]
    split
    · split <;> exact ⟨rfl, Iff.rfl⟩
    · exact ⟨rfl, Iff.rfl⟩
  | finishPaymentJob id ok =>
    simp only [handle, World.finishPaymentJob]
    split <;> exact ⟨rfl, Iff.rfl⟩
  | _ => exact ⟨rfl, Iff.rfl⟩

/-- A call for another ride leaves the trip of ride `k` alone. -/
theorem sameTrip_attends (env : Environment) {j : Id} (hj : j ≠ k) {c : Call} (h : c.Attends j) (w : World) :
    SameTrip k w (handle env c w).2 := by
  cases c with
  | setTripState r state =>
    obtain rfl : r = j := h
    exact ⟨Function.update_of_ne (Ne.symm hj) _ _, Iff.rfl⟩
  | addActiveRide r =>
    obtain rfl : r = j := h
    refine ⟨rfl, ?_⟩
    simp only [handle]
    split
    · exact Iff.rfl
    · simp [Ne.symm hj]
  | removeRouteJob | getTripState | pushTripEvent | expireTripEvents | enqueueFlushRide | emit | geodist =>
    exact ⟨rfl, Iff.rfl⟩
  | _ => exact h.elim

/-- An operation tracks its own ride only. -/
theorem sameTrip_step (env : Environment) (hk : lop.ride ≠ some k) (w : World) :
    SameTrip k w (lop.step env w) := by
  have helsewhere (c : Call) (h : ∀ j, lop.ride.getD j = j → c.Attends j) : ∃ j, j ≠ k ∧ c.Attends j := by
    cases hride : lop.ride with
    | none =>
      rw [hride] at h
      have hother : k + 1 ≠ k := Nat.succ_ne_self k
      exact ⟨k + 1, hother, h (k + 1) rfl⟩
    | some j =>
      rw [hride] at h hk
      have hother : j ≠ k := fun he => hk (he ▸ rfl)
      exact ⟨j, hother, h j rfl⟩
  have hmove (t : Trail) (c : Call) (v : World) (t' : Trail) (hv : SameTrip k w v)
      (hm : (trailOutline env lop.Tends).move t c v t') : SameTrip k w (handle env c v).2 := by
    obtain ⟨-, htends⟩ := hm
    refine hv.trans ?_
    by_cases hc : c.Untracked
    · exact sameTrip_untracked env hc k v
    have hattends (h : ∀ j, lop.ride.getD j = j → c.Attends j) : SameTrip k v (handle env c v).2 := by
      obtain ⟨j, hj, ha⟩ := helsewhere c h
      exact sameTrip_attends env hj ha v
    cases c with
    | setTripState | addActiveRide => exact hattends htends
    | _ => exact absurd trivial hc
  obtain ⟨-, -, hend⟩ := (lop.trails env).run_keeps (fun _ _ _ => trivial) hmove (SameTrip.refl k w)
  exact hend

end Frames

section Marks

variable {env : Environment} {w v : World} {rid k : Id}

theorem untracked_updateRide {changes : RideChanges} : (updateRide changes).Calls Call.Untracked := by
  unfold updateRide
  refine Program.Calls.bind (calls_call trivial) fun o => ?_
  cases o with
  | none => trivial
  | some current =>
    simp only [↓Program.throw_seq]
    refine Program.Calls.bind (calls_call trivial) fun rows => ?_
    split
    · trivial
    refine Program.Calls.bind (calls_call trivial) fun o => ?_
    cases o <;> trivial

theorem untracked_transition {allowed : List ERideStatus} {next : ERideStatus} {context : Option String} :
    (transitionRideStatus rid allowed next context).Calls Call.Untracked := by
  unfold transitionRideStatus
  refine Program.Calls.bind (calls_call trivial) fun o => ?_
  cases o with
  | none => trivial
  | some r =>
    simp only
    split
    · trivial
    split
    · trivial
    refine untracked_updateRide.bind fun saved => ?_
    exact Program.Calls.bind (calls_call trivial) fun _ => trivial

theorem untracked_both {ride riderEvent driverEvent riderMessage driverMessage extras} :
    (notifyBoth ride riderEvent driverEvent riderMessage driverMessage extras).Calls Call.Untracked := by
  unfold notifyBoth
  split
  · exact calls_call trivial
  · exact Program.Calls.bind (calls_call trivial) fun _ => calls_call trivial

theorem untracked_cancelRide {requester : RequestingClient} {reason : Option String} {now : Time} :
    (cancelRide rid requester reason now).Calls Call.Untracked := by
  unfold cancelRide
  refine Program.Calls.bind (calls_call trivial) fun o => ?_
  cases o with
  | none => trivial
  | some r =>
    simp only [↓Program.throw_seq]
    split
    · trivial
    split
    · trivial
    split
    · trivial
    refine Program.Calls.bind (calls_call trivial) fun _ => ?_
    refine untracked_transition.bind fun updated => ?_
    refine untracked_updateRide.bind fun _ => ?_
    refine Program.Calls.bind (calls_call trivial) fun candidates => ?_
    have hend (u : Ride) : (do let refreshed ← findById u.id; return refreshed.getD u : Service Ride).Calls
        Call.Untracked := Program.Calls.bind (calls_call trivial) fun _ => trivial
    split
    · refine Program.Calls.bind (calls_forM (fun _ => calls_call trivial) _) fun _ => ?_
      exact Program.Calls.bind (calls_forM (fun _ => calls_call trivial) _) fun _ => hend _
    · exact hend _

theorem untracked_sameTrip {α : Type} {p : Service α} (hp : p.Calls Call.Untracked) (k : Id) (w : World) :
    SameTrip k w (p.run (handle env) w).2 :=
  hp.keeps (SameTrip.refl k) (fun _ _ _ h h' => h.trans h') (fun _ hc v => sameTrip_untracked env hc k v) w

/-- After `markRideCompleted` the state bears the mark. -/
theorem run_markRideCompleted (env : Environment) (rid : Id) (w : World) :
    ∃ v, (markRideCompleted rid).run (handle env) w = (.ok (), v) ∧ v.marked rid = true ∧ SameRows w v := by
  unfold markRideCompleted
  have hread : (getState rid).run (handle env) w = (.ok ((w.tripStates rid).getD (.initial rid)), w) := rfl
  rw [Program.run_bind_ok _ hread]
  split
  · refine ⟨_, rfl, ?_, rfl, rfl⟩
    show ((Function.update w.tripStates rid _) rid).any (·.completed) = true
    rw [Function.update_self]
    rfl
  · next hcompleted =>
    refine ⟨w, rfl, ?_, rfl, rfl⟩
    unfold World.marked
    cases hstate : w.tripStates rid with
    | none => simp [hstate, TripTrackState.initial] at hcompleted
    | some state => simpa [hstate] using hcompleted

/-- A settlement that changes the status marks the state before it ends. -/
theorem settleRide_marked {r : Ride} (hr : w.rides.find rid = some r) (fare : FareCalculationResult) :
    ((settleRide r fare).run (handle env) w).2.marked rid = true := by
  obtain rfl : r.id = rid := Table.key_of_find hr
  obtain ⟨ride, changed, u, ht, hf, -⟩ := transition_becomes env (World.booking_of_find hr)
    [.enroute, .accepted, .assigned, .tripStarted] .completed (some "Driver marked the ride as completed")
  obtain ⟨x, hx, hmarked, -⟩ := run_markRideCompleted env r.id u
  unfold settleRide
  rw [Program.run_bind_ok _ ht]
  simp only
  rw [Program.run_bind_ok _ hx]
  rw [SameTrip.marked (@untracked_sameTrip env _ _ ?_ r.id x)]
  · exact hmarked
  refine untracked_updateRide.bind fun saved => ?_
  refine Program.Calls.bind (calls_call trivial) fun refreshed => ?_
  exact untracked_both.bind fun _ => trivial

/-- A completion leaves the rides alone or ends with the mark. -/
theorem completeRide_marked (w : World) (rid : Id) (requester : RequestingClient)
    (location : ParticipantLocation) (discount : Option JsNumber) :
    SameRows w ((completeRide env rid requester location discount).run (handle env) w).2 ∨
      ((completeRide env rid requester location discount).run (handle env) w).2.marked rid = true := by
  unfold completeRide
  simp only [↓Program.throw_seq]
  cases requester.id with
  | none => exact .inl (.refl w)
  | some d =>
    simp only
    rw [Program.run_bind_ok _ (run_findById env rid w)]
    cases hr : w.rides.find rid with
    | none => exact .inl (.refl w)
    | some r =>
      obtain rfl : r.id = rid := Table.key_of_find hr
      simp only
      split
      · exact .inl (.refl w)
      split
      · exact .inl (.refl w)
      split
      · exact .inl (.refl w)
      let P (u : World) : Prop := SameRows w u ∨ u.marked r.id = true
      refine probes_atDropoff.passes (P := P) (fun u hu => .inl hu) fun _ v hv => ?_
      refine probes_recordLocation.passes (P := P) (fun u hu => .inl (hv.trans hu)) fun _ u hu => ?_
      refine probes_getTotalDistance.passes (P := P) (fun x hx => .inl ((hv.trans hu).trans hx)) fun total x hx => ?_
      have hwx := (hv.trans hu).trans hx
      cases env.fareEngine.calculateFare (billedDistanceKm r total) discount with
      | error e => exact .inl hwx
      | ok fare =>
        have hrx : x.rides.find r.id = some r := by rw [hwx.1, hr]
        exact .inr (settleRide_marked hrx fare)

end Marks

section Endings

/-- The operation is one that can end a ride with the booking `b`. -/
def LifecycleOp.MayEnd (b : Booking) : LifecycleOp → Prop
  | cancelRide _ requester _ _ => requester.id = some b.rider ∧
      b.status ∈ [.requested, .candidatesComputed, .assigned, .accepted, .enroute]
  | completeRide .. => True
  | _ => False

variable {b : Booking}

theorem transition_terminal {allowed : List ERideStatus} {next : ERideStatus} (hn : ¬ next.Terminal)
    (h : (b.transition allowed next).status.Terminal) : b.status.Terminal := by
  rw [Booking.transition_status] at h
  split at h
  · exact (hn h).elim
  · exact h

/-- Only a cancellation and a completion end a ride. -/
theorem LifecycleOp.effect_terminal {op : LifecycleOp} {arrived : Bool}
    (h : (op.effect arrived b).status.Terminal) : b.status.Terminal ∨ op.MayEnd b := by
  cases op with
  | createRide | recordTripLocation => exact .inl h
  | acceptRideByDriver _ d =>
    left
    change (b.accept d).status.Terminal at h
    unfold Booking.accept at h
    split_ifs at h
    · exact h
    · exact h
    · exact h
    · have hclaimed : ({ b with driver := some d }.answer d .accepted).status.Terminal := by
        have hassigned : ¬ ERideStatus.assigned.Terminal := by decide
        have haccepted : ¬ ERideStatus.accepted.Terminal := by decide
        exact transition_terminal hassigned (transition_terminal haccepted h)
      exact hclaimed
    · exact h
  | rejectRideByDriver _ d =>
    left
    change (b.driverReject d).status.Terminal at h
    unfold Booking.driverReject at h
    split_ifs at h
    · exact h
    · exact h
    · exact transition_terminal (b := { b.answer d .declined with driver := none }) (by decide) h
    · exact h
  | confirmDriverAcceptance _ rider =>
    left
    change (b.confirm rider).status.Terminal at h
    unfold Booking.confirm at h
    split at h
    · exact h
    split_ifs at h
    · exact h
    · exact h
    · exact transition_terminal (by decide) h
  | rejectDriverAcceptance _ rider =>
    left
    change (b.riderReject rider).status.Terminal at h
    unfold Booking.riderReject at h
    split at h
    · exact h
    · next d _ =>
      split_ifs at h
      · exact h
      · exact h
      · exact transition_terminal (b := { b.answer d .canceled with driver := none }) (by decide) h
  | startRide _ d =>
    left
    change (b.start d arrived).status.Terminal at h
    unfold Booking.start at h
    split at h
    · exact transition_terminal (by decide) h
    · exact h
  | completeRide => exact .inr trivial
  | cancelRide _ requester =>
    change (b.cancel requester.id).status.Terminal at h
    unfold Booking.cancel at h
    split at h
    · exact .inl h
    · next hfree =>
      rw [not_or] at hfree
      have hrider : some b.rider = requester.id := not_not.mp hfree.1
      by_cases hs : b.status ∈ [ERideStatus.requested, .candidatesComputed, .assigned, .accepted, .enroute]
      · exact .inr ⟨hrider.symm, hs⟩
      · left
        simpa [Booking.transition_status, hs] using h

end Endings

section Lifecycle

variable {env : Environment} {w : World} {k : Id}

theorem statusOf_eq_booking (w : World) (rid : Id) : w.statusOf rid = (w.booking rid).map (·.status) := by
  unfold World.statusOf World.booking
  rw [Option.map_map]
  rfl

/-- A new ride is not finished. -/
theorem createRide_terminal (env : Environment) {rider : Option Id} {payload : CreateRideInput} {now : Time} {s : ERideStatus}
    (h : ((createRide env rider payload now).run (handle env) w).2.statusOf k = some s) (hs : s.Terminal) :
    w.statusOf k = some s := by
  unfold World.statusOf at h ⊢
  rcases createRide_inserts env w rider payload now with hrows | ⟨v, u, options, created, n, hv, -, hstatus, -, hi, hu⟩
  · rwa [hrows.1] at h
  · obtain ⟨-, hfind, -⟩ := insertRide_rows hi
    rw [hu.1, hfind] at h
    split at h
    · have hnew : options.ride.status = s := Option.some.inj h
      rw [← hnew, hstatus] at hs
      exact absurd hs (by decide)
    · rwa [hv.1] at h

/-- A ride that an operation is not about is finished after it only if it was before. -/
theorem LifecycleOp.others_terminal {op : LifecycleOp} {s : ERideStatus} (hk : op.ride ≠ some k)
    (h : (op.step env w).statusOf k = some s) (hs : s.Terminal) : w.statusOf k = some s := by
  cases hride : op.ride with
  | none =>
    cases op with
    | createRide rider payload now =>
      rw [step, program, run_discard] at h
      exact createRide_terminal env h hs
    | _ => cases hride
  | some j =>
    obtain ⟨arrived, hbecomes⟩ := op.step_becomes env w hride
    have hne : k ≠ j := fun he => hk (he ▸ hride)
    rw [statusOf_eq_booking, hbecomes.others k hne, ← statusOf_eq_booking] at h
    exact h

/-- A step keeps every tracked finished ride marked, unless it cancels a ride that is tracked. -/
theorem World.Marked.step (h : w.Marked) {op : LifecycleOp} (hop : ¬ op.CancelsTracked w) :
    (op.step env w).Marked := by
  intro k hk s hs hterminal
  by_cases hride : op.ride = some k
  swap
  · have htrip := sameTrip_step env hride w
    rw [htrip.marked]
    exact h k (htrip.active.mp hk) s (op.others_terminal hride hs hterminal) hterminal
  obtain ⟨arrived, hbecomes⟩ := op.step_becomes env w hride
  rw [statusOf_eq_booking, hbecomes.booked] at hs
  obtain ⟨b', hb', rfl⟩ := Option.map_eq_some_iff.mp hs
  obtain ⟨b, hb, rfl⟩ := Option.map_eq_some_iff.mp hb'
  have hstatus : w.statusOf k = some b.status := by rw [statusOf_eq_booking, hb]; rfl
  by_cases hended : b.status.Terminal
  · obtain ⟨r, hr, hrs⟩ := Option.map_eq_some_iff.mp hstatus
    have hrests : op.step env w = w := rests_terminal hr (hrs ▸ hended) hride
    rw [hrests] at hk ⊢
    exact h k hk b.status hstatus hended
  have hends := op.effect_terminal hterminal |>.resolve_left hended
  cases op with
  | cancelRide rid requester reason now =>
    obtain rfl : rid = k := Option.some.inj hride
    have htrip : SameTrip rid w ((LifecycleOp.cancelRide rid requester reason now).step env w) := by
      rw [LifecycleOp.step, LifecycleOp.program, run_discard]
      exact untracked_sameTrip untracked_cancelRide rid w
    rw [htrip.marked]
    by_contra hmarked
    obtain ⟨r, hr, hrb⟩ := Option.map_eq_some_iff.mp hb
    have hcond : requester.id = some r.riderId ∧
        r.status ∈ [.requested, .candidatesComputed, .assigned, .accepted, .enroute] := by
      subst hrb
      exact hends
    exact hop ⟨htrip.active.mp hk, by simpa using hmarked, r, hr, hcond⟩
  | completeRide rid requester location discount =>
    obtain rfl : rid = k := Option.some.inj hride
    have hresult : SameRows w ((completeRide env rid requester location discount).run (handle env) w).2 ∨
        ((completeRide env rid requester location discount).run (handle env) w).2.marked rid = true :=
      completeRide_marked w rid requester location discount
    rw [← run_discard] at hresult
    change SameRows w ((LifecycleOp.completeRide rid requester location discount).step env w) ∨ _ at hresult
    rcases hresult with hrows | hmarked
    · have hsame : ((LifecycleOp.completeRide rid requester location discount).step env w).statusOf rid = w.statusOf rid := by
        unfold World.statusOf
        rw [hrows.1]
      rw [statusOf_eq_booking, hbecomes.booked, hb, hstatus] at hsame
      exact (hended (Option.some.inj hsame ▸ hterminal)).elim
    · exact hmarked
  | _ => exact hends.elim

end Lifecycle

end NebLite
