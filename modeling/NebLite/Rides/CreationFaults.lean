import NebLite.Rides.Lifecycle
import NebLite.Atomic.Transactions

/-! The creation of a ride with its queue calls and the statements of its transaction
one by one, of which one may fail. What runs side by side is run in the order of the
source. -/

namespace NebLite

open Atomic

/-- `service (.requestRoute ..)` is the answer of the job, and `service (.emit n)` the PUBLISH of `n`. -/
inductive CreationCall where
  | service (c : Call)
  | removeRouteJob
  | waitUntilReady
  | addRouteJob (pickup dropoff : Coordinate)
  | closeQueueEvents
  | connect
  | insertRide (ride : RideInsertAttributes) (now : Time)
  | insertCandidate (rideId : Id) (driver : NearbyDriver) (now : Time)
  | insertHistory (rideId : Id) (entry : RideHistoryCreationInput)

abbrev CreationCall.Answer : CreationCall → Type
  | service c => c.Answer
  | insertRide _ _ => List Id
  | insertCandidate _ _ _ => RideDriverCandidate
  | _ => Unit

def creationHandle (env : Environment) : Handler CreationCall CreationCall.Answer ServiceError World
  | .service c, w => handle env c w
  | .insertRide ride now, w =>
    (.ok [w.rides.nextKey], { w with rides := w.rides.insert (World.newRide ride now) fun _ => rfl })
  | .insertCandidate rideId driver now, w =>
    match driver.driverId with
    | none => (.error (.error "invalid input syntax for type bigint: \"\""), w)
    | some driverId =>
      (.ok (w.insertCandidate rideId now driverId driver.distanceMeters).2,
        (w.insertCandidate rideId now driverId driver.distanceMeters).1)
  | .insertHistory rideId entry, w =>
    (.ok (), { w with history := w.history ++ [⟨rideId, entry.fromStatus, entry.toStatus, entry.context⟩] })
  | .removeRouteJob, w | .waitUntilReady, w | .addRouteJob _ _, w | .closeQueueEvents, w | .connect, w => (.ok (), w)

abbrev CreationService (α : Type) :=
  Program (Command CreationCall) (Command.Answer CreationCall.Answer) ServiceError α

abbrev CreationQuery (α : Type) := Program CreationCall CreationCall.Answer ServiceError α

namespace Creation

def statement (c : CreationCall) : CreationQuery c.Answer := .perform c

def issue (c : CreationCall) : CreationService c.Answer := .perform (.call c : Command CreationCall)

def removeRouteJob : CreationService Unit := (issue .removeRouteJob).catching fun _ => pure ()

def closeQueueEvents : CreationService Unit := (issue .closeQueueEvents).catching fun _ => pure ()

def createQueueEvents : CreationService Unit :=
  (issue .waitUntilReady).catching fun e => do
    closeQueueEvents
    throw e

def requestRouteEstimatesThroughQueue (pickup dropoff : Coordinate) : CreationService RouteEstimates := do
  removeRouteJob
  createQueueEvents
  Program.finalizing (do
    issue (.addRouteJob pickup dropoff)
    (issue (.service (.requestRoute pickup dropoff))).catching fun _ =>
      throw (.badRequest "Unable to calculate route distance at this time. Please try again later."))
    closeQueueEvents

/-- `createRideWithDetails` between START TRANSACTION and COMMIT. -/
def insertBooking (options : RideCreationOptions) :
    CreationQuery (Id × List RideDriverCandidate) := do
  let rideId :: _ ← statement (.insertRide options.ride options.now)
    | throw (.error "Failed to create ride")
  let candidates ← options.nearbyDrivers.mapM fun driver => statement (.insertCandidate rideId driver options.now)
  options.historyEntries.forM fun entry => statement (.insertHistory rideId entry)
  return (rideId, candidates)

def createRideWithDetails (options : RideCreationOptions) : CreationService (Ride × List RideDriverCandidate) :=
  Program.catching (do
    issue .connect
    let (rideId, candidates) ← (insertBooking options).committing
    let some ride ← issue (.service (.findRide rideId))
      | throw (.error "Failed to load ride after creation")
    return (ride, candidates))
    fun e => do
      if ← Program.perform (.isTransactionActive : Command CreationCall) then
        Program.perform (.rollback : Command CreationCall)
      throw e

/-- The publisher catches what a PUBLISH throws. -/
def notify (p : Service Unit) : CreationService Unit :=
  ((p.lift .service fun _ a => a).issued).catching fun _ => pure ()

def rideOptions (env : Environment) (riderId : Id) (payload : CreateRideInput) (now : Time)
    (routeEstimates : RouteEstimates) (nearbyDrivers : List NearbyDriver) : RideCreationOptions where
  ride :=
    { riderId, pickup := payload.pickup, dropoff := payload.dropoff, note := payload.note,
      status := .candidatesComputed,
      fareEstimated := some (env.fareEngine.calculateEstimatedFare routeEstimates.distanceKm),
      distanceEstimatedKm := some routeEstimates.distanceKm,
      durationEstimatedSeconds := some routeEstimates.durationSeconds }
  nearbyDrivers := nearbyDrivers
  historyEntries := buildInitialHistoryEntries nearbyDrivers.length
  now := now

def createRideBody (env : Environment) (riderId : Id) (payload : CreateRideInput) (now : Time) :
    CreationService (Ride × List RideDriverCandidate) := do
  let routeEstimates ← requestRouteEstimatesThroughQueue payload.pickup payload.dropoff
  let nearbyDrivers ← issue (.service (.nearbyDrivers payload.pickup (resolveCandidateLimit payload.maxDrivers)))
  if nearbyDrivers.length = 0 then
    throw noDriver
  let (createdRide, candidates) ←
    createRideWithDetails (rideOptions env riderId payload now routeEstimates nearbyDrivers)
  candidates.forM fun candidate => notify (notifyRideOffered createdRide candidate routeEstimates)
  notify (notifyRideMatched createdRide)
  return (createdRide, candidates)

def createRide (env : Environment) (riderId : Option Id) (payload : CreateRideInput) (now : Time) :
    CreationService (Ride × List RideDriverCandidate) := do
  let some riderId := riderId
    | throw (.badRequest "Rider id is required to create a ride")
  let existingRide ← issue (.service (.findUnfinishedRide riderId))
  if existingRide.isSome then
    throw (.conflict "You already have an active ride. Please finish or cancel it before creating a new one.")
  (createRideBody env riderId payload now).catching fun e => do
    removeRouteJob
    throw (rideCreationError e)

end Creation

open Creation

/-- The calls of the creation, of which those fail that `fails` names. -/
abbrev faultyCreation (env : Environment) (fails : ℕ → Option ServiceError) :
    Handler (Command CreationCall) (Command.Answer CreationCall.Answer) ServiceError (Counted (Session World)) :=
  faulty fails (Command.fallible fun _ => true) (command (creationHandle env))

section Transaction

variable {env : Environment} {w v : World} {options : RideCreationOptions} {rid : Id} {now : Time}

theorem straight_statement (c : CreationCall) : (statement c).Straight := Program.straight_perform c

theorem completes_statement {c : CreationCall} {a : c.Answer} (h : creationHandle env c w = (.ok a, v)) :
    (statement c).Completes (fun _ => true) (creationHandle env) w a v 1 := Program.completes_perform rfl h

theorem completes_insertCandidates {drivers : List NearbyDriver} {cs : List RideDriverCandidate}
    (h : World.insertCandidates rid now w drivers = .ok (v, cs)) :
    (drivers.mapM fun driver => statement (.insertCandidate rid driver now)).Completes (fun _ => true)
      (creationHandle env) w cs v drivers.length := by
  induction drivers generalizing w cs with
  | nil =>
    cases h
    exact Program.completes_ret []
  | cons driver drivers ih =>
    simp only [World.insertCandidates] at h
    cases hd : driver.driverId with
    | none => simp [hd] at h
    | some d =>
      simp only [hd] at h
      cases hi : World.insertCandidates rid now (w.insertCandidate rid now d driver.distanceMeters).1
        drivers with
      | error e => simp [hi, Except.map] at h
      | ok vc =>
        obtain ⟨u, rest⟩ := vc
        simp only [hi, Except.map, Except.ok.injEq, Prod.mk.injEq] at h
        obtain ⟨rfl, rfl⟩ := h
        have hcall : creationHandle env (.insertCandidate rid driver now) w =
            (.ok (w.insertCandidate rid now d driver.distanceMeters).2,
              (w.insertCandidate rid now d driver.distanceMeters).1) := by
          simp only [creationHandle, hd]
        have hall := (completes_statement hcall).bind (f := fun c => do
          let rest ← drivers.mapM fun driver => statement (.insertCandidate rid driver now)
          return c :: rest) ((ih hi).bind (Program.completes_ret _))
        rw [List.mapM_cons]
        have hlength : (driver :: drivers).length = 1 + (drivers.length + 0) := by
          simp only [List.length_cons]
          omega
        rw [hlength]
        exact hall

theorem completes_insertHistory (entries : List RideHistoryCreationInput) (w : World) :
    (entries.forM fun entry => statement (.insertHistory rid entry)).Completes (fun _ => true) (creationHandle env) w ()
      { w with history := w.history ++ entries.map fun entry =>
          ⟨rid, entry.fromStatus, entry.toStatus, entry.context⟩ } entries.length := by
  induction entries generalizing w with
  | nil =>
    rw [List.map_nil, List.append_nil]
    exact Program.completes_ret ()
  | cons entry entries ih =>
    have hcall : creationHandle env (.insertHistory rid entry) w = (.ok (), { w with
        history := w.history ++ [⟨rid, entry.fromStatus, entry.toStatus, entry.context⟩] }) := rfl
    have hall := (completes_statement hcall).bind (f := fun _ => entries.forM fun entry =>
      statement (.insertHistory rid entry)) (ih _)
    simp only [List.append_assoc, List.singleton_append] at hall
    have hlength : (entry :: entries).length = 1 + entries.length := by
      simp only [List.length_cons]
      omega
    rw [hlength]
    exact hall

variable (env) in
theorem completes_insertBooking {created : Id × List RideDriverCandidate}
    (h : w.insertRide options = (.ok created, v)) :
    (insertBooking options).Completes (fun _ => true) (creationHandle env) w created v
      (options.nearbyDrivers.length + options.historyEntries.length + 1) := by
  unfold World.insertRide at h
  simp only at h
  cases hi : World.insertCandidates w.rides.nextKey options.now { w with
      rides := w.rides.insert (World.newRide options.ride options.now) fun _ => rfl }
      options.nearbyDrivers with
  | error e => simp [hi] at h
  | ok vc =>
    obtain ⟨u, cs⟩ := vc
    simp only [hi, Prod.mk.injEq, Except.ok.injEq] at h
    obtain ⟨rfl, rfl⟩ := h
    have hride : creationHandle env (.insertRide options.ride options.now) w = (.ok [w.rides.nextKey], { w with
        rides := w.rides.insert (World.newRide options.ride options.now) fun _ => rfl }) := rfl
    have hall := (completes_statement hride).bind (f := fun rows => do
      let rideId :: _ := rows
        | throw (.error "Failed to create ride")
      let candidates ← options.nearbyDrivers.mapM fun driver => statement (.insertCandidate rideId driver options.now)
      options.historyEntries.forM fun entry => statement (.insertHistory rideId entry)
      return (rideId, candidates)) ((completes_insertCandidates hi).bind
        ((completes_insertHistory options.historyEntries u).bind (Program.completes_ret (w.rides.nextKey, cs))))
    have hlength : options.nearbyDrivers.length + options.historyEntries.length + 1 =
        1 + (options.nearbyDrivers.length + (options.historyEntries.length + 0)) := by omega
    rw [hlength]
    exact hall

variable (env) in
theorem insertCandidates_refused {drivers : List NearbyDriver} {e : ServiceError}
    (h : World.insertCandidates rid now w drivers = .error e) : ∃ u,
    (drivers.mapM fun driver => statement (.insertCandidate rid driver now)).run (creationHandle env) w = (.error e, u) := by
  induction drivers generalizing w with
  | nil => cases h
  | cons driver drivers ih =>
    simp only [World.insertCandidates] at h
    rw [List.mapM_cons]
    cases hd : driver.driverId with
    | none =>
      simp only [hd, Except.error.injEq] at h
      subst h
      have hcall : (statement (.insertCandidate rid driver now)).run (creationHandle env) w =
          (.error (.error "invalid input syntax for type bigint: \"\""), w) := by
        rw [statement, Program.run_perform]
        simp only [creationHandle, hd]
      exact ⟨w, Program.run_bind_error _ hcall _⟩
    | some d =>
      simp only [hd] at h
      have hcall : creationHandle env (.insertCandidate rid driver now) w =
          (.ok (w.insertCandidate rid now d driver.distanceMeters).2,
            (w.insertCandidate rid now d driver.distanceMeters).1) := by
        simp only [creationHandle, hd]
      rw [Program.run_bind_ok _ (completes_statement hcall).run]
      cases hi : World.insertCandidates rid now (w.insertCandidate rid now d driver.distanceMeters).1 drivers with
      | ok vc =>
        rw [hi] at h
        cases h
      | error e' =>
        rw [hi] at h
        cases h
        obtain ⟨u, hrun⟩ := ih hi
        exact ⟨u, Program.run_bind_error _ hrun _⟩

variable (env) in
theorem insertBooking_refused {e : ServiceError} (h : w.insertRide options = (.error e, v)) :
    ∃ u, (insertBooking options).run (creationHandle env) w = (.error e, u) := by
  unfold World.insertRide at h
  simp only at h
  cases hi : World.insertCandidates w.rides.nextKey options.now { w with
      rides := w.rides.insert (World.newRide options.ride options.now) fun _ => rfl }
      options.nearbyDrivers with
  | ok vc => simp [hi] at h
  | error d =>
    simp only [hi, Prod.mk.injEq, Except.error.injEq] at h
    obtain ⟨rfl, rfl⟩ := h
    have hride : creationHandle env (.insertRide options.ride options.now) w = (.ok [w.rides.nextKey], { w with
        rides := w.rides.insert (World.newRide options.ride options.now) fun _ => rfl }) := rfl
    obtain ⟨u, hrun⟩ := insertCandidates_refused env hi
    unfold insertBooking
    rw [Program.run_bind_ok _ (completes_statement hride).run]
    exact ⟨u, Program.run_bind_error _ hrun _⟩

theorem straight_insertBooking : (insertBooking options).Straight := by
  refine (straight_statement _).bind fun rows => ?_
  cases rows with
  | nil => trivial
  | cons rideId rest =>
    have hcandidates : (options.nearbyDrivers.mapM fun driver =>
        statement (.insertCandidate rideId driver options.now)).Straight :=
      Program.straight_mapM _ fun driver => straight_statement _
    have hhistory : (options.historyEntries.forM fun entry => statement (.insertHistory rideId entry)).Straight :=
      Program.straight_forM _ fun entry => straight_statement _
    exact hcandidates.bind fun _ => hhistory.bind fun _ => trivial

end Transaction

section Calls

variable {env : Environment} {fails : ℕ → Option ServiceError} {w : World} {m : ℕ} {c : CreationCall}

theorem issue_answers (hm : fails m = none) : (issue c).run (faultyCreation env fails) ⟨⟨w, none⟩, m⟩ =
    ((creationHandle env c w).1, ⟨⟨(creationHandle env c w).2, none⟩, m + 1⟩) :=
  Program.run_perform_answers (command (creationHandle env)) rfl hm

theorem issue_fails {e : ServiceError} (hm : fails m = some e) :
    (issue c).run (faultyCreation env fails) ⟨⟨w, none⟩, m⟩ = (.error e, ⟨⟨w, none⟩, m + 1⟩) :=
  Program.run_perform_fails (command (creationHandle env)) rfl hm

/-- A call whose failure is caught and that leaves the store. -/
theorem run_ignoring {a : c.Answer} (hc : creationHandle env c w = (.ok a, w)) :
    ((issue c).catching fun _ => pure a).run (faultyCreation env fails) ⟨⟨w, none⟩, m⟩ = (.ok a, ⟨⟨w, none⟩, m + 1⟩) := by
  rw [Program.run_catching]
  cases hm : fails m with
  | none =>
    rw [issue_answers hm, hc]
  | some e =>
    rw [issue_fails hm]
    rfl

theorem run_removeRouteJob : removeRouteJob.run (faultyCreation env fails) ⟨⟨w, none⟩, m⟩ =
    (.ok (), ⟨⟨w, none⟩, m + 1⟩) := run_ignoring rfl

theorem run_closeQueueEvents : closeQueueEvents.run (faultyCreation env fails) ⟨⟨w, none⟩, m⟩ =
    (.ok (), ⟨⟨w, none⟩, m + 1⟩) := run_ignoring rfl

/-- Through the queue the route is what the job answers, or a refusal. -/
theorem run_routeEstimates (pickup dropoff : Coordinate) (hf : Undisturbed fails m 5) :
    (requestRouteEstimatesThroughQueue pickup dropoff).run (faultyCreation env fails) ⟨⟨w, none⟩, m⟩ =
      ((env.route w.answered).mapError fun _ =>
          .badRequest "Unable to calculate route distance at this time. Please try again later.",
        ⟨⟨{ w with answered := w.answered + 1 }, none⟩, m + 5⟩) := by
  have hready : createQueueEvents.run (faultyCreation env fails) ⟨⟨w, none⟩, m + 1⟩ = (.ok (), ⟨⟨w, none⟩, m + 2⟩) := by
    unfold createQueueEvents
    rw [Program.run_catching, issue_answers (hf 1 (by omega))]
    rfl
  have hadd : (issue (.addRouteJob pickup dropoff)).run (faultyCreation env fails) ⟨⟨w, none⟩, m + 2⟩ =
      (.ok (), ⟨⟨w, none⟩, m + 3⟩) := issue_answers (hf 2 (by omega))
  have hwait : (issue (.service (.requestRoute pickup dropoff))).run (faultyCreation env fails) ⟨⟨w, none⟩, m + 3⟩ =
      (env.route w.answered, ⟨⟨{ w with answered := w.answered + 1 }, none⟩, m + 4⟩) := issue_answers (hf 3 (by omega))
  have hjob : ((issue (.service (.requestRoute pickup dropoff))).catching fun _ => throw (.badRequest
      "Unable to calculate route distance at this time. Please try again later.")).run (faultyCreation env fails)
        ⟨⟨w, none⟩, m + 3⟩ = ((env.route w.answered).mapError fun _ => .badRequest
          "Unable to calculate route distance at this time. Please try again later.",
        ⟨⟨{ w with answered := w.answered + 1 }, none⟩, m + 4⟩) := by
    rw [Program.run_catching, hwait]
    cases env.route w.answered <;> rfl
  unfold requestRouteEstimatesThroughQueue
  rw [Program.run_bind_ok _ run_removeRouteJob, Program.run_bind_ok _ hready, Program.run_finalizing,
    Program.run_bind_ok _ hadd, hjob, run_closeQueueEvents]
  rfl

end Calls

section Refinement

variable {env : Environment} {w : World} {m : ℕ}

/-- No call fails. -/
def unfailing : ℕ → Option ServiceError := fun _ => none

theorem undisturbed_unfailing (n c : ℕ) : Undisturbed unfailing n c := fun _ _ => rfl

variable (env) in
theorem run_notifyAll {α : Type} {p : α → Service Unit} (hp : ∀ x, ∃ n, p x = call (.emit n)) (xs : List α)
    (w : World) (m : ℕ) :
    (xs.forM fun x => notify (p x)).run (faultyCreation env unfailing) ⟨⟨w, none⟩, m⟩ =
      (.ok (), ⟨⟨((xs.forM p).run (handle env) w).2, none⟩, m + xs.length⟩) := by
  induction xs generalizing w m with
  | nil => rfl
  | cons x xs ih =>
    have hfirst : (notify (p x)).run (faultyCreation env unfailing) ⟨⟨w, none⟩, m⟩ =
          (.ok (), ⟨⟨((p x).run (handle env) w).2, none⟩, m + 1⟩) ∧
        (p x).run (handle env) w = (.ok (), ((p x).run (handle env) w).2) := by
      obtain ⟨n, hn⟩ := hp x
      rw [hn]
      exact ⟨rfl, rfl⟩
    have hlength : m + 1 + xs.length = m + (x :: xs).length := by
      simp only [List.length_cons]
      omega
    have hcoarse : ((x :: xs).forM p).run (handle env) w =
        (xs.forM p).run (handle env) ((p x).run (handle env) w).2 :=
      Program.run_bind_ok (handle env) hfirst.2 fun _ => xs.forM p
    have hfine := Program.run_bind_ok _ hfirst.1 fun _ => xs.forM fun x => notify (p x)
    rw [ih, hlength] at hfine
    rw [hcoarse]
    exact hfine

variable (env) in
/-- Statement by statement the transaction is the one that is modelled as a single call. -/
theorem run_createRideWithDetails (options : RideCreationOptions) (w : World) (m : ℕ) :
    ∃ k, (Creation.createRideWithDetails options).run (faultyCreation env unfailing) ⟨⟨w, none⟩, m⟩ =
      (((createRideWithDetails options).run (handle env) w).1,
        ⟨⟨((createRideWithDetails options).run (handle env) w).2, none⟩, k⟩) := by
  have hconnected : (issue .connect).run (faultyCreation env unfailing) ⟨⟨w, none⟩, m⟩ =
      (.ok (), ⟨⟨w, none⟩, m + 1⟩) := issue_answers rfl
  unfold Creation.createRideWithDetails createRideWithDetails
  rw [Program.run_catching, Program.run_bind_ok _ hconnected]
  rcases hinsert : w.insertRide options with ⟨e | created, v⟩
  · obtain rfl := insertRide_refused hinsert
    obtain ⟨u, hrefused⟩ := insertBooking_refused env hinsert
    have hbody : (insertBooking options).issued.run (faultyCreation env unfailing) ⟨⟨v, some v⟩, m + 1 + 1⟩ =
        (.error e, ⟨⟨v, some u⟩, m + 1 + 1 + (insertBooking options).cost (fun _ => true) (creationHandle env) v⟩) := by
      rw [Program.run_undisturbed (undisturbed_unfailing _ _), Program.run_issued_staged, Program.cost_issued_staged,
        hrefused]
    have hcommit : (insertBooking options).committing.run (faultyCreation env unfailing) ⟨⟨v, none⟩, m + 1⟩ =
        (.error e, ⟨⟨v, some u⟩, m + 1 + 1 + (insertBooking options).cost (fun _ => true) (creationHandle env) v⟩) := by
      unfold Program.committing
      rw [Program.run_bind_ok _ (Program.run_begin (creationHandle env) (fun _ => true) v rfl),
        Program.run_bind_error _ hbody]
    have hcoarse : (call (.insertRide options)).run (handle env) v = (.error e, v) := by
      rw [run_call]
      exact hinsert
    rw [Program.run_bind_error _ hcommit, Program.run_bind_error _ hcoarse]
    exact ⟨_, rfl⟩
  · have hcommit := (completes_insertBooking env hinsert).run_committing (undisturbed_unfailing (m + 1) _)
    have hcoarse : (call (.insertRide options)).run (handle env) w = (.ok created, v) := by
      rw [run_call]
      exact hinsert
    rw [Program.run_bind_ok _ hcommit, Program.run_bind_ok _ hcoarse]
    obtain ⟨rideId, candidates⟩ := created
    have hfine : (issue (.service (.findRide rideId))).run (faultyCreation env unfailing)
        ⟨⟨v, none⟩, m + 1 + (options.nearbyDrivers.length + options.historyEntries.length + 1) + 2⟩ =
          (.ok (v.rides.find rideId), ⟨⟨v, none⟩, _⟩) := issue_answers rfl
    simp only
    rw [Program.run_bind_ok _ hfine, Program.run_bind_ok _ (run_findById env rideId v)]
    cases v.rides.find rideId with
    | none => exact ⟨_, rfl⟩
    | some ride => exact ⟨_, rfl⟩

theorem run_createRideBody (env : Environment) (w : World) (r : Id) (payload : CreateRideInput) (now : Time) :
    ∃ res k, (Creation.createRideBody env r payload now).run (faultyCreation env unfailing) ⟨⟨w, none⟩, m⟩ =
        (res, ⟨⟨((createRideBody env r payload now).run (handle env) w).2, none⟩, k⟩) ∧
      res.toOption = ((createRideBody env r payload now).run (handle env) w).1.toOption := by
  unfold Creation.createRideBody createRideBody
  have hqueue : (requestRouteEstimatesThroughQueue payload.pickup payload.dropoff).run (faultyCreation env unfailing)
      ⟨⟨w, none⟩, m⟩ = _ := run_routeEstimates payload.pickup payload.dropoff (undisturbed_unfailing m 5)
  cases hroute : env.route w.answered with
  | error e =>
    rw [hroute, Except.mapError] at hqueue
    have hcoarse : (call (.requestRoute payload.pickup payload.dropoff)).run (handle env) w =
        (.error e, { w with answered := w.answered + 1 }) := by
      rw [run_call]
      simp only [handle, hroute]
    rw [Program.run_bind_error _ hqueue, Program.run_bind_error _ hcoarse]
    exact ⟨_, _, rfl, rfl⟩
  | ok route =>
    rw [hroute, Except.mapError] at hqueue
    have hcoarse : (call (.requestRoute payload.pickup payload.dropoff)).run (handle env) w =
        (.ok route, { w with answered := w.answered + 1 }) := by
      rw [run_call]
      simp only [handle, hroute]
    rw [Program.run_bind_ok _ hqueue, Program.run_bind_ok _ hcoarse]
    have hlocate : (issue (.service (.nearbyDrivers payload.pickup (resolveCandidateLimit payload.maxDrivers)))).run
        (faultyCreation env unfailing) ⟨⟨{ w with answered := w.answered + 1 }, none⟩, m + 5⟩ =
          (env.nearbyDrivers (w.answered + 1), ⟨⟨{ w with answered := w.answered + 2 }, none⟩, m + 6⟩) :=
      issue_answers rfl
    have hlocated : (call (.nearbyDrivers payload.pickup (resolveCandidateLimit payload.maxDrivers))).run (handle env)
        { w with answered := w.answered + 1 } =
          (env.nearbyDrivers (w.answered + 1), { w with answered := w.answered + 2 }) := run_call env _ _
    cases hnear : env.nearbyDrivers (w.answered + 1) with
    | error e =>
      rw [hnear] at hlocate hlocated
      rw [Program.run_bind_error _ hlocate, Program.run_bind_error _ hlocated]
      exact ⟨_, _, rfl, rfl⟩
    | ok drivers =>
      rw [hnear] at hlocate hlocated
      rw [Program.run_bind_ok _ hlocate, Program.run_bind_ok _ hlocated]
      by_cases hlength : drivers.length = 0
      · rw [if_pos hlength, if_pos hlength]
        exact ⟨_, _, rfl, rfl⟩
      rw [if_neg hlength, if_neg hlength]
      obtain ⟨k, hcreate⟩ := run_createRideWithDetails env (rideOptions env r payload now route drivers)
        { w with answered := w.answered + 2 } (m + 6)
      rcases hcreated : (createRideWithDetails (rideOptions env r payload now route drivers)).run (handle env)
        { w with answered := w.answered + 2 } with ⟨e | ⟨ride, candidates⟩, v⟩
      · rw [hcreated] at hcreate
        unfold rideOptions at hcreated
        rw [Program.run_bind_error _ hcreate, Program.run_bind_error _ hcreated]
        exact ⟨_, _, rfl, rfl⟩
      · rw [hcreated] at hcreate
        unfold rideOptions at hcreated
        have hannounces : Announces env (candidates.forM fun c => notifyRideOffered ride c route) :=
          announces_offers candidates
        obtain ⟨ns, hoffers⟩ := hannounces v
        have hoffered := run_notifyAll env (p := fun c => notifyRideOffered ride c route)
          (fun c => ⟨_, rfl⟩) candidates v k
        rw [hoffers] at hoffered
        rw [Program.run_bind_ok _ hcreate, Program.run_bind_ok _ hcreated]
        simp only
        rw [Program.run_bind_ok _ hoffered, Program.run_bind_ok _ hoffers]
        exact ⟨_, _, rfl, rfl⟩

/-- Without failures the creation leaves what it leaves call by call, and answers the same. -/
theorem creation_refines (env : Environment) (w : World) (rider : Option Id) (payload : CreateRideInput) (now : Time) :
    ((Creation.createRide env rider payload now).run (faultyCreation env unfailing) ⟨⟨w, none⟩, 0⟩).2.store.committed =
        ((createRide env rider payload now).run (handle env) w).2 ∧
      ((Creation.createRide env rider payload now).run (faultyCreation env unfailing) ⟨⟨w, none⟩, 0⟩).1.toOption =
        ((createRide env rider payload now).run (handle env) w).1.toOption := by
  unfold Creation.createRide createRide
  cases rider with
  | none => exact ⟨rfl, rfl⟩
  | some r =>
    have hfound : (issue (.service (.findUnfinishedRide r))).run (faultyCreation env unfailing) ⟨⟨w, none⟩, 0⟩ =
        (.ok (w.findUnfinishedRide r), ⟨⟨w, none⟩, 1⟩) := issue_answers rfl
    simp only
    rw [Program.run_bind_ok _ hfound, Program.run_bind_ok _ (run_call env (.findUnfinishedRide r) w)]
    by_cases hbusy : (w.findUnfinishedRide r).isSome = true
    · rw [if_pos hbusy, if_pos hbusy]
      exact ⟨rfl, rfl⟩
    rw [if_neg hbusy, if_neg hbusy, Program.run_catching, Program.run_catching]
    obtain ⟨res, k, hbody, hsame⟩ := run_createRideBody (m := 1) env w r payload now
    rw [hbody]
    rcases hcoarse : (createRideBody env r payload now).run (handle env) w with ⟨e | a, v⟩ <;> rw [hcoarse] at hsame
    · cases res with
      | ok a => cases hsame
      | error d =>
        simp only
        rw [Program.run_bind_ok _ run_removeRouteJob]
        exact ⟨rfl, rfl⟩
    · cases res with
      | error d => cases hsame
      | ok b =>
        cases hsame
        exact ⟨rfl, rfl⟩

end Refinement

end NebLite
