import NebLite.Atomic.Contracts
import NebLite.Atomic.JobQueue
import NebLite.Rides.Management
import NebLite.Rides.RouteReply

/-! The queue of route estimations: creations of rides that wait for their jobs, workers that
process them, creations that give up and cancellations, all at once. -/

namespace NebLite

open Atomic

structure RideRouteEstimationJobData where
  rideId : String
  pickup : Coordinate
  dropoff : Coordinate

/-- One command to the queue of rides or to its event stream. A subscription is the number of
events published before it. -/
inductive RideQueueCall where
  | remove (jobId : String)
  | waitUntilReady
  | add (jobId : String) (data : RideRouteEstimationJobData)
  | waitUntilFinished (queueEvents : ℕ) (jobId : String)
  | close (queueEvents : ℕ)
  | take (jobId : String)
  | get (pickup dropoff : Coordinate)
  | complete (jobId : String) (result : RouteEstimates)
  | fail (jobId : String) (reason : ServiceError)
  | stall (jobId : String)

abbrev RideQueueCall.Answer : RideQueueCall → Type
  | waitUntilReady => ℕ
  | waitUntilFinished _ _ | get _ _ => RouteEstimates
  | take _ => Option RideRouteEstimationJobData
  | _ => Unit

abbrev RideQueueService (α : Type) := Program RideQueueCall RideQueueCall.Answer ServiceError α

def rideQueue (c : RideQueueCall) : RideQueueService c.Answer := .perform c

def buildRouteEstimationJobId (rideId : String) : String := "ride-" ++ rideId ++ "-route-estimation"

/-- The job id of a creation by the rider at the time. -/
def creationJobId (riderId : Id) (now : Time) : String :=
  buildRouteEstimationJobId ("request-" ++ Nat.repr riderId ++ "-" ++ Nat.repr now)

namespace RouteJobs

def createQueueEvents : RideQueueService ℕ :=
  (rideQueue .waitUntilReady).catching fun error => do
    (rideQueue (.close 0)).catching fun _ => pure ()
    throw error

def requestRouteEstimatesThroughQueue (jobId : String) (pickup dropoff : Coordinate) : RideQueueService RouteEstimates := do
  (rideQueue (.remove jobId)).catching fun _ => pure ()
  let queueEvents ← createQueueEvents
  Program.finalizing (do
    rideQueue (.add jobId { rideId := jobId, pickup, dropoff })
    (rideQueue (.waitUntilFinished queueEvents jobId)).catching fun _ =>
      throw (.badRequest "Unable to calculate route distance at this time. Please try again later."))
    ((rideQueue (.close queueEvents)).catching fun _ => pure ())

/-- What removes the job when the rest of a creation fails, or its ride is canceled. -/
def removeJob (jobId : String) : RideQueueService Unit := (rideQueue (.remove jobId)).catching fun _ => pure ()

/-- A worker processes the job of the id, if it waits (`RideProcessor.process`). -/
def process (jobId : String) : RideQueueService Unit := do
  let some data ← rideQueue (.take jobId)
    | return
  match ← (rideQueue (.get data.pickup data.dropoff)).attempt with
  | .ok estimates => rideQueue (.complete jobId estimates)
  | .error reason => rideQueue (.fail jobId reason)

end RouteJobs

/-- What works on the queue side by side. -/
inductive RouteTask where
  | createRide (riderId : Id) (now : Time) (pickup dropoff : Coordinate)
  | giveUp (riderId : Id) (now : Time)
  | cancelRide (rideId : Id)
  | work (jobId : String)
  | crash (jobId : String)

def RouteTask.program : RouteTask → RideQueueService (Option RouteEstimates)
  | createRide riderId now pickup dropoff =>
    some <$> RouteJobs.requestRouteEstimatesThroughQueue (creationJobId riderId now) pickup dropoff
  | giveUp riderId now => do RouteJobs.removeJob (creationJobId riderId now); return none
  | cancelRide rideId => do RouteJobs.removeJob (buildRouteEstimationJobId (Nat.repr rideId)); return none
  | work jobId => do RouteJobs.process jobId; return none
  | crash jobId => do rideQueue (.stall jobId); return none

/-- The routing service, as the worker meets it. -/
structure RoutingService where
  js : JsRuntime
  api : JsUrl
  config : RoutingConfig

/-- Every request is answered by `reply`, which may be an error of the connection. -/
def repliedWith (reply : Except ServiceError JsValue) : Handler RouteCall RouteCall.Answer ServiceError Unit
  | .get _ _, s => (reply, s)

/-- What `fetchRouteEstimates` makes of one reply. -/
def RoutingService.estimates (service : RoutingService) (pickup dropoff : Coordinate)
    (reply : Except ServiceError JsValue) : Except ServiceError RouteEstimates :=
  ((fetchRouteEstimates service.js service.api service.config pickup dropoff).run (repliedWith reply) ()).1

/-- The jobs, the published events, the replies of the routing service in the order of the
requests, and what each wait in turn ends with: an event of the stream, or nothing in time. -/
structure RouteQueue where
  jobs : JobQueue String RideRouteEstimationJobData
  events : List (String × Except ServiceError RouteEstimates)
  replies : ℕ → Except ServiceError JsValue
  requests : ℕ
  heard : ℕ → Option ℕ
  waits : ℕ

def RouteQueue.start (replies : ℕ → Except ServiceError JsValue) (heard : ℕ → Option ℕ) : RouteQueue :=
  ⟨.empty, [], replies, 0, heard, 0⟩

/-- `removeOnFail` of the route jobs. -/
def routeRemoveOnFail : ℕ := 25

def notInTime : ServiceError := .error "timed out before finishing, no finish notification arrived after 30000ms"

/-- The event at the position is one of the job that was published after the subscription. -/
def RouteQueue.hears (q : RouteQueue) (queueEvents : ℕ) (jobId : String) (position : ℕ) :
    Except ServiceError RouteEstimates :=
  match q.events[position]? with
  | some (k, result) => if k = jobId ∧ queueEvents ≤ position then result else .error notInTime
  | none => .error notInTime

def lockedJob (jobId : String) : ServiceError :=
  .error s!"Job {jobId} could not be removed because it is locked by another worker"

def missingLock (jobId : String) : ServiceError := .error s!"Missing lock for job {jobId}"

def routeHandle (service : RoutingService) : Handler RideQueueCall RideQueueCall.Answer ServiceError RouteQueue
  | .remove jobId, q =>
    if (q.jobs.job jobId).any (fun j => j.status = .active) then (.error (lockedJob jobId), q)
    else (.ok (), { q with jobs := q.jobs.remove jobId })
  | .waitUntilReady, q => (.ok q.events.length, q)
  | .add jobId data, q => (.ok (), { q with jobs := q.jobs.add jobId data })
  | .waitUntilFinished queueEvents jobId, q =>
    match q.heard q.waits with
    | some position => (q.hears queueEvents jobId position, { q with waits := q.waits + 1 })
    | none => (.error notInTime, { q with waits := q.waits + 1 })
  | .close _, q => (.ok (), q)
  | .take jobId, q =>
    match q.jobs.job jobId with
    | some ⟨.waiting, data⟩ => (.ok (some data), { q with jobs := q.jobs.take jobId })
    | _ => (.ok none, q)
  | .get pickup dropoff, q =>
    (service.estimates pickup dropoff (q.replies q.requests), { q with requests := q.requests + 1 })
  | .complete jobId result, q =>
    match q.jobs.job jobId with
    | some ⟨.active, _⟩ =>
      (.ok (), { q with jobs := q.jobs.complete jobId, events := q.events ++ [(jobId, .ok result)] })
    | _ => (.error (missingLock jobId), q)
  | .fail jobId reason, q =>
    match q.jobs.job jobId with
    | some ⟨.active, _⟩ =>
      (.ok (), { q with
        jobs := q.jobs.fail routeRemoveOnFail jobId, events := q.events ++ [(jobId, .error reason)] })
    | _ => (.error (missingLock jobId), q)
  | .stall jobId, q => (.ok (), { q with jobs := q.jobs.stall jobId })

section JobIds

theorem dash_notMem_repr (n : ℕ) : '-' ∉ (Nat.repr n).toList := by
  intro h
  have hdigits : (Nat.repr n).toList = Nat.toDigits 10 n := String.toList_ofList
  rw [hdigits] at h
  have hdigit := Nat.isDigit_of_mem_toDigits (by omega) (by omega) h
  simp at hdigit

theorem repr_injective {m n : ℕ} (h : Nat.repr m = Nat.repr n) : m = n := by
  have hdigits : Nat.toDigits 10 m = Nat.toDigits 10 n := String.ofList_injective h
  have hvalue := congrArg (Nat.ofDigitChars 10 · 0) hdigits
  simpa [Nat.ofDigitChars_ten_toDigits] using hvalue

theorem buildRouteEstimationJobId_injective {a b : String}
    (h : buildRouteEstimationJobId a = buildRouteEstimationJobId b) : a = b := by
  have hfront : "ride-" ++ a = "ride-" ++ b := (String.append_left_inj "-route-estimation").mp h
  exact (String.append_right_inj "ride-").mp hfront

/-- Creations with one job id are of one rider in one millisecond. -/
theorem creationJobId_injective {riderId riderId' : Id} {now now' : Time}
    (h : creationJobId riderId now = creationJobId riderId' now') : riderId = riderId' ∧ now = now' := by
  have hinner := congrArg String.toList (buildRouteEstimationJobId_injective h)
  simp only [String.toList_append, List.append_assoc] at hinner
  have hrest := List.append_cancel_left hinner
  have hdash : "-".toList = ['-'] := rfl
  rw [hdash, List.singleton_append, List.singleton_append] at hrest
  have hboth := (List.append_cons_inj_of_notMem (dash_notMem_repr riderId) (dash_notMem_repr now)).mp hrest
  exact ⟨repr_injective (String.toList_injective hboth.1), repr_injective (String.toList_injective hboth.2.2)⟩

/-- The id of a ride spells no request. -/
theorem rideJobId_ne_creationJobId (rideId riderId : Id) (now : Time) :
    buildRouteEstimationJobId (Nat.repr rideId) ≠ creationJobId riderId now := by
  intro h
  have hinner := congrArg String.toList (buildRouteEstimationJobId_injective h)
  have hdash : '-' ∈ (Nat.repr rideId).toList := by
    rw [hinner]
    simp [String.toList_append]
  exact dash_notMem_repr rideId hdash

end JobIds

section Contract

variable {ι : Type} (service : RoutingService) (tasks : ι → RouteTask)

/-- Some creation asks for the estimates under the job id. -/
def Requested (jobId : String) (pickup dropoff : Coordinate) : Prop :=
  ∃ i riderId now, tasks i = .createRide riderId now pickup dropoff ∧ creationJobId riderId now = jobId

/-- The estimates were made of a reply to the request of some creation with the job id. -/
def Estimated (jobId : String) (estimates : RouteEstimates) : Prop :=
  ∃ pickup dropoff reply, Requested tasks jobId pickup dropoff ∧
    service.estimates pickup dropoff reply = .ok estimates

def routeContract : Contract RideQueueCall RideQueueCall.Answer ServiceError where
  requires
    | .add jobId data => Requested tasks jobId data.pickup data.dropoff
    | .complete jobId result => Estimated service tasks jobId result
    | _ => True
  ensures
    | .take jobId, r => ∀ data, r = .ok (some data) → Requested tasks jobId data.pickup data.dropoff
    | .get pickup dropoff, r => ∃ reply, r = service.estimates pickup dropoff reply
    | .waitUntilFinished _ jobId, r => ∀ estimates, r = .ok estimates → Estimated service tasks jobId estimates
    | _, _ => True

/-- The jobs are requests, and the results are estimates for them. -/
structure RouteQueue.Sound (q : RouteQueue) : Prop where
  jobs : ∀ jobId j, q.jobs.job jobId = some j → Requested tasks jobId j.data.pickup j.data.dropoff
  events : ∀ jobId estimates, (jobId, .ok estimates) ∈ q.events → Estimated service tasks jobId estimates

variable {service tasks} {q : RouteQueue}

theorem RouteQueue.Sound.within (h : q.Sound service tasks) {jobs : JobQueue String RideRouteEstimationJobData}
    (hj : jobs.Within q.jobs) : RouteQueue.Sound service tasks { q with jobs := jobs } where
  jobs jobId j' hjob := by
    obtain ⟨j, hold, hdata⟩ := hj jobId j' hjob
    exact hdata ▸ h.jobs jobId j hold
  events := h.events

theorem RouteQueue.Sound.publish (h : q.Sound service tasks) {jobId : String}
    {r : Except ServiceError RouteEstimates} (hr : ∀ estimates, r = .ok estimates → Estimated service tasks jobId estimates) :
    RouteQueue.Sound service tasks { q with events := q.events ++ [(jobId, r)] } where
  jobs := h.jobs
  events k estimates hmem := by
    rcases List.mem_append.mp hmem with hold | hnew
    · exact h.events k estimates hold
    · obtain ⟨rfl, hres⟩ := Prod.mk.inj (List.mem_singleton.mp hnew)
      exact hr estimates hres.symm

theorem RouteQueue.Sound.hears (h : q.Sound service tasks) {queueEvents position : ℕ} {jobId : String}
    {estimates : RouteEstimates} (hheard : q.hears queueEvents jobId position = .ok estimates) :
    Estimated service tasks jobId estimates := by
  unfold RouteQueue.hears at hheard
  split at hheard
  · next k result hevent =>
    split at hheard
    · next hown =>
      subst hheard
      exact hown.1 ▸ h.events k estimates (List.mem_of_getElem? hevent)
    · cases hheard
  · cases hheard

variable (service tasks) in
theorem routeContract_honoured : (routeContract service tasks).HonouredBy (routeHandle service)
    (RouteQueue.Sound service tasks) := by
  rintro op q hrequires hq
  cases op with
  | remove jobId =>
    refine ⟨trivial, ?_⟩
    simp only [routeHandle]
    split
    · exact hq
    · exact hq.within (JobQueue.within_remove q.jobs jobId)
  | waitUntilReady | close => exact ⟨trivial, hq⟩
  | add jobId data =>
    refine ⟨trivial, ⟨fun k j hj => ?_, hq.events⟩⟩
    obtain hold | ⟨rfl, rfl⟩ := JobQueue.job_add hj
    · exact hq.jobs k j hold
    · exact hrequires
  | waitUntilFinished queueEvents jobId =>
    simp only [routeHandle]
    cases q.heard q.waits with
    | some position => exact ⟨fun estimates he => hq.hears he, ⟨hq.jobs, hq.events⟩⟩
    | none => exact ⟨nofun, ⟨hq.jobs, hq.events⟩⟩
  | take jobId =>
    simp only [routeHandle]
    split
    · next data hjob =>
      refine ⟨fun data' he => ?_, hq.within (JobQueue.within_take q.jobs jobId)⟩
      obtain rfl := Option.some.inj (Except.ok.inj he)
      exact hq.jobs jobId _ hjob
    · exact ⟨nofun, hq⟩
  | get pickup dropoff => exact ⟨⟨_, rfl⟩, ⟨hq.jobs, hq.events⟩⟩
  | complete jobId result =>
    refine ⟨trivial, ?_⟩
    simp only [routeHandle]
    split
    · have hwithin := hq.within (JobQueue.within_complete q.jobs jobId)
      exact hwithin.publish fun estimates he => Except.ok.inj he ▸ hrequires
    · exact hq
  | fail jobId reason =>
    refine ⟨trivial, ?_⟩
    simp only [routeHandle]
    split
    · have hwithin := hq.within (JobQueue.within_fail routeRemoveOnFail q.jobs jobId)
      exact hwithin.publish fun estimates he => by cases he
    · exact hq
  | stall jobId => exact ⟨trivial, hq.within (JobQueue.within_stall q.jobs jobId)⟩

/-- What a task may end with. -/
def RouteTask.Ends (service : RoutingService) (tasks : ι → RouteTask) (r : Except ServiceError (Option RouteEstimates)) :
    RouteTask → Prop
  | .createRide riderId now _ _ =>
    ∀ estimates, r = .ok (some estimates) → Estimated service tasks (creationJobId riderId now) estimates
  | _ => True

theorem obeys_removeJob (jobId : String) :
    (routeContract service tasks).Obeys (fun r => ∀ e, r ≠ .error e) (RouteJobs.removeJob jobId) := by
  refine (Contract.obeys_perform trivial).catching (fun _ _ e he => ?_) fun _ _ e he => ?_
  · cases he
  · cases he

theorem obeys_createRide {i : ι} {riderId : Id} {now : Time} {pickup dropoff : Coordinate}
    (hi : tasks i = .createRide riderId now pickup dropoff) :
    (routeContract service tasks).Obeys
      (fun r => ∀ estimates, r = .ok estimates → Estimated service tasks (creationJobId riderId now) estimates)
      (RouteJobs.requestRouteEstimatesThroughQueue (creationJobId riderId now) pickup dropoff) := by
  have hclose (queueEvents : ℕ) : (routeContract service tasks).Obeys (fun r => ∀ e, r ≠ .error e)
      ((rideQueue (.close queueEvents)).catching fun _ => pure ()) := by
    refine (Contract.obeys_perform trivial).catching (fun _ _ e he => ?_) fun _ _ e he => ?_
    · cases he
    · cases he
  have hsubscribe : (routeContract service tasks).Obeys (fun _ => True) RouteJobs.createQueueEvents := by
    refine (Contract.obeys_perform trivial).catching (fun _ _ => trivial) fun _ _ => ?_
    exact (hclose 0).bind (fun _ _ => trivial) fun _ _ => trivial
  unfold RouteJobs.requestRouteEstimatesThroughQueue
  refine (obeys_removeJob (creationJobId riderId now)).bind (fun _ _ => ?_) fun e he => absurd rfl (he e)
  refine hsubscribe.bind (fun queueEvents _ => ?_) fun e _ estimates he => by cases he
  apply Contract.Obeys.finalizing
  · have hrequested : Requested tasks (creationJobId riderId now) pickup dropoff := ⟨i, riderId, now, hi, rfl⟩
    refine (Contract.obeys_perform hrequested).bind (fun _ _ => ?_) fun e _ estimates he => by cases he
    refine (Contract.obeys_perform trivial).catching (fun estimates h => h) fun _ _ => ?_
    intro estimates he
    cases he
  · exact (hclose queueEvents).mono fun r hr e he => absurd he (hr e)

theorem obeys_process (jobId : String) :
    (routeContract service tasks).Obeys (fun _ => True) (RouteJobs.process jobId) := by
  unfold RouteJobs.process
  refine (Contract.obeys_perform trivial).bind (fun o ho => ?_) fun _ _ => trivial
  cases o with
  | none => trivial
  | some data =>
    have hrequested : Requested tasks jobId data.pickup data.dropoff := ho data rfl
    refine Contract.Obeys.bind (Contract.obeys_perform trivial).attempt (fun r hr => ?_) fun _ _ => trivial
    obtain ⟨reply, hreply⟩ := hr r rfl
    cases r with
    | ok estimates =>
      have hestimated : Estimated service tasks jobId estimates := ⟨_, _, reply, hrequested, hreply.symm⟩
      exact (Contract.obeys_perform hestimated).mono fun _ _ => trivial
    | error reason => exact (Contract.obeys_perform trivial).mono fun _ _ => trivial

theorem obeys_task (i : ι) : (routeContract service tasks).Obeys (fun r => (tasks i).Ends service tasks r)
    (tasks i).program := by
  have hquiet {p : RideQueueService Unit} (hp : (routeContract service tasks).Obeys (fun _ => True) p) :
      (routeContract service tasks).Obeys (fun _ => True) (p >>= fun _ => (pure none : RideQueueService (Option RouteEstimates))) :=
    hp.bind (fun _ _ => trivial) fun _ _ => trivial
  cases hi : tasks i with
  | createRide riderId now pickup dropoff =>
    rw [RouteTask.program, map_eq_pure_bind]
    refine (obeys_createRide hi).bind (fun estimates h e he => ?_) fun _ _ e he => by cases he
    obtain rfl := Option.some.inj (Except.ok.inj he)
    exact h _ rfl
  | giveUp riderId now => exact hquiet ((obeys_removeJob _).mono fun _ _ => trivial)
  | cancelRide rideId => exact hquiet ((obeys_removeJob _).mono fun _ _ => trivial)
  | work jobId => exact hquiet (obeys_process jobId)
  | crash jobId => exact hquiet ((Contract.obeys_perform trivial).mono fun _ _ => trivial)

variable [DecidableEq ι]

theorem route_holds (service : RoutingService) (tasks : ι → RouteTask) (replies : ℕ → Except ServiceError JsValue)
    (heard : ℕ → Option ℕ) (sched : List ι) :
    Contract.Holds (routeContract service tasks) (RouteQueue.Sound service tasks)
      (fun i r => (tasks i).Ends service tasks r)
      ((Pool.start (fun i => (tasks i).program) (RouteQueue.start replies heard)).exec (routeHandle service) sched) := by
  refine Contract.Holds.exec ⟨⟨fun _ _ hj => ?_, fun _ _ he => ?_⟩, obeys_task⟩
    (routeContract_honoured service tasks) sched
  · cases hj
  · cases he

end Contract

/-- A URL without its query. -/
def bareUrl : JsUrl where
  Url := String
  parse s := if s = "" then none else some s
  setParam url _ _ := url
  text url := url

def orsService : RoutingService := ⟨digitRuntime, bareUrl, orsConfig⟩

/-- One creation and one worker. -/
def soleCreation : Fin 2 → RouteTask
  | 0 => .createRide 1 1000 ⟨107, 6⟩ ⟨106, 7⟩
  | 1 => .work (creationJobId 1 1000)

/-- In every interleaving the removal that a cancellation begins with finds no job. -/
theorem cancellation_removes_nothing {ι : Type} [DecidableEq ι] (service : RoutingService) (tasks : ι → RouteTask)
    (replies : ℕ → Except ServiceError JsValue) (heard : ℕ → Option ℕ) (sched : List ι) (rideId : Id) :
    (RouteJobs.removeJob (buildRouteEstimationJobId (Nat.repr rideId))).run (routeHandle service)
      ((Pool.start (fun i => (tasks i).program) (RouteQueue.start replies heard)).exec (routeHandle service) sched).store =
    (.ok (), ((Pool.start (fun i => (tasks i).program) (RouteQueue.start replies heard)).exec
      (routeHandle service) sched).store) := by
  have hsound := (route_holds service tasks replies heard sched).store
  generalize ((Pool.start (fun i => (tasks i).program) (RouteQueue.start replies heard)).exec
    (routeHandle service) sched).store = q at hsound
  have hnone : q.jobs.job (buildRouteEstimationJobId (Nat.repr rideId)) = none := by
    cases hjob : q.jobs.job (buildRouteEstimationJobId (Nat.repr rideId)) with
    | none => rfl
    | some j =>
      obtain ⟨-, riderId, now, -, hid⟩ := hsound.jobs _ j hjob
      exact absurd hid.symm (rideJobId_ne_creationJobId rideId riderId now)
  have hrun : (rideQueue (.remove (buildRouteEstimationJobId (Nat.repr rideId)))).run (routeHandle service) q =
      (.ok (), q) := by
    unfold rideQueue
    rw [Program.run_perform]
    simp only [routeHandle]
    rw [hnone, JobQueue.remove_of_none hnone]
    rfl
  unfold RouteJobs.removeJob
  rw [Program.run_catching, hrun]

end NebLite
