import NebLite.Location.GeoKeys
import NebLite.Atomic.JobQueue
import NebLite.Atomic.Program
import Mathlib.Tactic.Ring

/-! `LocationService.upsertDriverLocation` and `LocationProcessor` over the queue of
location updates, one job for each driver. -/

namespace NebLite

open Atomic

structure LocationUpdateJobData where
  driverId : Id
  location : DriverLocationInput
  eventTimestamp : String
  deriving DecidableEq

def LocationUpdateJobData.entry (data : LocationUpdateJobData) : DriverLocationEntry where
  coordinate := data.location.coordinate
  accuracyMeters := data.location.accuracyMeters
  updatedAt := data.eventTimestamp

/-- What the queue throws. -/
structure QueueError where
  name : String
  message : String

def QueueError.isJobIdAlreadyExistsError (error : QueueError) : Bool :=
  error.name = "JobIdAlreadyExistsError" || error.message.contains "JobIdAlreadyExists"

inductive LocationCall where
  | add (jobId : String) (data : LocationUpdateJobData)
  | getJob (jobId : String)
  | getState (jobId : String)

/-- A job is found or not; its state is unknown when it has gone since. -/
abbrev LocationCall.Answer : LocationCall → Type
  | add _ _ => Unit
  | getJob _ => Bool
  | getState _ => Option JobStatus

abbrev LocationService (α : Type) := Program LocationCall LocationCall.Answer QueueError α

def locationCall (c : LocationCall) : LocationService c.Answer := .perform c

def driverJobId (driverId : Id) : String := s!"driver-{driverId}"

def upsertDriverLocation (driverId : Id) (location : DriverLocationInput) (eventTimestamp : String) :
    LocationService DriverLocationEntry := do
  let data : LocationUpdateJobData := { driverId, location, eventTimestamp }
  let jobId := driverJobId driverId
  (locationCall (.add jobId data)).catching fun error => do
    if error.isJobIdAlreadyExistsError then
      let existingJob ← locationCall (.getJob jobId)
      if existingJob then
        let existingJobState ← locationCall (.getState jobId)
        -- the job in flight is kept
        if existingJobState = some .active then
          return
    throw error
  return data.entry

/-- The data of a job, with the number of the call that has queued it, which no code reads. -/
structure NumberedUpdate where
  number : ℕ
  data : LocationUpdateJobData
  deriving DecidableEq

/-- A call that has returned normally, and the status of the job that it met. -/
structure AcceptedCall where
  update : NumberedUpdate
  met : Option JobStatus

/-- The queue, the driver keys, the calls that have returned normally, the latest first,
and the numbers of those whose job has failed before its store. -/
structure LocationState where
  queue : JobQueue String NumberedUpdate
  keys : GeoKeys
  accepted : List AcceptedCall
  unstored : List ℕ

def LocationState.start : LocationState := ⟨.empty, .empty, [], []⟩

/-- The addition of a job whose id exists is a silent no-op. -/
def locationHandle : Handler LocationCall LocationCall.Answer QueueError LocationState
  | .add jobId data, s => (.ok (), { s with queue := s.queue.add jobId ⟨s.accepted.length, data⟩ })
  | .getJob jobId, s => (.ok (s.queue.job jobId).isSome, s)
  | .getState jobId, s => (.ok ((s.queue.job jobId).map (·.status)), s)

/-- `removeOnFail` of the location jobs. -/
def locationRemoveOnFail : ℕ := 200

inductive JobOutcome where
  | completed
  | failedBeforeStore
  | failedAfterStore

/-- A call, a worker that takes a job, or a worker that processes the job that it has taken. -/
inductive LocationEvent where
  | upsert (driverId : Id) (location : DriverLocationInput) (eventTimestamp : String)
  | take (jobId : String)
  | process (jobId : String) (outcome : JobOutcome) (now : ℤ)

def handleUpsertLocation (data : LocationUpdateJobData) (now : ℤ) (keys : GeoKeys) : GeoKeys :=
  keys.storeDriverLocation ⟨data.driverId, data.location, data.eventTimestamp, now⟩

namespace LocationState

def upsert (s : LocationState) (driverId : Id) (location : DriverLocationInput) (eventTimestamp : String) :
    LocationState :=
  match (upsertDriverLocation driverId location eventTimestamp).run locationHandle s with
  | (.ok _, t) =>
    { t with
      accepted := ⟨⟨s.accepted.length, driverId, location, eventTimestamp⟩,
        (s.queue.job (driverJobId driverId)).map (·.status)⟩ :: s.accepted }
  | (.error _, t) => t

/-- The end of an active job. -/
def finish (s : LocationState) (jobId : String) (update : NumberedUpdate) (now : ℤ) : JobOutcome → LocationState
  | .completed =>
    { s with queue := s.queue.complete jobId, keys := handleUpsertLocation update.data now s.keys }
  | .failedAfterStore =>
    { s with
      queue := s.queue.fail locationRemoveOnFail jobId
      keys := handleUpsertLocation update.data now s.keys }
  | .failedBeforeStore =>
    { s with queue := s.queue.fail locationRemoveOnFail jobId, unstored := update.number :: s.unstored }

def step (s : LocationState) : LocationEvent → LocationState
  | .upsert driverId location eventTimestamp => s.upsert driverId location eventTimestamp
  | .take jobId => { s with queue := s.queue.take jobId }
  | .process jobId outcome now =>
    match s.queue.job jobId with
    | some ⟨.active, update⟩ => s.finish jobId update now outcome
    | _ => s

/-- The last call of driver `d` that has returned normally and satisfies `p`. -/
def lastCall (s : LocationState) (p : AcceptedCall → Bool) (d : Id) : Option NumberedUpdate :=
  (s.accepted.find? fun c => c.update.data.driverId == d && p c).map (·.update)

/-- The location of driver `d` is that of the call. -/
def Stores (s : LocationState) (d : Id) (c : NumberedUpdate) : Prop :=
  s.keys.geo d = some c.data.location.coordinate ∧ s.keys.metadata d = some c.data.entry

/-- If the job of driver `d` has drained, his location is that of his last call that did
not meet the job in flight, unless the job of this call has failed before its store. -/
def LatestWins (d : Id) (s : LocationState) : Prop :=
  s.queue.Drained (driverJobId d) → ∀ c ∈ s.lastCall (fun c => c.met ≠ some .active) d,
    c.number ∈ s.unstored ∨ s.Stores d c

/-- The event is no call of driver `d` that meets a job of his that is waiting or kept after
it has failed. -/
def MeetsNoIdleJob (d : Id) (s : LocationState) : LocationEvent → Prop
  | .upsert driverId _ _ => driverId = d → ∀ j ∈ s.queue.job (driverJobId d), j.status = .active
  | _ => True

end LocationState

theorem driverJobId_injective {d e : Id} (h : driverJobId d = driverJobId e) : d = e := by
  have hrepr : Nat.repr d = Nat.repr e := (String.append_right_inj "driver-").mp h
  have hdigits : Nat.toDigits 10 d = Nat.toDigits 10 e := String.ofList_injective hrepr
  have hvalue := congrArg (Nat.ofDigitChars 10 · 0) hdigits
  simpa [Nat.ofDigitChars_ten_toDigits] using hvalue

section Latest

variable {s : LocationState} {d : Id} {c : NumberedUpdate}

namespace LocationState

/-- Every job is that of its driver; if the job of driver `d` is still to be processed, it
is that of his last call, and otherwise his location is. -/
structure Follows (d : Id) (s : LocationState) : Prop where
  named : ∀ jobId j, s.queue.job jobId = some j → jobId = driverJobId j.data.data.driverId
  pending : ∀ j, s.queue.job (driverJobId d) = some j → j.status ≠ .failed →
    s.lastCall (fun c => c.met ≠ some .active) d = some j.data
  latest : s.LatestWins d

theorem follows_start (d : Id) : LocationState.start.Follows d where
  named _ _ h := nomatch h
  pending _ h := nomatch h
  latest _ _ h := nomatch h

/-- A call of another driver, or one that meets the job in flight, is not his last. -/
theorem lastCall_other {p : AcceptedCall → Bool} {t : LocationState} {call : AcceptedCall}
    (ht : t.accepted = call :: s.accepted) (h : call.update.data.driverId ≠ d ∨ p call = false) :
    t.lastCall p d = s.lastCall p d := by
  unfold lastCall
  rw [ht, List.find?_cons_of_neg]
  rcases h with h | h <;> simp [h]

theorem lastCall_new {p : AcceptedCall → Bool} {t : LocationState} (call : AcceptedCall)
    (ht : t.accepted = call :: s.accepted) (h : p call = true) :
    t.lastCall p call.update.data.driverId = some call.update := by
  unfold lastCall
  rw [ht, List.find?_cons_of_pos (by simp [h])]
  rfl

/-- A call returns normally, and its job is added if none exists. -/
theorem upsert_eq (s : LocationState) (d : Id) (location : DriverLocationInput) (eventTimestamp : String) :
    s.upsert d location eventTimestamp =
      { s with
        queue := s.queue.add (driverJobId d) ⟨s.accepted.length, d, location, eventTimestamp⟩
        accepted := ⟨⟨s.accepted.length, d, location, eventTimestamp⟩,
          (s.queue.job (driverJobId d)).map (·.status)⟩ :: s.accepted } := rfl

theorem Follows.upsert (h : s.Follows d) {e : Id} {location : DriverLocationInput} {eventTimestamp : String}
    (hok : s.MeetsNoIdleJob d (.upsert e location eventTimestamp)) :
    (s.upsert e location eventTimestamp).Follows d := by
  rw [upsert_eq]
  have hother : e ≠ d → ∀ (queue : JobQueue String NumberedUpdate) (met : Option JobStatus),
      LocationState.lastCall { s with
        queue := queue, accepted := ⟨⟨s.accepted.length, e, location, eventTimestamp⟩, met⟩ :: s.accepted }
        (fun c => c.met ≠ some .active) d = s.lastCall (fun c => c.met ≠ some .active) d :=
    fun hne _ _ => lastCall_other rfl (.inl hne)
  cases hjob : s.queue.job (driverJobId e) with
  | some j =>
    have hlast : LocationState.lastCall
        { s with accepted := ⟨⟨s.accepted.length, e, location, eventTimestamp⟩, some j.status⟩ :: s.accepted }
        (fun c => c.met ≠ some .active) d = s.lastCall (fun c => c.met ≠ some .active) d := by
      by_cases he : e = d
      · -- the job in flight is kept
        have hactive : j.status = .active := hok he j (he ▸ hjob)
        exact lastCall_other rfl (.inr (by simp [hactive]))
      · exact hother he s.queue _
    rw [JobQueue.add_of_some hjob]
    refine ⟨h.named, fun k hk hstatus => ?_, fun hdrained c hc => ?_⟩
    · exact hlast.trans (h.pending k hk hstatus)
    · exact h.latest hdrained c (hlast.symm.trans hc)
  | none =>
    have hnew := JobQueue.add_of_none hjob (⟨s.accepted.length, e, location, eventTimestamp⟩ : NumberedUpdate)
    constructor
    · intro jobId k hk
      change (s.queue.add (driverJobId e) ⟨s.accepted.length, e, location, eventTimestamp⟩).job jobId = some k at hk
      rw [hnew, Function.update_apply] at hk
      split at hk
      · next hid => rw [hid, ← Option.some.inj hk]
      · exact h.named jobId k hk
    · intro k hk hstatus
      change (s.queue.add (driverJobId e) ⟨s.accepted.length, e, location, eventTimestamp⟩).job (driverJobId d) =
        some k at hk
      rw [hnew, Function.update_apply] at hk
      split at hk
      · next hid =>
        obtain rfl := driverJobId_injective hid
        rw [← Option.some.inj hk]
        exact lastCall_new ⟨⟨s.accepted.length, d, location, eventTimestamp⟩, none⟩ rfl rfl
      · next hid =>
        have hne : e ≠ d := fun he => hid (by rw [he])
        exact (hother hne _ _).trans (h.pending k hk hstatus)
    · intro hdrained c hc
      have hjobs : (s.queue.add (driverJobId e) ⟨s.accepted.length, e, location, eventTimestamp⟩).Drained
        (driverJobId d) := hdrained
      rw [JobQueue.Drained, hnew, Function.update_apply] at hjobs
      split at hjobs
      · cases hjobs _ rfl
      · next hid =>
        have hne : e ≠ d := fun he => hid (by rw [he])
        exact h.latest hjobs c ((hother hne _ _).symm.trans hc)

theorem Follows.take (h : s.Follows d) (jobId : String) : (s.step (.take jobId)).Follows d := by
  by_cases hwaiting : ∃ u, s.queue.job jobId = some ⟨.waiting, u⟩
  swap
  · have hno : s.queue.take jobId = s.queue := JobQueue.take_of_not fun u hu => hwaiting ⟨u, hu⟩
    simp only [step, hno]
    exact h
  obtain ⟨u, hu⟩ := hwaiting
  have htaken := JobQueue.take_of_waiting hu
  constructor
  · intro x k hk
    simp only [step, htaken, Function.update_apply] at hk
    split at hk
    · next hx =>
      rw [hx, ← Option.some.inj hk]
      exact h.named jobId ⟨.waiting, u⟩ hu
    · exact h.named x k hk
  · intro k hk hstatus
    simp only [step, htaken, Function.update_apply] at hk
    split at hk
    · next hx =>
      rw [← Option.some.inj hk]
      exact h.pending ⟨.waiting, u⟩ (hx ▸ hu) (by simp)
    · exact h.pending k hk hstatus
  · intro hdrained c hc
    simp only [JobQueue.Drained, step, htaken, Function.update_apply] at hdrained
    split at hdrained
    · cases hdrained _ rfl
    · exact h.latest hdrained c hc

/-- The end of an active job, as far as the calls are concerned. -/
structure Ends (s t : LocationState) (jobId : String) (u : NumberedUpdate) : Prop where
  own : ∀ j, t.queue.job jobId = some j → j = ⟨.failed, u⟩
  others : ∀ x, x ≠ jobId → t.queue.job x = s.queue.job x ∨
    (∃ e, s.queue.job x = some ⟨.failed, e⟩) ∧ t.queue.job x = none
  accepted : t.accepted = s.accepted
  fate : u.number ∈ t.unstored ∨ t.Stores u.data.driverId u
  unstored : s.unstored ⊆ t.unstored
  stores : ∀ e c, e ≠ u.data.driverId → s.Stores e c → t.Stores e c

theorem Follows.ends {t : LocationState} (h : s.Follows d) {jobId : String} {u : NumberedUpdate}
    (hactive : s.queue.job jobId = some ⟨.active, u⟩) (ht : s.Ends t jobId u) : t.Follows d := by
  have hid : jobId = driverJobId u.data.driverId := h.named jobId ⟨.active, u⟩ hactive
  have hlast : t.lastCall (fun c => c.met ≠ some .active) d = s.lastCall (fun c => c.met ≠ some .active) d := by
    unfold lastCall
    rw [ht.accepted]
  constructor
  · intro x k hk
    by_cases hx : x = jobId
    · subst hx
      rw [ht.own k hk]
      exact hid
    · rcases ht.others x hx with hsame | ⟨-, hnone⟩
      · exact h.named x k (hsame.symm.trans hk)
      · rw [hnone] at hk
        cases hk
  · intro k hk hstatus
    by_cases hx : driverJobId d = jobId
    · rw [hx] at hk
      rw [ht.own k hk] at hstatus
      exact (hstatus rfl).elim
    · rw [hlast]
      rcases ht.others _ hx with hsame | ⟨-, hnone⟩
      · exact h.pending k (hsame.symm.trans hk) hstatus
      · rw [hnone] at hk
        cases hk
  · intro hdrained c hc
    rw [hlast] at hc
    by_cases hx : driverJobId d = jobId
    · obtain rfl := driverJobId_injective (hx.trans hid)
      rw [hid] at hactive
      have hcall := h.pending _ hactive (by simp)
      obtain rfl : u = c := Option.some.inj (hcall.symm.trans hc)
      exact ht.fate
    · have hbefore : s.queue.Drained (driverJobId d) := by
        rcases ht.others _ hx with hsame | ⟨⟨k, hk⟩, -⟩
        · rw [JobQueue.Drained, ← hsame]
          exact hdrained
        · rw [JobQueue.Drained, hk]
          rintro j ⟨⟩
          rfl
      have hne : d ≠ u.data.driverId := fun he => hx (by rw [he, hid])
      rcases h.latest hbefore c hc with hlost | hstored
      · exact .inl (ht.unstored hlost)
      · exact .inr (ht.stores d c hne hstored)

theorem stores_handle (keys : GeoKeys) (u : NumberedUpdate) (now : ℤ) :
    (handleUpsertLocation u.data now keys).geo u.data.driverId = some u.data.location.coordinate ∧
      (handleUpsertLocation u.data now keys).metadata u.data.driverId = some u.data.entry :=
  ⟨Function.update_self _ _ _, Function.update_self _ _ _⟩

theorem handle_others (keys : GeoKeys) (u : NumberedUpdate) (now : ℤ) {e : Id} (he : e ≠ u.data.driverId) :
    (handleUpsertLocation u.data now keys).geo e = keys.geo e ∧
      (handleUpsertLocation u.data now keys).metadata e = keys.metadata e :=
  ⟨Function.update_of_ne he _ _, Function.update_of_ne he _ _⟩

/-- Every outcome of an active job is an end of it. -/
theorem finish_ends {jobId : String} {u : NumberedUpdate} (hactive : s.queue.job jobId = some ⟨.active, u⟩)
    (now : ℤ) (outcome : JobOutcome) : s.Ends (s.finish jobId u now outcome) jobId u := by
  have hfailed (j : Job NumberedUpdate) (hj : (s.queue.fail locationRemoveOnFail jobId).job jobId = some j) :
      j = ⟨.failed, u⟩ := by
    rw [JobQueue.fail_of_active hactive] at hj
    simp only [Function.update_self] at hj
    split at hj
    · cases hj
    · exact (Option.some.inj hj).symm
  have hothers (e : Id) (c : NumberedUpdate) (he : e ≠ u.data.driverId) (hs : s.Stores e c) :
      (handleUpsertLocation u.data now s.keys).geo e = some c.data.location.coordinate ∧
        (handleUpsertLocation u.data now s.keys).metadata e = some c.data.entry := by
    obtain ⟨hgeo, hmetadata⟩ := handle_others s.keys u now he
    rw [hgeo, hmetadata]
    exact hs
  cases outcome with
  | completed =>
    have hdone := JobQueue.complete_of_active hactive
    refine ⟨fun j hj => ?_, fun x hx => .inl ?_, rfl, .inr (stores_handle _ _ _), fun _ hx => hx, hothers⟩
    · simp only [finish, hdone, Function.update_self] at hj
      cases hj
    · simp only [finish, hdone, Function.update_of_ne hx]
  | failedAfterStore =>
    exact ⟨hfailed, fun x hx => JobQueue.fail_other hactive hx, rfl, .inr (stores_handle _ _ _), fun _ hx => hx,
      hothers⟩
  | failedBeforeStore =>
    exact ⟨hfailed, fun x hx => JobQueue.fail_other hactive hx, rfl, .inl List.mem_cons_self,
      fun _ hx => List.mem_cons_of_mem _ hx, fun _ _ _ hs => hs⟩

theorem Follows.step (h : s.Follows d) {event : LocationEvent} (hok : s.MeetsNoIdleJob d event) :
    (s.step event).Follows d := by
  cases event with
  | upsert e location eventTimestamp => exact h.upsert hok
  | take jobId => exact h.take jobId
  | process jobId outcome now =>
    simp only [LocationState.step]
    split
    · next u hactive => exact h.ends hactive (finish_ends hactive now outcome)
    · exact h

end LocationState

end Latest

/-- Where no call of a driver meets a job of his that is waiting or kept after it has failed,
wherever his job has drained his location is that of his last call that did not meet the
job in flight, unless the job of this call has failed before its store. -/
theorem latest_location_wins (d : Id) (events : List LocationEvent)
    (hm : Runs.Meets LocationState.step (LocationState.MeetsNoIdleJob d) .start events) :
    Runs.Always LocationState.step (LocationState.LatestWins d) .start events :=
  Runs.Always.of_invariant (fun _ _ h hok => h.step hok) (fun _ h => h.latest) (LocationState.follows_start d) hm

/-- Driver 1 reports two locations, the second while the job of the first is active. -/
def reportWhileActive : List LocationEvent :=
  [.upsert 1 ⟨⟨1, 1⟩, none⟩ "10:00", .take (driverJobId 1), .upsert 1 ⟨⟨2, 2⟩, none⟩ "10:01",
   .process (driverJobId 1) .completed 0]

theorem latest_location_wins_in_flight :
    Runs.Always LocationState.step (LocationState.LatestWins 1) .start reportWhileActive := by
  refine latest_location_wins 1 reportWhileActive ⟨(fun _ _ h => nomatch h), trivial, ?_, trivial, trivial⟩
  rintro - j ⟨⟩
  rfl

theorem report_in_flight_dropped :
    (reportWhileActive.foldl LocationState.step .start).queue.Drained (driverJobId 1) ∧
    (reportWhileActive.foldl LocationState.step .start).lastCall (fun _ => true) 1 =
      some ⟨1, 1, ⟨⟨2, 2⟩, none⟩, "10:01"⟩ ∧
    (reportWhileActive.foldl LocationState.step .start).unstored = [] ∧
    (reportWhileActive.foldl LocationState.step .start).keys.geo 1 = some ⟨1, 1⟩ := by
  refine ⟨fun j hj => ?_, rfl, rfl, rfl⟩
  cases hj

end NebLite
