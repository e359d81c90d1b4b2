import NebLite.Tracking.BilledDistance
import NebLite.Atomic.Upserts

/-! The locations of a trip in the two tables. The queued events are inserted in
batches; where the batches are cut leaves no trace. -/

namespace NebLite

open Atomic

/-- A location that a client of the ride shares. -/
structure LocationReport where
  clientId : Id
  role : EClientType
  location : ParticipantLocation

inductive TripStep where
  | report (r : LocationReport)
  | flush

/-- The reports of a trip and the flushes among them, one after the other. The
answers are what the reports return: the total, and the distance moved. -/
def recordTrip (rideId : Id) : List TripStep → TrackingService (List (ℚ × ℚ))
  | [] => pure []
  | .report r :: steps => do
    let measured ← Tracked (recordLocation rideId r.clientId r.role r.location)
    let rest ← recordTrip rideId steps
    return measured :: rest
  | .flush :: steps => do
    flushRide rideId
    recordTrip rideId steps

def reportsOf : List TripStep → List LocationReport
  | [] => []
  | .report r :: steps => r :: reportsOf steps
  | .flush :: steps => reportsOf steps

/-- The row of a report that returned `measured`. -/
def TripTrack.Records (row : TripTrack) (rideId : Id) (r : LocationReport) (measured : ℚ × ℚ) : Prop :=
  row.rideId = rideId ∧ row.clientId = r.clientId ∧ row.clientRole = r.role ∧
    row.longitude = r.location.coordinate.longitude ∧ row.latitude = r.location.coordinate.latitude ∧
    row.recordedAt = r.location.recordedAt ∧
    row.totalDistanceMeters = measured.1 ∧ row.distanceDeltaMeters = measured.2

/-- The sum of what the driver's reports returned as moved. -/
def driverDeltas (reports : List LocationReport) (measured : List (ℚ × ℚ)) : ℚ :=
  (((reports.zip measured).filter fun p => p.1.role = .driver).map (·.2.2)).sum

/-- The summary row of a role. -/
def summaryOf (rideId : Id) (role : EClientType) (total : ℚ) (r : LocationReport) : TripSummaryUpsert where
  rideId := rideId
  clientId := r.clientId
  clientRole := role
  locationPayload := r.location
  totalDistanceMeters := if role = .driver then some total else none

/-- What the tables hold once all of a trip's reports have been flushed. -/
structure TripRecorded (rideId : Id) (reports : List LocationReport) (measured : List (ℚ × ℚ))
    (w w' : TrackingWorld) : Prop where
  answered : measured.length = reports.length
  rows : ∃ rows, w'.tracks = w.tracks ++ rows ∧
    List.Forall₂ (fun row p => row.Records rideId p.1 p.2) rows (reports.zip measured)
  totals : ∀ n m, measured[n]? = some m → m.1 = driverDeltas (reports.take (n + 1)) (measured.take (n + 1))
  summaries : ∀ role, w'.summaries.filter (fun s => s.rideId = rideId ∧ s.clientRole = role) =
    match (reports.filter (·.role = role)).getLast? with
    | none => []
    | some r => [summaryOf rideId role (driverDeltas reports measured) r]

/-- Nothing is known of the trip yet. -/
structure TrackingWorld.Unrecorded (w : TrackingWorld) (rideId : Id) : Prop where
  state : w.world.tripStates rideId = none
  queue : w.queue rideId = []
  summaries : ∀ s ∈ w.summaries, s.rideId ≠ rideId
  keys : (w.summaries.map fun s => (s.rideId, s.clientRole)).Nodup

/-- A flush passes at most one summary for each role. -/
def TrackingCall.OnePerRole : TrackingCall → Prop
  | .persistFlush _ summaries => (summaries.map (·.clientRole)).Nodup
  | _ => True

section Summaries

theorem setSummary_eq (l : List TripSummaryUpsert) (s : TripSummaryUpsert) :
    setSummary l s = upsert (fun x => (x.rideId, x.clientRole)) l s := by
  have hkey : (l.any fun x => x.rideId == s.rideId && x.clientRole == s.clientRole) = true ↔
      (s.rideId, s.clientRole) ∈ l.map fun x => (x.rideId, x.clientRole) := by simp
  have hrow (x : TripSummaryUpsert) : (if x.rideId = s.rideId ∧ x.clientRole = s.clientRole then s else x) =
      replace (fun x => (x.rideId, x.clientRole)) s x := by simp [replace]
  unfold setSummary upsert
  by_cases h : (s.rideId, s.clientRole) ∈ l.map fun x => (x.rideId, x.clientRole)
  · rw [if_pos (hkey.mpr h), if_pos h]
    exact List.map_congr_left fun x _ => hrow x
  · rw [if_neg fun he => h (hkey.mp he), if_neg h]

theorem setSummary_upsert : setSummary = upsert fun x => (x.rideId, x.clientRole) :=
  funext fun l => funext fun s => setSummary_eq l s

/-- The last location of each role is enough. -/
theorem foldl_setSummary_batch (l t : List TripSummaryUpsert) :
    (l.foldl setSummary []).foldl setSummary t = l.foldl setSummary t := by
  rw [setSummary_upsert]
  exact foldl_upsert_batch l t

theorem roles_nodup {l : List TripSummaryUpsert} {rideId : Id} (hl : ∀ s ∈ l, s.rideId = rideId) :
    ((l.foldl setSummary []).map (·.clientRole)).Nodup := by
  have hkeys : ((l.foldl setSummary []).map fun s => (s.rideId, s.clientRole)).Nodup := by
    rw [setSummary_upsert]
    exact nodup_foldl_upsert List.nodup_nil
  have hride : ∀ s ∈ l.foldl setSummary [], s.rideId = rideId := by
    intro s hs
    rw [setSummary_upsert] at hs
    rcases mem_foldl_upsert hs with hs | hs
    · exact hl s hs
    · cases hs
  refine List.Nodup.of_map (fun role => (rideId, role)) ?_
  rw [List.map_map]
  have hsame : (l.foldl setSummary []).map ((fun role => (rideId, role)) ∘ fun s => s.clientRole) =
      (l.foldl setSummary []).map fun s => (s.rideId, s.clientRole) :=
    List.map_congr_left fun s hs => by simp [hride s hs]
  rw [hsame]
  exact hkeys

end Summaries

section Odometer

/-- What the reports so far have left in the state, and how many answers came from outside. -/
structure Odometer where
  answered : ℕ
  state : TripTrackState

variable (env : Environment)

namespace Odometer

variable (o : Odometer) (r : LocationReport)

def moved : ℚ :=
  match r.role, o.state.lastDriverLocation with
  | .driver, some previous => (env.geo o.answered previous.coordinate r.location.coordinate).distance
  | _, _ => 0

def total : ℚ :=
  if r.role = .driver then o.state.totalDistanceMeters + o.moved env r else o.state.totalDistanceMeters

def next : Odometer where
  answered := if r.role = .driver ∧ o.state.lastDriverLocation.isSome then o.answered + 1 else o.answered
  state :=
    { o.state with
      totalDistanceMeters := o.total env r
      lastDriverLocation := if r.role = .driver then some r.location else o.state.lastDriverLocation
      lastRiderLocation := if r.role = .rider then some r.location else o.state.lastRiderLocation }

def event : TrackEvent where
  role := r.role
  clientId := r.clientId
  longitude := r.location.coordinate.longitude
  latitude := r.location.coordinate.latitude
  recordedAt := r.location.recordedAt
  accuracyMeters := r.location.accuracyMeters
  distanceDeltaMeters := o.moved env r
  totalDistanceMeters := o.total env r

/-- The events of a stream of reports. -/
def events : Odometer → List LocationReport → List TrackEvent
  | _, [] => []
  | o, r :: rs => o.event env r :: events (o.next env r) rs

def after (o : Odometer) (rs : List LocationReport) : Odometer := rs.foldl (next env) o

end Odometer

/-- Events with the numbers of their pushes. -/
def numbered (n : ℕ) : List TrackEvent → List QueuedEvent
  | [] => []
  | e :: es => ⟨n, e⟩ :: numbered (n + 1) es

variable {env} {o : Odometer} {r : LocationReport} {rs : List LocationReport}

theorem moved_of_rider (h : r.role = .rider) : o.moved env r = 0 := by
  unfold Odometer.moved
  rw [h]

theorem total_eq : o.total env r = o.state.totalDistanceMeters + o.moved env r := by
  unfold Odometer.total
  cases h : r.role with
  | driver => rfl
  | rider => simp [moved_of_rider h]

@[simp] theorem after_append : o.after env (rs ++ [r]) = (o.after env rs).next env r := by
  simp [Odometer.after]

theorem events_append : o.events env (rs ++ [r]) = o.events env rs ++ [(o.after env rs).event env r] := by
  induction rs generalizing o with
  | nil => rfl
  | cons x rs ih => exact congrArg (o.event env x :: ·) ih

theorem events_length : (o.events env rs).length = rs.length := by
  induction rs generalizing o with
  | nil => rfl
  | cons x rs ih => exact congrArg (· + 1) ih

theorem events_take (n : ℕ) : (o.events env rs).take n = o.events env (rs.take n) := by
  induction rs generalizing o n with
  | nil => simp [Odometer.events]
  | cons x rs ih =>
    cases n with
    | zero => rfl
    | succ n => exact congrArg (o.event env x :: ·) (ih n)

variable (env o rs) in
/-- What the reports return. -/
def Odometer.measured : List (ℚ × ℚ) :=
  (o.events env rs).map fun e => (e.totalDistanceMeters, e.distanceDeltaMeters)

theorem measured_length : (o.measured env rs).length = rs.length := by
  rw [Odometer.measured, List.length_map, events_length]

theorem measured_append : o.measured env (rs ++ [r]) =
    o.measured env rs ++ [((o.after env rs).total env r, (o.after env rs).moved env r)] := by
  simp only [Odometer.measured, events_append, List.map_append]
  rfl

/-- The total in the state is what the driver has moved. -/
theorem after_total : (o.after env rs).state.totalDistanceMeters =
    o.state.totalDistanceMeters + driverDeltas rs (o.measured env rs) := by
  induction rs using List.reverseRecOn with
  | nil => simp [Odometer.after, driverDeltas]
  | append_singleton rs r ih =>
    have hnext : ((o.after env rs).next env r).state.totalDistanceMeters =
        (o.after env rs).state.totalDistanceMeters + (o.after env rs).moved env r := total_eq
    have hlength : rs.length = (o.measured env rs).length := measured_length.symm
    have hsum : driverDeltas (rs ++ [r]) (o.measured env (rs ++ [r])) =
        driverDeltas rs (o.measured env rs) + (o.after env rs).moved env r := by
      unfold driverDeltas
      rw [measured_append, List.zip_append hlength, List.filter_append, List.map_append, List.sum_append]
      cases hr : r.role with
      | driver => simp [hr]
      | rider => simp [hr, moved_of_rider hr]
    rw [after_append, hnext, ih, hsum]
    ring

theorem measured_total (hzero : o.state.totalDistanceMeters = 0) {n : ℕ} {m : ℚ × ℚ}
    (hm : (o.measured env rs)[n]? = some m) :
    m.1 = driverDeltas (rs.take (n + 1)) ((o.measured env rs).take (n + 1)) := by
  have hn : n < rs.length := by
    have hlt := (List.getElem?_eq_some_iff.mp hm).1
    rwa [measured_length] at hlt
  have htake : rs.take (n + 1) = rs.take n ++ [rs[n]] := List.take_succ_eq_append_getElem hn
  have hmeasured : (o.measured env rs).take (n + 1) = o.measured env (rs.take (n + 1)) := by
    rw [Odometer.measured, ← List.map_take, events_take]
    rfl
  have hlast : (o.measured env (rs.take (n + 1)))[n]? = some m := by
    rw [← hmeasured, List.getElem?_take_of_lt (Nat.lt_succ_self n), hm]
  have hlength : (o.measured env (rs.take n)).length = n := by
    rw [measured_length, List.length_take]
    omega
  rw [htake, measured_append, List.getElem?_append_right hlength.le, hlength, Nat.sub_self] at hlast
  have hfirst : m.1 = (o.after env (rs.take n)).total env rs[n] := by
    rw [← Option.some.inj hlast]
  have htotal : ((o.after env (rs.take n)).next env rs[n]).state.totalDistanceMeters =
      driverDeltas (rs.take n ++ [rs[n]]) (o.measured env (rs.take n ++ [rs[n]])) := by
    rw [← after_append, after_total, hzero, zero_add]
  rw [hmeasured, hfirst, htake, ← htotal]
  rfl

theorem numbered_append (n : ℕ) (es : List TrackEvent) (e : TrackEvent) :
    numbered n (es ++ [e]) = numbered n es ++ [⟨n + es.length, e⟩] := by
  induction es generalizing n with
  | nil => rfl
  | cons x es ih =>
    have hstep : n + 1 + es.length = n + (es.length + 1) := by omega
    rw [List.cons_append, numbered, ih, hstep]
    rfl

/-- Each report becomes its row. -/
theorem rows_record (rid : Id) (n : ℕ) :
    List.Forall₂ (fun row p => TripTrack.Records row rid p.1 p.2)
      ((numbered n (o.events env rs)).map (·.entry rid)) (rs.zip (o.measured env rs)) := by
  induction rs generalizing o n with
  | nil => exact .nil
  | cons r rs ih => exact .cons ⟨rfl, rfl, rfl, rfl, rfl, rfl, rfl, rfl⟩ (ih (n + 1))

/-- The last summary of a role is that of its last report, with the final total. -/
theorem last_summary (rid : Id) (n : ℕ) (role : EClientType) :
    (((numbered n (o.events env rs)).map (·.summary rid)).filter fun s =>
        (s.rideId, s.clientRole) = (rid, role)).getLast? =
      ((rs.filter (·.role = role)).getLast?).map
        (summaryOf rid role (o.after env rs).state.totalDistanceMeters) := by
  induction rs using List.reverseRecOn with
  | nil => rfl
  | append_singleton rs r ih =>
    rw [events_append, numbered_append, List.map_append, List.filter_append, List.filter_append, after_append]
    by_cases hr : r.role = role
    · have htotal : ((o.after env rs).next env r).state.totalDistanceMeters = (o.after env rs).total env r := rfl
      rw [htotal]
      subst hr
      simp [QueuedEvent.summary, Odometer.event, summaryOf]
    · have hsame (x : LocationReport) :
          summaryOf rid role ((o.after env rs).next env r).state.totalDistanceMeters x =
            summaryOf rid role (o.after env rs).state.totalDistanceMeters x := by
        cases role with
        | rider => rfl
        | driver =>
          have hkept : ((o.after env rs).next env r).state.totalDistanceMeters =
              (o.after env rs).state.totalDistanceMeters := if_neg hr
          rw [hkept]
      have hnone : ([(⟨n + (o.events env rs).length, (o.after env rs).event env r⟩ : QueuedEvent)].map
          (·.summary rid)).filter (fun s => (s.rideId, s.clientRole) = (rid, role)) = [] := by
        simp [QueuedEvent.summary, Odometer.event, hr]
      have hnone' : [r].filter (fun x => decide (x.role = role)) = [] := by simp [hr]
      rw [hnone, hnone', List.append_nil, List.append_nil, ih]
      exact Option.map_congr fun x _ => (hsame x).symm

end Odometer

section Steps

variable {env : Environment} {rid : Id} {o : Odometer} {r : LocationReport} {rs : List LocationReport}
  {w w₀ : TrackingWorld}

/-- The odometer that the store of the ride shows. -/
def odometerOf (rid : Id) (w : TrackingWorld) : Odometer :=
  ⟨w.world.answered, (w.world.tripStates rid).getD (.initial rid)⟩

theorem tracked_bind {α β : Type} (p : Service α) (f : α → Service β) :
    Tracked (p >>= f) = Tracked p >>= fun a => Tracked (f a) := Program.lift_bind p f

theorem run_tracked_state (rid : Id) (w : TrackingWorld) :
    (Tracked (getState rid)).run (trackingHandle env) w =
      (.ok ((w.world.tripStates rid).getD (.initial rid)), w) := rfl

/-- The distance that a report has moved is asked for at most once. -/
theorem run_movedDistance (ho : odometerOf rid w = o) :
    (Tracked (driverDistance o.state r.role r.location)).run (trackingHandle env) w =
      (.ok (o.moved env r), { w with world := { w.world with answered := (o.next env r).answered } }) := by
  subst ho
  unfold driverDistance Odometer.moved Odometer.next
  cases hrole : r.role with
  | rider => rfl
  | driver =>
    cases hlast : (odometerOf rid w).state.lastDriverLocation with
    | none => rfl
    | some previous => rfl

variable (env) in
theorem run_report (ho : odometerOf rid w = o) :
    ∃ w', (Tracked (recordLocation rid r.clientId r.role r.location)).run (trackingHandle env) w =
        (.ok (o.total env r, o.moved env r), w') ∧ odometerOf rid w' = o.next env r ∧
      w'.queue rid = w.queue rid ++ [⟨w.pushes.length, o.event env r⟩] ∧
      w'.pushes = w.pushes ++ [(rid, o.event env r)] ∧ w'.tracks = w.tracks ∧ w'.summaries = w.summaries := by
  have hstate : (w.world.tripStates rid).getD (.initial rid) = o.state := by rw [← ho]; rfl
  unfold recordLocation
  simp only [tracked_bind]
  rw [Program.run_bind_ok _ (run_tracked_state rid w), hstate, Program.run_bind_ok _ (run_movedDistance ho)]
  refine ⟨_, rfl, ?_, ?_, rfl, rfl, rfl⟩
  · simp [odometerOf, trackingHandle, handle, Odometer.next, Odometer.total]
  · simp [trackingHandle, handle, Odometer.event, Odometer.total]

/-- The tables and the list after the reports `rs`, wherever they were flushed. -/
structure Recorded (env : Environment) (rid : Id) (w₀ : TrackingWorld) (rs : List LocationReport)
    (w : TrackingWorld) : Prop where
  odometer : odometerOf rid w = (odometerOf rid w₀).after env rs
  running : (odometerOf rid w).state.completed = false
  pushes : w.pushes.length = w₀.pushes.length + rs.length
  cut : ∃ flushed, numbered w₀.pushes.length ((odometerOf rid w₀).events env rs) = flushed ++ w.queue rid ∧
    w.tracks = w₀.tracks ++ flushed.map (·.entry rid) ∧
    w.summaries = (flushed.map (·.summary rid)).foldl setSummary w₀.summaries

theorem Recorded.start (hw : w₀.Unrecorded rid) : Recorded env rid w₀ [] w₀ := by
  refine ⟨rfl, ?_, rfl, [], ?_, ?_, rfl⟩
  · simp only [odometerOf, hw.state]
    rfl
  · rw [hw.queue]
    rfl
  · simp

theorem Recorded.report (h : Recorded env rid w₀ rs w) (r : LocationReport) :
    ∃ w', (Tracked (recordLocation rid r.clientId r.role r.location)).run (trackingHandle env) w =
        (.ok ((odometerOf rid w).total env r, (odometerOf rid w).moved env r), w') ∧
      Recorded env rid w₀ (rs ++ [r]) w' := by
  obtain ⟨w', hrun, hodometer, hqueue, hpushes, htracks, hsummaries⟩ := run_report env (w := w) (r := r) rfl
  obtain ⟨flushed, hcut, ht, hs⟩ := h.cut
  refine ⟨w', hrun, ?_, ?_, ?_, flushed, ?_, ?_, ?_⟩
  · rw [hodometer, h.odometer, after_append]
  · rw [hodometer]
    exact h.running
  · have hlength := h.pushes
    simp only [hpushes, List.length_append, List.length_singleton]
    omega
  · rw [events_append, numbered_append, hcut, events_length, hqueue, h.pushes, h.odometer, List.append_assoc]
  · rw [htracks, ht]
  · rw [hsummaries, hs]

/-- A flush moves the cut to the end. -/
theorem Recorded.flush (h : Recorded env rid w₀ rs w) :
    ∃ w', (flushRide rid).run (trackingHandle env) w = (.ok (), w') ∧ Recorded env rid w₀ rs w' ∧
      w'.queue rid = [] := by
  obtain ⟨flushed, hcut, ht, hs⟩ := h.cut
  have hrunning : ((w.world.tripStates rid).getD (.initial rid)).completed = false := h.running
  have hlrange (v : TrackingWorld) : (trackingCall (.lrangeEvents rid)).run (trackingHandle env) v =
      (.ok (v.queue rid), v) := Program.run_perform _ _ _
  unfold flushRide
  rw [Program.run_bind_ok _ (hlrange w)]
  by_cases hqueue : w.queue rid = []
  · simp only [hqueue, List.isEmpty_nil, if_true]
    rw [Program.run_bind_ok _ (run_tracked_state rid w)]
    simp only [hrunning]
    exact ⟨w, rfl, h, hqueue⟩
  have hsome : (w.queue rid).isEmpty = false := by simpa using hqueue
  simp only [hsome, Bool.false_eq_true, if_false]
  obtain ⟨v, hv⟩ : ∃ v, v = (trackingHandle env (.persistFlush ((w.queue rid).map (·.entry rid))
    (((w.queue rid).map (·.summary rid)).foldl setSummary []))
    { w with queue := Function.update w.queue rid [] }).2 := ⟨_, rfl⟩
  have hdel : (trackingCall (.delEvents rid)).run (trackingHandle env) w =
      (.ok (), { w with queue := Function.update w.queue rid [] }) := Program.run_perform _ _ _
  have hpersist : (trackingCall (.persistFlush ((w.queue rid).map (·.entry rid))
      (((w.queue rid).map (·.summary rid)).foldl setSummary []))).run (trackingHandle env)
      { w with queue := Function.update w.queue rid [] } = (.ok (), v) := by
    rw [hv]
    exact Program.run_perform _ _ _
  have hworld : v.world = w.world := by rw [hv]; rfl
  have hstill : ((v.world.tripStates rid).getD (.initial rid)).completed = false := by rw [hworld]; exact hrunning
  have hempty : v.queue rid = [] := by rw [hv]; exact Function.update_self ..
  rw [Program.run_bind_ok _ hdel, Program.run_bind_ok _ hpersist, Program.run_bind_ok _ (run_tracked_state rid v)]
  simp only [hstill, Bool.false_eq_true, if_false]
  refine ⟨v, rfl, ⟨?_, ?_, ?_, flushed ++ w.queue rid, ?_, ?_, ?_⟩, hempty⟩
  · rw [odometerOf, hworld]
    exact h.odometer
  · rw [odometerOf, hworld]
    exact h.running
  · have hpushes : v.pushes = w.pushes := by rw [hv]; rfl
    rw [hpushes, h.pushes]
  · rw [hempty, List.append_nil, hcut]
  · have htracks : v.tracks = w.tracks ++ (w.queue rid).map (·.entry rid) := by rw [hv]; rfl
    rw [htracks, ht, List.map_append, List.append_assoc]
  · have hsummaries : v.summaries =
        (((w.queue rid).map (·.summary rid)).foldl setSummary []).foldl setSummary w.summaries := by rw [hv]; rfl
    rw [hsummaries, foldl_setSummary_batch, hs, List.map_append, List.foldl_append]

/-- A trip whose last step is a flush. -/
theorem Recorded.run (h : Recorded env rid w₀ rs w) (steps : List TripStep) :
    ∃ w', (recordTrip rid (steps ++ [.flush])).run (trackingHandle env) w =
        (.ok ((odometerOf rid w).measured env (reportsOf steps)), w') ∧
      Recorded env rid w₀ (rs ++ reportsOf steps) w' ∧ w'.queue rid = [] := by
  induction steps generalizing rs w with
  | nil =>
    obtain ⟨w', hrun, hrecorded, hempty⟩ := h.flush
    refine ⟨w', ?_, by simpa [reportsOf] using hrecorded, hempty⟩
    change (flushRide rid >>= fun _ => pure []).run (trackingHandle env) w = _
    rw [Program.run_bind_ok _ hrun]
    rfl
  | cons step steps ih =>
    cases step with
    | report r =>
      obtain ⟨v, hreport, hv⟩ := h.report r
      obtain ⟨w', hrun, hrecorded, hempty⟩ := ih hv
      have hnext : odometerOf rid v = (odometerOf rid w).next env r := by
        rw [hv.odometer, h.odometer, after_append]
      refine ⟨w', ?_, by simpa [reportsOf] using hrecorded, hempty⟩
      change (Tracked (recordLocation rid r.clientId r.role r.location) >>= fun measured =>
        recordTrip rid (steps ++ [.flush]) >>= fun rest => pure (measured :: rest)).run (trackingHandle env) w = _
      rw [Program.run_bind_ok _ hreport, Program.run_bind_ok _ hrun, hnext]
      rfl
    | flush =>
      obtain ⟨v, hflush, hv, -⟩ := h.flush
      obtain ⟨w', hrun, hrecorded, hempty⟩ := ih hv
      have hsame : odometerOf rid v = odometerOf rid w := by rw [hv.odometer, h.odometer]
      refine ⟨w', ?_, hrecorded, hempty⟩
      change (flushRide rid >>= fun _ => recordTrip rid (steps ++ [.flush])).run (trackingHandle env) w = _
      rw [Program.run_bind_ok _ hflush, hrun, hsame]
      rfl

/-- Once everything is flushed, the tables depend on the reports alone. -/
theorem Recorded.tables (h : Recorded env rid w₀ rs w) (hempty : w.queue rid = []) :
    w.tracks = w₀.tracks ++
        (numbered w₀.pushes.length ((odometerOf rid w₀).events env rs)).map (·.entry rid) ∧
      w.summaries = ((numbered w₀.pushes.length ((odometerOf rid w₀).events env rs)).map
        (·.summary rid)).foldl setSummary w₀.summaries := by
  obtain ⟨flushed, hcut, ht, hs⟩ := h.cut
  rw [hempty, List.append_nil] at hcut
  rw [hcut]
  exact ⟨ht, hs⟩

theorem Recorded.trip (hw : w₀.Unrecorded rid) (h : Recorded env rid w₀ rs w) (hempty : w.queue rid = []) :
    TripRecorded rid rs ((odometerOf rid w₀).measured env rs) w₀ w := by
  obtain ⟨htracks, hsummaries⟩ := h.tables hempty
  have hzero : (odometerOf rid w₀).state.totalDistanceMeters = 0 := by
    simp only [odometerOf, hw.state]
    rfl
  have htotal : ((odometerOf rid w₀).after env rs).state.totalDistanceMeters =
      driverDeltas rs ((odometerOf rid w₀).measured env rs) := by rw [after_total, hzero, zero_add]
  refine ⟨measured_length, ⟨_, htracks, rows_record rid _⟩, fun n m hm => measured_total hzero hm, fun role => ?_⟩
  have hfilter (l : List TripSummaryUpsert) : (l.filter fun s => s.rideId = rid ∧ s.clientRole = role) =
      l.filter fun s => (s.rideId, s.clientRole) = (rid, role) := by simp
  have hbefore : w₀.summaries.filter (fun s => (s.rideId, s.clientRole) = (rid, role)) = [] := by
    apply List.filter_eq_nil_iff.mpr
    intro s hs
    simp [hw.summaries s hs]
  rw [hfilter, hsummaries, setSummary_upsert, filter_foldl_upsert hw.keys, last_summary, htotal, hbefore]
  cases (rs.filter (·.role = role)).getLast? <;> rfl

theorem onePerRole_idle {α : Type} {p : TrackingService α} (h : p.Calls TrackingCall.Idle) :
    p.Calls TrackingCall.OnePerRole := by
  refine h.mono fun c hc => ?_
  cases c with
  | persistFlush => exact hc.elim
  | _ => trivial

theorem onePerRole_call {c : TrackingCall} (h : c.OnePerRole) : (trackingCall c).Calls TrackingCall.OnePerRole :=
  (Program.calls_perform c).mpr h

theorem onePerRole_flushRide (rid : Id) : (flushRide rid).Calls TrackingCall.OnePerRole := by
  unfold flushRide
  refine (onePerRole_call (c := .lrangeEvents rid) trivial).bind fun events => ?_
  split
  · refine (onePerRole_idle (idle_tracked _)).bind fun state => ?_
    split
    · exact (onePerRole_idle (idle_cleanupRide rid)).bind fun _ => trivial
    · trivial
  · have hroles : (TrackingCall.persistFlush (events.map (·.entry rid))
        ((events.map (·.summary rid)).foldl setSummary [])).OnePerRole := by
      have hride : ∀ s ∈ events.map (·.summary rid), s.rideId = rid := by
        intro s hs
        obtain ⟨q, -, rfl⟩ := List.mem_map.mp hs
        rfl
      exact roles_nodup hride
    refine (onePerRole_call (c := .delEvents rid) trivial).bind fun _ => (onePerRole_call hroles).bind fun _ => ?_
    refine (onePerRole_idle (idle_tracked _)).bind fun state => ?_
    split
    · refine (onePerRole_call (c := .llenEvents rid) trivial).bind fun remaining => ?_
      split
      · exact onePerRole_idle (idle_cleanupRide rid)
      · trivial
    · trivial

theorem onePerRole_recordTrip (rid : Id) (steps : List TripStep) :
    (recordTrip rid steps).Calls TrackingCall.OnePerRole := by
  induction steps with
  | nil => trivial
  | cons step steps ih =>
    cases step with
    | report r => exact (onePerRole_idle (idle_tracked _)).bind fun _ => ih.bind fun _ => trivial
    | flush => exact (onePerRole_flushRide rid).bind fun _ => ih

/-- The reports of a trip are recorded once each and in order, with the sums that they
returned, wherever the flushes stand among them. -/
theorem batching_independent (env : Environment) (rid : Id) (w : TrackingWorld) (hw : w.Unrecorded rid)
    (steps : List TripStep) :
    (recordTrip rid (steps ++ [.flush])).Calls TrackingCall.OnePerRole ∧
    ∃ measured w', (recordTrip rid (steps ++ [.flush])).run (trackingHandle env) w = (.ok measured, w') ∧
      TripRecorded rid (reportsOf steps) measured w w' ∧
      ∀ steps', reportsOf steps' = reportsOf steps →
        ∃ w'', (recordTrip rid (steps' ++ [.flush])).run (trackingHandle env) w = (.ok measured, w'') ∧
          w''.tracks = w'.tracks ∧ w''.summaries = w'.summaries := by
  refine ⟨onePerRole_recordTrip rid _, ?_⟩
  have hstart : Recorded env rid w [] w := .start hw
  obtain ⟨w', hrun, hrecorded, hempty⟩ := hstart.run steps
  obtain ⟨htracks, hsummaries⟩ := hrecorded.tables hempty
  refine ⟨_, w', hrun, hrecorded.trip hw hempty, fun steps' hsame => ?_⟩
  obtain ⟨w'', hrun', hrecorded', hempty'⟩ := hstart.run steps'
  obtain ⟨htracks', hsummaries'⟩ := hrecorded'.tables hempty'
  rw [hsame] at hrun' htracks' hsummaries'
  exact ⟨w'', hrun', htracks'.trans htracks.symm, hsummaries'.trans hsummaries.symm⟩

/-- Driver 2 and rider 1 report; the driver's first report is flushed alone. -/
theorem batching_independent_two :
    ∃ measured w', (recordTrip 1 [.report ⟨2, .driver, ⟨⟨1, 1⟩, none, "10:00"⟩⟩, .flush,
        .report ⟨1, .rider, ⟨⟨1, 1⟩, none, "10:01"⟩⟩, .report ⟨2, .driver, ⟨⟨2, 2⟩, none, "10:02"⟩⟩,
        .flush]).run (trackingHandle tenMeters) (.start (World.initial [])) = (.ok measured, w') ∧
      TripRecorded 1 [⟨2, .driver, ⟨⟨1, 1⟩, none, "10:00"⟩⟩, ⟨1, .rider, ⟨⟨1, 1⟩, none, "10:01"⟩⟩,
        ⟨2, .driver, ⟨⟨2, 2⟩, none, "10:02"⟩⟩] measured (.start (World.initial [])) w' := by
  have hnew : (TrackingWorld.start (World.initial [])).Unrecorded 1 :=
    ⟨rfl, rfl, fun s hs => (by cases hs), List.nodup_nil⟩
  obtain ⟨-, measured, w', hrun, htrip, -⟩ := batching_independent tenMeters 1 (.start (World.initial [])) hnew
    [.report ⟨2, .driver, ⟨⟨1, 1⟩, none, "10:00"⟩⟩, .flush, .report ⟨1, .rider, ⟨⟨1, 1⟩, none, "10:01"⟩⟩,
      .report ⟨2, .driver, ⟨⟨2, 2⟩, none, "10:02"⟩⟩]
  exact ⟨measured, w', hrun, htrip⟩

end Steps

end NebLite
