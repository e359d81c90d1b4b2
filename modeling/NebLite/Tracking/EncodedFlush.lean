import Mathlib.Data.Countable.Basic
import Mathlib.Data.Rat.Denumerable
import Mathlib.Logic.Equiv.List
import NebLite.Atomic.Simulation
import NebLite.Tracking.FlushFaults
import NebLite.Tracking.FlushIsolation

/-! Where the keys of Redis hold what `recordLocation` and `markRideCompleted` write, the flush over the
keys does what the flush over the typed queue does. -/

namespace NebLite

open Atomic

/-- The values of the service as values of JavaScript. -/
structure JsCoding (V : Type) [DecidableEq V] where
  json : TrackingJson V
  id : Id → V
  role : EClientType → V
  number : ℚ → V
  text : String → V
  role_driver : role .driver = json.driver
  role_injective : Function.Injective role
  null_ne_undefined : json.null ≠ json.undefined
  number_ne_undefined : ∀ q, number q ≠ json.undefined
  isFinite_number : ∀ q, json.isFinite (number q) = true

section Coding

variable {V : Type} [DecidableEq V]

namespace JsCoding

variable (coding : JsCoding V)

/-- The event that `recordLocation` serialises. -/
def event (e : TrackEvent) : JsTrackEvent V where
  role := coding.role e.role
  clientId := coding.id e.clientId
  longitude := coding.number e.longitude
  latitude := coding.number e.latitude
  recordedAt := coding.text e.recordedAt
  accuracyMeters := e.accuracyMeters.elim coding.json.null coding.number
  distanceDeltaMeters := coding.number e.distanceDeltaMeters
  totalDistanceMeters := coding.number e.totalDistanceMeters

def track (row : TripTrack) : TrackEntry V where
  rideId := row.rideId
  clientId := coding.id row.clientId
  clientRole := coding.role row.clientRole
  longitude := coding.number row.longitude
  latitude := coding.number row.latitude
  distanceDeltaMeters := coding.number row.distanceDeltaMeters
  totalDistanceMeters := coding.number row.totalDistanceMeters
  recordedAt := coding.json.newDate (coding.text row.recordedAt)

def summary (row : TripSummaryUpsert) : SummaryEntry V where
  rideId := row.rideId
  clientId := coding.id row.clientId
  clientRole := coding.role row.clientRole
  locationPayload :=
    { longitude := coding.number row.locationPayload.coordinate.longitude
      latitude := coding.number row.locationPayload.coordinate.latitude
      accuracyMeters := row.locationPayload.accuracyMeters.elim coding.json.null coding.number
      recordedAt := coding.text row.locationPayload.recordedAt }
  totalDistanceMeters := row.totalDistanceMeters.elim coding.json.null coding.number

theorem orNull_number (a : Option ℚ) :
    coding.json.orNull (a.elim coding.json.null coding.number) = a.elim coding.json.null coding.number := by
  refine if_neg ?_
  cases a with
  | none => exact coding.null_ne_undefined
  | some q => exact coding.number_ne_undefined q

theorem entry_event (rideId : Id) (q : QueuedEvent) :
    (coding.event q.event).entry coding.json rideId = coding.track (q.entry rideId) := by
  have htotal := coding.orNull_number (some q.event.totalDistanceMeters)
  simp only [Option.elim_some] at htotal
  simp only [JsTrackEvent.entry, event, track, QueuedEvent.entry, htotal]

theorem summary_event (rideId : Id) (q : QueuedEvent) :
    (coding.event q.event).summary coding.json rideId = coding.summary (q.summary rideId) := by
  have haccuracy := coding.orNull_number q.event.accuracyMeters
  have hrole : coding.role q.event.role = coding.json.driver ↔ q.event.role = .driver := by
    rw [← coding.role_driver]
    exact coding.role_injective.eq_iff
  simp only [JsTrackEvent.summary, event, summary, QueuedEvent.summary, haccuracy, hrole, coding.isFinite_number, if_true]
  cases q.event.role <;> rfl

/-- The upsert by ride and role is the same on the coded rows. -/
theorem set_summary (l : List TripSummaryUpsert) (x : TripSummaryUpsert) :
    SummaryEntry.set (l.map coding.summary) (coding.summary x) = (setSummary l x).map coding.summary := by
  have hkey (y : TripSummaryUpsert) :
      (coding.summary y).clientRole = (coding.summary x).clientRole ↔ y.clientRole = x.clientRole :=
    coding.role_injective.eq_iff
  have hany : (l.map coding.summary).any (fun y => y.rideId == (coding.summary x).rideId &&
      y.clientRole == (coding.summary x).clientRole) =
        l.any fun y => y.rideId == x.rideId && y.clientRole == x.clientRole := by
    rw [List.any_map]
    refine List.any_congr rfl fun y => ?_
    rw [Bool.eq_iff_iff]
    simp only [Function.comp_apply, Bool.and_eq_true, beq_iff_eq, hkey]
    exact Iff.rfl
  unfold SummaryEntry.set setSummary
  rw [hany]
  split
  · rw [List.map_map, List.map_map]
    refine List.map_congr_left fun y _ => ?_
    simp only [Function.comp_apply, hkey]
    have hride : (coding.summary y).rideId = (coding.summary x).rideId ↔ y.rideId = x.rideId := Iff.rfl
    simp only [hride]
    split <;> rfl
  · rw [List.map_append, List.map_singleton]

theorem foldl_set_summary (l xs : List TripSummaryUpsert) :
    (xs.map coding.summary).foldl SummaryEntry.set (l.map coding.summary) = (xs.foldl setSummary l).map coding.summary := by
  induction xs generalizing l with
  | nil => rfl
  | cons x xs ih =>
    rw [List.map_cons, List.foldl_cons, set_summary, ih]
    rfl

end JsCoding

end Coding

/-- With what `JSON.stringify` makes of the events and of the states. -/
structure TrackingCodec (V : Type) [DecidableEq V] extends JsCoding V where
  eventText : TrackEvent → String
  stateText : TripTrackState → String
  event_eventText : ∀ e, json.event (eventText e) = some (toJsCoding.event e)
  stateText_nonempty : ∀ state, (stateText state).isEmpty = false
  isCompleted_stateText : ∀ state, json.isCompleted (stateText state) = state.completed

namespace TrackingCodec

variable {V : Type} [DecidableEq V] (codec : TrackingCodec V)

/-- An empty list has no key. -/
def events (queue : List QueuedEvent) : Option RedisValue :=
  if queue.isEmpty then none else some (.list (queue.map fun q => codec.eventText q.event))

/-- The keys and the tables that `t` stands for. -/
def data (t : TrackingWorld) : TripData V where
  state rideId := (t.world.tripStates rideId).map fun state => .string (codec.stateText state)
  events rideId := codec.events (t.queue rideId)
  active := t.world.activeRides
  tracks := t.tracks.map codec.track
  summaries := t.summaries.map codec.summary

theorem lrange_events (queue : List QueuedEvent) :
    RedisValue.lrange (codec.events queue) = .ok (queue.map fun q => codec.eventText q.event) := by
  cases queue <;> rfl

theorem filterMap_eventText (queue : List QueuedEvent) :
    (queue.map fun q => codec.eventText q.event).filterMap codec.json.event =
      queue.map fun q => codec.toJsCoding.event q.event := by
  rw [List.filterMap_map]
  have hread : codec.json.event ∘ (fun q : QueuedEvent => codec.eventText q.event) =
      fun q => some (codec.toJsCoding.event q.event) := funext fun q => codec.event_eventText q.event
  rw [hread]
  exact congrFun List.filterMap_eq_map' queue

/-- No flush has a transaction, and the keys and the tables are those that `t` stands for. -/
structure Holds (s : FlushStore V) (t : TrackingWorld) : Prop where
  data : s.toTripData = codec.data t
  idle : s.transaction = fun _ => .none

section Changes

variable {codec} {s : FlushStore V} {t : TrackingWorld} (h : codec.Holds s t) (env : Environment) (rideId : Id)

section Keys

include h

theorem Holds.delState : codec.Holds (s.setState rideId none) (trackingHandle env (.delState rideId) t).2 := by
  let text := Option.map fun state => RedisValue.string (codec.stateText state)
  have hstate : Function.update (codec.data t).state rideId none =
      (codec.data (trackingHandle env (.delState rideId) t).2).state :=
    (Function.comp_update text t.world.tripStates rideId none).symm
  refine ⟨?_, h.idle⟩
  show { s.toTripData with state := Function.update s.toTripData.state rideId none } = _
  rw [h.data, hstate]
  rfl

theorem Holds.delEvents : codec.Holds (s.setEvents rideId none) (trackingHandle env (.delEvents rideId) t).2 := by
  have hevents : Function.update (codec.data t).events rideId none =
      (codec.data (trackingHandle env (.delEvents rideId) t).2).events :=
    (Function.comp_update codec.events t.queue rideId []).symm
  refine ⟨?_, h.idle⟩
  show { s.toTripData with events := Function.update s.toTripData.events rideId none } = _
  rw [h.data, hevents]
  rfl

theorem Holds.sremActiveRide : codec.Holds (s.deactivate rideId) (trackingHandle env (.sremActiveRide rideId) t).2 := by
  refine ⟨?_, h.idle⟩
  show { s.toTripData with active := s.toTripData.active.filter (· ≠ rideId) } = _
  rw [h.data]
  rfl

end Keys

theorem data_addRows {s : FlushStore V} (h : s.toTripData = codec.data t) (env : Environment) (entries : List TripTrack)
    (summaries : List TripSummaryUpsert) : (s.addRows (entries.map codec.track) (summaries.map codec.summary)).toTripData =
      codec.data (trackingHandle env (.persistFlush entries summaries) t).2 := by
  have htracks : (codec.data t).tracks ++ entries.map codec.track = (t.tracks ++ entries).map codec.track :=
    (List.map_append ..).symm
  have hsummaries : (summaries.map codec.summary).foldl SummaryEntry.set (codec.data t).summaries =
      (summaries.foldl setSummary t.summaries).map codec.summary := codec.foldl_set_summary _ _
  show { s.toTripData with
    tracks := s.toTripData.tracks ++ entries.map codec.track
    summaries := (summaries.map codec.summary).foldl SummaryEntry.set s.toTripData.summaries } = _
  rw [h, htracks, hsummaries]
  rfl

end Changes

end TrackingCodec

namespace RedisFlush

open TrackingCodec

variable {V : Type} [DecidableEq V] {codec : TrackingCodec V} {env : Environment} {rideId : Id}

/-- Every command is executed and answered, and the database takes every row. -/
abbrev undisturbed : Handler (RideCommand V) RideCommand.Answer ServiceError (FlushStore V) :=
  rideHandle (fun _ => true) fun _ _ => .none

theorem run_send (c : FlushCommand V) (s : FlushStore V) :
    (send rideId c).run undisturbed s = (s.counted rideId).perform rideId (fun _ => true) c :=
  Program.run_perform _ _ _

variable (codec env) in
/-- A program over the keys does what one over the typed queue does. -/
abbrev Mirrors {α β : Type} (rel : α → β → Prop) (p : FlushProgram V α) (q : TrackingService β) : Prop :=
  Program.Simulates undisturbed (trackingHandle env) codec.Holds rel p q

theorem mirrors_send (c : FlushCommand V) (op : TrackingCall) {rel : c.Answer → op.Answer → Prop}
    (h : ∀ s t, codec.Holds s t → Agrees rel (s.perform rideId (fun _ => true) c).1 (trackingHandle env op t).1 ∧
      codec.Holds (s.perform rideId (fun _ => true) c).2 (trackingHandle env op t).2) :
    Mirrors codec env rel (send rideId c) (trackingCall op) := by
  refine .perform (RideCommand.mk rideId c) op fun s t hst => ?_
  exact h (s.counted rideId) t ⟨hst.data, hst.idle⟩

theorem mirrors_lrangeEvents : Mirrors codec env
    (fun payloads queue => payloads = queue.map fun q => codec.eventText q.event)
    (send rideId .lrangeEvents) (trackingCall (.lrangeEvents rideId)) := by
  refine mirrors_send .lrangeEvents (.lrangeEvents rideId) fun s t h => ?_
  refine ⟨?_, h⟩
  have hevents : s.events rideId = codec.events (t.queue rideId) := congrArg (fun d => d.events rideId) h.data
  show Agrees _ (RedisValue.lrange (s.events rideId)) (.ok (t.queue rideId))
  rw [hevents, codec.lrange_events]
  exact .ok rfl

theorem mirrors_llenEvents : Mirrors codec env (fun remaining remaining' => remaining = remaining')
    (send rideId .llenEvents) (trackingCall (.llenEvents rideId)) := by
  refine mirrors_send .llenEvents (.llenEvents rideId) fun s t h => ?_
  refine ⟨?_, h⟩
  have hevents : s.events rideId = codec.events (t.queue rideId) := congrArg (fun d => d.events rideId) h.data
  show Agrees _ ((RedisValue.lrange (s.events rideId)).map List.length) (.ok (t.queue rideId).length)
  rw [hevents, codec.lrange_events]
  exact .ok (List.length_map ..)

theorem mirrors_delEvents : Mirrors codec env (fun _ _ => True)
    (send rideId .delEvents) (trackingCall (.delEvents rideId)) := by
  refine mirrors_send .delEvents (.delEvents rideId) fun s t h => ?_
  exact ⟨.ok trivial, h.delEvents env rideId⟩

theorem mirrors_delState : Mirrors codec env (fun _ _ => True)
    (send rideId .delState) (trackingCall (.delState rideId)) := by
  refine mirrors_send .delState (.delState rideId) fun s t h => ?_
  exact ⟨.ok trivial, h.delState env rideId⟩

theorem mirrors_sremActiveRide : Mirrors codec env (fun _ _ => True)
    (send rideId .sremActiveRide) (trackingCall (.sremActiveRide rideId)) := by
  refine mirrors_send .sremActiveRide (.sremActiveRide rideId) fun s t h => ?_
  exact ⟨.ok trivial, h.sremActiveRide env rideId⟩

theorem mirrors_getState : Mirrors codec env (fun completed state => completed = state.completed)
    (getState codec.json rideId) (Tracked (NebLite.getState rideId)) := by
  intro s t h
  have hstate : s.state rideId = (t.world.tripStates rideId).map fun state => .string (codec.stateText state) :=
    congrArg (fun d => d.state rideId) h.data
  have hread : (Tracked (NebLite.getState rideId)).run (trackingHandle env) t =
      (.ok ((t.world.tripStates rideId).getD (.initial rideId)), t) := rfl
  have hget : (send rideId .getState).run undisturbed s =
      (.ok ((t.world.tripStates rideId).map codec.stateText), s.counted rideId) := by
    rw [run_send]
    show (RedisValue.get (s.state rideId), s.counted rideId) = _
    rw [hstate]
    cases t.world.tripStates rideId <;> rfl
  rw [hread]
  unfold getState
  rw [Program.run_bind_ok _ hget]
  have hcounted : codec.Holds (s.counted rideId) t := ⟨h.data, h.idle⟩
  cases t.world.tripStates rideId with
  | none => exact ⟨.ok rfl, hcounted⟩
  | some state =>
    simp only [Option.map_some, codec.stateText_nonempty, codec.isCompleted_stateText]
    exact ⟨.ok rfl, hcounted⟩

theorem mirrors_cleanupRide : Mirrors codec env (fun _ _ => True) (cleanupRide rideId) (NebLite.cleanupRide rideId) := by
  have hreturns (op : TrackingCall) (ht : ∀ t, ∃ a, (trackingHandle env op t).1 = .ok a) (t : TrackingWorld)
      (e : ServiceError) : ((trackingCall op).run (trackingHandle env) t).1 ≠ .error e := by
    have hrun : (trackingCall op).run (trackingHandle env) t = trackingHandle env op t := Program.run_perform _ _ _
    obtain ⟨a, ha⟩ := ht t
    rw [hrun, ha]
    exact nofun
  refine (mirrors_delState.attempt (hreturns _ fun _ => ⟨(), rfl⟩)).bind fun state _ hstate => ?_
  refine (mirrors_delEvents.attempt (hreturns _ fun _ => ⟨(), rfl⟩)).bind fun events _ hevents => ?_
  refine (mirrors_sremActiveRide.attempt (hreturns _ fun _ => ⟨(), rfl⟩)).bind_left fun active _ hactive => ?_
  obtain ⟨_, rfl, -⟩ := hstate
  obtain ⟨_, rfl, -⟩ := hevents
  obtain ⟨_, rfl, -⟩ := hactive
  exact .pure trivial

section Persist

variable {s : FlushStore V} {entries entries' : List (TrackEntry V)} {summaries summaries' : List (SummaryEntry V)}

theorem write_running (h : s.transaction rideId = .running entries summaries) :
    s.write rideId true entries' summaries' =
      (.ok (), s.setTransaction rideId (.running (entries ++ entries') (summaries ++ summaries'))) := by
  simp only [FlushStore.write, h, if_true]

theorem commit_running (h : s.transaction rideId = .running entries summaries) :
    s.commit rideId = (s.addRows entries summaries).setTransaction rideId .none := by
  simp only [FlushStore.commit, h]

omit [DecidableEq V] in
theorem transaction_setTransaction (transaction : FlushTransaction V) :
    ((s.setTransaction rideId transaction).counted rideId).transaction rideId = transaction :=
  Function.update_self ..

variable (rideId s) in
theorem run_persistFlush (hentries : entries ≠ []) (hsummaries : summaries ≠ []) : ∃ n,
    (persistFlush rideId entries summaries).run undisturbed s = (.ok (),
      { (s.setTransaction rideId .none).addRows entries summaries with made := n }) := by
  have hsome : entries.isEmpty = false := by simpa using hentries
  have hsome' : summaries.isEmpty = false := by simpa using hsummaries
  let s₁ := s.counted rideId
  let s₂ := (s₁.counted rideId).setTransaction rideId (.running [] [])
  let s₃ := (s₂.counted rideId).setTransaction rideId (.running entries [])
  let s₄ := (s₃.counted rideId).setTransaction rideId (.running entries summaries)
  let s₅ := ((s₄.counted rideId).addRows entries summaries).setTransaction rideId .none
  have hconnect : (send rideId .connect).run undisturbed s = (.ok (), s₁) := run_send _ _
  have hstart : (send rideId .startTransaction).run undisturbed s₁ = (.ok (), s₂) := run_send _ _
  have hinsert : (send rideId (.insertMany entries)).run undisturbed s₂ = (.ok (), s₃) := by
    rw [run_send]
    exact write_running (transaction_setTransaction _)
  have hupsert : (send rideId (.upsertSummaries summaries)).run undisturbed s₃ = (.ok (), s₄) := by
    rw [run_send]
    have hopen : (s₃.counted rideId).transaction rideId = .running entries [] := transaction_setTransaction _
    have hwrite : (s₃.counted rideId).write rideId true [] summaries =
        (.ok (), (s₃.counted rideId).setTransaction rideId (.running (entries ++ []) ([] ++ summaries))) :=
      write_running hopen
    rw [List.append_nil, List.nil_append] at hwrite
    exact hwrite
  have hcommit : (send rideId .commitTransaction).run undisturbed s₄ = (.ok (), s₅) := by
    rw [run_send]
    exact congrArg (Prod.mk _) (commit_running (transaction_setTransaction _))
  have hrelease : (send rideId .release).run undisturbed s₅ =
      (.ok (), (s₅.counted rideId).setTransaction rideId .none) := run_send _ _
  refine ⟨((s₅.counted rideId).setTransaction rideId .none).made, ?_⟩
  unfold persistFlush
  simp only [hsome, hsome', Bool.false_eq_true, false_and, if_false]
  rw [Program.run_finalizing, Program.run_bind_ok _ hconnect, Program.run_catching, Program.run_bind_ok _ hstart,
    Program.run_bind_ok _ hinsert, Program.run_bind_ok _ hupsert, hcommit]
  simp only [hrelease]
  refine Prod.ext rfl ?_
  simp only [s₅, s₄, s₃, s₂, s₁, FlushStore.setTransaction, FlushStore.counted, FlushStore.addRows, Function.update_idem]

end Persist

theorem mirrors_persistFlush {entries : List TripTrack} {summaries : List TripSummaryUpsert} (hentries : entries ≠ [])
    (hsummaries : summaries ≠ []) : Mirrors codec env (fun _ _ => True)
      (persistFlush rideId (entries.map codec.track) (summaries.map codec.summary))
      (trackingCall (.persistFlush entries summaries)) := by
  intro s t h
  have htracks : entries.map codec.track ≠ [] := by simpa using hentries
  have hupserts : summaries.map codec.summary ≠ [] := by simpa using hsummaries
  obtain ⟨n, hrun⟩ := run_persistFlush rideId s htracks hupserts
  have hcall : (trackingCall (.persistFlush entries summaries)).run (trackingHandle env) t =
      trackingHandle env (.persistFlush entries summaries) t := Program.run_perform _ _ _
  rw [hrun, hcall]
  refine ⟨.ok trivial, codec.data_addRows (s := s.setTransaction rideId .none) h.data env entries summaries, ?_⟩
  show Function.update s.transaction rideId .none = _
  rw [h.idle]
  exact Function.update_eq_self rideId _

variable (codec env rideId) in
theorem mirrors_flushRide : Mirrors codec env (fun _ _ => True)
    (flushRide codec.json rideId) (NebLite.flushRide rideId) := by
  unfold flushRide NebLite.flushRide
  refine mirrors_lrangeEvents.bind fun payloads queue hpayloads => ?_
  subst hpayloads
  by_cases hqueue : queue = []
  · subst hqueue
    simp only [List.map_nil, List.isEmpty_nil, if_true]
    refine mirrors_getState.bind fun completed state hcompleted => ?_
    subst hcompleted
    split
    · exact mirrors_cleanupRide
    · exact .pure trivial
  have hsome : queue.isEmpty = false := by simpa using hqueue
  have hentries : ((queue.map fun q => codec.event q.event).map (·.entry codec.json rideId)) =
      (queue.map (·.entry rideId)).map codec.track := by
    rw [List.map_map, List.map_map]
    exact List.map_congr_left fun q _ => codec.entry_event rideId q
  have hsummaries : ((queue.map fun q => codec.event q.event).map (·.summary codec.json rideId)).foldl SummaryEntry.set [] =
      ((queue.map (·.summary rideId)).foldl setSummary []).map codec.summary := by
    have hcoded : (queue.map fun q => codec.event q.event).map (·.summary codec.json rideId) =
        (queue.map (·.summary rideId)).map codec.summary := by
      rw [List.map_map, List.map_map]
      exact List.map_congr_left fun q _ => codec.summary_event rideId q
    rw [hcoded]
    exact codec.foldl_set_summary [] _
  simp only [List.isEmpty_map, hsome, Bool.false_eq_true, if_false, codec.filterMap_eventText]
  rw [hentries, hsummaries]
  refine mirrors_delEvents.bind fun _ _ _ => ?_
  have hbatch : queue.map (·.entry rideId) ≠ [] := by simpa using hqueue
  have hupserts : (queue.map (·.summary rideId)).foldl setSummary [] ≠ [] :=
    foldl_setSummary_ne_nil (by simpa using hqueue)
  refine (mirrors_persistFlush hbatch hupserts).bind fun _ _ _ => ?_
  refine mirrors_getState.bind fun completed state hcompleted => ?_
  subst hcompleted
  split
  · refine mirrors_llenEvents.bind fun remaining remaining' hremaining => ?_
    subst hremaining
    split
    · exact mirrors_cleanupRide
    · exact .pure trivial
  · exact .pure trivial

section FlushAll

/-- But for the number of its commands. -/
def uncounted (r : RideStore V) : RideStore V := { r with made := 0 }

variable (codec env)

theorem holds_start (t : TrackingWorld) : codec.Holds (codec.data t).start t := ⟨rfl, rfl⟩

theorem ride_of_holds {s : FlushStore V} {t : TrackingWorld} (h : codec.Holds s t) (rideId : Id) :
    uncounted (s.ride rideId) = (codec.data t).start.ride rideId := by
  have hdata : ∀ d : TripData V, s.toTripData = d → uncounted (s.ride rideId) = d.start.ride rideId := by
    rintro d rfl
    simp only [uncounted, FlushStore.ride, TripData.start, h.idle]
  exact hdata _ h.data

/-- In every interleaving a `flushAll` leaves of each ride what the flush over its typed queue, alone, leaves. -/
theorem flushAll_mirrors (t : TrackingWorld) {sched : List Id}
    (hended : (flushed codec.json (fun _ => true) (fun _ _ => .none) (codec.data t) sched).Ended) (rideId : Id) :
    uncounted ((flushed codec.json (fun _ => true) (fun _ _ => .none) (codec.data t) sched).store.ride rideId) =
      (codec.data ((flushAllRide rideId).run (trackingHandle env) t).2).start.ride rideId := by
  have hread : (trackingCall .smembersActiveRides).run (trackingHandle env) t = (.ok t.world.activeRides, t) := rfl
  have hactives : (codec.data t).active = t.world.activeRides := rfl
  rw [(ended_flushOne codec.json (fun _ => true) (fun _ _ => .none) (codec.data t) sched (hended rideId)).2,
    hactives]
  unfold flushAllRide
  rw [Program.run_bind_ok _ hread]
  by_cases hactive : rideId ∈ t.world.activeRides
  · obtain ⟨-, hholds⟩ := mirrors_flushRide codec env rideId _ t (holds_start codec t)
    have hcaught : (((NebLite.flushRide rideId).catching fun _ => pure ()).run (trackingHandle env) t).2 =
        ((NebLite.flushRide rideId).run (trackingHandle env) t).2 := by
      rw [Program.run_catching]
      rcases (NebLite.flushRide rideId).run (trackingHandle env) t with ⟨e | u, v⟩ <;> rfl
    rw [if_pos hactive, if_pos hactive, hcaught]
    exact ride_of_holds codec hholds rideId
  · rw [if_neg hactive, if_neg hactive]
    exact ride_of_holds codec (holds_start codec t) rideId

end FlushAll

end RedisFlush

/-- Values that are told apart by what they are made of. -/
inductive CodedValue where
  | undefined
  | null
  | bool (b : Bool)
  | id (rideId : Id)
  | role (role : EClientType)
  | number (q : ℚ)
  | text (text : String)
  deriving DecidableEq

open Function in
theorem exists_eventText : ∃ f : TrackEvent → String, Injective f := by
  have hchar : Countable Char := Injective.countable (f := Char.toNat) fun a b h => Char.toNat_inj.mp h
  have hstring : Countable String := Injective.countable (f := String.toList) fun a b h => String.toList_inj.mp h
  have hrole : Countable EClientType := Injective.countable (f := fun r => decide (r = .driver)) fun a b h => by
    cases a <;> cases b <;> first | rfl | cases h
  have hevent : Countable TrackEvent := Injective.countable
    (f := fun e : TrackEvent => (e.role, e.clientId, e.longitude, e.latitude, e.recordedAt, e.accuracyMeters,
      e.distanceDeltaMeters, e.totalDistanceMeters)) fun a b h => by
    cases a
    cases b
    simp only [Prod.mk.injEq] at h
    simp only [TrackEvent.mk.injEq]
    exact h
  obtain ⟨n, hn⟩ := exists_injective_nat TrackEvent
  refine ⟨fun e => String.ofList (List.replicate (n e) 'e'), fun a b h => hn ?_⟩
  have hlength := congrArg List.length (String.ofList_injective h)
  simpa using hlength

/-- The laws of a codec can be met. -/
theorem exists_trackingCodec : Nonempty (TrackingCodec CodedValue) := by
  obtain ⟨eventText, hinjective⟩ := exists_eventText
  let event (e : TrackEvent) : JsTrackEvent CodedValue :=
    ⟨.role e.role, .id e.clientId, .number e.longitude, .number e.latitude, .text e.recordedAt,
      e.accuracyMeters.elim .null .number, .number e.distanceDeltaMeters, .number e.totalDistanceMeters⟩
  let json : TrackingJson CodedValue :=
    { undefined := .undefined
      null := .null
      driver := .role .driver
      event := fun text => (Function.partialInv eventText text).map event
      completed := fun text => some (.bool (text = "true"))
      truthy := fun value => value = .bool true
      newDate := id
      isFinite := fun _ => true }
  let coding : JsCoding CodedValue :=
    { json
      id := .id
      role := .role
      number := .number
      text := .text
      role_driver := rfl
      role_injective := fun a b h => by cases h; rfl
      null_ne_undefined := nofun
      number_ne_undefined := nofun
      isFinite_number := fun _ => rfl }
  refine ⟨{ coding with
    eventText
    stateText := fun state => if state.completed then "true" else "false"
    event_eventText := fun e => ?_
    stateText_nonempty := fun state => ?_
    isCompleted_stateText := fun state => ?_ }⟩
  · exact congrArg (Option.map event) (Function.partialInv_left hinjective e)
  · split <;> decide
  · cases state.completed <;> simp [TrackingJson.isCompleted, coding, json]

end NebLite
