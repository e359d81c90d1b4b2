import NebLite.Rides.Lifecycle

/-! The snapshots that the lifecycle operations write back. What a process has
read of its ride determines the status that its next UPDATE writes. -/

namespace NebLite

open Atomic

/-- A status that is meant to be final. -/
def ERideStatus.Terminal (s : ERideStatus) : Prop := s = .completed ∨ s = .canceled

instance (s : ERideStatus) : Decidable s.Terminal :=
  inferInstanceAs (Decidable (s = .completed ∨ s = .canceled))

/-- The statuses that a process has read of its ride, newest first, and whether
it has executed an UPDATE. -/
structure ReadLog where
  reads : List ERideStatus
  wrote : Bool

namespace ReadLog

def empty : ReadLog := ⟨[], false⟩

def after (l : ReadLog) : Event Call Call.Answer ServiceError → ReadLog
  | ⟨.findRide _, .ok (some r)⟩ => { l with reads := r.status :: l.reads }
  | ⟨.updateRideRow _, _⟩ => { l with wrote := true }
  | _ => l

/-- The log of process `i` in a trace. -/
def ofTrace {ι : Type} [DecidableEq ι] (i : ι) :
    List (ι × Event Call Call.Answer ServiceError) → ReadLog
  | [] => empty
  | (j, e) :: trace => if j = i then (ofTrace i trace).after e else ofTrace i trace

end ReadLog

/-- The transition with which an operation ends a ride: the statuses that it
admits and the one that it writes. -/
def LifecycleOp.finish : LifecycleOp → Option (List ERideStatus × ERideStatus)
  | .completeRide .. => some ([.enroute, .accepted, .assigned, .tripStarted], .completed)
  | .cancelRide .. => some ([.requested, .candidatesComputed, .assigned, .accepted, .enroute], .canceled)
  | _ => none

/-- The status `s` that an UPDATE writes from a snapshot with status `σ`. -/
inductive Justified (finish : Option (List ERideStatus × ERideStatus)) (wrote : Bool) (σ : ERideStatus) :
    ERideStatus → Prop
  | unchanged : (∀ allowed next, finish = some (allowed, next) → wrote = true ∨ σ ∉ allowed) →
      Justified finish wrote σ σ
  | onTheWay {s} : finish = none → ¬ σ.Terminal → ¬ s.Terminal → Justified finish wrote σ s
  | finishes {s allowed} : wrote = false → finish = some (allowed, s) → σ ∈ allowed →
      Justified finish wrote σ s

/-- An UPDATE from a snapshot with status `σ` leaves the terminal status `t`
alone: the snapshot has it already, or it is the one that the operation's own
transition writes. -/
def LeavesTerminal (finish : Option (List ERideStatus × ERideStatus)) (wrote : Bool)
    (σ t : ERideStatus) : Prop :=
  σ = t ∨ wrote = false ∧ ∃ allowed, finish = some (allowed, t) ∧ σ ∈ allowed

instance (finish : Option (List ERideStatus × ERideStatus)) (wrote : Bool) (σ t : ERideStatus) :
    Decidable (LeavesTerminal finish wrote σ t) :=
  decidable_of_iff (σ = t ∨ wrote = false ∧ ∃ f ∈ finish, f.2 = t ∧ σ ∈ f.1)
    (or_congr_right (and_congr_right fun _ => ⟨fun ⟨_, hf, ht, hm⟩ => ⟨_, ht ▸ hf, hm⟩,
      fun ⟨_, hf, hm⟩ => ⟨_, hf, rfl, hm⟩⟩))

theorem LifecycleOp.finish_admits {op : LifecycleOp} {allowed : List ERideStatus} {next σ : ERideStatus}
    (h : op.finish = some (allowed, next)) (hs : σ ∈ allowed) : ¬ σ.Terminal := by
  cases op <;> simp only [finish, Option.some.injEq, Prod.mk.injEq, reduceCtorEq] at h
  all_goals
    obtain ⟨rfl, -⟩ := h
    rintro (rfl | rfl) <;> simp at hs

theorem Justified.terminal_iff {op : LifecycleOp} {wrote : Bool} {σ s t : ERideStatus}
    (h : Justified op.finish wrote σ s) (ht : t.Terminal) :
    s = t ↔ LeavesTerminal op.finish wrote σ t := by
  cases h with
  | unchanged hn =>
    refine ⟨.inl, fun hl => hl.resolve_right ?_⟩
    rintro ⟨hw, allowed, hf, hm⟩
    rcases hn allowed t hf with h | h
    · rw [hw] at h
      cases h
    · exact h hm
  | onTheWay hf hσ hs =>
    constructor
    · rintro rfl
      exact absurd ht hs
    · rintro (rfl | ⟨-, allowed, hf', -⟩)
      · exact absurd ht hσ
      · rw [hf] at hf'
        cases hf'
  | finishes hw hf hm =>
    constructor
    · rintro rfl
      exact .inr ⟨hw, _, hf, hm⟩
    · rintro (rfl | ⟨-, allowed, hf', -⟩)
      · exact absurd ht (LifecycleOp.finish_admits hf hm)
      · rw [hf] at hf'
        cases hf'
        rfl

/-- Calls that neither read the ride nor write its row. -/
def Call.Quiet : Call → Prop
  | .findRide _ | .updateRideRow _ => False
  | _ => True

/-- Calls that touch neither rides nor candidates. -/
def Call.Apart : Call → Prop
  | .saveHistory _ | .removeRouteJob _ | .emit _ | .getTripState _ | .setTripState _ _
  | .addActiveRide _ | .pushTripEvent _ _ | .expireTripEvents _ | .geodist _ _
  | .enqueueFlushRide _ => True
  | _ => False

/-- Calls that touch neither rides, candidates nor the history. -/
def Call.Outside : Call → Prop
  | .saveHistory _ => False
  | op => op.Apart

/-- The calls for ride `k` that touch neither rides, candidates nor the history. -/
def Call.Attends (k : Id) : Call → Prop
  | .removeRouteJob rideId | .getTripState rideId | .setTripState rideId _ | .addActiveRide rideId
  | .pushTripEvent rideId _ | .expireTripEvents rideId | .enqueueFlushRide rideId => rideId = k
  | .emit _ | .geodist _ _ => True
  | _ => False

theorem Call.Outside.apart {op : Call} (h : op.Outside) : op.Apart := by
  cases op <;> first | exact h | exact h.elim

theorem Call.Attends.outside {k : Id} {op : Call} (h : op.Attends k) : op.Outside := by
  cases op <;> trivial

theorem Call.Apart.quiet {op : Call} (h : op.Apart) : op.Quiet := by
  cases op <;> trivial

theorem Call.Apart.tables {op : Call} (h : op.Apart) (env : Environment) (w : World) :
    (handle env op w).2.rides = w.rides ∧ (handle env op w).2.candidates = w.candidates := by
  cases op <;> first | exact ⟨rfl, rfl⟩ | exact h.elim

section Apart

variable {env : Environment} {k : Id}

theorem calls_call {q : Call → Prop} {c : Call} (h : q c) : (call c).Calls q :=
  (Program.calls_perform c).mpr h

theorem calls_forM {α : Type} {q : Call → Prop} {f : α → Service Unit} (hf : ∀ a, (f a).Calls q)
    (l : List α) : (l.forM f).Calls q := by
  induction l with
  | nil => trivial
  | cons a l ih => exact (hf a).bind fun _ => ih

theorem attends_dispatch {target targetId event ride message extras} :
    (dispatchNotification target targetId event ride message extras).Calls (Call.Attends k) :=
  calls_call trivial

theorem attends_both {ride riderEvent driverEvent riderMessage driverMessage extras} :
    (notifyBoth ride riderEvent driverEvent riderMessage driverMessage extras).Calls (Call.Attends k) := by
  unfold notifyBoth
  split
  · exact attends_dispatch
  · exact attends_dispatch.bind fun _ => attends_dispatch

theorem attends_riderConfirmed {ride candidate} :
    (notifyRiderConfirmed ride candidate).Calls (Call.Attends k) := by
  unfold notifyRiderConfirmed
  split
  · trivial
  · exact attends_dispatch

theorem attends_getState : (getState k).Calls (Call.Attends k) :=
  Program.Calls.bind (calls_call rfl) fun _ => trivial

theorem attends_distance {x y : Coordinate} :
    (calculateDistanceBetweenCoordinates x y).Calls (Call.Attends k) :=
  Program.Calls.bind (calls_call trivial) fun _ => trivial

theorem attends_within {x y : Coordinate} {radius : ℚ} {message : String} :
    (ensureLocationWithinRadius x y radius message).Calls (Call.Attends k) := by
  refine attends_distance.bind fun d => ?_
  split <;> trivial

theorem attends_latestLocation {role : EClientType} :
    (getLatestLocation k role).Calls (Call.Attends k) :=
  attends_getState.bind fun _ => trivial

theorem attends_atPickup {ride : Ride} {location : ParticipantLocation} :
    (ensureAtPickup env ride location).Calls (Call.Attends ride.id) := by
  refine attends_latestLocation.bind fun l => ?_
  cases l with
  | none => trivial
  | some l => exact attends_within.bind fun _ => attends_within.bind fun _ => attends_within

theorem attends_atDropoff {ride : Ride} {location : ParticipantLocation} :
    (ensureAtDropoff env ride location).Calls (Call.Attends ride.id) := by
  refine attends_latestLocation.bind fun l => ?_
  cases l with
  | none => trivial
  | some l => exact attends_within.bind fun _ => attends_within.bind fun _ => attends_within

theorem attends_recordLocation {clientId : Id} {role : EClientType} {location : ParticipantLocation} :
    (recordLocation k clientId role location).Calls (Call.Attends k) := by
  refine attends_getState.bind fun state => ?_
  have hd : (driverDistance state role location).Calls (Call.Attends k) := by
    unfold driverDistance
    split
    · exact attends_distance
    · trivial
  refine hd.bind fun _ => ?_
  refine Program.Calls.bind (calls_call rfl) fun _ => ?_
  refine Program.Calls.bind (calls_call rfl) fun _ => ?_
  refine Program.Calls.bind (calls_call rfl) fun _ => ?_
  exact Program.Calls.bind (calls_call rfl) fun _ => trivial

theorem attends_markRideCompleted : (markRideCompleted k).Calls (Call.Attends k) := by
  refine attends_getState.bind fun state => ?_
  split
  · refine Program.Calls.bind (calls_call rfl) fun _ => ?_
    exact calls_call rfl
  · trivial

theorem attends_ensureAccess {r : Ride} {requester : RequestingClient} :
    (ensureRequesterCanAccessRide r requester).Calls (Call.Attends k) := by
  unfold ensureRequesterCanAccessRide
  cases requester.id with
  | none => trivial
  | some id =>
    rcases requester.role with _ | _ | _
    · trivial
    · simp only
      split <;> trivial
    · simp only
      split <;> trivial

theorem outside_dispatch {target targetId event ride message extras} :
    (dispatchNotification target targetId event ride message extras).Calls Call.Outside :=
  (attends_dispatch (k := 0)).mono fun _ h => h.outside

theorem outside_both {ride riderEvent driverEvent riderMessage driverMessage extras} :
    (notifyBoth ride riderEvent driverEvent riderMessage driverMessage extras).Calls Call.Outside :=
  (attends_both (k := 0)).mono fun _ h => h.outside

theorem outside_riderConfirmed {ride candidate} :
    (notifyRiderConfirmed ride candidate).Calls Call.Outside :=
  (attends_riderConfirmed (k := 0)).mono fun _ h => h.outside

theorem outside_getState {rid : Id} : (getState rid).Calls Call.Outside :=
  attends_getState.mono fun _ h => h.outside

theorem outside_atPickup {ride : Ride} {location : ParticipantLocation} :
    (ensureAtPickup env ride location).Calls Call.Outside :=
  attends_atPickup.mono fun _ h => h.outside

theorem outside_atDropoff {ride : Ride} {location : ParticipantLocation} :
    (ensureAtDropoff env ride location).Calls Call.Outside :=
  attends_atDropoff.mono fun _ h => h.outside

theorem outside_recordLocation {rid clientId : Id} {role : EClientType} {location : ParticipantLocation} :
    (recordLocation rid clientId role location).Calls Call.Outside :=
  attends_recordLocation.mono fun _ h => h.outside

theorem outside_markRideCompleted {rid : Id} : (markRideCompleted rid).Calls Call.Outside :=
  attends_markRideCompleted.mono fun _ h => h.outside

theorem outside_ensureAccess {r : Ride} {requester : RequestingClient} :
    (ensureRequesterCanAccessRide r requester).Calls Call.Outside :=
  (attends_ensureAccess (k := 0)).mono fun _ h => h.outside

theorem apart_recordStatusChange {rid : Id} {fromStatus : Option ERideStatus} {toStatus : ERideStatus}
    {context : Option String} : (recordStatusChange rid fromStatus toStatus context).Calls Call.Apart :=
  calls_call trivial

theorem apart_dispatch {target targetId event ride message extras} :
    (dispatchNotification target targetId event ride message extras).Calls Call.Apart :=
  outside_dispatch.mono fun _ h => h.apart

theorem apart_both {ride riderEvent driverEvent riderMessage driverMessage extras} :
    (notifyBoth ride riderEvent driverEvent riderMessage driverMessage extras).Calls Call.Apart :=
  outside_both.mono fun _ h => h.apart

theorem apart_riderConfirmed {ride candidate} :
    (notifyRiderConfirmed ride candidate).Calls Call.Apart :=
  outside_riderConfirmed.mono fun _ h => h.apart

theorem apart_getState {rid : Id} : (getState rid).Calls Call.Apart :=
  outside_getState.mono fun _ h => h.apart

theorem apart_atPickup {ride : Ride} {location : ParticipantLocation} :
    (ensureAtPickup env ride location).Calls Call.Apart :=
  outside_atPickup.mono fun _ h => h.apart

theorem apart_atDropoff {ride : Ride} {location : ParticipantLocation} :
    (ensureAtDropoff env ride location).Calls Call.Apart :=
  outside_atDropoff.mono fun _ h => h.apart

theorem apart_recordLocation {rid clientId : Id} {role : EClientType} {location : ParticipantLocation} :
    (recordLocation rid clientId role location).Calls Call.Apart :=
  outside_recordLocation.mono fun _ h => h.apart

theorem apart_markRideCompleted {rid : Id} : (markRideCompleted rid).Calls Call.Apart :=
  outside_markRideCompleted.mono fun _ h => h.apart

theorem apart_ensureAccess {r : Ride} {requester : RequestingClient} :
    (ensureRequesterCanAccessRide r requester).Calls Call.Apart :=
  outside_ensureAccess.mono fun _ h => h.apart

end Apart

def snapshotOutline (env : Environment) (rid : Id)
    (finish : Option (List ERideStatus × ERideStatus)) : Outline ReadLog Call World where
  pre _ _ := True
  move l op w l' := l' = l.after ⟨op, (handle env op w).1⟩ ∧ ∀ m, op = .updateRideRow m → m.id = rid ∧
    ∃ current σ rest, l.reads = current :: σ :: rest ∧ Justified finish l.wrote σ m.status

/-- Every UPDATE of the program is justified by what was read before it. -/
abbrev Traced {α : Type} (env : Environment) (rid : Id)
    (finish : Option (List ERideStatus × ERideStatus)) (l : ReadLog) (p : Service α) : Prop :=
  (snapshotOutline env rid finish).Follows (handle env) (fun _ _ => True) l p

section Traced

variable {env : Environment} {rid : Id} {finish : Option (List ERideStatus × ERideStatus)}
  {l : ReadLog} {α β : Type}

theorem traced_throw (e : ServiceError) : Traced env rid finish l (.throw e : Service α) := trivial

theorem after_quiet {op : Call} (h : op.Quiet) (r : Except ServiceError op.Answer) :
    l.after ⟨op, r⟩ = l := by
  cases op with
  | findRide => exact h.elim
  | updateRideRow => exact h.elim
  | _ => rfl

theorem traced_quiet {p : Service α} {f : α → Service β} (hp : p.Calls Call.Quiet)
    (hf : ∀ a, Traced env rid finish l (f a)) : Traced env rid finish l (p >>= f) := by
  refine Outline.Follows.quiet hp (fun op w hq _ => ⟨(after_quiet hq _).symm, ?_⟩) (fun _ => trivial) hf
  rintro m rfl
  exact hq.elim

theorem traced_apart {p : Service α} {f : α → Service β} (hp : p.Calls Call.Apart)
    (hf : ∀ a, Traced env rid finish l (f a)) : Traced env rid finish l (p >>= f) :=
  traced_quiet (hp.mono fun _ h => h.quiet) hf

theorem traced_findById {f : Option Ride → Service β} (hnone : Traced env rid finish l (f none))
    (hsome : ∀ r, r.id = rid → Traced env rid finish { l with reads := r.status :: l.reads } (f (some r))) :
    Traced env rid finish l (findById rid >>= f) := by
  refine Outline.Follows.perform fun w _ => ⟨_, ⟨rfl, by simp⟩, ?_⟩
  cases hr : w.rides.find rid with
  | none => simpa [handle, hr, ReadLog.after] using hnone
  | some r => simpa [handle, hr, ReadLog.after] using hsome r (Table.key_of_find hr)

theorem traced_updateRide {m : Ride} {f : Ride → Service β} {σ : ERideStatus} {rest : List ERideStatus}
    (hid : m.id = rid) (hl : l.reads = σ :: rest) (hj : Justified finish l.wrote σ m.status)
    (hf : ∀ r l', r.id = rid → l'.wrote = true → (∃ rest, l'.reads = r.status :: rest) →
      Traced env rid finish l' (f r)) :
    Traced env rid finish l (updateRide m.changes >>= f) := by
  unfold updateRide
  have hc : m.changes.id = rid := hid
  simp only [bind_assoc, hc]
  refine traced_findById (traced_throw _) fun r hr => ?_
  simp only [bind_assoc]
  refine Outline.Follows.perform fun w _ => ⟨_, ⟨rfl, ?_⟩, ?_⟩
  · rintro _ ⟨⟩
    exact ⟨hid, r.status, σ, rest, by rw [hl], hj⟩
  · have hok : ∃ rows, (handle env (.updateRideRow (mergeRideData r m.changes)) w).1 = .ok rows := by
      simp only [handle, World.updateRideRow]
      split <;> exact ⟨_, rfl⟩
    obtain ⟨rows, hok⟩ := hok
    rw [hok]
    simp only [Program.ofExcept_ok, Program.ret_bind, UpdateResult.length, Nat.reduceEqDiff, if_false,
      merge_id, hid, bind_assoc]
    refine traced_findById (traced_throw _) fun x hx => ?_
    exact hf x _ hx rfl ⟨_, rfl⟩

theorem traced_transition {allowed : List ERideStatus} {next : ERideStatus} {context : Option String}
    {f : Ride × Bool → Service β}
    (hj : ∀ σ ∈ allowed, Justified finish l.wrote σ next)
    (hf : ∀ r changed l', r.id = rid → (∃ rest, l'.reads = r.status :: rest) →
      (l'.wrote = true ∨ l'.wrote = l.wrote ∧ (r.status ∉ allowed ∨ r.status = next)) →
      Traced env rid finish l' (f (r, changed))) :
    Traced env rid finish l (transitionRideStatus rid allowed next context >>= f) := by
  unfold transitionRideStatus
  simp only [bind_assoc]
  refine traced_findById (traced_throw _) fun r hr => ?_
  simp only
  split
  · next hn => exact hf r false _ hr ⟨_, rfl⟩ (.inr ⟨rfl, .inl hn⟩)
  · next ha =>
    split
    · next he => exact hf r false _ hr ⟨_, rfl⟩ (.inr ⟨rfl, .inr he⟩)
    · simp only [bind_assoc]
      refine traced_updateRide (m := withStatus r next context) hr rfl (hj _ (not_not.mp ha)) ?_
      intro x l' hx hw hl
      exact traced_apart apart_recordStatusChange fun _ =>
        hf x true l' hx hl (.inl hw)

end Traced

theorem quiet_saveMany {l : List RideDriverCandidate} : (saveMany l).Calls Call.Quiet :=
  calls_forM (fun _ => by simp [saveCandidate, call, Call.Quiet]) l

variable {env : Environment} {rid : Id} {finish : Option (List ERideStatus × ERideStatus)}
  {l : ReadLog} {α β : Type}

/-- Reading the ride again at the end of an operation. -/
theorem traced_refreshed {f : Option Ride → α} :
    Traced env rid finish l (do let refreshed ← findById rid; return f refreshed) :=
  traced_findById trivial fun _ _ => trivial

theorem justified_onTheWay {allowed : List ERideStatus} {next : ERideStatus} {wrote : Bool}
    (ha : ∀ x ∈ allowed, ¬ x.Terminal) (hn : ¬ next.Terminal) :
    ∀ σ ∈ allowed, Justified none wrote σ next :=
  fun σ hσ => .onTheWay rfl (ha σ hσ) hn

theorem traced_acceptClaimedRide {c : RideDriverCandidate} {now : Time} :
    Traced env rid none l (acceptClaimedRide rid c now) := by
  unfold acceptClaimedRide
  refine traced_quiet (by simp [saveCandidate, call, Call.Quiet]) fun _ => ?_
  refine traced_transition (justified_onTheWay (by decide) (by decide)) fun r _ l₁ hr _ _ => ?_
  simp only [hr]
  refine traced_transition (justified_onTheWay (by decide) (by decide)) fun x _ l₂ hx _ _ => ?_
  exact traced_apart apart_dispatch fun _ => traced_refreshed

theorem quiet_superseded {r : Ride} {c : RideDriverCandidate} {now : Time} :
    (markCandidateSuperseded r c now).Calls Call.Quiet := by
  simp [markCandidateSuperseded, notifyCandidateSuperseded, dispatchNotification, saveCandidate, call,
    Call.Quiet]

theorem traced_acceptRideByDriver {d : Id} {now : Time} :
    Traced env rid none l (acceptRideByDriver rid d now) := by
  unfold acceptRideByDriver
  refine traced_findById (traced_throw _) fun r hr => ?_
  subst hr
  simp only [↓Program.throw_seq]
  split
  · trivial
  split
  · trivial
  refine traced_quiet (calls_call trivial) fun o => ?_
  cases o with
  | none => trivial
  | some c =>
    simp only
    split
    · trivial
    split
    · trivial
    split
    · trivial
    cases r.driverId with
    | some x =>
      simp only
      split
      · exact traced_quiet quiet_superseded fun _ => trivial
      · exact traced_acceptClaimedRide
    | none =>
      refine traced_quiet (calls_call trivial) fun claimed => ?_
      split
      · exact traced_acceptClaimedRide
      · refine traced_findById ?_ fun x hx => ?_
        · simp only [Option.getD_none]
          split
          · exact traced_quiet quiet_superseded fun _ => trivial
          · exact traced_acceptClaimedRide
        · simp only [Option.getD_some, hx]
          split
          · exact traced_quiet quiet_superseded fun _ => trivial
          · exact traced_acceptClaimedRide

theorem traced_rejectRideByDriver {d : Id} {reason : Option String} {now : Time} :
    Traced env rid none l (rejectRideByDriver rid d reason now) := by
  unfold rejectRideByDriver
  refine traced_findById (traced_throw _) fun r hr => ?_
  subst hr
  simp only [↓Program.throw_seq]
  split
  · trivial
  split
  · trivial
  split
  · trivial
  refine traced_quiet (calls_call trivial) fun o => ?_
  cases o with
  | none => trivial
  | some c =>
    simp only
    split
    · trivial
    split
    · trivial
    refine traced_quiet (by simp [saveCandidate, call, Call.Quiet]) fun _ => ?_
    split
    · refine traced_updateRide (m := { r with driverId := none }) rfl rfl (.unchanged (by simp))
        fun x l₁ hx _ _ => ?_
      rw [hx]
      refine traced_transition (justified_onTheWay (by decide) (by decide)) fun y _ l₂ hy _ _ => ?_
      rw [pure_bind, hy]
      exact traced_apart apart_dispatch fun _ => traced_refreshed
    · rw [pure_bind]
      exact traced_apart apart_dispatch fun _ => traced_refreshed

theorem traced_confirmDriverAcceptance {riderId : Id} {now : Time} :
    Traced env rid none l (confirmDriverAcceptance rid riderId now) := by
  unfold confirmDriverAcceptance
  refine traced_findById (traced_throw _) fun r hr => ?_
  subst hr
  simp only [↓Program.throw_seq]
  split
  · trivial
  cases r.driverId with
  | none => trivial
  | some d =>
    simp only
    split
    · trivial
    split
    · trivial
    split
    · trivial
    split
    · trivial
    refine traced_quiet (calls_call trivial) fun o => ?_
    cases o with
    | none => trivial
    | some c =>
      simp only
      split
      · trivial
      refine traced_transition (justified_onTheWay (by decide) (by decide)) fun x _ l₁ hx _ _ => ?_
      refine traced_quiet (calls_call trivial) fun candidates => ?_
      refine traced_quiet quiet_saveMany fun _ => traced_apart apart_riderConfirmed fun _ => ?_
      refine traced_apart (calls_forM (fun _ => apart_dispatch) _) fun _ => ?_
      rw [hx]
      exact traced_refreshed

theorem traced_rejectDriverAcceptance {riderId : Id} {reason : Option String} {now : Time} :
    Traced env rid none l (rejectDriverAcceptance rid riderId reason now) := by
  unfold rejectDriverAcceptance
  refine traced_findById (traced_throw _) fun r hr => ?_
  subst hr
  simp only [↓Program.throw_seq]
  split
  · trivial
  cases r.driverId with
  | none => trivial
  | some d =>
    simp only
    split
    · trivial
    split
    · trivial
    split
    · trivial
    split
    · trivial
    refine traced_quiet (calls_call trivial) fun o => ?_
    cases o with
    | none => trivial
    | some c =>
      refine traced_quiet (by simp [saveCandidate, call, Call.Quiet]) fun _ => ?_
      refine traced_updateRide (m := { r with driverId := none }) rfl rfl (.unchanged (by simp))
        fun x l₁ hx _ _ => ?_
      refine traced_transition (justified_onTheWay (by decide) (by decide)) fun y _ l₂ hy _ _ => ?_
      refine traced_apart apart_dispatch fun _ => ?_
      rw [hy]
      exact traced_refreshed

/-- The second UPDATE of a finishing operation writes the status it has read. -/
theorem justified_back {allowed : List ERideStatus} {next σ : ERideStatus} {wrote : Bool}
    (hn : next ∉ allowed) (h : wrote = true ∨ σ ∉ allowed ∨ σ = next) :
    Justified (some (allowed, next)) wrote σ σ := by
  refine .unchanged fun allowed' next' he => ?_
  obtain ⟨rfl, rfl⟩ := Prod.mk.inj (Option.some.inj he)
  rcases h with h | h | rfl
  · exact .inl h
  · exact .inr h
  · exact .inr hn

theorem traced_cancelRide {requester : RequestingClient} {reason : Option String} {now : Time}
    (hl : l.wrote = false) :
    Traced env rid (LifecycleOp.cancelRide rid requester reason now).finish l
      (cancelRide rid requester reason now) := by
  unfold cancelRide
  refine traced_findById (traced_throw _) fun r hr => ?_
  subst hr
  simp only [↓Program.throw_seq]
  split
  · trivial
  split
  · trivial
  split
  · trivial
  refine traced_quiet (calls_call trivial) fun _ => ?_
  refine traced_transition (fun σ hσ => .finishes hl rfl hσ) fun x _ l₁ hx ⟨rest, hrest⟩ hw => ?_
  refine traced_updateRide (m := withCancellation x reason) hx hrest ?_ fun y l₂ hy _ _ => ?_
  · exact justified_back (by decide) (hw.imp_right And.right)
  simp only
  refine traced_quiet (calls_call trivial) fun candidates => ?_
  split
  · refine traced_quiet quiet_saveMany fun _ => ?_
    refine traced_apart (calls_forM (fun _ => apart_dispatch) _) fun _ => ?_
    exact hx ▸ traced_refreshed
  · exact hx ▸ traced_refreshed

theorem traced_startRide {driverId : Option Id} {location : ParticipantLocation} :
    Traced env rid none l (startRide env rid driverId location) := by
  unfold startRide
  cases driverId with
  | none => trivial
  | some d =>
    refine traced_findById (traced_throw _) fun r hr => ?_
    subst hr
    simp only [↓Program.throw_seq]
    split
    · trivial
    split
    · trivial
    split
    · trivial
    split
    · trivial
    refine traced_apart apart_atPickup fun _ => traced_apart apart_recordLocation fun _ => ?_
    refine traced_transition (justified_onTheWay (by decide) (by decide)) fun x changed l₁ hx _ _ => ?_
    simp only [hx]
    have hend (y : Ride) (l' : ReadLog) : Traced env r.id none l' (do
        if changed = true then notifyRideStarted y
        return y) := by
      split
      · exact traced_apart apart_both fun _ => trivial
      · trivial
    exact traced_findById (hend x _) fun y _ => hend y _

theorem traced_completeRide {requester : RequestingClient} {location : ParticipantLocation}
    {discount : Option JsNumber} (hl : l.wrote = false) :
    Traced env rid (LifecycleOp.completeRide rid requester location discount).finish l
      (completeRide env rid requester location discount) := by
  unfold completeRide
  cases requester.id with
  | none => trivial
  | some id =>
    refine traced_findById (traced_throw _) fun r hr => ?_
    subst hr
    simp only [↓Program.throw_seq]
    split
    · trivial
    split
    · trivial
    split
    · trivial
    refine traced_apart apart_atDropoff fun _ => traced_apart apart_recordLocation fun _ => ?_
    refine traced_apart (apart_getState.bind fun _ => by simp) fun total => ?_
    refine traced_quiet (by simp) fun fare => ?_
    unfold settleRide
    refine traced_transition (fun σ hσ => .finishes hl rfl hσ) fun x _ l₁ hx ⟨rest, hrest⟩ hw => ?_
    refine traced_apart apart_markRideCompleted fun _ => ?_
    refine traced_updateRide (m := withFare x fare) hx hrest ?_ fun y l₂ hy _ _ => ?_
    · exact justified_back (by decide) (hw.imp_right And.right)
    · have hend (z : Ride) (l' : ReadLog) {summary : FareSummary} : Traced env r.id
          (LifecycleOp.completeRide r.id requester location discount).finish l' (do
            notifyRideCompleted z summary
            return z) := traced_apart apart_both fun _ => trivial
      rw [hy]
      exact traced_findById (hend y _) fun z _ => hend z _

theorem traced_recordTripLocation {requester : RequestingClient} {location : ParticipantLocation} :
    Traced env rid none l (recordTripLocation rid requester location) := by
  unfold recordTripLocation
  cases requester.id with
  | none => trivial
  | some id =>
    refine traced_findById (traced_throw _) fun r _ => ?_
    simp only [↓Program.throw_seq]
    refine traced_apart apart_ensureAccess fun _ => ?_
    split
    · trivial
    split
    · trivial
    rcases requester.role with _ | _ | _
    · trivial
    · exact traced_apart apart_recordLocation fun _ => trivial
    · simp only
      split
      · trivial
      · exact traced_apart apart_recordLocation fun _ => trivial

/-- Every operation on the ride writes what its reads justify. -/
theorem LifecycleOp.traced (env : Environment) {op : LifecycleOp} {rid : Id} (h : op.ride = some rid) :
    Traced env rid op.finish .empty (op.program env) := by
  have discard {α : Type} {p : Service α} {finish} (hp : Traced env rid finish .empty p) :
      Traced env rid finish .empty (p >>= fun _ => pure ()) :=
    hp.bind (fun _ _ _ => trivial) fun _ _ _ => trivial
  cases op with
  | createRide => cases h
  | acceptRideByDriver => exact discard (by cases h; exact traced_acceptRideByDriver)
  | rejectRideByDriver => exact discard (by cases h; exact traced_rejectRideByDriver)
  | confirmDriverAcceptance => exact discard (by cases h; exact traced_confirmDriverAcceptance)
  | rejectDriverAcceptance => exact discard (by cases h; exact traced_rejectDriverAcceptance)
  | cancelRide => exact discard (by cases h; exact traced_cancelRide rfl)
  | startRide => exact discard (by cases h; exact traced_startRide)
  | completeRide => exact discard (by cases h; exact traced_completeRide rfl)
  | recordTripLocation => cases h; exact traced_recordTripLocation

end NebLite
