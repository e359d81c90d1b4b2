import NebLite.Tracking.EventPlaces
import Mathlib.Algebra.BigOperators.Group.Finset.Basic
import Mathlib.Algebra.BigOperators.Fin
import Mathlib.Algebra.Order.Ring.Rat
import Mathlib.Tactic.Ring
import Mathlib.Tactic.Linarith

/-! The distance that a completed ride is billed for. Every location rewrites the
whole tracking state from a copy that was read in an earlier call. -/

namespace NebLite

open Atomic

/-- The total distance in the state of a ride, zero without a state. -/
def TrackingWorld.totalOf (w : TrackingWorld) (rid : Id) : ℚ :=
  ((w.world.tripStates rid).getD (.initial rid)).totalDistanceMeters

/-- The driver events of a ride that have been pushed. -/
def TrackingWorld.driverPushes (w : TrackingWorld) (rid : Id) : List TrackEvent :=
  (w.pushes.filter fun p => p.1 = rid ∧ p.2.role = .driver).map (·.2)

def TrackingWorld.driverMeters (w : TrackingWorld) (rid : Id) : ℚ :=
  ((w.driverPushes rid).map (·.distanceDeltaMeters)).sum

variable {ι : Type} [DecidableEq ι]

/-- The total that a read of the state has answered with. -/
def totalRead (rid : Id) : TrackingEvent → Option ℚ
  | ⟨.service (.getTripState r), .ok state⟩ =>
    if r = rid then some (state.getD (.initial rid)).totalDistanceMeters else none
  | _ => none

/-- The total that process `i` has read last. -/
def lastTotal (rid : Id) (c : TrackingPool ι) (i : ι) : Option ℚ :=
  c.trace.findSome? fun e => if e.1 = i then totalRead rid e.2 else none

/-- Process `i` writes a state over the total that it has read, and no state with
a total is removed. -/
def KeepsTotal (rid : Id) (c : TrackingPool ι) (i : ι) : Prop :=
  match (c.procs i).pending with
  | some (.service (.setTripState r _)) => r = rid → lastTotal rid c i = some (c.store.totalOf rid)
  | some (.delState r) => r = rid → c.store.totalOf rid = 0
  | _ => True

instance (rid : Id) (c : TrackingPool ι) (i : ι) : Decidable (KeepsTotal rid c i) := by
  unfold KeepsTotal
  induction (c.procs i).pending using Option.casesOn with
  | none => infer_instance
  | some call =>
    induction call using TrackingCall.casesOn with
    | service op => induction op using Call.casesOn <;> infer_instance
    | _ => infer_instance

/-- What a process has read, and what it has added without having pushed it yet. -/
inductive TotalPhase where
  | idle
  | read (total : ℚ)
  | owes (delta : ℚ)

namespace TotalPhase

def owed : TotalPhase → ℚ
  | owes delta => delta
  | _ => 0

@[simp] theorem owed_idle : idle.owed = 0 := rfl

@[simp] theorem owed_read (total : ℚ) : (read total).owed = 0 := rfl

@[simp] theorem owed_owes (delta : ℚ) : (owes delta).owed = delta := rfl

end TotalPhase

/-- Calls of the tracking service that neither read nor write the ride's state nor
push an event of the ride. -/
def TrackingCall.Beside (rid : Id) : TrackingCall → Prop
  | .service (.getTripState r) | .service (.setTripState r _) | .service (.pushTripEvent r _)
  | .delState r => r ≠ rid
  | .service (.addActiveRide _) | .service (.expireTripEvents _) | .service (.geodist _ _)
  | .service (.enqueueFlushRide _) => True
  | .service _ => False
  | _ => True

/-- The calls of a process, and what they make of its phase. -/
inductive TotalMove (rid : Id) (w : TrackingWorld) : TotalPhase → TrackingCall → TotalPhase → Prop
  | beside {l c} : c.Beside rid → TotalMove rid w l c l
  | look : TotalMove rid w .idle (.service (.getTripState rid)) .idle
  | read : TotalMove rid w .idle (.service (.getTripState rid)) (.read (w.totalOf rid))
  | set {total delta state} : state.totalDistanceMeters = total + delta →
      TotalMove rid w (.read total) (.service (.setTripState rid state)) (.owes delta)
  | push {delta event} : (if event.role = .driver then event.distanceDeltaMeters else 0) = delta →
      TotalMove rid w (.owes delta) (.service (.pushTripEvent rid event)) .idle
  | remove : TotalMove rid w .idle (.delState rid) .idle

def totalOutline (rid : Id) : Outline TotalPhase TrackingCall TrackingWorld where
  pre _ _ := True
  move l c w l' := TotalMove rid w l c l'

/-- The program moves from phase `l` and ends without a debt. -/
abbrev Totals {α : Type} (env : Environment) (rid : Id) (l : TotalPhase) (p : TrackingService α) : Prop :=
  (totalOutline rid).Follows (trackingHandle env) (fun l _ => l.owed = 0) l p

section Totals

variable {env : Environment} {rid : Id} {l : TotalPhase} {α β : Type}

/-- Calls of a flush. -/
def TrackingCall.Flushing (rid : Id) (c : TrackingCall) : Prop :=
  c.Beside rid ∨ c = .service (.getTripState rid) ∨ c = .delState rid

/-- A program that never writes a state of the ride. -/
theorem totals_flushing {p : TrackingService α} (h : p.Calls (TrackingCall.Flushing rid)) :
    Totals env rid .idle p := by
  induction p with
  | ret a => rfl
  | throw e => rfl
  | call op next ih =>
    intro w _
    refine ⟨.idle, ?_, ih _ (h.2 _)⟩
    obtain hb | rfl | rfl := h.1
    · exact .beside hb
    · exact .look
    · exact .remove

theorem tracked_call (c : Call) : (Tracked (call c)) = trackingCall (.service c) := by
  unfold Tracked call
  rw [Program.lift_perform]
  exact bind_pure _

/-- A call beside the state before the rest of a program. -/
theorem totals_service {c : Call} {f : c.Answer → TrackingService β} (hl : l.owed = 0)
    (hc : (TrackingCall.service c).Beside rid) (hf : ∀ a, Totals env rid l (f a)) :
    Totals env rid l (Tracked (call c) >>= f) := by
  rw [tracked_call]
  apply Outline.Follows.perform
  intro w _
  refine ⟨l, .beside hc, ?_⟩
  cases (trackingHandle env (.service c) w).1 with
  | ok a => exact hf a
  | error e => exact hl

/-- A call that moves the phase and never fails. -/
theorem totals_call {c : Call} {l' : TotalPhase} {f : c.Answer → TrackingService β}
    (hm : ∀ w, TotalMove rid w l (.service c) l')
    (hok : ∀ w, ∃ a, (trackingHandle env (.service c) w).1 = .ok a) (hf : ∀ a, Totals env rid l' (f a)) :
    Totals env rid l (Tracked (call c) >>= f) := by
  rw [tracked_call]
  apply Outline.Follows.perform
  intro w _
  obtain ⟨a, ha⟩ := hok w
  refine ⟨l', hm w, ?_⟩
  rw [ha]
  exact hf a

theorem tracked_getState (rid : Id) : Tracked (getState rid) =
    trackingCall (.service (.getTripState rid)) >>= fun payload => pure (payload.getD (.initial rid)) := by
  unfold getState
  rw [Tracked, Program.lift_bind]
  exact congrArg (· >>= _) (tracked_call _)

/-- The state of the ride is read. -/
theorem totals_getState {f : TripTrackState → TrackingService β}
    (hf : ∀ state, Totals env rid (.read state.totalDistanceMeters) (f state)) :
    Totals env rid .idle (Tracked (getState rid) >>= f) := by
  rw [tracked_getState, bind_assoc]
  apply Outline.Follows.perform
  intro w _
  refine ⟨.read (w.totalOf rid), .read, ?_⟩
  exact hf ((w.world.tripStates rid).getD (.initial rid))

theorem totals_distance {origin destination : Coordinate} {f : ℚ → TrackingService β} (hl : l.owed = 0)
    (hf : ∀ delta, Totals env rid l (f delta)) :
    Totals env rid l (Tracked (calculateDistanceBetweenCoordinates origin destination) >>= f) := by
  have hbind : Tracked (calculateDistanceBetweenCoordinates origin destination) =
      Tracked (call (.geodist origin destination)) >>= fun reply => pure reply.distance := by
    unfold calculateDistanceBetweenCoordinates
    rw [Tracked, Program.lift_bind]
    rfl
  rw [hbind, bind_assoc]
  exact totals_service hl trivial fun reply => hf _

/-- Only a driver's movement is measured, beside the state. -/
theorem totals_driverDistance {state : TripTrackState} {role : EClientType}
    {location : ParticipantLocation} {f : ℚ → TrackingService β} (hl : l.owed = 0)
    (hf : ∀ delta, (role = .rider → delta = 0) → Totals env rid l (f delta)) :
    Totals env rid l (Tracked (driverDistance state role location) >>= f) := by
  unfold driverDistance
  cases role with
  | rider => exact hf 0 fun _ => rfl
  | driver =>
    cases state.lastDriverLocation with
    | none => exact hf 0 fun _ => rfl
    | some previous => exact totals_distance hl fun delta => hf delta fun h => nomatch h

/-- A location of the ride: the state is read and written with what is added, and then
the event is pushed. -/
theorem totals_recordLocation (clientId : Id) (role : EClientType) (location : ParticipantLocation) :
    Totals env rid .idle (Tracked (recordLocation rid clientId role location)) := by
  unfold recordLocation
  simp only [Tracked, Program.lift_bind]
  apply totals_getState
  intro state
  refine totals_driverDistance rfl fun delta hdelta => ?_
  have htotal : (if role = .driver then state.totalDistanceMeters + delta else state.totalDistanceMeters) =
      state.totalDistanceMeters + delta := by
    cases role with
    | rider => simp [hdelta rfl]
    | driver => rfl
  rw [htotal]
  refine totals_call (fun _ => .set rfl) (fun _ => ⟨_, rfl⟩) fun _ => ?_
  refine totals_call (fun _ => .beside trivial) (fun _ => ⟨_, rfl⟩) fun _ => ?_
  refine totals_call (fun _ => .push ?_) (fun _ => ⟨_, rfl⟩) fun _ => ?_
  · cases role with
    | rider => exact (hdelta rfl).symm
    | driver => rfl
  · exact totals_service rfl trivial fun _ => rfl

theorem totals_markRideCompleted : Totals env rid .idle (Tracked (markRideCompleted rid)) := by
  unfold markRideCompleted
  simp only [Tracked, Program.lift_bind]
  apply totals_getState
  intro state
  split
  · rw [Program.lift_bind]
    refine totals_call (fun _ => .set (add_zero _).symm) (fun _ => ⟨_, rfl⟩) fun _ => ?_
    rw [← Tracked, tracked_call]
    exact fun _ _ => ⟨.owes 0, .beside trivial, rfl⟩
  · rfl

/-- Calls of the tracking service on other rides. -/
def Call.OtherRide (rid : Id) (c : Call) : Prop := (TrackingCall.service c).Beside rid

theorem otherRide_call {c : Call} (h : c.OtherRide rid) : (call c).Calls (Call.OtherRide rid) :=
  (Program.calls_perform c).mpr h

theorem otherRide_recordLocation {r : Id} (hr : r ≠ rid) (clientId : Id) (role : EClientType)
    (location : ParticipantLocation) :
    (recordLocation r clientId role location).Calls (Call.OtherRide rid) := by
  unfold recordLocation getState driverDistance calculateDistanceBetweenCoordinates
  refine Program.Calls.bind (Program.Calls.bind (otherRide_call hr) fun _ => trivial) fun state => ?_
  refine Program.Calls.bind ?_ fun delta => ?_
  · split
    · exact Program.Calls.bind (otherRide_call trivial) fun _ => trivial
    · trivial
  · refine Program.Calls.bind (otherRide_call hr) fun _ => ?_
    refine Program.Calls.bind (otherRide_call trivial) fun _ => ?_
    refine Program.Calls.bind (otherRide_call hr) fun _ => ?_
    exact Program.Calls.bind (otherRide_call trivial) fun _ => trivial

theorem otherRide_markRideCompleted {r : Id} (hr : r ≠ rid) :
    (markRideCompleted r).Calls (Call.OtherRide rid) := by
  unfold markRideCompleted getState
  refine Program.Calls.bind (Program.Calls.bind (otherRide_call hr) fun _ => trivial) fun state => ?_
  split
  · exact Program.Calls.bind (otherRide_call hr) fun _ => otherRide_call trivial
  · trivial

theorem totals_otherRide {p : Service α} (h : p.Calls (Call.OtherRide rid)) :
    Totals env rid .idle (Tracked p) :=
  totals_flushing (Program.Calls.lift (h.mono fun _ hc => .inl hc))

theorem flushing_call {c : TrackingCall} (h : c.Flushing rid) :
    (trackingCall c).Calls (TrackingCall.Flushing rid) :=
  (Program.calls_perform c).mpr h

theorem flushing_getState (r : Id) : (Tracked (getState r)).Calls (TrackingCall.Flushing rid) := by
  apply Program.Calls.lift
  unfold getState
  have hget : TrackingCall.Flushing rid (.service (.getTripState r)) := by
    by_cases hr : r = rid
    · exact .inr (.inl (by rw [hr]))
    · exact .inl hr
  exact Program.Calls.bind ((Program.calls_perform _).mpr hget) fun _ => trivial

theorem flushing_delState (r : Id) : (trackingCall (.delState r)).Calls (TrackingCall.Flushing rid) := by
  apply flushing_call
  by_cases hr : r = rid
  · exact .inr (.inr (by rw [hr]))
  · exact .inl hr

theorem flushing_cleanupRide (r : Id) : (cleanupRide r).Calls (TrackingCall.Flushing rid) :=
  Program.Calls.bind (flushing_delState r) fun _ =>
    Program.Calls.bind (flushing_call (.inl trivial)) fun _ => flushing_call (.inl trivial)

theorem flushing_flushRide (r : Id) : (flushRide r).Calls (TrackingCall.Flushing rid) := by
  unfold flushRide
  refine Program.Calls.bind (flushing_call (.inl trivial)) fun events => ?_
  split
  · refine Program.Calls.bind (flushing_getState r) fun state => ?_
    split
    · exact Program.Calls.bind (flushing_cleanupRide r) fun _ => trivial
    · trivial
  · refine Program.Calls.bind (flushing_call (.inl trivial)) fun _ => ?_
    refine Program.Calls.bind (flushing_call (.inl trivial)) fun _ => ?_
    refine Program.Calls.bind (flushing_getState r) fun state => ?_
    split
    · refine Program.Calls.bind (flushing_call (.inl trivial)) fun remaining => ?_
      split
      · exact flushing_cleanupRide r
      · trivial
    · trivial

theorem TrackingOp.totals (env : Environment) (rid : Id) (op : TrackingOp) :
    Totals env rid .idle op.program := by
  cases op with
  | recordLocation r clientId role location =>
    have hp : Totals env rid .idle (Tracked (NebLite.recordLocation r clientId role location)) := by
      by_cases hr : r = rid
      · rw [hr]
        exact totals_recordLocation clientId role location
      · exact totals_otherRide (otherRide_recordLocation hr clientId role location)
    rw [program, Tracked, Program.lift_bind]
    exact hp.bind (fun _ _ hl => hl) fun _ _ hl => hl
  | markRideCompleted r =>
    by_cases hr : r = rid
    · rw [hr]
      exact totals_markRideCompleted
    · exact totals_otherRide (otherRide_markRideCompleted hr)
  | flushRide r => exact totals_flushing (flushing_flushRide r)
  | flushAllRide r =>
    apply totals_flushing
    refine Program.Calls.bind (flushing_call (.inl trivial)) fun rideIds => ?_
    split
    · exact (flushing_flushRide r).catching fun _ => trivial
    · trivial
  | expireState r => exact totals_flushing (flushing_delState r)

end Totals

section LastRead

variable {env : Environment} {rid : Id} {c : TrackingPool ι} {j : ι} {call : TrackingCall}
  {next : Except ServiceError call.Answer → TrackingService Unit}

/-- What process `i` has read last after a call of process `j`. -/
theorem trackingRead_step {β : Type} (read : TrackingEvent → Option β) (hj : c.procs j = .call call next) (i : ι) :
    (c.step (trackingHandle env) j).trace.findSome? (fun e => if e.1 = i then read e.2 else none) =
      if j = i then (read ⟨call, (trackingHandle env call c.store).1⟩).or
        (c.trace.findSome? fun e => if e.1 = i then read e.2 else none)
      else c.trace.findSome? fun e => if e.1 = i then read e.2 else none := by
  rw [Pool.step_call _ hj, List.findSome?_cons]
  by_cases hi : j = i
  · rw [if_pos hi, if_pos hi]
    cases read ⟨call, (trackingHandle env call c.store).1⟩ <;> rfl
  · rw [if_neg hi, if_neg hi]

theorem lastTotal_step (hj : c.procs j = .call call next) (i : ι) :
    lastTotal rid (c.step (trackingHandle env) j) i =
      if j = i then (totalRead rid ⟨call, (trackingHandle env call c.store).1⟩).or (lastTotal rid c i)
      else lastTotal rid c i :=
  trackingRead_step (totalRead rid) hj i

end LastRead

/-- Only a read of the ride's state says anything of its total. -/
theorem totalRead_eq_none {rid : Id} {call : TrackingCall} {r : Except ServiceError call.Answer}
    (h : call ≠ .service (.getTripState rid)) : totalRead rid ⟨call, r⟩ = none := by
  unfold totalRead
  split
  · rename_i r' state heq
    obtain ⟨rfl, -⟩ := Sigma.mk.inj heq
    rw [if_neg]
    rintro rfl
    exact h rfl
  · rfl

section Owed

variable [Fintype ι] {env : Environment} {rid : Id} {labels : ι → TotalPhase} {c : TrackingPool ι}

/-- The stored total is the distance of the pushed events and of those that are still
to be pushed, and whoever is about to write knows what he has read. -/
structure Owed (rid : Id) (labels : ι → TotalPhase) (c : TrackingPool ι) : Prop where
  total : c.store.totalOf rid = c.store.driverMeters rid + ∑ i, (labels i).owed
  read : ∀ i total, labels i = .read total → lastTotal rid c i = some total

/-- One process changes what it owes. -/
theorem sum_owed_update (labels : ι → TotalPhase) (i : ι) (l : TotalPhase) :
    ∑ j, (Function.update labels i l j).owed + (labels i).owed = ∑ j, (labels j).owed + l.owed := by
  have hcomp (j : ι) : (Function.update labels i l j).owed =
      Function.update (fun j => (labels j).owed) i l.owed j := by
    by_cases hj : j = i
    · rw [hj, Function.update_self, Function.update_self]
    · rw [Function.update_of_ne hj, Function.update_of_ne hj]
  simp only [hcomp]
  rw [Finset.sum_update_of_mem (Finset.mem_univ i), Finset.sdiff_singleton_eq_erase]
  have herase := Finset.add_sum_erase Finset.univ (fun j => (labels j).owed) (Finset.mem_univ i)
  rw [← herase]
  ring

variable (env) in
/-- Calls beside the state leave the total and the pushed events of the ride. -/
theorem TrackingCall.Beside.keeps {call : TrackingCall} (h : call.Beside rid) (w : TrackingWorld) :
    (trackingHandle env call w).2.totalOf rid = w.totalOf rid ∧
      (trackingHandle env call w).2.driverMeters rid = w.driverMeters rid := by
  have hset (r : Id) (state : Option TripTrackState) (hr : r ≠ rid) :
      Function.update w.world.tripStates r state rid = w.world.tripStates rid :=
    Function.update_of_ne (Ne.symm hr) _ _
  cases call with
  | service c =>
    cases c with
    | getTripState => exact ⟨rfl, rfl⟩
    | setTripState r state =>
      refine ⟨?_, rfl⟩
      simp only [TrackingWorld.totalOf, trackingHandle, handle, hset r (some state) h]
    | pushTripEvent r event =>
      refine ⟨rfl, ?_⟩
      have hr : r ≠ rid := h
      simp [TrackingWorld.driverMeters, TrackingWorld.driverPushes, trackingHandle, List.filter_append, hr]
    | addActiveRide | expireTripEvents | geodist | enqueueFlushRide => exact ⟨rfl, rfl⟩
    | _ => exact h.elim
  | delState r =>
    refine ⟨?_, rfl⟩
    simp only [TrackingWorld.totalOf, trackingHandle, hset r none h]
  | _ => exact ⟨rfl, rfl⟩

/-- The step lemma: a state is written over the total that has been read. -/
theorem Owed.step (h : Owed rid labels c) {i : ι} {call : TrackingCall} {l : TotalPhase}
    {next : Except ServiceError call.Answer → TrackingService Unit} (hok : KeepsTotal rid c i)
    (hi : c.procs i = .call call next) (hmv : TotalMove rid c.store (labels i) call l) :
    Owed rid (Function.update labels i l) (c.step (trackingHandle env) i) := by
  have hstore : (c.step (trackingHandle env) i).store = (trackingHandle env call c.store).2 := by
    rw [Pool.step_call _ hi]
  have hsum := sum_owed_update labels i l
  unfold KeepsTotal at hok
  rw [hi, Program.pending] at hok
  constructor
  · have htotal := h.total
    rw [hstore]
    generalize hl₀ : labels i = l₀ at hmv hsum
    cases hmv with
    | beside hb =>
      obtain ⟨ht, hd⟩ := hb.keeps env c.store
      rw [ht, hd]
      linarith
    | look | read =>
      have ht : (trackingHandle env (.service (.getTripState rid)) c.store).2 = c.store := rfl
      rw [ht]
      simp only [TotalPhase.owed_idle, TotalPhase.owed_read] at hsum
      linarith
    | @set total delta state hstate =>
      have hread : lastTotal rid c i = some total := h.read i total hl₀
      have hcur : total = c.store.totalOf rid := Option.some.inj (hread.symm.trans (hok rfl))
      have ht : (trackingHandle env (.service (.setTripState rid state)) c.store).2.totalOf rid =
          total + delta := by
        simp [TrackingWorld.totalOf, trackingHandle, handle, hstate]
      have hd : (trackingHandle env (.service (.setTripState rid state)) c.store).2.driverMeters rid =
          c.store.driverMeters rid := rfl
      rw [ht, hd]
      simp only [TotalPhase.owed_read, TotalPhase.owed_owes] at hsum
      linarith
    | @push delta event hdelta =>
      have ht : (trackingHandle env (.service (.pushTripEvent rid event)) c.store).2.totalOf rid =
          c.store.totalOf rid := rfl
      have hd : (trackingHandle env (.service (.pushTripEvent rid event)) c.store).2.driverMeters rid =
          c.store.driverMeters rid + delta := by
        rw [← hdelta]
        unfold TrackingWorld.driverMeters TrackingWorld.driverPushes trackingHandle
        by_cases hr : event.role = .driver
        · simp [List.filter_append, hr]
        · simp [List.filter_append, hr]
      rw [ht, hd]
      simp only [TotalPhase.owed_idle, TotalPhase.owed_owes] at hsum
      linarith
    | remove =>
      have ht : (trackingHandle env (.delState rid) c.store).2.totalOf rid = c.store.totalOf rid := by
        rw [hok rfl]
        simp [TrackingWorld.totalOf, trackingHandle, TripTrackState.initial]
      have hd : (trackingHandle env (.delState rid) c.store).2.driverMeters rid =
          c.store.driverMeters rid := rfl
      rw [ht, hd]
      linarith
  · intro j total hj
    rw [lastTotal_step hi]
    by_cases hij : i = j
    · subst hij
      rw [if_pos rfl]
      rw [Function.update_self] at hj
      subst hj
      generalize hl₀ : labels i = l₀ at hmv
      cases hmv with
      | beside hb =>
        have hne : call ≠ .service (.getTripState rid) := by
          rintro rfl
          exact hb rfl
        rw [totalRead_eq_none hne]
        exact h.read i total hl₀
      | read =>
        simp [totalRead, trackingHandle, handle, TrackingWorld.totalOf]
    · rw [if_neg hij]
      exact h.read j total (by rwa [Function.update_of_ne (Ne.symm hij)] at hj)

theorem owed_start (ops : ι → TrackingOp) {world : World} (hnew : world.tripStates rid = none) :
    Owed rid (fun _ => .idle) (trackingCalls ops world) := by
  constructor
  · have hmeters : (trackingCalls ops world).store.driverMeters rid = 0 := rfl
    have htotal : (trackingCalls ops world).store.totalOf rid = 0 := by
      show ((world.tripStates rid).getD (.initial rid)).totalDistanceMeters = 0
      rw [hnew]
      rfl
    rw [htotal, hmeters]
    simp
  · intro i total hi
    cases hi

/-- Every process follows its outline, and the stored total lacks nothing but what is owed. -/
def TotalsHold (env : Environment) (rid : Id) (c : TrackingPool ι) : Prop :=
  Outline.Holds (fun _ => totalOutline rid) (trackingHandle env) (fun _ l _ => l.owed = 0) (Owed rid) c

theorem totalsHold_exec {ops : ι → TrackingOp} {world : World} {sched : List ι}
    (hnew : world.tripStates rid = none)
    (hm : Pool.Meets (trackingHandle env) (KeepsTotal rid) (trackingCalls ops world) sched) :
    TotalsHold env rid ((trackingCalls ops world).exec (trackingHandle env) sched) := by
  have hstart : TotalsHold env rid (trackingCalls ops world) :=
    ⟨fun _ => .idle, owed_start ops hnew, fun i => (ops i).totals env rid⟩
  apply Outline.exec_holds (fun _ _ _ _ => trivial) ?_ hstart hm
  intro labels c i call next l howed hok hi hmv
  exact howed.step hok hi hmv

/-- When all calls have ended nothing is owed any more. -/
theorem TotalsHold.total (h : TotalsHold env rid c) (hended : c.Ended) :
    c.store.totalOf rid = c.store.driverMeters rid := by
  obtain ⟨labels, howed, hdone⟩ := Outline.Holds.outcome h
  have hzero (i : ι) : (labels i).owed = 0 := by
    obtain ⟨r, hr⟩ := hended.outcome i
    exact hdone i r hr
  rw [howed.total]
  simp [hzero]

theorem run_getTotalDistanceMeters (env : Environment) (rid : Id) (w : TrackingWorld) :
    ((Tracked (getTotalDistanceMeters rid)).run (trackingHandle env) w).1 = .ok (w.totalOf rid) := rfl

end Owed

/-- When all calls have ended, the total is the distance of all driver events that have
been pushed, where every state was written over the total that was read for it. -/
theorem billed_distance_exact [Fintype ι] (env : Environment) (rid : Id) (ops : ι → TrackingOp)
    (world : World) (hnew : world.tripStates rid = none) (sched : List ι)
    (hm : Pool.Meets (trackingHandle env) (KeepsTotal rid) (trackingCalls ops world) sched)
    (hended : ((trackingCalls ops world).exec (trackingHandle env) sched).Ended) :
    ((Tracked (getTotalDistanceMeters rid)).run (trackingHandle env)
      ((trackingCalls ops world).exec (trackingHandle env) sched).store).1 =
      .ok (((trackingCalls ops world).exec (trackingHandle env) sched).store.driverMeters rid) := by
  rw [run_getTotalDistanceMeters, (totalsHold_exec hnew hm).total hended]

/-- Driver 2 shares two locations of ride 1, ten meters apart, and the rider one. -/
def threeLocations : Fin 3 → TrackingOp
  | 0 => .recordLocation 1 2 .driver ⟨⟨1, 1⟩, none, "10:00"⟩
  | 1 => .recordLocation 1 2 .driver ⟨⟨2, 2⟩, none, "10:01"⟩
  | 2 => .recordLocation 1 1 .rider ⟨⟨1, 1⟩, none, "10:01"⟩

def sharedInTurn : List (Fin 3) := Pool.turns [(0, 5), (1, 6), (2, 5)]

/-- Every two locations are ten meters apart. -/
def tenMeters : Environment := { Environment.around [] with geo := fun _ _ _ => .meters 10 }

theorem billed_distance_exact_in_turn :
    ((Tracked (getTotalDistanceMeters 1)).run (trackingHandle tenMeters)
      ((trackingCalls threeLocations (World.initial [])).exec (trackingHandle tenMeters)
        sharedInTurn).store).1 =
      .ok (((trackingCalls threeLocations (World.initial [])).exec (trackingHandle tenMeters)
        sharedInTurn).store.driverMeters 1) :=
  billed_distance_exact tenMeters 1 threeLocations (World.initial []) rfl sharedInTurn
    (by decide +kernel) (by decide +kernel)

/-- The rider's location is written over a state that was read before the driver's. -/
def riderOverDriver : List (Fin 3) := Pool.turns [(0, 5), (2, 1), (1, 6), (2, 4)]

theorem driver_meters_dropped :
    ((trackingCalls threeLocations (World.initial [])).exec (trackingHandle tenMeters)
      riderOverDriver).Ended ∧
    ((Tracked (getTotalDistanceMeters 1)).run (trackingHandle tenMeters)
      ((trackingCalls threeLocations (World.initial [])).exec (trackingHandle tenMeters)
        riderOverDriver).store).1 = .ok 0 ∧
    ((trackingCalls threeLocations (World.initial [])).exec (trackingHandle tenMeters)
      riderOverDriver).store.driverMeters 1 = 10 := by
  refine ⟨?_, ?_, ?_⟩
  · decide +kernel
  · decide +kernel
  · decide +kernel

end NebLite
