import NebLite.Tracking.ReleaseRuns
import NebLite.Tracking.BilledDistance

/-! The mark of completion while locations are still coming in. A location rewrites
the whole state from the copy that it has read, the mark included. -/

namespace NebLite

open Atomic

/-- The calls of the service that write the state of one ride. -/
inductive StateOp where
  | recordLocation (clientId : Id) (role : EClientType) (location : ParticipantLocation)
  | markRideCompleted

def StateOp.op (rideId : Id) : StateOp → TrackingOp
  | recordLocation clientId role location => .recordLocation rideId clientId role location
  | markRideCompleted => .markRideCompleted rideId

variable {ι : Type} [DecidableEq ι]

abbrev stateCalls (rid : Id) (ops : ι → StateOp) (world : World) : TrackingPool ι :=
  trackingCalls (fun i => (ops i).op rid) world

/-- The mark that a read of the state has answered with. -/
def markRead (rid : Id) : TrackingEvent → Option Bool
  | ⟨.service (.getTripState r), .ok state⟩ =>
    if r = rid then some (state.getD (.initial rid)).completed else none
  | _ => none

/-- The mark that process `i` has read last. -/
def lastMark (rid : Id) (c : TrackingPool ι) (i : ι) : Option Bool :=
  c.trace.findSome? fun e => if e.1 = i then markRead rid e.2 else none

/-- A location is not written over a mark that its process has not read. -/
def KeepsMark (rid : Id) (ops : ι → StateOp) (c : TrackingPool ι) (i : ι) : Prop :=
  match ops i, (c.procs i).pending with
  | .recordLocation .., some (.service (.setTripState _ _)) =>
    c.store.world.marked rid = true → lastMark rid c i = some true
  | _, _ => True

instance (rid : Id) (ops : ι → StateOp) (c : TrackingPool ι) (i : ι) : Decidable (KeepsMark rid ops c i) := by
  unfold KeepsMark
  induction ops i using StateOp.casesOn with
  | markRideCompleted => infer_instance
  | recordLocation clientId role location =>
    induction (c.procs i).pending using Option.casesOn with
    | none => infer_instance
    | some call =>
      induction call using TrackingCall.casesOn with
      | service op => induction op using Call.casesOn <;> infer_instance
      | _ => infer_instance

/-- Every `markRideCompleted` that has ended has left the mark. -/
def StaysMarked (rid : Id) (ops : ι → StateOp) (c : TrackingPool ι) : Prop :=
  ∀ i, ops i = .markRideCompleted → (c.procs i).pending = none → c.store.world.marked rid = true

/-- What a process has read of the mark, and that it has set it. -/
inductive MarkPhase where
  | idle
  | read (completed : Bool)
  | marked

/-- Calls that neither read nor write the state. -/
def TrackingCall.Stateless : TrackingCall → Prop
  | .service (.geodist _ _) | .service (.addActiveRide _) | .service (.pushTripEvent _ _)
  | .service (.expireTripEvents _) | .service (.enqueueFlushRide _) => True
  | _ => False

/-- The calls of an operation, and what they make of its phase. -/
inductive MarkMove (rid : Id) (op : StateOp) (w : TrackingWorld) : MarkPhase → TrackingCall → MarkPhase → Prop
  | stateless {l c} : c.Stateless → MarkMove rid op w l c l
  | read : MarkMove rid op w .idle (.service (.getTripState rid)) (.read (w.world.marked rid))
  | rewrite {completed state} : op ≠ .markRideCompleted → state.completed = completed →
      MarkMove rid op w (.read completed) (.service (.setTripState rid state)) .idle
  | mark {completed state} : op = .markRideCompleted → state.completed = true →
      MarkMove rid op w (.read completed) (.service (.setTripState rid state)) .marked

def markOutline (rid : Id) (op : StateOp) : Outline MarkPhase TrackingCall TrackingWorld where
  pre _ _ := True
  move l c w l' := MarkMove rid op w l c l'

/-- How a process ends: a `markRideCompleted` has seen the mark or set it. -/
def StateOp.Ends (op : StateOp) (l : MarkPhase) : Prop :=
  op = .markRideCompleted → l = .read true ∨ l = .marked

abbrev Marks {α : Type} (env : Environment) (rid : Id) (op : StateOp) (l : MarkPhase) (p : TrackingService α) : Prop :=
  (markOutline rid op).Follows (trackingHandle env) (fun l _ => op.Ends l) l p

section Marks

variable {env : Environment} {rid : Id} {op : StateOp} {l l' : MarkPhase} {α β : Type}

theorem marks_call {c : Call} {f : c.Answer → TrackingService β} (hm : ∀ w, MarkMove rid op w l (.service c) l')
    (hok : ∀ w, ∃ a, (trackingHandle env (.service c) w).1 = .ok a) (hf : ∀ a, Marks env rid op l' (f a)) :
    Marks env rid op l (Tracked (call c) >>= f) := by
  rw [tracked_call]
  apply Outline.Follows.perform
  intro w _
  obtain ⟨a, ha⟩ := hok w
  refine ⟨l', hm w, ?_⟩
  rw [ha]
  exact hf a

theorem marks_getState {f : TripTrackState → TrackingService β}
    (hf : ∀ state, Marks env rid op (.read state.completed) (f state)) :
    Marks env rid op .idle (Tracked (getState rid) >>= f) := by
  rw [tracked_getState, bind_assoc]
  apply Outline.Follows.perform
  intro w _
  have hread := hf ((w.world.tripStates rid).getD (.initial rid))
  rw [marked_eq] at hread
  exact ⟨.read (w.world.marked rid), .read, hread⟩

/-- The distance is asked for without the state. -/
theorem marks_driverDistance {state : TripTrackState} {role : EClientType} {location : ParticipantLocation}
    {f : ℚ → TrackingService β} (hop : op.Ends l) (hf : ∀ delta, Marks env rid op l (f delta)) :
    Marks env rid op l (Tracked (driverDistance state role location) >>= f) := by
  have hcalls : (Tracked (driverDistance state role location)).Calls TrackingCall.Stateless := by
    unfold driverDistance
    split
    · exact ⟨trivial, fun r => by cases r <;> trivial⟩
    · trivial
  refine Outline.Follows.quiet hcalls (fun _ _ hc _ => .stateless hc) (fun _ => hop) hf

theorem marks_recordLocation (clientId : Id) (role : EClientType) (location : ParticipantLocation) :
    Marks env rid (.recordLocation clientId role location) .idle
      (Tracked (recordLocation rid clientId role location)) := by
  have hends (l : MarkPhase) : (StateOp.recordLocation clientId role location).Ends l := fun h => nomatch h
  unfold recordLocation
  simp only [Tracked, Program.lift_bind]
  apply marks_getState
  intro state
  refine marks_driverDistance (hends _) fun delta => ?_
  refine marks_call (fun _ => .rewrite (fun h => nomatch h) rfl) (fun _ => ⟨_, rfl⟩) fun _ => ?_
  refine marks_call (fun _ => .stateless trivial) (fun _ => ⟨_, rfl⟩) fun _ => ?_
  refine marks_call (fun _ => .stateless trivial) (fun _ => ⟨_, rfl⟩) fun _ => ?_
  exact marks_call (fun _ => .stateless trivial) (fun _ => ⟨_, rfl⟩) fun _ => hends _

theorem marks_markRideCompleted :
    Marks env rid .markRideCompleted .idle (Tracked (markRideCompleted rid)) := by
  unfold markRideCompleted
  simp only [Tracked, Program.lift_bind]
  apply marks_getState
  intro state
  split
  · rw [Program.lift_bind]
    refine marks_call (fun _ => .mark rfl rfl) (fun _ => ⟨_, rfl⟩) fun _ => ?_
    rw [← Tracked, tracked_call]
    exact fun _ _ => ⟨.marked, .stateless trivial, fun _ => .inr rfl⟩
  · next hcompleted =>
    have hread : state.completed = true := by simpa using hcompleted
    rw [hread]
    exact fun _ => .inl rfl

theorem StateOp.marks (env : Environment) (rid : Id) (op : StateOp) :
    Marks env rid op .idle (op.op rid).program := by
  cases op with
  | recordLocation clientId role location =>
    have hp : (StateOp.op rid (.recordLocation clientId role location)).program =
        Tracked (NebLite.recordLocation rid clientId role location) >>= fun _ => pure () := by
      simp only [StateOp.op, TrackingOp.program, Tracked, Program.lift_bind]
      rfl
    rw [hp]
    exact (marks_recordLocation clientId role location).bind (fun _ _ h => h) fun _ _ h => h
  | markRideCompleted => exact marks_markRideCompleted

end Marks

section Kept

variable {env : Environment} {rid : Id} {ops : ι → StateOp} {labels : ι → MarkPhase} {c : TrackingPool ι}

/-- A mark that has been read or set is stored, and whoever is about to write knows what
he has read. -/
structure MarkKept (rid : Id) (labels : ι → MarkPhase) (c : TrackingPool ι) : Prop where
  stored : ∀ i, labels i = .read true ∨ labels i = .marked → c.store.world.marked rid = true
  read : ∀ i completed, labels i = .read completed → lastMark rid c i = some completed

theorem markRead_stateless {call : TrackingCall} (h : call.Stateless) (r : Except ServiceError call.Answer) :
    markRead rid ⟨call, r⟩ = none := by
  unfold markRead
  split
  · rename_i heq
    obtain ⟨rfl, -⟩ := Sigma.mk.inj heq
    cases h
  · rfl

theorem TrackingCall.Stateless.keeps {call : TrackingCall} (h : call.Stateless) (w : TrackingWorld) :
    (trackingHandle env call w).2.world.marked rid = w.world.marked rid := by
  cases call with
  | service c =>
    cases c with
    | addActiveRide r =>
      simp only [trackingHandle, handle, World.marked]
    | geodist | pushTripEvent | expireTripEvents | enqueueFlushRide => rfl
    | _ => exact h.elim
  | _ => exact h.elim

theorem lastMark_step {j : ι} {call : TrackingCall} {next : Except ServiceError call.Answer → TrackingService Unit}
    (hj : c.procs j = .call call next) (i : ι) :
    lastMark rid (c.step (trackingHandle env) j) i =
      if j = i then (markRead rid ⟨call, (trackingHandle env call c.store).1⟩).or (lastMark rid c i)
      else lastMark rid c i :=
  trackingRead_step (markRead rid) hj i

theorem MarkKept.step (h : MarkKept rid labels c) {i : ι} {call : TrackingCall} {l : MarkPhase}
    {next : Except ServiceError call.Answer → TrackingService Unit} (hok : KeepsMark rid ops c i)
    (hi : c.procs i = .call call next) (hmv : MarkMove rid (ops i) c.store (labels i) call l) :
    MarkKept rid (Function.update labels i l) (c.step (trackingHandle env) i) := by
  have hstore : (c.step (trackingHandle env) i).store = (trackingHandle env call c.store).2 := by
    rw [Pool.step_call _ hi]
  have hset (state : TripTrackState) :
      (trackingHandle env (.service (.setTripState rid state)) c.store).2.world.marked rid = state.completed := by
    show ((Function.update c.store.world.tripStates rid (some state)) rid).any (·.completed) = state.completed
    rw [Function.update_self]
    rfl
  -- the mark never falls
  have hstays : c.store.world.marked rid = true → (c.step (trackingHandle env) i).store.world.marked rid = true := by
    intro hmarked
    rw [hstore]
    generalize hl₀ : labels i = l₀ at hmv
    cases hmv with
    | stateless hc => rw [hc.keeps, hmarked]
    | read => exact hmarked
    | rewrite hop hstate =>
      rename_i completed state
      have hread : lastMark rid c i = some completed := h.read i completed hl₀
      have hlast : lastMark rid c i = some true := by
        unfold KeepsMark at hok
        rw [hi] at hok
        cases hkind : ops i with
        | recordLocation =>
          rw [hkind] at hok
          exact hok hmarked
        | markRideCompleted => exact (hop hkind).elim
      rw [hset, hstate]
      exact Option.some.inj (hread.symm.trans hlast)
    | mark _ hstate => rw [hset, hstate]
  constructor
  · intro j hj
    by_cases hij : j = i
    swap
    · rw [Function.update_of_ne hij] at hj
      exact hstays (h.stored j hj)
    subst hij
    rw [Function.update_self] at hj
    generalize hl₀ : labels j = l₀ at hmv
    cases hmv with
    | stateless => exact hstays (h.stored j (hl₀ ▸ hj))
    | read =>
      have hread : c.store.world.marked rid = true := by simpa using hj
      exact hstays hread
    | rewrite => simp at hj
    | mark _ hstate =>
      rw [hstore, hset, hstate]
  · intro j completed hj
    rw [lastMark_step hi]
    by_cases hij : i = j
    swap
    · rw [if_neg hij]
      exact h.read j completed (by rwa [Function.update_of_ne (Ne.symm hij)] at hj)
    subst hij
    rw [if_pos rfl]
    rw [Function.update_self] at hj
    subst hj
    generalize hl₀ : labels i = l₀ at hmv
    cases hmv with
    | stateless hc =>
      rw [markRead_stateless hc]
      exact h.read i completed hl₀
    | read =>
      have hanswer : markRead rid ⟨.service (.getTripState rid),
          (trackingHandle env (.service (.getTripState rid)) c.store).1⟩ =
          some (c.store.world.marked rid) := by
        rw [← marked_eq]
        simp [markRead, trackingHandle, handle]
      rw [hanswer]
      rfl

theorem markKept_start (ops : ι → StateOp) (world : World) :
    MarkKept rid (fun _ => .idle) (stateCalls rid ops world) where
  stored i hi := by simp at hi
  read i completed hi := by cases hi

/-- Where no location is written over a mark that its process has not read, the mark of
a `markRideCompleted` that has ended stays, whatever is still to come. -/
theorem mark_stays (env : Environment) (rid : Id) (ops : ι → StateOp) (world : World) (sched : List ι)
    (hm : Pool.Meets (trackingHandle env) (KeepsMark rid ops) (stateCalls rid ops world) sched) :
    Runs.Always (Pool.step (trackingHandle env)) (StaysMarked rid ops) (stateCalls rid ops world) sched := by
  intro early hearly
  have hstart : Outline.Holds (fun i => markOutline rid (ops i)) (trackingHandle env) (fun i l _ => (ops i).Ends l)
      (MarkKept rid) (stateCalls rid ops world) :=
    ⟨fun _ => .idle, markKept_start ops world, fun i => (ops i).marks env rid⟩
  have hholds := Outline.exec_holds (fun _ _ _ _ => trivial)
    (fun labels c i call next l hkept hok hi hmv => hkept.step hok hi hmv) hstart (hm.initial hearly)
  obtain ⟨labels, hkept, hdone⟩ := hholds.outcome
  intro i hop hended
  obtain ⟨r, hr⟩ := Program.outcome_of_ended hended
  exact hkept.stored i (hdone i r hr hop)

end Kept

/-- In runs of the ride operations every `flushAll` releases the finished rides exactly
when the steps keep the marks; while locations are coming in, a mark stays where none of
them is written over a mark that its process has not read. -/
theorem tracking_released (env : Environment) :
    (∀ (whitelist : List String) (ops : List ReleaseOp),
      Runs.Always (ReleaseOp.step env) (TrackingWorld.Releases env) (.start (.initial whitelist)) ops ↔
        Runs.Meets (ReleaseOp.step env) (fun w op => op.KeepsMarks w) (.start (.initial whitelist)) ops) ∧
    ∀ (ι : Type) [DecidableEq ι] (rid : Id) (ops : ι → StateOp) (world : World) (sched : List ι),
      Pool.Meets (trackingHandle env) (KeepsMark rid ops) (stateCalls rid ops world) sched →
        Runs.Always (Pool.step (trackingHandle env)) (StaysMarked rid ops) (stateCalls rid ops world) sched := by
  refine ⟨fun whitelist ops => ?_, fun ι _ rid ops world sched hm => mark_stays env rid ops world sched hm⟩
  refine releases_iff_keepsMarks env _ ?_ ops
  intro rid hrid
  cases hrid

/-- Driver 2 shares his location on the way to rider 1, who then cancels. -/
def canceledOnTheWay : List ReleaseOp :=
  [.lifecycle (.createRide (some 1) ⟨⟨1, 1⟩, ⟨2, 2⟩, none, none⟩ 0),
   .lifecycle (.acceptRideByDriver 1 2 1),
   .lifecycle (.recordTripLocation 1 ⟨some 2, some .driver⟩ ⟨⟨1, 1⟩, none, "10:00"⟩),
   .lifecycle (.cancelRide 1 ⟨some 1, some .rider⟩ none 2)]

/-- A location of the rider, read before the trip is completed. -/
def locationAtCompletion : Fin 2 → StateOp
  | 0 => .recordLocation 1 .rider ⟨⟨1, 1⟩, none, "10:00"⟩
  | 1 => .markRideCompleted

def writtenOverMark : List (Fin 2) := Pool.turns [(0, 1), (1, 3), (0, 1)]

theorem tracking_leaks :
    ¬ TrackingWorld.Releases (Environment.around [2])
      (canceledOnTheWay.foldl (ReleaseOp.step (Environment.around [2])) (.start (.initial []))) ∧
    ¬ StaysMarked 1 locationAtCompletion
      ((stateCalls 1 locationAtCompletion (.initial [])).exec (trackingHandle (Environment.around [2]))
        writtenOverMark) := by
  constructor
  · rw [releases_iff_marked]
    intro hmarked
    have htracked := hmarked 1 (by decide +kernel) .canceled (by decide +kernel) (.inr rfl)
    revert htracked
    decide +kernel
  · intro hstays
    have hmarked := hstays 1 rfl (by decide +kernel)
    revert hmarked
    decide +kernel

theorem tracking_released_unmarked :
    Runs.Always (Pool.step (trackingHandle (Environment.around [2]))) (StaysMarked 1 locationAtCompletion)
      (stateCalls 1 locationAtCompletion (.initial [])) (Pool.turns [(0, 5), (1, 3)]) :=
  (tracking_released (Environment.around [2])).2 (Fin 2) 1 locationAtCompletion (.initial [])
    (Pool.turns [(0, 5), (1, 3)]) (by decide +kernel)

end NebLite
