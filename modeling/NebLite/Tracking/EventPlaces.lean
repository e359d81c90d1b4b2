import NebLite.Tracking.TripTracking
import NebLite.Rides.Lifecycle

/-! Where the events of a ride are while recorders push them and flushes read the
list, delete it and insert what they have read, each in a call of its own. -/

namespace NebLite

open Atomic

abbrev TrackingPool (ι : Type) :=
  Pool ι TrackingCall TrackingCall.Answer ServiceError Unit TrackingWorld

abbrev TrackingEvent := Event TrackingCall TrackingCall.Answer ServiceError

/-- How far a process is with a batch. -/
inductive FlushPhase where
  | idle
  | read (rideId : Id) (batch : List QueuedEvent)
  | taken (rideId : Id) (batch : List QueuedEvent)

/-- The phase after the calls of a process, the newest first. -/
def phaseOf : List TrackingEvent → FlushPhase
  | ⟨.delEvents r, _⟩ :: ⟨.lrangeEvents r', .ok batch⟩ :: _ =>
    if r = r' ∧ batch ≠ [] then .taken r batch else .idle
  | ⟨.lrangeEvents r, .ok batch⟩ :: _ => if batch ≠ [] then .read r batch else .idle
  | _ => .idle

namespace FlushPhase

/-- What the list of a ride held when it was read, up to its deletion. -/
def reads (rid : Id) : FlushPhase → List QueuedEvent
  | read r batch => if r = rid then batch else []
  | _ => []

/-- What has been removed from the list of a ride and not been inserted yet. -/
def holds (rid : Id) : FlushPhase → List QueuedEvent
  | taken r batch => if r = rid then batch else []
  | _ => []

end FlushPhase

/-- Where an event can be. -/
inductive Place (ι : Type) where
  | list
  | batch (i : ι)
  | table

variable {ι : Type} [DecidableEq ι]

def history (c : TrackingPool ι) (i : ι) : List TrackingEvent :=
  (c.trace.filter (·.1 = i)).map (·.2)

def phase (c : TrackingPool ι) (i : ι) : FlushPhase := phaseOf (history c i)

/-- The events of a ride at a place, as the rows that they become. -/
def rowsAt (c : TrackingPool ι) (rid : Id) : Place ι → List TripTrack
  | .list => (c.store.queue rid).map (·.entry rid)
  | .batch i => ((phase c i).holds rid).map (·.entry rid)
  | .table => c.store.tracks.filter (·.rideId = rid)

/-- The push number `n` was a push of `event` for the ride. -/
def TrackingWorld.Pushed (w : TrackingWorld) (rid : Id) (n : ℕ) (event : TrackEvent) : Prop :=
  w.pushes[n]? = some (rid, event)

/-- Every event that was pushed for the ride is at exactly one place, and there once. -/
structure EachOnce (rid : Id) (c : TrackingPool ι) : Prop where
  placed : ∀ n event, c.store.Pushed rid n event →
    ∃! p : Place ι, (⟨n, event⟩ : QueuedEvent).entry rid ∈ rowsAt c rid p
  once : ∀ p, ((rowsAt c rid p).map (·.number)).Nodup

/-- Process `i` does not delete the list of the ride while it holds anything other
than what the process has read. -/
def TakesWhatItRead (rid : Id) (c : TrackingPool ι) (i : ι) : Prop :=
  match (c.procs i).pending with
  | some (.delEvents r) => r = rid → c.store.queue rid = (phase c i).reads rid
  | _ => True

instance (rid : Id) (c : TrackingPool ι) (i : ι) : Decidable (TakesWhatItRead rid c i) := by
  unfold TakesWhatItRead
  split <;> infer_instance

/-- Calls that touch neither a list of events nor the table. -/
def TrackingCall.Apart : TrackingCall → Prop
  | .service (.pushTripEvent _ _) | .lrangeEvents _ | .delEvents _ | .persistFlush _ _ => False
  | _ => True

/-- The calls of a process in each phase, and the phase after them. -/
inductive FlushMove (w : TrackingWorld) : FlushPhase → TrackingCall → FlushPhase → Prop
  | apart {c} : c.Apart → FlushMove w .idle c .idle
  | push {r event} : FlushMove w .idle (.service (.pushTripEvent r event)) .idle
  | nothing {r} : w.queue r = [] → FlushMove w .idle (.lrangeEvents r) .idle
  | read {r} : w.queue r ≠ [] → FlushMove w .idle (.lrangeEvents r) (.read r (w.queue r))
  | take {r batch} : FlushMove w (.read r batch) (.delEvents r) (.taken r batch)
  | insert {r batch summaries} : FlushMove w (.taken r batch)
      (.persistFlush (batch.map (·.entry r)) summaries) .idle
  | clean {r} : FlushMove w .idle (.delEvents r) .idle

def flushOutline : Outline FlushPhase TrackingCall TrackingWorld where
  pre _ _ := True
  move l c w l' := FlushMove w l c l'

/-- The program moves from phase `l` and ends without a batch. -/
abbrev Flushes {α : Type} (env : Environment) (l : FlushPhase) (p : TrackingService α) : Prop :=
  flushOutline.Follows (trackingHandle env) (fun l _ => l = .idle) l p

section Flushes

variable {env : Environment} {l : FlushPhase} {α β : Type}

/-- Calls of a process without a batch. -/
def TrackingCall.Idle : TrackingCall → Prop
  | .lrangeEvents _ | .persistFlush _ _ => False
  | _ => True

theorem FlushMove.of_idle {w : TrackingWorld} {c : TrackingCall} (h : c.Idle) : FlushMove w .idle c .idle := by
  cases c with
  | service c =>
    cases c with
    | pushTripEvent => exact .push
    | _ => exact .apart trivial
  | delEvents => exact .clean
  | lrangeEvents | persistFlush => exact h.elim
  | _ => exact .apart trivial

theorem flushes_idle {p : TrackingService α} (h : p.Calls TrackingCall.Idle) : Flushes env .idle p := by
  induction p with
  | ret a => rfl
  | throw e => rfl
  | call op next ih => exact fun w _ => ⟨.idle, .of_idle h.1, ih _ (h.2 _)⟩

theorem idle_tracked (p : Service α) : (Tracked p).Calls TrackingCall.Idle := by
  apply Program.Calls.lift
  induction p with
  | ret a => trivial
  | throw e => trivial
  | call op next ih => exact ⟨trivial, ih⟩

theorem idle_cleanupRide (rideId : Id) : (cleanupRide rideId).Calls TrackingCall.Idle :=
  Program.Calls.bind ((Program.calls_perform _).mpr trivial) fun _ =>
    Program.Calls.bind ((Program.calls_perform _).mpr trivial) fun _ =>
      (Program.calls_perform _).mpr trivial

theorem flushes_flushRide (rideId : Id) : Flushes env .idle (flushRide rideId) := by
  unfold flushRide
  apply Outline.Follows.perform
  intro w _
  by_cases hq : w.queue rideId = []
  · refine ⟨.idle, .nothing hq, ?_⟩
    simp only [trackingHandle, hq, Program.ofExcept_ok, Program.ret_bind, List.isEmpty_nil, if_true]
    apply flushes_idle
    refine (idle_tracked _).bind fun state => ?_
    split
    · exact (idle_cleanupRide rideId).bind fun _ => trivial
    · trivial
  · refine ⟨.read rideId (w.queue rideId), .read hq, ?_⟩
    have hne : (w.queue rideId).isEmpty = false := by simpa using hq
    simp only [trackingHandle, Program.ofExcept_ok, Program.ret_bind, hne, Bool.false_eq_true, if_false]
    apply Outline.Follows.perform
    intro v _
    refine ⟨.taken rideId (w.queue rideId), .take, ?_⟩
    apply Outline.Follows.perform
    intro u _
    refine ⟨.idle, .insert, ?_⟩
    apply flushes_idle
    refine (idle_tracked _).bind fun state => ?_
    split
    · refine Program.Calls.bind ((Program.calls_perform _).mpr trivial) fun remaining => ?_
      split
      · exact idle_cleanupRide rideId
      · trivial
    · trivial

theorem TrackingOp.flushes (env : Environment) (op : TrackingOp) : Flushes env .idle op.program := by
  cases op with
  | recordLocation => exact flushes_idle (idle_tracked _)
  | markRideCompleted => exact flushes_idle (idle_tracked _)
  | flushRide rideId => exact flushes_flushRide rideId
  | flushAllRide rideId =>
    apply Outline.Follows.perform
    intro w _
    refine ⟨.idle, .apart trivial, ?_⟩
    simp only [trackingHandle, Program.ofExcept_ok, Program.ret_bind]
    split
    · exact (flushes_flushRide rideId).catching (fun _ _ h => h) fun _ _ h => h
    · rfl
  | expireState rideId => exact flushes_idle ((Program.calls_perform _).mpr trivial)

end Flushes

section Steps

variable {env : Environment} {c : TrackingPool ι} {i : ι} {call : TrackingCall}
  {next : Except ServiceError call.Answer → TrackingService Unit}

theorem history_step (hi : c.procs i = .call call next) (j : ι) :
    history (c.step (trackingHandle env) i) j =
      if j = i then ⟨call, (trackingHandle env call c.store).1⟩ :: history c i else history c j := by
  unfold history
  rw [Pool.step_call _ hi]
  by_cases hj : j = i
  · subst hj
    simp
  · simp [hj, Ne.symm hj]

theorem phase_step_self (hi : c.procs i = .call call next) :
    phase (c.step (trackingHandle env) i) i =
      phaseOf (⟨call, (trackingHandle env call c.store).1⟩ :: history c i) := by
  rw [phase, history_step hi, if_pos rfl]

theorem phase_step_other (hi : c.procs i = .call call next) {j : ι} (hj : j ≠ i) :
    phase (c.step (trackingHandle env) i) j = phase c j := by
  rw [phase, history_step hi, if_neg hj, phase]

theorem phaseOf_read {l : List TrackingEvent} {r : Id} {batch : List QueuedEvent}
    (h : phaseOf l = .read r batch) : ∃ t, l = ⟨.lrangeEvents r, .ok batch⟩ :: t ∧ batch ≠ [] := by
  unfold phaseOf at h
  split at h
  · split at h <;> cases h
  · split at h
    · next hne =>
      cases h
      exact ⟨_, rfl, hne⟩
    · cases h
  · cases h

theorem phaseOf_clean {l : List TrackingEvent} {r : Id} {a : Except ServiceError Unit}
    (h : phaseOf l = .idle) : phaseOf (⟨.delEvents r, a⟩ :: l) = .idle := by
  cases l with
  | nil => rfl
  | cons e t =>
    obtain ⟨call, answer⟩ := e
    cases call with
    | lrangeEvents r' =>
      cases answer with
      | error e => rfl
      | ok batch =>
        have hb : batch = [] := by
          by_contra hne
          simp [phaseOf, hne] at h
        simp [phaseOf, hb]
    | _ => rfl

/-- The phase that a process reaches is the one that its outline moves to. -/
theorem FlushMove.phase {l : FlushPhase} (h : FlushMove c.store (phase c i) call l)
    (hi : c.procs i = .call call next) : phase (c.step (trackingHandle env) i) i = l := by
  rw [phase_step_self hi]
  have hlabel : phaseOf (history c i) = NebLite.phase c i := rfl
  generalize NebLite.phase c i = l₀ at h hlabel
  cases h with
  | apart ha =>
    cases call with
    | lrangeEvents | delEvents | persistFlush => exact ha.elim
    | _ => rfl
  | push => rfl
  | nothing hq => simp [trackingHandle, phaseOf, hq]
  | read hq => simp [trackingHandle, phaseOf, hq]
  | take =>
    obtain ⟨t, ht, hne⟩ := phaseOf_read hlabel
    simp [trackingHandle, phaseOf, ht, hne]
  | insert => rfl
  | clean => exact phaseOf_clean hlabel

end Steps

/-- Every push of the ride has a place, and the places hold nothing else. -/
structure EventsAccounted (rid : Id) (c : TrackingPool ι) : Prop where
  placed : ∃ place : ℕ → Place ι, ∀ p x, x ∈ rowsAt c rid p ↔
    ∃ n event, c.store.Pushed rid n event ∧ place n = p ∧ x = (⟨n, event⟩ : QueuedEvent).entry rid
  once : ∀ p, ((rowsAt c rid p).map (·.number)).Nodup

variable {rid : Id} {c c' : TrackingPool ι}

theorem EventsAccounted.eachOnce (h : EventsAccounted rid c) : EachOnce rid c := by
  obtain ⟨place, hplace⟩ := h.placed
  refine ⟨fun n event hn => ⟨place n, (hplace _ _).mpr ⟨n, event, hn, rfl, rfl⟩, fun p hp => ?_⟩, h.once⟩
  obtain ⟨m, event', -, hm, hrow⟩ := (hplace p _).mp hp
  have hnum : n = m := congrArg TripTrack.number hrow
  rw [hnum]
  exact hm.symm

/-- The events of whole places are moved to other places. -/
theorem EventsAccounted.relocate (h : EventsAccounted rid c) (m : Place ι → Place ι)
    (hpushes : ∀ n event, c'.store.Pushed rid n event ↔ c.store.Pushed rid n event)
    (hrows : ∀ q x, x ∈ rowsAt c' rid q ↔ ∃ p, m p = q ∧ x ∈ rowsAt c rid p)
    (honce : ∀ p, ((rowsAt c' rid p).map (·.number)).Nodup) : EventsAccounted rid c' := by
  obtain ⟨place, hplace⟩ := h.placed
  refine ⟨⟨fun n => m (place n), fun q x => ?_⟩, honce⟩
  rw [hrows]
  constructor
  · rintro ⟨p, hm, hx⟩
    obtain ⟨n, event, hn, hp, hrow⟩ := (hplace p x).mp hx
    exact ⟨n, event, (hpushes n event).mpr hn, (congrArg m hp).trans hm, hrow⟩
  · rintro ⟨n, event, hn, hq, hrow⟩
    exact ⟨place n, hq, (hplace _ x).mpr ⟨n, event, (hpushes n event).mp hn, rfl, hrow⟩⟩

/-- Nothing changes for the ride. -/
theorem EventsAccounted.same (h : EventsAccounted rid c)
    (hpushes : ∀ n event, c'.store.Pushed rid n event ↔ c.store.Pushed rid n event)
    (hrows : ∀ q, rowsAt c' rid q = rowsAt c rid q) : EventsAccounted rid c' := by
  apply h.relocate id hpushes
  · intro q x
    rw [hrows]
    constructor
    · exact fun hx => ⟨q, rfl, hx⟩
    · rintro ⟨p, rfl, hx⟩
      exact hx
  · intro p
    rw [hrows]
    exact h.once p

theorem pushed_append {w : TrackingWorld} {r : Id} {e : TrackEvent} {n : ℕ} {event : TrackEvent} :
    (w.pushes ++ [(r, e)])[n]? = some (rid, event) ↔
      w.Pushed rid n event ∨ (n = w.pushes.length ∧ r = rid ∧ event = e) := by
  unfold TrackingWorld.Pushed
  rw [List.getElem?_append]
  by_cases hn : n < w.pushes.length
  · have hne : n ≠ w.pushes.length := Nat.ne_of_lt hn
    simp [hn, hne]
  · have hnone : w.pushes[n]? = none := List.getElem?_eq_none (Nat.le_of_not_lt hn)
    simp only [hn, if_false, hnone, reduceCtorEq, false_or]
    constructor
    · intro h
      obtain ⟨hlt, he⟩ := List.getElem?_eq_some_iff.mp h
      have hle := Nat.le_of_not_lt hn
      simp only [List.length_singleton] at hlt
      have hz : n - w.pushes.length = 0 := by omega
      simp only [hz, List.getElem_cons_zero, Prod.mk.injEq] at he
      exact ⟨by omega, he.1, he.2.symm⟩
    · rintro ⟨rfl, rfl, rfl⟩
      simp

theorem TrackingWorld.Pushed.lt {w : TrackingWorld} {n : ℕ} {event : TrackEvent} (h : w.Pushed rid n event) :
    n < w.pushes.length := (List.getElem?_eq_some_iff.mp h).1

/-- A new event is put on the list. -/
theorem EventsAccounted.push (h : EventsAccounted rid c) {event : TrackEvent}
    (hpushes : c'.store.pushes = c.store.pushes ++ [(rid, event)])
    (hlist : rowsAt c' rid .list =
      rowsAt c rid .list ++ [(⟨c.store.pushes.length, event⟩ : QueuedEvent).entry rid])
    (hrest : ∀ q, q ≠ .list → rowsAt c' rid q = rowsAt c rid q) : EventsAccounted rid c' := by
  obtain ⟨place, hplace⟩ := h.placed
  have hnew (n : ℕ) (e : TrackEvent) : c'.store.Pushed rid n e ↔
      c.store.Pushed rid n e ∨ (n = c.store.pushes.length ∧ e = event) := by
    unfold TrackingWorld.Pushed
    rw [hpushes]
    exact pushed_append.trans (by simp [TrackingWorld.Pushed])
  have hold (n : ℕ) (e : TrackEvent) (hn : c.store.Pushed rid n e) :
      Function.update place c.store.pushes.length .list n = place n :=
    Function.update_of_ne (Nat.ne_of_lt hn.lt) _ _
  have hlt (p : Place ι) (x : TripTrack) (hx : x ∈ rowsAt c rid p) : x.number < c.store.pushes.length := by
    obtain ⟨n, e, hn, -, rfl⟩ := (hplace p x).mp hx
    exact hn.lt
  refine ⟨⟨Function.update place c.store.pushes.length .list, fun p x => ?_⟩, fun p => ?_⟩
  · have hmem : x ∈ rowsAt c' rid p ↔ x ∈ rowsAt c rid p ∨
        (p = .list ∧ x = (⟨c.store.pushes.length, event⟩ : QueuedEvent).entry rid) := by
      cases p with
      | list => simp [hlist]
      | _ => simp [hrest]
    rw [hmem, hplace]
    constructor
    · rintro (⟨n, e, hn, hp, hrow⟩ | ⟨rfl, hrow⟩)
      · exact ⟨n, e, (hnew n e).mpr (.inl hn), (hold n e hn).trans hp, hrow⟩
      · exact ⟨_, event, (hnew _ _).mpr (.inr ⟨rfl, rfl⟩), Function.update_self _ _ _, hrow⟩
    · rintro ⟨n, e, hn, hp, hrow⟩
      rcases (hnew n e).mp hn with hn | ⟨rfl, rfl⟩
      · exact .inl ⟨n, e, hn, (hold n e hn).symm.trans hp, hrow⟩
      · rw [Function.update_self] at hp
        exact .inr ⟨hp.symm, hrow⟩
  · cases p with
    | list =>
      rw [hlist, List.map_append, List.nodup_append']
      refine ⟨h.once .list, by simp, ?_⟩
      simp only [List.map_cons, List.map_nil, List.disjoint_singleton, List.mem_map, not_exists, not_and]
      intro x hx he
      exact absurd he (Nat.ne_of_lt (hlt .list x hx))
    | batch j =>
      rw [hrest _ (by simp)]
      exact h.once _
    | table =>
      rw [hrest _ (by simp)]
      exact h.once _

/-- The whole list becomes the batch of process `i`, which had none. -/
theorem EventsAccounted.take (h : EventsAccounted rid c) {i : ι}
    (hpushes : ∀ n event, c'.store.Pushed rid n event ↔ c.store.Pushed rid n event)
    (hbefore : rowsAt c rid (.batch i) = []) (hlist : rowsAt c' rid .list = [])
    (hbatch : rowsAt c' rid (.batch i) = rowsAt c rid .list)
    (hrest : ∀ q, q ≠ .list → q ≠ .batch i → rowsAt c' rid q = rowsAt c rid q) : EventsAccounted rid c' := by
  let m : Place ι → Place ι := fun p => match p with
    | .list => .batch i
    | p => p
  apply h.relocate m hpushes
  · intro q x
    by_cases hb : q = .batch i
    · subst hb
      rw [hbatch]
      constructor
      · exact fun hx => ⟨.list, rfl, hx⟩
      · rintro ⟨p, hp, hx⟩
        cases p with
        | list => exact hx
        | batch j =>
          obtain rfl : j = i := by simpa [m] using hp
          rw [hbefore] at hx
          cases hx
        | table => cases hp
    · constructor
      · intro hx
        cases q with
        | list =>
          rw [hlist] at hx
          cases hx
        | batch j => exact ⟨.batch j, rfl, hrest _ (by simp) hb ▸ hx⟩
        | table => exact ⟨.table, rfl, hrest _ (by simp) hb ▸ hx⟩
      · rintro ⟨p, hp, hx⟩
        cases p with
        | list => exact absurd hp.symm hb
        | batch j =>
          obtain rfl : q = .batch j := hp.symm
          rwa [hrest _ (by simp) hb]
        | table =>
          obtain rfl : q = .table := hp.symm
          rwa [hrest _ (by simp) hb]
  · intro q
    by_cases hb : q = .batch i
    · rw [hb, hbatch]
      exact h.once .list
    · cases q with
      | list => simp [hlist]
      | batch j =>
        rw [hrest _ (by simp) hb]
        exact h.once _
      | table =>
        rw [hrest _ (by simp) hb]
        exact h.once _

/-- The batch of process `i` is inserted into the table. -/
theorem EventsAccounted.insert (h : EventsAccounted rid c) {i : ι}
    (hpushes : ∀ n event, c'.store.Pushed rid n event ↔ c.store.Pushed rid n event)
    (hbatch : rowsAt c' rid (.batch i) = [])
    (htable : rowsAt c' rid .table = rowsAt c rid .table ++ rowsAt c rid (.batch i))
    (hrest : ∀ q, q ≠ .table → q ≠ .batch i → rowsAt c' rid q = rowsAt c rid q) : EventsAccounted rid c' := by
  let m : Place ι → Place ι := fun p => match p with
    | .batch j => if j = i then .table else .batch j
    | p => p
  apply h.relocate m hpushes
  · intro q x
    by_cases hq : q = .table
    · subst hq
      rw [htable, List.mem_append]
      constructor
      · rintro (hx | hx)
        · exact ⟨.table, rfl, hx⟩
        · exact ⟨.batch i, by simp [m], hx⟩
      · rintro ⟨p, hp, hx⟩
        cases p with
        | list => cases hp
        | batch j =>
          have hj : j = i := by
            by_contra hj
            simp [m, hj] at hp
          subst hj
          exact .inr hx
        | table => exact .inl hx
    · by_cases hb : q = .batch i
      · subst hb
        rw [hbatch]
        constructor
        · intro hx
          cases hx
        · rintro ⟨p, hp, -⟩
          cases p with
          | list => cases hp
          | batch j =>
            by_cases hj : j = i
            · simp [m, hj] at hp
            · simp [m, hj] at hp
          | table => cases hp
      · rw [hrest q hq hb]
        have hmq : m q = q := by
          cases q with
          | batch j =>
            have hj : j ≠ i := fun hj => hb (by rw [hj])
            simp [m, hj]
          | _ => rfl
        constructor
        · exact fun hx => ⟨q, hmq, hx⟩
        · rintro ⟨p, hp, hx⟩
          cases p with
          | batch j =>
            by_cases hj : j = i
            · simp only [m, hj, if_true] at hp
              exact absurd hp.symm hq
            · simp only [m, hj, if_false] at hp
              exact hp ▸ hx
          | list => exact hp ▸ hx
          | table => exact hp ▸ hx
  · intro q
    by_cases hq : q = .table
    · subst hq
      obtain ⟨place, hplace⟩ := h.placed
      rw [htable, List.map_append, List.nodup_append']
      refine ⟨h.once .table, h.once _, ?_⟩
      intro n hn hm
      obtain ⟨x, hx, rfl⟩ := List.mem_map.mp hn
      obtain ⟨y, hy, hyn⟩ := List.mem_map.mp hm
      obtain ⟨k, e, -, hk, rfl⟩ := (hplace _ x).mp hx
      obtain ⟨k', e', -, hk', rfl⟩ := (hplace _ y).mp hy
      obtain rfl : k' = k := hyn
      cases hk.symm.trans hk'
    · by_cases hb : q = .batch i
      · simp [hb, hbatch]
      · rw [hrest q hq hb]
        exact h.once q

theorem TrackingCall.Apart.tables {call : TrackingCall} (h : call.Apart) (env : Environment)
    (w : TrackingWorld) : (trackingHandle env call w).2.queue = w.queue ∧
      (trackingHandle env call w).2.tracks = w.tracks ∧ (trackingHandle env call w).2.pushes = w.pushes := by
  cases call with
  | service call =>
    cases call with
    | pushTripEvent => exact h.elim
    | _ => exact ⟨rfl, rfl, rfl⟩
  | lrangeEvents | delEvents | persistFlush => exact h.elim
  | _ => exact ⟨rfl, rfl, rfl⟩

/-- Rows of one ride are rows of no other. -/
theorem filter_entries {r : Id} (batch : List QueuedEvent) :
    (batch.map (·.entry r)).filter (·.rideId = rid) = if r = rid then batch.map (·.entry rid) else [] := by
  by_cases hr : r = rid
  · subst hr
    rw [if_pos rfl, List.filter_eq_self]
    intro x hx
    obtain ⟨q, -, rfl⟩ := List.mem_map.mp hx
    exact decide_eq_true rfl
  · rw [if_neg hr, List.filter_eq_nil_iff]
    intro x hx
    obtain ⟨q, -, rfl⟩ := List.mem_map.mp hx
    simp [QueuedEvent.entry, hr]

/-- The step lemma: a move that deletes only what has been read. -/
theorem EventsAccounted.step {env : Environment} {i : ι} {call : TrackingCall} {l : FlushPhase}
    {next : Except ServiceError call.Answer → TrackingService Unit} (h : EventsAccounted rid c)
    (hok : TakesWhatItRead rid c i) (hi : c.procs i = .call call next)
    (hmv : FlushMove c.store (phase c i) call l) : EventsAccounted rid (c.step (trackingHandle env) i) := by
  have hphase : phase (c.step (trackingHandle env) i) i = l := hmv.phase hi
  have hother (j : ι) (hj : j ≠ i) : phase (c.step (trackingHandle env) i) j = phase c j :=
    phase_step_other hi hj
  have hstore : (c.step (trackingHandle env) i).store = (trackingHandle env call c.store).2 := by
    rw [Pool.step_call _ hi]
  have hsame (hq : (trackingHandle env call c.store).2.queue rid = c.store.queue rid)
      (hl : l.holds rid = (phase c i).holds rid)
      (ht : (trackingHandle env call c.store).2.tracks.filter (·.rideId = rid) =
        c.store.tracks.filter (·.rideId = rid))
      (hp : ∀ n event, (trackingHandle env call c.store).2.Pushed rid n event ↔
        c.store.Pushed rid n event) : EventsAccounted rid (c.step (trackingHandle env) i) := by
    apply h.same
    · rw [hstore]
      exact hp
    · intro q
      cases q with
      | list => rw [rowsAt, hstore, hq, rowsAt]
      | batch j =>
        rw [rowsAt, rowsAt]
        by_cases hj : j = i
        · rw [hj, hphase, hl]
        · rw [hother j hj]
      | table => rw [rowsAt, hstore, ht, rowsAt]
  have hrows (j : ι) (hj : j ≠ i) :
      rowsAt (c.step (trackingHandle env) i) rid (.batch j) = rowsAt c rid (.batch j) := by
    rw [rowsAt, rowsAt, hother j hj]
  have hbatch : rowsAt (c.step (trackingHandle env) i) rid (.batch i) = (l.holds rid).map (·.entry rid) := by
    rw [rowsAt, hphase]
  unfold TakesWhatItRead at hok
  rw [hi, Program.pending] at hok
  have hbefore : rowsAt c rid (.batch i) = ((phase c i).holds rid).map (·.entry rid) := rfl
  generalize phase c i = l₀ at hmv hsame hok hbefore
  cases hmv with
  | apart ha =>
    obtain ⟨hq, ht, hp⟩ := ha.tables env c.store
    exact hsame (by rw [hq]) rfl (by rw [ht]) fun n event => by
      simp only [TrackingWorld.Pushed, hp]
  | @push r event =>
    by_cases hr : r = rid
    · subst hr
      apply h.push
      · rw [hstore]
        rfl
      · simp [rowsAt, hstore, trackingHandle]
      · intro q hq
        cases q with
        | list => exact absurd rfl hq
        | batch j =>
          by_cases hj : j = i
          · rw [hj, hbatch, hbefore]
          · exact hrows j hj
        | table => rw [rowsAt, hstore, rowsAt]; rfl
    · refine hsame (Function.update_of_ne (Ne.symm hr) _ _) rfl rfl fun n e => ?_
      exact pushed_append.trans (by simp [hr])
  | nothing hq => exact hsame rfl rfl rfl fun _ _ => Iff.rfl
  | read hq => exact hsame rfl rfl rfl fun _ _ => Iff.rfl
  | @take r batch =>
    by_cases hr : r = rid
    · subst hr
      have hq : c.store.queue r = batch := by simpa [FlushPhase.reads] using hok rfl
      refine h.take (i := i) ?_ hbefore ?_ ?_ ?_
      · rw [hstore]
        exact fun _ _ => Iff.rfl
      · simp [rowsAt, hstore, trackingHandle]
      · rw [hbatch, rowsAt, hq]
        simp [FlushPhase.holds]
      · intro q hl hb
        cases q with
        | list => exact absurd rfl hl
        | batch j => exact hrows j fun hj => hb (by rw [hj])
        | table => rw [rowsAt, hstore, rowsAt]; rfl
    · exact hsame (Function.update_of_ne (Ne.symm hr) _ _) (by simp [FlushPhase.holds, hr]) rfl
        fun _ _ => Iff.rfl
  | @insert r batch summaries =>
    by_cases hr : r = rid
    · subst hr
      refine h.insert (i := i) ?_ hbatch ?_ ?_
      · rw [hstore]
        exact fun _ _ => Iff.rfl
      · rw [hbefore, rowsAt, hstore, rowsAt]
        simp [trackingHandle, FlushPhase.holds, filter_entries, List.filter_append]
      · intro q ht hb
        cases q with
        | list => rw [rowsAt, hstore, rowsAt]; rfl
        | batch j => exact hrows j fun hj => hb (by rw [hj])
        | table => exact absurd rfl ht
    · refine hsame rfl (by simp [FlushPhase.holds, hr]) ?_ fun _ _ => Iff.rfl
      simp [trackingHandle, filter_entries, List.filter_append, hr]
  | @clean r =>
    by_cases hr : r = rid
    · subst hr
      have hq : c.store.queue r = [] := by simpa [FlushPhase.reads] using hok rfl
      exact hsame (by simp [trackingHandle, hq]) rfl rfl fun _ _ => Iff.rfl
    · exact hsame (Function.update_of_ne (Ne.symm hr) _ _) rfl rfl fun _ _ => Iff.rfl

/-- All calls, before the first of them has been executed, on a service that has no events yet. -/
def trackingCalls (ops : ι → TrackingOp) (world : World) : TrackingPool ι :=
  Pool.start (fun i => (ops i).program) (.start world)

theorem eventsAccounted_start (ops : ι → TrackingOp) (world : World) (rid : Id) :
    EventsAccounted rid (trackingCalls ops world) := by
  refine ⟨⟨fun _ => .list, fun p x => ?_⟩, fun p => ?_⟩
  · have hnone : ¬ ∃ n event, (trackingCalls ops world).store.Pushed rid n event ∧ Place.list = p ∧
        x = (⟨n, event⟩ : QueuedEvent).entry rid := by
      rintro ⟨n, event, hn, -⟩
      simp [TrackingWorld.Pushed, trackingCalls, Pool.start, TrackingWorld.start] at hn
    refine iff_of_false ?_ hnone
    cases p <;> simp [rowsAt, trackingCalls, Pool.start, TrackingWorld.start, phase, history, phaseOf,
      FlushPhase.holds]
  · cases p <;> simp [rowsAt, trackingCalls, Pool.start, TrackingWorld.start, phase, history, phaseOf,
      FlushPhase.holds]

/-- Every process follows its outline, from the phase that its calls so far say. -/
def FlushesHold (env : Environment) (rid : Id) (c : TrackingPool ι) : Prop :=
  Outline.Holds (fun _ => flushOutline) (trackingHandle env) (fun _ l _ => l = .idle)
    (fun labels c => EventsAccounted rid c ∧ ∀ i, labels i = phase c i) c

/-- In every run whose deletions find what was read before them, every event that has
been pushed is at exactly one place at every moment. -/
theorem events_placed_once (env : Environment) (rid : Id) (ops : ι → TrackingOp) (world : World)
    (sched : List ι)
    (hm : Pool.Meets (trackingHandle env) (TakesWhatItRead rid) (trackingCalls ops world) sched) :
    ∀ pre, pre <+: sched → EachOnce rid ((trackingCalls ops world).exec (trackingHandle env) pre) := by
  intro pre hpre
  have hstart : FlushesHold env rid (trackingCalls ops world) :=
    ⟨fun _ => .idle, ⟨eventsAccounted_start ops world rid, fun _ => rfl⟩, fun i => (ops i).flushes env⟩
  have hrun : FlushesHold env rid ((trackingCalls ops world).exec (trackingHandle env) pre) := by
    apply Outline.exec_holds (fun _ _ _ _ => trivial) ?_ hstart (hm.initial hpre)
    rintro labels c i call next l ⟨hacc, hlabels⟩ hok hi hmv
    have hmv' : FlushMove c.store (phase c i) call l := hlabels i ▸ hmv
    refine ⟨hacc.step hok hi hmv', fun j => ?_⟩
    by_cases hj : j = i
    · subst hj
      rw [Function.update_self, hmv'.phase hi]
    · rw [Function.update_of_ne hj, phase_step_other hi hj, hlabels j]
  obtain ⟨labels, ⟨hacc, -⟩, -⟩ := hrun
  exact hacc.eachOnce

/-- Rider 1 shares two locations of ride 1 while a flush is under way. -/
def recordAndFlush : Fin 3 → TrackingOp
  | 0 => .recordLocation 1 1 .rider ⟨⟨1, 1⟩, none, "10:00"⟩
  | 1 => .flushRide 1
  | 2 => .recordLocation 1 1 .rider ⟨⟨1, 1⟩, none, "10:01"⟩

def flushedInTurn : List (Fin 3) := Pool.turns [(0, 5), (2, 5), (1, 4)]

theorem events_placed_once_in_turn :
    EachOnce 1 ((trackingCalls recordAndFlush (World.initial [])).exec (trackingHandle (.around []))
      flushedInTurn) :=
  events_placed_once (.around []) 1 recordAndFlush (World.initial []) flushedInTurn (by decide +kernel)
    flushedInTurn List.prefix_rfl

/-- The second location is pushed after the flush has read the list and before it deletes it. -/
def pushedBetween : List (Fin 3) := Pool.turns [(0, 5), (1, 1), (2, 5), (1, 3)]

theorem pushed_event_lost :
    ¬ EachOnce 1 ((trackingCalls recordAndFlush (World.initial [])).exec (trackingHandle (.around []))
      pushedBetween) := by
  intro h
  have hpushed : ((trackingCalls recordAndFlush (World.initial [])).exec (trackingHandle (.around []))
      pushedBetween).store.Pushed 1 1 ⟨.rider, 1, 1, 1, "10:01", none, 0, 0⟩ := by
    unfold TrackingWorld.Pushed
    decide +kernel
  obtain ⟨p, hp, -⟩ := h.placed 1 _ hpushed
  cases p with
  | list =>
    revert hp
    decide +kernel
  | batch j =>
    revert hp j
    decide +kernel
  | table =>
    revert hp
    decide +kernel

end NebLite
