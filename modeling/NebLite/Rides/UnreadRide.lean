import NebLite.Rides.CreationFaults
import NebLite.Atomic.Outcomes

/-! What one failing call leaves of a ride that is being created. -/

namespace NebLite

open Atomic Creation

/-- The rows of the rides, of the candidates and of the history are the same. -/
structure World.SameBookings (w v : World) : Prop where
  rides : v.rides = w.rides
  candidates : v.candidates = w.candidates
  history : v.history = w.history

theorem World.SameBookings.refl (w : World) : w.SameBookings w := ⟨rfl, rfl, rfl⟩

section Calls

variable {env : Environment} {fails : ℕ → Option ServiceError} {w : World} {m : ℕ} {c : CreationCall}

theorem outcome_issue {Q : c.Answer → Counted (Session World) → Prop}
    {E : ServiceError → Counted (Session World) → Prop}
    (hok : ∀ a v, creationHandle env c w = (.ok a, v) → Q a ⟨⟨v, none⟩, m + 1⟩)
    (herror : ∀ e v, creationHandle env c w = (.error e, v) → E e ⟨⟨v, none⟩, m + 1⟩)
    (hfail : ∀ e, fails m = some e → E e ⟨⟨w, none⟩, m + 1⟩) :
    (issue c).Outcome (faultyCreation env fails) ⟨⟨w, none⟩, m⟩ Q E := by
  cases hm : fails m with
  | some e => exact Program.outcome_of_error (issue_fails hm) (hfail e hm)
  | none =>
    have hrun : (issue c).run (faultyCreation env fails) ⟨⟨w, none⟩, m⟩ =
        ((creationHandle env c w).1, ⟨⟨(creationHandle env c w).2, none⟩, m + 1⟩) := issue_answers hm
    rcases hc : creationHandle env c w with ⟨e | a, v⟩ <;> rw [hc] at hrun
    · exact Program.outcome_of_error hrun (herror e v hc)
    · exact Program.outcome_of_ok hrun (hok a v hc)

/-- What the two `catch` blocks do. -/
def Undoes : Command CreationCall → Prop
  | .isTransactionActive | .rollback | .call .removeRouteJob => True
  | _ => False

/-- What is committed stays, and the exception goes on. -/
theorem outcome_undoing {α : Type} {p : CreationService α} (hp : p.Calls Undoes) {I : World → Prop}
    {x : Counted (Session World)} (hx : I x.store.committed) :
    p.Outcome (faultyCreation env fails) x (fun _ y => I y.store.committed) fun _ y => I y.store.committed := by
  have hkeeps : Program.Keeps (faultyCreation env fails) (fun y z => z.store.committed = y.store.committed) p := by
    let R (y z : Session World) : Prop := z.committed = y.committed
    refine hp.keeps_faulty (R := R) (fun _ => rfl) ?_ ?_
    · intro s t u hst htu
      exact htu.trans hst
    · rintro c hc ⟨s, staged⟩
      cases c with
      | isTransactionActive => rfl
      | rollback => rfl
      | call op =>
        cases op with
        | removeRouteJob => cases staged <;> rfl
        | _ => exact hc.elim
      | _ => exact hc.elim
  have hend : I (p.run (faultyCreation env fails) x).2.store.committed := by
    rw [hkeeps x]
    exact hx
  exact Program.outcome_of_store (P := fun y : Counted (Session World) => I y.store.committed) hend

theorem outcome_routeEstimates (pickup dropoff : Coordinate) :
    (requestRouteEstimatesThroughQueue pickup dropoff).Outcome (faultyCreation env fails) ⟨⟨w, none⟩, m⟩
      (fun route x => env.route w.answered = .ok route ∧
        x = ⟨⟨{ w with answered := w.answered + 1 }, none⟩, m + 5⟩)
      fun _ x => w.SameBookings x.store.committed := by
  have hsame : w.SameBookings { w with answered := w.answered + 1 } := ⟨rfl, rfl, rfl⟩
  unfold requestRouteEstimatesThroughQueue
  refine Program.outcome_after run_removeRouteJob ?_
  have hready : createQueueEvents.Outcome (faultyCreation env fails) ⟨⟨w, none⟩, m + 1⟩
      (fun _ x => x = ⟨⟨w, none⟩, m + 2⟩) fun _ x => w.SameBookings x.store.committed := by
    unfold createQueueEvents
    refine Program.Outcome.catching (E := fun _ x => x = ⟨⟨w, none⟩, m + 2⟩) (outcome_issue ?_ ?_ ?_) ?_
    · rintro _ v hv
      cases hv
      rfl
    · rintro _ v hv
      cases hv
    · exact fun _ _ => rfl
    · rintro e _ rfl
      refine Program.outcome_after run_closeQueueEvents ?_
      exact .refl w
  refine hready.bind ?_
  rintro _ _ rfl
  have hjob : (do
      issue (.addRouteJob pickup dropoff)
      (issue (.service (.requestRoute pickup dropoff))).catching fun _ =>
        throw (.badRequest "Unable to calculate route distance at this time. Please try again later.") :
      CreationService RouteEstimates).Outcome (faultyCreation env fails) ⟨⟨w, none⟩, m + 2⟩
      (fun route x => env.route w.answered = .ok route ∧
        x = ⟨⟨{ w with answered := w.answered + 1 }, none⟩, m + 4⟩)
      fun _ x => x.store.staged = none ∧ w.SameBookings x.store.committed := by
    refine Program.Outcome.bind (Q := fun _ x => x = ⟨⟨w, none⟩, m + 3⟩) (outcome_issue ?_ ?_ ?_) ?_
    · rintro _ v hv
      cases hv
      rfl
    · rintro _ v hv
      cases hv
    · exact fun _ _ => ⟨rfl, .refl w⟩
    · rintro _ _ rfl
      refine Program.Outcome.catching (E := fun _ x => x.store.staged = none ∧ w.SameBookings x.store.committed)
        (outcome_issue ?_ ?_ ?_) ?_
      · rintro route v hv
        obtain ⟨hroute, rfl⟩ := Prod.mk.inj hv
        exact ⟨hroute, rfl⟩
      · rintro _ v hv
        obtain ⟨-, rfl⟩ := Prod.mk.inj hv
        exact ⟨rfl, hsame⟩
      · exact fun _ _ => ⟨rfl, .refl w⟩
      · exact fun _ _ h => Program.outcome_throw h
  unfold Program.Outcome at hjob ⊢
  rw [Program.run_finalizing]
  rcases hrun : Program.run (faultyCreation env fails) _ (⟨⟨w, none⟩, m + 2⟩ : Counted (Session World)) with
    ⟨e | route, ⟨⟨v, staged⟩, k⟩⟩ <;> rw [hrun] at hjob
  · obtain ⟨rfl, hv⟩ := hjob
    rw [run_closeQueueEvents]
    exact hv
  · obtain ⟨hroute, hx⟩ := hjob
    cases hx
    rw [run_closeQueueEvents]
    exact ⟨hroute, rfl⟩

/-- The transaction commits everything or nothing; after its COMMIT only the read can fail. -/
theorem outcome_createRideWithDetails (options : RideCreationOptions) :
    (Creation.createRideWithDetails options).Outcome (faultyCreation env fails) ⟨⟨w, none⟩, m⟩ (fun _ _ => True)
      fun _ x => w.SameBookings x.store.committed ∨
        (fails (m + options.nearbyDrivers.length + options.historyEntries.length + 4) ≠ none ∧
          ∃ created v, w.insertRide options = (.ok created, v)) := by
  have hundo (e : ServiceError) : (do
      if ← Program.perform (.isTransactionActive : Command CreationCall) then
        Program.perform (.rollback : Command CreationCall)
      throw e : CreationService (Ride × List RideDriverCandidate)).Calls Undoes := by
    refine Program.Calls.bind ((Program.calls_perform _).mpr trivial) fun active => ?_
    cases active with
    | true => exact Program.Calls.bind ((Program.calls_perform _).mpr trivial) fun _ => trivial
    | false => trivial
  unfold Creation.createRideWithDetails
  refine Program.Outcome.catching (E := fun _ x => w.SameBookings x.store.committed ∨
    (fails (m + options.nearbyDrivers.length + options.historyEntries.length + 4) ≠ none ∧
      ∃ created v, w.insertRide options = (.ok created, v))) ?_ fun e x hx => ?_
  · refine Program.Outcome.bind (Q := fun _ x => x = ⟨⟨w, none⟩, m + 1⟩) (outcome_issue ?_ ?_ ?_) ?_
    · rintro _ v hv
      cases hv
      rfl
    · rintro _ v hv
      cases hv
    · exact fun _ _ => .inl (.refl w)
    rintro _ _ rfl
    by_cases hcommits : Undisturbed fails (m + 1)
        ((insertBooking options).cost (fun _ => true) (creationHandle env) w + 2) ∧
        ∃ a, ((insertBooking options).run (creationHandle env) w).1 = .ok a
    · obtain ⟨hf, a, ha⟩ := hcommits
      rcases hinsert : w.insertRide options with ⟨e | created, v⟩
      · obtain ⟨u, hrun⟩ := insertBooking_refused env hinsert
        rw [hrun] at ha
        cases ha
      · have hbooking := completes_insertBooking env hinsert
        rw [hbooking.cost] at hf
        refine Program.outcome_after (hbooking.run_committing hf) ?_
        have hread : m + 1 + (options.nearbyDrivers.length + options.historyEntries.length + 1) + 2 =
            m + options.nearbyDrivers.length + options.historyEntries.length + 4 := by omega
        rw [hread]
        refine Program.Outcome.bind (Q := fun r _ => r ≠ none) (outcome_issue ?_ ?_ ?_) ?_
        · rintro r u hu
          obtain ⟨hfound, -⟩ := Prod.mk.inj hu
          obtain ⟨hid, hfind, -⟩ := insertRide_rows hinsert
          cases hfound
          rw [hid, hfind, if_pos rfl]
          exact Option.some_ne_none _
        · rintro _ u hu
          cases hu
        · intro e he
          right
          rw [he]
          exact ⟨Option.some_ne_none e, created, v, rfl⟩
        · intro r x hr
          cases r with
          | none => exact absurd rfl hr
          | some ride => trivial
    · obtain ⟨e, staged, k, hrun⟩ := straight_insertBooking.run_uncommitted (n := m + 1) hcommits
      exact Program.outcome_of_error (Program.run_bind_error _ hrun _) (.inl (.refl w))
  · exact (outcome_undoing (hundo e) (I := fun u => w.SameBookings u ∨
      (fails (m + options.nearbyDrivers.length + options.historyEntries.length + 4) ≠ none ∧
        ∃ created v, w.insertRide options = (.ok created, v))) hx).mono (fun _ _ _ => trivial) fun _ _ h => h

theorem returns_notify (p : Service Unit) (x : Counted (Session World)) :
    (notify p).Returns (faultyCreation env fails) x fun _ _ => True := by
  unfold notify
  have hends : ((p.lift .service fun _ a => a).issued).Outcome (faultyCreation env fails) x (fun _ _ => True)
      fun _ _ => True := Program.outcome_of_store (P := fun _ => True) trivial
  exact hends.catching fun _ _ _ => trivial

theorem returns_notifyAll {α : Type} (xs : List α) (p : α → Service Unit) (x : Counted (Session World)) :
    (xs.forM fun a => notify (p a)).Returns (faultyCreation env fails) x fun _ _ => True := by
  induction xs generalizing x with
  | nil => trivial
  | cons a xs ih => exact (returns_notify (p a) x).bind fun _ y _ => ih y

variable (env) in
/-- The ride has been committed and cannot be read: there is nothing left to roll back. -/
theorem run_createRideWithDetails_unread {options : RideCreationOptions} {created : Id × List RideDriverCandidate}
    {v : World} {e : ServiceError} (hinsert : w.insertRide options = (.ok created, v))
    (hf : Undisturbed fails m (options.nearbyDrivers.length + options.historyEntries.length + 4))
    (hread : fails (m + (options.nearbyDrivers.length + options.historyEntries.length + 4)) = some e) :
    ∃ k, (Creation.createRideWithDetails options).run (faultyCreation env fails) ⟨⟨w, none⟩, m⟩ =
      (.error e, ⟨⟨v, none⟩, k⟩) := by
  have hbooking := completes_insertBooking env hinsert
  have hparts : options.nearbyDrivers.length + options.historyEntries.length + 4 =
      1 + (options.nearbyDrivers.length + options.historyEntries.length + 1 + 2) := by omega
  rw [hparts] at hf hread
  obtain ⟨hconnect, hcommit⟩ := undisturbed_add.mp hf
  have hconnected : (issue .connect).run (faultyCreation env fails) ⟨⟨w, none⟩, m⟩ = (.ok (), ⟨⟨w, none⟩, m + 1⟩) :=
    issue_answers (undisturbed_one.mp hconnect)
  have hcommitted := hbooking.run_committing hcommit
  rw [← Nat.add_assoc, ← Nat.add_assoc] at hread
  have hfailed : (issue (.service (.findRide created.1))).run (faultyCreation env fails) ⟨⟨v, none⟩, _⟩ =
      (.error e, _) := issue_fails hread
  unfold Creation.createRideWithDetails
  rw [Program.run_catching, Program.run_bind_ok _ hconnected, Program.run_bind_ok _ hcommitted]
  rcases created with ⟨rideId, candidates⟩
  simp only
  rw [Program.run_bind_error _ hfailed]
  exact ⟨_, rfl⟩

end Calls

/-- The rider may book, a route is found, and `drivers` are near, all of them known. -/
structure World.Bookable (env : Environment) (w : World) (rider : Option Id) (drivers : List NearbyDriver) : Prop where
  free : ∃ r, rider = some r ∧ w.findUnfinishedRide r = none
  route : ∃ route, env.route w.answered = .ok route
  near : env.nearbyDrivers (w.answered + 1) = .ok drivers
  found : drivers ≠ []
  known : ∀ driver ∈ drivers, driver.driverId ≠ none

/-- How many calls are made before the ride is read that has been committed. -/
def readAfterCommit (drivers : List NearbyDriver) : ℕ := drivers.length + 13

section Creation

variable {env : Environment} {fails : ℕ → Option ServiceError} {w : World} {rider : Option Id}
  {payload : CreateRideInput} {now : Time}

theorem outcome_createRideBody (env : Environment) (fails : ℕ → Option ServiceError) {w : World} {r : Id}
    (hfree : w.findUnfinishedRide r = none) (payload : CreateRideInput) (now : Time) :
    (Creation.createRideBody env r payload now).Outcome (faultyCreation env fails) ⟨⟨w, none⟩, 1⟩ (fun _ _ => True)
      fun _ x => w.SameBookings x.store.committed ∨
        ∃ drivers, w.Bookable env (some r) drivers ∧ fails (readAfterCommit drivers) ≠ none := by
  have hsame (n : ℕ) : w.SameBookings { w with answered := n } := ⟨rfl, rfl, rfl⟩
  unfold Creation.createRideBody
  refine ((outcome_routeEstimates payload.pickup payload.dropoff).mono (fun _ _ h => h)
    fun _ _ h => .inl h).bind ?_
  rintro route _ ⟨hroute, rfl⟩
  refine Program.Outcome.bind (Q := fun drivers x => env.nearbyDrivers (w.answered + 1) = .ok drivers ∧
    x = ⟨⟨{ w with answered := w.answered + 2 }, none⟩, 7⟩) (outcome_issue ?_ ?_ ?_) ?_
  · rintro drivers v hv
    obtain ⟨hnear, rfl⟩ := Prod.mk.inj hv
    exact ⟨hnear, rfl⟩
  · rintro _ v hv
    obtain ⟨-, rfl⟩ := Prod.mk.inj hv
    exact .inl (hsame _)
  · exact fun _ _ => .inl (hsame _)
  rintro drivers _ ⟨hnear, rfl⟩
  split
  · exact .inl (hsame _)
  next hlength =>
  refine ((outcome_createRideWithDetails _).mono (fun _ _ h => h) ?_).bind ?_
  · rintro e x (hkept | ⟨hfail, created, v, hinsert⟩)
    · exact .inl ⟨hkept.rides, hkept.candidates, hkept.history⟩
    · refine .inr ⟨drivers, ⟨⟨r, rfl, hfree⟩, ⟨route, hroute⟩, hnear, ?_, ?_⟩, ?_⟩
      · rintro rfl
        exact hlength rfl
      · obtain ⟨-, -, new, -, -, hmap⟩ := insertRide_rows hinsert
        intro driver hdriver
        have hid : driver.driverId ∈ new.map fun c => some c.driverId := by
          rw [hmap]
          exact List.mem_map_of_mem hdriver
        obtain ⟨c, -, hc⟩ := List.mem_map.mp hid
        rw [← hc]
        exact Option.some_ne_none _
      · have hposition : 7 + drivers.length + 2 + 4 = readAfterCommit drivers := by
          unfold readAfterCommit
          omega
        rw [← hposition]
        exact hfail
  · rintro ⟨ride, candidates⟩ x -
    refine (returns_notifyAll candidates _ x).outcome.bind fun _ y _ => ?_
    exact (returns_notify _ y).outcome.bind fun _ _ _ => trivial

theorem outcome_createRide (env : Environment) (fails : ℕ → Option ServiceError) (w : World) (rider : Option Id)
    (payload : CreateRideInput) (now : Time) :
    (Creation.createRide env rider payload now).Outcome (faultyCreation env fails) ⟨⟨w, none⟩, 0⟩ (fun _ _ => True)
      fun _ x => w.SameBookings x.store.committed ∨
        ∃ drivers, w.Bookable env rider drivers ∧ fails (readAfterCommit drivers) ≠ none := by
  unfold Creation.createRide
  cases rider with
  | none => exact .inl (.refl w)
  | some r =>
    simp only
    refine Program.Outcome.bind (Q := fun found x => found = w.findUnfinishedRide r ∧ x = ⟨⟨w, none⟩, 1⟩)
      (outcome_issue ?_ ?_ ?_) ?_
    · rintro found v hv
      obtain ⟨hfound, rfl⟩ := Prod.mk.inj hv
      cases hfound
      exact ⟨rfl, rfl⟩
    · rintro _ v hv
      cases hv
    · exact fun _ _ => .inl (.refl w)
    rintro found _ ⟨rfl, rfl⟩
    split
    · exact .inl (.refl w)
    next hfree =>
    refine (outcome_createRideBody env fails (by simpa using hfree) payload now).catching fun e x hx => ?_
    have hundo : (do
        Creation.removeRouteJob
        throw (rideCreationError e) : CreationService (Ride × List RideDriverCandidate)).Calls Undoes := by
      refine Program.Calls.bind (Program.Calls.catching ((Program.calls_perform _).mpr trivial) fun _ => trivial) ?_
      exact fun _ => trivial
    exact (outcome_undoing hundo (I := fun u => w.SameBookings u ∨
      ∃ drivers, w.Bookable env (some r) drivers ∧ fails (readAfterCommit drivers) ≠ none) hx).mono
        (fun _ _ _ => trivial) fun _ _ h => h

theorem insertRide_known (options : RideCreationOptions) (u : World)
    (h : ∀ driver ∈ options.nearbyDrivers, driver.driverId ≠ none) :
    ∃ created v, u.insertRide options = (.ok created, v) := by
  have hrow : ∃ vc, World.insertCandidates u.rides.nextKey options.now { u with
      rides := u.rides.insert (World.newRide options.ride options.now) fun _ => rfl } options.nearbyDrivers = .ok vc :=
    insertCandidates_ok h
  obtain ⟨⟨v, cs⟩, hrows⟩ := hrow
  simp only [World.insertRide, hrows]
  exact ⟨_, _, rfl⟩

variable (payload now) in
/-- If the read after the COMMIT is what fails, the rider gets an error and the ride stays. -/
theorem read_fails_persists {drivers : List NearbyDriver} {d : ServiceError} (hb : w.Bookable env rider drivers)
    (hf : Undisturbed fails 0 (readAfterCommit drivers)) (hread : fails (readAfterCommit drivers) = some d) :
    ∃ e x, (Creation.createRide env rider payload now).run (faultyCreation env fails) ⟨⟨w, none⟩, 0⟩ = (.error e, x) ∧
      x.store.committed.rides.find w.rides.nextKey ≠ none := by
  obtain ⟨r, rfl, hfree⟩ := hb.free
  obtain ⟨route, hroute⟩ := hb.route
  have hposition : readAfterCommit drivers = 1 + (5 + (1 + (drivers.length + 2 + 4))) := by
    unfold readAfterCommit
    omega
  rw [hposition, undisturbed_add, undisturbed_add, undisturbed_add, undisturbed_one, undisturbed_one] at hf
  obtain ⟨hfind, hqueue, hlocate, hstore⟩ := hf
  have hfound : (issue (.service (.findUnfinishedRide r))).run (faultyCreation env fails) ⟨⟨w, none⟩, 0⟩ =
      (.ok none, ⟨⟨w, none⟩, 0 + 1⟩) := by
    rw [issue_answers hfind]
    simp only [creationHandle, handle, hfree]
  have hrouted : (requestRouteEstimatesThroughQueue payload.pickup payload.dropoff).run (faultyCreation env fails)
      ⟨⟨w, none⟩, 0 + 1⟩ = (.ok route, ⟨⟨{ w with answered := w.answered + 1 }, none⟩, 0 + 1 + 5⟩) := by
    rw [run_routeEstimates _ _ hqueue, hroute]
    rfl
  have hnear : (issue (.service (.nearbyDrivers payload.pickup (resolveCandidateLimit payload.maxDrivers)))).run
      (faultyCreation env fails) ⟨⟨{ w with answered := w.answered + 1 }, none⟩, 0 + 1 + 5⟩ =
        (.ok drivers, ⟨⟨{ w with answered := w.answered + 2 }, none⟩, 0 + 1 + 5 + 1⟩) := by
    rw [issue_answers hlocate]
    simp only [creationHandle, handle, hb.near]
  obtain ⟨created, v, hinsert⟩ := insertRide_known (rideOptions env r payload now route drivers)
    { w with answered := w.answered + 2 } hb.known
  have hlost : fails (0 + 1 + 5 + 1 + (drivers.length + 2 + 4)) = some d := by
    rw [← hread, hposition]
    congr 1
    omega
  obtain ⟨k, hunread⟩ := run_createRideWithDetails_unread env hinsert hstore hlost
  have hbody : (Creation.createRideBody env r payload now).run (faultyCreation env fails) ⟨⟨w, none⟩, 0 + 1⟩ =
      (.error d, ⟨⟨v, none⟩, k⟩) := by
    unfold Creation.createRideBody
    rw [Program.run_bind_ok _ hrouted, Program.run_bind_ok _ hnear,
      if_neg (fun h => hb.found (List.length_eq_zero_iff.mp h)), Program.run_bind_error _ hunread]
  refine ⟨rideCreationError d, ⟨⟨v, none⟩, k + 1⟩, ?_, ?_⟩
  · unfold Creation.createRide
    simp only
    rw [Program.run_bind_ok _ hfound]
    simp only [Option.isSome_none, Bool.false_eq_true, if_false]
    rw [Program.run_catching, hbody]
    simp only
    rw [Program.run_bind_ok _ run_removeRouteJob]
    rfl
  · obtain ⟨-, hrows, -⟩ := insertRide_rows hinsert
    have hrow := hrows w.rides.nextKey
    rw [if_pos rfl] at hrow
    rw [hrow]
    exact Option.some_ne_none _

end Creation

/-- If the creation of a ride throws, what is stored of rides is as before. -/
def AllOrNothing (env : Environment) (fails : ℕ → Option ServiceError) (w : World) (rider : Option Id)
    (payload : CreateRideInput) (now : Time) : Prop :=
  ∀ e x, (Creation.createRide env rider payload now).run (faultyCreation env fails) ⟨⟨w, none⟩, 0⟩ = (.error e, x) →
    w.SameBookings x.store.committed

/-- One failing call leaves a part of the booking behind if it is the read after the COMMIT, and only then. -/
theorem allOrNothing_iff (env : Environment) (n : ℕ) (d : ServiceError) (w : World) (rider : Option Id)
    (payload : CreateRideInput) (now : Time) :
    AllOrNothing env (failingAt n d) w rider payload now ↔
      ¬ ∃ drivers, w.Bookable env rider drivers ∧ n = readAfterCommit drivers := by
  constructor
  · rintro hall ⟨drivers, hb, rfl⟩
    have hbefore : Undisturbed (failingAt (readAfterCommit drivers) d) 0 (readAfterCommit drivers) := by
      intro k hk
      exact if_neg (by omega)
    obtain ⟨e, x, hrun, hstays⟩ := read_fails_persists payload now hb hbefore (if_pos rfl)
    rw [(hall e x hrun).rides] at hstays
    exact hstays Table.find_nextKey
  · intro hread e x hrun
    obtain hsame | ⟨drivers, hb, hfail⟩ := (outcome_createRide env (failingAt n d) w rider payload now).error hrun
    · exact hsame
    · refine absurd ⟨drivers, hb, ?_⟩ hread
      by_contra hn
      exact hfail (if_neg (Ne.symm hn))

/-- A booking with two drivers near, whose new ride cannot be read. -/
def unreadCreation : Except ServiceError (Ride × List RideDriverCandidate) × Counted (Session World) :=
  (Creation.createRide (.around [7, 8]) (some 1) ⟨⟨1, 1⟩, ⟨2, 2⟩, none, none⟩ 0).run
    (faultyCreation (.around [7, 8]) (failingAt 15 (.error "Connection terminated"))) ⟨⟨World.initial [], none⟩, 0⟩

/-- The rider is told that there is no ride, and has one that is in the way of the next. -/
theorem unread_ride_blocks :
    ¬ AllOrNothing (.around [7, 8]) (failingAt 15 (.error "Connection terminated")) (World.initial []) (some 1)
        ⟨⟨1, 1⟩, ⟨2, 2⟩, none, none⟩ 0 ∧
      unreadCreation.2.store.committed.findUnfinishedRide 1 = some (1, 1, .candidatesComputed) := by
  have hrows : unreadCreation.2.store.committed.rides.rows.length = 1 := by decide +kernel
  have herror : unreadCreation.1.isOk = false := by decide +kernel
  refine ⟨fun hall => ?_, by decide +kernel⟩
  rcases hrun : unreadCreation with ⟨e | a, x⟩
  · rw [hrun, (hall e x hrun).rides] at hrows
    cases hrows
  · rw [hrun] at herror
    cases herror

end NebLite
