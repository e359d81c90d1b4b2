import NebLite.Rides.Matching

/-! Whether the parties of an unfinished ride can always bring it to an end. -/

namespace NebLite

open Atomic

namespace Booking

variable {b : Booking}

/-- The operation leaves a started trip without a driver. -/
def Strands (b : Booking) (op : LifecycleOp) : Prop :=
  b.status = .tripStarted ∧
    match op with
    | .rejectRideByDriver _ driverId _ _ => b.driver = some driverId ∧
        b.cand driverId ≠ none ∧ b.cand driverId ≠ some .declined ∧ b.cand driverId ≠ some .canceled
    | .rejectDriverAcceptance _ riderId _ _ =>
      b.rider = riderId ∧ ∃ d, b.driver = some d ∧ b.cand d ≠ none
    | _ => False

theorem effect_rider (arrived : Bool) (op : LifecycleOp) : (op.effect arrived b).rider = b.rider := by
  cases op with
  | createRide | recordTripLocation => rfl
  | acceptRideByDriver _ d =>
    simp only [LifecycleOp.effect, accept]
    split_ifs <;> simp [claimedBy]
  | rejectRideByDriver _ d =>
    simp only [LifecycleOp.effect, driverReject]
    split_ifs <;> simp [release]
  | confirmDriverAcceptance _ rider =>
    simp only [LifecycleOp.effect, confirm]
    split
    · rfl
    · split_ifs <;> simp
  | rejectDriverAcceptance _ rider =>
    simp only [LifecycleOp.effect, riderReject]
    split
    · rfl
    · split_ifs <;> simp [release]
  | cancelRide _ requester =>
    simp only [LifecycleOp.effect, cancel]
    split_ifs <;> simp
  | startRide _ d =>
    simp only [LifecycleOp.effect, start]
    split_ifs <;> simp
  | completeRide _ requester =>
    simp only [LifecycleOp.effect, complete]
    split_ifs <;> simp

/-- A finished ride does not change any more. -/
theorem Terminal.effect (h : b.Terminal) (arrived : Bool) (op : LifecycleOp) :
    op.effect arrived b = b := by
  have hs : b.status = .completed ∨ b.status = .canceled := h
  cases op with
  | createRide | recordTripLocation => rfl
  | acceptRideByDriver _ d => simp [LifecycleOp.effect, accept, hs.symm]
  | rejectRideByDriver _ d => rcases hs with hs | hs <;> simp [LifecycleOp.effect, driverReject, hs]
  | confirmDriverAcceptance _ rider =>
    rcases hs with hs | hs <;> cases hd : b.driver <;> simp [LifecycleOp.effect, confirm, hs, hd]
  | rejectDriverAcceptance _ rider =>
    rcases hs with hs | hs <;> cases hd : b.driver <;> simp [LifecycleOp.effect, riderReject, hs, hd]
  | cancelRide _ requester => rcases hs with hs | hs <;> simp [LifecycleOp.effect, cancel, hs]
  | startRide _ d =>
    rcases hs with hs | hs <;> simp [LifecycleOp.effect, start, transition, hs]
  | completeRide _ requester =>
    rcases hs with hs | hs <;> simp [LifecycleOp.effect, complete, transition, hs]

theorem Strands.effect (hm : b.Matched) {op : LifecycleOp} (h : b.Strands op) (arrived : Bool) :
    (op.effect arrived b).Stranded := by
  obtain ⟨hst, hop⟩ := h
  have hm' := hm
  simp only [Matched, hst] at hm'
  have hcand {d : Id} {s : ERideDriverCandidateStatus} (hs : s = .declined ∨ s = .canceled) (x : Id) :
      (b.answer d s).cand x ≠ some .invited ∧ (b.answer d s).cand x ≠ some .accepted := by
    by_cases hx : x = d
    · subst hx
      rcases hs with rfl | rfl <;> simp
    · simpa [hx] using hm' x
  cases op with
  | rejectRideByDriver _ d =>
    obtain ⟨hd, hc⟩ := hop
    have hr : b.driverReject d = (b.answer d .declined).release := by
      simp [driverReject, hst, hc, hd]
    simp only [LifecycleOp.effect, hr, release_started (b := b.answer d .declined) hst]
    exact ⟨hst, rfl, hcand (.inl rfl)⟩
  | rejectDriverAcceptance _ rider =>
    obtain ⟨hrider, d, hd, hc⟩ := hop
    have hr : b.riderReject rider = (b.answer d .canceled).release := by
      simp [riderReject, hst, hc, hd, hrider]
    simp only [LifecycleOp.effect, hr, release_started (b := b.answer d .canceled) hst]
    exact ⟨hst, rfl, hcand (.inr rfl)⟩
  | createRide | acceptRideByDriver | confirmDriverAcceptance | cancelRide | startRide
  | completeRide | recordTripLocation => exact hop.elim

theorem Seated.of_ne (h : b.status ≠ .tripStarted) : b.Seated := fun he => absurd he h

/-- A matched booking keeps the driver of its started trip exactly when the
operation does not strand it. -/
theorem seated_effect (hm : b.Matched) (hs : b.Seated) (arrived : Bool) (op : LifecycleOp) :
    (op.effect arrived b).Seated ↔ ¬ b.Strands op := by
  refine ⟨fun h hstr => h (hstr.effect hm arrived).1 (hstr.effect hm arrived).2.1, fun h => ?_⟩
  by_cases hst : b.status = .tripStarted
  · cases op with
    | createRide | recordTripLocation => exact hs
    | acceptRideByDriver _ d => simpa [LifecycleOp.effect, accept_started hm hst] using hs
    | confirmDriverAcceptance _ rider => simpa [LifecycleOp.effect, confirm_started hm hst] using hs
    | startRide _ d => simpa [LifecycleOp.effect, start_started hst] using hs
    | rejectRideByDriver _ d =>
      simp only [LifecycleOp.effect, driverReject]
      split_ifs with h1 h2 h3
      · exact hs
      · exact hs
      · exact absurd ⟨hst, h3, by tauto⟩ h
      · exact hs
    | rejectDriverAcceptance _ rider =>
      simp only [LifecycleOp.effect, riderReject]
      split
      · exact hs
      · next d hd =>
        split_ifs with h1 h2
        · exact hs
        · exact hs
        · exact absurd ⟨hst, by tauto, d, hd, h2⟩ h
    | cancelRide _ requester =>
      simp only [LifecycleOp.effect, cancel]
      split_ifs
      · exact hs
      · exact fun _ => by simpa using hs hst
    | completeRide _ requester =>
      simp only [LifecycleOp.effect, complete]
      split_ifs
      · exact .of_ne (by simp [transition_status, hst])
      · exact hs
  · cases op with
    | createRide | recordTripLocation => exact hs
    | acceptRideByDriver _ d => exact .of_ne fun h => hst (started_of_accept h)
    | rejectRideByDriver _ d => exact .of_ne fun h => hst (started_of_driverReject h)
    | confirmDriverAcceptance _ rider => exact .of_ne fun h => hst (started_of_confirm h)
    | rejectDriverAcceptance _ rider => exact .of_ne fun h => hst (started_of_riderReject h)
    | cancelRide _ requester => exact .of_ne fun h => hst (started_of_cancel h)
    | completeRide _ requester => exact .of_ne fun h => hst (started_of_complete h)
    | startRide _ d =>
      intro h
      rcases started_of_start h with h | h
      · exact absurd h hst
      · simp only [Matched, h] at hm
        obtain ⟨e, he, -⟩ := hm
        simp [LifecycleOp.effect, he]

/-- No operation of anybody moves a stranded trip. -/
theorem Stranded.effect (h : b.Stranded) (arrived : Bool) (op : LifecycleOp) :
    (op.effect arrived b).Stranded := by
  obtain ⟨hst, hd, hc⟩ := h
  have hm : b.Matched := by simpa only [Matched, hst] using hc
  cases op with
  | createRide | recordTripLocation => exact ⟨hst, hd, hc⟩
  | acceptRideByDriver _ d =>
    simpa [LifecycleOp.effect, accept_started hm hst] using ⟨hst, hd, hc⟩
  | confirmDriverAcceptance _ rider =>
    simpa [LifecycleOp.effect, confirm_started hm hst] using ⟨hst, hd, hc⟩
  | startRide _ d => simpa [LifecycleOp.effect, start_started hst] using ⟨hst, hd, hc⟩
  | rejectRideByDriver _ d =>
    simp only [LifecycleOp.effect, driverReject]
    split_ifs with h1 h2 h3
    · exact ⟨hst, hd, hc⟩
    · exact ⟨hst, hd, hc⟩
    · simp [hd] at h3
    · refine ⟨hst, hd, fun x => ?_⟩
      by_cases hx : x = d
      · subst hx
        simp
      · simpa [hx] using hc x
  | rejectDriverAcceptance _ rider =>
    simpa [LifecycleOp.effect, riderReject, hd] using ⟨hst, hd, hc⟩
  | cancelRide _ requester =>
    simp only [LifecycleOp.effect, cancel]
    split_ifs
    · exact ⟨hst, hd, hc⟩
    · refine ⟨by simp [transition_status, hst], by simpa using hd, fun x => ?_⟩
      constructor <;> intro hx <;> obtain ⟨_, _, he⟩ := Option.map_eq_some_iff.mp hx <;> cases he
  | completeRide _ requester =>
    simp only [LifecycleOp.effect, complete]
    split_ifs with h1
    · exact absurd (hd ▸ h1.2.2.symm ▸ h1.2.1) (by simp)
    · exact ⟨hst, hd, hc⟩

end Booking

variable {env : Environment} {w : World}

/-- The operation is one that a party of the ride may ask for: its rider, one
of its candidates or its assigned driver, without a discount. -/
def LifecycleOp.ByParty (w : World) (r : Ride) (op : LifecycleOp) : Prop :=
  op.ride = some r.id ∧
    match op with
    | createRide .. => False
    | acceptRideByDriver _ driverId _ | rejectRideByDriver _ driverId _ _ =>
      r.driverId = some driverId ∨ ∃ c ∈ w.findCandidates r.id, c.driverId = driverId
    | confirmDriverAcceptance _ riderId _ | rejectDriverAcceptance _ riderId _ _ => riderId = r.riderId
    | cancelRide _ requester _ _ => requester = ⟨some r.riderId, some .rider⟩
    | startRide _ driverId _ => driverId.isSome ∧ r.driverId = driverId
    | completeRide _ requester _ discount =>
      requester.id.isSome ∧ r.driverId = requester.id ∧ discount = none
    | recordTripLocation _ requester _ =>
      requester = ⟨some r.riderId, some .rider⟩ ∨
        ∃ d, r.driverId = some d ∧ requester = ⟨some d, some .driver⟩

/-- The parties of the ride can bring it to an end, and its rider is free again. -/
def World.CanFinish (env : Environment) (w : World) (r : Ride) : Prop :=
  ∃ more : List LifecycleOp, (∀ op ∈ more, op.ByParty w r) ∧
    (∃ r', (w.after env more).rides.find r.id = some r' ∧
      (r'.status = .completed ∨ r'.status = .canceled)) ∧
    (w.after env more).findUnfinishedRide r.riderId = none

def World.NoDeadEnd (env : Environment) (w : World) : Prop :=
  ∀ r ∈ w.rides.rows, r.status ≠ .completed → r.status ≠ .canceled → w.CanFinish env r

/-- A rider has at most one unfinished ride. -/
def World.OneUnfinished (w : World) : Prop :=
  ∀ rid b rid' b', w.booking rid = some b → w.booking rid' = some b' → b.rider = b'.rider →
    ¬ b.Terminal → ¬ b'.Terminal → rid = rid'

theorem findUnfinishedRide_none {rider : Id} : w.findUnfinishedRide rider = none ↔
    ∀ rid b, w.booking rid = some b → b.rider = rider → b.Terminal := by
  have hsel : w.findUnfinishedRide rider = none ↔ ∀ r ∈ w.rides.rows, r.riderId = rider →
      r.status = .completed ∨ r.status = .canceled := by
    simp only [World.findUnfinishedRide, Option.map_eq_none_iff, List.getLast?_eq_none_iff,
      List.eq_nil_iff_forall_not_mem, Table.mem_select, not_and]
    refine forall_congr' fun r => forall_congr' fun _ => ?_
    by_cases h1 : r.riderId = rider <;> by_cases h2 : r.status = .completed <;>
      by_cases h3 : r.status = .canceled <;> simp [h1, h2, h3]
  rw [hsel]
  constructor
  · intro h rid b hb hrider
    obtain ⟨r, hr, rfl⟩ := Option.map_eq_some_iff.mp hb
    exact h r (Table.find_some.mp hr).1 hrider
  · intro h r hr hrider
    exact h r.id _ (World.booking_of_find (Table.find_some.mpr ⟨hr, rfl⟩)) hrider

/-- A ride that is unfinished after an operation was so before it, with the same rider. -/
theorem unfinished_before {op : LifecycleOp} {rid : Id} (hid : op.ride = some rid) {k : Id}
    {c : Booking} (hc : (op.step env w).booking k = some c) (ht : ¬ c.Terminal) :
    ∃ b, w.booking k = some b ∧ b.rider = c.rider ∧ ¬ b.Terminal := by
  obtain ⟨arrived, hs⟩ := op.step_becomes env w hid
  by_cases hk : k = rid
  · subst hk
    obtain ⟨b, hb, rfl⟩ := Option.map_eq_some_iff.mp (hs.booked.symm.trans hc)
    exact ⟨b, hb, (Booking.effect_rider arrived op).symm, fun hb => ht (by rwa [hb.effect])⟩
  · exact ⟨c, hs.others k hk ▸ hc, rfl, ht⟩

theorem oneUnfinished_step (hd : env.NearbyDistinct) (hw : w.WellFormed) (h : w.OneUnfinished)
    (op : LifecycleOp) : (op.step env w).OneUnfinished := by
  cases hride : op.ride with
  | some rid =>
    intro k c k' c' hc hc' hr ht ht'
    obtain ⟨b, hb, hbr, hbt⟩ := unfinished_before hride hc ht
    obtain ⟨b', hb', hbr', hbt'⟩ := unfinished_before hride hc' ht'
    exact h k b k' b' hb hb' (by rw [hbr, hbr', hr]) hbt hbt'
  | none =>
    cases op with
    | createRide riderId payload now =>
      rw [LifecycleOp.step, LifecycleOp.program, run_discard]
      rcases createRide_opens hd hw riderId payload now with hs | ⟨b, -, hfree, hs⟩
      · rw [World.OneUnfinished, World.booking_congr hs.1 hs.2]
        exact h
      · have hnew {k : Id} {c : Booking} (hc : World.booking _ k = some c) (hk : k ≠ w.rides.nextKey)
            (hr : c.rider = b.rider) : c.Terminal :=
          findUnfinishedRide_none.mp hfree k c (hs.others k hk ▸ hc) hr
        intro k c k' c' hc hc' hr ht ht'
        by_cases hk : k = w.rides.nextKey <;> by_cases hk' : k' = w.rides.nextKey
        · exact hk.trans hk'.symm
        · subst hk
          obtain rfl : b = c := Option.some.inj (hs.booked.symm.trans hc)
          exact absurd (hnew hc' hk' hr.symm) ht'
        · subst hk'
          obtain rfl : b = c' := Option.some.inj (hs.booked.symm.trans hc')
          exact absurd (hnew hc hk hr) ht
        · exact h k c k' c' (hs.others k hk ▸ hc) (hs.others k' hk' ▸ hc') hr ht ht'
    | _ => cases hride

/-- Once the rider's unfinished ride is finished, the rider is free again. -/
theorem rider_free {v : World} {rid : Id} {b b' : Booking} (h : w.OneUnfinished)
    (hb : w.booking rid = some b) (ht : ¬ b.Terminal) (hv : w.Becomes rid (some b') v)
    (ht' : b'.Terminal) : v.findUnfinishedRide b.rider = none := by
  refine findUnfinishedRide_none.mpr fun k c hc hr => ?_
  by_cases hk : k = rid
  · subst hk
    rwa [← Option.some.inj (hv.booked.symm.trans hc)]
  · rw [hv.others k hk] at hc
    by_contra hct
    exact hk (h k c rid b hc hb hr hct ht)

/-- A point is within the completion radius of itself. -/
def Environment.Geofenced (env : Environment) : Prop :=
  ∀ n c, (env.geo n c c).distance ≤ env.tripCompletionProximityMeters

theorem run_driverDistance (env : Environment) (state : TripTrackState) (role : EClientType)
    (location : ParticipantLocation) (w : World) :
    ∃ d v, (driverDistance state role location).run (handle env) w = (.ok d, v) ∧ SameRows w v ∧
      v.tripStates = w.tripStates := by
  unfold driverDistance
  split
  · unfold calculateDistanceBetweenCoordinates
    rw [Program.run_bind_ok _ (run_call env _ w)]
    exact ⟨_, _, rfl, ⟨rfl, rfl⟩, rfl⟩
  · exact ⟨0, w, rfl, .refl w, rfl⟩

/-- Recording a location never fails, and is seen by the next reader. -/
theorem run_recordLocation (env : Environment) (rid clientId : Id) (role : EClientType)
    (location : ParticipantLocation) (w : World) : ∃ a v, (recordLocation rid clientId role location).run (handle env) w = (.ok a, v) ∧
      SameRows w v ∧ (role = .rider →
        ∃ st, v.tripStates rid = some st ∧ st.lastRiderLocation = some location) := by
  unfold recordLocation getState
  simp only [bind_assoc, pure_bind]
  rw [Program.run_bind_ok _ (run_call env _ w)]
  obtain ⟨d, v, hrun, hv, -⟩ := run_driverDistance env
    ((w.tripStates rid).getD (.initial rid)) role location w
  rw [Program.run_bind_ok _ hrun, Program.run_bind_ok _ (run_call env _ _),
    Program.run_bind_ok _ (run_call env _ _), Program.run_bind_ok _ (run_call env _ _),
    Program.run_bind_ok _ (run_call env _ _)]
  refine ⟨_, _, rfl, hv, fun hr => ?_⟩
  subst hr
  exact ⟨_, Function.update_self .., rfl⟩

theorem run_ensureNear (hg : env.Geofenced) (c : Coordinate) (message : String) (w : World) :
    ∃ v, (ensureLocationWithinRadius c c env.tripCompletionProximityMeters message).run (handle env) w =
      (.ok (), v) ∧ SameRows w v := by
  unfold ensureLocationWithinRadius calculateDistanceBetweenCoordinates
  simp only [bind_assoc, pure_bind]
  rw [Program.run_bind_ok _ (run_call env _ w)]
  exact ⟨{ w with answered := w.answered + 1 }, by rw [if_neg (not_lt.mpr (hg w.answered c))]; rfl,
    ⟨rfl, rfl⟩⟩

/-- With both parties at the destination the checks of a completion pass. -/
theorem run_ensureAtDropoff (hg : env.Geofenced) {r : Ride} {st : TripTrackState}
    {location riderLocation : ParticipantLocation} {w : World}
    (hst : w.tripStates r.id = some st) (hl : st.lastRiderLocation = some riderLocation)
    (hrc : riderLocation.coordinate = r.dropoff) (hdc : location.coordinate = r.dropoff) :
    ∃ v, (ensureAtDropoff env r location).run (handle env) w = (.ok (), v) ∧ SameRows w v := by
  have hread : (getLatestLocation r.id .rider).run (handle env) w = (.ok (some riderLocation), w) := by
    unfold getLatestLocation getState
    simp only [bind_assoc, pure_bind]
    rw [Program.run_bind_ok _ (run_call env _ w)]
    simp [hst, TripTrackState.lastLocation, hl]
  obtain ⟨v, hv, hsv⟩ := run_ensureNear hg r.dropoff
    "Driver must arrive at the destination to complete the ride." w
  obtain ⟨u, hu, hsu⟩ := run_ensureNear hg r.dropoff "Rider location does not match destination." v
  obtain ⟨x, hx, hsx⟩ := run_ensureNear hg r.dropoff
    "Driver and rider must be at the destination together to complete the ride." u
  unfold ensureAtDropoff
  rw [Program.run_bind_ok _ hread]
  simp only [hrc, hdc]
  rw [Program.run_bind_ok _ hv, Program.run_bind_ok _ hu]
  exact ⟨x, hx, (hsv.trans hsu).trans hsx⟩

/-- The assigned driver completes a started trip at its destination. -/
theorem completeRide_completes (location : ParticipantLocation) (hg : env.Geofenced) {r : Ride} {d : Id}
    {st : TripTrackState} {riderLocation : ParticipantLocation} {w : World} (hr : w.rides.find r.id = some r)
    (hd : r.driverId = some d) (hs : r.status = .tripStarted)
    (hst : w.tripStates r.id = some st) (hl : st.lastRiderLocation = some riderLocation)
    (hrc : riderLocation.coordinate = r.dropoff) (hdc : location.coordinate = r.dropoff) :
    w.Becomes r.id (some { w.bookingOf r with status := .completed })
      ((LifecycleOp.completeRide r.id ⟨some d, some .driver⟩ location none).step env w) := by
  rw [LifecycleOp.step, LifecycleOp.program, run_discard]
  obtain ⟨v, hv, hsv⟩ := run_ensureAtDropoff hg hst hl hrc hdc
  obtain ⟨a, u, hu, hsu, -⟩ := run_recordLocation env r.id d .driver location v
  unfold completeRide
  simp only [↓Program.throw_seq]
  rw [Program.run_bind_ok _ (run_findById env r.id w), hr]
  simp only [hd, hs, ne_eq, not_true_eq_false, if_false, reduceCtorEq]
  rw [Program.run_bind_ok _ hv, Program.run_bind_ok _ hu]
  have hwu := hsv.trans hsu
  have hb : u.booking r.id = some (w.bookingOf r) := by
    rw [World.booking_congr hwu.1 hwu.2, World.booking_of_find hr]
  have ht : (getTotalDistanceMeters r.id).run (handle env) u =
      (.ok ((u.tripStates r.id).getD (.initial r.id)).totalDistanceMeters, u) := by
    unfold getTotalDistanceMeters getState
    simp only [bind_assoc, pure_bind]
    exact Program.run_bind_ok _ (run_call env _ u) _
  obtain ⟨fare, hf⟩ := env.fareEngine.calculateFare_none
    (billedDistanceKm r ((u.tripStates r.id).getD (.initial r.id)).totalDistanceMeters)
  rw [Program.run_bind_ok _ ht, hf]
  have hst' : (w.bookingOf r).transition [.enroute, .accepted, .assigned, .tripStarted] .completed =
      { w.bookingOf r with status := .completed } := by
    simp [Booking.transition, hs]
  rw [← hst']
  exact (World.becomes_tables hwu.1 hwu.2 r.id).trans (settleRide_becomes hb fare)

/-- The rider cancels. -/
theorem canFinish_waiting (h1 : w.OneUnfinished) {r : Ride} (hr : w.rides.find r.id = some r)
    (hs : r.status ∈ [ERideStatus.candidatesComputed, .accepted, .enroute]) : w.CanFinish env r := by
  have hb := World.booking_of_find hr
  have hst : ¬ (w.bookingOf r).Terminal := by
    rintro (he | he) <;> rw [World.bookingOf_status] at he <;> simp [he] at hs
  obtain ⟨_, h⟩ := LifecycleOp.step_becomes env w
    (.cancelRide r.id ⟨some r.riderId, some .rider⟩ none 0) rfl
  rw [hb, Option.map_some] at h
  have hc : ((w.bookingOf r).cancel (some r.riderId)).status = .canceled := by
    simp only [List.mem_cons, List.not_mem_nil, or_false] at hs
    rcases hs with hs | hs | hs <;> simp [Booking.cancel, Booking.transition, hs]
  refine ⟨[.cancelRide r.id ⟨some r.riderId, some .rider⟩ none 0], ?_, ?_, rider_free h1 hb hst h (.inr hc)⟩
  · simp [LifecycleOp.ByParty, LifecycleOp.ride]
  · obtain ⟨r', hr', he⟩ := Option.map_eq_some_iff.mp h.booked
    exact ⟨r', hr', .inr ((congrArg Booking.status he).trans hc)⟩

/-- The rider shares the destination as location, and the driver completes the trip there. -/
theorem canFinish_started (hg : env.Geofenced) (h1 : w.OneUnfinished) {r : Ride} {d : Id}
    (hr : w.rides.find r.id = some r) (hd : r.driverId = some d) (hs : r.status = .tripStarted) :
    w.CanFinish env r := by
  have hb := World.booking_of_find hr
  let here : ParticipantLocation := ⟨r.dropoff, none, ""⟩
  let report : LifecycleOp := .recordTripLocation r.id ⟨some r.riderId, some .rider⟩ here
  let finish : LifecycleOp := .completeRide r.id ⟨some d, some .driver⟩ here none
  obtain ⟨a, v, hrun, hv, hseen⟩ := run_recordLocation env r.id r.riderId .rider here w
  obtain ⟨st, hst, hl⟩ := hseen rfl
  have hreport : report.step env w = v := by
    change ((NebLite.recordTripLocation r.id ⟨some r.riderId, some .rider⟩ here).run _ w).2 = v
    unfold recordTripLocation ensureRequesterCanAccessRide
    simp only [↓Program.throw_seq]
    rw [Program.run_bind_ok _ (run_findById env r.id w), hr]
    simp only [ne_eq, not_true_eq_false, if_false, hs, reduceCtorEq, pure_bind]
    rw [Program.run_bind_ok _ hrun]
    rfl
  have hrv : v.rides.find r.id = some r := by rw [hv.1, hr]
  have hfin := completeRide_completes here hg hrv hd hs hst hl rfl rfl
  have hall := (World.becomes_tables hv.1 hv.2 r.id).trans hfin
  have hafter : w.after env [report, finish] = finish.step env v := by
    simp only [World.after, List.foldl_cons, List.foldl_nil]
    rw [hreport]
  have hnt : ¬ (w.bookingOf r).Terminal := by
    rintro (he | he) <;> rw [World.bookingOf_status, hs] at he <;> cases he
  refine ⟨[report, finish], ?_, ?_, ?_⟩
  · intro op hop
    simp only [List.mem_cons, List.not_mem_nil, or_false] at hop
    rcases hop with rfl | rfl
    · exact ⟨rfl, .inl rfl⟩
    · exact ⟨rfl, rfl, hd, rfl⟩
  · rw [hafter]
    obtain ⟨r', hr', he⟩ := Option.map_eq_some_iff.mp hall.booked
    exact ⟨r', hr', .inl (congrArg Booking.status he)⟩
  · rw [hafter]
    exact rider_free h1 hb hnt hall (.inl rfl)

/-- An operation acts on every booking that exists by the identity or by its effect. -/
theorem booking_step (hd : env.NearbyDistinct) (hw : w.WellFormed) {rid : Id} {b : Booking}
    (hb : w.booking rid = some b) (op : LifecycleOp) :
    (op.step env w).booking rid = some b ∨
      ∃ arrived, (op.step env w).booking rid = some (op.effect arrived b) := by
  cases hride : op.ride with
  | some k =>
    obtain ⟨arrived, hs⟩ := op.step_becomes env w hride
    by_cases hk : rid = k
    · subst hk
      exact .inr ⟨arrived, by rw [hs.booked, hb, Option.map_some]⟩
    · exact .inl (by rw [hs.others rid hk, hb])
  | none =>
    cases op with
    | createRide riderId payload now =>
      left
      rw [LifecycleOp.step, LifecycleOp.program, run_discard]
      rcases createRide_opens hd hw riderId payload now with hs | ⟨_, -, -, hs⟩
      · rw [World.booking_congr hs.1 hs.2, hb]
      · have hk : rid ≠ w.rides.nextKey := by
          rintro rfl
          simp [World.booking, Table.find_nextKey] at hb
        rw [hs.others rid hk, hb]
    | _ => cases hride

/-- What every operation keeps of a booking holds of it after any operations. -/
theorem booking_after (hd : env.NearbyDistinct) (hw : w.AtRest) {P : Booking → Prop}
    (hP : ∀ b arrived op, P b → P (LifecycleOp.effect arrived op b)) {rid : Id}
    (h : ∃ b, w.booking rid = some b ∧ P b) (ops : List LifecycleOp) :
    ∃ b, (w.after env ops).booking rid = some b ∧ P b := by
  refine (Runs.invariant (I := fun v : World => v.AtRest ∧ ∃ b, v.booking rid = some b ∧ P b)
    ?_ ⟨hw, h⟩ (Runs.meets_true w ops)).2
  rintro v op ⟨hv, b, hb, hs⟩ -
  refine ⟨hv.step hd op, ?_⟩
  rcases booking_step hd hv.wellFormed hb op with h | ⟨arrived, h⟩
  · exact ⟨b, h, hs⟩
  · exact ⟨_, h, hP b arrived op hs⟩

theorem stranded_after (hd : env.NearbyDistinct) (hw : w.AtRest) {rid : Id}
    (h : ∃ b, w.booking rid = some b ∧ b.Stranded) (ops : List LifecycleOp) :
    ∃ b, (w.after env ops).booking rid = some b ∧ b.Stranded :=
  booking_after hd hw (fun _ arrived op hs => hs.effect arrived op) h ops

/-- A state at rest has no dead end exactly when its started trips have a driver. -/
theorem noDeadEnd_iff (hd : env.NearbyDistinct) (hg : env.Geofenced) (hw : w.AtRest)
    (h1 : w.OneUnfinished) : w.NoDeadEnd env ↔ w.Bookings Booking.Seated := by
  constructor
  · intro h rid b hb hst hdr
    have hm := hw.matched rid b hb
    simp only [Booking.Matched, hst] at hm
    obtain ⟨r, hr, rfl⟩ := Option.map_eq_some_iff.mp hb
    obtain rfl : r.id = rid := Table.key_of_find hr
    have hstatus : r.status = .tripStarted := hst
    obtain ⟨more, -, ⟨r', hr', hend⟩, -⟩ := h r (Table.find_some.mp hr).1 (by simp [hstatus])
      (by simp [hstatus])
    obtain ⟨b', hb', hs'⟩ := stranded_after hd hw ⟨_, hb, hst, hdr, hm⟩ more
    rw [World.booking_of_find hr'] at hb'
    have hst' : r'.status = .tripStarted := by
      have he := hs'.1
      rw [← Option.some.inj hb'] at he
      exact he
    rcases hend with he | he <;> rw [hst'] at he <;> cases he
  · intro h r hr hnc hnx
    have hf : w.rides.find r.id = some r := Table.find_some.mpr ⟨hr, rfl⟩
    have hb := World.booking_of_find hf
    have hm := hw.matched r.id _ hb
    have hseat := h r.id _ hb
    unfold Booking.Matched at hm
    rw [World.bookingOf_status] at hm
    cases hst : r.status with
    | candidatesComputed => exact canFinish_waiting h1 hf (by simp [hst])
    | accepted => exact canFinish_waiting h1 hf (by simp [hst])
    | enroute => exact canFinish_waiting h1 hf (by simp [hst])
    | tripStarted =>
      obtain ⟨d, hdr⟩ := Option.ne_none_iff_exists'.mp (hseat hst)
      exact canFinish_started hg h1 hf hdr hst
    | completed => exact absurd hst hnc
    | canceled => exact absurd hst hnx
    | nystart | requested | assigned => simp [hst] at hm

/-- The operation leaves a started trip without driver: a rejection by the
rider, or by the assigned driver as long as his answer can still be declined. -/
def LifecycleOp.StrandsTrip (w : World) (op : LifecycleOp) : Prop :=
  ∃ r ∈ w.rides.rows, op.ride = some r.id ∧ r.status = .tripStarted ∧
    match op with
    | rejectRideByDriver _ driverId _ _ => r.driverId = some driverId ∧
        ∃ c ∈ w.findCandidates r.id, c.driverId = driverId ∧ c.status ≠ .declined ∧ c.status ≠ .canceled
    | rejectDriverAcceptance _ riderId _ _ => r.riderId = riderId ∧
        ∃ c ∈ w.findCandidates r.id, r.driverId = some c.driverId
    | _ => False

theorem strands_iff (hw : w.WellFormed) {op : LifecycleOp} {rid : Id} (h : op.ride = some rid) :
    op.StrandsTrip w ↔ ∃ b, w.booking rid = some b ∧ b.Strands op := by
  constructor
  · rintro ⟨r, hr, hid, hst, hop⟩
    obtain rfl : rid = r.id := by simpa [h] using hid
    refine ⟨_, World.booking_of_find (Table.find_some.mpr ⟨hr, rfl⟩), hst, ?_⟩
    cases op with
    | rejectRideByDriver _ d =>
      obtain ⟨hd, c, hc, hcd, hs⟩ := hop
      have hcand := (bookingOf_cand_some hw).mpr ⟨c, hc, hcd, rfl⟩
      exact ⟨hd, by rw [hcand]; simpa using hs⟩
    | rejectDriverAcceptance _ rider =>
      obtain ⟨hrider, c, hc, hd⟩ := hop
      have hcand := (bookingOf_cand_some hw).mpr ⟨c, hc, rfl, rfl⟩
      exact ⟨hrider, c.driverId, hd, by rw [hcand]; simp⟩
    | createRide | acceptRideByDriver | confirmDriverAcceptance | cancelRide | startRide
    | completeRide | recordTripLocation => exact hop
  · rintro ⟨b, hb, hst, hop⟩
    obtain ⟨r, hr, rfl⟩ := Option.map_eq_some_iff.mp hb
    have hid : r.id = rid := Table.key_of_find hr
    refine ⟨r, (Table.find_some.mp hr).1, by rw [h, hid], hst, ?_⟩
    cases op with
    | rejectRideByDriver _ d =>
      obtain ⟨hd, hn, hnd, hnc⟩ := hop
      obtain ⟨s, hs⟩ := Option.ne_none_iff_exists'.mp hn
      obtain ⟨c, hc, hcd, rfl⟩ := (bookingOf_cand_some hw).mp hs
      rw [hs] at hnd hnc
      exact ⟨hd, c, hc, hcd, by simpa using hnd, by simpa using hnc⟩
    | rejectDriverAcceptance _ rider =>
      obtain ⟨hrider, d, hd, hn⟩ := hop
      obtain ⟨s, hs⟩ := Option.ne_none_iff_exists'.mp hn
      obtain ⟨c, hc, rfl, -⟩ := (bookingOf_cand_some hw).mp hs
      exact ⟨hrider, c, hc, hd⟩
    | createRide | acceptRideByDriver | confirmDriverAcceptance | cancelRide | startRide
    | completeRide | recordTripLocation => exact hop

/-- From a state at rest whose started trips have a driver, a step keeps them
so exactly when it strands no trip. -/
theorem seated_step (hd : env.NearbyDistinct) (hw : w.AtRest) (hP : w.Bookings Booking.Seated)
    (op : LifecycleOp) : (op.step env w).Bookings Booking.Seated ↔ ¬ op.StrandsTrip w := by
  rw [op.step_bookings_iff hd (fun b hb => .of_ne (by simp [hb.1])) hw.wellFormed
    (fun rid b arrived _ hb hs => Booking.seated_effect (hw.matched rid b hb) hs arrived op) hP]
  constructor
  · rintro h ⟨r, hr, hid, hst, hop⟩
    obtain ⟨b, hb, hub⟩ := (strands_iff hw.wellFormed hid).mp ⟨r, hr, hid, hst, hop⟩
    exact h _ b hid hb hub
  · exact fun h rid b hid hb hub => h ((strands_iff hw.wellFormed hid).mpr ⟨b, hb, hub⟩)

theorem oneUnfinished_initial (whitelist : List String) : (World.initial whitelist).OneUnfinished := by
  intro rid b _ _ hb
  simp [World.booking, World.initial, Table.empty, Table.find] at hb

/-- No state of a run has a dead end exactly when no operation of the run
leaves a started trip without driver. -/
theorem no_dead_end_iff (hd : env.NearbyDistinct) (hg : env.Geofenced) (whitelist : List String)
    (ops : List LifecycleOp) :
    Runs.Always (LifecycleOp.step env) (World.NoDeadEnd env) (World.initial whitelist) ops ↔
      Runs.Meets (LifecycleOp.step env) (fun w op => ¬ op.StrandsTrip w)
        (World.initial whitelist) ops := by
  have hI : (World.initial whitelist).AtRest ∧ (World.initial whitelist).OneUnfinished :=
    ⟨World.atRest_initial whitelist, oneUnfinished_initial whitelist⟩
  refine Runs.always_iff_meets (I := fun w : World => w.AtRest ∧ w.OneUnfinished)
    (fun w op h => ?_) (fun w op h hP => ?_) hI ?_
  · exact ⟨h.1.step hd op, oneUnfinished_step hd h.1.wellFormed h.2 op⟩
  · rw [noDeadEnd_iff hd hg (h.1.step hd op) (oneUnfinished_step hd h.1.wellFormed h.2 op)]
    exact seated_step hd h.1 ((noDeadEnd_iff hd hg h.1 h.2).mp hP) op
  · exact fun r hr => by simp [World.initial, Table.empty] at hr

theorem Environment.around_geofenced (drivers : List Id) : (Environment.around drivers).Geofenced := by
  intro n c
  simp [Environment.around, GeoReply.distance]

theorem no_dead_end_iff_started :
    Runs.Always (LifecycleOp.step (.around [7, 8])) (World.NoDeadEnd (.around [7, 8]))
        (World.initial []) startedRun ↔
      Runs.Meets (LifecycleOp.step (.around [7, 8])) (fun w op => ¬ op.StrandsTrip w)
        (World.initial []) startedRun :=
  no_dead_end_iff (Environment.around_distinct (by decide)) (Environment.around_geofenced [7, 8]) []
    startedRun

/-- The rider rejects the driver once the trip has started. -/
def strandedRun : List LifecycleOp := startedRun ++ [.rejectDriverAcceptance 1 1 none 3]

/-- Nobody can finish the ride any more. -/
theorem rider_locked_out : (Environment.around [7, 8]).NearbyDistinct ∧
    (Environment.around [7, 8]).Geofenced ∧
    ¬ Runs.Always (LifecycleOp.step (.around [7, 8])) (World.NoDeadEnd (.around [7, 8]))
      (World.initial []) strandedRun := by
  have hd : (Environment.around [7, 8]).NearbyDistinct := Environment.around_distinct (by decide)
  refine ⟨hd, Environment.around_geofenced [7, 8], fun h => ?_⟩
  have hlast : World.NoDeadEnd (.around [7, 8]) ((World.initial []).after (.around [7, 8]) strandedRun) :=
    h strandedRun List.prefix_rfl
  have hrest := (World.atRest_initial []).after hd strandedRun
  have hone : ((World.initial []).after (.around [7, 8]) strandedRun).OneUnfinished :=
    (Runs.invariant (I := fun w : World => w.AtRest ∧ w.OneUnfinished)
      (fun w op hw _ => ⟨hw.1.step hd op, oneUnfinished_step hd hw.1.wellFormed hw.2 op⟩)
      ⟨World.atRest_initial [], oneUnfinished_initial []⟩ (Runs.meets_true _ strandedRun)).2
  have hseat := (noDeadEnd_iff hd (Environment.around_geofenced [7, 8]) hrest hone).mp hlast
  have hrow : ∃ r ∈ ((World.initial []).after (.around [7, 8]) strandedRun).rides.rows,
      r.status = .tripStarted ∧ r.driverId = none := by decide +kernel
  obtain ⟨r, hr, hst, hdr⟩ := hrow
  exact hseat r.id _ (World.booking_of_find (Table.find_some.mpr ⟨hr, rfl⟩)) hst hdr

end NebLite
