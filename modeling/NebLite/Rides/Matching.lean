import NebLite.Rides.Lifecycle

/-! The matching invariant of a ride at rest, and the driver of a started trip. -/

namespace NebLite

open Atomic

/-- How status, driver and candidates of a ride fit together. -/
structure World.Matching (w : World) (r : Ride) : Prop where
  status : r.status ∈ [ERideStatus.candidatesComputed, .accepted, .enroute, .canceled]
  candidatesComputed : r.status = .candidatesComputed → r.driverId = none ∧
    ∀ c ∈ w.findCandidates r.id, c.status ≠ .accepted ∧ c.status ≠ .confirmed
  accepted : r.status = .accepted → ∃ c ∈ w.findCandidates r.id,
    r.driverId = some c.driverId ∧ c.status = .accepted ∧
      ∀ x ∈ w.findCandidates r.id, x ≠ c → x.status ≠ .accepted ∧ x.status ≠ .confirmed
  enroute : r.status = .enroute → ∃ c ∈ w.findCandidates r.id,
    r.driverId = some c.driverId ∧ c.status = .confirmed ∧
      ∀ x ∈ w.findCandidates r.id, x ≠ c →
        x.status ≠ .invited ∧ x.status ≠ .accepted ∧ x.status ≠ .confirmed
  canceled : r.status = .canceled → ∀ c ∈ w.findCandidates r.id, c.status = .canceled

variable {w : World}

theorem mem_findCandidates {rid : Id} {c : RideDriverCandidate} :
    c ∈ w.findCandidates rid ↔ c ∈ w.candidates.rows ∧ c.rideId = rid := by
  simp [World.findCandidates, Table.mem_select]

/-- The rows behind the answers of a booking. -/
theorem bookingOf_cand_some (hw : w.WellFormed) {r : Ride} {d : Id} {s : ERideDriverCandidateStatus} :
    (w.bookingOf r).cand d = some s ↔
      ∃ c ∈ w.findCandidates r.id, c.driverId = d ∧ c.status = s := by
  rw [World.bookingOf_cand, Option.map_eq_some_iff]
  constructor
  · rintro ⟨c, hc, rfl⟩
    obtain ⟨hm, hr, hd⟩ := World.mem_of_findCandidate hc
    exact ⟨c, mem_findCandidates.mpr ⟨hm, hr⟩, hd, rfl⟩
  · rintro ⟨c, hc, hd, rfl⟩
    obtain ⟨hm, hr⟩ := mem_findCandidates.mp hc
    exact ⟨c, (World.findCandidate_some hw).mpr ⟨hm, hr, hd⟩, rfl⟩

theorem matching_of_atRest (h : w.AtRest) {r : Ride} (hr : r ∈ w.rides.rows)
    (hs : r.status ≠ .tripStarted ∧ r.status ≠ .completed) : w.Matching r := by
  have hm : (w.bookingOf r).Matched :=
    h.matched r.id _ (World.booking_of_find (Table.find_some.mpr ⟨hr, rfl⟩))
  have hcand (c : RideDriverCandidate) (hc : c ∈ w.findCandidates r.id) :
      (w.bookingOf r).cand c.driverId = some c.status :=
    (bookingOf_cand_some h.wellFormed).mpr ⟨c, hc, rfl, rfl⟩
  have hother {c x : RideDriverCandidate} (hc : c ∈ w.findCandidates r.id)
      (hx : x ∈ w.findCandidates r.id) (hne : x ≠ c) : x.driverId ≠ c.driverId := by
    intro he
    obtain ⟨hc1, hc2⟩ := mem_findCandidates.mp hc
    obtain ⟨hx1, hx2⟩ := mem_findCandidates.mp hx
    exact hne (h.wellFormed.distinct x hx1 c hc1 (hx2.trans hc2.symm) he)
  have hholder {s : ERideDriverCandidateStatus} {d : Id} (hcd : (w.bookingOf r).cand d = some s)
      (p : Option ERideDriverCandidateStatus → Prop) (ho : ∀ x, x ≠ d → p ((w.bookingOf r).cand x)) :
      ∃ c ∈ w.findCandidates r.id, c.driverId = d ∧ c.status = s ∧
        ∀ x ∈ w.findCandidates r.id, x ≠ c → p (some x.status) := by
    obtain ⟨c, hc, rfl, hcs⟩ := (bookingOf_cand_some h.wellFormed).mp hcd
    refine ⟨c, hc, rfl, hcs, fun x hx hne => ?_⟩
    have hx' := ho x.driverId (hother hc hx hne)
    rwa [hcand x hx] at hx'
  unfold Booking.Matched at hm
  rw [World.bookingOf_status, World.bookingOf_driver] at hm
  refine ⟨?_, fun he => ?_, fun he => ?_, fun he => ?_, fun he c hc => ?_⟩
  · cases hst : r.status <;> simp_all
  · rw [he] at hm
    refine ⟨hm.1, fun c hc => ?_⟩
    have hn := hm.2 c.driverId
    rw [hcand c hc] at hn
    simpa using hn
  · rw [he] at hm
    obtain ⟨d, hd, hcd, ho⟩ := hm
    obtain ⟨c, hc, rfl, hcs, hothers⟩ := hholder hcd (fun s => s ≠ some .accepted ∧ s ≠ some .confirmed) ho
    exact ⟨c, hc, hd, hcs, fun x hx hne => by simpa using hothers x hx hne⟩
  · rw [he] at hm
    obtain ⟨d, hd, hcd, ho⟩ := hm
    obtain ⟨c, hc, rfl, hcs, hothers⟩ :=
      hholder hcd (fun s => s ≠ some .invited ∧ s ≠ some .accepted ∧ s ≠ some .confirmed) ho
    exact ⟨c, hc, hd, hcs, fun x hx hne => by simpa using hothers x hx hne⟩
  · rw [he] at hm
    exact hm c.driverId c.status (hcand c hc)

variable {env : Environment}

/-- Every ride at rest that is neither under way nor completed is matched. -/
theorem rides_at_rest_matched (hd : env.NearbyDistinct) (whitelist : List String)
    (ops : List LifecycleOp) (r : Ride) (hr : r ∈ ((World.initial whitelist).after env ops).rides.rows)
    (hs : r.status ≠ .tripStarted ∧ r.status ≠ .completed) :
    ((World.initial whitelist).after env ops).Matching r :=
  matching_of_atRest ((World.atRest_initial whitelist).after hd ops) hr hs

/-- Rider 1 asks for a ride from one point to another; driver 7 accepts. -/
def acceptedRun : List LifecycleOp :=
  [.createRide (some 1) ⟨⟨1, 1⟩, ⟨2, 2⟩, none, none⟩ 0, .acceptRideByDriver 1 7 1]

theorem rides_at_rest_matched_accepted : ∃ r ∈
    ((World.initial []).after (.around [7, 8]) acceptedRun).rides.rows, r.status = .accepted ∧
      ((World.initial []).after (.around [7, 8]) acceptedRun).Matching r := by
  have h : ∃ r ∈ ((World.initial []).after (.around [7, 8]) acceptedRun).rides.rows,
      r.status = .accepted := by decide +kernel
  obtain ⟨r, hr, hs⟩ := h
  exact ⟨r, hr, hs, rides_at_rest_matched (Environment.around_distinct (by decide)) [] acceptedRun r hr
    (by simp [hs])⟩

/-- Every started trip has a driver, whose candidate row is confirmed. -/
def World.TripsDriven (w : World) : Prop :=
  ∀ r ∈ w.rides.rows, r.status = .tripStarted →
    ∃ c ∈ w.findCandidates r.id, r.driverId = some c.driverId ∧ c.status = .confirmed

instance (w : World) : Decidable w.TripsDriven := by
  unfold World.TripsDriven
  infer_instance

/-- The operation takes the driver off a started trip: a rejection by the
assigned driver, or a rejection or a cancellation by the rider. -/
def LifecycleOp.UnseatsDriver (w : World) (op : LifecycleOp) : Prop :=
  ∃ r ∈ w.rides.rows, op.ride = some r.id ∧ r.status = .tripStarted ∧
    match op with
    | rejectRideByDriver _ driverId _ _ => r.driverId = some driverId
    | rejectDriverAcceptance _ riderId _ _ => r.riderId = riderId
    | cancelRide _ requester _ _ => requester.id = some r.riderId
    | _ => False

/-- `UnseatsDriver`, for the booking of the operation's ride. -/
def Booking.Unseats (b : Booking) (op : LifecycleOp) : Prop :=
  b.status = .tripStarted ∧
    match op with
    | .rejectRideByDriver _ driverId _ _ => b.driver = some driverId
    | .rejectDriverAcceptance _ riderId _ _ => b.rider = riderId
    | .cancelRide _ requester _ _ => requester.id = some b.rider
    | _ => False

theorem Booking.Driven.of_ne {b : Booking} (h : b.status ≠ .tripStarted) : b.Driven :=
  fun he => absurd he h

/-- A matched booking of a driven trip stays driven exactly when its driver is not unseated. -/
theorem Booking.driven_effect {b : Booking} (hm : b.Matched) (hd : b.Driven) (arrived : Bool)
    (op : LifecycleOp) : (op.effect arrived b).Driven ↔ ¬ b.Unseats op := by
  by_cases hst : b.status = .tripStarted
  · obtain ⟨e, he, hc⟩ := hd hst
    cases op with
    | createRide | recordTripLocation => simpa [LifecycleOp.effect, Unseats] using hd
    | acceptRideByDriver _ d =>
      simpa [LifecycleOp.effect, Unseats, accept_started hm hst] using hd
    | confirmDriverAcceptance _ rider =>
      simpa [LifecycleOp.effect, Unseats, confirm_started hm hst] using hd
    | startRide _ d => simpa [LifecycleOp.effect, Unseats, start_started hst] using hd
    | rejectRideByDriver _ d =>
      simp only [LifecycleOp.effect, Unseats, hst, true_and]
      by_cases hde : b.driver = some d
      · obtain rfl : e = d := by simpa [he] using hde
        have hr : b.driverReject e = { b.answer e .declined with driver := none } := by
          rw [← release_started (b := b.answer e .declined) hst]
          simp [Booking.driverReject, hst, hc, he]
        simp [hr, Driven, hst, hde]
      · simp only [hde, not_false_eq_true, iff_true]
        have hne : e ≠ d := by
          rintro rfl
          exact hde he
        unfold Booking.driverReject
        split_ifs
        · exact hd
        · exact hd
        · exact fun _ => ⟨e, he, by rw [answer_other hne, hc]⟩
    | rejectDriverAcceptance _ rider =>
      simp only [LifecycleOp.effect, Unseats, hst, true_and]
      by_cases hr : b.rider = rider
      · have hr' : b.riderReject rider = { b.answer e .canceled with driver := none } := by
          rw [← release_started (b := b.answer e .canceled) hst]
          simp [Booking.riderReject, hst, hc, he, hr]
        simp [hr', Driven, hst, hr]
      · have hr' : b.riderReject rider = b := by simp [Booking.riderReject, he, hr]
        simpa [hr', hr] using hd
    | cancelRide _ requester =>
      simp only [LifecycleOp.effect, Unseats, hst, true_and]
      by_cases hr : requester.id = some b.rider
      · have hk : (b.cancel requester.id).status = .tripStarted ∧
            (b.cancel requester.id).driver = some e ∧
            (b.cancel requester.id).cand e = some .canceled := by
          simp [Booking.cancel, hr, hst, transition_status, he, hc]
        simp only [hr, not_true_eq_false, iff_false]
        intro hdr
        obtain ⟨x, hx, hcx⟩ := hdr (hr ▸ hk.1)
        rw [hr] at hk
        obtain rfl : e = x := by simpa [hk.2.1] using hx
        simp [hk.2.2] at hcx
      · have hr' : b.cancel requester.id = b := by simp [Booking.cancel, Ne.symm hr]
        simpa [hr', hr] using hd
    | completeRide _ requester =>
      simp only [LifecycleOp.effect, Unseats, hst, and_false, not_false_eq_true, iff_true]
      unfold Booking.complete
      split_ifs
      · exact .of_ne (by simp [transition_status, hst])
      · exact hd
  · have hn : ¬ b.Unseats op := fun h => hst h.1
    simp only [hn, not_false_eq_true, iff_true]
    cases op with
    | createRide | recordTripLocation => exact hd
    | acceptRideByDriver _ d => exact .of_ne fun h => hst (started_of_accept h)
    | rejectRideByDriver _ d => exact .of_ne fun h => hst (started_of_driverReject h)
    | confirmDriverAcceptance _ rider => exact .of_ne fun h => hst (started_of_confirm h)
    | rejectDriverAcceptance _ rider => exact .of_ne fun h => hst (started_of_riderReject h)
    | cancelRide _ requester => exact .of_ne fun h => hst (started_of_cancel h)
    | completeRide _ requester => exact .of_ne fun h => hst (started_of_complete h)
    | startRide _ d =>
      intro h
      rcases started_of_start h with h | h
      · exact absurd h hst
      · simp only [Matched, h] at hm
        obtain ⟨e, he, hc, -⟩ := hm
        exact ⟨e, by simp [LifecycleOp.effect, he], by simp [LifecycleOp.effect, hc]⟩

theorem tripsDriven_iff (hw : w.WellFormed) : w.TripsDriven ↔ w.Bookings Booking.Driven := by
  constructor
  · intro h rid b hb hst
    obtain ⟨r, hr, rfl⟩ := Option.map_eq_some_iff.mp hb
    obtain ⟨c, hc, hd, hs⟩ := h r (Table.find_some.mp hr).1 hst
    exact ⟨c.driverId, hd, (bookingOf_cand_some hw).mpr ⟨c, hc, rfl, hs⟩⟩
  · intro h r hr hst
    obtain ⟨d, hd, hc⟩ := h r.id _ (World.booking_of_find (Table.find_some.mpr ⟨hr, rfl⟩)) hst
    obtain ⟨c, hm, rfl, hs⟩ := (bookingOf_cand_some hw).mp hc
    exact ⟨c, hm, hd, hs⟩

theorem unseats_iff {op : LifecycleOp} {rid : Id} (h : op.ride = some rid) :
    op.UnseatsDriver w ↔ ∃ b, w.booking rid = some b ∧ b.Unseats op := by
  constructor
  · rintro ⟨r, hr, hid, hst, hop⟩
    obtain rfl : rid = r.id := by simpa [h] using hid
    refine ⟨_, World.booking_of_find (Table.find_some.mpr ⟨hr, rfl⟩), hst, ?_⟩
    cases op <;> exact hop
  · rintro ⟨b, hb, hst, hop⟩
    obtain ⟨r, hr, rfl⟩ := Option.map_eq_some_iff.mp hb
    have hid : r.id = rid := Table.key_of_find hr
    refine ⟨r, (Table.find_some.mp hr).1, by rw [h, hid], hst, ?_⟩
    cases op <;> exact hop

/-- From a state at rest in which the started trips are driven, a step keeps
them so exactly when it unseats no driver. -/
theorem driven_step (hd : env.NearbyDistinct) (hw : w.AtRest) (hP : w.Bookings Booking.Driven)
    (op : LifecycleOp) : (op.step env w).Bookings Booking.Driven ↔ ¬ op.UnseatsDriver w := by
  rw [op.step_bookings_iff hd (fun b hb => .of_ne (by simp [hb.1])) hw.wellFormed
    (fun rid b arrived _ hb hdb => Booking.driven_effect (hw.matched rid b hb) hdb arrived op) hP]
  constructor
  · rintro h ⟨r, hr, hid, hst, hop⟩
    obtain ⟨b, hb, hub⟩ := (unseats_iff hid).mp ⟨r, hr, hid, hst, hop⟩
    exact h _ b hid hb hub
  · exact fun h rid b hid hb hub => h ((unseats_iff hid).mpr ⟨b, hb, hub⟩)

/-- Started trips keep their driver in every state of a run exactly when no
operation of the run unseats the driver of a started trip. -/
theorem trips_driven_iff (hd : env.NearbyDistinct) (whitelist : List String)
    (ops : List LifecycleOp) :
    Runs.Always (LifecycleOp.step env) World.TripsDriven (World.initial whitelist) ops ↔
      Runs.Meets (LifecycleOp.step env) (fun w op => ¬ op.UnseatsDriver w)
        (World.initial whitelist) ops := by
  have hI : (World.initial whitelist).AtRest := World.atRest_initial whitelist
  refine Runs.always_iff_meets (fun w op h => h.step hd op) (fun w op h hP => ?_) hI ?_
  · rw [tripsDriven_iff (h.step hd op).wellFormed]
    exact driven_step hd h ((tripsDriven_iff h.wellFormed).mp hP) op
  · exact fun r hr => by simp [World.initial, Table.empty] at hr

/-- Rider 1 and driver 7 have met at the pickup point and the trip has started. -/
def startedRun : List LifecycleOp :=
  acceptedRun ++ [.confirmDriverAcceptance 1 1 2,
    .recordTripLocation 1 ⟨some 1, some .rider⟩ ⟨⟨1, 1⟩, none, "10:00"⟩,
    .startRide 1 (some 7) ⟨⟨1, 1⟩, none, "10:01"⟩]

theorem trips_driven_iff_started :
    Runs.Always (LifecycleOp.step (.around [7, 8])) World.TripsDriven (World.initial []) startedRun ↔
      Runs.Meets (LifecycleOp.step (.around [7, 8])) (fun w op => ¬ op.UnseatsDriver w)
        (World.initial []) startedRun :=
  trips_driven_iff (Environment.around_distinct (by decide)) [] startedRun

/-- The assigned driver declines the ride once the trip has started. -/
theorem started_trip_loses_driver : (Environment.around [7, 8]).NearbyDistinct ∧
    ¬ Runs.Always (LifecycleOp.step (.around [7, 8])) World.TripsDriven (World.initial [])
      (startedRun ++ [.rejectRideByDriver 1 7 none 3]) := by
  refine ⟨Environment.around_distinct (by decide), fun h => ?_⟩
  have hlast := h _ List.prefix_rfl
  revert hlast
  decide +kernel

end NebLite
