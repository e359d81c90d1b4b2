import NebLite.Rides.Sequential

/-! What each lifecycle operation, run without interruption, does to the
booking of its ride; every other booking stays. -/

namespace NebLite

open Atomic

variable {env : Environment}

theorem acceptClaimedRide_becomes {w : World} {rid d : Id} {b : Booking} {c : RideDriverCandidate}
    (hb : w.booking rid = some b) (hc : w.findCandidate rid d = some c) (now : Time) :
    w.Becomes rid
      (some (((b.answer d .accepted).transition [.requested, .candidatesComputed] .assigned).transition
        [.assigned, .candidatesComputed] .accepted))
      ((acceptClaimedRide rid c now).run (handle env) w).2 := by
  unfold acceptClaimedRide saveCandidate
  rw [Program.run_bind_ok _ (run_call env _ w)]
  have h₁ := World.becomes_saveCandidate hb hc (n := { c with
    status := .accepted, reason := none, respondedAt := some now }) rfl rfl rfl rfl
  obtain ⟨ride, _, w₂, hrun₂, hf₂, h₂⟩ := transition_becomes env h₁.booked
    [.requested, .candidatesComputed] .assigned (some "Driver responded to invitation")
  rw [Program.run_bind_ok _ hrun₂]
  have hid : ride.id = rid := Table.key_of_find hf₂
  obtain ⟨accepted, _, w₃, hrun₃, -, h₃⟩ := transition_becomes env h₂.booked
    [.assigned, .candidatesComputed] .accepted (some "Driver accepted ride request")
  simp only [hid]
  rw [Program.run_bind_ok _ hrun₃]
  refine announces_dispatch.becomes fun ns => ?_
  rw [run_refreshed]
  exact ((h₁.trans h₂).trans h₃).tables rfl rfl

theorem markCandidateSuperseded_becomes {α : Type} {w : World} {rid d : Id} {b : Booking}
    {c : RideDriverCandidate} (hb : w.booking rid = some b) (hc : w.findCandidate rid d = some c)
    (ride : Ride) (now : Time) (e : ServiceError) :
    w.Becomes rid (some (b.answer d .canceled))
      (((do markCandidateSuperseded ride c now; throw e) : Service α).run (handle env) w).2 := by
  have h := World.becomes_saveCandidate hb hc (n := { c with
    status := .canceled, reason := some "Another driver already accepted this ride",
    respondedAt := some now }) rfl rfl rfl rfl
  unfold markCandidateSuperseded saveCandidate notifyCandidateSuperseded
  simp only [bind_assoc]
  rw [Program.run_bind_ok _ (run_call env _ w)]
  exact announces_dispatch.becomes fun ns => h.tables rfl rfl

theorem claimedBy_of_driver {b : Booking} {d : Id} (h : b.driver = some d) : b.claimedBy d =
    ((b.answer d .accepted).transition [.requested, .candidatesComputed] .assigned).transition
      [.assigned, .candidatesComputed] .accepted := by
  rw [Booking.claimedBy, ← h]

theorem acceptRideByDriver_becomes (w : World) (rid d : Id) (now : Time) :
    w.Becomes rid ((w.booking rid).map (·.accept d))
      ((acceptRideByDriver rid d now).run (handle env) w).2 := by
  unfold acceptRideByDriver findByRideAndDriver
  refine reads_ride ⟨_, rfl⟩ fun r hr hid => ?_
  subst hid
  have hb := World.booking_of_find hr
  simp only [↓Program.throw_seq]
  by_cases h1 : r.status = .canceled
  · rw [if_pos h1]
    exact refuses hr (by simp [Booking.accept, h1])
  by_cases h2 : r.status = .completed
  · rw [if_neg h1, if_pos h2]
    exact refuses hr (by simp [Booking.accept, h2])
  rw [if_neg h1, if_neg h2, Program.run_bind_ok _ (run_call env _ w)]
  cases hc : w.findCandidate r.id d with
  | none => exact refuses hr (by simp [Booking.accept, hc])
  | some c =>
    simp only
    by_cases h3 : c.status = .canceled
    · rw [if_pos h3]
      exact refuses hr (by simp [Booking.accept, hc, h3])
    by_cases h4 : c.status = .declined
    · rw [if_neg h3, if_pos h4]
      exact refuses hr (by simp [Booking.accept, hc, h4])
    rw [if_neg h3, if_neg h4]
    by_cases h5 : c.status = .confirmed ∨ (c.status = .accepted ∧ r.driverId = some d ∧
        (r.status = .accepted ∨ r.status = .enroute))
    · rw [if_pos h5]
      exact refuses hr (by rcases h5 with h5 | h5 <;> simp [Booking.accept, hc, h5])
    rw [if_neg h5]
    have hopen : c.status = .invited ∨ c.status = .accepted := by
      cases hs : c.status <;> simp_all
    have hacc : (w.bookingOf r).accept d =
        if r.driverId = none ∨ r.driverId = some d then (w.bookingOf r).claimedBy d
        else (w.bookingOf r).answer d .canceled := by
      have h6 : ¬ (c.status ≠ .invited ∧ c.status ≠ .accepted) := by tauto
      have h7 : ¬ (c.status = .accepted ∧ r.driverId = some d ∧
        (r.status = .accepted ∨ r.status = .enroute)) := fun h => h5 (.inr h)
      simp only [Booking.accept, World.bookingOf_status, World.bookingOf_driver,
        World.bookingOf_cand, hc, Option.map_some, Option.some.injEq, ne_eq, h1, h2, or_self,
        if_false, h6, h7]
      rfl
    rw [hacc]
    cases hd : r.driverId with
    | none =>
      have hcl : (call (.claimDriver r.id d)).run (handle env) w =
          (.ok true, { w with rides := w.rides.put { r with driverId := some d } }) := by
        rw [run_call]
        simp [handle, World.claimDriver, hr, hd, UpdateResult.length]
      simp only
      rw [Program.run_bind_ok _ hcl]
      have h₁ := World.becomes_put (m := { r with driverId := some d }) hr rfl
      exact h₁.trans (acceptClaimedRide_becomes h₁.booked hc now)
    | some holder =>
      simp only
      by_cases h8 : holder = d
      · subst h8
        rw [if_pos (Or.inr rfl), if_neg (by simp), claimedBy_of_driver hd]
        exact acceptClaimedRide_becomes hb hc now
      · rw [if_neg (by simp [h8]), if_pos h8]
        exact markCandidateSuperseded_becomes hb hc r now _

/-- The write that takes the driver off the ride, and the transition after it. -/
theorem release_becomes (env : Environment) {w : World} {r : Ride} {b : Booking} (hb : w.booking r.id = some b)
    (hd : b.rider = r.riderId ∧ b.status = r.status) (context : Option String) :
    ∃ p w₁ ride changed w₂, (updateRide { r with driverId := none }.changes).run (handle env) w =
        (.ok p, w₁) ∧ p.id = r.id ∧
      (transitionRideStatus r.id [.accepted, .assigned] .candidatesComputed context).run
        (handle env) w₁ = (.ok (ride, changed), w₂) ∧ ride.id = r.id ∧
      w.Becomes r.id (some b.release) w₂ := by
  obtain ⟨x, hx, hxb⟩ := Option.map_eq_some_iff.mp hb
  have h₁ := becomes_rewrite (m := { r with driverId := none }) hx
  obtain ⟨ride, changed, w₂, hrun, hf, h₂⟩ := transition_becomes env h₁.booked
    [.accepted, .assigned] .candidatesComputed context
  refine ⟨_, _, ride, changed, w₂, run_updateRide env (m := { r with driverId := none }) hx,
    Table.key_of_find hx, hrun, Table.key_of_find hf, ?_⟩
  have hbr : (⟨r.riderId, none, r.status, w.answers r.id⟩ : Booking) = { b with driver := none } := by
    obtain ⟨rider, driver, status, cand⟩ := b
    obtain ⟨rfl, rfl⟩ := hd
    have : cand = w.answers r.id := by
      rw [← Table.key_of_find hx]
      exact (congrArg Booking.cand hxb).symm
    rw [this]
  simp only [hbr] at h₂
  exact (h₁.trans h₂)

theorem rejectRideByDriver_becomes (w : World) (rid d : Id) (reason : Option String) (now : Time) :
    w.Becomes rid ((w.booking rid).map (·.driverReject d))
      ((rejectRideByDriver rid d reason now).run (handle env) w).2 := by
  unfold rejectRideByDriver findByRideAndDriver
  refine reads_ride ⟨_, rfl⟩ fun r hr hid => ?_
  subst hid
  have hb := World.booking_of_find hr
  simp only [↓Program.throw_seq]
  by_cases h1 : r.status = .canceled
  · rw [if_pos h1]
    exact refuses hr (by simp [Booking.driverReject, h1])
  by_cases h2 : r.status = .completed
  · rw [if_neg h1, if_pos h2]
    exact refuses hr (by simp [Booking.driverReject, h2])
  by_cases h3 : r.status = .enroute
  · rw [if_neg h1, if_neg h2, if_pos h3]
    exact refuses hr (by simp [Booking.driverReject, h3])
  rw [if_neg h1, if_neg h2, if_neg h3, Program.run_bind_ok _ (run_call env _ w)]
  cases hc : w.findCandidate r.id d with
  | none => exact refuses hr (by simp [Booking.driverReject, hc])
  | some c =>
    simp only
    by_cases h4 : c.status = .declined
    · rw [if_pos h4]
      exact refuses hr (by simp [Booking.driverReject, hc, h4])
    by_cases h5 : c.status = .canceled
    · rw [if_neg h4, if_pos h5]
      exact refuses hr (by simp [Booking.driverReject, hc, h5])
    rw [if_neg h4, if_neg h5]
    unfold saveCandidate
    rw [Program.run_bind_ok _ (run_call env _ w)]
    have h₁ := World.becomes_saveCandidate hb hc (n := { c with
      status := .declined, reason := some (reason.getD "Driver declined the ride invitation"),
      respondedAt := some now }) rfl rfl rfl rfl
    by_cases h6 : r.driverId = some d
    · have ha : (w.bookingOf r).driverReject d = ((w.bookingOf r).answer d .declined).release := by
        simp [Booking.driverReject, h1, h2, h3, hc, h4, h5, h6]
      rw [ha]
      obtain ⟨p, w₁, ride, changed, w₂, hu, hp, ht, hi, h₂⟩ := release_becomes env
        h₁.booked ⟨rfl, rfl⟩ (some (reason.getD "Driver declined the ride invitation"))
      simp only [h6, if_true, pure_bind]
      rw [Program.run_bind_ok _ hu, hp, Program.run_bind_ok _ ht]
      refine announces_dispatch.becomes fun ns => ?_
      rw [run_refreshed]
      exact (h₁.trans h₂).tables rfl rfl
    · have ha : (w.bookingOf r).driverReject d = (w.bookingOf r).answer d .declined := by
        simp [Booking.driverReject, h1, h2, h3, hc, h4, h5, h6]
      rw [ha]
      simp only [h6, if_false, pure_bind]
      refine announces_dispatch.becomes fun ns => ?_
      rw [run_refreshed]
      exact h₁.tables rfl rfl

theorem confirmedRow_keeps (driverId : Id) (now : Time) (c n : RideDriverCandidate)
    (h : confirmedRow driverId now c = some n) : n.id = c.id ∧ n.rideId = c.rideId ∧
      n.driverId = c.driverId ∧ n.createdAt = c.createdAt := by
  unfold confirmedRow at h
  split_ifs at h <;> cases h <;> exact ⟨rfl, rfl, rfl, rfl⟩

/-- The answer that a confirmation of driver `d` makes of candidate `x`'s. -/
def confirmedStatus (d x : Id) (s : ERideDriverCandidateStatus) : ERideDriverCandidateStatus :=
  if x = d then .confirmed else if s = .invited ∨ s = .accepted then .canceled else s

theorem confirmedRow_status (d : Id) (now : Time) (c : RideDriverCandidate) :
    ((confirmedRow d now c).getD c).status = confirmedStatus d c.driverId c.status := by
  unfold confirmedRow confirmedStatus
  split_ifs <;> rfl

theorem confirmedStatus_answer (b : Booking) (d x : Id) :
    (b.cand x).map (confirmedStatus d x) = b.confirmedAnswer d x := by
  unfold Booking.confirmedAnswer confirmedStatus
  by_cases hx : x = d
  · simp [hx]
  · cases b.cand x with
    | none => simp [hx]
    | some s => by_cases hs : s = .invited ∨ s = .accepted <;> simp [hx, hs]

theorem announces_riderConfirmed (ride : Ride) (c : RideDriverCandidate) :
    Announces env (notifyRiderConfirmed ride c) := by
  unfold notifyRiderConfirmed
  split
  · exact announces_pure
  · exact announces_dispatch

theorem announces_superseded {ride : Ride} {c : RideDriverCandidate} :
    Announces env (notifyCandidateSuperseded ride c) := announces_dispatch

theorem confirmDriverAcceptance_becomes (w : World) (rid rider : Id) (now : Time) :
    w.Becomes rid ((w.booking rid).map (·.confirm rider))
      ((confirmDriverAcceptance rid rider now).run (handle env) w).2 := by
  unfold confirmDriverAcceptance findByRideAndDriver
  refine reads_ride ⟨_, rfl⟩ fun r hr hid => ?_
  subst hid
  have hb := World.booking_of_find hr
  simp only [↓Program.throw_seq]
  by_cases h1 : r.riderId = rider
  swap
  · rw [if_pos h1]
    exact refuses hr (by cases hd : r.driverId <;> simp [Booking.confirm, h1, hd])
  rw [if_neg (by simpa using h1)]
  cases hd : r.driverId with
  | none => exact refuses hr (by simp [Booking.confirm, hd])
  | some d =>
    simp only
    by_cases h2 : r.status ∈ [ERideStatus.canceled, .completed, .assigned, .requested, .enroute]
    · have ha := refuses hr (b := (w.bookingOf r).confirm rider) (by simp [Booking.confirm, hd, h2])
      simp only [List.mem_cons, List.not_mem_nil, or_false] at h2
      rcases h2 with h2 | h2 | h2 | h2 | h2 <;> simpa [h2] using ha
    have h3 := h2
    simp only [List.mem_cons, List.not_mem_nil, or_false, not_or] at h3
    simp only [h3, or_self, if_false]
    rw [Program.run_bind_ok _ (run_call env _ w)]
    cases hc : w.findCandidate r.id d with
    | none => exact refuses hr (by simp [Booking.confirm, hd, hc])
    | some c =>
      simp only
      by_cases h4 : c.status = .accepted
      swap
      · rw [if_pos h4]
        exact refuses hr (by simp [Booking.confirm, hd, hc, h4])
      rw [if_neg (by simpa using h4)]
      have ha : (w.bookingOf r).confirm rider =
          { (w.bookingOf r).transition [.accepted] .enroute with
            cand := (w.bookingOf r).confirmedAnswer d } := by
        simp [Booking.confirm, hd, h1, h2, hc, h4]
      rw [ha]
      obtain ⟨ride, changed, w₁, ht, hf₁, h₁⟩ := transition_becomes env hb [.accepted]
        .enroute (some "Rider accepted driver confirmation")
      rw [Program.run_bind_ok _ ht, Program.run_bind_ok _ (run_call env _ w₁)]
      obtain ⟨w₂, hs, h₂, -⟩ := saveMany_becomes env h₁.booked (confirmedRow_keeps d now)
        (confirmedRow_status d now)
      rw [Program.run_bind_ok _ hs]
      refine (announces_riderConfirmed ride c).becomes fun ns => ?_
      refine (announces_forM (fun _ => announces_superseded) _).becomes fun ms => ?_
      rw [run_refreshed]
      rw [Booking.transition_cand] at h₂
      have hcand : (fun x => ((w.bookingOf r).cand x).map (confirmedStatus d x)) =
          (w.bookingOf r).confirmedAnswer d := funext fun x => confirmedStatus_answer _ _ _
      rw [hcand] at h₂
      exact (h₁.trans h₂).tables rfl rfl

theorem rejectDriverAcceptance_becomes (w : World) (rid rider : Id) (reason : Option String)
    (now : Time) :
    w.Becomes rid ((w.booking rid).map (·.riderReject rider))
      ((rejectDriverAcceptance rid rider reason now).run (handle env) w).2 := by
  unfold rejectDriverAcceptance findByRideAndDriver
  refine reads_ride ⟨_, rfl⟩ fun r hr hid => ?_
  subst hid
  have hb := World.booking_of_find hr
  simp only [↓Program.throw_seq]
  by_cases h1 : r.riderId = rider
  swap
  · rw [if_pos h1]
    exact refuses hr (by cases hd : r.driverId <;> simp [Booking.riderReject, h1, hd])
  rw [if_neg (by simpa using h1)]
  cases hd : r.driverId with
  | none => exact refuses hr (by simp [Booking.riderReject, hd])
  | some d =>
    simp only
    by_cases h2 : r.status ∈ [ERideStatus.canceled, .completed, .enroute, .assigned, .requested]
    · have ha := refuses hr (b := (w.bookingOf r).riderReject rider)
        (by simp [Booking.riderReject, hd, h2])
      simp only [List.mem_cons, List.not_mem_nil, or_false] at h2
      rcases h2 with h2 | h2 | h2 | h2 | h2 <;> simpa [h2] using ha
    have h3 := h2
    simp only [List.mem_cons, List.not_mem_nil, or_false, not_or] at h3
    simp only [h3, or_self, if_false]
    rw [Program.run_bind_ok _ (run_call env _ w)]
    cases hc : w.findCandidate r.id d with
    | none => exact refuses hr (by simp [Booking.riderReject, hd, hc])
    | some c =>
      have ha : (w.bookingOf r).riderReject rider = ((w.bookingOf r).answer d .canceled).release := by
        simp [Booking.riderReject, hd, h1, h2, hc]
      rw [ha]
      simp only [saveCandidate]
      rw [Program.run_bind_ok _ (run_call env _ w)]
      have h₁ := World.becomes_saveCandidate hb hc (n := { c with
        status := .canceled, reason := some (reason.getD "Rider rejected the driver acceptance"),
        respondedAt := some now }) rfl rfl rfl rfl
      obtain ⟨p, w₁, ride, changed, w₂, hu, -, ht, hi, h₂⟩ := release_becomes env
        h₁.booked ⟨rfl, rfl⟩ (some (reason.getD "Rider rejected the driver acceptance"))
      rw [Program.run_bind_ok _ hu, Program.run_bind_ok _ ht]
      refine announces_dispatch.becomes fun ns => ?_
      rw [run_refreshed]
      exact (h₁.trans h₂).tables rfl rfl

theorem canceledRow_keeps (reason : Option String) (now : Time) (c n : RideDriverCandidate)
    (h : canceledRow reason now c = some n) : n.id = c.id ∧ n.rideId = c.rideId ∧
      n.driverId = c.driverId ∧ n.createdAt = c.createdAt := by
  unfold canceledRow at h
  split_ifs at h
  cases h
  exact ⟨rfl, rfl, rfl, rfl⟩

theorem canceledRow_status (reason : Option String) (now : Time) (c : RideDriverCandidate) :
    ((canceledRow reason now c).getD c).status = .canceled := by
  unfold canceledRow
  split_ifs with h
  · rfl
  · simpa using h

theorem announces_canceled {ride : Ride} {c : RideDriverCandidate} {reason : Option String} :
    Announces env (notifyRideCanceledForCandidate ride c reason) := announces_dispatch

theorem cancelRide_becomes (w : World) (rid : Id) (requester : RequestingClient)
    (reason : Option String) (now : Time) :
    w.Becomes rid ((w.booking rid).map (·.cancel requester.id))
      ((cancelRide rid requester reason now).run (handle env) w).2 := by
  unfold cancelRide
  refine reads_ride ⟨_, rfl⟩ fun r hr hid => ?_
  subst hid
  have hb := World.booking_of_find hr
  simp only [↓Program.throw_seq]
  by_cases h1 : some r.riderId = requester.id
  swap
  · rw [if_pos h1]
    exact refuses hr (by simp [Booking.cancel, h1])
  by_cases h2 : r.status = .completed
  · rw [if_neg (by simpa using h1), if_pos h2]
    exact refuses hr (by simp [Booking.cancel, h2])
  by_cases h3 : r.status = .canceled
  · rw [if_neg (by simpa using h1), if_neg h2, if_pos h3]
    exact refuses hr (by simp [Booking.cancel, h3])
  rw [if_neg (by simpa using h1), if_neg h2, if_neg h3]
  have ha : (w.bookingOf r).cancel requester.id =
      { (w.bookingOf r).transition [.requested, .candidatesComputed, .assigned, .accepted, .enroute]
          .canceled with cand := fun d => ((w.bookingOf r).cand d).map fun _ => .canceled } := by
    simp [Booking.cancel, h1, h2, h3]
  rw [ha]
  unfold removePendingJobs
  rw [Program.run_bind_ok _ (run_call env _ w)]
  obtain ⟨ride, changed, w₁, ht, hf₁, h₁⟩ := transition_becomes env hb
    [.requested, .candidatesComputed, .assigned, .accepted, .enroute] .canceled
    (some (cancellationReason reason))
  have hi : ride.id = r.id := Table.key_of_find hf₁
  rw [Program.run_bind_ok _ ht]
  have hu := run_updateRide env (m := withCancellation ride reason) (by
    rw [← hi] at hf₁
    exact hf₁)
  have h₂ := becomes_rewrite_same (m := withCancellation ride reason) hf₁ ⟨rfl, rfl, rfl⟩
  rw [h₁.booked] at h₂
  rw [Program.run_bind_ok _ hu, Program.run_bind_ok _ (run_call env _ _)]
  obtain ⟨w₃, hs, h₃, -⟩ := saveMany_becomes env h₂.booked (canceledRow_keeps reason now)
    (g := fun _ _ => .canceled) (canceledRow_status reason now)
  rw [Booking.transition_cand] at h₃
  have hid : (withCancellation ride reason).id = r.id := hi
  simp only [hid] at hs ⊢
  generalize hl : List.filterMap (canceledRow reason now) _ = l at hs ⊢
  have hall := (h₁.trans h₂).trans h₃
  by_cases hpos : 0 < l.length
  · rw [if_pos hpos, Program.run_bind_ok _ hs]
    refine (announces_forM (fun _ => announces_canceled) l).becomes fun ns => ?_
    rw [run_refreshed]
    exact hall.tables rfl rfl
  · obtain rfl : l = [] := List.length_eq_zero_iff.mp (by omega)
    rw [if_neg hpos, run_refreshed, (Prod.mk.inj hs).2]
    exact hall

theorem startRide_becomes (w : World) (rid : Id) (driver : Option Id) (location : ParticipantLocation) :
    ∃ arrived, w.Becomes rid ((w.booking rid).map (·.start driver arrived))
      ((startRide env rid driver location).run (handle env) w).2 := by
  have hno : ((w.booking rid).map (·.start driver false)) = w.booking rid := by
    simp [Booking.start]
  have hsame (v : World) (hv : SameRows w v) :
      ∃ arrived, w.Becomes rid ((w.booking rid).map (·.start driver arrived)) v :=
    ⟨false, by rw [hno]; exact World.becomes_tables hv.1 hv.2 rid⟩
  unfold startRide
  simp only [↓Program.throw_seq]
  cases driver with
  | none => exact hsame w (.refl w)
  | some d =>
    simp only
    rw [Program.run_bind_ok _ (run_findById env rid w)]
    cases hr : w.rides.find rid with
    | none => exact hsame w (.refl w)
    | some r =>
      obtain rfl : r.id = rid := Table.key_of_find hr
      have hb := World.booking_of_find hr
      simp only
      by_cases h1 : r.driverId = some d
      swap
      · rw [if_pos h1]
        exact hsame w (.refl w)
      by_cases h2 : r.status ∈ [ERideStatus.enroute, .tripStarted]
      swap
      · rw [if_neg (by simpa using h1)]
        split_ifs <;> exact hsame w (.refl w)
      have h3 : r.status ≠ .canceled ∧ r.status ≠ .completed := by
        constructor <;> rintro he <;> simp [he] at h2
      rw [if_neg (by simpa using h1), if_neg h3.1, if_neg h3.2, if_neg (not_not.mpr h2)]
      refine probes_atPickup.passes hsame fun _ v hv => ?_
      refine probes_recordLocation.passes (fun u hu => hsame u (hv.trans hu)) fun _ u hu => ?_
      have hwu := hv.trans hu
      have hbu : u.booking r.id = some (w.bookingOf r) := by rw [World.booking_congr hwu.1 hwu.2, hb]
      obtain ⟨ride, changed, x, ht, -, h₁⟩ := transition_becomes env hbu [.enroute, .tripStarted]
        .tripStarted (some "Driver started the trip")
      have hx := (World.becomes_tables hwu.1 hwu.2 r.id).trans h₁
      rw [Program.run_bind_ok _ ht, Program.run_bind_ok _ (run_findById env _ x)]
      refine ⟨true, ?_⟩
      have ha : (w.booking r.id).map (·.start (some d) true) =
          some ((w.bookingOf r).transition [.enroute, .tripStarted] .tripStarted) := by
        simp [hb, Booking.start, h1]
      rw [ha]
      split
      · exact announces_both.becomes fun ns => hx.tables rfl rfl
      · exact hx

/-- The transition, the tracking state and the write of the fare. -/
theorem settleRide_becomes {w : World} {r : Ride} {b : Booking} (hb : w.booking r.id = some b)
    (fare : FareCalculationResult) :
    w.Becomes r.id (some (b.transition [.enroute, .accepted, .assigned, .tripStarted] .completed))
      ((settleRide r fare).run (handle env) w).2 := by
  obtain ⟨ride, changed, v, ht, hf, h₁⟩ := transition_becomes env hb
    [.enroute, .accepted, .assigned, .tripStarted] .completed
    (some "Driver marked the ride as completed")
  have hi : ride.id = r.id := Table.key_of_find hf
  unfold settleRide
  rw [Program.run_bind_ok _ ht]
  refine probes_markRideCompleted.passes (fun u hu => h₁.tables hu.1 hu.2) fun _ u hu => ?_
  have hfu : u.rides.find r.id = some ride := by rw [hu.1, hf]
  have hrun := run_updateRide env (m := withFare ride fare) (by rw [← hi] at hfu; exact hfu)
  have h₂ := becomes_rewrite_same (m := withFare ride fare) hfu ⟨rfl, rfl, rfl⟩
  rw [Program.run_bind_ok _ hrun, Program.run_bind_ok _ (run_findById env _ _)]
  have hall := (h₁.tables hu.1 hu.2).trans h₂
  rw [(h₁.tables hu.1 hu.2).booked] at hall
  exact announces_both.becomes fun ns => hall.tables rfl rfl

theorem completeRide_becomes (w : World) (rid : Id) (requester : RequestingClient)
    (location : ParticipantLocation) (discount : Option JsNumber) :
    ∃ arrived, w.Becomes rid ((w.booking rid).map (·.complete requester.id arrived))
      ((completeRide env rid requester location discount).run (handle env) w).2 := by
  unfold completeRide
  simp only [↓Program.throw_seq]
  generalize requester.id = driver
  have hno : ((w.booking rid).map (·.complete driver false)) = w.booking rid := by
    simp [Booking.complete]
  have hsame (v : World) (hv : SameRows w v) :
      ∃ arrived, w.Becomes rid ((w.booking rid).map (·.complete driver arrived)) v :=
    ⟨false, by rw [hno]; exact World.becomes_tables hv.1 hv.2 rid⟩
  cases driver with
  | none => exact hsame w (.refl w)
  | some d =>
    simp only
    rw [Program.run_bind_ok _ (run_findById env rid w)]
    cases hr : w.rides.find rid with
    | none => exact hsame w (.refl w)
    | some r =>
      obtain rfl : r.id = rid := Table.key_of_find hr
      have hb := World.booking_of_find hr
      simp only
      by_cases h1 : r.driverId = some d
      swap
      · rw [if_pos h1]
        exact hsame w (.refl w)
      by_cases h2 : r.status = .canceled
      · rw [if_neg (by simpa using h1), if_pos h2]
        exact hsame w (.refl w)
      by_cases h3 : r.status = .completed
      · rw [if_neg (by simpa using h1), if_neg h2, if_pos h3]
        exact hsame w (.refl w)
      rw [if_neg (by simpa using h1), if_neg h2, if_neg h3]
      refine probes_atDropoff.passes hsame fun _ v hv => ?_
      refine probes_recordLocation.passes (fun u hu => hsame u (hv.trans hu)) fun _ u hu => ?_
      refine probes_getTotalDistance.passes (fun x hx => hsame x ((hv.trans hu).trans hx))
        fun total x hx => ?_
      have hwx := (hv.trans hu).trans hx
      cases env.fareEngine.calculateFare (billedDistanceKm r total) discount with
      | error e => exact hsame x hwx
      | ok fare =>
        have hbx : x.booking r.id = some (w.bookingOf r) := by rw [World.booking_congr hwx.1 hwx.2, hb]
        refine ⟨true, ?_⟩
        have ha : (w.booking r.id).map (·.complete (some d) true) = some ((w.bookingOf r).transition
            [.enroute, .accepted, .assigned, .tripStarted] .completed) := by
          simp [hb, Booking.complete, h1]
        rw [ha]
        exact (World.becomes_tables hwx.1 hwx.2 r.id).trans (settleRide_becomes hbx fare)

end NebLite
