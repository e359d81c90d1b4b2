import NebLite.Rides.Effects
import NebLite.Rides.Matching

/-! What a rider's confirmation of the driver leaves behind. -/

namespace NebLite

open Atomic

/-- The candidate is still waiting for the rider when `driverId` is confirmed. -/
def RideDriverCandidate.PassedOver (c : RideDriverCandidate) (driverId : Id) : Prop :=
  c.driverId ≠ driverId ∧ (c.status = .invited ∨ c.status = .accepted)

instance (c : RideDriverCandidate) (driverId : Id) : Decidable (c.PassedOver driverId) := by
  unfold RideDriverCandidate.PassedOver
  infer_instance

/-- From `w` to `v` the rider has confirmed driver `d` of the ride, and `ride` is the answer. -/
structure World.ConfirmedAlone (w : World) (rid d : Id) (ride : Ride) (v : World) : Prop where
  stored : v.rides.find rid = some ride
  status : ride.status = .enroute
  driver : ride.driverId = some d
  others : ∀ k ≠ rid, v.rides.find k = w.rides.find k
  rows : v.candidates.rows.map (·.id) = w.candidates.rows.map (·.id)
  chosen : ∀ c ∈ w.findCandidates rid, c.driverId = d →
    ∃ x, v.candidates.find c.id = some x ∧ x.rideId = rid ∧ x.driverId = d ∧ x.status = .confirmed ∧ x.reason = none
  passedOver : ∀ c ∈ w.findCandidates rid, c.PassedOver d →
    ∃ x, v.candidates.find c.id = some x ∧ x.rideId = rid ∧ x.driverId = c.driverId ∧ x.status = .canceled
  untouched : ∀ c ∈ w.candidates.rows, (c.rideId = rid → c.driverId ≠ d ∧ ¬ c.PassedOver d) →
    v.candidates.find c.id = some c
  history : v.history = w.history ++ [⟨rid, some .accepted, .enroute, some "Rider accepted driver confirmation"⟩]
  notified : ∃ confirmation superseded, v.notifications = w.notifications ++ confirmation :: superseded ∧
    (confirmation.target, confirmation.targetId, confirmation.event) =
      (NotificationTarget.driver, d, "ride.rider.confirmed") ∧
    superseded.map (fun n => (n.target, n.targetId, n.event)) =
      ((w.findCandidates rid).filter fun c => c.PassedOver d).map fun c =>
        (NotificationTarget.driver, c.driverId, "ride.driver.not_selected")

section Confirm

variable (env : Environment) {w : World} {r : Ride} {d : Id} {c : RideDriverCandidate}

/-- The ride as a confirmation writes it. -/
def Ride.underWay (r : Ride) : Ride := withStatus r .enroute (some "Rider accepted driver confirmation")

theorem run_confirmDriverAcceptance (hr : w.rides.find r.id = some r) (hs : r.status = .accepted)
    (hd : r.driverId = some d) (hc : w.findCandidate r.id d = some c) (hcs : c.status = .accepted) (now : Time) :
    (confirmDriverAcceptance r.id r.riderId now).run (handle env) w =
      (.ok r.underWay,
        { (w.moved r .enroute (some "Rider accepted driver confirmation")).rewritten r.id (confirmedRow d now) with
          notifications := w.notifications ++ [riderConfirmed r.underWay c d] ++
            (((w.findCandidates r.id).filterMap (confirmedRow d now)).filter fun x => x.driverId ≠ d).map
              (notSelected r.underWay) }) := by
  have hne : r.status ≠ .enroute := by simp [hs]
  have htransition := run_transition_due env hr (List.mem_singleton.mpr hs) hne
    (some "Rider accepted driver confirmation")
  have hrewrite : (saveMany ((w.findCandidates r.id).filterMap (confirmedRow d now))).run (handle env)
      (w.moved r .enroute (some "Rider accepted driver confirmation")) = (.ok (),
        (w.moved r .enroute (some "Rider accepted driver confirmation")).rewritten r.id (confirmedRow d now)) :=
    run_rewrite env (w.moved r .enroute _) r.id (confirmedRow_keeps d now)
  have hconfirmed : Sends env (notifyRiderConfirmed r.underWay c) [riderConfirmed r.underWay c d] :=
    sends_riderConfirmed hd
  have hsuperseded : Sends env ((((w.findCandidates r.id).filterMap (confirmedRow d now)).filter
      fun x => x.driverId ≠ d).forM (notifyCandidateSuperseded r.underWay))
      ((((w.findCandidates r.id).filterMap (confirmedRow d now)).filter fun x => x.driverId ≠ d).map
        (notSelected r.underWay)) := sends_forM (fun x => sends_notSelected r.underWay x) _
  have hstored : (w.rides.put r.underWay).find r.id = some r.underWay := Table.find_put_self (r := r.underWay) hr
  unfold confirmDriverAcceptance findByRideAndDriver
  rw [Program.run_bind_ok _ (run_findById env r.id w), hr]
  simp only [↓Program.throw_seq, hd, hs, ne_eq, not_true_eq_false, reduceCtorEq, if_false, or_self]
  rw [Program.run_bind_ok _ (run_call env _ w)]
  simp only [hc, hcs, not_true_eq_false, if_false]
  rw [Program.run_bind_ok _ htransition, Program.run_bind_ok _ (run_call env _ _)]
  show ((saveMany ((w.findCandidates r.id).filterMap (confirmedRow d now)) >>= _).run (handle env) _) = _
  rw [Program.run_bind_ok _ hrewrite]
  show ((notifyRiderConfirmed r.underWay c >>= _).run (handle env) _) = _
  rw [hconfirmed.next]
  show (((((w.findCandidates r.id).filterMap (confirmedRow d now)).filter
    fun x => x.driverId ≠ d).forM (notifyCandidateSuperseded r.underWay) >>= _).run (handle env) _) = _
  rw [hsuperseded.next, Program.run_bind_ok _ (run_findById env _ _)]
  show (Except.ok (((w.rides.put r.underWay).find r.id).getD r.underWay), _) = _
  rw [hstored]
  rfl

/-- Exactly the candidates that are passed over are told so. -/
theorem notSelected_passedOver (ride : Ride) (d : Id) (now : Time) (l : List RideDriverCandidate) :
    (((l.filterMap (confirmedRow d now)).filter fun x => x.driverId ≠ d).map (notSelected ride)).map
        (fun n => (n.target, n.targetId, n.event)) =
      (l.filter fun c => c.PassedOver d).map fun c =>
        (NotificationTarget.driver, c.driverId, "ride.driver.not_selected") := by
  induction l with
  | nil => rfl
  | cons c l ih =>
    by_cases hown : c.driverId = d
    · have hpassed : ¬ c.PassedOver d := fun h => h.1 hown
      simpa [List.filterMap_cons, confirmedRow, hown, hpassed] using ih
    by_cases hwaiting : c.status = .invited ∨ c.status = .accepted
    · have hpassed : c.PassedOver d := ⟨hown, hwaiting⟩
      simpa [List.filterMap_cons, confirmedRow, hown, hwaiting, hpassed, notSelected] using ih
    · have hpassed : ¬ c.PassedOver d := fun h => hwaiting h.2
      simpa [List.filterMap_cons, confirmedRow, hown, hwaiting, hpassed] using ih

theorem confirmedRow_passedOver {c : RideDriverCandidate} (h : c.PassedOver d) (now : Time) :
    confirmedRow d now c = some { c with
      status := .canceled, respondedAt := some now, reason := some "Ride confirmed with another driver" } := by
  unfold confirmedRow
  rw [if_neg h.1, if_pos h.2]

theorem confirmedRow_untouched {c : RideDriverCandidate} (hown : c.driverId ≠ d) (hpassed : ¬ c.PassedOver d)
    (now : Time) : confirmedRow d now c = none := by
  have hwaiting : ¬ (c.status = .invited ∨ c.status = .accepted) := fun h => hpassed ⟨hown, h⟩
  unfold confirmedRow
  rw [if_neg hown, if_neg hwaiting]

/-- A rider who confirms the driver of an accepted ride gets it under way: the driver's row
is confirmed, the rows that wait are canceled, and each driver concerned hears of it once. -/
theorem confirmation_complete (env : Environment) {w : World} {r : Ride} {d : Id} {c : RideDriverCandidate}
    (hr : w.rides.find r.id = some r) (hs : r.status = .accepted) (hd : r.driverId = some d)
    (hc : w.findCandidate r.id d = some c) (hcs : c.status = .accepted) (now : Time) :
    ∃ ride v, (confirmDriverAcceptance r.id r.riderId now).run (handle env) w = (.ok ride, v) ∧
      w.ConfirmedAlone r.id d ride v := by
  refine ⟨_, _, run_confirmDriverAcceptance env hr hs hd hc hcs now, ?_⟩
  have hkeeps (x n) (h : confirmedRow d now x = some n) : n.id = x.id := (confirmedRow_keeps d now x n h).1
  have hrow (x : RideDriverCandidate) (hx : x ∈ w.candidates.rows) :
      ((w.moved r .enroute (some "Rider accepted driver confirmation")).rewritten r.id
        (confirmedRow d now)).candidates.find x.id =
          some (if x.rideId = r.id then (confirmedRow d now x).getD x else x) := rewritten_find hkeeps hx
  exact {
    stored := Table.find_put_self (r := r.underWay) hr
    status := rfl
    driver := hd
    others := fun k hk => Table.find_put_ne hk
    rows := rewritten_ids (w := w.moved r .enroute (some "Rider accepted driver confirmation")) hkeeps
    chosen := fun x hx hown => by
      obtain ⟨hmem, hride⟩ := mem_findCandidates.mp hx
      have hconfirmed : confirmedRow d now x = some { x with
          status := .confirmed, respondedAt := some now, reason := none } := by
        unfold confirmedRow
        rw [if_pos hown]
      refine ⟨_, hrow x hmem, ?_⟩
      rw [if_pos hride, hconfirmed]
      exact ⟨hride, hown, rfl, rfl⟩
    passedOver := fun x hx hpassed => by
      obtain ⟨hmem, hride⟩ := mem_findCandidates.mp hx
      refine ⟨_, hrow x hmem, ?_⟩
      rw [if_pos hride, confirmedRow_passedOver hpassed]
      exact ⟨hride, rfl, rfl⟩
    untouched := fun x hx hleft => by
      have hsame : (if x.rideId = r.id then (confirmedRow d now x).getD x else x) = x := by
        by_cases hride : x.rideId = r.id
        · rw [if_pos hride, confirmedRow_untouched (hleft hride).1 (hleft hride).2]
          rfl
        · rw [if_neg hride]
      exact (hrow x hx).trans (congrArg some hsame)
    history := by
      show w.history ++ [⟨r.id, some r.status, .enroute, some "Rider accepted driver confirmation"⟩] = _
      rw [hs]
    notified := ⟨riderConfirmed r.underWay c d, _, List.append_assoc .., rfl, notSelected_passedOver _ _ _ _⟩ }

/-- Rider 1 confirms driver 7; driver 8 has been invited too. -/
theorem confirmation_complete_accepted :
    ∃ r ride v, ((World.initial []).after (.around [7, 8]) acceptedRun).rides.find 1 = some r ∧
      (confirmDriverAcceptance 1 1 2).run (handle (.around [7, 8]))
        ((World.initial []).after (.around [7, 8]) acceptedRun) = (.ok ride, v) ∧
      ((World.initial []).after (.around [7, 8]) acceptedRun).ConfirmedAlone 1 7 ride v := by
  obtain ⟨r, hr⟩ : ∃ r, ((World.initial []).after (.around [7, 8]) acceptedRun).rides.find 1 = some r :=
    Option.isSome_iff_exists.mp (by decide +kernel)
  obtain ⟨c, hc⟩ : ∃ c, ((World.initial []).after (.around [7, 8]) acceptedRun).findCandidate 1 7 = some c :=
    Option.isSome_iff_exists.mp (by decide +kernel)
  have hfields : (((World.initial []).after (.around [7, 8]) acceptedRun).rides.find 1).map
      (fun r => (r.id, r.riderId, r.status, r.driverId)) = some (1, 1, .accepted, some 7) := by decide +kernel
  have hanswer : (((World.initial []).after (.around [7, 8]) acceptedRun).findCandidate 1 7).map (·.status) =
      some .accepted := by decide +kernel
  rw [hr, Option.map_some, Option.some.injEq, Prod.mk.injEq, Prod.mk.injEq, Prod.mk.injEq] at hfields
  rw [hc, Option.map_some, Option.some.injEq] at hanswer
  obtain ⟨hid, hrider, hs, hd⟩ := hfields
  have hcomplete := confirmation_complete (.around [7, 8]) (r := r) (hid ▸ hr) hs hd (hid ▸ hc) hanswer 2
  rw [hid, hrider] at hcomplete
  obtain ⟨ride, v, hrun, hconfirmed⟩ := hcomplete
  exact ⟨r, ride, v, hr, hrun, hconfirmed⟩

end Confirm

end NebLite
