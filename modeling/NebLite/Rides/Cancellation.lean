import NebLite.Rides.Retries

/-! What a rider's cancellation leaves behind. -/

namespace NebLite

open Atomic

/-- From `w` to `v` the ride has been cancelled for the reason. -/
structure World.Cancelled (w : World) (rid : Id) (reason : Option String) (v : World) : Prop where
  ride : ∃ x, v.rides.find rid = some x ∧ x.status = .canceled ∧
    x.cancelReason = some (cancellationReason reason) ∧ x.fareFinal = some 0
  rows : v.candidates.rows.map (·.id) = w.candidates.rows.map (·.id)
  candidates : ∀ c ∈ v.findCandidates rid, c.status = .canceled
  notified : ∃ told, v.notifications = w.notifications ++ told ∧
    told.map (fun n => (n.target, n.targetId, n.event)) =
      ((w.findCandidates rid).filter fun c => c.status ≠ .canceled).map fun c =>
        (NotificationTarget.driver, c.driverId, "ride.cancelled")

/-- Neither rides nor candidates nor history have changed, and nobody has been notified. -/
structure World.Untouched (w v : World) : Prop where
  rides : v.rides = w.rides
  candidates : v.candidates = w.candidates
  history : v.history = w.history
  notifications : v.notifications = w.notifications

/-- What a cancellation of the ride has to leave, whether it returns or throws. -/
def CancelsOrRefuses (env : Environment) (w : World) (rid : Id) (requester : RequestingClient)
    (reason : Option String) (now : Time) : Prop :=
  match (cancelRide rid requester reason now).run (handle env) w with
  | (.ok _, v) => w.Cancelled rid reason v
  | (.error _, v) => w.Untouched v

/-- A cancellation moves the ride, and the reason is not blank unless the ride bears a blank one already. -/
def Ride.Cancellable (r : Ride) (reason : Option String) : Prop :=
  r.status ∈ [ERideStatus.requested, .candidatesComputed, .assigned, .accepted, .enroute] ∧
    (reason = some "" → r.cancelReason = some "")

section Cancel

variable {env : Environment} {w v : World} {r ride : Ride} {requester : RequestingClient} {reason : Option String}
  {now : Time}

/-- Exactly the candidates that were not cancelled before are told. -/
theorem rideCancelled_told (ride : Ride) (reason : Option String) (now : Time) (l : List RideDriverCandidate) :
    ((l.filterMap (canceledRow reason now)).map fun c => rideCancelled ride c reason).map
        (fun n => (n.target, n.targetId, n.event)) =
      (l.filter fun c => c.status ≠ .canceled).map fun c =>
        (NotificationTarget.driver, c.driverId, "ride.cancelled") := by
  induction l with
  | nil => rfl
  | cons c l ih =>
    by_cases hs : c.status = .canceled
    · simpa [List.filterMap_cons, canceledRow, hs] using ih
    · simpa [List.filterMap_cons, canceledRow, hs, rideCancelled] using ih

/-- The candidates and the notifications are right whatever has become of the ride. -/
theorem cancelled_iff (hcandidates : v.candidates = w.candidates) (hnotifications : v.notifications = w.notifications)
    (hf : v.rides.find r.id = some ride) :
    w.Cancelled r.id reason (v.cancelled ride reason now) ↔
      ride.status = .canceled ∧ (withCancellation ride reason).cancelReason = some (cancellationReason reason) := by
  obtain hid : ride.id = r.id := Table.key_of_find hf
  have hfound : w.findCandidates r.id = v.findCandidates ride.id := by
    rw [World.findCandidates, World.findCandidates, hcandidates, hid]
  have hstored : (v.cancelled ride reason now).rides.find r.id = some (withCancellation ride reason) := by
    rw [← hid] at hf ⊢
    exact Table.find_put_self (r := withCancellation ride reason) hf
  have hkeeps (c n) (h : canceledRow reason now c = some n) : n.id = c.id := (canceledRow_keeps reason now c n h).1
  constructor
  · rintro ⟨⟨x, hx, hs, hreason, -⟩, -, -, -⟩
    obtain rfl := Option.some.inj (hstored.symm.trans hx)
    exact ⟨hs, hreason⟩
  · rintro ⟨hs, hreason⟩
    refine ⟨⟨_, hstored, hs, hreason, rfl⟩, ?_, fun c hc => ?_, _, congrArg (· ++ _) hnotifications, ?_⟩
    · rw [← hcandidates]
      exact rewritten_ids hkeeps
    · obtain ⟨hmem, hride⟩ := mem_findCandidates.mp hc
      have hrow : c ∈ (v.rewritten ride.id (canceledRow reason now)).candidates.rows := hmem
      rw [rewritten_rows hkeeps] at hrow
      obtain ⟨x, -, rfl⟩ := List.mem_map.mp hrow
      by_cases hx : x.rideId = ride.id
      · rw [if_pos hx]
        exact canceledRow_status reason now x
      · rw [if_neg hx] at hride
        exact absurd (hride.trans hid.symm) hx
    · rw [hfound]
      exact rideCancelled_told (withCancellation ride reason) reason now (v.findCandidates ride.id)

theorem cancelReason_withCancellation (ride : Ride) (reason : Option String) :
    (withCancellation ride reason).cancelReason = if truthy reason then reason else ride.cancelReason := rfl

theorem cancelReason_withStatus (r : Ride) (reason : Option String) :
    (withStatus r .canceled (some (cancellationReason reason))).cancelReason =
      if reason = some "" then r.cancelReason else some (cancellationReason reason) := by
  cases reason with
  | none => rfl
  | some text =>
    by_cases htext : text = ""
    · subst htext
      rfl
    · have htruthy : truthy (some text) = true := by
        simpa [truthy] using htext
      simp [withStatus, cancellationReason, htruthy, htext]

/-- The reason is the one that is asked for unless it is blank. -/
theorem cancelReason_moved (r : Ride) (reason : Option String) :
    (withCancellation (withStatus r .canceled (some (cancellationReason reason))) reason).cancelReason =
      some (cancellationReason reason) ↔ (reason = some "" → r.cancelReason = some "") := by
  rw [cancelReason_withCancellation, cancelReason_withStatus]
  cases reason with
  | none => simp [truthy]
  | some text =>
    by_cases htext : text = ""
    · subst htext
      simp [truthy, cancellationReason]
    · have htruthy : truthy (some text) = true := by
        simpa [truthy] using htext
      simp [htruthy, htext, cancellationReason]

/-- A completed ride is refused; any other cancellation goes through, but on a started
trip without the status, and with a blank reason without the reason. -/
theorem cancelsOrRefuses_iff (env : Environment) {w : World} {r : Ride} {requester : RequestingClient}
    (hr : w.rides.find r.id = some r) (hs : r.status ≠ .canceled) (hreq : some r.riderId = requester.id)
    (reason : Option String) (now : Time) :
    CancelsOrRefuses env w r.id requester reason now ↔ r.status = .completed ∨ r.Cancellable reason := by
  unfold CancelsOrRefuses
  by_cases hcompleted : r.status = .completed
  · have hrun : (cancelRide r.id requester reason now).run (handle env) w =
        (.error (.badRequest "Completed ride cannot be cancelled"), w) := by
      unfold cancelRide
      rw [Program.run_bind_ok _ (run_findById env r.id w), hr]
      simp only [↓Program.throw_seq]
      rw [if_neg (not_not.mpr hreq), if_pos hcompleted]
      rfl
    rw [hrun]
    exact iff_of_true ⟨rfl, rfl, rfl, rfl⟩ (.inl hcompleted)
  have hopen : r.status ∉ [ERideStatus.completed, .canceled] := by simp [hcompleted, hs]
  by_cases ha : r.status ∈ [ERideStatus.requested, .candidatesComputed, .assigned, .accepted, .enroute]
  · have htransition := run_transition_due env hr ha hs (some (cancellationReason reason))
    have hmoved : (w.moved r .canceled (some (cancellationReason reason))).rides.find r.id =
        some (withStatus r .canceled (some (cancellationReason reason))) :=
      Table.find_put_self (r := withStatus r .canceled (some (cancellationReason reason))) hr
    rw [run_cancelRide env hr hreq hopen htransition hmoved now]
    have hcancelled : w.Cancelled r.id reason ((w.moved r .canceled (some (cancellationReason reason))).cancelled
        (withStatus r .canceled (some (cancellationReason reason))) reason now) ↔ _ := cancelled_iff rfl rfl hmoved
    rw [cancelReason_moved] at hcancelled
    refine hcancelled.trans ?_
    simp [Ride.Cancellable, hcompleted, ha, withStatus]
  · have hidle : r.status ∉ [ERideStatus.requested, .candidatesComputed, .assigned, .accepted, .enroute] ∨
        r.status = .canceled := .inl ha
    have htransition := run_transition_idle env hr hidle (some (cancellationReason reason))
    rw [run_cancelRide env hr hreq hopen htransition hr now]
    refine (cancelled_iff rfl rfl hr).trans ?_
    simp [Ride.Cancellable, hcompleted, ha, hs]

end Cancel

/-- Rider 1 cancels the ride that driver 7 has accepted. -/
theorem cancelsOrRefuses_iff_accepted :
    ∃ r, ((World.initial []).after (.around [7, 8]) acceptedRun).rides.find 1 = some r ∧
      (CancelsOrRefuses (.around [7, 8]) ((World.initial []).after (.around [7, 8]) acceptedRun) 1
          ⟨some 1, some .rider⟩ none 2 ↔
        r.status = .completed ∨ r.Cancellable none) := by
  obtain ⟨r, hr⟩ : ∃ r, ((World.initial []).after (.around [7, 8]) acceptedRun).rides.find 1 = some r :=
    Option.isSome_iff_exists.mp (by decide +kernel)
  have hfields : (((World.initial []).after (.around [7, 8]) acceptedRun).rides.find 1).map
      (fun r => (r.id, r.riderId, r.status)) = some (1, 1, .accepted) := by decide +kernel
  rw [hr, Option.map_some, Option.some.injEq, Prod.mk.injEq, Prod.mk.injEq] at hfields
  obtain ⟨hid, hrider, hs⟩ := hfields
  have hrequester : some r.riderId = (⟨some 1, some .rider⟩ : RequestingClient).id := congrArg some hrider
  have hiff := cancelsOrRefuses_iff (.around [7, 8]) (hid ▸ hr) (by simp [hs]) hrequester none 2
  rw [hid] at hiff
  exact ⟨r, hr, hiff⟩

/-- Rider 1 cancels the trip once it has started: the call returns, and the ride stays started. -/
theorem started_trip_not_cancelled : ¬ ∀ (ops : List LifecycleOp) (r : Ride) (requester : RequestingClient)
    (reason : Option String) (now : Time),
    ((World.initial []).after (.around [7, 8]) ops).rides.find r.id = some r → r.status ≠ .canceled →
      some r.riderId = requester.id →
      CancelsOrRefuses (.around [7, 8]) ((World.initial []).after (.around [7, 8]) ops) r.id requester reason now := by
  intro h
  obtain ⟨r, hr⟩ : ∃ r, ((World.initial []).after (.around [7, 8]) startedRun).rides.find 1 = some r :=
    Option.isSome_iff_exists.mp (by decide +kernel)
  have hfields : (((World.initial []).after (.around [7, 8]) startedRun).rides.find 1).map
      (fun r => (r.id, r.riderId, r.status)) = some (1, 1, .tripStarted) := by decide +kernel
  rw [hr, Option.map_some, Option.some.injEq, Prod.mk.injEq, Prod.mk.injEq] at hfields
  obtain ⟨hid, hrider, hs⟩ := hfields
  have hr' : ((World.initial []).after (.around [7, 8]) startedRun).rides.find r.id = some r := hid ▸ hr
  have hreq : some r.riderId = (⟨some 1, some .rider⟩ : RequestingClient).id := congrArg some hrider
  have hcancels := h startedRun r ⟨some 1, some .rider⟩ none 3 hr' (by simp [hs]) hreq
  have hidle : r.status ∉ [ERideStatus.requested, .candidatesComputed, .assigned, .accepted, .enroute] := by simp [hs]
  unfold CancelsOrRefuses at hcancels
  rw [run_cancelRide (.around [7, 8]) hr' hreq (by simp [hs])
    (run_transition_idle _ hr' (.inl hidle) (some (cancellationReason none))) hr' 3] at hcancels
  have hcanceled := ((cancelled_iff rfl rfl hr').mp hcancels).1
  rw [hs] at hcanceled
  cases hcanceled

end NebLite
