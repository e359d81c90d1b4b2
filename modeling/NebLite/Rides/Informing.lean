import NebLite.Rides.Views
import NebLite.Rides.HistoryLog
import NebLite.Rides.Refusals

/-! The operations of the lifecycle tell the participants of a ride whatever they change of it. -/

namespace NebLite

open Atomic

section Lifecycle

variable {env : Environment} {w₀ : World} {α β : Type} {rid : Id} {caller : Option Participant}
  {answer : α → Option Answer} {sent : List Notification}

/-- A program whose calls cannot be seen, before anything has changed. -/
theorem informing_quiet {p : Service β} {f : β → Service α} (hp : p.Calls Call.Unseen)
    (hf : ∀ a, Informing env w₀ caller answer ⟨w₀.view, []⟩ (f a)) :
    Informing env w₀ caller answer ⟨w₀.view, []⟩ (p >>= f) :=
  Outline.Follows.quiet hp (fun _ _ hop _ => .unseen hop) (fun _ => informs_error (by simp)) hf

theorem informing_throw {e : ServiceError} (hsent : ∀ n ∈ sent, w₀.view n.rideId = some n.view) :
    Informing env w₀ caller answer ⟨w₀.view, sent⟩ (.throw e) := informs_error hsent

/-- Every operation begins by reading its ride, and refuses one that does not exist. -/
theorem informing_opening {f : Option Ride → Service α} (hnone : ∃ e, f none = .throw e)
    (hsome : ∀ r, r.id = rid → w₀.view rid = some r.view →
      Informing env w₀ caller answer ⟨w₀.view, []⟩ (f (some r))) :
    Informing env w₀ caller answer ⟨w₀.view, []⟩ (findById rid >>= f) := by
  cases hv : w₀.view rid with
  | some v => exact informing_findById hv fun r hr hrv => hsome r hr (by rw [hv, hrv])
  | none =>
    apply Outline.Follows.perform
    intro w hw
    have hrow : w.rides.find rid = none := Option.map_eq_none_iff.mp ((congrFun hw.1 rid).trans hv)
    obtain ⟨e, he⟩ := hnone
    refine ⟨_, .unseen trivial, ?_⟩
    simp only [handle, hrow, Program.ofExcept_ok, Program.ret_bind, he]
    exact informing_throw (by simp)

theorem informing_acceptClaimedRide {c : RideDriverCandidate} {d : Id} {now : Time} {v : RideView}
    (hd : v.driverId = some d) : Informing env w₀ (some (.driver, d)) Ride.answer
      ⟨Function.update w₀.view rid (some v), []⟩ (acceptClaimedRide rid c now) := by
  unfold acceptClaimedRide
  refine (passes_call (.saveCandidate _) trivial fun _ => ⟨_, rfl⟩).goesOn fun _ => ?_
  apply informing_transition (Function.update_self ..)
  intro x _ hx _ hxd _
  rw [Function.update_idem]
  simp only [hx]
  apply informing_transition (Function.update_self ..)
  intro y _ hy _ hyd _
  rw [Function.update_idem]
  apply speaks_dispatch.goesOn (hy ▸ Function.update_self ..)
  intro ns hns htold
  apply informing_findById (Function.update_self ..)
  intro z hz hzv
  refine informs_changed (fun n hn => ⟨(hns n hn).1.trans hy, (hns n hn).2⟩) ?_ fun p hp => ?_
  · show Except.ok (some (z.id, z.view)) = _
    rw [hz, hzv]
  · rcases hp with rfl | ⟨d', hd', rfl⟩
    · exact .inr (htold _ rfl)
    · have hsame : some d' = some d := hd'.symm.trans (hyd.trans (hxd.trans hd))
      cases hsame
      exact .inl rfl

theorem informing_superseded {r : Ride} {c : RideDriverCandidate} {now : Time} {f : Unit → Service α}
    (hr : w₀.view r.id = some r.view)
    (hf : ∀ ns, (∀ n ∈ ns, w₀.view n.rideId = some n.view) →
      Informing env w₀ caller answer ⟨w₀.view, ns⟩ (f ())) :
    Informing env w₀ caller answer ⟨w₀.view, []⟩ (markCandidateSuperseded r c now >>= f) := by
  unfold markCandidateSuperseded
  simp only [bind_assoc]
  refine (passes_call (.saveCandidate _) trivial fun _ => ⟨_, rfl⟩).goesOn fun _ => ?_
  apply speaks_dispatch.goesOn hr
  intro ns hns _
  apply hf
  intro n hn
  rw [(hns n hn).1, (hns n hn).2, hr]

theorem informing_acceptRideByDriver {d : Id} {now : Time} :
    Informing env w₀ (some (.driver, d)) Ride.answer ⟨w₀.view, []⟩ (acceptRideByDriver rid d now) := by
  unfold acceptRideByDriver
  apply informing_opening ⟨_, rfl⟩
  intro r hr hv
  subst hr
  have hthrow {e : ServiceError} : Informing env w₀ (some (.driver, d)) Ride.answer ⟨w₀.view, []⟩ (.throw e) :=
    informing_throw (by simp)
  simp only [↓Program.throw_seq]
  split
  · exact hthrow
  split
  · exact hthrow
  refine (passes_call (.findCandidate _ _) trivial fun _ => ⟨_, rfl⟩).goesOn fun o => ?_
  cases o with
  | none => exact hthrow
  | some c =>
    simp only
    split
    · exact hthrow
    split
    · exact hthrow
    split
    · refine informs_same (by simp) fun a ha => ?_
      cases ha
      exact hv
    cases hd : r.driverId with
    | some holder =>
      simp only
      split
      · exact informing_superseded hv fun ns hns => informing_throw hns
      · next hholder =>
        rw [not_not] at hholder
        have hclaimed : Informing env w₀ (some (.driver, d)) Ride.answer
            ⟨Function.update w₀.view r.id (some r.view), []⟩ (acceptClaimedRide r.id c now) :=
          informing_acceptClaimedRide (hd.trans (congrArg some hholder))
        rwa [Function.update_eq_self_iff.mpr hv.symm] at hclaimed
    | none =>
      apply Outline.Follows.perform
      intro w hw
      have hview : w.view r.id = some r.view := (congrFun hw.1 r.id).trans hv
      obtain ⟨stored, hstored, hsv⟩ := Option.map_eq_some_iff.mp hview
      have hsd : stored.driverId = none := (congrArg RideView.driverId hsv).trans hd
      refine ⟨_, .claim hv hd, ?_⟩
      simp only [handle, World.claimDriver, hstored, hsd, Program.ofExcept_ok, Program.ret_bind]
      split
      · exact informing_acceptClaimedRide rfl
      · next hno => exact absurd rfl hno

/-- What is said of a ride that is as it was is accurate. -/
theorem accurate_of_same {r : Ride} {ns : List Notification} (hv : w₀.view r.id = some r.view)
    (hns : ∀ n ∈ ns, n.rideId = r.id ∧ n.view = r.view) : ∀ n ∈ ns, w₀.view n.rideId = some n.view := by
  intro n hn
  rw [(hns n hn).1, (hns n hn).2, hv]

/-- The program ends by reading the ride again and answers with it. -/
theorem informing_refreshed {views : Id → Option RideView} {v : RideView} {y : Ride} (hv : views rid = some v)
    (hlast : Informs w₀.view caller ⟨views, sent⟩ (.ok (some (rid, v)))) :
    Informing env w₀ caller Ride.answer ⟨views, sent⟩ (do
      let refreshed ← findById rid
      return refreshed.getD y) := by
  apply informing_findById hv
  intro z hz hzv
  show Informs w₀.view caller ⟨views, sent⟩ (.ok (some (z.id, z.view)))
  rw [hz, hzv]
  exact hlast

theorem informing_rejectRideByDriver {d : Id} {reason : Option String} {now : Time} :
    Informing env w₀ (some (.driver, d)) Ride.answer ⟨w₀.view, []⟩ (rejectRideByDriver rid d reason now) := by
  unfold rejectRideByDriver
  apply informing_opening ⟨_, rfl⟩
  intro r hr hv
  subst hr
  have hthrow {e : ServiceError} : Informing env w₀ (some (.driver, d)) Ride.answer ⟨w₀.view, []⟩ (.throw e) :=
    informing_throw (by simp)
  have hreturn : Informing env w₀ (some (.driver, d)) Ride.answer ⟨w₀.view, []⟩ (pure r) := by
    refine informs_same (by simp) fun a ha => ?_
    cases ha
    exact hv
  simp only [↓Program.throw_seq]
  split
  · exact hreturn
  split
  · exact hthrow
  split
  · exact hthrow
  refine (passes_call (.findCandidate _ _) trivial fun _ => ⟨_, rfl⟩).goesOn fun o => ?_
  cases o with
  | none => exact hthrow
  | some c =>
    simp only
    split
    · exact hreturn
    split
    · exact hreturn
    refine (passes_call (.saveCandidate _) trivial fun _ => ⟨_, rfl⟩).goesOn fun _ => ?_
    split
    · apply informing_updateRide (m := { r with driverId := none }) rfl hv
      intro x hx _
      rw [hx]
      apply informing_transition (Function.update_self ..)
      intro y _ hy _ hyd _
      rw [Function.update_idem, pure_bind, hy]
      apply speaks_dispatch.goesOn (hy ▸ Function.update_self ..)
      intro ns hns htold
      apply informing_refreshed (Function.update_self ..)
      refine informs_changed (fun n hn => ⟨(hns n hn).1.trans hy, (hns n hn).2⟩) rfl fun p hp => ?_
      rcases hp with rfl | ⟨d', hd', -⟩
      · exact .inr (htold _ rfl)
      · cases hd'.symm.trans hyd
    · rw [pure_bind]
      apply speaks_dispatch.goesOn hv
      intro ns hns _
      apply informing_refreshed hv
      exact informs_same (accurate_of_same hv hns) fun a ha => by cases ha; exact hv

theorem informing_confirmDriverAcceptance {riderId : Id} {now : Time} :
    Informing env w₀ (some (.rider, riderId)) Ride.answer ⟨w₀.view, []⟩
      (confirmDriverAcceptance rid riderId now) := by
  unfold confirmDriverAcceptance
  apply informing_opening ⟨_, rfl⟩
  intro r hr hv
  subst hr
  have hthrow {e : ServiceError} : Informing env w₀ (some (.rider, riderId)) Ride.answer ⟨w₀.view, []⟩
      (.throw e) := informing_throw (by simp)
  have hreturn : Informing env w₀ (some (.rider, riderId)) Ride.answer ⟨w₀.view, []⟩ (pure r) := by
    refine informs_same (by simp) fun a ha => ?_
    cases ha
    exact hv
  simp only [↓Program.throw_seq]
  split
  · exact hthrow
  next hrider =>
  rw [not_not] at hrider
  cases hd : r.driverId with
  | none => exact hthrow
  | some d =>
    simp only
    split
    · exact hthrow
    split
    · exact hreturn
    split
    · exact hthrow
    split
    · exact hreturn
    refine (passes_call (.findCandidate _ _) trivial fun _ => ⟨_, rfl⟩).goesOn fun o => ?_
    cases o with
    | none => exact hthrow
    | some c =>
      simp only
      split
      · exact hthrow
      apply informing_transition hv
      intro x _ hx hxr hxd _
      refine (passes_call (.findCandidates _) trivial fun _ => ⟨_, rfl⟩).goesOn fun candidates => ?_
      refine (passes_saveMany _).goesOn fun _ => ?_
      apply speaks_riderConfirmed.goesOn (hx ▸ Function.update_self ..)
      intro ns hns htold
      have hothers {l : List RideDriverCandidate} : Speaks env w₀ x.id x.view (fun _ => False)
          (l.forM (notifyCandidateSuperseded x)) :=
        speaks_forM (fun _ => speaks_dispatch.mono fun _ => False.elim) l
      apply hothers.goesOn (hx ▸ Function.update_self ..)
      intro ms hms _
      rw [hx]
      apply informing_refreshed (Function.update_self ..)
      refine informs_changed (fun n hn => ?_) rfl fun p hp => ?_
      · have hsaid : n.rideId = x.id ∧ n.view = x.view := (List.mem_append.mp hn).elim (hns n) (hms n)
        exact ⟨hsaid.1.trans hx, hsaid.2⟩
      · rcases hp with rfl | ⟨d', hd', rfl⟩
        · left
          show some (NotificationTarget.rider, riderId) = some (.rider, x.riderId)
          rw [hxr]
          exact congrArg (fun k => some (NotificationTarget.rider, k)) hrider.symm
        · obtain ⟨n, hn, hto⟩ := htold _ ⟨d', hd', rfl⟩
          exact .inr ⟨n, List.mem_append_left _ hn, hto⟩

theorem informing_rejectDriverAcceptance {riderId : Id} {reason : Option String} {now : Time} :
    Informing env w₀ (some (.rider, riderId)) Ride.answer ⟨w₀.view, []⟩
      (rejectDriverAcceptance rid riderId reason now) := by
  unfold rejectDriverAcceptance
  apply informing_opening ⟨_, rfl⟩
  intro r hr hv
  subst hr
  have hthrow {e : ServiceError} : Informing env w₀ (some (.rider, riderId)) Ride.answer ⟨w₀.view, []⟩
      (.throw e) := informing_throw (by simp)
  simp only [↓Program.throw_seq]
  split
  · exact hthrow
  next hrider =>
  rw [not_not] at hrider
  cases hd : r.driverId with
  | none => exact hthrow
  | some d =>
    simp only
    split
    · refine informs_same (by simp) fun a ha => ?_
      cases ha
      exact hv
    split
    · exact hthrow
    split
    · exact hthrow
    split
    · exact hthrow
    refine (passes_call (.findCandidate _ _) trivial fun _ => ⟨_, rfl⟩).goesOn fun o => ?_
    cases o with
    | none => exact hthrow
    | some c =>
      refine (passes_call (.saveCandidate _) trivial fun _ => ⟨_, rfl⟩).goesOn fun _ => ?_
      apply informing_updateRide (m := { r with driverId := none }) rfl hv
      intro x hx _
      apply informing_transition (Function.update_self ..)
      intro y _ hy hyr hyd _
      rw [Function.update_idem]
      apply speaks_dispatch.goesOn (hy ▸ Function.update_self ..)
      intro ns hns _
      rw [hy]
      apply informing_refreshed (Function.update_self ..)
      refine informs_changed (fun n hn => ⟨(hns n hn).1.trans hy, (hns n hn).2⟩) rfl fun p hp => ?_
      rcases hp with rfl | ⟨d', hd', -⟩
      · left
        show some (NotificationTarget.rider, riderId) = some (.rider, y.riderId)
        rw [hyr]
        exact congrArg (fun k => some (NotificationTarget.rider, k)) hrider.symm
      · cases hd'.symm.trans hyd

theorem unseen_of_asks {c : Call} (h : c.Asks) : c.Unseen := by
  cases c <;> trivial

theorem informing_startRide {driverId : Option Id} {location : ParticipantLocation} :
    Informing env w₀ (driverId.map (.driver, ·)) Ride.answer ⟨w₀.view, []⟩
      (startRide env rid driverId location) := by
  unfold startRide
  cases driverId with
  | none => exact informing_throw (by simp)
  | some d =>
    apply informing_opening ⟨_, rfl⟩
    intro r hr hv
    subst hr
    have hthrow {e : ServiceError} : Informing env w₀ (Option.map (NotificationTarget.driver, ·) (some d))
        Ride.answer ⟨w₀.view, []⟩ (.throw e) := informing_throw (by simp)
    simp only [↓Program.throw_seq]
    split
    · exact hthrow
    split
    · exact hthrow
    split
    · exact hthrow
    split
    · exact hthrow
    refine informing_quiet (asks_atPickup.mono fun _ => unseen_of_asks) fun _ => ?_
    refine (passes_recordLocation _ _ _ _).goesOn fun _ => ?_
    apply informing_transition hv
    intro x changed hx _ _ hsame
    have hread : Function.update w₀.view r.id (some x.view) x.id = some x.view := by
      rw [hx, Function.update_self]
    apply informing_findById hread
    intro y hy hyv
    simp only [Option.getD_some]
    cases changed with
    | false =>
      rw [hsame rfl, Function.update_eq_self_iff.mpr hv.symm]
      refine informs_same (by simp) fun a ha => ?_
      cases ha
      show w₀.view y.id = some y.view
      rw [hy, hx, hyv, hsame rfl, hv]
    | true =>
      have hyid : y.id = r.id := hy.trans hx
      rw [← hyv]
      apply speaks_both.goesOn (hyid ▸ Function.update_self ..)
      intro ns hns htold
      refine informs_changed (fun n hn => ⟨(hns n hn).1.trans hyid, (hns n hn).2⟩) ?_ fun p hp => .inr (htold p hp)
      exact congrArg (fun k => Except.ok (some (k, y.view))) hyid

theorem informing_settleRide {r : Ride} {fare : FareCalculationResult} (hv : w₀.view r.id = some r.view) :
    Informing env w₀ caller Ride.answer ⟨w₀.view, []⟩ (settleRide r fare) := by
  unfold settleRide
  apply informing_transition hv
  intro x _ hx _ _ _
  refine (passes_markRideCompleted _).goesOn fun _ => ?_
  apply informing_updateRide (m := withFare x fare) hx (Function.update_self ..)
  intro y hy hyv
  rw [Function.update_idem]
  have hsaved : (withFare x fare).view = x.view := rfl
  rw [hsaved] at hyv ⊢
  have hread : Function.update w₀.view r.id (some x.view) y.id = some x.view := by
    rw [hy, Function.update_self]
  apply informing_findById hread
  intro z hz hzv
  have hzid : z.id = r.id := hz.trans hy
  simp only [Option.getD_some]
  rw [← hzv]
  apply speaks_both.goesOn (hzid ▸ Function.update_self ..)
  intro ns hns htold
  refine informs_changed (fun n hn => ⟨(hns n hn).1.trans hzid, (hns n hn).2⟩) ?_ fun p hp => .inr (htold p hp)
  exact congrArg (fun k => Except.ok (some (k, z.view))) hzid

theorem informing_completeRide {requester : RequestingClient} {location : ParticipantLocation}
    {discount : Option JsNumber} :
    Informing env w₀ caller Ride.answer ⟨w₀.view, []⟩ (completeRide env rid requester location discount) := by
  unfold completeRide
  cases requester.id with
  | none => exact informing_throw (by simp)
  | some id =>
    apply informing_opening ⟨_, rfl⟩
    intro r hr hv
    subst hr
    have hthrow {e : ServiceError} : Informing env w₀ caller Ride.answer ⟨w₀.view, []⟩ (.throw e) :=
      informing_throw (by simp)
    simp only [↓Program.throw_seq]
    split
    · exact hthrow
    split
    · exact hthrow
    split
    · exact hthrow
    refine informing_quiet (asks_atDropoff.mono fun _ => unseen_of_asks) fun _ => ?_
    refine (passes_recordLocation _ _ _ _).goesOn fun _ => ?_
    refine Passes.goesOn ((passes_getState _).bind fun _ => passes_pure _) fun total => ?_
    exact informing_quiet (by simp) fun fare => informing_settleRide hv

/-- A creation changes the view of the new ride, whose key is the next one. -/
theorem informing_createRideWithDetails {options : RideCreationOptions}
    {f : Ride × List RideDriverCandidate → Service α}
    (hf : ∀ x candidates, x.view = ⟨options.ride.riderId, none, options.ride.status⟩ →
      Informing env w₀ caller answer ⟨Function.update w₀.view x.id (some x.view), []⟩ (f (x, candidates))) :
    Informing env w₀ caller answer ⟨w₀.view, []⟩ (createRideWithDetails options >>= f) := by
  unfold createRideWithDetails
  simp only [bind_assoc]
  apply Outline.Follows.perform
  intro w _
  by_cases hnamed : ∀ d ∈ options.nearbyDrivers, d.driverId ≠ none
  · obtain ⟨candidates, hanswer⟩ := insertRide_answer w hnamed
    refine ⟨_, .create hnamed, ?_⟩
    simp only [handle]
    rw [hanswer]
    simp only [Program.ofExcept_ok, Program.ret_bind]
    apply informing_findById (Function.update_self ..)
    intro x hx hxv
    rw [← hxv, ← hx]
    exact hf x candidates hxv
  · have hblank : ∃ d ∈ options.nearbyDrivers, d.driverId = none := by simpa using hnamed
    obtain ⟨e, he⟩ := insertRide_blank w hblank
    refine ⟨_, .refuse hblank, ?_⟩
    simp only [handle]
    rw [he]
    exact informing_throw (by simp)

theorem informing_createRideBody {rider : Id} {payload : CreateRideInput} {now : Time} :
    Informing env w₀ (some (.rider, rider)) (fun r => r.1.answer) ⟨w₀.view, []⟩
      (createRideBody env rider payload now) := by
  unfold createRideBody
  refine informing_quiet (calls_call trivial) fun route => ?_
  refine informing_quiet (calls_call trivial) fun near => ?_
  simp only [↓Program.throw_seq]
  split
  · exact informing_throw (by simp)
  apply informing_createRideWithDetails
  intro x candidates hxv
  have hoffers : Speaks env w₀ x.id x.view (fun _ => False)
      (candidates.forM fun candidate => notifyRideOffered x candidate route) :=
    speaks_forM (fun _ => speaks_dispatch.mono fun _ => False.elim) candidates
  apply hoffers.goesOn (Function.update_self ..)
  intro ns hns _
  apply speaks_dispatch.goesOn (Function.update_self ..)
  intro ms hms htold
  refine informs_changed (fun n hn => (List.mem_append.mp hn).elim (hns n) (hms n)) rfl fun p hp => ?_
  rcases hp with rfl | ⟨d, hd, -⟩
  · obtain ⟨n, hn, hto⟩ := htold _ rfl
    exact .inr ⟨n, List.mem_append_right _ hn, hto⟩
  · have hnone : x.driverId = none := congrArg RideView.driverId hxv
    cases hd.symm.trans hnone

theorem informing_createRide {rider : Option Id} {payload : CreateRideInput} {now : Time} :
    Informing env w₀ (rider.map (.rider, ·)) (fun r => r.1.answer) ⟨w₀.view, []⟩
      (createRide env rider payload now) := by
  unfold createRide
  cases rider with
  | none => exact informing_throw (by simp)
  | some rider =>
    refine informing_quiet (calls_call trivial) fun existing => ?_
    simp only [↓Program.throw_seq]
    split
    · exact informing_throw (by simp)
    · exact informing_createRideBody.catching (fun _ _ h => h) fun _ _ h => h

theorem unseen_ensureAccess {r : Ride} {requester : RequestingClient} :
    (ensureRequesterCanAccessRide r requester).Calls Call.Unseen := by
  unfold ensureRequesterCanAccessRide
  cases requester.id with
  | none => trivial
  | some id =>
    rcases requester.role with _ | _ | _
    · trivial
    · simp only
      split <;> trivial
    · simp only
      split <;> trivial

theorem informing_recordTripLocation {requester : RequestingClient} {location : ParticipantLocation} :
    Informing env w₀ caller (fun _ => none) ⟨w₀.view, []⟩ (recordTripLocation rid requester location) := by
  unfold recordTripLocation
  have hthrow {e : ServiceError} : Informing env w₀ caller (fun _ : Unit => none) ⟨w₀.view, []⟩ (.throw e) :=
    informing_throw (by simp)
  have hreturn : Informing env w₀ caller (fun _ : Unit => none) ⟨w₀.view, []⟩ (pure ()) :=
    informs_same (by simp) fun _ ha => by cases ha
  cases requester.id with
  | none => exact hthrow
  | some id =>
    apply informing_opening ⟨_, rfl⟩
    intro r _ _
    simp only [↓Program.throw_seq]
    refine informing_quiet unseen_ensureAccess fun _ => ?_
    split
    · exact hthrow
    split
    · exact hthrow
    rcases requester.role with _ | _ | _
    · exact hthrow
    · exact (passes_recordLocation _ _ _ _).goesOn fun _ => hreturn
    · simp only
      split
      · exact hthrow
      · exact (passes_recordLocation _ _ _ _).goesOn fun _ => hreturn

end Lifecycle

/-- What the participants are sent by a program that takes `w` to `w'`. -/
def sentBetween (w w' : World) : List (Message Participant Id RideView) :=
  (w'.notifications.drop w.notifications.length).map Notification.told

section Steps

variable {env : Environment} {w : World} {caller : Option Participant}

theorem announced_of_run {w' : World} {l : Telling} {o : Except ServiceError (Option Answer)}
    (hview : w'.view = l.views) (hsent : w'.notifications = w.notifications ++ l.sent)
    (h : Informs w.view caller l o) :
    Announced RideView.Concerns w.view w'.view (sentBetween w w' ++ heard caller o) := by
  unfold sentBetween
  rw [hsent, List.drop_left, hview]
  exact h

/-- An informing program that runs alone announces what it changes. -/
theorem announced_run {α : Type} {answer : α → Option Answer} {p : Service α}
    (hp : Informing env w caller answer ⟨w.view, []⟩ p) :
    Announced RideView.Concerns w.view (p.run (handle env) w).2.view
      (sentBetween w (p.run (handle env) w).2 ++ heard caller ((p.run (handle env) w).1.map answer)) := by
  have hstart : (tellingOutline w).pre ⟨w.view, []⟩ w := ⟨rfl, (List.append_nil _).symm⟩
  have hmove (l : Telling) (op : Call) (v : World) (l' : Telling) (hl : (tellingOutline w).pre l v)
      (hm : (tellingOutline w).move l op v l') : (tellingOutline w).pre l' (handle env op v).2 :=
    Discloses.step hm env hl
  obtain ⟨l, hinforms, hview, hsent⟩ := Outline.Follows.run hmove hp hstart
  exact announced_of_run hview hsent hinforms

/-- While a ride can still be cancelled, the candidate row of its driver is not. -/
theorem Booking.Matched.driver_answer {b : Booking} (h : b.Matched)
    (hs : b.status ∈ [ERideStatus.requested, .candidatesComputed, .assigned, .accepted, .enroute]) {d : Id}
    (hd : b.driver = some d) : ∃ s, b.cand d = some s ∧ s ≠ .canceled := by
  unfold Matched at h
  cases hst : b.status with
  | candidatesComputed =>
    rw [hst] at h
    cases hd.symm.trans h.1
  | accepted =>
    rw [hst] at h
    obtain ⟨d', hd', hc, -⟩ := h
    obtain rfl := Option.some.inj (hd.symm.trans hd')
    exact ⟨_, hc, by decide⟩
  | enroute =>
    rw [hst] at h
    obtain ⟨d', hd', hc, -⟩ := h
    obtain rfl := Option.some.inj (hd.symm.trans hd')
    exact ⟨_, hc, by decide⟩
  | requested | assigned => simp [hst] at h
  | tripStarted | completed | canceled | nystart => simp [hst] at hs

theorem view_cancelled {v : World} {ride : Ride} (hf : v.rides.find ride.id = some ride) (reason : Option String)
    (now : Time) : (v.cancelled ride reason now).view = v.view := by
  have hput := view_put (w := v) (m := withCancellation ride reason) (r := ride) hf
  refine hput.trans (Function.update_eq_self_iff.mpr ?_)
  show some ride.view = (v.rides.find ride.id).map Ride.view
  rw [hf]
  rfl

/-- What a cancellation sends is about its ride, and goes to every driver whose row it cancels. -/
theorem cancelled_sent (v : World) (ride : Ride) (reason : Option String) (now : Time) :
    ∃ ns, (v.cancelled ride reason now).notifications = v.notifications ++ ns ∧
      (∀ n ∈ ns, n.rideId = ride.id ∧ n.view = ride.view) ∧
      ∀ c ∈ v.findCandidates ride.id, c.status ≠ .canceled →
        ∃ n ∈ ns, (n.target, n.targetId) = (.driver, c.driverId) := by
  refine ⟨_, rfl, fun n hn => ?_, fun c hc hs => ?_⟩
  · obtain ⟨c, -, rfl⟩ := List.mem_map.mp hn
    exact ⟨rfl, rfl⟩
  · have hrow : canceledRow reason now c = some { c with
        status := .canceled, reason := some (cancellationReason reason), respondedAt := some now } := if_pos hs
    exact ⟨_, List.mem_map_of_mem (List.mem_filterMap.mpr ⟨c, hc, hrow⟩), rfl⟩

/-- A cancellation that does not come to its transition. -/
theorem informing_cancelRide_closed {answering : Option Participant} {rid : Id} {requester : RequestingClient}
    {reason : Option String} {now : Time}
    (hclosed : ∀ v, w.view rid = some v →
      some v.riderId ≠ requester.id ∨ v.status = .completed ∨ v.status = .canceled) :
    Informing env w answering Ride.answer ⟨w.view, []⟩ (cancelRide rid requester reason now) := by
  unfold cancelRide
  apply informing_opening ⟨_, rfl⟩
  intro r _ hv
  simp only [↓Program.throw_seq]
  split
  · exact informing_throw (by simp)
  next hrequester =>
  split
  · exact informing_throw (by simp)
  next hcompleted =>
  split
  · next hr hcanceled =>
    refine informs_same (by simp) fun a ha => ?_
    cases ha
    exact hr ▸ hv
  next hcanceled =>
  obtain hne | hs | hs := hclosed _ hv
  · exact absurd hne hrequester
  · exact absurd hs hcompleted
  · exact absurd hs hcanceled

theorem announced_cancelRide (hm : w.Bookings Booking.Matched) (rid : Id) (requester : RequestingClient)
    (reason : Option String) (now : Time) :
    Announced RideView.Concerns w.view ((cancelRide rid requester reason now).run (handle env) w).2.view
      (sentBetween w ((cancelRide rid requester reason now).run (handle env) w).2 ++
        heard (requester.id.map (.rider, ·))
          (((cancelRide rid requester reason now).run (handle env) w).1.map Ride.answer)) := by
  by_cases hclosed : ∀ v, w.view rid = some v →
      some v.riderId ≠ requester.id ∨ v.status = .completed ∨ v.status = .canceled
  · exact announced_run (informing_cancelRide_closed hclosed)
  obtain ⟨v, hv, hopen⟩ : ∃ v, w.view rid = some v ∧
      ¬ (some v.riderId ≠ requester.id ∨ v.status = .completed ∨ v.status = .canceled) := by simpa using hclosed
  obtain ⟨r, hr, rfl⟩ := Option.map_eq_some_iff.mp hv
  obtain rfl : r.id = rid := Table.key_of_find hr
  obtain ⟨hrequester, hcompleted, hcanceled⟩ : some r.riderId = requester.id ∧ r.status ≠ .completed ∧
      r.status ≠ .canceled := by simpa [Ride.view, not_or] using hopen
  have hstatus : r.status ∉ [ERideStatus.completed, .canceled] := by simp [hcompleted, hcanceled]
  rw [← hrequester]
  by_cases hdue : r.status ∈ [ERideStatus.requested, .candidatesComputed, .assigned, .accepted, .enroute]
  · have htransition := run_transition_due env hr hdue hcanceled (some (cancellationReason reason))
    let ride := withStatus r .canceled (some (cancellationReason reason))
    let moved := w.moved r .canceled (some (cancellationReason reason))
    have hfind : moved.rides.find ride.id = some ride := Table.find_put_self (r := ride) hr
    have hview : moved.view = Function.update w.view r.id (some ride.view) := view_put (w := w) (m := ride) hr
    rw [run_cancelRide env hr hrequester hstatus htransition hfind now]
    obtain ⟨ns, hns, habout, hto⟩ := cancelled_sent moved ride reason now
    refine announced_of_run (l := ⟨_, ns⟩) ((view_cancelled hfind reason now).trans hview) hns
      (informs_changed habout rfl fun p hp => ?_)
    rcases hp with rfl | ⟨d, hd, rfl⟩
    · exact .inl rfl
    · right
      have hbooked : (w.bookingOf r).driver = some d := hd
      obtain ⟨s, hs, hne⟩ := (hm r.id _ (World.booking_of_find hr)).driver_answer hdue hbooked
      obtain ⟨c, hc, rfl⟩ := Option.map_eq_some_iff.mp hs
      obtain ⟨hmem, hride, hdriver⟩ := World.mem_of_findCandidate hc
      obtain ⟨n, hn, hn'⟩ := hto c (Table.mem_select.mpr ⟨hmem, beq_iff_eq.mpr hride⟩) hne
      exact ⟨n, hn, hdriver ▸ hn'⟩
  · have hidle : (transitionRideStatus r.id [.requested, .candidatesComputed, .assigned, .accepted, .enroute]
        .canceled (some (cancellationReason reason))).run (handle env) w = (.ok (r, false), w) :=
      run_transition_idle env hr (.inl hdue) _
    rw [run_cancelRide env hr hrequester hstatus hidle hr now]
    obtain ⟨ns, hns, habout, -⟩ := cancelled_sent w r reason now
    refine announced_of_run (l := ⟨w.view, ns⟩) (view_cancelled hr reason now) hns
      (informs_same (accurate_of_same hv habout) fun a ha => ?_)
    cases ha
    exact hv

variable (env) in
/-- Every operation announces to the participants of its ride what it changes. -/
theorem LifecycleOp.announced (hm : w.Bookings Booking.Matched) (op : LifecycleOp) :
    Announced RideView.Concerns w.view (op.step env w).view (sentBetween w (op.step env w) ++
      heard op.caller ((op.response env).run (handle env) w).1) := by
  have hrun {α : Type} {answer : α → Option Answer} {p : Service α} {caller : Option Participant}
      (hp : Announced RideView.Concerns w.view (p.run (handle env) w).2.view
        (sentBetween w (p.run (handle env) w).2 ++ heard caller ((p.run (handle env) w).1.map answer))) :
      Announced RideView.Concerns w.view ((p >>= fun a => pure (answer a)).run (handle env) w).2.view
        (sentBetween w ((p >>= fun a => pure (answer a)).run (handle env) w).2 ++
          heard caller ((p >>= fun a => pure (answer a)).run (handle env) w).1) := by
    rw [Program.run_bind]
    rcases hpr : p.run (handle env) w with ⟨_ | a, v⟩ <;> rw [hpr] at hp <;> exact hp
  rw [← op.run_response]
  cases op with
  | createRide => exact hrun (announced_run informing_createRide)
  | acceptRideByDriver => exact hrun (announced_run informing_acceptRideByDriver)
  | rejectRideByDriver => exact hrun (announced_run informing_rejectRideByDriver)
  | confirmDriverAcceptance => exact hrun (announced_run informing_confirmDriverAcceptance)
  | rejectDriverAcceptance => exact hrun (announced_run informing_rejectDriverAcceptance)
  | cancelRide => exact hrun (announced_cancelRide hm _ _ _ _)
  | startRide => exact hrun (announced_run informing_startRide)
  | completeRide => exact hrun (announced_run informing_completeRide)
  | recordTripLocation => exact hrun (announced_run informing_recordTripLocation)

end Steps

end NebLite
