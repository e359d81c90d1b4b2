import NebLite.Payment.LedgerRuns
import NebLite.Rides.Effects

/-! A client that sends the same answer or cancellation twice changes nothing
the second time. -/

namespace NebLite

open Atomic

/-- The same request, sent again later. -/
def LifecycleOp.again (later : Time) : LifecycleOp → LifecycleOp
  | acceptRideByDriver rideId driverId _ => .acceptRideByDriver rideId driverId later
  | rejectRideByDriver rideId driverId reason _ => .rejectRideByDriver rideId driverId reason later
  | confirmDriverAcceptance rideId riderId _ => .confirmDriverAcceptance rideId riderId later
  | rejectDriverAcceptance rideId riderId reason _ => .rejectDriverAcceptance rideId riderId reason later
  | cancelRide rideId requester reason _ => .cancelRide rideId requester reason later
  | op => op

/-- The answers of drivers and riders, and the cancellation. -/
def LifecycleOp.Retryable : LifecycleOp → Prop
  | acceptRideByDriver .. | rejectRideByDriver .. | confirmDriverAcceptance ..
  | rejectDriverAcceptance .. | cancelRide .. => True
  | _ => False

namespace Booking

/-- The request has nothing to change any more; it is refused or answered from what is stored. -/
def Idle (b : Booking) : LifecycleOp → Prop
  | .acceptRideByDriver _ d _ => b.status = .canceled ∨ b.status = .completed ∨
      (b.cand d ≠ some .invited ∧ b.cand d ≠ some .accepted) ∨
      (b.cand d = some .accepted ∧ b.driver = some d ∧ (b.status = .accepted ∨ b.status = .enroute))
  | .rejectRideByDriver _ d _ _ => b.status ∈ [ERideStatus.canceled, .completed, .enroute] ∨
      b.cand d = none ∨ b.cand d = some .declined ∨ b.cand d = some .canceled
  | .confirmDriverAcceptance _ rider _ => b.rider ≠ rider ∨
      b.status ∈ [ERideStatus.canceled, .completed, .assigned, .requested, .enroute] ∨
      ∀ d, b.driver = some d → b.cand d ≠ some .accepted
  | .rejectDriverAcceptance _ rider _ _ => b.rider ≠ rider ∨
      b.status ∈ [ERideStatus.canceled, .completed, .enroute, .assigned, .requested] ∨
      ∀ d, b.driver = some d → b.cand d = none
  | .cancelRide _ requester _ _ =>
      some b.rider ≠ requester.id ∨ b.status = .completed ∨ b.status = .canceled
  | _ => False

variable {b : Booking}

theorem idle_accept (hm : b.Matched) (rid d : Id) (later : Time) :
    (b.accept d).Idle (.acceptRideByDriver rid d later) := by
  unfold Booking.accept
  split_ifs with h1 h2 h3 h4
  · rcases h1 with h1 | h1
    · exact .inl h1
    · exact .inr (.inl h1)
  · exact .inr (.inr (.inl h2))
  · exact .inr (.inr (.inr h3))
  · have hc : b.cand d = some .invited ∨ b.cand d = some .accepted := by tauto
    have hst : b.status = .candidatesComputed := hm.claimable h4 hc h1 h3
    have haccepted : (b.claimedBy d).status = .accepted := by
      rw [claimedBy_status, hst]
      rfl
    have hanswer : (b.claimedBy d).cand d = some .accepted := by simp [claimedBy_cand]
    exact .inr (.inr (.inr ⟨hanswer, claimedBy_driver d, .inl haccepted⟩))
  · exact .inr (.inr (.inl (by simp)))

theorem idle_driverReject (rid d : Id) (reason : Option String) (later : Time) :
    (b.driverReject d).Idle (.rejectRideByDriver rid d reason later) := by
  unfold Booking.driverReject
  split_ifs with h1 h2 h3
  · exact .inl (by simpa using h1)
  · exact .inr h2
  · have hanswer : (b.answer d .declined).release.cand d = some .declined := by
      rw [release_cand, answer_self]
    exact .inr (.inr (.inl hanswer))
  · exact .inr (.inr (.inl answer_self))

theorem idle_confirm (rid rider : Id) (later : Time) :
    (b.confirm rider).Idle (.confirmDriverAcceptance rid rider later) := by
  unfold Booking.confirm
  split
  · next hd => exact .inr (.inr fun d he => by simp [hd] at he)
  · next d hd =>
    split_ifs with h1 h2
    · rcases h1 with h1 | h1
      · exact .inl h1
      · exact .inr (.inl h1)
    · refine .inr (.inr fun x hx => ?_)
      have he : x = d := by simpa [hd] using hx.symm
      exact he ▸ h2
    · refine .inr (.inr fun x hx => ?_)
      have he : d = x := by simpa [hd] using hx
      subst he
      unfold confirmedAnswer
      simp

theorem idle_riderReject (rid rider : Id) (reason : Option String) (later : Time) :
    (b.riderReject rider).Idle (.rejectDriverAcceptance rid rider reason later) := by
  unfold Booking.riderReject
  split
  · next hd => exact .inr (.inr fun d he => by simp [hd] at he)
  · next d hd =>
    split_ifs with h1 h2
    · rcases h1 with h1 | h1
      · exact .inl h1
      · exact .inr (.inl h1)
    · refine .inr (.inr fun x hx => ?_)
      have he : x = d := by simpa [hd] using hx.symm
      exact he ▸ h2
    · exact .inr (.inr fun x hx => by simp [release_driver] at hx)

/-- On a started trip the status stays, and a cancellation does not become idle. -/
theorem idle_cancel (hst : b.status ≠ .tripStarted) (hm : b.Matched) (rid : Id) (requester : RequestingClient)
    (reason : Option String) (later : Time) :
    (b.cancel requester.id).Idle (.cancelRide rid requester reason later) := by
  unfold Booking.cancel
  split_ifs with h1
  · exact h1
  · have hcanceled : (b.transition [.requested, .candidatesComputed, .assigned, .accepted, .enroute]
        .canceled).status = .canceled := by
      rw [transition_status]
      unfold Matched at hm
      cases hs : b.status <;> simp_all
    exact .inr (.inr hcanceled)

end Booking

section Rests

variable {env : Environment} {w : World} {rid d : Id} {r : Ride}

theorem rests_missing {α : Type} {f : Option Ride → Service α} (hr : w.rides.find rid = none)
    (hf : Rests env w (f none)) : Rests env w (findById rid >>= f) := by
  unfold Rests
  rw [Program.run_bind_ok _ (run_findById env rid w), hr]
  exact hf

theorem rests_findByRideAndDriver {α : Type} {f : Option RideDriverCandidate → Service α}
    (hf : Rests env w (f (w.findCandidate rid d))) : Rests env w (findByRideAndDriver rid d >>= f) := by
  unfold Rests findByRideAndDriver
  rw [Program.run_bind_ok _ (run_call env _ w)]
  exact hf

theorem rests_unknown {op : LifecycleOp} (hop : op.Retryable) (hride : op.ride = some rid)
    (hr : w.rides.find rid = none) : Rests env w (op.program env) := by
  cases op with
  | acceptRideByDriver | rejectRideByDriver | confirmDriverAcceptance | rejectDriverAcceptance | cancelRide =>
    obtain rfl := Option.some.inj hride
    exact Rests.bind (rests_missing hr rfl) fun _ => rfl
  | _ => exact hop.elim

theorem rests_acceptRideByDriver {now : Time} (hr : w.rides.find r.id = some r)
    (hi : (w.bookingOf r).Idle (.acceptRideByDriver r.id d now)) :
    Rests env w (acceptRideByDriver r.id d now) := by
  have hi : r.status = .canceled ∨ r.status = .completed ∨
      ((w.findCandidate r.id d).map (·.status) ≠ some .invited ∧
        (w.findCandidate r.id d).map (·.status) ≠ some .accepted) ∨
      ((w.findCandidate r.id d).map (·.status) = some .accepted ∧ r.driverId = some d ∧
        (r.status = .accepted ∨ r.status = .enroute)) := hi
  unfold acceptRideByDriver
  apply rests_findById hr
  simp only [↓Program.throw_seq]
  by_cases h1 : r.status = .canceled
  · rw [if_pos h1]
    rfl
  by_cases h2 : r.status = .completed
  · rw [if_neg h1, if_pos h2]
    rfl
  rw [if_neg h1, if_neg h2]
  apply rests_findByRideAndDriver
  cases hc : w.findCandidate r.id d with
  | none => rfl
  | some c =>
    rw [hc] at hi
    simp only [h1, h2, false_or, Option.map_some, ne_eq, Option.some.injEq] at hi ⊢
    by_cases h3 : c.status = .canceled
    · rw [if_pos h3]
      rfl
    by_cases h4 : c.status = .declined
    · rw [if_neg h3, if_pos h4]
      rfl
    have h5 : c.status = .confirmed ∨ (c.status = .accepted ∧ r.driverId = some d ∧
        (r.status = .accepted ∨ r.status = .enroute)) := by
      rcases hi with hi | hi
      · cases hs : c.status <;> simp_all
      · exact .inr hi
    rw [if_neg h3, if_neg h4, if_pos h5]
    rfl

theorem rests_rejectRideByDriver {reason : Option String} {now : Time} (hr : w.rides.find r.id = some r)
    (hi : (w.bookingOf r).Idle (.rejectRideByDriver r.id d reason now)) :
    Rests env w (rejectRideByDriver r.id d reason now) := by
  have hi : r.status ∈ [ERideStatus.canceled, .completed, .enroute] ∨
      (w.findCandidate r.id d).map (·.status) = none ∨
      (w.findCandidate r.id d).map (·.status) = some .declined ∨
      (w.findCandidate r.id d).map (·.status) = some .canceled := hi
  unfold rejectRideByDriver
  apply rests_findById hr
  simp only [↓Program.throw_seq]
  by_cases h1 : r.status = .canceled
  · rw [if_pos h1]
    rfl
  by_cases h2 : r.status = .completed
  · rw [if_neg h1, if_pos h2]
    rfl
  by_cases h3 : r.status = .enroute
  · rw [if_neg h1, if_neg h2, if_pos h3]
    rfl
  rw [if_neg h1, if_neg h2, if_neg h3]
  apply rests_findByRideAndDriver
  cases hc : w.findCandidate r.id d with
  | none => rfl
  | some c =>
    rw [hc] at hi
    have hs : c.status = .declined ∨ c.status = .canceled := by simpa [h1, h2, h3] using hi
    simp only
    rcases hs with hs | hs
    · rw [if_pos hs]
      rfl
    · rw [if_neg (by simp [hs]), if_pos hs]
      rfl

/-- The requests of the rider begin with the rider's own ride and its driver. -/
theorem rests_ownRide {α : Type} {rider : Id} {f : Ride → Id → Service α} {e e' e'' : ServiceError}
    (hr : w.rides.find r.id = some r)
    (hf : ∀ x, r.riderId = rider → r.driverId = some x → Rests env w (f r x)) : Rests env w (do
      let some ride ← findById r.id
        | throw e
      if ride.riderId ≠ rider then
        throw e'
      let some driverId := ride.driverId
        | throw e''
      f ride driverId) := by
  apply rests_findById hr
  by_cases hrider : r.riderId = rider
  · simp only [hrider, ne_eq, not_true_eq_false, if_false]
    cases hd : r.driverId with
    | none => rfl
    | some x => exact hf x hrider hd
  · simp only [ne_eq, hrider, not_false_eq_true, if_true]
    rfl

theorem rests_confirmDriverAcceptance {rider : Id} {now : Time} (hr : w.rides.find r.id = some r)
    (hi : (w.bookingOf r).Idle (.confirmDriverAcceptance r.id rider now)) :
    Rests env w (confirmDriverAcceptance r.id rider now) := by
  have hi : r.riderId ≠ rider ∨
      r.status ∈ [ERideStatus.canceled, .completed, .assigned, .requested, .enroute] ∨
      ∀ x, r.driverId = some x → (w.findCandidate r.id x).map (·.status) ≠ some .accepted := hi
  unfold confirmDriverAcceptance
  refine rests_ownRide hr fun x hrider hd => ?_
  simp only [↓Program.throw_seq]
  by_cases hst : r.status ∈ [ERideStatus.canceled, .completed, .assigned, .requested, .enroute]
  · simp only [List.mem_cons, List.not_mem_nil, or_false] at hst
    rcases hst with hst | hst | hst | hst | hst <;> simp only [hst] <;> rfl
  have hanswer : (w.findCandidate r.id x).map (·.status) ≠ some .accepted := by
    rcases hi with hi | hi | hi
    · exact absurd hrider hi
    · exact absurd hi hst
    · exact hi x hd
  simp only [List.mem_cons, List.not_mem_nil, or_false, not_or] at hst
  simp only [hst, or_self, if_false]
  apply rests_findByRideAndDriver
  cases hc : w.findCandidate r.id x with
  | none => rfl
  | some c =>
    rw [hc] at hanswer
    have hs : c.status ≠ .accepted := by simpa using hanswer
    simp only
    rw [if_pos hs]
    rfl

theorem rests_rejectDriverAcceptance {rider : Id} {reason : Option String} {now : Time}
    (hr : w.rides.find r.id = some r)
    (hi : (w.bookingOf r).Idle (.rejectDriverAcceptance r.id rider reason now)) :
    Rests env w (rejectDriverAcceptance r.id rider reason now) := by
  have hi : r.riderId ≠ rider ∨
      r.status ∈ [ERideStatus.canceled, .completed, .enroute, .assigned, .requested] ∨
      ∀ x, r.driverId = some x → (w.findCandidate r.id x).map (·.status) = none := hi
  unfold rejectDriverAcceptance
  refine rests_ownRide hr fun x hrider hd => ?_
  simp only [↓Program.throw_seq]
  by_cases hst : r.status ∈ [ERideStatus.canceled, .completed, .enroute, .assigned, .requested]
  · simp only [List.mem_cons, List.not_mem_nil, or_false] at hst
    rcases hst with hst | hst | hst | hst | hst <;> simp only [hst] <;> rfl
  have hanswer : (w.findCandidate r.id x).map (·.status) = none := by
    rcases hi with hi | hi | hi
    · exact absurd hrider hi
    · exact absurd hi hst
    · exact hi x hd
  simp only [List.mem_cons, List.not_mem_nil, or_false, not_or] at hst
  simp only [hst, or_self, if_false]
  apply rests_findByRideAndDriver
  rw [Option.map_eq_none_iff.mp hanswer]
  rfl

theorem rests_cancelRide {requester : RequestingClient} {reason : Option String} {now : Time}
    (hr : w.rides.find r.id = some r)
    (hi : (w.bookingOf r).Idle (.cancelRide r.id requester reason now)) :
    Rests env w (cancelRide r.id requester reason now) := by
  have hi : some r.riderId ≠ requester.id ∨ r.status = .completed ∨ r.status = .canceled := hi
  unfold cancelRide
  apply rests_findById hr
  simp only [↓Program.throw_seq]
  by_cases h1 : some r.riderId = requester.id
  swap
  · rw [if_pos h1]
    rfl
  rw [if_neg (not_not.mpr h1)]
  by_cases h2 : r.status = .completed
  · rw [if_pos h2]
    rfl
  have h3 : r.status = .canceled := by simpa [h1, h2] using hi
  rw [if_neg h2, if_pos h3]
  rfl

theorem rests_idle {op : LifecycleOp} (hride : op.ride = some r.id) (hr : w.rides.find r.id = some r)
    (hi : (w.bookingOf r).Idle op) : Rests env w (op.program env) := by
  cases op with
  | acceptRideByDriver =>
    obtain rfl := Option.some.inj hride
    exact (rests_acceptRideByDriver hr hi).bind fun _ => rfl
  | rejectRideByDriver =>
    obtain rfl := Option.some.inj hride
    exact (rests_rejectRideByDriver hr hi).bind fun _ => rfl
  | confirmDriverAcceptance =>
    obtain rfl := Option.some.inj hride
    exact (rests_confirmDriverAcceptance hr hi).bind fun _ => rfl
  | rejectDriverAcceptance =>
    obtain rfl := Option.some.inj hride
    exact (rests_rejectDriverAcceptance hr hi).bind fun _ => rfl
  | cancelRide =>
    obtain rfl := Option.some.inj hride
    exact (rests_cancelRide hr hi).bind fun _ => rfl
  | _ => exact hi.elim

end Rests

section Started

/-! A cancellation of a started trip, which writes the ride and the candidates
but no status. -/

variable {env : Environment} {w : World} {r : Ride} {requester : RequestingClient} {reason : Option String}

variable (env reason) in
theorem run_cancelRide_started (hr : w.rides.find r.id = some r) (hst : r.status = .tripStarted)
    (hreq : some r.riderId = requester.id) (now : Time) :
    ∃ ns, ((cancelRide r.id requester reason now).run (handle env) w).2 =
        { w with
          rides := w.rides.put (r.rewrite (withCancellation r reason))
          candidates := w.candidates.putAll ((w.findCandidates r.id).filterMap (canceledRow reason now))
          notifications := ns } ∧
      ((w.findCandidates r.id).filterMap (canceledRow reason now) = [] → ns = w.notifications) := by
  have hidle : r.status ∉ [ERideStatus.requested, .candidatesComputed, .assigned, .accepted, .enroute] := by
    simp [hst]
  have hrun := run_cancelRide env hr hreq (by simp [hst])
    (run_transition_idle env hr (.inl hidle) (some (cancellationReason reason))) hr now
  refine ⟨(w.cancelled r reason now).notifications, ?_, fun hnone => ?_⟩
  · rw [hrun, rewrite_withCancellation]
    rfl
  · unfold World.cancelled
    rw [hnone]
    exact List.append_nil w.notifications

theorem withCancellation_again (r : Ride) (reason : Option String) :
    withCancellation (withCancellation r reason) reason = withCancellation r reason := by
  unfold withCancellation
  by_cases h : truthy reason <;> simp [h]

/-- Once every candidate is canceled, none is rewritten. -/
theorem canceledRows_none {w v : World} (now later : Time)
    (hv : v.candidates = w.candidates.putAll ((w.findCandidates r.id).filterMap (canceledRow reason now))) :
    (v.findCandidates r.id).filterMap (canceledRow reason later) = [] := by
  have hkey (c n) (h : canceledRow reason now c = some n) : Keyed.key n = Keyed.key c :=
    (canceledRow_keeps reason now c n h).1
  have hrows : v.candidates.rows =
      w.candidates.rows.map fun c => if c.rideId == r.id then (canceledRow reason now c).getD c else c := by
    rw [hv]
    exact Table.putAll_select hkey w.candidates (Table.nodup_select_filterMap hkey w.candidates)
  apply List.filterMap_eq_nil_iff.mpr
  intro c hc
  obtain ⟨hmem, hride⟩ := mem_findCandidates.mp hc
  rw [hrows] at hmem
  obtain ⟨x, -, hx⟩ := List.mem_map.mp hmem
  have hcanceled : c.status = .canceled := by
    by_cases hown : x.rideId = r.id
    · rw [← hx, if_pos (by simpa using hown)]
      exact canceledRow_status reason now x
    · rw [if_neg (by simpa using hown)] at hx
      exact absurd (hx ▸ hride) hown
  unfold canceledRow
  rw [if_neg (not_not.mpr hcanceled)]

theorem cancelRide_started_again (hr : w.rides.find r.id = some r) (hst : r.status = .tripStarted)
    (hreq : some r.riderId = requester.id) (now later : Time) {v : World}
    (hv : ((cancelRide r.id requester reason now).run (handle env) w).2 = v) :
    ((cancelRide r.id requester reason later).run (handle env) v).2 = v := by
  obtain ⟨ns, hrun, -⟩ := run_cancelRide_started env reason hr hst hreq now
  have hcandidates : v.candidates =
      w.candidates.putAll ((w.findCandidates r.id).filterMap (canceledRow reason now)) := by
    rw [← hv, hrun]
  have hrides : v.rides = w.rides.put (withCancellation r reason) := by
    rw [← hv, hrun, rewrite_withCancellation]
  have hfound : v.rides.find r.id = some (withCancellation r reason) := by
    rw [hrides]
    exact Table.find_put_self (r := withCancellation r reason) hr
  obtain ⟨ms, hagain, hquiet⟩ := run_cancelRide_started env reason (r := withCancellation r reason) hfound hst hreq later
  have hnone := canceledRows_none (v := v) now later hcandidates
  have hput : v.rides.put (withCancellation r reason) = v.rides := Table.put_stored hfound
  have hid : (withCancellation r reason).id = r.id := rfl
  have hsame : (withCancellation r reason).rewrite (withCancellation (withCancellation r reason) reason) =
      withCancellation r reason :=
    (rewrite_withCancellation (withCancellation r reason) reason).trans (withCancellation_again r reason)
  rw [hsame, hput, hid, hnone] at hagain
  rw [hid] at hquiet
  have hms : ms = v.notifications := hquiet hnone
  rw [hagain, hms]
  rfl

end Started

section Reach

variable {env : Environment} {w v : World}

/-- A call of an operation keeps the ride of every candidate. -/
theorem referenced_handle {lop : LifecycleOp} {t : Trail} {op : Call} (htends : lop.Tends t op)
    (hf : t.Fits w) (hw : w.Referenced) : (handle env op w).2.Referenced := by
  have hput (x : Ride) (k : Id) (h : w.rides.find k ≠ none) : (w.rides.put x).find k ≠ none := by
    cases hx : w.rides.find x.id with
    | none =>
      have hne : k ≠ x.id := by
        rintro rfl
        exact h hx
      rwa [Table.find_put_ne hne]
    | some y =>
      rw [Table.find_put (r := x) hx]
      split
      · simp
      · exact h
  have hattends (hop : ∀ k, lop.ride.getD k = k → op.Attends k) : (handle env op w).2.Referenced := by
    obtain ⟨k, ha⟩ := LifecycleOp.attends_some hop
    obtain ⟨hrides, hcandidates⟩ := ha.outside.apart.tables env w
    unfold World.Referenced
    rw [hrides, hcandidates]
    exact hw
  cases op with
  | saveCandidate n =>
    obtain ⟨-, -, c, hc, hid, hride, -⟩ := htends
    obtain ⟨x, hx, hxr, -⟩ := hf.rows c hc
    have hstored : w.candidates.find n.id = some x := hid ▸ hx
    simp only [handle, World.saveCandidate, hstored]
    intro y hy
    rcases Table.mem_put.mp hy with ⟨rfl, -⟩ | ⟨hy, -⟩
    · have hsame : n.rideId = x.rideId := hride.trans hxr.symm
      simp only [hsame]
      exact hw x (Table.find_some.mp hx).1
    · exact hw y hy
  | insertRide options =>
    rcases hi : w.insertRide options with ⟨e | created, u⟩
    · simp only [handle, hi, insertRide_refused hi]
      exact hw
    · simp only [handle, hi]
      exact insertRide_referenced hw hi
  | updateRideRow m =>
    simp only [handle, World.updateRideRow]
    split
    · exact hw
    · exact fun c hc => hput _ _ (hw c hc)
  | claimDriver rideId d =>
    simp only [handle, World.claimDriver]
    split
    · exact hw
    split
    · exact hw
    · exact fun c hc => hput _ _ (hw c hc)
  | saveHistory | findRide | findCandidate | findCandidates | findUnfinishedRide | requestRoute
  | nearbyDrivers => exact hw
  | _ => exact hattends htends

theorem referenced_step (env : Environment) (op : LifecycleOp) (hw : w.Referenced) :
    (op.step env w).Referenced := by
  have hstart : Trail.empty.Fits w ∧ w.Referenced := ⟨Trail.fits_empty w, hw⟩
  have hmove (t : Trail) (c : Call) (u : World) (t' : Trail) (hu : t.Fits u ∧ u.Referenced)
      (hm : (trailOutline env op.Tends).move t c u t') :
      t'.Fits (handle env c u).2 ∧ (handle env c u).2.Referenced := by
    obtain ⟨rfl, htends⟩ := hm
    have hrop : (RideOp.lifecycle op).Tends t c := htends
    exact ⟨hu.1.reads (keeps_handle env (hrop.identifies hu.1)) (Trail.reads env u t c),
      referenced_handle htends hu.1 hu.2⟩
  obtain ⟨-, -, -, hend⟩ := (op.trails env).run_keeps (fun _ _ _ => trivial) hmove hstart
  exact hend

end Reach

section Harmless

variable {env : Environment} {w : World}

/-- What every state of a run satisfies, whichever drivers were found near. -/
structure World.Answered (w : World) : Prop where
  referenced : w.Referenced
  matched : w.Bookings Booking.Matched

theorem World.answered_initial (whitelist : List String) : (World.initial whitelist).Answered where
  referenced c hc := by simp [World.initial, Table.empty] at hc
  matched := (World.atRest_initial whitelist).matched

theorem World.Answered.step (h : w.Answered) (op : LifecycleOp) : (op.step env w).Answered := by
  refine ⟨referenced_step env op h.referenced, ?_⟩
  cases hride : op.ride with
  | some rid =>
    obtain ⟨arrived, hb⟩ := op.step_becomes env w hride
    refine hb.bookings h.matched fun b hb' => ?_
    obtain ⟨b', hfound, rfl⟩ := Option.map_eq_some_iff.mp hb'
    exact (h.matched rid b' hfound).effect arrived op
  | none =>
    cases op with
    | createRide riderId payload now =>
      rw [LifecycleOp.step, LifecycleOp.program, run_discard]
      rcases createRide_books env h.referenced riderId payload now with hs | ⟨b, hb, -, hs⟩
      · intro k x hx
        rw [World.booking_congr hs.1 hs.2] at hx
        exact h.matched k x hx
      · intro k x hx
        by_cases hk : k = w.rides.nextKey
        · rw [hk, hs.booked] at hx
          exact Option.some.inj hx ▸ hb.matched
        · rw [hs.others k hk] at hx
          exact h.matched k x hx
    | _ => cases hride

theorem World.Answered.after (h : w.Answered) (ops : List LifecycleOp) : (w.after env ops).Answered :=
  Runs.invariant (fun _ op hs _ => hs.step op) h (Runs.meets_true w ops)

/-- A request that is not the cancellation of a started trip has nothing to change
once it has been served. -/
theorem idle_again {b : Booking} (hm : b.Matched) {op : LifecycleOp} (hop : op.Retryable)
    (hst : b.status = .tripStarted → ∀ rid requester reason now, op ≠ .cancelRide rid requester reason now)
    (arrived : Bool) (later : Time) : (op.effect arrived b).Idle (op.again later) := by
  cases op with
  | acceptRideByDriver rid d => exact Booking.idle_accept hm rid d later
  | rejectRideByDriver rid d reason => exact Booking.idle_driverReject rid d reason later
  | confirmDriverAcceptance rid rider => exact Booking.idle_confirm rid rider later
  | rejectDriverAcceptance rid rider reason => exact Booking.idle_riderReject rid rider reason later
  | cancelRide rid requester reason now =>
    have hnot : b.status ≠ .tripStarted := fun he => hst he rid requester reason now rfl
    exact Booking.idle_cancel hnot hm rid requester reason later
  | _ => exact hop.elim

/-- The second request leaves the store exactly as it finds it. -/
theorem again_rests (h : w.Answered) {op : LifecycleOp} (hop : op.Retryable) (later : Time) :
    (op.again later).step env (op.step env w) = op.step env w := by
  obtain ⟨rid, hride⟩ : ∃ rid, op.ride = some rid := by
    cases op <;> first | exact ⟨_, rfl⟩ | exact hop.elim
  have hagain : (op.again later).Retryable ∧ (op.again later).ride = some rid := by
    cases op <;> exact ⟨hop, hride⟩
  obtain ⟨arrived, hb⟩ := op.step_becomes env w hride
  cases hw : w.booking rid with
  | none =>
    have hfirst : op.step env w = w := rests_unknown hop hride (World.booking_none.mp hw)
    rw [hfirst]
    exact rests_unknown hagain.1 hagain.2 (World.booking_none.mp hw)
  | some b =>
    have hm := h.matched rid b hw
    have hbooked : (op.step env w).booking rid = some (op.effect arrived b) := by rw [hb.booked, hw]; rfl
    obtain ⟨r, hr, hrb⟩ := Option.map_eq_some_iff.mp hbooked
    have hid : r.id = rid := Table.key_of_find hr
    subst hid
    by_cases hcancel : b.status = .tripStarted ∧ ∃ requester reason now, op = .cancelRide r.id requester reason now
    · obtain ⟨hst, requester, reason, now, rfl⟩ := hcancel
      obtain ⟨x, hx, rfl⟩ := Option.map_eq_some_iff.mp hw
      have hxid : x.id = r.id := Table.key_of_find hx
      have hstep (later : Time) (v : World) : (LifecycleOp.cancelRide r.id requester reason later).step env v =
          ((cancelRide r.id requester reason later).run (handle env) v).2 := run_discard _ v
      by_cases hreq : some x.riderId = requester.id
      · rw [← hxid] at hx hstep ⊢
        have hfirst := (hstep now w).symm
        exact (hstep later _).trans (cancelRide_started_again hx hst hreq now later hfirst)
      · rw [← hxid] at hx hstep ⊢
        have hidle (t : Time) : (w.bookingOf x).Idle (.cancelRide x.id requester reason t) := .inl hreq
        have hrests (t : Time) : ((cancelRide x.id requester reason t).run (handle env) w).2 = w :=
          rests_cancelRide hx (hidle t)
        have hfirst : (LifecycleOp.cancelRide x.id requester reason now).step env w = w :=
          (hstep now w).trans (hrests now)
        rw [hfirst]
        exact (hstep later w).trans (hrests later)
    · have hidle : ((op.step env w).bookingOf r).Idle (op.again later) := by
        rw [hrb]
        apply idle_again hm hop
        rintro hst rid' requester reason now rfl
        obtain rfl := Option.some.inj hride
        exact hcancel ⟨hst, requester, reason, now, rfl⟩
      exact rests_idle hagain.2 hr hidle

/-- In every state that a run of operations reaches, a driver's or a rider's answer or a
cancellation that is sent a second time changes no ride, no candidate and no history, and
notifies nobody. -/
theorem retries_harmless (env : Environment) (whitelist : List String) (ops : List LifecycleOp)
    (op : LifecycleOp) (hop : op.Retryable) (later : Time) :
    let once := op.step env ((World.initial whitelist).after env ops)
    let twice := (op.again later).step env once
    twice.rides = once.rides ∧ twice.candidates = once.candidates ∧ twice.history = once.history ∧
      twice.notifications = once.notifications := by
  intro once twice
  have h : twice = once := again_rests ((World.answered_initial whitelist).after ops) hop later
  rw [h]
  exact ⟨rfl, rfl, rfl, rfl⟩

/-- Driver 8 accepts the ride that driver 7 has, is superseded, and asks once more. -/
theorem retries_harmless_superseded :
    let once := (LifecycleOp.acceptRideByDriver 1 8 2).step (.around [7, 8])
      ((World.initial []).after (.around [7, 8]) acceptedRun)
    let twice := (LifecycleOp.acceptRideByDriver 1 8 3).step (.around [7, 8]) once
    twice.rides = once.rides ∧ twice.candidates = once.candidates ∧ twice.history = once.history ∧
      twice.notifications = once.notifications :=
  retries_harmless (.around [7, 8]) [] acceptedRun (.acceptRideByDriver 1 8 2) trivial 3

end Harmless

end NebLite
