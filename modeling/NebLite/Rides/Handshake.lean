import NebLite.Rides.DeadEnds
import NebLite.Rides.Geofence
import NebLite.Rides.HistoryLog

/-! Whether a completed ride has been confirmed by its rider. A confirmed ride never goes
back to ACCEPTED, so a completion from there stands alone. -/

namespace NebLite

open Atomic

namespace Booking

variable {b : Booking}

/-- The ride is under way, or at its end. -/
def Underway (b : Booking) : Prop :=
  b.status = .enroute ∨ b.status = .tripStarted ∨ b.status = .completed ∨ b.status = .canceled

/-- Driver and rider are bound to each other. -/
def Engaged (b : Booking) : Prop :=
  b.status = .enroute ∨ b.status = .completed ∨ b.status = .tripStarted ∧ b.driver ≠ none

theorem Underway.transition (h : b.Underway) {allowed : List ERideStatus} {next : ERideStatus}
    (hn : next = .enroute ∨ next = .tripStarted ∨ next = .completed ∨ next = .canceled ∨
      b.status ∉ allowed) : (b.transition allowed next).Underway := by
  unfold Underway
  rw [transition_status]
  split
  · next ha =>
    rcases hn with hn | hn | hn | hn | hn
    · exact .inl hn
    · exact .inr (.inl hn)
    · exact .inr (.inr (.inl hn))
    · exact .inr (.inr (.inr hn))
    · exact absurd ha hn
  · exact h

theorem Underway.release (h : b.Underway) : b.release.Underway := by
  have hd : ({ b with driver := none } : Booking).Underway := h
  refine hd.transition (.inr (.inr (.inr (.inr ?_))))
  rcases h with h | h | h | h <;> simp [h]

/-- A ride that is under way never leaves that part of its life. -/
theorem Underway.effect (h : b.Underway) (arrived : Bool) (op : LifecycleOp) :
    (op.effect arrived b).Underway := by
  cases op with
  | createRide | recordTripLocation => exact h
  | acceptRideByDriver _ d =>
    simp only [LifecycleOp.effect, accept]
    split_ifs
    · exact h
    · exact h
    · exact h
    · have hd : ({ b with driver := some d }.answer d .accepted).Underway := h
      have h1 : (({ b with driver := some d }.answer d .accepted).transition
          [.requested, .candidatesComputed] .assigned).Underway :=
        hd.transition (.inr (.inr (.inr (.inr (by rcases h with h | h | h | h <;> simp [h])))))
      refine h1.transition (.inr (.inr (.inr (.inr ?_))))
      rcases h1 with h1 | h1 | h1 | h1 <;> simp [h1]
    · exact h
  | rejectRideByDriver _ d =>
    simp only [LifecycleOp.effect, driverReject]
    split_ifs
    · exact h
    · exact h
    · exact Underway.release (b := b.answer d .declined) h
    · exact h
  | confirmDriverAcceptance _ rider =>
    simp only [LifecycleOp.effect, confirm]
    split
    · exact h
    · split_ifs
      · exact h
      · exact h
      · exact h.transition (.inl rfl)
  | rejectDriverAcceptance _ rider =>
    simp only [LifecycleOp.effect, riderReject]
    split
    · exact h
    · next d _ =>
      split_ifs
      · exact h
      · exact h
      · exact Underway.release (b := b.answer d .canceled) h
  | cancelRide _ requester =>
    simp only [LifecycleOp.effect, cancel]
    split_ifs
    · exact h
    · exact h.transition (.inr (.inr (.inr (.inl rfl))))
  | startRide _ d =>
    simp only [LifecycleOp.effect, start]
    split_ifs
    · exact h.transition (.inr (.inl rfl))
    · exact h
  | completeRide _ requester =>
    simp only [LifecycleOp.effect, complete]
    split_ifs
    · exact h.transition (.inr (.inr (.inl rfl)))
    · exact h

theorem engaged_accept (hm : b.Matched) {d : Id} (h : (b.accept d).Engaged) : b.accept d = b := by
  have hopen (hc : ¬ (b.cand d ≠ some .invited ∧ b.cand d ≠ some .accepted)) :
      b.status ≠ .enroute ∧ b.status ≠ .tripStarted := by
    constructor
    · intro hst
      simp only [Matched, hst] at hm
      obtain ⟨e, -, he, hother⟩ := hm
      by_cases hd : d = e
      · subst hd
        simp [he] at hc
      · have hx := hother d hd
        tauto
    · intro hst
      simp only [Matched, hst] at hm
      exact hc (hm d)
  unfold accept at h ⊢
  split_ifs at h ⊢ with h1 h2 h3 h4
  · rfl
  · rfl
  · rfl
  · obtain ⟨he, hs⟩ := hopen h2
    exfalso
    rcases h with h | h | ⟨h, -⟩
    all_goals
      rw [claimedBy_status] at h
      split_ifs at h
      simp_all
  · obtain ⟨he, hs⟩ := hopen h2
    rcases h with h | h | ⟨h, -⟩
    · exact absurd h he
    · exact absurd (.inr h) h1
    · exact absurd h hs

theorem engaged_release (hs : b.status ≠ .enroute) (hc : b.status ≠ .completed) : ¬ b.release.Engaged := by
  have hst := release_status (b := b)
  rintro (h | h | ⟨-, h⟩)
  · rw [hst] at h
    split_ifs at h
    exact hs h
  · rw [hst] at h
    split_ifs at h
    exact hc h
  · exact h release_driver

theorem engaged_driverReject {d : Id} (h : (b.driverReject d).Engaged) :
    b.Engaged ∧ (b.driverReject d).driver = b.driver := by
  unfold driverReject at h ⊢
  split_ifs at h ⊢ with h1 h2 h3
  · exact ⟨h, rfl⟩
  · exact ⟨h, rfl⟩
  · refine absurd h (engaged_release ?_ ?_)
    · exact fun he => h1 (.inr (.inr he))
    · exact fun he => h1 (.inr (.inl he))
  · exact ⟨h, rfl⟩

theorem engaged_riderReject {rider : Id} (h : (b.riderReject rider).Engaged) :
    b.Engaged ∧ (b.riderReject rider).driver = b.driver := by
  unfold riderReject at h ⊢
  split at h
  · exact ⟨h, rfl⟩
  · split_ifs at h ⊢ with h1 h2
    · exact ⟨h, rfl⟩
    · exact ⟨h, rfl⟩
    · refine absurd h (engaged_release ?_ ?_)
      · exact fun he => h1 (.inr (by simp [show b.status = .enroute from he]))
      · exact fun he => h1 (.inr (by simp [show b.status = .completed from he]))

/-- A confirmation that changes something is the rider's, of a ride that a driver has accepted. -/
theorem engaged_confirm (hm : b.Matched) {rider : Id} (h : (b.confirm rider).Engaged) :
    b.Engaged ∧ (b.confirm rider).driver = b.driver ∨
      b.status = .accepted ∧ b.rider = rider ∧ (b.confirm rider).driver = b.driver ∧
        (b.confirm rider).status = .enroute := by
  unfold confirm at h ⊢
  split at h
  · exact .inl ⟨h, rfl⟩
  · next d hd =>
    split_ifs at h ⊢ with h1 h2
    · exact .inl ⟨h, rfl⟩
    · exact .inl ⟨h, rfl⟩
    · have hst : b.status = .accepted := by
        cases hs : b.status <;> simp_all [Matched]
      obtain ⟨hrider, -⟩ := not_or.mp h1
      refine .inr ⟨hst, not_not.mp hrider, transition_driver _ _ _, ?_⟩
      rw [transition_status, hst]
      rfl

theorem engaged_cancel {requester : Option Id} (h : (b.cancel requester).Engaged) :
    b.Engaged ∧ (b.cancel requester).driver = b.driver := by
  unfold cancel at h ⊢
  split_ifs at h ⊢ with h1
  · exact ⟨h, rfl⟩
  · refine ⟨?_, transition_driver _ _ _⟩
    rcases h with h | h | ⟨h, hd⟩
    all_goals
      simp only [transition_status] at h
      split_ifs at h
    · exact .inl h
    · exact .inr (.inl h)
    · exact .inr (.inr ⟨h, by simpa using hd⟩)

theorem engaged_start {d : Option Id} {arrived : Bool} (h : (b.start d arrived).Engaged) :
    b.Engaged ∧ (b.start d arrived).driver = b.driver := by
  refine ⟨?_, start_driver _ _ _⟩
  rcases h with h | h | ⟨h, hd⟩
  · unfold start at h
    split_ifs at h
    · rw [transition_status] at h
      split_ifs at h
      exact .inl h
    · exact .inl h
  · unfold start at h
    split_ifs at h
    · rw [transition_status] at h
      split_ifs at h
      exact .inr (.inl h)
    · exact .inr (.inl h)
  · rw [start_driver] at hd
    rcases started_of_start h with hs | hs
    · exact .inr (.inr ⟨hs, hd⟩)
    · exact .inl hs

/-- A completion leaves the ride to the driver who asked for it. -/
theorem complete_cases (d : Option Id) (arrived : Bool) :
    b.complete d arrived = b ∨ d.isSome ∧ b.driver = d ∧ b.complete d arrived = { b with status := .completed } ∧
      b.status ∈ [ERideStatus.enroute, .accepted, .assigned, .tripStarted] := by
  unfold complete transition
  split_ifs with h1 h2
  · exact .inr ⟨h1.2.1, h1.2.2, rfl, h2⟩
  · exact .inl rfl
  · exact .inl rfl

theorem completed_of_transition {allowed : List ERideStatus} {next : ERideStatus} (hn : next ≠ .completed)
    (h : (b.transition allowed next).status = .completed) : b.status = .completed := by
  rw [transition_status] at h
  split_ifs at h
  · exact absurd h hn
  · exact h

theorem completed_of_release (h : b.release.status = .completed) : b.status = .completed := by
  rw [release_status] at h
  split_ifs at h
  exact h

/-- Only a completion by its driver completes a ride. -/
theorem completed_of_effect {arrived : Bool} {op : LifecycleOp} {rid : Id} (hop : op.ride = some rid)
    (h : (op.effect arrived b).status = .completed) : b.status = .completed ∨
      ∃ requester location discount, op = .completeRide rid requester location discount ∧
        requester.id = b.driver := by
  cases op with
  | createRide => cases hop
  | recordTripLocation => exact .inl h
  | acceptRideByDriver _ d =>
    simp only [LifecycleOp.effect, accept] at h
    split_ifs at h
    · exact .inl h
    · exact .inl h
    · exact .inl h
    · rw [claimedBy_status] at h
      split_ifs at h
      exact .inl h
    · exact .inl h
  | rejectRideByDriver _ d =>
    simp only [LifecycleOp.effect, driverReject] at h
    split_ifs at h
    · exact .inl h
    · exact .inl h
    · exact .inl (completed_of_release (b := b.answer d .declined) h)
    · exact .inl h
  | confirmDriverAcceptance _ rider =>
    simp only [LifecycleOp.effect, confirm] at h
    split at h
    · exact .inl h
    · split_ifs at h
      · exact .inl h
      · exact .inl h
      · exact .inl (completed_of_transition (by simp) h)
  | rejectDriverAcceptance _ rider =>
    simp only [LifecycleOp.effect, riderReject] at h
    split at h
    · exact .inl h
    · next d _ =>
      split_ifs at h
      · exact .inl h
      · exact .inl h
      · exact .inl (completed_of_release (b := b.answer d .canceled) h)
  | cancelRide _ requester =>
    simp only [LifecycleOp.effect, cancel] at h
    split_ifs at h
    · exact .inl h
    · exact .inl (completed_of_transition (by simp) h)
  | startRide _ d =>
    simp only [LifecycleOp.effect, start] at h
    split_ifs at h
    · exact .inl (completed_of_transition (by simp) h)
    · exact .inl h
  | completeRide k requester location discount =>
    obtain rfl : k = rid := Option.some.inj hop
    rcases complete_cases (b := b) requester.id arrived with he | ⟨-, hd, -⟩
    · simp only [LifecycleOp.effect, he] at h
      exact .inl h
    · exact .inr ⟨requester, location, discount, rfl, hd.symm⟩

/-- How an operation leads to a ride whose parties are bound: they were so before, its rider
confirms it, or it is completed without that. -/
theorem engaged_effect (hm : b.Matched) (arrived : Bool) (op : LifecycleOp)
    (h : (op.effect arrived b).Engaged) :
    (b.Engaged ∧ (op.effect arrived b).driver = b.driver) ∨
      (b.status = .accepted ∧ (op.effect arrived b).driver = b.driver ∧
        (op.effect arrived b).status = .enroute ∧
        ∃ rid now, op = .confirmDriverAcceptance rid b.rider now) ∨
      ((b.status = .accepted ∨ b.status = .assigned) ∧ (op.effect arrived b).status = .completed ∧
        ∃ rid requester location discount, op = .completeRide rid requester location discount) := by
  cases op with
  | createRide | recordTripLocation => exact .inl ⟨h, rfl⟩
  | acceptRideByDriver _ d =>
    have he : b.accept d = b := engaged_accept hm h
    simp only [LifecycleOp.effect] at h ⊢
    rw [he] at h ⊢
    exact .inl ⟨h, rfl⟩
  | rejectRideByDriver _ d => exact .inl (engaged_driverReject h)
  | rejectDriverAcceptance _ rider => exact .inl (engaged_riderReject h)
  | cancelRide _ requester => exact .inl (engaged_cancel h)
  | startRide _ d => exact .inl (engaged_start h)
  | confirmDriverAcceptance rid rider now =>
    rcases engaged_confirm hm h with he | ⟨hs, rfl, hd, he⟩
    · exact .inl he
    · exact .inr (.inl ⟨hs, hd, he, rid, now, rfl⟩)
  | completeRide rid requester location discount =>
    simp only [LifecycleOp.effect] at h ⊢
    rcases complete_cases (b := b) requester.id arrived with he | ⟨hsome, hd, he, hs⟩
    · rw [he] at h ⊢
      exact .inl ⟨h, rfl⟩
    · rw [he]
      have hne : b.driver ≠ none := by
        rw [hd]
        exact Option.isSome_iff_ne_none.mp hsome
      simp only [List.mem_cons, List.not_mem_nil, or_false] at hs
      rcases hs with hs | hs | hs | hs
      · exact .inl ⟨.inl hs, rfl⟩
      · exact .inr (.inr ⟨.inl hs, rfl, rid, requester, location, discount, rfl⟩)
      · exact .inr (.inr ⟨.inr hs, rfl, rid, requester, location, discount, rfl⟩)
      · exact .inl ⟨.inr (.inr ⟨hs, hne⟩), rfl⟩

end Booking

/-- The entry that a confirmation writes. -/
def confirmation (rid : Id) : RideStatusHistory :=
  ⟨rid, some .accepted, .enroute, some "Rider accepted driver confirmation"⟩

variable {env : Environment} {w : World}

/-- A transition that changes the status writes one entry. -/
theorem transition_history (env : Environment) {rid : Id} {r : Ride} (hr : w.rides.find rid = some r)
    {allowed : List ERideStatus} {next : ERideStatus} (ha : r.status ∈ allowed) (hn : r.status ≠ next)
    (context : Option String) :
    ∃ p v, (transitionRideStatus rid allowed next context).run (handle env) w = (.ok (p, true), v) ∧
      v.history = w.history ++ [⟨rid, some r.status, next, context⟩] := by
  have hid : r.id = rid := Table.key_of_find hr
  have hm : (withStatus r next context).id = rid := hid
  unfold transitionRideStatus
  rw [Program.run_bind_ok _ (run_findById env rid w)]
  simp only [hr, ha, hn, not_true_eq_false, if_false]
  rw [Program.run_bind_ok _ (run_updateRide env (m := withStatus r next context) (hm ▸ hr))]
  simp only [recordStatusChange]
  rw [Program.run_bind_ok _ (run_call env _ _)]
  refine ⟨_, _, rfl, ?_⟩
  simp only [rewrite_id, hid]

theorem run_unrecorded {α : Type} {p : Service α} (hp : p.Calls Call.Unrecorded) (v : World) :
    (p.run (handle env) v).2.history = v.history :=
  hp.keeps (R := fun s t : World => t.history = s.history) (fun _ => rfl)
    (fun _ _ _ h h' => h'.trans h) (fun _ hq w => (hq.tables env w).2) v

/-- A confirmation of an accepted ride by its rider writes its entry, and no other. -/
theorem confirm_history (env : Environment) {rid rider d : Id} {r : Ride} {c : RideDriverCandidate}
    (hr : w.rides.find rid = some r) (hrider : r.riderId = rider) (hd : r.driverId = some d)
    (hs : r.status = .accepted) (hc : w.findCandidate rid d = some c) (hcs : c.status = .accepted)
    (now : Time) :
    ((confirmDriverAcceptance rid rider now).run (handle env) w).2.history =
      w.history ++ [confirmation rid] := by
  have hid : r.id = rid := Table.key_of_find hr
  have hallowed : r.status ∈ [ERideStatus.accepted] := by simp [hs]
  have hchanges : r.status ≠ .enroute := by simp [hs]
  obtain ⟨p, v, hrun, hv⟩ := transition_history env hr hallowed hchanges
    (some "Rider accepted driver confirmation")
  have hfound := run_findById env rid w
  have hcand := run_call env (.findCandidate rid d) w
  rw [hr] at hfound
  rw [handle, hc] at hcand
  unfold confirmDriverAcceptance findByRideAndDriver
  rw [Program.run_bind_ok _ hfound]
  simp only [hrider, hd, hs, hid, ne_eq, not_true_eq_false, if_false, reduceCtorEq, or_self]
  rw [Program.run_bind_ok _ hcand]
  simp only [hcs, not_true_eq_false, if_false]
  rw [Program.run_bind_ok _ hrun]
  rw [run_unrecorded, hv, hs]
  · rfl
  refine (calls_call trivial).bind fun candidates => ?_
  refine unrecorded_saveMany.bind fun _ => ?_
  have hrest {q : Service Unit} (hq : q.Calls Call.Outside) : q.Calls Call.Unrecorded :=
    hq.mono fun _ h => h.unrecorded
  refine (hrest outside_riderConfirmed).bind fun _ => ?_
  refine (hrest (calls_forM (fun _ => outside_dispatch) _)).bind fun _ => ?_
  exact (calls_call trivial).bind fun _ => trivial

/-- In the run `past` the rider has confirmed driver `d`, who had accepted the ride, and the
confirmation stands in the history. -/
def World.Confirmed (env : Environment) (w₀ : World) (past : List LifecycleOp) (rid rider d : Id) : Prop :=
  ∃ before now after x, past = before ++ .confirmDriverAcceptance rid rider now :: after ∧
    (w₀.after env before).rides.find rid = some x ∧ x.riderId = rider ∧ x.driverId = some d ∧
    x.status = .accepted ∧
    (w₀.after env (before ++ [.confirmDriverAcceptance rid rider now])).history =
      (w₀.after env before).history ++ [confirmation rid] ∧
    (w₀.after env (before ++ [.confirmDriverAcceptance rid rider now])).statusOf rid = some .enroute ∧
    confirmation rid ∈ (w₀.after env past).history

/-- Every completed ride has been confirmed by its rider, for the driver who completed it. -/
def World.HandshakeHeld (env : Environment) (w₀ : World) (past : List LifecycleOp) : Prop :=
  ∀ r ∈ (w₀.after env past).rides.rows, r.status = .completed → ∃ d, r.driverId = some d ∧
    w₀.Confirmed env past r.id r.riderId d ∧
    ∃ requester location discount, requester.id = some d ∧
      .completeRide r.id requester location discount ∈ past

/-- The operation completes a ride that a driver holds without the rider's confirmation. -/
def LifecycleOp.SkipsConfirmation (env : Environment) (w : World) : LifecycleOp → Prop
  | completeRide rid requester location discount =>
    ∃ r rider, CompletionOpen env w rid requester.id location discount r rider ∧
      (r.status = .accepted ∨ r.status = .assigned) ∧
      ∀ p ∈ completionProbes w r location rider, p.Passes env env.tripCompletionProximityMeters
  | _ => False

theorem after_snoc (w : World) (ops : List LifecycleOp) (op : LifecycleOp) :
    w.after env (ops ++ [op]) = op.step env (w.after env ops) := by
  rw [World.after, List.foldl_append]
  rfl

theorem step_history (op : LifecycleOp) (w : World) : w.history <+: (op.step env w).history :=
  run_history env _ w

theorem World.Confirmed.snoc {w₀ : World} {past : List LifecycleOp} {rid rider d : Id}
    (h : w₀.Confirmed env past rid rider d) (op : LifecycleOp) :
    w₀.Confirmed env (past ++ [op]) rid rider d := by
  obtain ⟨before, now, after, x, rfl, hx, h1, h2, h3, hh, hst, hmem⟩ := h
  refine ⟨before, now, after ++ [op], x, by simp, hx, h1, h2, h3, hh, hst, ?_⟩
  rw [after_snoc]
  exact (step_history op _).subset hmem

/-- Where a booking comes from: it is as before, it is new, or the operation acted on it. -/
theorem booking_origin (hd : env.NearbyDistinct) (hw : w.WellFormed) {op : LifecycleOp} {rid : Id}
    {b : Booking} (hb : (op.step env w).booking rid = some b) :
    w.booking rid = some b ∨ b.Opened ∨
      ∃ b₀ arrived, op.ride = some rid ∧ w.booking rid = some b₀ ∧ b = op.effect arrived b₀ := by
  cases hride : op.ride with
  | some k =>
    obtain ⟨arrived, hs⟩ := op.step_becomes env w hride
    by_cases hk : rid = k
    · subst hk
      obtain ⟨b₀, hb₀, rfl⟩ := Option.map_eq_some_iff.mp (hs.booked.symm.trans hb)
      exact .inr (.inr ⟨b₀, arrived, rfl, hb₀, rfl⟩)
    · exact .inl ((hs.others rid hk).symm.trans hb)
  | none =>
    cases op with
    | createRide riderId payload now =>
      rw [LifecycleOp.step, LifecycleOp.program, run_discard] at hb
      rcases createRide_opens hd hw riderId payload now with hs | ⟨b₀, ho, -, hs⟩
      · rw [World.booking_congr hs.1 hs.2] at hb
        exact .inl hb
      · by_cases hk : rid = w.rides.nextKey
        · subst hk
          rw [hs.booked, Option.some.injEq] at hb
          exact .inr (.inl (hb ▸ ho))
        · exact .inl ((hs.others rid hk).symm.trans hb)
    | _ => cases hride

/-- Bound parties have been confirmed in the run. -/
def World.EngagedConfirmed (env : Environment) (w₀ : World) (past : List LifecycleOp) : Prop :=
  ∀ rid b, (w₀.after env past).booking rid = some b → b.Engaged →
    ∃ d, b.driver = some d ∧ w₀.Confirmed env past rid b.rider d

/-- A completed ride has been completed by its driver. -/
def World.CompletedByDriver (env : Environment) (w₀ : World) (past : List LifecycleOp) : Prop :=
  ∀ rid b, (w₀.after env past).booking rid = some b → b.status = .completed →
    ∃ requester location discount, requester.id = b.driver ∧
      .completeRide rid requester location discount ∈ past

theorem confirmed_now {w₀ : World} {past : List LifecycleOp}
    (hpast : w = w₀.after env past) {rid : Id} {b : Booking} {now : Time} (hb : w.booking rid = some b)
    (hm : b.Matched) (hs : b.status = .accepted) {b' : Booking} (he : b'.status = .enroute)
    (hb' : (w₀.after env (past ++ [.confirmDriverAcceptance rid b.rider now])).booking rid = some b') :
    ∃ d, b.driver = some d ∧
      w₀.Confirmed env (past ++ [.confirmDriverAcceptance rid b.rider now]) rid b.rider d := by
  obtain ⟨r, hr, rfl⟩ := Option.map_eq_some_iff.mp hb
  have hid : r.id = rid := Table.key_of_find hr
  subst hid
  simp only [Booking.Matched, hs] at hm
  obtain ⟨d, hd, hcd, -⟩ := hm
  obtain ⟨c, hc, hcs⟩ := Option.map_eq_some_iff.mp hcd
  have hh := confirm_history env hr rfl hd hs hc hcs now
  have hstep : (w₀.after env (past ++ [.confirmDriverAcceptance r.id r.riderId now])).history =
      (w₀.after env past).history ++ [confirmation r.id] := by
    rw [after_snoc, LifecycleOp.step, LifecycleOp.program, run_discard, ← hpast]
    exact hh
  refine ⟨d, hd, past, now, [], r, rfl, hpast ▸ hr, rfl, hd, hs, hstep, ?_, ?_⟩
  · obtain ⟨x, hx, rfl⟩ := Option.map_eq_some_iff.mp hb'
    exact (congrArg (Option.map _) hx).trans (congrArg some he)
  · rw [World.bookingOf_rider, hstep]
    simp

/-- A completion of a ride that is not under way skips the confirmation. -/
theorem skips_of_completes {rid : Id} {b b' : Booking} (hb : w.booking rid = some b)
    (hs : b.status = .accepted ∨ b.status = .assigned) {requester : RequestingClient}
    {location : ParticipantLocation} {discount : Option JsNumber}
    (hb' : ((LifecycleOp.completeRide rid requester location discount).step env w).booking rid = some b')
    (hcompleted : b'.status = .completed) :
    (LifecycleOp.completeRide rid requester location discount).SkipsConfirmation env w := by
  obtain ⟨r, hr, rfl⟩ := Option.map_eq_some_iff.mp hb
  have hmoves : MovesTo env (completeRide env rid requester location discount) w rid .completed := by
    rw [LifecycleOp.step, LifecycleOp.program, run_discard] at hb'
    obtain ⟨x, hx, rfl⟩ := Option.map_eq_some_iff.mp hb'
    constructor
    · rw [World.statusOf, hr, Option.map_some]
      intro he
      rw [World.bookingOf_status, Option.some.inj he] at hs
      simp at hs
    · rw [World.statusOf, hx, Option.map_some]
      exact congrArg some hcompleted
  obtain ⟨x, rider, hopen, hpass⟩ := (completion_moves_iff env w rid requester location discount).mp hmoves
  obtain rfl := Option.some.inj (hr.symm.trans hopen.ride)
  exact ⟨r, rider, hopen, hs, hpass⟩

/-- A step that skips no confirmation keeps the handshake. -/
theorem engagedConfirmed_snoc (hd : env.NearbyDistinct) {w₀ : World} {past : List LifecycleOp}
    (hw : (w₀.after env past).AtRest) (h : w₀.EngagedConfirmed env past) {op : LifecycleOp}
    (hop : ¬ op.SkipsConfirmation env (w₀.after env past)) : w₀.EngagedConfirmed env (past ++ [op]) := by
  intro rid b hb he
  rw [after_snoc] at hb
  rcases booking_origin hd hw.wellFormed hb with hb | ho | ⟨b₀, arrived, hride, hb₀, rfl⟩
  · obtain ⟨d, hdr, hc⟩ := h rid b hb he
    exact ⟨d, hdr, hc.snoc op⟩
  · have hs := ho.1
    rcases he with he | he | ⟨he, -⟩
    all_goals
      rw [hs] at he
      cases he
  · have hm := hw.matched rid b₀ hb₀
    rw [Booking.effect_rider]
    rcases Booking.engaged_effect hm arrived op he with ⟨he₀, hdr⟩ | ⟨hs, hdr, hen, k, now, rfl⟩ |
      ⟨hs, hcompleted, k, requester, location, discount, rfl⟩
    · obtain ⟨d, hd₀, hc⟩ := h rid b₀ hb₀ he₀
      exact ⟨d, hdr.trans hd₀, hc.snoc op⟩
    · obtain rfl : k = rid := Option.some.inj hride
      obtain ⟨d, hd₀, hc⟩ := confirmed_now rfl hb₀ hm hs hen (by rw [after_snoc]; exact hb)
      exact ⟨d, hdr.trans hd₀, hc⟩
    · obtain rfl : k = rid := Option.some.inj hride
      exact absurd (skips_of_completes hb₀ hs (by rw [hb]) hcompleted) hop

theorem completedByDriver_snoc (hd : env.NearbyDistinct) {w₀ : World} {past : List LifecycleOp}
    (hw : (w₀.after env past).AtRest) (h : w₀.CompletedByDriver env past) (op : LifecycleOp) :
    w₀.CompletedByDriver env (past ++ [op]) := by
  intro rid b hb hs
  rw [after_snoc] at hb
  have hkept {b : Booking} (hb : (w₀.after env past).booking rid = some b) (hs : b.status = .completed) :
      ∃ requester location discount, requester.id = b.driver ∧
        .completeRide rid requester location discount ∈ past ++ [op] := by
    obtain ⟨requester, location, discount, hreq, hmem⟩ := h rid b hb hs
    exact ⟨requester, location, discount, hreq, List.mem_append_left _ hmem⟩
  rcases booking_origin hd hw.wellFormed hb with hb | ho | ⟨b₀, arrived, hride, hb₀, rfl⟩
  · exact hkept hb hs
  · rw [ho.1] at hs
    cases hs
  · rcases Booking.completed_of_effect hride hs with hs₀ | ⟨requester, location, discount, rfl, hreq⟩
    · have hsame : op.effect arrived b₀ = b₀ := Booking.Terminal.effect (.inl hs₀) arrived op
      rw [hsame]
      exact hkept hb₀ hs₀
    · refine ⟨requester, location, discount, ?_, by simp⟩
      rw [hreq]
      rcases Booking.complete_cases (b := b₀) requester.id arrived with he | ⟨-, -, he, -⟩
      · simp only [LifecycleOp.effect, he]
      · simp only [LifecycleOp.effect, he]

/-- What a run that skips no confirmation keeps. -/
theorem handshake_after (hd : env.NearbyDistinct) {w₀ : World} (hw : w₀.AtRest)
    (h : w₀.EngagedConfirmed env []) (h' : w₀.CompletedByDriver env []) {ops : List LifecycleOp}
    (hm : Runs.Meets (LifecycleOp.step env) (fun w op => ¬ op.SkipsConfirmation env w) w₀ ops) :
    w₀.EngagedConfirmed env ops ∧ w₀.CompletedByDriver env ops := by
  induction ops using List.reverseRecOn with
  | nil => exact ⟨h, h'⟩
  | append_singleton ops op ih =>
    obtain ⟨hpast, hlast⟩ := Runs.meets_append.mp hm
    obtain ⟨ih1, ih2⟩ := ih hpast
    have hrest : (w₀.after env ops).AtRest := hw.after hd ops
    exact ⟨engagedConfirmed_snoc hd hrest ih1 hlast.1, completedByDriver_snoc hd hrest ih2 op⟩

theorem underway_after (hd : env.NearbyDistinct) (hw : w.AtRest) {rid : Id}
    (h : ∃ b, w.booking rid = some b ∧ b.Underway) (ops : List LifecycleOp) :
    ∃ b, (w.after env ops).booking rid = some b ∧ b.Underway :=
  booking_after hd hw (fun _ arrived op hu => hu.effect arrived op) h ops

/-- A completion that skips the confirmation cannot be put right by an earlier one. -/
theorem not_held_of_skips (hd : env.NearbyDistinct) {w₀ : World} (hw : w₀.AtRest) {past : List LifecycleOp}
    {op : LifecycleOp} (hop : op.SkipsConfirmation env (w₀.after env past)) :
    ¬ w₀.HandshakeHeld env (past ++ [op]) := by
  intro hheld
  cases op with
  | completeRide rid requester location discount =>
    obtain ⟨r, rider, hopen, hs, hpass⟩ := hop
    obtain ⟨-, hmoved⟩ := (completion_moves_iff env _ rid requester location discount).mpr
      ⟨r, rider, hopen, hpass⟩
    obtain ⟨x, hx, hxs⟩ := Option.map_eq_some_iff.mp hmoved
    have hfind : (w₀.after env (past ++ [.completeRide rid requester location discount])).rides.find rid =
        some x := by
      rw [after_snoc, LifecycleOp.step, LifecycleOp.program, run_discard]
      exact hx
    obtain ⟨hmem, hid⟩ := Table.find_some.mp hfind
    obtain ⟨d, -, ⟨before, now, after, -, hsplit, -, -, -, -, -, hst, -⟩, -⟩ := hheld x hmem hxs
    rw [show x.id = rid from hid] at hsplit hst
    have hbefore : ∃ more, past = before ++ .confirmDriverAcceptance rid x.riderId now :: more := by
      induction after using List.reverseRecOn with
      | nil =>
        have hlast := congrArg List.getLast? hsplit
        simp at hlast
      | append_singleton more last _ =>
        rw [← List.cons_append, ← List.append_assoc] at hsplit
        exact ⟨more, (List.append_inj' hsplit rfl).1⟩
    obtain ⟨more, hmore⟩ := hbefore
    have hpast : w₀.after env past =
        (w₀.after env (before ++ [.confirmDriverAcceptance rid x.riderId now])).after env more := by
      rw [hmore, World.after, World.after, World.after, ← List.foldl_append]
      simp
    obtain ⟨y, hy, hys⟩ := Option.map_eq_some_iff.mp hst
    have hunder : ∃ b, (w₀.after env past).booking rid = some b ∧ b.Underway := by
      rw [hpast]
      exact underway_after hd (hw.after hd _) ⟨_, World.booking_of_find hy, .inl hys⟩ more
    obtain ⟨b, hb, hu⟩ := hunder
    rw [World.booking_of_find hopen.ride, Option.some.injEq] at hb
    subst hb
    have hst : r.status = .enroute ∨ r.status = .tripStarted ∨ r.status = .completed ∨
        r.status = .canceled := hu
    rcases hs with hs | hs
    · simp [hs] at hst
    · simp [hs] at hst
  | _ => exact hop.elim

/-- The handshake is held throughout a run exactly when no step of it completes a ride
that is ACCEPTED or ASSIGNED. -/
theorem handshake_held_iff (hd : env.NearbyDistinct) (whitelist : List String) (ops : List LifecycleOp) :
    (∀ past, past <+: ops → (World.initial whitelist).HandshakeHeld env past) ↔
      Runs.Meets (LifecycleOp.step env) (fun w op => ¬ op.SkipsConfirmation env w)
        (World.initial whitelist) ops := by
  have hw : (World.initial whitelist).AtRest := World.atRest_initial whitelist
  have hnone (rid : Id) : (World.initial whitelist).booking rid = none := by
    simp [World.booking, World.initial, Table.empty, Table.find]
  constructor
  · intro h
    by_contra hm
    obtain ⟨past, op, rest, rfl, -, hskip⟩ := Runs.exists_of_not_meets hm
    exact not_held_of_skips hd hw (not_not.mp hskip) (h _ ⟨rest, by simp⟩)
  · intro h past hpast r hr hs
    obtain ⟨h1, h2⟩ := handshake_after hd hw (by intro rid b hb; rw [World.after, List.foldl_nil, hnone] at hb; cases hb)
      (by intro rid b hb; rw [World.after, List.foldl_nil, hnone] at hb; cases hb) (h.initial hpast)
    have hfind := Table.find_some.mpr ⟨hr, rfl⟩
    have hb := World.booking_of_find hfind
    obtain ⟨d, hdr, hc⟩ := h1 _ _ hb (.inr (.inl hs))
    obtain ⟨requester, location, discount, hreq, hmem⟩ := h2 _ _ hb hs
    exact ⟨d, hdr, hc, requester, location, discount, hreq.trans hdr, hmem⟩

theorem handshake_held_started :
    (∀ past, past <+: startedRun → (World.initial []).HandshakeHeld (.around [7, 8]) past) ↔
      Runs.Meets (LifecycleOp.step (.around [7, 8]))
        (fun w op => ¬ op.SkipsConfirmation (.around [7, 8]) w) (World.initial []) startedRun :=
  handshake_held_iff (Environment.around_distinct (by decide)) [] startedRun

/-- Driver 7 takes the accepted ride to its end, and its rider never confirms him. -/
def unconfirmedRun : List LifecycleOp :=
  acceptedRun ++ [.recordTripLocation 1 ⟨some 1, some .rider⟩ ⟨⟨2, 2⟩, none, "10:10"⟩,
    .completeRide 1 ⟨some 7, some .driver⟩ ⟨⟨2, 2⟩, none, "10:11"⟩ none]

theorem completed_unconfirmed : (Environment.around [7, 8]).NearbyDistinct ∧
    ¬ ∀ past, past <+: unconfirmedRun → (World.initial []).HandshakeHeld (.around [7, 8]) past := by
  refine ⟨Environment.around_distinct (by decide), fun h => ?_⟩
  have hcompleted : ∃ r ∈ ((World.initial []).after (.around [7, 8]) unconfirmedRun).rides.rows,
      r.status = .completed := by decide +kernel
  obtain ⟨r, hr, hs⟩ := hcompleted
  obtain ⟨d, -, ⟨before, now, after, -, hsplit, -⟩, -⟩ := h _ List.prefix_rfl r hr hs
  have hmem : LifecycleOp.confirmDriverAcceptance r.id r.riderId now ∈ unconfirmedRun := by
    rw [hsplit]
    simp
  simp [unconfirmedRun, acceptedRun] at hmem

end NebLite
