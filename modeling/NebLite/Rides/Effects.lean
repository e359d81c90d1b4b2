import NebLite.Rides.Operations

/-! What the parts of the ride operations do to the whole store when nothing
comes in between: the writes of the rows, the entries and the notifications. -/

namespace NebLite

open Atomic

theorem rewrite_withStatus (r : Ride) (next : ERideStatus) (context : Option String) :
    r.rewrite (withStatus r next context) = withStatus r next context := by
  cases r
  simp [Ride.rewrite, withStatus, mergeRideData, Ride.changes, Ride.writeColumns]

theorem rewrite_withCancellation (r : Ride) (reason : Option String) :
    r.rewrite (withCancellation r reason) = withCancellation r reason := by
  cases r
  simp [Ride.rewrite, withCancellation, mergeRideData, Ride.changes, Ride.writeColumns]

namespace World

/-- The store after a transition of the ride that was due. -/
def moved (w : World) (r : Ride) (next : ERideStatus) (context : Option String) : World :=
  { w with
    rides := w.rides.put (withStatus r next context)
    history := w.history ++ [⟨r.id, some r.status, next, context⟩] }

/-- The store after the candidates of a ride have been rewritten as `f` says. -/
def rewritten (w : World) (rid : Id) (f : RideDriverCandidate → Option RideDriverCandidate) : World :=
  { w with candidates := w.candidates.putAll ((w.findCandidates rid).filterMap f) }

end World

section Rows

variable {w : World} {rid : Id} {f : RideDriverCandidate → Option RideDriverCandidate}

theorem rewritten_rows (hf : ∀ c n, f c = some n → n.id = c.id) :
    (w.rewritten rid f).candidates.rows =
      w.candidates.rows.map fun c => if c.rideId = rid then (f c).getD c else c := by
  have hkey (c n) (h : f c = some n) : Keyed.key n = Keyed.key c := hf c n h
  have hn := Table.nodup_select_filterMap (p := fun c => c.rideId == rid) hkey w.candidates
  have hrows : (w.rewritten rid f).candidates.rows =
      w.candidates.rows.map fun c => if c.rideId == rid then (f c).getD c else c :=
    Table.putAll_select hkey w.candidates hn
  simpa only [beq_iff_eq] using hrows

theorem rewritten_find (hf : ∀ c n, f c = some n → n.id = c.id) {c : RideDriverCandidate}
    (hc : c ∈ w.candidates.rows) :
    (w.rewritten rid f).candidates.find c.id = some (if c.rideId = rid then (f c).getD c else c) := by
  refine Table.find_some.mpr ⟨?_, ?_⟩
  · rw [rewritten_rows hf]
    exact List.mem_map_of_mem hc
  · have hid : ((f c).getD c).id = c.id := by
      cases hfc : f c with
      | none => rfl
      | some n => exact hf c n hfc
    split
    · exact hid
    · rfl

theorem rewritten_ids (hf : ∀ c n, f c = some n → n.id = c.id) :
    (w.rewritten rid f).candidates.rows.map (·.id) = w.candidates.rows.map (·.id) := by
  rw [rewritten_rows hf, List.map_map]
  refine List.map_congr_left fun c _ => ?_
  have hid : ((f c).getD c).id = c.id := by
    cases hfc : f c with
    | none => rfl
    | some n => exact hf c n hfc
  by_cases hride : c.rideId = rid <;> simp [hride, hid]

end Rows

section Runs

variable (env : Environment) {w : World} {r : Ride}

theorem run_transition_due {allowed : List ERideStatus} {next : ERideStatus} (hr : w.rides.find r.id = some r)
    (ha : r.status ∈ allowed) (hne : r.status ≠ next) (context : Option String) :
    (transitionRideStatus r.id allowed next context).run (handle env) w =
      (.ok (withStatus r next context, true), w.moved r next context) := by
  have hupdate := run_updateRide env (m := withStatus r next context) hr
  rw [rewrite_withStatus] at hupdate
  unfold transitionRideStatus
  rw [Program.run_bind_ok _ (run_findById env r.id w), hr]
  simp only [ha, hne, not_true_eq_false, if_false]
  rw [Program.run_bind_ok _ hupdate]
  rfl

theorem run_transition_idle {allowed : List ERideStatus} {next : ERideStatus} (hr : w.rides.find r.id = some r)
    (hidle : r.status ∉ allowed ∨ r.status = next) (context : Option String) :
    (transitionRideStatus r.id allowed next context).run (handle env) w = (.ok (r, false), w) := by
  unfold transitionRideStatus
  rw [Program.run_bind_ok _ (run_findById env r.id w), hr]
  by_cases ha : r.status ∈ allowed
  · have hnext : r.status = next := hidle.resolve_left fun hno => hno ha
    simp only [hnext, if_true, ite_self]
    rfl
  · simp only [ha, not_false_eq_true, if_true]
    rfl

theorem run_rewrite (w : World) (rid : Id) {f : RideDriverCandidate → Option RideDriverCandidate}
    (hf : ∀ c n, f c = some n → n.id = c.id ∧ n.rideId = c.rideId ∧ n.driverId = c.driverId ∧
      n.createdAt = c.createdAt) :
    (saveMany ((w.findCandidates rid).filterMap f)).run (handle env) w = (.ok (), w.rewritten rid f) := by
  have hkey (c n) (h : f c = some n) : Keyed.key n = Keyed.key c := (hf c n h).1
  refine run_saveMany (Table.nodup_select_filterMap hkey w.candidates) fun n hn => ?_
  obtain ⟨c, hc, hcn⟩ := List.mem_filterMap.mp hn
  obtain ⟨hid, -, hdriver, hcreated⟩ := hf c n hcn
  have hstored : w.candidates.find n.id = some c := by
    rw [hid]
    exact World.find_of_mem (Table.mem_select.mp hc).1
  exact ⟨c, hstored, hdriver, hcreated⟩

/-- The program sends exactly the notifications `ns`, and does nothing else. -/
def Sends (p : Service Unit) (ns : List Notification) : Prop :=
  ∀ w, p.run (handle env) w = (.ok (), { w with notifications := w.notifications ++ ns })

variable {env}

theorem sends_call (n : Notification) : Sends env (call (.emit n)) [n] := fun w => run_call env _ w

theorem Sends.next {α : Type} {p : Service Unit} {ns : List Notification} (hp : Sends env p ns)
    (f : Unit → Service α) (w : World) :
    (p >>= f).run (handle env) w = (f ()).run (handle env) { w with notifications := w.notifications ++ ns } :=
  Program.run_bind_ok _ (hp w) f

theorem sends_forM {α : Type} {f : α → Service Unit} {g : α → Notification} (hf : ∀ a, Sends env (f a) [g a])
    (l : List α) : Sends env (l.forM f) (l.map g) := by
  induction l with
  | nil =>
    intro w
    show (Except.ok (), w) = _
    rw [List.map_nil, List.append_nil]
  | cons a l ih =>
    intro w
    show (f a >>= fun _ => l.forM f).run (handle env) w = _
    rw [(hf a).next, ih]
    simp only [List.map_cons, List.append_assoc, List.singleton_append]

end Runs

section Notices

variable (ride : Ride) (candidate : RideDriverCandidate)

/-- What the driver is told whom the rider has confirmed. -/
def riderConfirmed (driverId : Id) : Notification where
  target := .driver
  targetId := driverId
  event := "ride.rider.confirmed"
  rideId := ride.id
  riderId := ride.riderId
  driverId := ride.driverId
  status := ride.status
  message := s!"Rider {ride.riderId} confirmed ride {ride.id}"
  extras := .candidate candidate

/-- What a candidate is told who has not been chosen. -/
def notSelected : Notification where
  target := .driver
  targetId := candidate.driverId
  event := "ride.driver.not_selected"
  rideId := ride.id
  riderId := ride.riderId
  driverId := ride.driverId
  status := ride.status
  message := s!"Ride {ride.id} is no longer available"
  extras := .candidate candidate

/-- What a candidate is told whose ride has been cancelled. -/
def rideCancelled (reason : Option String) : Notification where
  target := .driver
  targetId := candidate.driverId
  event := "ride.cancelled"
  rideId := ride.id
  riderId := ride.riderId
  driverId := ride.driverId
  status := ride.status
  message := s!"Ride {ride.id} was cancelled by rider {ride.riderId}" ++ reasonSuffix reason
  extras := .cancellation candidate reason

variable {env : Environment}

theorem sends_riderConfirmed {ride candidate} {d : Id} (hd : ride.driverId = some d) :
    Sends env (notifyRiderConfirmed ride candidate) [riderConfirmed ride candidate d] := by
  unfold notifyRiderConfirmed
  rw [hd]
  exact sends_call (riderConfirmed ride candidate d)

theorem sends_notSelected : Sends env (notifyCandidateSuperseded ride candidate) [notSelected ride candidate] :=
  sends_call (notSelected ride candidate)

theorem sends_rideCancelled (reason : Option String) :
    Sends env (notifyRideCanceledForCandidate ride candidate reason) [rideCancelled ride candidate reason] :=
  sends_call (rideCancelled ride candidate reason)

end Notices

section Cancel

/-- The store after a cancellation whose transition has left `w` with the ride `ride`. -/
def World.cancelled (w : World) (ride : Ride) (reason : Option String) (now : Time) : World :=
  { w.rewritten ride.id (canceledRow reason now) with
    rides := w.rides.put (withCancellation ride reason)
    notifications := w.notifications ++ ((w.findCandidates ride.id).filterMap (canceledRow reason now)).map
      fun c => rideCancelled (withCancellation ride reason) c reason }

/-- `cancelRide` once the candidates are read and the rows to write are known. -/
def withdrawInvitations (updated : Ride) (reason : Option String) (toUpdate : List RideDriverCandidate) :
    Service Ride := do
  if 0 < toUpdate.length then
    saveMany toUpdate
    toUpdate.forM fun candidate => notifyRideCanceledForCandidate updated candidate reason
  let refreshed ← findById updated.id
  return refreshed.getD updated

theorem run_withdrawInvitations (env : Environment) {v : World} {ride : Ride} {x : Ride} (reason : Option String)
    (hf : v.rides.find ride.id = some x) (now : Time) :
    (withdrawInvitations (withCancellation ride reason) reason
      ((v.findCandidates ride.id).filterMap (canceledRow reason now))).run (handle env)
        { v with rides := v.rides.put (withCancellation ride reason) } =
      (.ok (withCancellation ride reason), v.cancelled ride reason now) := by
  have hstored : (v.rides.put (withCancellation ride reason)).find ride.id = some (withCancellation ride reason) :=
    Table.find_put_self (r := withCancellation ride reason) hf
  have hsave : (saveMany ((v.findCandidates ride.id).filterMap (canceledRow reason now))).run (handle env)
      { v with rides := v.rides.put (withCancellation ride reason) } = (.ok (),
        { v.rewritten ride.id (canceledRow reason now) with rides := v.rides.put (withCancellation ride reason) }) :=
    run_rewrite env { v with rides := v.rides.put (withCancellation ride reason) } ride.id (canceledRow_keeps reason now)
  have hsends (l : List RideDriverCandidate) : Sends env
      (l.forM fun c => notifyRideCanceledForCandidate (withCancellation ride reason) c reason)
      (l.map fun c => rideCancelled (withCancellation ride reason) c reason) :=
    sends_forM (fun c => sends_rideCancelled (withCancellation ride reason) c reason) l
  have hlast (u : World) (hu : u.rides = v.rides.put (withCancellation ride reason)) :
      (findById (withCancellation ride reason).id >>= fun refreshed =>
        (pure (refreshed.getD (withCancellation ride reason)) : Service Ride)).run (handle env) u =
          (.ok (withCancellation ride reason), u) := by
    have hid : (withCancellation ride reason).id = ride.id := rfl
    rw [Program.run_bind_ok _ (run_findById env _ u), hu, hid, hstored]
    rfl
  unfold withdrawInvitations
  by_cases hpos : 0 < ((v.findCandidates ride.id).filterMap (canceledRow reason now)).length
  · rw [if_pos hpos, Program.run_bind_ok _ hsave, (hsends _).next]
    exact hlast (v.cancelled ride reason now) rfl
  · have hnone : (v.findCandidates ride.id).filterMap (canceledRow reason now) = [] :=
      List.length_eq_zero_iff.mp (by omega)
    have hsame : v.cancelled ride reason now = { v with rides := v.rides.put (withCancellation ride reason) } := by
      unfold World.cancelled World.rewritten
      rw [hnone, List.map_nil, List.append_nil]
      rfl
    rw [if_neg hpos, hsame]
    exact hlast _ rfl

/-- A cancellation that is not refused goes through, whatever its transition has made of the ride. -/
theorem run_cancelRide (env : Environment) {w v : World} {r ride : Ride} {requester : RequestingClient}
    {reason : Option String} {changed : Bool} (hr : w.rides.find r.id = some r)
    (hreq : some r.riderId = requester.id) (hopen : r.status ∉ [ERideStatus.completed, .canceled])
    (htransition : (transitionRideStatus r.id [.requested, .candidatesComputed, .assigned, .accepted, .enroute]
      .canceled (some (cancellationReason reason))).run (handle env) w = (.ok (ride, changed), v))
    (hf : v.rides.find r.id = some ride) (now : Time) :
    (cancelRide r.id requester reason now).run (handle env) w =
      (.ok (withCancellation ride reason), v.cancelled ride reason now) := by
  obtain ⟨hcompleted, hcanceled⟩ : r.status ≠ .completed ∧ r.status ≠ .canceled := by simpa using hopen
  obtain hid : ride.id = r.id := Table.key_of_find hf
  rw [← hid] at hf
  have hupdate := run_updateRide env (m := withCancellation ride reason) hf
  rw [rewrite_withCancellation] at hupdate
  unfold cancelRide
  rw [Program.run_bind_ok _ (run_findById env r.id w), hr]
  simp only [↓Program.throw_seq]
  rw [if_neg (not_not.mpr hreq), if_neg hcompleted, if_neg hcanceled]
  unfold removePendingJobs
  rw [Program.run_bind_ok _ (run_call env _ w), Program.run_bind_ok _ htransition,
    Program.run_bind_ok _ hupdate, Program.run_bind_ok _ (run_call env _ _)]
  exact run_withdrawInvitations env reason hf now

end Cancel

end NebLite
