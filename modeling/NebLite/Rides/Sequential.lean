import NebLite.Rides.Tracking
import NebLite.Rides.StoredBooking

/-! Programs run without interruption, and what the parts that the ride
operations share do to a booking. -/

namespace NebLite

open Atomic

variable (env : Environment)

theorem run_call (c : Call) (w : World) : (call c).run (handle env) w = handle env c w :=
  Program.run_perform _ _ _

theorem run_findById (id : Id) (w : World) :
    (findById id).run (handle env) w = (.ok (w.rides.find id), w) := run_call env _ w

/-- The row that `updateRide` leaves when nothing happens between its read and its write. -/
def Ride.rewrite (stored snapshot : Ride) : Ride :=
  stored.writeColumns (mergeRideData stored snapshot.changes)

section Rewrite

variable (r m : Ride)

@[simp] theorem rewrite_id : (r.rewrite m).id = r.id := rfl

@[simp] theorem rewrite_riderId : (r.rewrite m).riderId = m.riderId := rfl

@[simp] theorem rewrite_status : (r.rewrite m).status = m.status := rfl

@[simp] theorem rewrite_driverId : (r.rewrite m).driverId = m.driverId := merge_driverId r m

end Rewrite

variable {env}

theorem run_updateRide (env : Environment) {w : World} {r m : Ride} (hr : w.rides.find m.id = some r) :
    (updateRide m.changes).run (handle env) w =
      (.ok (r.rewrite m), { w with rides := w.rides.put (r.rewrite m) }) := by
  have hid : (r.rewrite m).id = m.id := Table.key_of_find hr
  have hp : (w.rides.put (r.rewrite m)).find m.id = some (r.rewrite m) := by
    rw [← hid] at hr ⊢
    exact Table.find_put_self hr
  unfold updateRide
  rw [Program.run_bind_ok _ (run_findById env _ w)]
  have hc : m.changes.id = m.id := rfl
  simp only [hc, hr]
  have hu : (call (.updateRideRow (mergeRideData r m.changes))).run (handle env) w =
      (.ok ([m.id], 1), { w with rides := w.rides.put (r.rewrite m) }) := by
    rw [run_call]
    simp [handle, World.updateRideRow, hr, Ride.rewrite]
  rw [Program.run_bind_ok _ hu]
  simp only [UpdateResult.length, Nat.reduceEqDiff, if_false, merge_id]
  rw [Program.run_bind_ok _ (run_findById env _ _)]
  simp [hp]

theorem becomes_rewrite {w : World} {rid : Id} {r m : Ride} (hr : w.rides.find rid = some r) :
    w.Becomes rid (some ⟨m.riderId, m.driverId, m.status, w.answers rid⟩)
      { w with rides := w.rides.put (r.rewrite m) } := by
  have hid : r.id = rid := Table.key_of_find hr
  have h := World.becomes_put (m := r.rewrite m) hr hid
  rw [World.bookingOf, rewrite_riderId, rewrite_driverId, rewrite_status, rewrite_id, hid] at h
  exact h

/-- Columns outside the booking are rewritten. -/
theorem becomes_rewrite_same {w : World} {rid : Id} {r m : Ride} (hr : w.rides.find rid = some r)
    (hm : m.riderId = r.riderId ∧ m.driverId = r.driverId ∧ m.status = r.status) :
    w.Becomes rid (w.booking rid) { w with rides := w.rides.put (r.rewrite m) } := by
  have hid : r.id = rid := Table.key_of_find hr
  have h := becomes_rewrite (m := m) hr
  rw [hm.1, hm.2.1, hm.2.2, ← hid] at h
  rw [World.booking_of_find hr]
  subst hid
  exact h

/-- A transition moves the booking's status when it is an allowed one. -/
theorem transition_becomes (env : Environment) {w : World} {rid : Id} {b : Booking} (hb : w.booking rid = some b)
    (allowed : List ERideStatus) (next : ERideStatus) (context : Option String) :
    ∃ ride changed w', (transitionRideStatus rid allowed next context).run (handle env) w =
        (.ok (ride, changed), w') ∧ w'.rides.find rid = some ride ∧
      w.Becomes rid (some (b.transition allowed next)) w' := by
  obtain ⟨r, hr, rfl⟩ := Option.map_eq_some_iff.mp hb
  have hid : r.id = rid := Table.key_of_find hr
  unfold transitionRideStatus Booking.transition
  rw [Program.run_bind_ok _ (run_findById env rid w)]
  simp only [hr]
  have hst : (w.bookingOf r).status = r.status := rfl
  rw [hst]
  by_cases ha : r.status ∈ allowed
  · by_cases hn : r.status = next
    · refine ⟨r, false, w, by simp [hn], hr, ?_⟩
      have hs := World.becomes_tables (w := w) rfl rfl rid
      rw [hb] at hs
      have he : { w.bookingOf r with status := next } = w.bookingOf r := by rw [← hn]; rfl
      rw [if_pos ha, he]
      exact hs
    · have hm : (withStatus r next context).id = rid := hid
      simp only [ha, hn, not_true_eq_false, if_false, if_true]
      rw [Program.run_bind_ok _ (run_updateRide env (m := withStatus r next context) (hm ▸ hr))]
      simp only [recordStatusChange]
      rw [Program.run_bind_ok _ (run_call env _ _)]
      refine ⟨_, _, _, rfl, ?_, ?_⟩
      · subst hid
        exact Table.find_put_self (r := r.rewrite _) hr
      · have h := becomes_rewrite (m := withStatus r next context) hr
        have he : (w.bookingOf r).cand = w.answers rid := by rw [← hid]; rfl
        rw [he]
        exact h.tables rfl rfl
  · refine ⟨r, false, w, by simp [ha], hr, ?_⟩
    have hs := World.becomes_tables (w := w) rfl rfl rid
    rw [hb] at hs
    rw [if_neg ha]
    exact hs

/-- A program that does nothing but send notifications. -/
def Announces (env : Environment) (p : Service Unit) : Prop :=
  ∀ w, ∃ ns, p.run (handle env) w = (.ok (), { w with notifications := ns })

theorem announces_pure : Announces env (pure ()) := fun w => ⟨w.notifications, rfl⟩

theorem announces_dispatch {target targetId event ride message extras} :
    Announces env (dispatchNotification target targetId event ride message extras) :=
  fun w => ⟨_, run_call env _ w⟩

theorem Announces.bind {p q : Service Unit} (hp : Announces env p) (hq : Announces env q) :
    Announces env (do p; q) := by
  intro w
  obtain ⟨ns, h⟩ := hp w
  obtain ⟨ms, h'⟩ := hq { w with notifications := ns }
  exact ⟨ms, by rw [Program.run_bind_ok _ h, h']⟩

theorem announces_forM {α : Type} {f : α → Service Unit} (hf : ∀ a, Announces env (f a))
    (l : List α) : Announces env (l.forM f) := by
  induction l with
  | nil => exact announces_pure
  | cons a l ih =>
    exact (hf a).bind ih

theorem announces_both {ride riderEvent driverEvent riderMessage driverMessage extras} :
    Announces env (notifyBoth ride riderEvent driverEvent riderMessage driverMessage extras) := by
  unfold notifyBoth
  split
  · exact announces_dispatch
  · exact announces_dispatch.bind announces_dispatch

theorem Announces.becomes {α : Type} {p : Service Unit} (hp : Announces env p) {w v : World}
    {rid : Id} {o : Option Booking} {q : Unit → Service α}
    (h : ∀ ns, w.Becomes rid o ((q ()).run (handle env) { v with notifications := ns }).2) :
    w.Becomes rid o ((p >>= q).run (handle env) v).2 := by
  obtain ⟨ns, hrun⟩ := hp v
  rw [Program.run_bind_ok _ hrun]
  exact h ns

/-- Reading the ride once more, as most operations do at their end. -/
theorem run_refreshed {α : Type} (id : Id) (f : Option Ride → α) (w : World) :
    ((do let refreshed ← findById id; return f refreshed : Service α).run (handle env) w).2 = w := by
  rw [Program.run_bind_ok _ (run_findById env id w)]
  rfl

/-- Every operation begins by reading its ride, and refuses one that does not exist. -/
theorem reads_ride {α : Type} {w : World} {rid : Id} {f : Booking → Booking}
    {next : Option Ride → Service α} (hnone : ∃ e, next none = .throw e)
    (hsome : ∀ r, w.rides.find rid = some r → r.id = rid →
      w.Becomes rid (some (f (w.bookingOf r))) ((next (some r)).run (handle env) w).2) :
    w.Becomes rid ((w.booking rid).map f) ((findById rid >>= next).run (handle env) w).2 := by
  rw [Program.run_bind_ok _ (run_findById env rid w)]
  cases hr : w.rides.find rid with
  | none =>
    obtain ⟨e, he⟩ := hnone
    have h := w.becomes_refl rid
    rw [World.booking_none.mpr hr] at h ⊢
    rw [he]
    exact h
  | some r =>
    rw [World.booking_of_find hr]
    exact hsome r hr (Table.key_of_find hr)

/-- A refusal leaves the store as it is. -/
theorem refuses {w : World} {r : Ride} {b : Booking} (hr : w.rides.find r.id = some r)
    (hb : b = w.bookingOf r) : w.Becomes r.id (some b) w := by
  rw [hb, ← World.booking_of_find hr]
  exact w.becomes_refl r.id

theorem run_saveMany {w : World} {l : List RideDriverCandidate} (hn : (l.map (·.id)).Nodup)
    (hl : ∀ n ∈ l, ∃ c, w.candidates.find n.id = some c ∧ n.driverId = c.driverId ∧
      n.createdAt = c.createdAt) :
    (saveMany l).run (handle env) w = (.ok (), { w with candidates := w.candidates.putAll l }) := by
  induction l generalizing w with
  | nil => rfl
  | cons n l ih =>
    obtain ⟨c, hc, hd, ht⟩ := hl n List.mem_cons_self
    rw [List.map_cons, List.nodup_cons] at hn
    have hs : (saveCandidate n).run (handle env) w =
        (.ok (), { w with candidates := w.candidates.put n }) := by
      unfold saveCandidate
      rw [run_call]
      simp only [handle]
      rw [World.saveCandidate_eq hc hd ht]
    have hrest := ih (w := { w with candidates := w.candidates.put n }) hn.2 fun m hm => by
      have hne : m.id ≠ n.id := fun he => hn.1 (he ▸ List.mem_map_of_mem hm)
      obtain ⟨x, hx, hxd⟩ := hl m (List.mem_cons_of_mem n hm)
      exact ⟨x, by rw [Table.find_put_ne hne]; exact hx, hxd⟩
    change (saveCandidate n >>= fun _ => saveMany l).run (handle env) w = _
    rw [Program.run_bind_ok _ hs, hrest]
    rfl

/-- All candidates of a ride are read, some are rewritten and written back. -/
theorem saveMany_becomes (env : Environment) {w : World} {rid : Id} {b : Booking}
    {f : RideDriverCandidate → Option RideDriverCandidate}
    {g : Id → ERideDriverCandidateStatus → ERideDriverCandidateStatus}
    (hb : w.booking rid = some b)
    (hf : ∀ c n, f c = some n → n.id = c.id ∧ n.rideId = c.rideId ∧ n.driverId = c.driverId ∧
      n.createdAt = c.createdAt)
    (hg : ∀ c, ((f c).getD c).status = g c.driverId c.status) :
    ∃ w', (saveMany ((w.findCandidates rid).filterMap f)).run (handle env) w = (.ok (), w') ∧
      w.Becomes rid (some { b with cand := fun d => (b.cand d).map (g d) }) w' ∧
      w'.rides = w.rides := by
  have hk (c n) (h : f c = some n) : Keyed.key n = Keyed.key c := (hf c n h).1
  have hn := Table.nodup_select_filterMap (p := fun c => c.rideId == rid) hk w.candidates
  refine ⟨_, run_saveMany hn fun n hm => ?_, ?_, rfl⟩
  · obtain ⟨c, hc, hcn⟩ := List.mem_filterMap.mp hm
    obtain ⟨hi, -, hd, ht⟩ := hf c n hcn
    exact ⟨c, by rw [hi]; exact World.find_of_mem (Table.mem_select.mp hc).1, hd, ht⟩
  · have h : w.Becomes rid (some _) { w with
        candidates := w.candidates.putAll ((w.findCandidates rid).filterMap f) } :=
      World.becomes_candidates hb rfl (Table.putAll_select hk w.candidates hn) fun c hc => by
        by_cases hr : c.rideId = rid
        · cases hfc : f c with
          | none => simp [hr]
          | some n => simp [hr, hf c n hfc]
        · simp [hr]
    obtain ⟨r, hr, rfl⟩ := Option.map_eq_some_iff.mp hb
    have hid : r.id = rid := Table.key_of_find hr
    have he (d : Id) : (w.findCandidate rid d).map (fun c =>
        (if c.rideId == rid then (f c).getD c else c).status) = ((w.bookingOf r).cand d).map (g d) := by
      rw [World.bookingOf_cand, hid, Option.map_map]
      refine Option.map_congr fun c hc => ?_
      obtain ⟨-, hcr, hcd⟩ := World.mem_of_findCandidate hc
      simp [hcr, hg c, hcd]
    simpa only [he] using h

/-- Neither rides nor candidates differ. -/
def SameRows (w v : World) : Prop := v.rides = w.rides ∧ v.candidates = w.candidates

theorem SameRows.trans {w v u : World} (h : SameRows w v) (h' : SameRows v u) : SameRows w u :=
  ⟨h'.1.trans h.1, h'.2.trans h.2⟩

theorem SameRows.refl (w : World) : SameRows w w := ⟨rfl, rfl⟩

/-- A program that may fail, but writes neither rides nor candidates. -/
abbrev Probes {α : Type} (env : Environment) (p : Service α) : Prop :=
  p.Keeps (handle env) SameRows

theorem probes_ret {α : Type} {a : α} : Probes env (.ret a) := Program.keeps_ret SameRows.refl a

theorem probes_throw {α : Type} {e : ServiceError} : Probes env (.throw e : Service α) :=
  Program.keeps_throw SameRows.refl e

theorem probes_call {c : Call} (hc : ∀ w, SameRows w (handle env c w).2) : Probes env (call c) :=
  Program.keeps_perform hc

theorem Probes.bind {α β : Type} {p : Service α} {f : α → Service β} (hp : Probes env p)
    (hf : ∀ a, Probes env (f a)) : Probes env (p >>= f) :=
  Program.Keeps.bind (fun _ _ _ h h' => h.trans h') hp hf

theorem probes_getState {rid : Id} : Probes env (getState rid) :=
  Probes.bind (probes_call fun _ => ⟨rfl, rfl⟩) fun _ => probes_ret

theorem probes_getLatestLocation {rid : Id} {role : EClientType} :
    Probes env (getLatestLocation rid role) :=
  Probes.bind probes_getState fun _ => probes_ret

theorem probes_getTotalDistance {rid : Id} : Probes env (getTotalDistanceMeters rid) :=
  Probes.bind probes_getState fun _ => probes_ret

theorem probes_distance {x y : Coordinate} :
    Probes env (calculateDistanceBetweenCoordinates x y) :=
  Probes.bind (probes_call fun _ => ⟨rfl, rfl⟩) fun _ => probes_ret

theorem probes_ensure {x y : Coordinate} {radius : ℚ} {message : String} :
    Probes env (ensureLocationWithinRadius x y radius message) := by
  refine Probes.bind probes_distance fun d => ?_
  split
  · exact probes_throw
  · exact probes_ret

theorem probes_ensureNearby {x y : Coordinate} {radius : ℚ} {message : String} :
    Probes env (ensureParticipantsAreNearby x y radius message) := probes_ensure

theorem probes_atPickup {ride : Ride} {location : ParticipantLocation} :
    Probes env (ensureAtPickup env ride location) := by
  refine Probes.bind probes_getLatestLocation fun l => ?_
  cases l with
  | none => exact probes_throw
  | some l =>
    exact Probes.bind probes_ensure fun _ => Probes.bind probes_ensure fun _ => probes_ensureNearby

theorem probes_atDropoff {ride : Ride} {location : ParticipantLocation} :
    Probes env (ensureAtDropoff env ride location) := by
  refine Probes.bind probes_getLatestLocation fun l => ?_
  cases l with
  | none => exact probes_throw
  | some l =>
    exact Probes.bind probes_ensure fun _ => Probes.bind probes_ensure fun _ => probes_ensureNearby

theorem probes_recordLocation {rid clientId : Id} {role : EClientType}
    {location : ParticipantLocation} : Probes env (recordLocation rid clientId role location) := by
  refine Probes.bind probes_getState fun state => ?_
  have hd : Probes env (driverDistance state role location) := by
    unfold driverDistance
    split
    · exact probes_distance
    · exact probes_ret
  exact Probes.bind hd fun _ => Probes.bind (probes_call fun _ => ⟨rfl, rfl⟩) fun _ =>
    Probes.bind (probes_call fun _ => ⟨rfl, rfl⟩) fun _ =>
    Probes.bind (probes_call fun _ => ⟨rfl, rfl⟩) fun _ =>
    Probes.bind (probes_call fun _ => ⟨rfl, rfl⟩) fun _ => probes_ret

theorem probes_markRideCompleted {rid : Id} : Probes env (markRideCompleted rid) := by
  refine Probes.bind probes_getState fun state => ?_
  split
  · exact Probes.bind (probes_call fun _ => ⟨rfl, rfl⟩) fun _ => probes_call fun _ => ⟨rfl, rfl⟩
  · exact probes_ret

end NebLite
