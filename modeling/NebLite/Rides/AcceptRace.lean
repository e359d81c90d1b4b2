import NebLite.Rides.Sequential
import NebLite.Rides.Race

/-! Concurrent `acceptRideByDriver` calls on one open ride take the steps of
the race. -/

namespace NebLite

open Atomic

/-- How often a driver was told that he was not selected for a ride. -/
def World.supersededCount (w : World) (rid d : Id) : ℕ :=
  (w.notifications.filter fun n => n.target = .driver ∧ n.targetId = d ∧ n.rideId = rid ∧
    n.event = "ride.driver.not_selected").length

def World.race (w : World) (rid : Id) : Race where
  driver := (w.rides.find rid).bind (·.driverId)
  status := ((w.rides.find rid).map (·.status)).getD .nystart
  cand := w.answers rid
  told := w.supersededCount rid

/-- The columns of a candidate row that no acceptance changes. -/
def RideDriverCandidate.seat (c : RideDriverCandidate) : Id × Id × Id × Time :=
  (c.id, c.rideId, c.driverId, c.createdAt)

/-- The ride is there, and its candidates sit where they sat in `w₀`. -/
structure World.Raced (w₀ : World) (rid : Id) (w : World) : Prop where
  ride : ∃ r, w.rides.find rid = some r
  seats : ∀ d, (w.findCandidate rid d).map (·.seat) = (w₀.findCandidate rid d).map (·.seat)

/-- One executed call of a caller for driver `d`. -/
structure Advances (w₀ : World) (rid d : Id) (p : Race.Phase) (op : Call) (w : World)
    (q : Race.Phase) (w' : World) : Prop where
  step : Race.Step d p (w.race rid) q (w'.race rid)
  raced : w₀.Raced rid w'
  rows : ∀ c ∈ w'.candidates.rows, c ∈ w.candidates.rows ∨
    c.driverId = d ∧ w'.answers rid d = some c.status
  claims : p = .claiming → op = .claimDriver rid d
  claimsOnly : ∀ x y, op = .claimDriver x y → x = rid ∧ p = .claiming

def acceptOutline (env : Environment) (w₀ : World) (rid d : Id) : Outline Race.Phase Call World where
  pre p w := w₀.Raced rid w ∧ ((w.race rid).status = .candidatesComputed ∨
    (w.race rid).status = .assigned ∨ (w.race rid).status = .accepted) ∧
    (p.Mine → (w.race rid).driver = some d) ∧ (w.race rid).cand d ≠ some .confirmed
  move p op w q := Advances w₀ rid d p op w q (handle env op w).2

/-- What a caller has thrown or returned in each phase in which it can end. -/
def AcceptDone (p : Race.Phase) (r : Except ServiceError Ride) : Prop :=
  (p = .settled ∧ ∃ ride, r = .ok ride) ∨
  (p = .beaten ∧ r = .error (.conflict "Ride already accepted by another driver")) ∨
  (p = .collided ∧ r = .error (.error "Ride already claimed")) ∨
  (p = .refused ∧ ∃ e, r = .error e)

variable {env : Environment} {w₀ w w' : World} {rid d : Id} {p q : Race.Phase}

theorem race_of_find {r : Ride} (hr : w.rides.find rid = some r) :
    w.race rid = ⟨r.driverId, r.status, w.answers rid, w.supersededCount rid⟩ := by
  simp [World.race, hr]

theorem supersededCount_emit (n : Notification) (x : Id) :
    World.supersededCount { w with notifications := w.notifications ++ [n] } rid x =
      w.supersededCount rid x + if n.target = .driver ∧ n.targetId = x ∧ n.rideId = rid ∧
        n.event = "ride.driver.not_selected" then 1 else 0 := by
  simp only [World.supersededCount, List.filter_append, List.length_append]
  congr 1
  split
  · next h => simp [h]
  · next h => simp [h]

/-- A call that leaves rides, candidates and the count alone moves a phase at most. -/
theorem advances_quiet {op : Call} (h : w₀.Raced rid w) (hr : w'.rides = w.rides)
    (hc : w'.candidates = w.candidates) (hn : w'.supersededCount rid = w.supersededCount rid)
    (hs : Race.Step d p (w.race rid) q (w.race rid))
    (hcl : p = .claiming → op = .claimDriver rid d)
    (hop : ∀ x y, op = .claimDriver x y → x = rid ∧ p = .claiming) :
    Advances w₀ rid d p op w q w' where
  step := by
    have he : w'.race rid = w.race rid := by simp only [World.race, hr, hn, World.answers_congr hc]
    rwa [he]
  raced := ⟨hr ▸ h.ride, fun x => by simpa only [World.findCandidate, hc] using h.seats x⟩
  rows c hm := .inl (hc ▸ hm)
  claims := hcl
  claimsOnly := hop

section Follows

variable {α : Type} {done : Race.Phase → Except ServiceError α → Prop}

theorem follows_findById {f : Option Ride → Service α} (hp : p ≠ .claiming)
    (h : ∀ w r, (acceptOutline env w₀ rid d).pre p w → w.rides.find rid = some r → r.id = rid →
      ∃ q, Race.Step d p (w.race rid) q (w.race rid) ∧
        (acceptOutline env w₀ rid d).Follows (handle env) done q (f (some r))) :
    (acceptOutline env w₀ rid d).Follows (handle env) done p (findById rid >>= f) := by
  refine Outline.Follows.perform fun w hw => ?_
  obtain ⟨r, hr⟩ := hw.1.ride
  obtain ⟨q, hs, hf⟩ := h w r hw hr (Table.key_of_find hr)
  refine ⟨q, advances_quiet hw.1 rfl rfl rfl hs (by simp [hp]) (by simp), ?_⟩
  simpa [handle, hr] using hf

/-- Reading the ride where the phase stays. -/
theorem follows_reread {f : Option Ride → Service α}
    (hp : p = .assigning ∨ p = .accepting ∨ p = .settled)
    (h : ∀ r, r.id = rid → r.driverId = some d →
      (acceptOutline env w₀ rid d).Follows (handle env) done p (f (some r))) :
    (acceptOutline env w₀ rid d).Follows (handle env) done p (findById rid >>= f) := by
  refine follows_findById (by rcases hp with rfl | rfl | rfl <;> simp)
    fun w r hw hr hid => ⟨p, .stay hp, h r hid ?_⟩
  have hm := hw.2.2.1 (by rcases hp with rfl | rfl | rfl <;> simp [Race.Phase.Mine, Race.Phase.Working])
  simpa [race_of_find hr] using hm

theorem follows_findCandidate {f : Option RideDriverCandidate → Service α} (hp : p ≠ .claiming)
    (h : ∀ w, (acceptOutline env w₀ rid d).pre p w →
      ∃ q, Race.Step d p (w.race rid) q (w.race rid) ∧
        (acceptOutline env w₀ rid d).Follows (handle env) done q (f (w.findCandidate rid d))) :
    (acceptOutline env w₀ rid d).Follows (handle env) done p (findByRideAndDriver rid d >>= f) := by
  refine Outline.Follows.perform fun w hw => ?_
  obtain ⟨q, hs, hf⟩ := h w hw
  exact ⟨q, advances_quiet hw.1 rfl rfl rfl hs (by simp [hp]) (by simp), hf⟩

theorem follows_quiet {c : Call} {f : c.Answer → Service α} (a : c.Answer)
    (hc : ∀ w, ∃ w', handle env c w = (.ok a, w') ∧ w'.rides = w.rides ∧
      w'.candidates = w.candidates ∧ w'.supersededCount rid = w.supersededCount rid)
    (hop : ∀ x y, c ≠ .claimDriver x y) (hp : p = .assigning ∨ p = .accepting ∨ p = .settled)
    (h : (acceptOutline env w₀ rid d).Follows (handle env) done p (f a)) :
    (acceptOutline env w₀ rid d).Follows (handle env) done p (call c >>= f) := by
  refine Outline.Follows.perform fun w hw => ⟨p, ?_, ?_⟩
  · obtain ⟨w', he, hr, hcand, hn⟩ := hc w
    exact advances_quiet hw.1 (by rw [he]; exact hr) (by rw [he]; exact hcand) (by rw [he]; exact hn)
      (.stay hp) (by rcases hp with rfl | rfl | rfl <;> simp) fun x y hxy => absurd hxy (hop x y)
  · obtain ⟨w', he, -⟩ := hc w
    simpa [he] using h

/-- The UPDATE of a transition, from a snapshot in which the caller's driver has the ride. -/
theorem follows_updateRow {m : Ride} {f : UpdateResult → Service α} (hid : m.id = rid)
    (hd : m.driverId = some d)
    (hp : p = .assigning ∧ q = .assigning ∧ m.status = .assigned ∨
      p = .accepting ∧ q = .settled ∧ m.status = .accepted)
    (h : (acceptOutline env w₀ rid d).Follows (handle env) done q (f ([rid], 1))) :
    (acceptOutline env w₀ rid d).Follows (handle env) done p (call (.updateRideRow m) >>= f) := by
  subst hid
  refine Outline.Follows.perform fun w hw => ⟨q, ?_, ?_⟩
  · obtain ⟨r, hr⟩ := hw.1.ride
    have hrow : (r.writeColumns m).id = m.id := Table.key_of_find hr
    have hf : (w.rides.put (r.writeColumns m)).find m.id = some (r.writeColumns m) := by
      rw [← hrow] at hr ⊢
      exact Table.find_put_self hr
    have hw' : (handle env (.updateRideRow m) w).2 =
        { w with rides := w.rides.put (r.writeColumns m) } := by
      simp [handle, World.updateRideRow, hr]
    change Advances w₀ m.id d p _ w q _
    rw [hw']
    refine ⟨?_, ⟨⟨_, hf⟩, hw.1.seats⟩, fun c hc => .inl hc,
      by rcases hp with ⟨rfl, -⟩ | ⟨rfl, -⟩ <;> simp, by simp⟩
    have he : World.race { w with rides := w.rides.put (r.writeColumns m) } m.id =
        { w.race m.id with driver := some d, status := m.status } := by
      rw [race_of_find hf, race_of_find hr]
      simp only [Ride.writeColumns, hd]
      rfl
    rw [he]
    rcases hp with ⟨rfl, rfl, hs⟩ | ⟨rfl, rfl, hs⟩
    · rw [hs]
      exact .assign
    · rw [hs]
      exact .accept
  · obtain ⟨r, hr⟩ := hw.1.ride
    simpa [handle, World.updateRideRow, hr] using h

theorem follows_updateRide {m : Ride} {f : Ride → Service α} (hid : m.id = rid)
    (hd : m.driverId = some d)
    (hp : p = .assigning ∧ q = .assigning ∧ m.status = .assigned ∨
      p = .accepting ∧ q = .settled ∧ m.status = .accepted)
    (h : ∀ r, r.id = rid → (acceptOutline env w₀ rid d).Follows (handle env) done q (f r)) :
    (acceptOutline env w₀ rid d).Follows (handle env) done p (updateRide m.changes >>= f) := by
  unfold updateRide
  have hc : m.changes.id = rid := hid
  simp only [bind_assoc, hc]
  refine follows_reread (by rcases hp with ⟨rfl, -⟩ | ⟨rfl, -⟩ <;> simp) fun r hr _ => ?_
  simp only [bind_assoc]
  refine follows_updateRow hid ((merge_driverId r m).trans hd) hp ?_
  simp only [UpdateResult.length, Nat.reduceEqDiff, if_false, merge_id, hid, bind_assoc]
  exact follows_reread (by rcases hp with ⟨-, rfl, -⟩ | ⟨-, rfl, -⟩ <;> simp) fun x hx _ => h x hx

theorem follows_recordStatusChange {fromStatus toStatus context} {f : Unit → Service α}
    (hp : p = .assigning ∨ p = .settled)
    (h : (acceptOutline env w₀ rid d).Follows (handle env) done p (f ())) :
    (acceptOutline env w₀ rid d).Follows (handle env) done p
      (recordStatusChange rid fromStatus toStatus context >>= f) :=
  follows_quiet () (fun w => ⟨_, rfl, rfl, rfl, rfl⟩) (by simp)
    (by rcases hp with rfl | rfl <;> simp) h

/-- The first transition of an acceptance; it keeps the phase. -/
theorem follows_assign {context : Option String} {f : Ride × Bool → Service α}
    (h : ∀ r changed, r.id = rid →
      (acceptOutline env w₀ rid d).Follows (handle env) done .assigning (f (r, changed))) :
    (acceptOutline env w₀ rid d).Follows (handle env) done .assigning
      (transitionRideStatus rid [.requested, .candidatesComputed] .assigned context >>= f) := by
  unfold transitionRideStatus
  simp only [bind_assoc]
  refine follows_reread (.inl rfl) fun r hid hd => ?_
  simp only
  split
  · exact h r false hid
  · split
    · exact h r false hid
    · simp only [bind_assoc]
      refine follows_updateRide (q := .assigning) (m := withStatus r .assigned context) hid hd
        (.inl ⟨rfl, rfl, rfl⟩) fun x hx => ?_
      rw [hx]
      exact follows_recordStatusChange (.inl rfl) (h x true hx)

/-- The second transition; afterwards the acceptance is complete. -/
theorem follows_accept {context : Option String} {f : Ride × Bool → Service α}
    (h : ∀ r changed, r.id = rid →
      (acceptOutline env w₀ rid d).Follows (handle env) done .settled (f (r, changed))) :
    (acceptOutline env w₀ rid d).Follows (handle env) done .assigning
      (transitionRideStatus rid [.assigned, .candidatesComputed] .accepted context >>= f) := by
  unfold transitionRideStatus
  simp only [bind_assoc]
  refine follows_findById (by simp) fun w r hw hr hid => ?_
  have hd : r.driverId = some d := by
    simpa [race_of_find hr] using hw.2.2.1 (by simp [Race.Phase.Mine, Race.Phase.Working])
  simp only
  split
  · next hs =>
    refine ⟨.settled, .done ?_ ?_, h r false hid⟩ <;> rw [race_of_find hr] <;> simp_all
  · next hs =>
    rw [not_not, List.mem_cons, List.mem_singleton] at hs
    refine ⟨.accepting, .proceed (by rwa [race_of_find hr]), ?_⟩
    rw [if_neg (by rcases hs with hs | hs <;> simp [hs])]
    simp only [bind_assoc]
    refine follows_updateRide (q := .settled) (m := withStatus r .accepted context) hid hd
      (.inr ⟨rfl, rfl, rfl⟩) fun x hx => ?_
    rw [hx]
    exact follows_recordStatusChange (.inr rfl) (h x true hx)

/-- The caller's candidate row is written back with another answer. -/
theorem follows_saveCandidate {n : RideDriverCandidate} {f : Unit → Service α}
    (hn : (w₀.findCandidate rid d).map (·.seat) = some n.seat)
    (hp : p ≠ .claiming) (hs : ∀ s : Race, Race.Step d p s q (s.answer d n.status))
    (h : (acceptOutline env w₀ rid d).Follows (handle env) done q (f ())) :
    (acceptOutline env w₀ rid d).Follows (handle env) done p (saveCandidate n >>= f) := by
  refine Outline.Follows.perform fun w hw => ⟨q, ?_, h⟩
  obtain ⟨r, hr⟩ := hw.1.ride
  obtain ⟨c, hc, hcn⟩ := Option.map_eq_some_iff.mp ((hw.1.seats d).trans hn)
  obtain ⟨hi, hri, hdi, ht⟩ : c.id = n.id ∧ c.rideId = n.rideId ∧ c.driverId = n.driverId ∧
      c.createdAt = n.createdAt := by simpa [RideDriverCandidate.seat] using hcn
  obtain ⟨hm, -, hcd⟩ := World.mem_of_findCandidate hc
  have heq := World.saveCandidate_eq (n := n) (hi ▸ World.find_of_mem hm) hdi.symm ht.symm
  have hb := (World.becomes_saveCandidate (World.booking_of_find hr) hc hi.symm hri.symm hdi.symm
    ht.symm).booked
  have hans : (w.saveCandidate n).answers rid = Function.update (w.answers rid) d (some n.status) := by
    have hid : r.id = rid := Table.key_of_find hr
    have hr' : (w.saveCandidate n).rides.find rid = some r := by rwa [heq]
    rw [World.booking_of_find hr', Option.some.injEq] at hb
    simpa [World.bookingOf, Booking.answer, hid] using congrArg Booking.cand hb
  have hrace : (w.saveCandidate n).race rid = (w.race rid).answer d n.status := by
    have hr' : (w.saveCandidate n).rides.find rid = some r := by rwa [heq]
    rw [race_of_find hr', race_of_find hr, hans, heq]
    rfl
  have hrow (y : RideDriverCandidate) (hy : y ∈ w.candidates.rows) (he : y.id = n.id) : y = c :=
    Option.some.inj ((World.find_of_mem hy).symm.trans (by rw [he, ← hi]; exact World.find_of_mem hm))
  refine ⟨hrace ▸ hs _, ⟨⟨r, by rwa [handle, heq]⟩, fun x => ?_⟩, fun x hx => ?_,
    by simp [hp], by simp⟩
  · rw [← hw.1.seats x, handle, heq]
    rw [World.findCandidate_map (w := w) (g := fun y => if y.id = n.id then n else y) rfl ?_ rid x,
      Option.map_map]
    · refine Option.map_congr fun y hy => ?_
      by_cases he : y.id = n.id
      · rw [hrow y (World.mem_of_findCandidate hy).1 he]
        simp [hi, RideDriverCandidate.seat, hri, hdi, ht]
      · simp [he]
    · intro y hy
      by_cases he : y.id = n.id
      · rw [hrow y hy he]
        simp [hi, hri, hdi]
      · simp [he]
  · simp only [handle, heq, Table.mem_put] at hx
    rcases hx with ⟨rfl, -⟩ | ⟨hx, -⟩
    · exact .inr ⟨hdi ▸ hcd, by simp [handle, hans]⟩
    · exact .inl hx

theorem follows_claimDriver {f : Bool → Service α}
    (herr : done .collided (.error (.error "Ride already claimed")))
    (h : (acceptOutline env w₀ rid d).Follows (handle env) done .saving (f true)) :
    (acceptOutline env w₀ rid d).Follows (handle env) done .claiming
      (call (.claimDriver rid d) >>= f) := by
  refine Outline.Follows.perform fun w hw => ?_
  obtain ⟨r, hr⟩ := hw.1.ride
  cases hd : r.driverId with
  | some x =>
    have he : handle env (.claimDriver rid d) w = (.error (.error "Ride already claimed"), w) := by
      simp [handle, World.claimDriver, hr, hd]
    refine ⟨.collided, ?_, by rw [he]; exact herr⟩
    refine advances_quiet hw.1 (by rw [he]) (by rw [he]) (by rw [he]) (.collide ?_)
      (by simp) (by simp +contextual)
    simp [race_of_find hr, hd]
  | none =>
    have he : handle env (.claimDriver rid d) w =
        (.ok true, { w with rides := w.rides.put { r with driverId := some d } }) := by
      simp [handle, World.claimDriver, hr, hd, UpdateResult.length]
    have hid : r.id = rid := Table.key_of_find hr
    have hf : (w.rides.put { r with driverId := some d }).find rid =
        some { r with driverId := some d } := by
      subst hid
      exact Table.find_put_self (r := { r with driverId := some d }) hr
    refine ⟨.saving, ?_, by rw [he]; exact h⟩
    change Advances w₀ rid d _ _ w _ _
    rw [he]
    refine ⟨?_, ⟨⟨_, hf⟩, hw.1.seats⟩, fun c hc => .inl hc, by simp, by simp +contextual⟩
    have hrace : World.race { w with rides := w.rides.put { r with driverId := some d } } rid =
        { w.race rid with driver := some d } := by
      rw [race_of_find hf, race_of_find hr]
      rfl
    rw [hrace]
    exact .claim (by simp [race_of_find hr, hd])

theorem follows_superseded {r : Ride} {c : RideDriverCandidate} {now : Time} {f : Unit → Service α}
    (hr : r.id = rid) (hc : (w₀.findCandidate rid d).map (·.seat) = some c.seat) (hd : c.driverId = d)
    (h : (acceptOutline env w₀ rid d).Follows (handle env) done .beaten (f ())) :
    (acceptOutline env w₀ rid d).Follows (handle env) done .losing
      (markCandidateSuperseded r c now >>= f) := by
  unfold markCandidateSuperseded
  simp only [bind_assoc]
  refine follows_saveCandidate (q := .telling) hc (by simp) (fun _ => .supersede) ?_
  refine Outline.Follows.perform fun w hw => ⟨.beaten, ?_, h⟩
  have hstep (n : Notification) (hn : n.target = .driver ∧ n.targetId = d ∧ n.rideId = rid ∧
      n.event = "ride.driver.not_selected") : Race.Step d .telling (w.race rid) .beaten
        (World.race { w with notifications := w.notifications ++ [n] } rid) := by
    have htold : World.supersededCount { w with notifications := w.notifications ++ [n] } rid =
        Function.update (w.supersededCount rid) d (w.supersededCount rid d + 1) := by
      funext y
      rw [supersededCount_emit, Function.update_apply]
      by_cases hy : y = d
      · subst hy
        simp [hn]
      · simp [hn, hy, Ne.symm hy]
    have hrace : World.race { w with notifications := w.notifications ++ [n] } rid =
        { w.race rid with told := Function.update (w.race rid).told d ((w.race rid).told d + 1) } := by
      simp only [World.race, htold]
      rfl
    rw [hrace]
    exact .tell
  refine ⟨hstep _ ?_, ⟨hw.1.ride, hw.1.seats⟩, fun y hy => .inl hy, by simp, by simp⟩
  exact ⟨rfl, hd, hr, rfl⟩

/-- An acceptance from the point where the ride is the driver's. -/
theorem follows_acceptClaimedRide {c : RideDriverCandidate} {now : Time}
    (hc : (w₀.findCandidate rid d).map (·.seat) = some c.seat) :
    (acceptOutline env w₀ rid d).Follows (handle env) AcceptDone .saving
      (acceptClaimedRide rid c now) := by
  unfold acceptClaimedRide
  refine follows_saveCandidate (q := .assigning) hc (by simp) (fun _ => .save) ?_
  refine follows_assign fun r _ hr => ?_
  simp only [hr]
  refine follows_accept fun x _ hx => ?_
  refine follows_quiet () (fun w => ⟨_, rfl, rfl, rfl, ?_⟩) (by simp) (by simp) ?_
  · funext y
    rw [supersededCount_emit]
    simp
  · refine follows_reread (by simp) fun y _ _ => ?_
    exact .inl ⟨rfl, _, rfl⟩

/-- The phase of a caller that has read the ride. -/
theorem seen_phase {s : Race} : ∃ p, Race.Step d .started s p s ∧
    (p = .sawFree ∧ s.driver = none ∨ p = .sawSelf ∧ s.driver = some d ∨
      p = .sawOther ∧ ∃ x, x ≠ d ∧ s.driver = some x) := by
  cases hd : s.driver with
  | none => exact ⟨.sawFree, .seeFree hd, .inl ⟨rfl, rfl⟩⟩
  | some x =>
    by_cases hx : x = d
    · exact ⟨.sawSelf, .seeSelf (hx ▸ hd), .inr (.inl ⟨rfl, by rw [hx]⟩)⟩
    · exact ⟨.sawOther, .seeOther hd hx, .inr (.inr ⟨rfl, x, hx, rfl⟩)⟩

theorem follows_acceptRideByDriver (now : Time) :
    (acceptOutline env w₀ rid d).Follows (handle env) AcceptDone .started
      (acceptRideByDriver rid d now) := by
  unfold acceptRideByDriver
  refine follows_findById (by simp) fun v r hv hr hid => ?_
  subst hid
  obtain ⟨p, hstep, hseen⟩ := seen_phase (s := v.race r.id) (d := d)
  refine ⟨p, hstep, ?_⟩
  have hst := hv.2.1
  rw [race_of_find hr] at hst hseen
  simp only [↓Program.throw_seq]
  rw [if_neg (by rcases hst with hs | hs | hs <;> simp_all),
    if_neg (by rcases hst with hs | hs | hs <;> simp_all)]
  have hp : p = .sawFree ∨ p = .sawSelf ∨ p = .sawOther :=
    hseen.imp And.left (Or.imp And.left And.left)
  refine follows_findCandidate (by rcases hp with rfl | rfl | rfl <;> simp) fun w hw => ?_
  have hans : (w.race r.id).cand d = (w.findCandidate r.id d).map (·.status) := rfl
  have hrefuse (h : ¬ Race.Open ((w.race r.id).cand d)) (e : ServiceError) :
      ∃ q, Race.Step d p (w.race r.id) q (w.race r.id) ∧
        (acceptOutline env w₀ r.id d).Follows (handle env) AcceptDone q (.throw e : Service Ride) :=
    ⟨.refused, .refuse hp h, .inr (.inr (.inr ⟨rfl, e, rfl⟩))⟩
  cases hc : w.findCandidate r.id d with
  | none => exact hrefuse (by simp [hans, hc, Race.Open]) _
  | some c =>
    rw [hc, Option.map_some] at hans
    simp only
    by_cases h1 : c.status = .canceled
    · rw [if_pos h1]
      exact hrefuse (by simp [hans, h1, Race.Open]) _
    by_cases h2 : c.status = .declined
    · rw [if_neg h1, if_pos h2]
      exact hrefuse (by simp [hans, h2, Race.Open]) _
    rw [if_neg h1, if_neg h2]
    have h3 : c.status ≠ .confirmed := fun he => hw.2.2.2 (by rw [hans, he])
    have hopen : Race.Open ((w.race r.id).cand d) := by
      rw [hans, Race.Open]
      cases hs : c.status <;> simp_all
    have hseat : (w₀.findCandidate r.id d).map (·.seat) = some c.seat := by
      rw [← hw.1.seats d, hc]
      rfl
    have hcd : c.driverId = d := (World.mem_of_findCandidate hc).2.2
    rcases hseen with ⟨rfl, hd⟩ | ⟨rfl, hd⟩ | ⟨rfl, x, hx, hd⟩
    · simp only at hd
      rw [if_neg (by simp [h3, hd])]
      simp only [hd]
      refine ⟨.claiming, .claimNext hopen, follows_claimDriver ?_ ?_⟩
      · exact .inr (.inr (.inl ⟨rfl, rfl⟩))
      · exact follows_acceptClaimedRide hseat
    · simp only at hd
      by_cases h4 : c.status = .accepted ∧ (r.status = .accepted ∨ r.status = .enroute)
      · rw [if_pos (Or.inr ⟨h4.1, hd, h4.2⟩)]
        exact ⟨.settled, .already (by rw [hans, h4.1]), .inl ⟨rfl, r, rfl⟩⟩
      · rw [if_neg (by rintro (h | ⟨ha, -, hs⟩); exacts [h3 h, h4 ⟨ha, hs⟩])]
        simp only [hd, ne_eq, not_true_eq_false, if_false]
        exact ⟨.saving, .resume hopen, follows_acceptClaimedRide hseat⟩
    · simp only at hd
      rw [if_neg (by simp [h3, hd, hx])]
      simp only [hd, ne_eq, hx, not_false_eq_true, if_true]
      exact ⟨.losing, .lose hopen, follows_superseded rfl hseat hcd (.inr (.inl ⟨rfl, rfl⟩))⟩

end Follows

end NebLite
