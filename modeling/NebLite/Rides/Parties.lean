import NebLite.Atomic.Knowledge
import NebLite.Rides.Views

/-! The parties of a ride, and the calls that respect what is known of them. Where drivers have
been seen is decided beyond the tables. -/

namespace NebLite

open Atomic Knowledge

/-- The driver has been invited to the ride. -/
def World.Invited (w : World) (rideId driverId : Id) : Prop :=
  ∃ c ∈ w.candidates.rows, c.rideId = rideId ∧ c.driverId = driverId

/-- The candidate row that a notification carries. -/
def NotificationExtras.row : NotificationExtras → Option RideDriverCandidate
  | .candidate c | .offer c _ | .rejection c _ | .cancellation c _ => some c
  | .none | .summary _ | .payment _ => Option.none

/-- A notification goes to the rider of its ride or to a driver that has been invited to it, and
names nobody else. Of a driver's row other drivers see nothing, but for a confirmation. -/
structure Notification.Addressed (w : World) (n : Notification) : Prop where
  ride : ∃ r, w.rides.find n.rideId = some r ∧ r.riderId = n.riderId
  rider : n.target = .rider → n.targetId = n.riderId
  driver : n.target = .driver → w.Invited n.rideId n.targetId
  assigned : ∀ d, n.driverId = some d → w.Invited n.rideId d
  row : ∀ c, n.extras.row = some c → c.rideId = n.rideId ∧ w.Invited n.rideId c.driverId ∧
    (n.target = .driver → n.event ≠ "ride.rider.confirmed" → c.driverId = n.targetId)

/-- What holds beyond the tables: which drivers have been seen near a point, and facts of another kind. -/
structure Beyond (T : Type) where
  seen : Coordinate → Id → Prop
  holds : T → Prop

/-- What stays true of the parties of a ride, and beyond the tables. -/
inductive PartyFact (T : Type) where
  | booked (rideId riderId : Id) (pickup : Coordinate)
  | invited (rideId driverId : Id)
  | row (id rideId driverId : Id)
  | sighted (pickup : Coordinate) (driverId : Id)
  | beyond (t : T)

def PartyFact.Holds {T : Type} (b : Beyond T) (w : World) : PartyFact T → Prop
  | booked k i p => ∃ r, w.rides.find k = some r ∧ r.riderId = i ∧ r.pickup = p
  | invited k d => w.Invited k d
  | row i k d => ∃ c, w.candidates.find i = some c ∧ c.rideId = k ∧ c.driverId = d
  | sighted p d => b.seen p d
  | beyond t => b.holds t

/-- Only drivers that have been seen near its pickup point are invited to a ride, only invited
drivers have it, and all notifications have gone to parties of their rides. -/
structure World.AddressedAll (seen : Coordinate → Id → Prop) (w : World) : Prop where
  near : ∀ c ∈ w.candidates.rows, ∃ r, w.rides.find c.rideId = some r ∧ seen r.pickup c.driverId
  seated : ∀ k r d, w.rides.find k = some r → r.driverId = some d → w.Invited k d
  sent : ∀ n ∈ w.notifications, n.Addressed w

def parties {T : Type} (b : Beyond T) : Knowledge (PartyFact T) World :=
  ⟨World.AddressedAll b.seen, fun f w => f.Holds b w⟩

/-- What a row of the rides tells of its parties. -/
def Ride.partyFacts {T : Type} (r : Ride) : List (PartyFact T) :=
  .booked r.id r.riderId r.pickup :: r.driverId.toList.map (.invited r.id)

def RideDriverCandidate.partyFacts {T : Type} (c : RideDriverCandidate) : List (PartyFact T) :=
  [.row c.id c.rideId c.driverId, .invited c.rideId c.driverId]

/-- Calls that leave the bookings and send nothing. -/
def Call.Harmless : Call → Prop
  | .updateRideRow _ | .claimDriver _ _ | .insertRide _ | .saveCandidate _ | .emit _ => False
  | _ => True

/-- The parties of the rides in `w` are parties of them in `v`. -/
structure World.KeepsParties (w v : World) : Prop where
  riders : ∀ k r, w.rides.find k = some r →
    ∃ x, v.rides.find k = some x ∧ x.riderId = r.riderId ∧ x.pickup = r.pickup
  rows : ∀ k c, w.candidates.find k = some c →
    ∃ x, v.candidates.find k = some x ∧ x.rideId = c.rideId ∧ x.driverId = c.driverId

section Parties

variable {T : Type} {env : Environment} {w v : World} {known : List (PartyFact T)} {b : Beyond T}

theorem World.KeepsParties.invited (h : w.KeepsParties v) {k d : Id} (hi : w.Invited k d) : v.Invited k d := by
  obtain ⟨c, hc, hk, hd⟩ := hi
  obtain ⟨x, hx, hxk, hxd⟩ := h.rows c.id c (Table.find_some.mpr ⟨hc, rfl⟩)
  exact ⟨x, (Table.find_some.mp hx).1, hxk.trans hk, hxd.trans hd⟩

theorem World.KeepsParties.fact (h : w.KeepsParties v) {f : PartyFact T} (hf : f.Holds b w) : f.Holds b v := by
  cases f with
  | sighted p d => exact hf
  | beyond t => exact hf
  | booked k i p =>
    obtain ⟨r, hr, hi, hp⟩ := hf
    obtain ⟨x, hx, hxi, hxp⟩ := h.riders k r hr
    exact ⟨x, hx, hxi.trans hi, hxp.trans hp⟩
  | invited k d => exact h.invited hf
  | row i k d =>
    obtain ⟨c, hc, hk, hd⟩ := hf
    obtain ⟨x, hx, hxk, hxd⟩ := h.rows i c hc
    exact ⟨x, hx, hxk.trans hk, hxd.trans hd⟩

theorem World.KeepsParties.addressed (h : w.KeepsParties v) {n : Notification} (hn : n.Addressed w) :
    n.Addressed v where
  ride := by
    obtain ⟨r, hr, hi⟩ := hn.ride
    obtain ⟨x, hx, hxi, -⟩ := h.riders _ r hr
    exact ⟨x, hx, hxi.trans hi⟩
  rider := hn.rider
  driver ht := h.invited (hn.driver ht)
  assigned d hd := h.invited (hn.assigned d hd)
  row c hc := by
    obtain ⟨hk, hi, ht⟩ := hn.row c hc
    exact ⟨hk, h.invited hi, ht⟩

theorem World.KeepsParties.near (h : w.KeepsParties v) (hw : w.AddressedAll b.seen) {k d : Id} (hi : w.Invited k d) :
    ∃ r, v.rides.find k = some r ∧ b.seen r.pickup d := by
  obtain ⟨c, hc, rfl, rfl⟩ := hi
  obtain ⟨r, hr, hseen⟩ := hw.near c hc
  obtain ⟨x, hx, -, hpickup⟩ := h.riders _ r hr
  exact ⟨x, hx, hpickup ▸ hseen⟩

theorem World.KeepsParties.respects (h : w.KeepsParties v) (hw : w.AddressedAll b.seen)
    (hnear : ∀ c ∈ v.candidates.rows, w.Invited c.rideId c.driverId ∨
      ∃ r, v.rides.find c.rideId = some r ∧ b.seen r.pickup c.driverId)
    (hseated : ∀ k r d, v.rides.find k = some r → r.driverId = some d → v.Invited k d)
    (hsent : ∀ n ∈ v.notifications, n ∈ w.notifications ∨ n.Addressed v) : (parties b).Respects w v := by
  refine ⟨⟨fun c hc => ?_, hseated, fun n hn => ?_⟩, fun f hf => h.fact hf⟩
  · obtain hold | hnew := hnear c hc
    · exact h.near hw hold
    · exact hnew
  · obtain hold | hnew := hsent n hn
    · exact h.addressed (hw.sent n hold)
    · exact hnew

theorem World.Invited.of_row {c : RideDriverCandidate} (hc : c ∈ w.candidates.rows) : w.Invited c.rideId c.driverId :=
  ⟨c, hc, rfl, rfl⟩

theorem World.BookedAlike.seated (h : w.BookedAlike v) (hw : w.AddressedAll b.seen) {k : Id} {r : Ride} {d : Id}
    (hr : v.rides.find k = some r) (hd : r.driverId = some d) : v.Invited k d := by
  have hview : w.view k = some r.view := by
    rw [← h.view]
    show (v.rides.find k).map Ride.view = _
    rw [hr]
    rfl
  obtain ⟨x, hx, hxv⟩ := Option.map_eq_some_iff.mp hview
  obtain ⟨c, hc, hk, hcd⟩ := hw.seated k x d hx ((congrArg RideView.driverId hxv).trans hd)
  exact ⟨c, h.candidates ▸ hc, hk, hcd⟩

/-- Only the UPDATE of a ride can change its rider or its pickup point. -/
theorem riders_handle (env : Environment) {op : Call} (hop : ∀ m, op ≠ .updateRideRow m) {k : Id} {r : Ride}
    (hr : w.rides.find k = some r) :
    ∃ x, (handle env op w).2.rides.find k = some x ∧ x.riderId = r.riderId ∧ x.pickup = r.pickup := by
  have hid : r.id = k := Table.key_of_find hr
  subst hid
  refine ⟨op.onRide r, find_handle env op hr, ?_⟩
  obtain h | ⟨_, h⟩ | ⟨_, _, h⟩ | ⟨m, rfl, -, -⟩ := op.onRide_cases r
  · rw [h]
    exact ⟨rfl, rfl⟩
  · rw [h]
    exact ⟨rfl, rfl⟩
  · rw [h]
    exact ⟨rfl, rfl⟩
  · exact absurd rfl (hop m)

theorem Call.Harmless.respects {op : Call} (h : op.Harmless) (hw : w.AddressedAll b.seen) :
    (parties b).Respects w (handle env op w).2 := by
  have hoff : op.OffBookings := by cases op <;> trivial
  have hunseen : op.Unseen := by cases op <;> trivial
  have hother : ∀ m, op ≠ .updateRideRow m := by
    rintro m rfl
    exact h
  have hsame := hoff.kept env w
  have hkeeps : w.KeepsParties (handle env op w).2 :=
    ⟨fun k r hr => riders_handle env hother hr, fun _ c hc => ⟨c, hsame.candidates ▸ hc, rfl, rfl⟩⟩
  refine hkeeps.respects hw (fun c hc => .inl (.of_row (hsame.candidates ▸ hc)))
    (fun k r d hr hd => hsame.seated hw hr hd) fun n hn => .inl ?_
  rwa [(hunseen.kept env w).2] at hn

theorem respects_emit {n : Notification} (hw : w.AddressedAll b.seen) (hn : n.Addressed w) :
    (parties b).Respects w (handle env (.emit n) w).2 := by
  have hkeeps : w.KeepsParties (handle env (.emit n) w).2 :=
    ⟨fun _ r hr => ⟨r, hr, rfl, rfl⟩, fun _ c hc => ⟨c, hc, rfl, rfl⟩⟩
  refine hkeeps.respects hw (fun c hc => .inl (.of_row hc)) hw.seated fun x hx => ?_
  rcases List.mem_append.mp hx with hx | hx
  · exact .inl hx
  · obtain rfl := List.mem_singleton.mp hx
    exact .inr (hkeeps.addressed hn)

/-- A row that is put back with its rider and its pickup point, and without a driver that is not invited. -/
theorem respects_put {m r : Ride} (hw : w.AddressedAll b.seen) (hr : w.rides.find m.id = some r)
    (hrider : m.riderId = r.riderId) (hpickup : m.pickup = r.pickup)
    (hdriver : ∀ d, m.driverId = some d → w.Invited m.id d) :
    (parties b).Respects w { w with rides := w.rides.put m } := by
  have hfind (k : Id) := Table.find_put (r := m) hr k
  have hkeeps : w.KeepsParties { w with rides := w.rides.put m } := by
    refine ⟨fun k x hx => ?_, fun _ c hc => ⟨c, hc, rfl, rfl⟩⟩
    simp only [hfind k, Ride.key_eq]
    by_cases hk : k = m.id
    · subst hk
      obtain rfl := Option.some.inj (hx.symm.trans hr)
      exact ⟨m, if_pos rfl, hrider, hpickup⟩
    · exact ⟨x, by rw [if_neg hk, hx], rfl, rfl⟩
  refine hkeeps.respects hw (fun c hc => .inl (.of_row hc)) (fun k x d hx hd => ?_) fun n hn => .inl hn
  simp only [hfind k, Ride.key_eq] at hx
  by_cases hk : k = m.id
  · rw [if_pos hk] at hx
    obtain rfl := Option.some.inj hx
    exact hk ▸ hdriver d hd
  · rw [if_neg hk] at hx
    exact hw.seated k x d hx hd

theorem respects_updateRideRow {m : Ride} (hm : m.partyFacts ⊆ known) (h : (parties b).Knows known w) :
    (parties b).Respects w (handle env (.updateRideRow m) w).2 := by
  obtain ⟨r, hr, hrider, hpickup⟩ : (PartyFact.booked (T := T) m.id m.riderId m.pickup).Holds b w :=
    h.facts _ (hm List.mem_cons_self)
  have hid : r.id = m.id := Table.key_of_find hr
  have hfound : w.rides.find (r.writeColumns m).id = some r := hid.symm ▸ hr
  have hdriver (d : Id) (hd : (r.writeColumns m).driverId = some d) : w.Invited (r.writeColumns m).id d := by
    have hd : m.driverId = some d := hd
    have hmem : PartyFact.invited (T := T) m.id d ∈ m.partyFacts := by simp [Ride.partyFacts, hd]
    have hinvited : (PartyFact.invited (T := T) m.id d).Holds b w := h.facts _ (hm hmem)
    rw [← hid] at hinvited
    exact hinvited
  simp only [handle, World.updateRideRow, hr]
  exact respects_put h.inv hfound hrider.symm hpickup.symm hdriver

theorem respects_claimDriver {rid d : Id} (hd : .invited rid d ∈ known) (h : (parties b).Knows known w) :
    (parties b).Respects w (handle env (.claimDriver rid d) w).2 := by
  have hinvited : (PartyFact.invited (T := T) rid d).Holds b w := h.facts _ hd
  simp only [handle, World.claimDriver]
  cases hr : w.rides.find rid with
  | none => exact .refl h.inv
  | some r =>
    have hid : r.id = rid := Table.key_of_find hr
    simp only
    split
    · exact .refl h.inv
    · refine respects_put (m := { r with driverId := some d }) (r := r) h.inv (hid ▸ hr) rfl rfl fun e he => ?_
      obtain rfl := Option.some.inj he
      exact hid ▸ hinvited

theorem respects_saveCandidate {n : RideDriverCandidate} (hn : n.partyFacts ⊆ known)
    (h : (parties b).Knows known w) : (parties b).Respects w (handle env (.saveCandidate n) w).2 := by
  obtain ⟨c, hc, hride, hdriver⟩ : (PartyFact.row (T := T) n.id n.rideId n.driverId).Holds b w :=
    h.facts _ (hn List.mem_cons_self)
  have hid : c.id = n.id := Table.key_of_find hc
  let row : RideDriverCandidate := { n with id := c.id, driverId := c.driverId, createdAt := c.createdAt }
  have hsaved : (handle env (.saveCandidate n) w).2 = { w with candidates := w.candidates.put row } := by
    simp only [handle, World.saveCandidate, hc]
    rfl
  have hfound : w.candidates.find row.id = some c := hid ▸ hc
  rw [hsaved]
  have hkeeps : w.KeepsParties { w with candidates := w.candidates.put row } := by
    refine ⟨fun _ r hr => ⟨r, hr, rfl, rfl⟩, fun k x hx => ?_⟩
    simp only [Table.find_put (r := row) hfound, RideDriverCandidate.key_eq]
    by_cases hk : k = row.id
    · subst hk
      obtain rfl := Option.some.inj (hx.symm.trans hfound)
      exact ⟨row, if_pos rfl, hride.symm, rfl⟩
    · exact ⟨x, by rw [if_neg hk, hx], rfl, rfl⟩
  refine hkeeps.respects h.inv (fun x hx => .inl ?_) (fun k r d hr hd => hkeeps.invited (h.inv.seated k r d hr hd))
    fun x hx => .inl hx
  obtain ⟨rfl, -⟩ | ⟨hx, -⟩ := Table.mem_put.mp hx
  · exact ⟨c, (Table.find_some.mp hc).1, hride, rfl⟩
  · exact .of_row hx

theorem holds_partyFacts {c : RideDriverCandidate} (hc : c ∈ w.candidates.rows) :
    ∀ f ∈ c.partyFacts, f.Holds b w := by
  intro f hf
  rcases List.mem_cons.mp hf with rfl | hf
  · exact ⟨c, Table.find_some.mpr ⟨hc, rfl⟩, rfl, rfl⟩
  · obtain rfl := List.mem_singleton.mp hf
    exact ⟨c, hc, rfl, rfl⟩

/-- The candidates that a creation answers with are rows of its ride. -/
theorem insertCandidates_answer {rid : Id} {now : Time} {drivers : List NearbyDriver} {cs : List RideDriverCandidate}
    (h : World.insertCandidates rid now w drivers = .ok (v, cs)) :
    ∀ c ∈ cs, c ∈ v.candidates.rows ∧ c.rideId = rid := by
  induction drivers generalizing w cs with
  | nil =>
    cases h
    simp
  | cons driver drivers ih =>
    simp only [World.insertCandidates] at h
    cases hd : driver.driverId with
    | none => simp [hd] at h
    | some d =>
      simp only [hd] at h
      cases hi : World.insertCandidates rid now (w.insertCandidate rid now d driver.distanceMeters).1 drivers with
      | error e => simp [hi, Except.map] at h
      | ok vc =>
        obtain ⟨u, rest⟩ := vc
        simp only [hi, Except.map, Except.ok.injEq, Prod.mk.injEq] at h
        obtain ⟨rfl, rfl⟩ := h
        obtain ⟨-, new, hrows, -, -⟩ := insertCandidates_offers hi
        intro c hc
        rcases List.mem_cons.mp hc with rfl | hc
        · refine ⟨?_, rfl⟩
          rw [hrows]
          simp [World.insertCandidate, Table.insert]
        · exact ih hi c hc

theorem insertRide_candidates {options : RideCreationOptions} {created : Id × List RideDriverCandidate}
    (h : (w.insertRide options).1 = .ok created) : (∀ c ∈ created.2, c.rideId = created.1) ∧
      ∀ c ∈ created.2, c ∈ (w.insertRide options).2.candidates.rows := by
  unfold World.insertRide at h ⊢
  simp only at h ⊢
  split at h
  · cases h
  · next filled candidates hi =>
    cases h
    have hrows := insertCandidates_answer hi
    exact ⟨fun c hc => (hrows c hc).2, fun c hc => (hrows c hc).1⟩

/-- The rows after a creation are those before it, and one for each of the drivers. -/
theorem mem_insertRide {options : RideCreationOptions} {c : RideDriverCandidate}
    (h : c ∈ (w.insertRide options).2.candidates.rows) : c ∈ w.candidates.rows ∨
      ∃ driver ∈ options.nearbyDrivers, driver.driverId = some c.driverId := by
  unfold World.insertRide at h
  simp only at h
  split at h
  · exact .inl h
  · next filled candidates hi =>
    obtain ⟨-, new, hrows, -, hmap⟩ := insertCandidates_rows hi
    change c ∈ filled.candidates.rows at h
    rw [hrows] at h
    rcases List.mem_append.mp h with h | h
    · exact .inl h
    · have hid : some c.driverId ∈ new.map fun c => some c.driverId := List.mem_map_of_mem h
      rw [hmap] at hid
      exact .inr (List.mem_map.mp hid)

theorem respects_insertRide {options : RideCreationOptions} (hw : w.AddressedAll b.seen)
    (hseen : ∀ driver ∈ options.nearbyDrivers, ∀ d, driver.driverId = some d → b.seen options.ride.pickup d) :
    (parties b).Respects w (handle env (.insertRide options) w).2 := by
  show (parties b).Respects w (w.insertRide options).2
  have hmem (c : RideDriverCandidate) (hc : c ∈ (w.insertRide options).2.candidates.rows) :
      c ∈ w.candidates.rows ∨ ∃ driver ∈ options.nearbyDrivers, driver.driverId = some c.driverId := mem_insertRide hc
  obtain hkept | ⟨filled, new, hrows, hnew, hinserted⟩ := insertRide_cases w options
  · rw [hkept]
    exact .refl hw
  · rw [hinserted] at hmem ⊢
    have hfind (k : Id) : (w.rides.insert (World.newRide options.ride options.now) fun _ => rfl).find k =
        if k = w.rides.nextKey then some (World.newRide options.ride options.now w.rides.nextKey)
        else w.rides.find k := Table.find_insert k
    have hkeeps : w.KeepsParties { w with
        rides := w.rides.insert (World.newRide options.ride options.now) fun _ => rfl
        candidates := filled
        history := w.history ++ options.historyEntries.map fun entry =>
          ⟨w.rides.nextKey, entry.fromStatus, entry.toStatus, entry.context⟩ } := by
      refine ⟨fun k r hr => ⟨r, ?_, rfl, rfl⟩, fun k c hc => ⟨c, ?_, rfl, rfl⟩⟩
      · have hne : k ≠ w.rides.nextKey := by
          rintro rfl
          rw [Table.find_nextKey] at hr
          cases hr
        exact (hfind k).trans (by rw [if_neg hne, hr])
      · obtain ⟨hm, hk⟩ := Table.find_some.mp hc
        exact Table.find_some.mpr ⟨hrows ▸ List.mem_append_left new hm, hk⟩
    refine hkeeps.respects hw (fun c hc => ?_) (fun k r d hr hd => ?_) fun n hn => .inl hn
    · obtain hold | ⟨driver, hdriver, hid⟩ := hmem c hc
      · exact .inl (.of_row hold)
      · have hrow : c ∈ w.candidates.rows ++ new := hrows ▸ hc
        rcases List.mem_append.mp hrow with hold | hmade
        · exact .inl (.of_row hold)
        · rw [hnew c hmade]
          exact .inr ⟨_, (hfind _).trans (if_pos rfl), hseen driver hdriver _ hid⟩
    · have hr := (hfind k).symm.trans hr
      split at hr
      · obtain rfl := Option.some.inj hr
        cases hd
      · exact hkeeps.invited (hw.seated k r d hr hd)

end Parties

end NebLite
