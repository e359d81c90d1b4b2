import NebLite.Rides.Creation

/-! What each atomic call does to the row of one ride. -/

namespace NebLite

open Atomic

/-- The row `r` of a ride after a call. -/
def Call.onRide (r : Ride) : Call → Ride
  | .updateRideRow merged => if merged.id = r.id then r.writeColumns merged else r
  | .claimDriver rideId driverId =>
    if rideId = r.id ∧ r.driverId = none then { r with driverId := some driverId } else r
  | .updatePaymentState rideId paymentStatus paymentUrl =>
    if rideId = r.id then { r with paymentStatus, paymentUrl } else r
  | .saveDetailWithRideUpdate _ (some update) _ _ =>
    if update.rideId = r.id then
      { r with paymentStatus := update.paymentStatus, paymentUrl := update.paymentUrl }
    else r
  | _ => r

/-- All that a call can do to the row. -/
theorem Call.onRide_cases (op : Call) (r : Ride) :
    op.onRide r = r ∨ (∃ driverId, op.onRide r = { r with driverId }) ∨
    (∃ paymentStatus paymentUrl, op.onRide r = { r with paymentStatus, paymentUrl }) ∨
    ∃ m, op = .updateRideRow m ∧ m.id = r.id ∧ op.onRide r = r.writeColumns m := by
  cases op with
  | updateRideRow m =>
    simp only [onRide]
    split
    · next hid => exact .inr (.inr (.inr ⟨m, rfl, hid, rfl⟩))
    · exact .inl rfl
  | claimDriver =>
    simp only [onRide]
    split
    · exact .inr (.inl ⟨_, rfl⟩)
    · exact .inl rfl
  | updatePaymentState =>
    simp only [onRide]
    split
    · exact .inr (.inr (.inl ⟨_, _, rfl⟩))
    · exact .inl rfl
  | saveDetailWithRideUpdate _ update =>
    cases update with
    | none => exact .inl rfl
    | some u =>
      simp only [onRide]
      split
      · exact .inr (.inr (.inl ⟨_, _, rfl⟩))
      · exact .inl rfl
  | _ => exact .inl rfl

theorem Call.onRide_id (op : Call) (r : Ride) : (op.onRide r).id = r.id := by
  obtain h | ⟨_, h⟩ | ⟨_, _, h⟩ | ⟨_, -, -, h⟩ := op.onRide_cases r
  all_goals rw [h]
  rfl

variable {w : World}

/-- One row is put back where it was found. -/
theorem find_put_row {t : Table Ride} {x m r : Ride} (hx : t.find m.id = some x)
    (hr : t.find r.id = some r) : (t.put m).find r.id = some (if m.id = r.id then m else r) := by
  rw [Table.find_put hx, Ride.key_eq]
  by_cases h : r.id = m.id
  · simp [h]
  · rw [if_neg h, if_neg (Ne.symm h), hr]

theorem updatePaymentState_row {r : Ride} (hr : w.rides.find r.id = some r) (rideId : Id)
    (s : Option ERidePaymentStatus) (u : Option String) :
    (w.updatePaymentState rideId s u).2.rides.find r.id =
      some (if rideId = r.id then { r with paymentStatus := s, paymentUrl := u } else r) := by
  unfold World.updatePaymentState
  cases hx : w.rides.find rideId with
  | none =>
    rw [if_neg (by rintro rfl; simp [hr] at hx)]
    exact hr
  | some x =>
    have hid : x.id = rideId := Table.key_of_find hx
    have hp := find_put_row (m := { x with paymentStatus := s, paymentUrl := u }) (hid ▸ hx) hr
    refine hp.trans (congrArg some ?_)
    by_cases h : rideId = r.id
    · subst h
      obtain rfl := Option.some.inj (hr.symm.trans hx)
      simp
    · rw [if_neg h, if_neg (hid ▸ h)]

theorem claimDriver_row {r : Ride} (hr : w.rides.find r.id = some r) (rideId d : Id) :
    (w.claimDriver rideId d).2.rides.find r.id =
      some (if rideId = r.id ∧ r.driverId = none then { r with driverId := some d } else r) := by
  unfold World.claimDriver
  cases hx : w.rides.find rideId with
  | none =>
    rw [if_neg (by rintro ⟨rfl, -⟩; simp [hr] at hx)]
    exact hr
  | some x =>
    have hid : x.id = rideId := Table.key_of_find hx
    have hsame (h : rideId = r.id) : x = r := Option.some.inj (hx.symm.trans (h ▸ hr))
    simp only
    split
    · next y hd =>
      rw [if_neg]
      · exact hr
      · rintro ⟨h, hn⟩
        rw [hsame h, hn] at hd
        cases hd
    · next hd =>
      have hp := find_put_row (m := { x with driverId := some d }) (hid ▸ hx) hr
      refine hp.trans (congrArg some ?_)
      by_cases h : rideId = r.id
      · obtain rfl := hsame h
        simp [h, hd]
      · rw [if_neg (by simpa [hid] using h), if_neg fun hc => h hc.1]

theorem insertRide_row {r : Ride} (hr : w.rides.find r.id = some r) (options : RideCreationOptions) :
    (w.insertRide options).2.rides.find r.id = some r := by
  unfold World.insertRide
  simp only
  split
  · exact hr
  · next filled candidates hi =>
    have hne : r.id ≠ w.rides.nextKey := by
      intro he
      rw [he, Table.find_nextKey] at hr
      cases hr
    change filled.rides.find r.id = _
    rw [(insertCandidates_rows hi).1]
    refine (@Table.find_insert _ _ w.rides (World.newRide options.ride options.now)
      (fun _ => rfl) r.id).trans ?_
    rw [if_neg hne, hr]

theorem insertRide_rides {options : RideCreationOptions}
    (hd : ∀ d ∈ options.nearbyDrivers, d.driverId ≠ none) : (w.insertRide options).2.rides =
      w.rides.insert (World.newRide options.ride options.now) fun _ => rfl := by
  unfold World.insertRide
  simp only
  split
  · next e he =>
    obtain ⟨v, hv⟩ := insertCandidates_ok hd
    rw [hv] at he
    cases he
  · next filled candidates hi => exact (insertCandidates_rows hi).1

/-- The inserts of the candidates touch no other table. -/
theorem insertCandidates_frame {rid : Id} {now : Time} {drivers : List NearbyDriver} {w v : World}
    {cs : List RideDriverCandidate} (h : World.insertCandidates rid now w drivers = .ok (v, cs)) :
    v = { w with candidates := v.candidates } := by
  induction drivers generalizing w cs with
  | nil =>
    cases h
    rfl
  | cons driver drivers ih =>
    simp only [World.insertCandidates] at h
    cases hd : driver.driverId with
    | none => simp [hd] at h
    | some d =>
      simp only [hd] at h
      cases hi : World.insertCandidates rid now (w.insertCandidate rid now d driver.distanceMeters).1
        drivers with
      | error e => simp [hi, Except.map] at h
      | ok vc =>
        simp only [hi, Except.map, Except.ok.injEq, Prod.mk.injEq] at h
        obtain ⟨rfl, -⟩ := h
        have hrest := ih hi
        exact hrest

theorem insertRide_history {options : RideCreationOptions}
    (hd : ∀ d ∈ options.nearbyDrivers, d.driverId ≠ none) : (w.insertRide options).2.history =
      w.history ++ options.historyEntries.map fun entry =>
        ⟨w.rides.nextKey, entry.fromStatus, entry.toStatus, entry.context⟩ := by
  unfold World.insertRide
  simp only
  split
  · next e he =>
    obtain ⟨v, hv⟩ := insertCandidates_ok hd
    rw [hv] at he
    cases he
  · next filled candidates hi =>
    rw [congrArg World.history (insertCandidates_frame hi)]

/-- A creation with a blank driver id is rolled back. -/
theorem insertRide_kept {options : RideCreationOptions}
    (hd : ∃ d ∈ options.nearbyDrivers, d.driverId = none) : (w.insertRide options).2 = w := by
  unfold World.insertRide
  simp only
  split
  · rfl
  · next filled candidates hi =>
    obtain ⟨-, new, -, -, hmap⟩ := insertCandidates_rows hi
    obtain ⟨d, hm, hnone⟩ := hd
    have hin : (none : Option Id) ∈ options.nearbyDrivers.map (·.driverId) := List.mem_map.mpr ⟨d, hm, hnone⟩
    rw [← hmap] at hin
    simp at hin

theorem persistDetail_rides (d : RidePaymentDetail) : (w.persistDetail d).2.rides = w.rides := by
  unfold World.persistDetail
  split <;> rfl

/-- The transaction changes rides and candidates as its update of the ride does. -/
theorem saveDetailWithRideUpdate_rides (d : RidePaymentDetail) (update : Option RidePaymentUpdate)
    (outbox : Option OutboxUpdate) (now : Time) :
    (w.saveDetailWithRideUpdate d update outbox now).2.rides =
      (update.elim (w.persistDetail d).2 (w.persistDetail d).2.applyRideUpdate).rides ∧
    (w.saveDetailWithRideUpdate d update outbox now).2.candidates =
      (update.elim (w.persistDetail d).2 (w.persistDetail d).2.applyRideUpdate).candidates := by
  cases update <;> cases outbox <;> exact ⟨rfl, rfl⟩

/-- A row that is there stays there, changed as the call says. -/
theorem find_handle (env : Environment) (op : Call) {r : Ride} (hr : w.rides.find r.id = some r) :
    (handle env op w).2.rides.find r.id = some (op.onRide r) := by
  cases op with
  | updateRideRow m =>
    simp only [handle, World.updateRideRow, Call.onRide]
    cases hx : w.rides.find m.id with
    | none =>
      rw [if_neg (by intro he; simp [he, hr] at hx)]
      exact hr
    | some x =>
      have hid : x.id = m.id := Table.key_of_find hx
      have hp := find_put_row (m := x.writeColumns m) (by rw [← hid] at hx; exact hx) hr
      refine hp.trans (congrArg some ?_)
      by_cases h : m.id = r.id
      · obtain rfl := Option.some.inj (hr.symm.trans (h ▸ hx))
        simp [h, Ride.writeColumns]
      · rw [if_neg h, if_neg (by simpa [Ride.writeColumns, hid] using h)]
  | claimDriver rideId d => exact claimDriver_row hr rideId d
  | insertRide options => exact insertRide_row hr options
  | saveCandidate c =>
    simp only [handle, World.saveCandidate, Call.onRide]
    split <;> exact hr
  | updatePaymentState rideId s u => exact updatePaymentState_row hr rideId s u
  | saveDetail d =>
    simp only [handle, Call.onRide]
    change (w.persistDetail d).2.rides.find r.id = _
    rw [persistDetail_rides, hr]
  | saveDetailWithRideUpdate d update outbox now =>
    have hw : (w.persistDetail d).2.rides.find r.id = some r := by rw [persistDetail_rides, hr]
    have hrides : (handle env (.saveDetailWithRideUpdate d update outbox now) w).2.rides = _ :=
      (saveDetailWithRideUpdate_rides d update outbox now).1
    rw [hrides]
    cases update with
    | none => exact hw
    | some u => exact updatePaymentState_row hw u.rideId u.paymentStatus u.paymentUrl
  | saveDetailAndOutbox d input =>
    change (w.persistDetail d).2.rides.find r.id = _
    rw [persistDetail_rides, hr]
    rfl
  | takePaymentJob id =>
    simp only [handle, World.takePaymentJob, Call.onRide]
    split
    · split <;> exact hr
    · exact hr
  | finishPaymentJob id ok =>
    simp only [handle, World.finishPaymentJob, Call.onRide]
    split <;> exact hr
  | _ => exact hr

/-- All that a creation can do. -/
theorem insertRide_cases (w : World) (options : RideCreationOptions) : (w.insertRide options).2 = w ∨
    ∃ filled new, filled.rows = w.candidates.rows ++ new ∧ (∀ c ∈ new, c.rideId = w.rides.nextKey) ∧
      (w.insertRide options).2 = { w with
        rides := w.rides.insert (World.newRide options.ride options.now) fun _ => rfl
        candidates := filled
        history := w.history ++ options.historyEntries.map fun entry =>
          ⟨w.rides.nextKey, entry.fromStatus, entry.toStatus, entry.context⟩ } := by
  unfold World.insertRide
  simp only
  split
  · exact .inl rfl
  · next filled candidates hi =>
    obtain ⟨-, new, hrows, hnew, -⟩ := insertCandidates_rows hi
    refine .inr ⟨filled.candidates, new, hrows, fun c hc => (hnew c hc).1, ?_⟩
    generalize hf : filled.candidates = t
    rw [insertCandidates_frame hi, hf]

/-- Other calls than the creation put at most one row back. -/
theorem handle_rides (env : Environment) {op : Call} (h : ∀ options, op ≠ .insertRide options) :
    (handle env op w).2.rides = w.rides ∨ ∃ x, (handle env op w).2.rides = w.rides.put x := by
  have hstate (v : World) (rideId : Id) (s : Option ERidePaymentStatus) (u : Option String) :
      (v.updatePaymentState rideId s u).2.rides = v.rides ∨
        ∃ x, (v.updatePaymentState rideId s u).2.rides = v.rides.put x := by
    unfold World.updatePaymentState
    split
    · exact .inl rfl
    · exact .inr ⟨_, rfl⟩
  cases op with
  | insertRide options => exact absurd rfl (h options)
  | updateRideRow m =>
    simp only [handle, World.updateRideRow]
    split
    · exact .inl rfl
    · exact .inr ⟨_, rfl⟩
  | claimDriver rideId d =>
    simp only [handle, World.claimDriver]
    split
    · exact .inl rfl
    split
    · exact .inl rfl
    · exact .inr ⟨_, rfl⟩
  | saveCandidate n =>
    simp only [handle, World.saveCandidate]
    split <;> exact .inl rfl
  | updatePaymentState rideId s u => exact hstate w rideId s u
  | saveDetail d => exact .inl (persistDetail_rides d)
  | saveDetailWithRideUpdate d update outbox now =>
    have hrest : (handle env (.saveDetailWithRideUpdate d update outbox now) w).2.rides = _ :=
      (saveDetailWithRideUpdate_rides d update outbox now).1
    rw [hrest]
    cases update with
    | none => exact .inl (persistDetail_rides d)
    | some u =>
      have hu := hstate (w.persistDetail d).2 u.rideId u.paymentStatus u.paymentUrl
      rw [persistDetail_rides] at hu
      exact hu
  | saveDetailAndOutbox d input => exact .inl (persistDetail_rides d)
  | takePaymentJob id =>
    simp only [handle, World.takePaymentJob]
    repeat' split
    all_goals exact .inl rfl
  | finishPaymentJob id ok =>
    simp only [handle, World.finishPaymentJob]
    split <;> exact .inl rfl
  | _ => exact .inl rfl

/-- The rows after a call other than the creation. -/
theorem mem_handle (env : Environment) {op : Call} (h : ∀ options, op ≠ .insertRide options) {x : Ride} :
    x ∈ (handle env op w).2.rides.rows ↔ ∃ r ∈ w.rides.rows, op.onRide r = x := by
  have hfound {r : Ride} (hr : r ∈ w.rides.rows) : op.onRide r ∈ (handle env op w).2.rides.rows :=
    (Table.find_some.mp (find_handle env op (Table.find_some.mpr ⟨hr, rfl⟩))).1
  constructor
  · intro hx
    have hkey : ∃ r ∈ w.rides.rows, r.id = x.id := by
      rcases handle_rides (w := w) env h with he | ⟨y, he⟩
      · rw [he] at hx
        exact ⟨x, hx, rfl⟩
      · rw [he] at hx
        obtain ⟨rfl, r, hr, hid⟩ | ⟨hx, -⟩ := Table.mem_put.mp hx
        · exact ⟨r, hr, hid⟩
        · exact ⟨x, hx, rfl⟩
    obtain ⟨r, hr, hid⟩ := hkey
    have hafter := find_handle env op (w := w) (Table.find_some.mpr ⟨hr, rfl⟩)
    have hsame : (handle env op w).2.rides.find r.id = some x := Table.find_some.mpr ⟨hx, hid.symm⟩
    exact ⟨r, hr, Option.some.inj (hafter.symm.trans hsame)⟩
  · rintro ⟨r, hr, rfl⟩
    exact hfound hr

end NebLite
