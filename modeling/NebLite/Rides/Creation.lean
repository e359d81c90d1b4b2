import NebLite.Rides.Sequential

/-! The creation of a ride opens a booking under a new key. -/

namespace NebLite

open Atomic

variable {env : Environment}

/-- What a candidate keeps of the driver it was made for. -/
def RideDriverCandidate.offer (c : RideDriverCandidate) : Option Id × ERideDriverCandidateStatus × Option ℤ :=
  (some c.driverId, c.status, c.distanceMeters)

/-- What becomes of a driver that is invited. -/
def NearbyDriver.offer (d : NearbyDriver) : Option Id × ERideDriverCandidateStatus × Option ℤ :=
  (d.driverId, .invited, d.distanceMeters.map mathRound)

theorem insertCandidates_offers {rid : Id} {now : Time} {drivers : List NearbyDriver} {w v : World}
    {cs : List RideDriverCandidate}
    (h : World.insertCandidates rid now w drivers = .ok (v, cs)) :
    v.rides = w.rides ∧ ∃ new, v.candidates.rows = w.candidates.rows ++ new ∧
      (∀ c ∈ new, c.rideId = rid) ∧ new.map (·.offer) = drivers.map (·.offer) := by
  induction drivers generalizing w cs with
  | nil =>
    cases h
    exact ⟨rfl, [], by simp, by simp, rfl⟩
  | cons driver drivers ih =>
    simp only [World.insertCandidates] at h
    cases hd : driver.driverId with
    | none => simp [hd] at h
    | some d =>
      simp only [hd] at h
      cases hi : World.insertCandidates rid now (w.insertCandidate rid now d driver.distanceMeters).1
        drivers with
      | error e => simp [hi, Except.map] at h
      | ok vc =>
        obtain ⟨u, rest⟩ := vc
        simp only [hi, Except.map, Except.ok.injEq, Prod.mk.injEq] at h
        obtain ⟨rfl, -⟩ := h
        obtain ⟨hr, new, hrows, hnew, hmap⟩ := ih hi
        refine ⟨hr, (w.insertCandidate rid now d driver.distanceMeters).2 :: new, ?_, ?_, ?_⟩
        · rw [hrows]
          simp [World.insertCandidate, Table.insert]
        · intro c hc
          rcases List.mem_cons.mp hc with rfl | hc
          · rfl
          · exact hnew c hc
        · have hoffer : (w.insertCandidate rid now d driver.distanceMeters).2.offer = driver.offer := by
            rw [NearbyDriver.offer, hd]
            rfl
          rw [List.map_cons, List.map_cons, hmap, hoffer]

theorem insertCandidates_rows {rid : Id} {now : Time} {drivers : List NearbyDriver} {w v : World}
    {cs : List RideDriverCandidate}
    (h : World.insertCandidates rid now w drivers = .ok (v, cs)) :
    v.rides = w.rides ∧ ∃ new, v.candidates.rows = w.candidates.rows ++ new ∧
      (∀ c ∈ new, c.rideId = rid ∧ c.status = .invited) ∧
      new.map (fun c => some c.driverId) = drivers.map (·.driverId) := by
  obtain ⟨hr, new, hrows, hnew, hmap⟩ := insertCandidates_offers h
  refine ⟨hr, new, hrows, fun c hc => ⟨hnew c hc, ?_⟩, ?_⟩
  · have hoffer : c.offer ∈ drivers.map (·.offer) := hmap ▸ List.mem_map_of_mem hc
    obtain ⟨d, -, hd⟩ := List.mem_map.mp hoffer
    exact (congrArg (fun offer => offer.2.1) hd).symm
  · have hids := congrArg (List.map Prod.fst) hmap
    rw [List.map_map, List.map_map] at hids
    exact hids

/-- Where no driver has a blank id, the inserts all go through. -/
theorem insertCandidates_ok {rid : Id} {now : Time} {drivers : List NearbyDriver} {w : World}
    (h : ∀ d ∈ drivers, d.driverId ≠ none) : ∃ v, World.insertCandidates rid now w drivers = .ok v := by
  induction drivers generalizing w with
  | nil => exact ⟨_, rfl⟩
  | cons driver drivers ih =>
    obtain ⟨d, hd⟩ := Option.ne_none_iff_exists'.mp (h driver List.mem_cons_self)
    obtain ⟨v, hv⟩ := ih (w := (w.insertCandidate rid now d driver.distanceMeters).1)
      fun x hx => h x (List.mem_cons_of_mem driver hx)
    simp only [World.insertCandidates, hd, hv, Except.map]
    exact ⟨_, rfl⟩

/-- The drivers found near a point are pairwise distinct. -/
def Environment.NearbyDistinct (env : Environment) : Prop :=
  ∀ n drivers, env.nearbyDrivers n = .ok drivers → (drivers.map (·.driverId)).Nodup

/-- Every candidate's ride exists. -/
def World.Referenced (w : World) : Prop := ∀ c ∈ w.candidates.rows, w.rides.find c.rideId ≠ none

/-- The booking of `rid` in `v` is `b`; the others are those of `w`. -/
structure World.Books (w : World) (rid : Id) (b : Booking) (v : World) : Prop where
  booked : v.booking rid = some b
  others : ∀ k, k ≠ rid → v.booking k = w.booking k

section Insert

variable {w v : World} {options : RideCreationOptions} {created : Id × List RideDriverCandidate}

/-- The rows after the transaction that creates a ride. -/
theorem insertRide_rows (h : w.insertRide options = (.ok created, v)) :
    created.1 = w.rides.nextKey ∧
      (∀ k, v.rides.find k = if k = w.rides.nextKey then
        some (World.newRide options.ride options.now w.rides.nextKey) else w.rides.find k) ∧
      ∃ new, v.candidates.rows = w.candidates.rows ++ new ∧
        (∀ c ∈ new, c.rideId = w.rides.nextKey ∧ c.status = .invited) ∧
        new.map (fun c => some c.driverId) = options.nearbyDrivers.map (·.driverId) := by
  unfold World.insertRide at h
  cases hi : World.insertCandidates w.rides.nextKey options.now { w with
      rides := w.rides.insert (World.newRide options.ride options.now) fun _ => rfl }
      options.nearbyDrivers with
  | error e => simp [hi] at h
  | ok vc =>
    obtain ⟨u, cs⟩ := vc
    simp only [hi, Prod.mk.injEq, Except.ok.injEq] at h
    obtain ⟨rfl, rfl⟩ := h
    obtain ⟨hr, hnew⟩ := insertCandidates_rows hi
    refine ⟨rfl, fun k => ?_, hnew⟩
    change u.rides.find k = _
    rw [hr]
    exact @Table.find_insert _ _ w.rides (World.newRide options.ride options.now) (fun _ => rfl) k

theorem World.Referenced.ne_nextKey (hw : w.Referenced) {c : RideDriverCandidate} (hc : c ∈ w.candidates.rows) :
    c.rideId ≠ w.rides.nextKey := by
  intro he
  exact hw c hc (he ▸ Table.find_nextKey)

theorem insertRide_referenced (hw : w.Referenced) (h : w.insertRide options = (.ok created, v)) :
    v.Referenced := by
  obtain ⟨-, hfind, new, hrows, hnew, -⟩ := insertRide_rows h
  intro c hc
  rw [hrows] at hc
  rw [hfind]
  rcases List.mem_append.mp hc with hc | hc
  · rw [if_neg (hw.ne_nextKey hc)]
    exact hw c hc
  · rw [if_pos (hnew c hc).1]
    simp

/-- The transaction that creates a ride opens a booking under the next key. -/
theorem insertRide_books (hw : w.Referenced) (hs : options.ride.status = .candidatesComputed)
    (h : w.insertRide options = (.ok created, v)) :
    ∃ b : Booking, b.Opened ∧ b.rider = options.ride.riderId ∧
      w.Books w.rides.nextKey b v := by
  obtain ⟨-, hfind, new, hrows, hnew, -⟩ := insertRide_rows h
  have hcand (k d : Id) : v.findCandidate k d = if k = w.rides.nextKey then
      new.find? (fun c => c.driverId == d) else w.findCandidate k d := by
    unfold World.findCandidate
    rw [hrows, List.find?_append]
    by_cases hk : k = w.rides.nextKey
    · subst hk
      have h1 : w.candidates.rows.find? (fun c => c.rideId == w.rides.nextKey && c.driverId == d) =
          none := by
        simp only [List.find?_eq_none, Bool.and_eq_true, beq_iff_eq, not_and]
        exact fun c hc he => absurd he (hw.ne_nextKey hc)
      rw [h1, if_pos rfl, Option.none_or]
      exact List.find?_congr fun c hc => by simp [(hnew c hc).1]
    · have h1 : new.find? (fun c => c.rideId == k && c.driverId == d) = none := by
        simp only [List.find?_eq_none, Bool.and_eq_true, beq_iff_eq, not_and]
        exact fun c hc he => absurd (he.symm.trans (hnew c hc).1) hk
      rw [h1, if_neg hk, Option.or_none]
  refine ⟨v.bookingOf (World.newRide options.ride options.now w.rides.nextKey),
    ⟨hs, rfl, fun d s he => ?_⟩, rfl, ?_, fun k hk => ?_⟩
  · have hid : (World.newRide options.ride options.now w.rides.nextKey).id = w.rides.nextKey := rfl
    rw [World.bookingOf_cand, hid, hcand, if_pos rfl] at he
    obtain ⟨c, hc, rfl⟩ := Option.map_eq_some_iff.mp he
    exact (hnew c (List.mem_of_find?_eq_some hc)).2
  · change (v.rides.find w.rides.nextKey).map v.bookingOf = _
    rw [hfind, if_pos rfl]
    rfl
  · change (v.rides.find k).map v.bookingOf = (w.rides.find k).map w.bookingOf
    rw [hfind, if_neg hk]
    refine Option.map_congr fun r hf => ?_
    have hid : r.id = k := Table.key_of_find hf
    simp only [World.bookingOf, hid]
    congr 1
    funext d
    change (v.findCandidate k d).map _ = (w.findCandidate k d).map _
    rw [hcand, if_neg hk]

/-- Drivers that are pairwise distinct become candidates that are. -/
theorem insertRide_wellFormed (hw : w.WellFormed) (hn : (options.nearbyDrivers.map (·.driverId)).Nodup)
    (h : w.insertRide options = (.ok created, v)) : v.WellFormed := by
  obtain ⟨-, -, new, hrows, hnew, hmap⟩ := insertRide_rows h
  have href : w.Referenced := hw.referenced
  have hnodup : (new.map (·.driverId)).Nodup := by
    rw [← hmap] at hn
    exact List.Nodup.of_map some (by rw [List.map_map]; exact hn)
  refine ⟨?_, insertRide_referenced href h⟩
  rw [hrows]
  intro c hc x hx hcr hcd
  rcases List.mem_append.mp hc with hc | hc <;> rcases List.mem_append.mp hx with hx | hx
  · exact hw.distinct c hc x hx hcr hcd
  · exact absurd (hcr.trans (hnew x hx).1) (href.ne_nextKey hc)
  · exact absurd (hcr.symm.trans (hnew c hc).1) (href.ne_nextKey hx)
  · exact List.inj_on_of_nodup_map hnodup hc hx hcd

end Insert

theorem insertRide_refused {w v : World} {options : RideCreationOptions} {e : ServiceError}
    (h : w.insertRide options = (.error e, v)) : v = w := by
  unfold World.insertRide at h
  simp only at h
  split at h
  · exact (Prod.mk.inj h).2.symm
  · simp at h

theorem announces_offers {ride : Ride} {route : RouteEstimates} (cs : List RideDriverCandidate) :
    Announces env (cs.forM fun c => notifyRideOffered ride c route) :=
  announces_forM (fun _ => announces_dispatch) cs

/-- A creation either leaves every row as it is, or its transaction commits. -/
theorem createRideBody_inserts (w : World) (rider : Id) (payload : CreateRideInput) (now : Time) :
    SameRows w ((createRideBody env rider payload now).run (handle env) w).2 ∨
      ∃ v u options created n, SameRows w v ∧ env.nearbyDrivers n = .ok options.nearbyDrivers ∧
        options.ride.status = .candidatesComputed ∧ options.ride.riderId = rider ∧
        v.insertRide options = (.ok created, u) ∧
        SameRows u ((createRideBody env rider payload now).run (handle env) w).2 := by
  unfold createRideBody
  simp only [↓Program.throw_seq]
  rw [Program.run_bind, run_call]
  simp only [handle]
  cases env.route w.answered with
  | error e => exact .inl ⟨rfl, rfl⟩
  | ok route =>
    simp only
    rw [Program.run_bind, run_call]
    simp only [handle]
    cases hn : env.nearbyDrivers (w.answered + 1) with
    | error e => exact .inl ⟨rfl, rfl⟩
    | ok drivers =>
      simp only
      split
      · exact .inl ⟨rfl, rfl⟩
      generalize hv : ({ w with answered := w.answered + 1 + 1 } : World) = v
      have hwv : SameRows w v := by subst hv; exact ⟨rfl, rfl⟩
      generalize ho : RideCreationOptions.mk _ _ _ _ = options
      unfold createRideWithDetails
      simp only [bind_assoc]
      rw [Program.run_bind, run_call]
      simp only [handle]
      rcases hi : v.insertRide options with ⟨e | created, u⟩
      · rw [insertRide_refused hi]
        exact .inl hwv
      · obtain ⟨hk, hf, -⟩ := insertRide_rows hi
        refine .inr ⟨v, u, options, created, w.answered + 1, hwv, by subst ho; exact hn, by subst ho; rfl,
          by subst ho; rfl, hi, ?_⟩
        simp only
        rw [Program.run_bind_ok _ (run_findById env _ u), hk, hf, if_pos rfl]
        simp only [pure_bind]
        have hoffers : Announces env (created.2.forM fun c =>
            notifyRideOffered (World.newRide options.ride options.now v.rides.nextKey) c route) :=
          announces_offers created.2
        obtain ⟨ns, hrun⟩ := hoffers u
        rw [Program.run_bind_ok _ hrun]
        exact ⟨rfl, rfl⟩

theorem createRide_inserts (env : Environment) (w : World) (rider : Option Id) (payload : CreateRideInput) (now : Time) :
    SameRows w ((createRide env rider payload now).run (handle env) w).2 ∨
      ∃ v u options created n, SameRows w v ∧ env.nearbyDrivers n = .ok options.nearbyDrivers ∧
        options.ride.status = .candidatesComputed ∧ w.findUnfinishedRide options.ride.riderId = none ∧
        v.insertRide options = (.ok created, u) ∧
        SameRows u ((createRide env rider payload now).run (handle env) w).2 := by
  have hsame := SameRows.refl w
  unfold createRide
  cases rider with
  | none => exact .inl hsame
  | some rider =>
    simp only
    rw [Program.run_bind_ok _ (run_call env _ w)]
    split
    · exact .inl hsame
    · next hfree =>
      rw [Program.run_rethrow]
      rcases createRideBody_inserts w rider payload now with h | ⟨v, u, options, created, n, h1, h2, h3, rfl, h5, h6⟩
      · exact .inl h
      · exact .inr ⟨v, u, options, created, n, h1, h2, h3, by simpa using hfree, h5, h6⟩

/-- A creation either leaves every row as it is, or opens a booking under a new key. -/
theorem createRide_books (env : Environment) {w : World} (hw : w.Referenced) (rider : Option Id)
    (payload : CreateRideInput) (now : Time) :
    SameRows w ((createRide env rider payload now).run (handle env) w).2 ∨
      ∃ b : Booking, b.Opened ∧ w.findUnfinishedRide b.rider = none ∧ w.Books w.rides.nextKey b
          ((createRide env rider payload now).run (handle env) w).2 := by
  rcases createRide_inserts env w rider payload now with
    h | ⟨v, u, options, created, n, hv, -, hs, hfree, hi, hu⟩
  · exact .inl h
  · have hvref : v.Referenced := by
      unfold World.Referenced
      rw [hv.1, hv.2]
      exact hw
    obtain ⟨b, hb, hrider, hbooks⟩ := insertRide_books hvref hs hi
    rw [hv.1] at hbooks
    refine .inr ⟨b, hb, hrider ▸ hfree, ?_, fun k hk => ?_⟩
    · rw [World.booking_congr hu.1 hu.2]
      exact hbooks.booked
    · rw [World.booking_congr hu.1 hu.2, hbooks.others k hk, World.booking_congr hv.1 hv.2]

theorem createRide_opens (hd : env.NearbyDistinct) {w : World} (hw : w.WellFormed) (rider : Option Id)
    (payload : CreateRideInput) (now : Time) :
    SameRows w ((createRide env rider payload now).run (handle env) w).2 ∨
      ∃ b : Booking, b.Opened ∧ w.findUnfinishedRide b.rider = none ∧
        w.Becomes w.rides.nextKey (some b)
          ((createRide env rider payload now).run (handle env) w).2 := by
  have hwf (v u : World) (options : RideCreationOptions) (created : Id × List RideDriverCandidate) (n : ℕ)
      (hv : SameRows w v) (hn : env.nearbyDrivers n = .ok options.nearbyDrivers)
      (hi : v.insertRide options = (.ok created, u)) :
      u.WellFormed := by
    have hvw : v.WellFormed := (World.becomes_tables hv.1 hv.2 0).wellFormed hw
    exact insertRide_wellFormed hvw (hd _ _ hn) hi
  rcases createRide_books env hw.referenced rider payload now with h | ⟨b, hb, hfree, hbooks⟩
  · exact .inl h
  · refine .inr ⟨b, hb, hfree, hbooks.booked, hbooks.others, fun _ => ?_⟩
    rcases createRide_inserts env w rider payload now with
      h | ⟨v, u, options, created, n, hv, hn, -, -, hi, hu⟩
    · exact (World.becomes_tables h.1 h.2 0).wellFormed hw
    · exact (World.becomes_tables hu.1 hu.2 0).wellFormed (hwf v u options created n hv hn hi)

end NebLite
