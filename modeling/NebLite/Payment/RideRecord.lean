import NebLite.Payment.RideOps
import NebLite.Payment.Webhooks

/-! All that is stored of one ride, and the calls that leave it as it is. -/

namespace NebLite

open Atomic

structure RideRecord where
  ride : Option Ride
  candidates : List RideDriverCandidate
  history : List RideStatusHistory
  details : List RidePaymentDetail
  outbox : List PaymentOutbox
  tripState : Option TripTrackState
  tripEvents : List TrackEvent
  active : Prop
  flushed : Prop

/-- The rows of ride `k` in every table, and its tracking keys. -/
def World.recordOf (w : World) (k : Id) : RideRecord where
  ride := w.rides.find k
  candidates := w.findCandidates k
  history := w.history.filter fun entry => entry.rideId == k
  details := w.details.select fun d => d.rideId == k
  outbox := w.outbox.select fun x => x.rideId == k
  tripState := w.tripStates k
  tripEvents := w.tripEvents k
  active := k ∈ w.activeRides
  flushed := k ∈ w.flushJobs

/-- The call is about other rides than `k`. -/
def Call.Spares (w : World) (k : Id) : Call → Prop
  | .updateRideRow m => m.id ≠ k
  | .claimDriver rideId _ | .setTripState rideId _ | .addActiveRide rideId | .pushTripEvent rideId _
  | .enqueueFlushRide rideId | .updatePaymentState rideId _ _ => rideId ≠ k
  | .insertRide _ => w.rides.nextKey ≠ k
  | .saveCandidate n => n.rideId ≠ k ∧ ∀ c, w.candidates.find n.id = some c → c.rideId ≠ k
  | .saveHistory entry => entry.rideId ≠ k
  | .saveDetail d | .saveDetailAndOutbox d _ => d.rideId ≠ k
  | .saveDetailWithRideUpdate d rideUpdate outboxUpdate _ => d.rideId ≠ k ∧
      (∀ u, rideUpdate = some u → u.rideId ≠ k) ∧
      ∀ u, outboxUpdate = some u → ∃ rideId, u.rideId = some rideId ∧ rideId ≠ k
  | .saveOutbox x => ∃ y, w.outbox.find x.id = some y ∧ y.rideId ≠ k
  | _ => True

section Frame

variable {w : World} {k : Id}

theorem recordOf_put_ride {m : Ride} (h : m.id ≠ k) :
    World.recordOf { w with rides := w.rides.put m } k = w.recordOf k := by
  have hfind : (w.rides.put m).find k = w.rides.find k := Table.find_put_ne (Ne.symm h)
  simp only [World.recordOf, World.findCandidates, hfind]

theorem recordOf_paymentState (v : World) {rideId : Id} (s : Option ERidePaymentStatus) (url : Option String)
    (h : rideId ≠ k) : (v.updatePaymentState rideId s url).2.recordOf k = v.recordOf k := by
  unfold World.updatePaymentState
  split
  · rfl
  · next stored hstored =>
    have hid : stored.id = rideId := Table.key_of_find hstored
    exact recordOf_put_ride (m := { stored with paymentStatus := s, paymentUrl := url }) (hid ▸ h)

theorem recordOf_saveCandidate {n : RideDriverCandidate} (hn : n.rideId ≠ k)
    (h : ∀ c, w.candidates.find n.id = some c → c.rideId ≠ k) : (w.saveCandidate n).recordOf k = w.recordOf k := by
  unfold World.saveCandidate
  cases hstored : w.candidates.find n.id with
  | none => rfl
  | some stored =>
    have hid : stored.id = n.id := Table.key_of_find hstored
    have hselect : (w.candidates.put { n with
        id := stored.id, driverId := stored.driverId, createdAt := stored.createdAt }).select (fun c => c.rideId == k) =
        w.candidates.select fun c => c.rideId == k := by
      apply Table.select_put
      · simpa using hn
      · intro x hx hkey
        have hsame : w.candidates.find n.id = some x :=
          Table.find_some.mpr ⟨hx, hkey.trans hid⟩
        simpa using h x hsame
    simp only [World.recordOf, World.findCandidates, hselect]

theorem recordOf_persistDetail {d : RidePaymentDetail} (h : d.rideId ≠ k) :
    (w.persistDetail d).2.recordOf k = w.recordOf k := by
  unfold World.persistDetail
  cases hstored : w.findDetailByRide d.rideId with
  | some stored =>
    obtain ⟨hmem, hride⟩ := mem_of_findDetailByRide hstored
    have hselect : (w.details.put { d with id := stored.id }).select (fun x => x.rideId == k) =
        w.details.select fun x => x.rideId == k := by
      apply Table.select_put
      · simpa using h
      · intro x hx hkey
        have hsame : w.details.find stored.id = some x := Table.find_some.mpr ⟨hx, hkey⟩
        have hfirst : w.details.find stored.id = some stored := Table.find_some.mpr ⟨hmem, rfl⟩
        obtain rfl := Option.some.inj (hsame.symm.trans hfirst)
        simpa [hride] using h
    simp only [World.recordOf, World.findCandidates, hselect]
  | none =>
    have hselect : (w.details.insert (fun key => { d with id := key }) fun _ => rfl).select (fun x => x.rideId == k) =
        w.details.select fun x => x.rideId == k := by
      apply Table.select_insert
      simpa using h
    simp only [World.recordOf, World.findCandidates, hselect]

theorem recordOf_applyOutboxUpdate {u : OutboxUpdate} {now : Time} {rideId : Id} (hu : u.rideId = some rideId)
    (h : rideId ≠ k) : (w.applyOutboxUpdate u now).recordOf k = w.recordOf k := by
  have hselect : (w.applyOutboxUpdate u now).outbox.select (fun x => x.rideId == k) =
      w.outbox.select fun x => x.rideId == k := by
    apply Table.filter_map_if
    intro x _ hx
    simp only [hu, Option.all_some, Bool.and_eq_true, beq_iff_eq] at hx
    have hne : x.rideId ≠ k := hx.1.2 ▸ h
    exact ⟨by simpa using hne, by simpa using hne⟩
  have hrest : (w.applyOutboxUpdate u now).recordOf k =
      { w.recordOf k with outbox := (w.applyOutboxUpdate u now).outbox.select fun x => x.rideId == k } := rfl
  rw [hrest, hselect]
  rfl

theorem recordOf_saveOutbox {x y : PaymentOutbox} (hy : w.outbox.find x.id = some y) (h : y.rideId ≠ k) :
    (w.saveOutbox x).recordOf k = w.recordOf k := by
  have hselect : (w.saveOutbox x).outbox.select (fun x => x.rideId == k) =
      w.outbox.select fun x => x.rideId == k := by
    have hfound : w.outbox.find (Keyed.key x) ≠ none := by
      rw [PaymentOutbox.key_eq, hy]
      simp
    simp only [World.saveOutbox, Table.upsert, dif_neg hfound]
    apply Table.filter_map_if
    intro z hz hkey
    have hsame : w.outbox.find x.id = some z := Table.find_some.mpr ⟨hz, by simpa using hkey⟩
    obtain rfl := Option.some.inj (hy.symm.trans hsame)
    exact ⟨by simpa using h, by simpa using h⟩
  have hrest : (w.saveOutbox x).recordOf k =
      { w.recordOf k with outbox := (w.saveOutbox x).outbox.select fun x => x.rideId == k } := rfl
  rw [hrest, hselect]
  rfl

theorem recordOf_insertRide {options : RideCreationOptions} (h : w.rides.nextKey ≠ k) :
    (w.insertRide options).2.recordOf k = w.recordOf k := by
  obtain hkept | ⟨filled, new, hrows, hnew, hinserted⟩ := insertRide_cases w options
  · rw [hkept]
  · rw [hinserted]
    have hfind : (w.rides.insert (World.newRide options.ride options.now) fun _ => rfl).find k =
        w.rides.find k := by
      have hfound := @Table.find_insert _ _ w.rides (World.newRide options.ride options.now) (fun _ => rfl) k
      rwa [if_neg (Ne.symm h)] at hfound
    have hcandidates : filled.select (fun c => c.rideId == k) = w.candidates.select fun c => c.rideId == k := by
      have hnone : new.filter (fun c => c.rideId == k) = [] := by
        apply List.filter_eq_nil_iff.mpr
        intro c hc
        simpa [hnew c hc] using h
      rw [Table.select, hrows, List.filter_append, hnone, List.append_nil]
      rfl
    have hhistory : (w.history ++ options.historyEntries.map fun entry =>
        (⟨w.rides.nextKey, entry.fromStatus, entry.toStatus, entry.context⟩ : RideStatusHistory)).filter
          (fun entry => entry.rideId == k) = w.history.filter fun entry => entry.rideId == k := by
      have hnone : (options.historyEntries.map fun entry =>
          (⟨w.rides.nextKey, entry.fromStatus, entry.toStatus, entry.context⟩ : RideStatusHistory)).filter
            (fun entry => entry.rideId == k) = [] := by
        apply List.filter_eq_nil_iff.mpr
        intro c hc
        obtain ⟨entry, -, rfl⟩ := List.mem_map.mp hc
        simpa using h
      rw [List.filter_append, hnone, List.append_nil]
    simp only [World.recordOf, World.findCandidates, hfind, hcandidates, hhistory]

/-- A call about other rides leaves the record of ride `k` as it is. -/
theorem recordOf_handle (env : Environment) {op : Call} (h : op.Spares w k) :
    (handle env op w).2.recordOf k = w.recordOf k := by
  cases op with
  | updateRideRow m =>
    simp only [handle, World.updateRideRow]
    cases hstored : w.rides.find m.id with
    | none => rfl
    | some stored =>
      have hid : stored.id = m.id := Table.key_of_find hstored
      exact recordOf_put_ride (m := stored.writeColumns m) (hid ▸ h)
  | claimDriver rideId d =>
    simp only [handle, World.claimDriver]
    cases hstored : w.rides.find rideId with
    | none => rfl
    | some stored =>
      have hid : stored.id = rideId := Table.key_of_find hstored
      simp only
      split
      · rfl
      · exact recordOf_put_ride (m := { stored with driverId := some d }) (hid ▸ h)
  | insertRide options => exact recordOf_insertRide h
  | saveCandidate n => exact recordOf_saveCandidate h.1 h.2
  | saveHistory entry =>
    have hne : (entry.rideId == k) = false := beq_eq_false_iff_ne.mpr h
    simp only [handle, World.recordOf, World.findCandidates, List.filter_append, List.filter_cons, hne,
      List.filter_nil, List.append_nil, Bool.false_eq_true, if_false]
  | setTripState rideId state =>
    simp only [handle, World.recordOf, World.findCandidates, Function.update_of_ne (Ne.symm h)]
  | pushTripEvent rideId event =>
    simp only [handle, World.recordOf, World.findCandidates, Function.update_of_ne (Ne.symm h)]
  | addActiveRide rideId =>
    have hmem : (k ∈ if rideId ∈ w.activeRides then w.activeRides else w.activeRides ++ [rideId]) =
        (k ∈ w.activeRides) := by
      split <;> simp [Ne.symm h]
    simp only [handle, World.recordOf, World.findCandidates, hmem]
  | enqueueFlushRide rideId =>
    have hmem : (k ∈ if rideId ∈ w.flushJobs then w.flushJobs else w.flushJobs ++ [rideId]) =
        (k ∈ w.flushJobs) := by
      split <;> simp [Ne.symm h]
    simp only [handle, World.recordOf, World.findCandidates, hmem]
  | updatePaymentState rideId s url => exact recordOf_paymentState w s url h
  | saveDetail d => exact recordOf_persistDetail h
  | saveDetailWithRideUpdate d u x now =>
    obtain ⟨hd, hu, hx⟩ := h
    have hdetail := recordOf_persistDetail (w := w) hd
    cases u with
    | none =>
      cases x with
      | none => exact hdetail
      | some x =>
        obtain ⟨rideId, hrideId, hne⟩ := hx x rfl
        exact (recordOf_applyOutboxUpdate hrideId hne).trans hdetail
    | some u =>
      have hstate := recordOf_paymentState (w.persistDetail d).2 u.paymentStatus u.paymentUrl (hu u rfl)
      cases x with
      | none => exact hstate.trans hdetail
      | some x =>
        obtain ⟨rideId, hrideId, hne⟩ := hx x rfl
        exact (recordOf_applyOutboxUpdate hrideId hne).trans (hstate.trans hdetail)
  | saveDetailAndOutbox d input =>
    have hdetail := recordOf_persistDetail (w := w) h
    have hne : (w.persistDetail d).1.rideId ≠ k := by
      unfold World.persistDetail
      split <;> exact h
    have hrest : (w.saveDetailAndOutbox d input).2.recordOf k = { (w.persistDetail d).2.recordOf k with
        outbox := (w.saveDetailAndOutbox d input).2.outbox.select fun x => x.rideId == k } := rfl
    have hselect : (w.saveDetailAndOutbox d input).2.outbox.select (fun x => x.rideId == k) =
        (w.persistDetail d).2.outbox.select fun x => x.rideId == k := by
      apply Table.select_insert
      exact beq_eq_false_iff_ne.mpr hne
    change (w.saveDetailAndOutbox d input).2.recordOf k = _
    rw [hrest, hselect]
    exact hdetail
  | saveOutbox x =>
    obtain ⟨y, hy, hne⟩ := h
    exact recordOf_saveOutbox hy hne
  | takePaymentJob id =>
    simp only [handle, World.takePaymentJob]
    split
    · split <;> rfl
    · rfl
  | finishPaymentJob id ok =>
    simp only [handle, World.finishPaymentJob]
    split <;> rfl
  | _ => rfl

end Frame

end NebLite
