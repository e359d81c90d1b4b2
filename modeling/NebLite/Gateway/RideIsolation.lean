import NebLite.Payment.RideFrames
import NebLite.Gateway.RideEndpoints
import NebLite.Gateway.ClientIp

/-! Who may change what of a ride, in every state that the operations on rides can reach. -/

namespace NebLite

open Atomic

/-- An operation touches its own ride only, and that ride only for those who have a part
in it; a driver answers for its own candidate rows alone. -/
structure World.Isolates (env : Environment) (w : World) : Prop where
  others : ∀ (op : RideOp) (k : Id), op.ride w ≠ some k → (op.step env w).recordOf k = w.recordOf k
  strangers : ∀ (e : RideEndpoint) (r : Ride) (client : AuthenticatedClient) (now : Time),
    w.rides.find r.id = some r → w.Stranger r client → e.Admits client →
    ((e.program env r.id client now).run (handle env) w).2 = w
  sources : ∀ (payload : PaymentNotification) (sourceIp : String) (now : Time), ¬ w.Allows sourceIp →
    ((handlePaymentNotification payload sourceIp now).run (handle env) w).2 = w
  drivers : ∀ (e : RideEndpoint) (rid : Id) (client : AuthenticatedClient) (now : Time) (d : Id),
    client.role = .driver → e.Admits client → d ≠ client.id →
    ((e.program env rid client now).run (handle env) w).2.candidates.select (fun c => c.driverId == d) =
      w.candidates.select fun c => c.driverId == d

section Drivers

variable {env : Environment} {w v : World} {lop : LifecycleOp} {t : Trail} {rid d : Id} {α β : Type}

/-- Only an answer of a reached driver writes a candidate row. -/
theorem candidates_handle {op : Call} (hride : lop.ride = some rid) (hd : ¬ lop.Reaches d)
    (htends : lop.Tends t op) (hf : t.Fits v) :
    (handle env op v).2.candidates.select (fun c => c.driverId == d) =
      v.candidates.select fun c => c.driverId == d := by
  have hattends (hop : ∀ k, lop.ride.getD k = k → op.Attends k) :
      (handle env op v).2.candidates = v.candidates := by
    obtain ⟨k, ha⟩ := LifecycleOp.attends_some hop
    exact (ha.outside.apart.tables env v).2
  cases op with
  | saveCandidate n =>
    obtain ⟨-, hreach, c, hc, hid, -, hdriver⟩ := htends
    obtain ⟨x, hx, -, hxd⟩ := hf.rows c hc
    have hne : x.driverId ≠ d := by
      rintro rfl
      exact hd (hxd.trans hdriver.symm ▸ hreach)
    have hstored : v.candidates.find n.id = some x := hid ▸ hx
    have hxid : x.id = n.id := Table.key_of_find hstored
    simp only [handle, World.saveCandidate, hstored]
    apply Table.select_put
    · simpa using hne
    · intro y hy hkey
      have hsame : v.candidates.find n.id = some y := Table.find_some.mpr ⟨hy, hkey.trans hxid⟩
      obtain rfl := Option.some.inj (hstored.symm.trans hsame)
      simpa using hne
  | insertRide =>
    have hnone := htends.1
    rw [hride] at hnone
    cases hnone
  | updateRideRow m =>
    simp only [handle, World.updateRideRow]
    split <;> rfl
  | claimDriver rideId d =>
    simp only [handle, World.claimDriver]
    split
    · rfl
    split <;> rfl
  | saveHistory | findRide | findCandidate | findCandidates | findUnfinishedRide | requestRoute | nearbyDrivers => rfl
  | _ => rw [hattends htends]

/-- An operation leaves the candidate rows of a driver that it does not reach as they are. -/
theorem driver_rows_run {p : Service α} (hp : Trails env lop .empty p) (hride : lop.ride = some rid)
    (hd : ¬ lop.Reaches d) : (p.run (handle env) w).2.candidates.select (fun c => c.driverId == d) =
      w.candidates.select fun c => c.driverId == d := by
  have hstart : Trail.empty.Fits w ∧ w.candidates.select (fun c => c.driverId == d) =
      w.candidates.select fun c => c.driverId == d := ⟨Trail.fits_empty w, rfl⟩
  have hrun := hp.run_keeps (I := fun t v => t.Fits v ∧ v.candidates.select (fun c => c.driverId == d) =
      w.candidates.select fun c => c.driverId == d) (fun _ _ _ => trivial) ?_ hstart
  · obtain ⟨-, -, -, hrows⟩ := hrun
    exact hrows
  rintro t op v t' ⟨hf, hrows⟩ ⟨rfl, htends⟩
  have hrop : (RideOp.lifecycle lop).Tends t op := htends
  exact ⟨hf.reads (keeps_handle env (hrop.identifies hf)) (Trail.reads env v t op),
    (candidates_handle hride hd htends hf).trans hrows⟩

theorem run_some (p : Service α) (w : World) : ((some <$> p).run (handle env) w).2 = (p.run (handle env) w).2 := by
  rw [map_eq_pure_bind, Program.run_bind]
  rcases p.run (handle env) w with ⟨_ | _, v⟩ <;> rfl

theorem getRideById_run (rid : Id) (requester : RequestingClient) (w : World) :
    ((getRideById rid requester).run (handle env) w).2 = w := by
  unfold getRideById
  rw [Program.run_bind_ok _ (run_findById env rid w)]
  cases w.rides.find rid with
  | none => rfl
  | some r =>
    simp only
    unfold ensureRequesterCanAccessRide
    rcases requester with ⟨_ | id, _ | _ | _⟩ <;> simp only <;> first | rfl | (split <;> rfl)

/-- Drivers write their own candidate rows only. -/
theorem driver_endpoint_rows {e : RideEndpoint} {client : AuthenticatedClient} {now : Time}
    (hrole : client.role = .driver) (he : e.Admits client) (hd : d ≠ client.id) :
    ((e.program env rid client now).run (handle env) w).2.candidates.select (fun c => c.driverId == d) =
      w.candidates.select fun c => c.driverId == d := by
  have hrider (ha : client.role ∈ [EClientType.rider]) : False := by
    rw [hrole] at ha
    cases List.mem_singleton.mp ha
  cases e with
  | getRide =>
    rw [RideEndpoint.program, run_some, getRideById_run]
  | cancelRide => exact (hrider (he _ rfl)).elim
  | acceptRideAsDriver =>
    rw [RideEndpoint.program, run_some]
    exact driver_rows_run trails_acceptRideByDriver rfl fun h => hd h.symm
  | rejectRideAsDriver reason =>
    rw [RideEndpoint.program, run_some]
    exact driver_rows_run trails_rejectRideByDriver rfl fun h => hd h.symm
  | confirmDriverAcceptance => exact (hrider (he _ rfl)).elim
  | rejectDriverAcceptance => exact (hrider (he _ rfl)).elim
  | startRide location =>
    rw [RideEndpoint.program, run_some]
    exact driver_rows_run trails_startRide rfl id
  | recordTripLocation location =>
    have hp : Trails env (.recordTripLocation rid client.requester location) .empty
        (recordTripLocation rid client.requester location >>= fun _ => pure (none : Option Ride)) :=
      trails_recordTripLocation.bind (fun _ _ _ => trivial) fun _ _ _ => trivial
    exact driver_rows_run hp rfl id
  | completeRide location discount =>
    rw [RideEndpoint.program, run_some]
    exact driver_rows_run trails_completeRide rfl id
  | proceedRidePayment => exact (hrider (he _ rfl)).elim

/-- A notification from elsewhere changes nothing. -/
theorem unlisted_run {payload : PaymentNotification} {sourceIp : String} {now : Time} (h : ¬ w.Allows sourceIp) :
    ((handlePaymentNotification payload sourceIp now).run (handle env) w).2 = w := by
  rw [handlePaymentNotification_eq]
  rw [Program.run_bind_ok _ (run_call env (.isIpAllowed (normalizeIpAddresses sourceIp)) w)]
  have hno : ¬ (w.whitelist.any fun ip => ip ∈ (normalizeIpAddresses sourceIp).filter
      fun a => !a.isEmpty) = true := h
  simp only [↓Program.throw_seq]
  rw [if_pos hno]
  rfl

end Drivers

/-- In every state reached from an empty store by any interleaving of operations on rides. -/
theorem rides_isolated {ι : Type} [DecidableEq ι] (env : Environment) (whitelist : List String) (ops : ι → RideOp)
    (sched : List ι) :
    ((Pool.start (rideCalls env ops) (World.initial whitelist)).exec (handle env) sched).store.Isolates env where
  others op _ hk := op.recordOf_step env (tied_exec env ops (tied_initial whitelist) sched) hk
  strangers _ r _ now hr h he := by
    obtain ⟨-, err, hrun⟩ | ⟨-, hrun⟩ := stranger_run env now hr h he
    · rw [hrun]
    · rw [hrun]
  sources _ _ _ h := unlisted_run h
  drivers _ _ _ _ _ hrole he hd := driver_endpoint_rows hrole he hd

end NebLite
