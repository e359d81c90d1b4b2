import NebLite.Rides.Geofence
import NebLite.Rides.Settlement
import NebLite.Atomic.Faults

/-! What a completion has stored of its ride when it has made some of its calls.
Nothing in `completeRide` catches an exception, so this is what it leaves when
the next call fails. -/

namespace NebLite

open Atomic

/-- A distance pipeline that fails is answered all the same; every other call
of a completion can fail. -/
def Call.fallible : Call → Bool
  | .geodist _ _ => false
  | _ => true

/-- The store when the program has made `n` calls that can fail. -/
abbrev Partway {α : Type} (env : Environment) (p : Service α) (n : ℕ) (w : World) : World :=
  p.upto Call.fallible (handle env) n w

section Straight

theorem straight_call (c : Call) : (call c).Straight := Program.straight_perform c

theorem straight_getState {rid : Id} : (getState rid).Straight :=
  (straight_call _).bind fun _ => trivial

theorem straight_getLatestLocation {rid : Id} {role : EClientType} : (getLatestLocation rid role).Straight :=
  straight_getState.bind fun _ => trivial

theorem straight_getTotalDistance {rid : Id} : (getTotalDistanceMeters rid).Straight :=
  straight_getState.bind fun _ => trivial

theorem straight_distance {x y : Coordinate} : (calculateDistanceBetweenCoordinates x y).Straight :=
  (straight_call _).bind fun _ => trivial

theorem straight_ensure {x y : Coordinate} {radius : ℚ} {message : String} :
    (ensureLocationWithinRadius x y radius message).Straight := by
  refine straight_distance.bind fun d => ?_
  split <;> trivial

theorem straight_atDropoff {env : Environment} {ride : Ride} {location : ParticipantLocation} :
    (ensureAtDropoff env ride location).Straight := by
  refine straight_getLatestLocation.bind fun o => ?_
  cases o with
  | none => trivial
  | some rider => exact straight_ensure.bind fun _ => straight_ensure.bind fun _ => straight_ensure

theorem straight_recordLocation {rid clientId : Id} {role : EClientType} {location : ParticipantLocation} :
    (recordLocation rid clientId role location).Straight := by
  refine straight_getState.bind fun state => ?_
  have hdistance : (driverDistance state role location).Straight := by
    unfold driverDistance
    split
    · exact straight_distance
    · trivial
  exact hdistance.bind fun _ => (straight_call _).bind fun _ => (straight_call _).bind fun _ =>
    (straight_call _).bind fun _ => (straight_call _).bind fun _ => trivial

theorem straight_markRideCompleted {rid : Id} : (markRideCompleted rid).Straight := by
  refine straight_getState.bind fun state => ?_
  split
  · exact (straight_call _).bind fun _ => straight_call _
  · trivial

theorem straight_updateRide {changes : RideChanges} : (updateRide changes).Straight := by
  refine (straight_call _).bind fun o => ?_
  cases o with
  | none => trivial
  | some current =>
    refine (straight_call _).bind fun rows => ?_
    split
    · trivial
    · refine (straight_call _).bind fun o => ?_
      cases o <;> trivial

theorem straight_transition {rid : Id} {allowed : List ERideStatus} {next : ERideStatus} {context : Option String} :
    (transitionRideStatus rid allowed next context).Straight := by
  refine (straight_call _).bind fun o => ?_
  cases o with
  | none => trivial
  | some ride =>
    simp only
    split
    · trivial
    split
    · trivial
    · exact straight_updateRide.bind fun _ => (straight_call _).bind fun _ => trivial

theorem straight_both {ride riderEvent driverEvent riderMessage driverMessage extras} :
    (notifyBoth ride riderEvent driverEvent riderMessage driverMessage extras).Straight := by
  unfold notifyBoth
  split
  · exact straight_call _
  · exact (straight_call _).bind fun _ => straight_call _

theorem straight_settleRide {ride : Ride} {fare : FareCalculationResult} : (settleRide ride fare).Straight :=
  straight_transition.bind fun _ => straight_markRideCompleted.bind fun _ => straight_updateRide.bind fun _ =>
    (straight_call _).bind fun _ => straight_both.bind fun _ => trivial

theorem straight_completeRide {env : Environment} {rid : Id} {requester : RequestingClient}
    {location : ParticipantLocation} {discountAmount : Option JsNumber} :
    (completeRide env rid requester location discountAmount).Straight := by
  unfold completeRide
  cases requester.id with
  | none => trivial
  | some d =>
    refine (straight_call _).bind fun o => ?_
    cases o with
    | none => trivial
    | some r =>
      simp only [↓Program.throw_seq]
      split
      · trivial
      split
      · trivial
      split
      · trivial
      exact straight_atDropoff.bind fun _ => straight_recordLocation.bind fun _ =>
        straight_getTotalDistance.bind fun _ => (Program.straight_ofExcept _).bind fun _ => straight_settleRide

end Straight

section Costs

variable {α β : Type} (env : Environment)

/-- When it returns, the program has made `k` calls that can fail. -/
def Costs (k : ℕ) (p : Service α) : Prop :=
  ∀ w a v, p.run (handle env) w = (.ok a, v) → p.cost Call.fallible (handle env) w = k

variable {env}

theorem costs_ret (a : α) : Costs env 0 (.ret a) := fun _ _ _ _ => rfl

theorem costs_throw (k : ℕ) (e : ServiceError) : Costs env k (.throw e : Service α) :=
  fun _ _ _ h => nomatch h

theorem costs_call {c : Call} (hc : c.fallible = true) : Costs env 1 (call c) := by
  intro w a v hrun
  show (Program.call c Program.ofExcept).cost _ _ w = 1
  rw [Program.cost_fallible hc]
  cases (handle env c w).1 <;> rfl

theorem costs_geodist (x y : Coordinate) : Costs env 0 (call (.geodist x y)) := fun _ _ _ _ => rfl

theorem Costs.bind {p : Service α} {f : α → Service β} {j k : ℕ} (hp : Costs env j p)
    (hf : ∀ a, Costs env k (f a)) : Costs env (j + k) (p >>= f) := by
  intro w b v hrun
  rw [Program.run_bind] at hrun
  cases hp' : p.run (handle env) w with
  | mk reply u =>
    cases reply with
    | error e =>
      rw [hp'] at hrun
      cases hrun
    | ok a =>
      rw [hp'] at hrun
      rw [Program.cost_bind_ok hp', hp w a u hp', hf a u b v hrun]

theorem costs_getState {rid : Id} : Costs env 1 (getState rid) :=
  (costs_call rfl).bind fun _ => costs_ret _

theorem costs_getLatestLocation {rid : Id} {role : EClientType} : Costs env 1 (getLatestLocation rid role) :=
  costs_getState.bind fun _ => costs_ret _

theorem costs_getTotalDistance {rid : Id} : Costs env 1 (getTotalDistanceMeters rid) :=
  costs_getState.bind fun _ => costs_ret _

theorem costs_distance {x y : Coordinate} : Costs env 0 (calculateDistanceBetweenCoordinates x y) :=
  (costs_geodist x y).bind fun _ => costs_ret _

theorem costs_ensure {x y : Coordinate} {radius : ℚ} {message : String} :
    Costs env 0 (ensureLocationWithinRadius x y radius message) := by
  refine Costs.bind (j := 0) (k := 0) costs_distance fun d => ?_
  split
  · exact costs_throw 0 _
  · exact costs_ret _

theorem costs_atDropoff {ride : Ride} {location : ParticipantLocation} :
    Costs env 1 (ensureAtDropoff env ride location) := by
  refine Costs.bind (j := 1) (k := 0) costs_getLatestLocation fun o => ?_
  cases o with
  | none => exact costs_throw 0 _
  | some rider => exact costs_ensure.bind fun _ => costs_ensure.bind fun _ => costs_ensure

theorem costs_recordLocation {rid clientId : Id} {role : EClientType} {location : ParticipantLocation} :
    Costs env 5 (recordLocation rid clientId role location) := by
  refine Costs.bind (j := 1) (k := 4) costs_getState fun state => ?_
  have hdistance : Costs env 0 (driverDistance state role location) := by
    unfold driverDistance
    split
    · exact costs_distance
    · exact costs_ret _
  exact hdistance.bind fun _ => (costs_call rfl).bind fun _ => (costs_call rfl).bind fun _ =>
    (costs_call rfl).bind fun _ => (costs_call rfl).bind fun _ => costs_ret _

end Costs

section Partway

variable {α β : Type} {env : Environment} {w v : World} {n : ℕ}

theorem partway_call_zero {c : Call} (hc : c.fallible = true) (f : c.Answer → Service β) (w : World) :
    Partway env (call c >>= f) 0 w = w := Program.upto_zero hc

theorem partway_call_succ {c : Call} {a : c.Answer} (hc : c.fallible = true)
    (hrun : handle env c w = (.ok a, v)) (f : c.Answer → Service β) (n : ℕ) :
    Partway env (call c >>= f) (n + 1) w = Partway env (f a) n v := by
  have hstep : Partway env (call c >>= f) (n + 1) w =
      Partway env (Program.ofExcept (handle env c w).1 >>= f) n (handle env c w).2 := Program.upto_succ hc n
  rw [hstep, hrun]
  rfl

theorem partway_findById_zero (rid : Id) (f : Option Ride → Service β) (w : World) :
    Partway env (findById rid >>= f) 0 w = w := partway_call_zero (c := .findRide rid) rfl f w

theorem partway_findById_succ {rid : Id} {o : Option Ride} (hr : w.rides.find rid = o)
    (f : Option Ride → Service β) (n : ℕ) :
    Partway env (findById rid >>= f) (n + 1) w = Partway env (f o) n w :=
  partway_call_succ (c := .findRide rid) rfl (by simp [handle, hr]) f n

theorem partway_findById {rid : Id} {o : Option Ride} {f : Option Ride → Service β} {P : ℕ → World → Prop}
    (hr : w.rides.find rid = o) (hzero : P 0 w) (hsucc : ∀ n, P (n + 1) (Partway env (f o) n w)) (n : ℕ) :
    P n (Partway env (findById rid >>= f) n w) := by
  cases n with
  | zero =>
    rw [partway_findById_zero]
    exact hzero
  | succ n =>
    rw [partway_findById_succ hr]
    exact hsucc n

/-- A whole-row write is the second of its three calls. -/
theorem partway_updateRide (env : Environment) {r m : Ride} (hr : w.rides.find m.id = some r) (f : Ride → Service β) :
    (∀ n ≤ 1, Partway env (updateRide m.changes >>= f) n w = w) ∧
      Partway env (updateRide m.changes >>= f) 2 w = { w with rides := w.rides.put (r.rewrite m) } ∧
      ∀ n, Partway env (updateRide m.changes >>= f) (n + 3) w =
        Partway env (f (r.rewrite m)) n { w with rides := w.rides.put (r.rewrite m) } := by
  have hid : (r.rewrite m).id = m.id := Table.key_of_find hr
  have hp : (w.rides.put (r.rewrite m)).find m.id = some (r.rewrite m) := by
    rw [← hid] at hr ⊢
    exact Table.find_put_self hr
  have hc : m.changes.id = m.id := rfl
  have hrow : handle env (.updateRideRow (mergeRideData r m.changes)) w =
      (.ok ([m.id], 1), { w with rides := w.rides.put (r.rewrite m) }) := by
    simp [handle, World.updateRideRow, hr, Ride.rewrite]
  have hupdate : (Call.updateRideRow (mergeRideData r m.changes)).fallible = true := rfl
  unfold updateRide
  simp only [bind_assoc, hc]
  refine ⟨fun n hn => ?_, ?_, fun n => ?_⟩
  · obtain rfl | rfl : n = 0 ∨ n = 1 := by omega
    · exact partway_findById_zero _ _ w
    · rw [partway_findById_succ hr]
      simp only [bind_assoc]
      exact partway_call_zero hupdate _ w
  · rw [partway_findById_succ hr]
    simp only [bind_assoc]
    rw [partway_call_succ hupdate hrow]
    simp only [UpdateResult.length, Nat.reduceEqDiff, if_false, merge_id, bind_assoc]
    exact partway_findById_zero _ _ _
  · rw [partway_findById_succ hr]
    simp only [bind_assoc]
    rw [partway_call_succ hupdate hrow]
    simp only [UpdateResult.length, Nat.reduceEqDiff, if_false, merge_id, bind_assoc]
    exact partway_findById_succ (w := { w with rides := w.rides.put (r.rewrite m) }) hp _ n

/-- Calls apart from the rides leave them alone, however many of them are made. -/
theorem partway_apart (env : Environment) {p : Service α} (hp : p.Calls Call.Apart) (n : ℕ) (w : World) :
    SameRows w (Partway env p n w) :=
  hp.upto_keeps SameRows.refl (fun _ _ _ => SameRows.trans) (fun _ hop v => hop.tables env v) n w

theorem partway_apart_error {p : Service α} {e : ServiceError} (hp : p.Calls Call.Apart)
    (hrun : p.run (handle env) w = (.error e, v)) (f : α → Service β) (n : ℕ) :
    SameRows w (Partway env (p >>= f) n w) := by
  have hfirst : Partway env (p >>= f) n w = Partway env p n w := Program.upto_bind_error hrun n
  rw [hfirst]
  exact partway_apart env hp n w

theorem partway_apart_bind {p : Service α} {f : α → Service β} {a : α} {P : World → Prop} (hp : p.Calls Call.Apart)
    (hrun : p.run (handle env) w = (.ok a, v))
    (hearly : n < p.cost Call.fallible (handle env) w → ∀ u, SameRows w u → P u)
    (hlate : p.cost Call.fallible (handle env) w ≤ n →
      P (Partway env (f a) (n - p.cost Call.fallible (handle env) w) v)) :
    P (Partway env (p >>= f) n w) := by
  by_cases hn : n < p.cost Call.fallible (handle env) w
  · have hfirst : Partway env (p >>= f) n w = Partway env p n w := Program.upto_bind_early hn
    rw [hfirst]
    exact hearly hn _ (partway_apart env hp n w)
  · have hle : p.cost Call.fallible (handle env) w ≤ n := Nat.le_of_not_lt hn
    have hrest : Partway env (p >>= f) n w =
        Partway env (f a) (n - p.cost Call.fallible (handle env) w) v := Program.upto_bind_late hrun hle
    rw [hrest]
    exact hlate hle

end Partway

section Settle

variable {env : Environment} {w : World} {r : Ride}

/-- A transition that is due writes the row with its third call, of five. -/
theorem partway_transition (env : Environment) {β : Type} {allowed : List ERideStatus} {next : ERideStatus}
    (context : Option String) (hr : w.rides.find r.id = some r) (hs : r.status ∈ allowed) (hne : r.status ≠ next)
    (f : Ride × Bool → Service β) :
    let p : Service β := transitionRideStatus r.id allowed next context >>= f
    let moved := r.rewrite (withStatus r next context)
    (∀ n ≤ 2, Partway env p n w = w) ∧
      (∀ n, 2 < n → n ≤ 4 → Partway env p n w = { w with rides := w.rides.put moved }) ∧
      ∀ n, Partway env p (n + 5) w = Partway env (f (moved, true)) n
        { w with
          rides := w.rides.put moved
          history := w.history ++ [⟨moved.id, some r.status, next, context⟩] } := by
  intro p moved
  let g : Ride → Service β := fun saved => do
    recordStatusChange saved.id (some r.status) next context
    f (saved, true)
  have hnext (n : ℕ) : Partway env p (n + 1) w =
      Partway env (updateRide (withStatus r next context).changes >>= g) n w := by
    show Partway env (transitionRideStatus r.id allowed next context >>= f) (n + 1) w = _
    unfold transitionRideStatus
    simp only [bind_assoc]
    rw [partway_findById_succ hr]
    simp only [hs, not_true_eq_false, if_false, hne, bind_assoc, pure_bind, g]
  have hzero : Partway env p 0 w = w := by
    show Partway env (transitionRideStatus r.id allowed next context >>= f) 0 w = w
    unfold transitionRideStatus
    simp only [bind_assoc]
    exact partway_findById_zero _ _ w
  obtain ⟨hbefore, hwrite, hafter⟩ := partway_updateRide env (m := withStatus r next context) hr g
  refine ⟨fun n hn => ?_, fun n hn hn' => ?_, fun n => ?_⟩
  · cases n with
    | zero => exact hzero
    | succ n => rw [hnext, hbefore n (by omega)]
  · obtain rfl | rfl : n = 3 ∨ n = 4 := by omega
    · rw [hnext, hwrite]
    · rw [hnext, hafter 0]
      exact partway_call_zero (c := .saveHistory _) rfl _ _
  · rw [hnext, hafter (n + 1)]
    exact partway_call_succ (c := .saveHistory _) rfl rfl _ n

/-- How many calls `markRideCompleted` makes. -/
def World.markCalls (w : World) (rid : Id) : ℕ :=
  if ((w.tripStates rid).getD (.initial rid)).completed then 1 else 3

theorem cost_markRideCompleted (env : Environment) (rid : Id) (w : World) :
    (markRideCompleted rid).cost Call.fallible (handle env) w = w.markCalls rid := by
  have hread : (getState rid).run (handle env) w = (.ok ((w.tripStates rid).getD (.initial rid)), w) := rfl
  unfold markRideCompleted World.markCalls
  rw [Program.cost_bind_ok hread, costs_getState w _ w hread]
  cases ((w.tripStates rid).getD (.initial rid)).completed <;> rfl

theorem markRideCompleted_ok (env : Environment) (rid : Id) (w : World) :
    ∃ v, (markRideCompleted rid).run (handle env) w = (.ok (), v) ∧ SameRows w v := by
  have hread : (getState rid).run (handle env) w = (.ok ((w.tripStates rid).getD (.initial rid)), w) := rfl
  unfold markRideCompleted
  rw [Program.run_bind_ok _ hread]
  split
  · exact ⟨_, rfl, rfl, rfl⟩
  · exact ⟨w, rfl, .refl w⟩

/-- The ride after the first write of a completion. -/
def Ride.finished (r : Ride) : Ride :=
  r.rewrite (withStatus r .completed (some "Driver marked the ride as completed"))

/-- The ride after the second write of a completion. -/
def Ride.charged (r : Ride) (fare : FareCalculationResult) : Ride := r.finished.rewrite (withFare r.finished fare)

/-- The ride when the settlement has made `n` calls, `mark` of them for the mark. -/
def Ride.settled (r : Ride) (fare : FareCalculationResult) (mark n : ℕ) : Ride :=
  if n ≤ 2 then r else if n ≤ 6 + mark then r.finished else r.charged fare

/-- The store once the status and its history entry are written. -/
def World.finish (w : World) (r : Ride) : World :=
  { w with
    rides := w.rides.put r.finished
    history := w.history ++
      [⟨r.finished.id, some r.status, .completed, some "Driver marked the ride as completed"⟩] }

theorem find_finish (hr : w.rides.find r.id = some r) : (w.rides.put r.finished).find r.id = some r.finished := by
  have hid : r.finished.id = r.id := rfl
  rw [← hid]
  exact Table.find_put_self (r := r.finished) hr

/-- The transition of a completion writes the row with its third call, of five. -/
theorem partway_finish (env : Environment) {β : Type} (hr : w.rides.find r.id = some r)
    (hs : r.status ∈ [ERideStatus.enroute, .accepted, .assigned, .tripStarted]) (f : Ride × Bool → Service β) :
    let p : Service β := transitionRideStatus r.id [.enroute, .accepted, .assigned, .tripStarted] .completed
      (some "Driver marked the ride as completed") >>= f
    (∀ n ≤ 2, Partway env p n w = w) ∧
      (∀ n, 2 < n → n ≤ 4 → Partway env p n w = { w with rides := w.rides.put r.finished }) ∧
      ∀ n, Partway env p (n + 5) w = Partway env (f (r.finished, true)) n (w.finish r) := by
  have hne : r.status ≠ .completed := by
    rintro he
    rw [he] at hs
    simp at hs
  exact partway_transition env (some "Driver marked the ride as completed") hr hs hne f

def fareSummary (fare : FareCalculationResult) : FareSummary where
  baseFare := toFixed 2 fare.baseFare
  discountPercent := fare.discountPercent
  discountAmount := toFixed 2 fare.discountAmount
  finalFare := toFixed 2 fare.finalFare
  appFee := toFixed 2 fare.appFeeAmount

/-- `settleRide` from the mark on. -/
def chargeRide (rideId : Id) (updated : Ride) (fare : FareCalculationResult) : Service Ride := do
  markRideCompleted rideId
  let saved ← updateRide (withFare updated fare).changes
  let refreshed ← findById saved.id
  notifyRideCompleted (refreshed.getD saved) (fareSummary fare)
  return refreshed.getD saved

theorem settleRide_eq (r : Ride) (fare : FareCalculationResult) :
    settleRide r fare = transitionRideStatus r.id [.enroute, .accepted, .assigned, .tripStarted] .completed
      (some "Driver marked the ride as completed") >>= fun p => chargeRide r.id p.1 fare := rfl

/-- The fare is written with the second call after the mark. -/
theorem partway_charge (env : Environment) (hr : w.rides.find r.id = some r) (fare : FareCalculationResult) (n : ℕ) :
    (Partway env (chargeRide r.id r fare) n w).rides.find r.id =
      some (if n ≤ w.markCalls r.id + 1 then r else r.rewrite (withFare r fare)) := by
  have hcost := cost_markRideCompleted env r.id w
  obtain ⟨v, hrun, hv⟩ := markRideCompleted_ok env r.id w
  have hrv : v.rides.find r.id = some r := by rw [hv.1, hr]
  unfold chargeRide
  refine partway_apart_bind (P := fun u => u.rides.find r.id = _) apart_markRideCompleted hrun ?_ ?_
  · intro hn u hu
    rw [hcost] at hn
    rw [hu.1, hr, if_pos (by omega)]
  intro hn
  rw [hcost] at hn ⊢
  obtain ⟨m, rfl⟩ := Nat.exists_eq_add_of_le hn
  rw [Nat.add_sub_cancel_left]
  have hcharged : (v.rides.put (r.rewrite (withFare r fare))).find r.id = some (r.rewrite (withFare r fare)) :=
    Table.find_put_self (r := r.rewrite (withFare r fare)) hrv
  obtain ⟨hbefore, hwrite, hafter⟩ := partway_updateRide env (m := withFare r fare) hrv _
  by_cases hm : m ≤ 1
  · rw [hbefore m hm, hrv, if_pos (by omega)]
  rw [if_neg (by omega)]
  by_cases h2 : m = 2
  · subst h2
    rw [hwrite]
    exact hcharged
  obtain ⟨k, rfl⟩ : ∃ k, m = k + 3 := ⟨m - 3, by omega⟩
  rw [hafter k]
  cases k with
  | zero =>
    rw [partway_findById_zero]
    exact hcharged
  | succ k =>
    rw [partway_findById_succ hcharged]
    have hquiet (x : Ride) : (do notifyRideCompleted x (fareSummary fare); return x : Service Ride).Calls Call.Apart :=
      apart_both.bind fun _ => trivial
    have hsame := partway_apart env (hquiet (r.rewrite (withFare r fare))) k
      { v with rides := v.rides.put (r.rewrite (withFare r fare)) }
    exact (congrArg (Table.find · r.id) hsame.1).trans hcharged

theorem settleRide_partway (env : Environment) (hr : w.rides.find r.id = some r)
    (hs : r.status ∈ [ERideStatus.enroute, .accepted, .assigned, .tripStarted]) (fare : FareCalculationResult) (n : ℕ) :
    (Partway env (settleRide r fare) n w).rides.find r.id = some (r.settled fare (w.markCalls r.id) n) := by
  rw [settleRide_eq, Ride.settled]
  obtain ⟨hbefore, hwrite, hafter⟩ := partway_finish env hr hs fun p => chargeRide r.id p.1 fare
  by_cases h2 : n ≤ 2
  · rw [hbefore n h2, if_pos h2, hr]
  rw [if_neg h2]
  by_cases h4 : n ≤ 4
  · rw [hwrite n (by omega) h4, if_pos (by omega)]
    exact find_finish hr
  obtain ⟨k, rfl⟩ : ∃ k, n = k + 5 := ⟨n - 5, by omega⟩
  have hcharge : (Partway env (chargeRide r.id r.finished fare) k (w.finish r)).rides.find r.id =
      some (if k ≤ w.markCalls r.id + 1 then r.finished else r.charged fare) :=
    partway_charge env (r := r.finished) (find_finish hr) fare k
  have hle : k + 5 ≤ 6 + w.markCalls r.id ↔ k ≤ w.markCalls r.id + 1 := by omega
  rw [hafter k, hcharge]
  simp only [hle]

/-- A ride that the transition does not admit keeps its status. -/
theorem settleRide_refused (env : Environment) (hr : w.rides.find r.id = some r)
    (hs : r.status ∉ [ERideStatus.enroute, .accepted, .assigned, .tripStarted]) (fare : FareCalculationResult) (n : ℕ) :
    (Partway env (settleRide r fare) n w).statusOf r.id = some r.status := by
  rw [settleRide_eq, transitionRideStatus]
  simp only [bind_assoc]
  cases n with
  | zero =>
    rw [partway_findById_zero, World.statusOf, hr, Option.map_some]
  | succ n =>
    rw [partway_findById_succ hr]
    simp only [hs, not_false_eq_true, if_true, pure_bind]
    rw [World.statusOf, partway_charge env hr fare n]
    split <;> rfl

end Settle

section Complete

variable (env : Environment) (w : World) (rid : Id) (requester : RequestingClient) (location : ParticipantLocation)
  (discountAmount : Option JsNumber)

/-- The completion of the ride `r` passes all its checks. -/
def Completes (r : Ride) : Prop :=
  ∃ rider, CompletionOpen env w rid requester.id location discountAmount r rider ∧
    ∀ p ∈ completionProbes w r location rider, p.Passes env env.tripCompletionProximityMeters

/-- What a completion asks for before it calculates the fare. -/
def tripMeters (r : Ride) (driverId : Id) : Service ℚ := do
  ensureAtDropoff env r location
  let _ ← recordLocation r.id driverId .driver location
  getTotalDistanceMeters r.id

theorem costs_tripMeters (r : Ride) (driverId : Id) : Costs env 7 (tripMeters env location r driverId) :=
  Costs.bind (j := 1) (k := 6) costs_atDropoff fun _ =>
    Costs.bind (j := 5) (k := 1) costs_recordLocation fun _ => costs_getTotalDistance

theorem apart_tripMeters (r : Ride) (driverId : Id) : (tripMeters env location r driverId).Calls Call.Apart :=
  apart_atDropoff.bind fun _ => apart_recordLocation.bind fun _ => apart_getState.bind fun _ => trivial

variable {env w rid requester location discountAmount}

/-- A completion that is refused at once makes at most one call. -/
theorem completeRide_closed {o : Option Ride} (hr : w.rides.find rid = o)
    (hclosed : ∀ r, o = some r → requester.id ≠ none → r.driverId = requester.id →
      r.status ∈ [ERideStatus.canceled, .completed]) (n : ℕ) :
    Partway env (completeRide env rid requester location discountAmount) n w = w := by
  unfold completeRide
  simp only [↓Program.throw_seq]
  cases hid : requester.id with
  | none => rfl
  | some d =>
    refine partway_findById (P := fun _ u => u = w) hr rfl (fun n => ?_) n
    cases o with
    | none => rfl
    | some r =>
      by_cases hd : r.driverId = some d
      · have hs := hclosed r rfl (by simp [hid]) (by rw [hd, hid])
        obtain hs | hs : r.status = .canceled ∨ r.status = .completed := by simpa using hs
        · simp only [hd, hs, ne_eq, not_true_eq_false, if_true, if_false]
          rfl
        · simp only [hd, hs, ne_eq, not_true_eq_false, if_true, if_false, reduceCtorEq]
          rfl
      · simp only [hd, ne_eq, not_false_eq_true, if_true]
        rfl

variable (env location discountAmount) in
theorem completeRide_open {r : Ride} {d : Id} (hr : w.rides.find r.id = some r) (hid : requester.id = some d)
    (hd : r.driverId = some d) (hs : r.status ∉ [ERideStatus.canceled, .completed]) :
    Partway env (completeRide env r.id requester location discountAmount) 0 w = w ∧
      ∀ n, Partway env (completeRide env r.id requester location discountAmount) (n + 1) w =
        Partway env (tripMeters env location r d >>= fun meters => Program.ofExcept
          (env.fareEngine.calculateFare (billedDistanceKm r meters) discountAmount) >>= settleRide r) n w := by
  obtain ⟨hcanceled, hcompleted⟩ : r.status ≠ .canceled ∧ r.status ≠ .completed := by simpa using hs
  unfold completeRide tripMeters
  simp only [↓Program.throw_seq, hid]
  refine ⟨partway_findById_zero _ _ w, fun n => ?_⟩
  rw [partway_findById_succ hr]
  simp only [hd, hcanceled, hcompleted, ne_eq, not_true_eq_false, if_false, bind_assoc]

/-- Until the fare is calculated the rides stay as they are. -/
theorem completeRide_settling {r : Ride} {d : Id} {u : World} {meters : ℚ} (hr : w.rides.find r.id = some r)
    (hid : requester.id = some d) (hd : r.driverId = some d) (hs : r.status ∉ [ERideStatus.canceled, .completed])
    (hmeters : (tripMeters env location r d).run (handle env) w = (.ok meters, u)) {P : ℕ → World → Prop}
    (hearly : ∀ n x, n < 8 → SameRows w x → P n x)
    (hlate : ∀ n, P (n + 8) (Partway env (Program.ofExcept
      (env.fareEngine.calculateFare (billedDistanceKm r meters) discountAmount) >>= settleRide r) n u)) (n : ℕ) :
    P n (Partway env (completeRide env r.id requester location discountAmount) n w) := by
  obtain ⟨hzero, hsucc⟩ := completeRide_open env location discountAmount hr hid hd hs
  have hcost := costs_tripMeters env location r d w _ u hmeters
  cases n with
  | zero =>
    rw [hzero]
    exact hearly 0 w (by omega) (.refl w)
  | succ n =>
    rw [hsucc]
    refine partway_apart_bind (P := P (n + 1)) (apart_tripMeters env location r d) hmeters (fun hn x hx => ?_)
      fun hn => ?_
    · rw [hcost] at hn
      exact hearly (n + 1) x (by omega) hx
    · rw [hcost] at hn ⊢
      obtain ⟨m, rfl⟩ := Nat.exists_eq_add_of_le hn
      have hlast := hlate m
      rw [Nat.add_sub_cancel_left]
      have hindex : 7 + m + 1 = m + 8 := by omega
      rw [hindex]
      exact hlast

variable (env w rid requester location discountAmount) in
/-- The row of a completion: that of its settlement when all checks pass; and when
one does not, as before or not completed by it. -/
theorem completeRide_partway :
    (∃ r fare, Completes env w rid requester location discountAmount r ∧
      env.fareEngine.calculateFare (billedDistanceKm r (w.drivenMeters env rid location)) discountAmount = .ok fare ∧
      ∀ n, (Partway env (completeRide env rid requester location discountAmount) n w).rides.find rid =
        some (r.settled fare (w.markCalls rid) (n - 8))) ∨
    (∀ r, ¬ Completes env w rid requester location discountAmount r) ∧
      ∀ n, (Partway env (completeRide env rid requester location discountAmount) n w).rides.find rid =
          w.rides.find rid ∨
        w.statusOf rid ≠ some .completed ∧
          (Partway env (completeRide env rid requester location discountAmount) n w).statusOf rid ≠ some .completed := by
  by_cases hopen : ∃ r d, requester.id = some d ∧ w.rides.find rid = some r ∧ r.driverId = some d ∧
      r.status ∉ [ERideStatus.canceled, .completed]
  swap
  · have hclosed (r : Ride) (hr : w.rides.find rid = some r) (hid : requester.id ≠ none)
        (hd : r.driverId = requester.id) : r.status ∈ [ERideStatus.canceled, .completed] := by
      by_contra hs
      obtain ⟨d, hd'⟩ := Option.ne_none_iff_exists'.mp hid
      exact hopen ⟨r, d, hd', hr, hd.trans hd', hs⟩
    refine .inr ⟨fun r hc => ?_, fun n => .inl ?_⟩
    · obtain ⟨rider, ho, -⟩ := hc
      have hs := hclosed r ho.ride ho.driver.1 ho.driver.2
      have hstatus := ho.status
      obtain hs | hs : r.status = .canceled ∨ r.status = .completed := by simpa using hs
      · simp [hs] at hstatus
      · simp [hs] at hstatus
    · rw [completeRide_closed rfl hclosed n]
  obtain ⟨r, d, hid, hr, hd, hs⟩ := hopen
  obtain rfl : r.id = rid := Table.key_of_find hr
  have hstatus : w.statusOf r.id = some r.status := by rw [World.statusOf, hr, Option.map_some]
  have hsame (x : Ride) (rider : ParticipantLocation)
      (ho : CompletionOpen env w r.id requester.id location discountAmount x rider) : x = r :=
    Option.some.inj (ho.ride.symm.trans hr)
  rcases run_ensureAtDropoff_cases env w r location with ⟨rider, hl, hpass, hrun⟩ | ⟨hno, e, v, hrun, hv⟩
  swap
  · refine .inr ⟨fun x hx => ?_, fun n => .inl ?_⟩
    · obtain ⟨rider, ho, hpass⟩ := hx
      obtain rfl := hsame x rider ho
      exact hno rider ho.shared hpass
    · obtain ⟨hzero, hsucc⟩ := completeRide_open env location discountAmount hr hid hd hs
      have hmeters : (tripMeters env location r d).run (handle env) w = (.error e, v) := by
        unfold tripMeters
        exact Program.run_bind_error _ hrun _
      cases n with
      | zero => rw [hzero]
      | succ n => rw [hsucc, (partway_apart_error (apart_tripMeters env location r d) hmeters _ n).1]
  obtain ⟨a, u, hrec, hu, hmark, htotal⟩ := run_recordDriver env w r.id d location
  have hmeters : (tripMeters env location r d).run (handle env) w = (.ok (w.drivenMeters env r.id location), u) := by
    unfold tripMeters
    rw [Program.run_bind_ok _ hrun, Program.run_bind_ok _ hrec, htotal]
  have hru : u.rides.find r.id = some r := by rw [hu.1, hr]
  have hcalls : u.markCalls r.id = w.markCalls r.id := by rw [World.markCalls, hmark, World.markCalls]
  cases hf : env.fareEngine.calculateFare (billedDistanceKm r (w.drivenMeters env r.id location)) discountAmount with
  | error e =>
    refine .inr ⟨fun x hx => ?_, fun n => .inl ?_⟩
    · obtain ⟨rider, ho, -⟩ := hx
      obtain rfl := hsame x rider ho
      obtain ⟨fare, hfare⟩ := ho.fare
      rw [hf] at hfare
      cases hfare
    · refine completeRide_settling (P := fun _ x => x.rides.find r.id = w.rides.find r.id) hr hid hd hs hmeters
        (fun n x _ hx => ?_) (fun n => ?_) n
      · rw [hx.1]
      · rw [hf]
        exact congrArg (Table.find · r.id) hu.1
  | ok fare =>
    by_cases hallowed : r.status ∈ [ERideStatus.enroute, .accepted, .assigned, .tripStarted]
    · refine .inl ⟨r, fare, ⟨rider, ⟨hr, ⟨by simp [hid], by rw [hd, hid]⟩, hallowed, hl, fare, hf⟩, hpass⟩, hf, fun n => ?_⟩
      refine completeRide_settling (P := fun n x => x.rides.find r.id = some (r.settled fare (w.markCalls r.id) (n - 8)))
        hr hid hd hs hmeters (fun n x hn hx => ?_) (fun n => ?_) n
      · have hzero : n - 8 = 0 := by omega
        rw [hx.1, hr, hzero]
        rfl
      · rw [hf, Nat.add_sub_cancel, ← hcalls]
        exact settleRide_partway env hru hallowed fare n
    · have hno : r.status ≠ .completed := fun he => hs (by simp [he])
      refine .inr ⟨fun x hx => ?_, fun n => .inr ⟨?_, ?_⟩⟩
      · obtain ⟨rider, ho, -⟩ := hx
        obtain rfl := hsame x rider ho
        exact hallowed ho.status
      · rw [hstatus]
        simpa using hno
      · have hkept : (Partway env (completeRide env r.id requester location discountAmount) n w).statusOf r.id =
            some r.status := by
          refine completeRide_settling (P := fun _ x => x.statusOf r.id = some r.status)
            hr hid hd hs hmeters (fun n x _ hx => ?_) (fun n => ?_) n
          · rw [statusOf_same hx, hstatus]
          · rw [hf]
            exact settleRide_refused env hru hallowed fare n
        rw [hkept]
        simpa using hno

end Complete

end NebLite
