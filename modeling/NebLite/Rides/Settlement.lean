import NebLite.Rides.Snapshots
import NebLite.Rides.RideRow

/-! Two operations that end the same ride: the completion by its driver and the
cancellation by its rider. Both run through the same phases, with the ride read
at the beginning and the snapshot of the transition kept along. -/

namespace NebLite

open Atomic

/-- An operation that ends a ride. `writesBack o u m` says of the row `m` of its
last UPDATE how it comes from the ride `o` read first and the snapshot `u`. -/
structure Settler where
  refusedBy : ERideStatus
  allowed : List ERideStatus
  next : ERideStatus
  writesBack : Ride → Ride → Ride → Prop

inductive SettlePhase where
  | opening
  | refused
  | running (begun : Ride)
  | admitted (begun read : Ride)
  | ready (begun read : Ride)
  | transitioned (begun : Ride)
  | holding (begun snapshot : Ride)
  | settled
  | saving (rest : List RideDriverCandidate)

/-- The calls of an operation in each phase, and the phase after them. -/
inductive SettleMove (s : Settler) (rid : Id) (w : World) : SettlePhase → Call → SettlePhase → Prop
  | apart {l op} : op.Apart → SettleMove s rid w l op l
  | refuse {r} : w.rides.find rid = some r → r.status = s.refusedBy →
      SettleMove s rid w .opening (.findRide rid) .refused
  | begin {r} : w.rides.find rid = some r → r.status ≠ s.refusedBy →
      SettleMove s rid w .opening (.findRide rid) (.running r)
  | grant {o r} : w.rides.find rid = some r → r.status ∈ s.allowed →
      SettleMove s rid w (.running o) (.findRide rid) (.admitted o r)
  | leave {o r} : w.rides.find rid = some r → r.status ∉ s.allowed →
      SettleMove s rid w (.running o) (.findRide rid) (.holding o r)
  | current {o r} : SettleMove s rid w (.admitted o r) (.findRide rid) (.ready o r)
  | mark {o r m} : m.id = rid → m.status = s.next →
      (s.next ≠ .canceled → m.cancelReason = r.cancelReason) →
      SettleMove s rid w (.ready o r) (.updateRideRow m) (.transitioned o)
  | reread {o r} : w.rides.find rid = some r →
      SettleMove s rid w (.transitioned o) (.findRide rid) (.holding o r)
  | recheck {o u} : SettleMove s rid w (.holding o u) (.findRide rid) (.holding o u)
  | write {o u m} : m.id = rid → s.writesBack o u m →
      SettleMove s rid w (.holding o u) (.updateRideRow m) .settled
  | look : SettleMove s rid w .settled (.findRide rid) .settled
  | lookAgain {rest} : SettleMove s rid w (.saving rest) (.findRide rid) (.saving rest)
  | list {rest} : s.next = .canceled →
      (∀ c ∈ w.candidates.rows, c.rideId = rid → c.status = .canceled ∨ ∃ y ∈ rest, y.id = c.id) →
      (∀ y ∈ rest, y.status = .canceled) →
      SettleMove s rid w .settled (.findCandidates rid) (.saving rest)
  | save {c rest} : SettleMove s rid w (.saving (c :: rest)) (.saveCandidate c) (.saving rest)

def settleOutline (s : Settler) (rid : Id) : Outline SettlePhase Call World where
  pre _ w := ∃ r, w.rides.find rid = some r
  move l op w l' := SettleMove s rid w l op l'

/-- From phase `l` the program runs through the phases; `Q` holds where it returns. -/
abbrev Settles {α : Type} (env : Environment) (s : Settler) (rid : Id) (Q : SettlePhase → Prop)
    (l : SettlePhase) (p : Service α) : Prop :=
  (settleOutline s rid).Follows (handle env) (fun l r => ∀ a, r = .ok a → Q l) l p

section Settles

variable {env : Environment} {s : Settler} {rid : Id} {Q : SettlePhase → Prop} {l : SettlePhase}
  {α β : Type}

theorem settles_throw (e : ServiceError) : Settles env s rid Q l (.throw e : Service α) :=
  fun _ h => nomatch h

theorem settles_apart {p : Service α} {f : α → Service β} (hp : p.Calls Call.Apart)
    (hf : ∀ a, Settles env s rid Q l (f a)) : Settles env s rid Q l (p >>= f) :=
  Outline.Follows.quiet hp (fun _ _ h _ => .apart h) (fun _ _ h => nomatch h) hf

theorem settles_findById {f : Option Ride → Service β}
    (h : ∀ w r, w.rides.find rid = some r → r.id = rid → ∃ l', SettleMove s rid w l (.findRide rid) l' ∧
      Settles env s rid Q l' (f (some r))) : Settles env s rid Q l (findById rid >>= f) := by
  apply Outline.Follows.perform
  rintro w ⟨r, hr⟩
  have hid : r.id = rid := Table.key_of_find hr
  obtain ⟨l', hm, hf⟩ := h w r hr hid
  refine ⟨l', hm, ?_⟩
  simpa only [handle, hr, Program.ofExcept_ok, Program.ret_bind] using hf

/-- A full-row write, its own read before it included. -/
theorem settles_updateRide {m : Ride} {f : Ride → Service β} {ready written : SettlePhase}
    (hid : m.id = rid) (hread : ∀ w, SettleMove s rid w l (.findRide rid) ready)
    (hwrite : ∀ w cur, SettleMove s rid w ready (.updateRideRow (mergeRideData cur m.changes)) written)
    (hf : ∀ w r, w.rides.find rid = some r → r.id = rid → ∃ l', SettleMove s rid w written (.findRide rid) l' ∧
      Settles env s rid Q l' (f r)) : Settles env s rid Q l (updateRide m.changes >>= f) := by
  have hc : m.changes.id = rid := hid
  unfold updateRide
  simp only [bind_assoc, hc]
  apply settles_findById
  intro w cur _ _
  refine ⟨ready, hread w, ?_⟩
  simp only [bind_assoc]
  apply Outline.Follows.perform
  rintro v ⟨x, hx⟩
  refine ⟨written, hwrite v cur, ?_⟩
  have hok : (handle env (.updateRideRow (mergeRideData cur m.changes)) v).1 = .ok ([rid], 1) := by
    simp only [handle, World.updateRideRow, merge_id, hid, hx]
    rfl
  rw [hok]
  simp only [Program.ofExcept_ok, Program.ret_bind, UpdateResult.length, Nat.reduceEqDiff, if_false,
    merge_id, hid, bind_assoc]
  exact settles_findById hf

theorem settles_transition {context : Option String} {f : Ride × Bool → Service β} {o : Ride}
    (hnext : s.next ∉ s.allowed)
    (hf : ∀ u changed, u.id = rid → Settles env s rid Q (.holding o u) (f (u, changed))) :
    Settles env s rid Q (.running o) (transitionRideStatus rid s.allowed s.next context >>= f) := by
  unfold transitionRideStatus
  simp only [bind_assoc]
  apply settles_findById
  intro w r hr hid
  by_cases hs : r.status ∈ s.allowed
  · refine ⟨.admitted o r, .grant hr hs, ?_⟩
    have hne : r.status ≠ s.next := fun he => hnext (he ▸ hs)
    simp only [not_true_eq_false, if_false, hs, hne, bind_assoc]
    have hreason : s.next ≠ .canceled → (withStatus r s.next context).cancelReason = r.cancelReason := by
      intro hc
      simp [withStatus, hc]
    refine settles_updateRide (m := withStatus r s.next context) hid (fun _ => .current)
      (fun _ cur => .mark hid (by simp [withStatus])
        fun hc => (merge_cancelReason cur _).trans (hreason hc)) fun v u hu huid => ?_
    refine ⟨.holding o u, .reread hu, ?_⟩
    exact settles_apart apart_recordStatusChange fun _ => hf u true huid
  · refine ⟨.holding o r, .leave hr hs, ?_⟩
    simp only [hs, not_false_eq_true, if_true]
    exact hf r false hid

/-- The last write of an operation. -/
theorem settles_writeBack {m u o : Ride} {f : Ride → Service β} (hid : m.id = rid)
    (hw : ∀ cur, s.writesBack o u (mergeRideData cur m.changes))
    (hf : ∀ r, r.id = rid → Settles env s rid Q .settled (f r)) :
    Settles env s rid Q (.holding o u) (updateRide m.changes >>= f) :=
  settles_updateRide hid
    (fun _ => .recheck) (fun _ cur => .write (by simpa using hid) (hw cur))
    fun _ r _ hr => ⟨.settled, .look, hf r hr⟩

end Settles

/-- The money fields of `calculateFare` on a ride. -/
def Ride.Charged (fare : FareCalculationResult) (r : Ride) : Prop :=
  r.fareFinal = some (toFixed 2 fare.finalFare) ∧ r.discountPercent = some fare.discountPercent ∧
    r.discountAmount = some (toFixed 2 fare.discountAmount) ∧
    r.appFeeAmount = some (toFixed 2 fare.appFeeAmount) ∧
    r.distanceActualKm = some fare.roundedDistanceKm ∧ r.paymentStatus = some .pending

/-- The ride `r` carries the fare of a completion that began with the ride `o`. -/
def Ride.Billed (env : Environment) (discountAmount : Option JsNumber) (o r : Ride) : Prop :=
  ∃ meters fare, env.fareEngine.calculateFare (billedDistanceKm o meters) discountAmount = .ok fare ∧
    r.Charged fare

/-- `completeRide` as an operation that ends its ride. -/
def completes (env : Environment) (discountAmount : Option JsNumber) : Settler where
  refusedBy := .canceled
  allowed := [.enroute, .accepted, .assigned, .tripStarted]
  next := .completed
  writesBack o u m := m.status = u.status ∧ m.cancelReason = u.cancelReason ∧
    Ride.Billed env discountAmount o m

/-- `cancelRide` as an operation that ends its ride. -/
def cancels : Settler where
  refusedBy := .completed
  allowed := [.requested, .candidatesComputed, .assigned, .accepted, .enroute]
  next := .canceled
  writesBack _ u m := m.status = u.status ∧ m.paymentStatus = u.paymentStatus ∧ m.fareFinal = some 0

variable {env : Environment} {rid : Id}

theorem charged_withFare (cur u : Ride) (fare : FareCalculationResult) :
    (mergeRideData cur (withFare u fare).changes).Charged fare := by
  simp [Ride.Charged, withFare]

theorem settles_settleRide {discountAmount : Option JsNumber} {ride : Ride} {meters : ℚ}
    {fare : FareCalculationResult} (hid : ride.id = rid)
    (hfare : env.fareEngine.calculateFare (billedDistanceKm ride meters) discountAmount = .ok fare) :
    Settles env (completes env discountAmount) rid (· = .settled) (.running ride)
      (settleRide ride fare) := by
  unfold settleRide
  subst hid
  have hnext : (completes env discountAmount).next ∉ (completes env discountAmount).allowed := by
    simp [completes]
  refine settles_transition hnext fun u _ hu => ?_
  refine settles_apart apart_markRideCompleted fun _ => ?_
  have hback (cur : Ride) : (completes env discountAmount).writesBack ride u
      (mergeRideData cur (withFare u fare).changes) :=
    ⟨by simp [withFare], by simp [withFare], meters, fare, hfare, charged_withFare cur u fare⟩
  refine settles_writeBack (m := withFare u fare) hu hback fun saved hs => ?_
  rw [hs]
  refine settles_findById fun w r _ _ => ⟨.settled, .look, ?_⟩
  exact settles_apart apart_both fun _ _ _ => rfl

theorem settles_completeRide {requester : RequestingClient} {location : ParticipantLocation}
    {discountAmount : Option JsNumber} :
    Settles env (completes env discountAmount) rid (· = .settled) .opening
      (completeRide env rid requester location discountAmount) := by
  unfold completeRide
  cases requester.id with
  | none => exact settles_throw _
  | some driver =>
    refine settles_findById fun w ride hr hid => ?_
    simp only [↓Program.throw_seq]
    by_cases hc : ride.status = .canceled
    · refine ⟨.refused, .refuse hr hc, ?_⟩
      split
      · exact settles_throw _
      · exact settles_throw _
    · refine ⟨.running ride, .begin hr hc, ?_⟩
      split
      · exact settles_throw _
      split
      · exact settles_throw _
      refine settles_apart apart_atDropoff fun _ => settles_apart apart_recordLocation fun _ => ?_
      have htotal : (getTotalDistanceMeters ride.id).Calls Call.Apart :=
        apart_getState.bind fun _ => by simp
      refine settles_apart htotal fun meters => ?_
      cases hfare : env.fareEngine.calculateFare (billedDistanceKm ride meters) discountAmount with
      | error e => exact settles_throw e
      | ok fare =>
        simp only [Program.ofExcept_ok, Program.ret_bind]
        exact settles_settleRide hid hfare

/-- The rows that a cancellation is about to save, against the table. -/
theorem canceledRows_cover {w : World} {reason : Option String} {now : Time}
    {c : RideDriverCandidate} (hc : c ∈ w.candidates.rows) (hr : c.rideId = rid) :
    c.status = .canceled ∨
      ∃ y ∈ (w.findCandidates rid).filterMap (canceledRow reason now), y.id = c.id := by
  by_cases hs : c.status = .canceled
  · exact .inl hs
  · have hmem : c ∈ w.findCandidates rid := by
      simp [World.findCandidates, Table.mem_select, hc, hr]
    have hrow : canceledRow reason now c = some
        { c with status := .canceled, reason := some (cancellationReason reason), respondedAt := some now } := by
      simp [canceledRow, hs]
    exact .inr ⟨_, List.mem_filterMap.mpr ⟨c, hmem, hrow⟩, rfl⟩

theorem settles_saveMany {β : Type} {Q : SettlePhase → Prop} {f : Unit → Service β}
    (hf : Settles env cancels rid Q (.saving []) (f ())) (rest : List RideDriverCandidate) :
    Settles env cancels rid Q (.saving rest) (saveMany rest >>= f) := by
  induction rest with
  | nil => exact hf
  | cons c rest ih =>
    change Settles env cancels rid Q (.saving (c :: rest)) ((saveCandidate c >>= fun _ => saveMany rest) >>= f)
    rw [bind_assoc]
    exact Outline.Follows.perform fun _ _ => ⟨.saving rest, .save, ih⟩

theorem settles_cancelRide {requester : RequestingClient} {reason : Option String} {now : Time} :
    Settles env cancels rid (fun l => l = .saving [] ∨ ∃ o, l = .running o ∧ o.status = .canceled)
      .opening (cancelRide rid requester reason now) := by
  unfold cancelRide
  refine settles_findById fun w ride hr hid => ?_
  simp only [↓Program.throw_seq]
  by_cases hc : ride.status = .completed
  · refine ⟨.refused, .refuse hr hc, ?_⟩
    split
    · exact settles_throw _
    · exact settles_throw _
  refine ⟨.running ride, .begin hr hc, ?_⟩
  subst hid
  split
  · exact settles_throw _
  by_cases hcc : ride.status = .canceled
  · rw [if_pos hcc]
    exact fun _ _ => .inr ⟨ride, rfl, hcc⟩
  rw [if_neg hcc]
  refine settles_apart (calls_call trivial) fun _ => ?_
  have hnext : cancels.next ∉ cancels.allowed := by decide
  refine settles_transition (s := cancels) hnext fun u _ hu => ?_
  have hback (cur : Ride) : cancels.writesBack ride u
      (mergeRideData cur (withCancellation u reason).changes) :=
    ⟨by simp [withCancellation], by simp [withCancellation], by simp [withCancellation]⟩
  refine settles_writeBack (m := withCancellation u reason) hu hback fun _ _ => ?_
  have hrid : (withCancellation u reason).id = ride.id := hu
  rw [hrid]
  apply Outline.Follows.perform
  intro v _
  let rest := (v.findCandidates ride.id).filterMap (canceledRow reason now)
  have hcover : ∀ c ∈ v.candidates.rows, c.rideId = ride.id → c.status = .canceled ∨
      ∃ y ∈ rest, y.id = c.id := fun c hm hr => canceledRows_cover hm hr
  have hcanceled : ∀ y ∈ rest, y.status = .canceled := by
    intro y hy
    obtain ⟨c, -, hrow⟩ := List.mem_filterMap.mp hy
    have hs := canceledRow_status reason now c
    rwa [hrow] at hs
  refine ⟨.saving rest, .list rfl hcover hcanceled, ?_⟩
  have hlast : Settles env cancels ride.id
      (fun l => l = .saving [] ∨ ∃ o, l = .running o ∧ o.status = .canceled) (.saving [])
      (do
        let refreshed ← findById ride.id
        return refreshed.getD (withCancellation u reason)) :=
    settles_findById fun _ _ _ _ => ⟨_, .lookAgain, fun _ _ => .inl rfl⟩
  change Settles env cancels ride.id _ (.saving rest) (if 0 < rest.length then _ else _)
  by_cases hrest : 0 < rest.length
  · rw [if_pos hrest]
    refine settles_saveMany ?_ rest
    exact settles_apart (calls_forM (fun _ => apart_dispatch) _) fun _ => hlast
  · rw [if_neg hrest]
    have hnil : rest = [] := List.length_eq_zero_iff.mp (by omega)
    rw [hnil]
    exact hlast

end NebLite
