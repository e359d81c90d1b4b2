import NebLite.Rides.Snapshots

/-! What the lifecycle operations write goes back to the rides that they have read: the
ride row keeps its rider, and a candidate row gets an answer or is withdrawn. -/

namespace NebLite

open Atomic

/-- The rides that a process has read, newest first. -/
def ridesAfter (l : List Ride) : Event Call Call.Answer ServiceError → List Ride
  | ⟨.findRide _, .ok (some r)⟩ => r :: l
  | _ => l

/-- The answer that an operation saves on a row of driver `x` after it has read the
rides `l`; `none` where it withdraws the row. -/
def LifecycleOp.answer (l : List Ride) (x : Id) : LifecycleOp → Option ERideDriverCandidateStatus
  | acceptRideByDriver _ driverId _ =>
    match l.head?.bind (·.driverId) with
    | some holder => if holder = driverId then some .accepted else none
    | none => some .accepted
  | rejectRideByDriver .. => some .declined
  | confirmDriverAcceptance .. =>
    if l.getLast?.bind (·.driverId) = some x then some .confirmed else none
  | _ => none

/-- The writes that an operation may come to after it has read the rides `l`. -/
def LifecycleOp.Writes (lop : LifecycleOp) (l : List Ride) : Call → Prop
  | .updateRideRow m => lop.ride = some m.id ∧ ∃ r ∈ l, r.id = m.id ∧ r.riderId = m.riderId
  | .saveCandidate n => n.status = (lop.answer l n.driverId).getD .canceled
  | .insertRide options => lop.ride = none ∧ options.ride.status = .candidatesComputed
  | _ => True

/-- Calls that neither read a ride nor write a ride or a candidate. -/
def Call.Idle : Call → Prop
  | .findRide _ | .updateRideRow _ | .saveCandidate _ | .insertRide _ => False
  | _ => True

theorem Call.Apart.idle {op : Call} (h : op.Apart) : op.Idle := by
  cases op <;> trivial

def writesOutline (env : Environment) (lop : LifecycleOp) : Outline (List Ride) Call World where
  pre _ _ := True
  move l op w l' := l' = ridesAfter l ⟨op, (handle env op w).1⟩ ∧ lop.Writes l op

/-- Every write of the program goes back to what was read before it. -/
abbrev WritesBack {α : Type} (env : Environment) (lop : LifecycleOp) (l : List Ride) (p : Service α) : Prop :=
  (writesOutline env lop).Follows (handle env) (fun _ _ => True) l p

section WritesBack

variable {env : Environment} {lop : LifecycleOp} {l : List Ride} {rid : Id} {α β : Type}

theorem writes_throw (e : ServiceError) : WritesBack env lop l (.throw e : Service α) := trivial

theorem writes_idle {p : Service α} {f : α → Service β} (hp : p.Calls Call.Idle)
    (hf : ∀ a, WritesBack env lop l (f a)) : WritesBack env lop l (p >>= f) := by
  apply Outline.Follows.quiet hp
  · intro op w hq _
    cases op <;> first | exact ⟨rfl, trivial⟩ | exact hq.elim
  · exact fun _ => trivial
  · exact hf

theorem writes_apart {p : Service α} {f : α → Service β} (hp : p.Calls Call.Apart)
    (hf : ∀ a, WritesBack env lop l (f a)) : WritesBack env lop l (p >>= f) :=
  writes_idle (hp.mono fun _ h => h.idle) hf

theorem writes_findById {f : Option Ride → Service β} (hnone : WritesBack env lop l (f none))
    (hsome : ∀ r, r.id = rid → WritesBack env lop (r :: l) (f (some r))) :
    WritesBack env lop l (findById rid >>= f) := by
  apply Outline.Follows.perform
  intro w _
  refine ⟨_, ⟨rfl, trivial⟩, ?_⟩
  cases hr : w.rides.find rid with
  | none => simpa [handle, hr, ridesAfter] using hnone
  | some r => simpa [handle, hr, ridesAfter] using hsome r (Table.key_of_find hr)

theorem writes_saveCandidate {n : RideDriverCandidate} {f : Unit → Service β}
    (hn : n.status = (lop.answer l n.driverId).getD .canceled) (hf : WritesBack env lop l (f ())) :
    WritesBack env lop l (saveCandidate n >>= f) := by
  apply Outline.Follows.perform
  intro w _
  exact ⟨l, ⟨rfl, hn⟩, hf⟩

theorem writes_saveMany {rows : List RideDriverCandidate} {f : Unit → Service β}
    (hrows : ∀ n ∈ rows, n.status = (lop.answer l n.driverId).getD .canceled)
    (hf : WritesBack env lop l (f ())) : WritesBack env lop l (saveMany rows >>= f) := by
  induction rows with
  | nil => exact hf
  | cons n rows ih =>
    change WritesBack env lop l ((saveCandidate n >>= fun _ => saveMany rows) >>= f)
    rw [bind_assoc]
    apply writes_saveCandidate (hrows n List.mem_cons_self)
    exact ih fun x hx => hrows x (List.mem_cons_of_mem n hx)

theorem writes_updateRide {m : Ride} {f : Ride → Service β} (hride : lop.ride = some m.id)
    (hm : ∃ r ∈ l, r.id = m.id ∧ r.riderId = m.riderId)
    (hf : ∀ r l', r.id = m.id → r ∈ l' → l <:+ l' → WritesBack env lop l' (f r)) :
    WritesBack env lop l (updateRide m.changes >>= f) := by
  unfold updateRide
  have hc : m.changes.id = m.id := rfl
  simp only [bind_assoc, hc]
  apply writes_findById (writes_throw _)
  intro cur _
  simp only [bind_assoc]
  apply Outline.Follows.perform
  intro w _
  refine ⟨cur :: l, ⟨rfl, ?_⟩, ?_⟩
  · obtain ⟨r, hr, hid, hrider⟩ := hm
    exact ⟨hride, r, List.mem_cons_of_mem cur hr, hid, hrider⟩
  · have hok : ∃ rows, (handle env (.updateRideRow (mergeRideData cur m.changes)) w).1 = .ok rows := by
      simp only [handle, World.updateRideRow]
      split <;> exact ⟨_, rfl⟩
    obtain ⟨rows, hok⟩ := hok
    rw [hok]
    simp only [Program.ofExcept_ok, Program.ret_bind, UpdateResult.length, Nat.reduceEqDiff, if_false,
      merge_id, bind_assoc]
    apply writes_findById (writes_throw _)
    intro x hx
    exact hf x _ hx List.mem_cons_self ⟨[x, cur], rfl⟩

theorem writes_transition {allowed : List ERideStatus} {next : ERideStatus} {context : Option String}
    {f : Ride × Bool → Service β} (hride : lop.ride = some rid)
    (hf : ∀ r changed l', r.id = rid → r ∈ l' → l <:+ l' → WritesBack env lop l' (f (r, changed))) :
    WritesBack env lop l (transitionRideStatus rid allowed next context >>= f) := by
  unfold transitionRideStatus
  simp only [bind_assoc]
  apply writes_findById (writes_throw _)
  intro r hr
  have hlonger : l <:+ r :: l := List.suffix_cons r l
  simp only
  split
  · exact hf r false _ hr List.mem_cons_self hlonger
  split
  · exact hf r false _ hr List.mem_cons_self hlonger
  simp only [bind_assoc]
  apply writes_updateRide (m := withStatus r next context) (by rw [hride]; exact congrArg some hr.symm)
    ⟨r, List.mem_cons_self, rfl, rfl⟩
  intro x l' hx hmem hl
  apply writes_apart apart_recordStatusChange
  intro _
  exact hf x true l' (hx.trans hr) hmem (hlonger.trans hl)

/-- Reading the ride again at the end of an operation. -/
theorem writes_refreshed {f : Option Ride → α} :
    WritesBack env lop l (do let refreshed ← findById rid; return f refreshed) :=
  writes_findById trivial fun _ _ => trivial

theorem writes_acceptClaimedRide {c : RideDriverCandidate} {now : Time} (hride : lop.ride = some rid)
    (hans : ∀ x, lop.answer l x = some .accepted) : WritesBack env lop l (acceptClaimedRide rid c now) := by
  unfold acceptClaimedRide
  apply writes_saveCandidate (by rw [hans]; rfl)
  apply writes_transition hride
  intro r _ l₁ hr _ _
  simp only [hr]
  apply writes_transition hride
  intro x _ l₂ _ _ _
  apply writes_apart apart_dispatch
  intro _
  exact writes_refreshed

theorem writes_superseded {r : Ride} {c : RideDriverCandidate} {now : Time} {f : Unit → Service β}
    (hans : ∀ x, lop.answer l x = none) (hf : WritesBack env lop l (f ())) :
    WritesBack env lop l (markCandidateSuperseded r c now >>= f) := by
  unfold markCandidateSuperseded
  simp only [bind_assoc]
  apply writes_saveCandidate (by rw [hans]; rfl)
  exact writes_apart apart_dispatch fun _ => hf

theorem writes_acceptRideByDriver {d : Id} {now : Time} :
    WritesBack env (.acceptRideByDriver rid d now) l (acceptRideByDriver rid d now) := by
  have hfree {r : Ride} (l : List Ride) (hd : r.driverId = none) (x : Id) :
      (LifecycleOp.acceptRideByDriver rid d now).answer (r :: l) x = some .accepted := by
    simp [LifecycleOp.answer, hd]
  have hheld {r : Ride} (l : List Ride) {holder : Id} (hd : r.driverId = some holder) (x : Id) :
      (LifecycleOp.acceptRideByDriver rid d now).answer (r :: l) x =
        if holder = d then some .accepted else none := by
    simp [LifecycleOp.answer, hd]
  unfold acceptRideByDriver
  apply writes_findById (writes_throw _)
  intro r hr
  subst hr
  simp only [↓Program.throw_seq]
  split
  · trivial
  split
  · trivial
  refine writes_idle (calls_call trivial) fun o => ?_
  cases o with
  | none => trivial
  | some c =>
    simp only
    split
    · trivial
    split
    · trivial
    split
    · trivial
    cases hd : r.driverId with
    | some holder =>
      simp only
      split
      · next hne =>
        apply writes_superseded
        · intro x
          rw [hheld l hd, if_neg hne]
        · trivial
      · next heq =>
        apply writes_acceptClaimedRide rfl
        intro x
        rw [hheld l hd, if_pos (not_not.mp heq)]
    | none =>
      refine writes_idle (calls_call trivial) fun claimed => ?_
      split
      · exact writes_acceptClaimedRide rfl (hfree l hd)
      · apply writes_findById
        · simp only [Option.getD_none, hd, Option.isSome_none, Bool.false_eq_true, false_and, if_false]
          exact writes_acceptClaimedRide rfl (hfree l hd)
        · intro y hy
          simp only [Option.getD_some, hy]
          cases hdy : y.driverId with
          | none =>
            simp only [Option.isSome_none, Bool.false_eq_true, false_and, if_false]
            exact writes_acceptClaimedRide rfl (hfree _ hdy)
          | some holder =>
            simp only [Option.isSome_some, true_and, ne_eq, Option.some.injEq]
            split
            · next hne =>
              apply writes_superseded
              · intro x
                rw [hheld _ hdy, if_neg hne]
              · trivial
            · next heq =>
              apply writes_acceptClaimedRide rfl
              intro x
              rw [hheld _ hdy, if_pos (not_not.mp heq)]

theorem writes_rejectRideByDriver {d : Id} {reason : Option String} {now : Time} :
    WritesBack env (.rejectRideByDriver rid d reason now) l (rejectRideByDriver rid d reason now) := by
  unfold rejectRideByDriver
  apply writes_findById (writes_throw _)
  intro r hr
  subst hr
  simp only [↓Program.throw_seq]
  split
  · trivial
  split
  · trivial
  split
  · trivial
  refine writes_idle (calls_call trivial) fun o => ?_
  cases o with
  | none => trivial
  | some c =>
    simp only
    split
    · trivial
    split
    · trivial
    apply writes_saveCandidate rfl
    split
    · apply writes_updateRide (m := { r with driverId := none }) rfl ⟨r, List.mem_cons_self, rfl, rfl⟩
      intro x l₁ hx _ _
      rw [hx]
      apply writes_transition rfl
      intro y _ l₂ hy _ _
      rw [pure_bind, hy]
      exact writes_apart apart_dispatch fun _ => writes_refreshed
    · rw [pure_bind]
      exact writes_apart apart_dispatch fun _ => writes_refreshed

theorem confirmedRow_saves {d : Id} {now : Time} {x y : RideDriverCandidate}
    (h : confirmedRow d now x = some y) :
    y.status = if d = y.driverId then .confirmed else .canceled := by
  unfold confirmedRow at h
  split at h
  · next hd =>
    obtain rfl := Option.some.inj h
    rw [if_pos hd.symm]
  · next hd =>
    split at h
    · obtain rfl := Option.some.inj h
      rw [if_neg (Ne.symm hd)]
    · cases h

theorem writes_confirmDriverAcceptance {riderId : Id} {now : Time} :
    WritesBack env (.confirmDriverAcceptance rid riderId now) []
      (confirmDriverAcceptance rid riderId now) := by
  unfold confirmDriverAcceptance
  apply writes_findById (writes_throw _)
  intro r hr
  subst hr
  simp only [↓Program.throw_seq]
  split
  · trivial
  cases hd : r.driverId with
  | none => trivial
  | some d =>
    simp only
    split
    · trivial
    split
    · trivial
    split
    · trivial
    split
    · trivial
    refine writes_idle (calls_call trivial) fun o => ?_
    cases o with
    | none => trivial
    | some c =>
      simp only
      split
      · trivial
      apply writes_transition rfl
      intro x _ l₁ hx _ hl
      refine writes_idle (calls_call trivial) fun candidates => ?_
      apply writes_saveMany
      · intro y hy
        obtain ⟨z, -, hz⟩ := List.mem_filterMap.mp hy
        obtain ⟨new, rfl⟩ := hl
        rw [confirmedRow_saves hz]
        by_cases hdy : d = y.driverId
        · simp [LifecycleOp.answer, hd, hdy]
        · simp [LifecycleOp.answer, hd, hdy]
      apply writes_apart apart_riderConfirmed
      intro _
      apply writes_apart (calls_forM (fun _ => apart_dispatch) _)
      intro _
      rw [hx]
      exact writes_refreshed

theorem writes_rejectDriverAcceptance {riderId : Id} {reason : Option String} {now : Time} :
    WritesBack env (.rejectDriverAcceptance rid riderId reason now) l
      (rejectDriverAcceptance rid riderId reason now) := by
  unfold rejectDriverAcceptance
  apply writes_findById (writes_throw _)
  intro r hr
  subst hr
  simp only [↓Program.throw_seq]
  split
  · trivial
  cases r.driverId with
  | none => trivial
  | some d =>
    simp only
    split
    · trivial
    split
    · trivial
    split
    · trivial
    split
    · trivial
    refine writes_idle (calls_call trivial) fun o => ?_
    cases o with
    | none => trivial
    | some c =>
      apply writes_saveCandidate rfl
      apply writes_updateRide (m := { r with driverId := none }) rfl ⟨r, List.mem_cons_self, rfl, rfl⟩
      intro x l₁ _ _ _
      apply writes_transition rfl
      intro y _ l₂ hy _ _
      apply writes_apart apart_dispatch
      intro _
      rw [hy]
      exact writes_refreshed

theorem writes_cancelRide {requester : RequestingClient} {reason : Option String} {now : Time} :
    WritesBack env (.cancelRide rid requester reason now) l (cancelRide rid requester reason now) := by
  unfold cancelRide
  apply writes_findById (writes_throw _)
  intro r hr
  subst hr
  simp only [↓Program.throw_seq]
  split
  · trivial
  split
  · trivial
  split
  · trivial
  refine writes_idle (calls_call trivial) fun _ => ?_
  apply writes_transition rfl
  intro x _ l₁ hx hmem _
  have hown : (LifecycleOp.cancelRide r.id requester reason now).ride = some x.id := congrArg some hx.symm
  apply writes_updateRide (m := withCancellation x reason) hown ⟨x, hmem, rfl, rfl⟩
  intro y l₂ _ _ _
  simp only
  refine writes_idle (calls_call trivial) fun candidates => ?_
  have hid : (withCancellation x reason).id = r.id := hx
  rw [hid]
  split
  · apply writes_saveMany
    · intro z hz
      obtain ⟨c, -, hc⟩ := List.mem_filterMap.mp hz
      unfold canceledRow at hc
      split at hc
      · obtain rfl := Option.some.inj hc
        rfl
      · cases hc
    apply writes_apart (calls_forM (fun _ => apart_dispatch) _)
    intro _
    exact writes_refreshed
  · exact writes_refreshed

theorem writes_startRide {driverId : Option Id} {location : ParticipantLocation} :
    WritesBack env (.startRide rid driverId location) l (startRide env rid driverId location) := by
  unfold startRide
  cases driverId with
  | none => trivial
  | some d =>
    apply writes_findById (writes_throw _)
    intro r hr
    subst hr
    simp only [↓Program.throw_seq]
    split
    · trivial
    split
    · trivial
    split
    · trivial
    split
    · trivial
    apply writes_apart apart_atPickup
    intro _
    apply writes_apart apart_recordLocation
    intro _
    apply writes_transition rfl
    intro x changed l₁ hx _ _
    have hend (y : Ride) (l' : List Ride) : WritesBack env (.startRide r.id (some d) location) l' (do
        if changed = true then notifyRideStarted y
        return y) := by
      split
      · exact writes_apart apart_both fun _ => trivial
      · trivial
    simp only [hx]
    exact writes_findById (hend x _) fun y _ => hend y _

theorem writes_completeRide {requester : RequestingClient} {location : ParticipantLocation}
    {discount : Option JsNumber} :
    WritesBack env (.completeRide rid requester location discount) l
      (completeRide env rid requester location discount) := by
  unfold completeRide
  cases requester.id with
  | none => trivial
  | some id =>
    apply writes_findById (writes_throw _)
    intro r hr
    subst hr
    simp only [↓Program.throw_seq]
    split
    · trivial
    split
    · trivial
    split
    · trivial
    apply writes_apart apart_atDropoff
    intro _
    apply writes_apart apart_recordLocation
    intro _
    refine writes_apart (apart_getState.bind fun _ => by simp) fun total => ?_
    refine writes_idle (by simp) fun fare => ?_
    unfold settleRide
    apply writes_transition rfl
    intro x _ l₁ hx hmem _
    apply writes_apart apart_markRideCompleted
    intro _
    have hown : (LifecycleOp.completeRide r.id requester location discount).ride = some x.id :=
      congrArg some hx.symm
    apply writes_updateRide (m := withFare x fare) hown ⟨x, hmem, rfl, rfl⟩
    intro y l₂ _ _ _
    have hend (z : Ride) (l' : List Ride) {summary : FareSummary} :
        WritesBack env (.completeRide r.id requester location discount) l' (do
          notifyRideCompleted z summary
          return z) := writes_apart apart_both fun _ => trivial
    exact writes_findById (hend y _) fun z _ => hend z _

theorem writes_recordTripLocation {requester : RequestingClient} {location : ParticipantLocation} :
    WritesBack env lop l (recordTripLocation rid requester location) := by
  unfold recordTripLocation
  cases requester.id with
  | none => trivial
  | some id =>
    apply writes_findById (writes_throw _)
    intro r _
    simp only [↓Program.throw_seq]
    apply writes_apart apart_ensureAccess
    intro _
    split
    · trivial
    split
    · trivial
    rcases requester.role with _ | _ | _
    · trivial
    · exact writes_apart apart_recordLocation fun _ => trivial
    · simp only
      split
      · trivial
      · exact writes_apart apart_recordLocation fun _ => trivial

theorem writes_createRideBody {rider : Id} {payload : CreateRideInput} {now : Time}
    (hride : lop.ride = none) : WritesBack env lop l (createRideBody env rider payload now) := by
  unfold createRideBody
  refine writes_idle (calls_call trivial) fun route => ?_
  refine writes_idle (calls_call trivial) fun near => ?_
  simp only [↓Program.throw_seq]
  split
  · trivial
  unfold createRideWithDetails
  simp only [bind_assoc]
  apply Outline.Follows.perform
  intro w _
  refine ⟨_, ⟨rfl, hride, rfl⟩, ?_⟩
  cases (handle env (.insertRide _) w).1 with
  | error e => trivial
  | ok created =>
    simp only [Program.ofExcept_ok, Program.ret_bind]
    apply writes_findById (writes_throw _)
    intro r _
    simp only [pure_bind]
    refine writes_apart (calls_forM (fun _ => apart_dispatch) _) fun _ => ?_
    exact writes_apart apart_dispatch fun _ => trivial

theorem writes_createRide {rider : Option Id} {payload : CreateRideInput} {now : Time} :
    WritesBack env (.createRide rider payload now) l (createRide env rider payload now) := by
  unfold createRide
  cases rider with
  | none => trivial
  | some rider =>
    refine writes_idle (calls_call trivial) fun existing => ?_
    simp only [↓Program.throw_seq]
    split
    · trivial
    · exact (writes_createRideBody rfl).catching (fun _ _ h => h) fun _ _ _ => trivial

variable (env) in
/-- What an operation writes goes back to what it has read. -/
theorem LifecycleOp.writesBack (op : LifecycleOp) : WritesBack env op [] (op.program env) := by
  have discard {α : Type} {p : Service α} (hp : WritesBack env op [] p) :
      WritesBack env op [] (p >>= fun _ => pure ()) :=
    hp.bind (fun _ _ _ => trivial) fun _ _ _ => trivial
  cases op with
  | createRide => exact discard writes_createRide
  | acceptRideByDriver => exact discard writes_acceptRideByDriver
  | rejectRideByDriver => exact discard writes_rejectRideByDriver
  | confirmDriverAcceptance => exact discard writes_confirmDriverAcceptance
  | rejectDriverAcceptance => exact discard writes_rejectDriverAcceptance
  | cancelRide => exact discard writes_cancelRide
  | startRide => exact discard writes_startRide
  | completeRide => exact discard writes_completeRide
  | recordTripLocation => exact writes_recordTripLocation

end WritesBack

section Pool

variable {ι : Type} [DecidableEq ι] {env : Environment} {ops : ι → LifecycleOp}
  {c : Pool ι Call Call.Answer ServiceError Unit World}

/-- The rides that process `i` has read, newest first. -/
def ridesRead (c : Pool ι Call Call.Answer ServiceError Unit World) (i : ι) : List Ride :=
  Pool.log ridesAfter [] i c.trace

/-- Every process of the pool writes what its reads allow. -/
def AllWriteBack (env : Environment) (ops : ι → LifecycleOp)
    (c : Pool ι Call Call.Answer ServiceError Unit World) : Prop :=
  ∀ i, WritesBack env (ops i) (ridesRead c i) (c.procs i)

theorem AllWriteBack.start (w : World) :
    AllWriteBack env ops (Pool.start (fun i => (ops i).program env) w) :=
  fun i => (ops i).writesBack env

theorem AllWriteBack.step (h : AllWriteBack env ops c) (i : ι) :
    AllWriteBack env ops (c.step (handle env) i) := by
  intro j
  refine Outline.Follows.log_step ?_ trivial (h j) i
  exact fun _ _ _ _ hm => hm.1

theorem AllWriteBack.writes {i : ι} {op : Call} {next : Except ServiceError op.Answer → Service Unit}
    (h : AllWriteBack env ops c) (hi : c.procs i = .call op next) :
    (ops i).Writes (ridesRead c i) op := by
  have hf := h i
  rw [hi] at hf
  obtain ⟨_, ⟨-, hw⟩, -⟩ := hf c.store trivial
  exact hw

theorem ridesRead_step {i : ι} {op : Call} {next : Except ServiceError op.Answer → Service Unit}
    (hi : c.procs i = .call op next) (j : ι) :
    ridesRead (c.step (handle env) i) j = if i = j then
      ridesAfter (ridesRead c j) ⟨op, (handle env op c.store).1⟩ else ridesRead c j :=
  Pool.log_step (handle env) hi ridesAfter [] j

end Pool

end NebLite
