import NebLite.Rides.ConfirmReject
import NebLite.Rides.SettlementOutcome

/-! Which runs of a confirmation beside the driver's rejection end in an outcome that
both agree on. -/

namespace NebLite

open Atomic

/-- The driver takes his acceptance back (`true`), the rider confirms it (`false`). -/
def confirmAndReject (rid riderId driverId : Id) (reason : Option String) (confirmedAt rejectedAt : Time)
    (b : Bool) : LifecycleOp :=
  if b then .rejectRideByDriver rid driverId reason rejectedAt
  else .confirmDriverAcceptance rid riderId confirmedAt

def World.driverOf (w : World) (rid : Id) : Option Id := (w.rides.find rid).bind (·.driverId)

/-- ENROUTE with driver `d`, whose candidate is CONFIRMED; or CANDIDATES_COMPUTED
without a driver, and the candidate DECLINED. -/
def World.Agreed (w : World) (rid d : Id) : Prop :=
  w.statusOf rid = some .enroute ∧ w.driverOf rid = some d ∧ w.answers rid d = some .confirmed ∨
  w.statusOf rid = some .candidatesComputed ∧ w.driverOf rid = none ∧ w.answers rid d = some .declined

instance (w : World) (rid d : Id) : Decidable (w.Agreed rid d) := by
  unfold World.Agreed
  infer_instance

namespace Call

def isRead : Call → Bool
  | .findRide _ => true
  | _ => false

def isSave : Call → Bool
  | .saveCandidate _ => true
  | _ => false

end Call

/-- The number of calls of one kind that process `i` has executed. -/
def callsOf (q : Call → Bool) (c : RidePool Bool) (i : Bool) : ℕ :=
  c.trace.countP fun e => decide (e.1 = i) && q e.2.1

/-- The confirmation's transition reads the ride with a driver. Its UPDATE falls neither
between the driver's DECLINED row and the UPDATE that takes him off the ride nor between
the read and the UPDATE of the rejection's transition. The driver declines a ride that is
on its way only once he has been confirmed. -/
def Agreeing (rid d : Id) (c : RidePool Bool) (i : Bool) : Prop :=
  match (c.procs i).pending with
  | some (.findRide _) => i = false → callsOf Call.isRead c false = 1 → c.store.driverOf rid ≠ none
  | some (.updateRideRow _) => i = false →
      ¬ (callsOf Call.isSave c true = 1 ∧ callsOf Call.isUpdate c true = 0) ∧
      ¬ (callsOf Call.isUpdate c true = 1 ∧ 4 ≤ callsOf Call.isRead c true)
  | some (.saveCandidate _) => i = true → c.store.statusOf rid = some .enroute →
      c.store.answers rid d = some .confirmed
  | _ => True

instance (rid d : Id) (c : RidePool Bool) (i : Bool) : Decidable (Agreeing rid d c i) := by
  unfold Agreeing
  induction (c.procs i).pending using Option.casesOn with
  | none => infer_instance
  | some op => induction op using Call.casesOn <;> infer_instance

namespace Duel

/-- What a phase of the confirmation says of its reads. -/
def ConfirmPhase.Logged (reads : ℕ) : ConfirmPhase → Prop
  | opening => reads = 0
  | passed | checked => reads = 1
  | refused => True
  | _ => 2 ≤ reads

/-- What a phase of the rejection says of its reads, saves and UPDATEs. -/
def RejectPhase.Logged (reads saves updates : ℕ) : RejectPhase → Prop
  | opening => reads = 0 ∧ saves = 0 ∧ updates = 0
  | passed | answering | refused => reads = 1 ∧ saves = 0 ∧ updates = 0
  | declined => reads = 1 ∧ saves = 1 ∧ updates = 0
  | withdrawing => reads = 2 ∧ saves = 1 ∧ updates = 0
  | withdrawn => reads = 2 ∧ saves = 1 ∧ updates = 1
  | reverting => reads = 3 ∧ saves = 1 ∧ updates = 1
  | admitted _ => reads = 4 ∧ saves = 1 ∧ updates = 1
  | ready _ => reads = 5 ∧ saves = 1 ∧ updates = 1
  | kept => saves = 1 ∧ updates = 1
  | reverted => saves = 1 ∧ updates = 2

end Duel

section Moves

variable {env : Environment} {g : Parties} {w : World} {op : Call}

theorem Call.Apart.uncounted (h : op.Apart) :
    op.isRead = false ∧ op.isSave = false ∧ op.isUpdate = false := by
  cases op <;> first | exact ⟨rfl, rfl, rfl⟩ | exact h.elim

theorem ConfirmMove.logged {p p' : Duel.ConfirmPhase} {n : ℕ} (h : ConfirmMove g w p op p')
    (hp : p.Logged n) : p'.Logged (n + if op.isRead then 1 else 0) := by
  cases h with
  | apart ha =>
    rw [ha.uncounted.1]
    exact hp
  | pass => exact congrArg (· + 1) hp
  | turnedAway | deny => trivial
  | check => exact hp
  | grant | leave => exact (congrArg (· + 1) hp).ge
  | current | reread | look => exact Nat.le_succ_of_le hp
  | mark | list | confirm => exact hp
  | saveOther => exact hp

theorem RejectMove.logged {q q' : Duel.RejectPhase} {n k m : ℕ} (h : RejectMove g w q op q')
    (hq : q.Logged n k m) : q'.Logged (n + if op.isRead then 1 else 0)
      (k + if op.isSave then 1 else 0) (m + if op.isUpdate then 1 else 0) := by
  cases h with
  | apart ha =>
    obtain ⟨hr, hs, hu⟩ := ha.uncounted
    rw [hr, hs, hu]
    exact hq
  | look hk =>
    rcases hk with rfl | rfl
    · exact hq
    · exact hq
  | _ => simp_all [Duel.RejectPhase.Logged, Call.isRead, Call.isSave, Call.isUpdate]

end Moves

/-- What holds of a confirmation beside a rejection; `R` is what it comes to. -/
structure DuelHolds (R : Duel.ConfirmPhase → Duel.RejectPhase → Duel → Prop) (g : Parties)
    (p : Duel.ConfirmPhase) (q : Duel.RejectPhase) (c : RidePool Bool) : Prop where
  meets : c.store.Meets g
  sound : R p q (c.store.duel g)
  confirmed : p.Logged (callsOf Call.isRead c false)
  rejected : q.Logged (callsOf Call.isRead c true) (callsOf Call.isSave c true)
    (callsOf Call.isUpdate c true)

section Run

variable {env : Environment} {g : Parties} {p p' : Duel.ConfirmPhase} {q q' : Duel.RejectPhase}
  {c : RidePool Bool} {i : Bool} {op : Call} {next : Except ServiceError op.Answer → Service Unit}
  {R R' : Duel.ConfirmPhase → Duel.RejectPhase → Duel → Prop}

theorem callsOf_step (k : Call → Bool) (hi : c.procs i = .call op next) (j : Bool) :
    callsOf k (c.step (handle env) i) j = callsOf k c j + if i = j ∧ k op then 1 else 0 := by
  rw [Pool.step_call _ hi]
  simp [callsOf, List.countP_cons]

theorem DuelHolds.confirm (h : DuelHolds R g p q c) (hi : c.procs false = .call op next)
    (hm : ConfirmMove g c.store p op p')
    (hR : ∀ s, Duel.ConfirmStep g.driverId p (c.store.duel g) p' s → R' p' q s) :
    DuelHolds R' g p' q (c.step (handle env) false) := by
  have hstore : (c.step (handle env) false).store = (handle env op c.store).2 := by
    rw [Pool.step_call _ hi]
  obtain ⟨hmeets, hstep⟩ := hm.step h.meets env
  have hlogged := hm.logged h.confirmed
  refine ⟨by rwa [hstore], by rw [hstore]; exact hR _ hstep, ?_, ?_⟩
  · rw [callsOf_step _ hi]
    simpa using hlogged
  · simpa [callsOf_step _ hi] using h.rejected

theorem DuelHolds.reject (h : DuelHolds R g p q c) (hi : c.procs true = .call op next)
    (hm : RejectMove g c.store q op q')
    (hR : ∀ s, Duel.RejectStep g.driverId q (c.store.duel g) q' s → R' p q' s) :
    DuelHolds R' g p q' (c.step (handle env) true) := by
  have hstore : (c.step (handle env) true).store = (handle env op c.store).2 := by
    rw [Pool.step_call _ hi]
  obtain ⟨hmeets, hstep⟩ := hm.step h.meets env
  have hlogged := hm.logged h.rejected
  refine ⟨by rwa [hstore], by rw [hstore]; exact hR _ hstep, ?_, ?_⟩
  · simpa [callsOf_step _ hi] using h.confirmed
  · simpa [callsOf_step _ hi] using hlogged

/-- What the counts say of a rejection that may still write. -/
theorem DuelHolds.holding_iff (h : DuelHolds (Duel.Sound g.driverId) g p q c) (hp : p.Before g.driverId) :
    q.Holding ↔ (callsOf Call.isSave c true = 1 ∧ callsOf Call.isUpdate c true = 0) ∨
      (callsOf Call.isUpdate c true = 1 ∧ 4 ≤ callsOf Call.isRead c true) := by
  have hlog := h.rejected
  have hsound := h.sound
  generalize c.store.duel g = s at hsound
  have hq : q.Early ∨ ∃ σ, q.Alone g.driverId σ s := by
    cases hsound with
    | fresh _ he => exact .inl he
    | behind _ ha => exact .inr ⟨_, ha⟩
    | ahead ha | overtaken ha => cases p <;> first | exact ha.elim | exact hp.elim
    | undone => exact hp.elim
  rcases hq with he | ⟨σ, ha⟩
  · have hfresh : callsOf Call.isSave c true = 0 ∧ callsOf Call.isUpdate c true = 0 := by
      cases q <;> first | exact hlog.2 | exact he.elim
    have hnot : ¬ q.Holding := by
      cases q <;> first | exact id | exact he.elim
    simp [hnot, hfresh]
  · obtain ⟨rfl | rfl, -⟩ | ⟨rfl | rfl | rfl | rfl, -⟩ | ⟨rfl, -⟩ := ha.cases
    · exact iff_of_true trivial (.inl hlog.2)
    · exact iff_of_true trivial (.inl hlog.2)
    · exact iff_of_false id (by simp [hlog.1, hlog.2.2])
    · exact iff_of_false id (by simp [hlog.1, hlog.2.2])
    · exact iff_of_true trivial (.inr ⟨hlog.2.2, hlog.1.ge⟩)
    · exact iff_of_true trivial (.inr ⟨hlog.2.2, by rw [hlog.1]; decide⟩)
    · exact iff_of_false id (by simp [hlog.2])

theorem agreeing_ended {rid d : Id} (c : RidePool Bool) (i : Bool) (hp : (c.procs i).pending = none) :
    Agreeing rid d c i := by
  unfold Agreeing
  rw [hp]
  trivial

theorem agreeing_apart {rid d : Id} (hp : (c.procs i).pending = some op) (ha : op.Apart) :
    Agreeing rid d c i := by
  unfold Agreeing
  rw [hp]
  cases op <;> trivial

theorem DuelHolds.statusOf (h : DuelHolds R g p q c) :
    c.store.statusOf g.rideId = some (c.store.duel g).status := by
  obtain ⟨r, hr, -⟩ := h.meets.ride
  simp [World.statusOf, World.duel, hr]

theorem DuelHolds.confirm_ok (h : DuelHolds (Duel.Sound g.driverId) g p q c)
    (hi : c.procs false = .call op next) (hm : ConfirmMove g c.store p op p') :
    Agreeing g.rideId g.driverId c false ↔ Duel.ConfirmOk p p' q (c.store.duel g) := by
  have hp : (c.procs false).pending = some op := by
    rw [hi]
    rfl
  have hlog := h.confirmed
  have hread (hc : callsOf Call.isRead c false ≠ 1) (hne : p ≠ .checked) (hnr : ∀ x, p ≠ .ready x) :
      (false = false → callsOf Call.isRead c false = 1 → c.store.driverOf g.rideId ≠ none) ↔
        Duel.ConfirmOk p p' q (c.store.duel g) :=
    iff_of_true (fun _ h1 => absurd h1 hc)
      ⟨fun he => absurd he hne, fun ⟨x, hx⟩ => absurd hx (hnr x)⟩
  have hquiet (hne : p ≠ .checked) (hnr : ∀ x, p ≠ .ready x) :
      Duel.ConfirmOk p p' q (c.store.duel g) :=
    ⟨fun he => absurd he hne, fun ⟨x, hx⟩ => absurd hx (hnr x)⟩
  by_cases ha : op.Apart
  · have hsame : p' = p := by
      cases hm with
      | apart => rfl
      | _ => exact ha.elim
    refine iff_of_true (agreeing_apart hp ha) ⟨fun _ hne => absurd (hsame.trans ‹_›) hne, ?_⟩
    rintro ⟨x, rfl⟩ he
    rw [hsame] at he
    cases he
  unfold Agreeing
  rw [hp]
  cases hm with
  | apart h => exact absurd h ha
  | pass | turnedAway => exact hread (by rw [hlog]; decide) (by simp) (by simp)
  | check | deny => exact iff_of_true trivial (hquiet (by simp) (by simp))
  | grant | leave =>
    constructor
    · intro hok
      exact ⟨fun _ _ => hok rfl hlog, fun ⟨x, hx⟩ => nomatch hx⟩
    · intro hok _ _
      exact hok.1 rfl (by simp)
  | current | reread | look => exact hread (Nat.ne_of_gt hlog) (by simp) (by simp)
  | mark =>
    have hiff := h.holding_iff h.sound.ready_before
    rw [← not_or, ← hiff]
    constructor
    · intro hok
      exact ⟨by simp, fun _ _ => hok rfl⟩
    · intro hok _
      exact hok.2 ⟨_, rfl⟩ rfl
  | list => exact iff_of_true trivial (hquiet (by simp) (by simp))
  | confirm => exact iff_of_true (fun h => nomatch h) (hquiet (by simp) (by simp))
  | saveOther _ _ hphase =>
    refine iff_of_true (fun h => nomatch h) ?_
    rcases hphase with rfl | rfl
    · exact hquiet (by simp) (by simp)
    · exact hquiet (by simp) (by simp)

theorem DuelHolds.reject_ok (h : DuelHolds (Duel.Sound g.driverId) g p q c)
    (hi : c.procs true = .call op next) (hm : RejectMove g c.store q op q') :
    Agreeing g.rideId g.driverId c true ↔ Duel.RejectOk q q' (c.store.duel g) := by
  have hp : (c.procs true).pending = some op := by
    rw [hi]
    rfl
  by_cases ha : op.Apart
  · refine iff_of_true (agreeing_apart hp ha) ?_
    rintro rfl rfl
    cases hm with
    | decline => exact ha.elim
  unfold Agreeing
  rw [hp]
  cases hm with
  | apart h => exact absurd h ha
  | decline =>
    rw [h.statusOf]
    constructor
    · intro hok _ _ hs
      exact hok rfl (by rw [hs])
    · intro hok _ hs
      exact hok rfl rfl (Option.some.inj hs)
  | look hq =>
    refine iff_of_true (fun h => nomatch h) ?_
    rintro rfl
    simp at hq
  | pass | turnedAway | check | current | withdraw | reread | grant | leave | currentAgain | revert =>
    simp [Duel.RejectOk]

/-- The labels of the two processes, and what they have come to. -/
def DuelRuns (R : Duel.ConfirmPhase → Duel.RejectPhase → Duel → Prop) (g : Parties)
    (phase : Bool → Duel.Phase) (c : RidePool Bool) : Prop :=
  ∃ p q, phase = (fun b => if b then .reject q else .confirm p) ∧ DuelHolds R g p q c

theorem DuelRuns.pre {phase : Bool → Duel.Phase} (h : DuelRuns R g phase c)
    (hsees : ∀ p q s, R p q s → (Duel.Phase.confirm p).Sees g.driverId s ∧
      (Duel.Phase.reject q).Sees g.driverId s) (i : Bool) :
    (duelOutline g).pre (phase i) c.store := by
  obtain ⟨p, q, rfl, hh⟩ := h
  have hboth := hsees p q _ hh.sound
  cases i with
  | false => exact ⟨hh.meets, hboth.1⟩
  | true => exact ⟨hh.meets, hboth.2⟩

/-- A step of one party changes its label only. -/
theorem DuelRuns.step {phase : Bool → Duel.Phase} {l : Duel.Phase} (h : DuelRuns R g phase c)
    (hi : c.procs i = .call op next) (hm : DuelMove g c.store (phase i) op l)
    (hconfirm : ∀ p p' q s, i = false → DuelHolds R g p q c → ConfirmMove g c.store p op p' →
      Duel.ConfirmStep g.driverId p (c.store.duel g) p' s → R' p' q s)
    (hreject : ∀ p q q' s, i = true → DuelHolds R g p q c → RejectMove g c.store q op q' →
      Duel.RejectStep g.driverId q (c.store.duel g) q' s → R' p q' s) :
    DuelRuns R' g (Function.update phase i l) (c.step (handle env) i) := by
  obtain ⟨p, q, rfl, hh⟩ := h
  cases i with
  | false =>
    cases l with
    | confirm p' =>
      have hm' : ConfirmMove g c.store p op p' := hm
      refine ⟨p', q, ?_, hh.confirm hi hm' fun s => hconfirm p p' q s rfl hh hm'⟩
      funext b
      cases b <;> rfl
    | reject => exact hm.elim
  | true =>
    cases l with
    | reject q' =>
      have hm' : RejectMove g c.store q op q' := hm
      refine ⟨p, q', ?_, hh.reject hi hm' fun s => hreject p q q' s rfl hh hm'⟩
      funext b
      cases b <;> rfl
    | confirm => exact hm.elim

/-- A step of a sound run, by whether it is an agreeing one. -/
theorem DuelRuns.agreeing_step {phase : Bool → Duel.Phase} {l : Duel.Phase}
    (h : DuelRuns (Duel.Sound g.driverId) g phase c) (hi : c.procs i = .call op next)
    (hm : DuelMove g c.store (phase i) op l) :
    (Agreeing g.rideId g.driverId c i →
      DuelRuns (Duel.Sound g.driverId) g (Function.update phase i l) (c.step (handle env) i)) ∧
    (¬ Agreeing g.rideId g.driverId c i →
      DuelRuns Duel.Doomed g (Function.update phase i l) (c.step (handle env) i)) := by
  constructor
  · intro hok
    apply h.step hi hm
    · rintro p p' q s rfl hh hm' hst
      exact hh.sound.confirm hst ((hh.confirm_ok hi hm').mp hok)
    · rintro p q q' s rfl hh hm' hst
      exact hh.sound.reject hst ((hh.reject_ok hi hm').mp hok)
  · intro hno
    apply h.step hi hm
    · rintro p p' q s rfl hh hm' hst
      exact hh.sound.confirm_doomed hst fun hok => hno ((hh.confirm_ok hi hm').mpr hok)
    · rintro p q q' s rfl hh hm' hst
      exact hh.sound.reject_doomed hst fun hok => hno ((hh.reject_ok hi hm').mpr hok)

theorem DuelRuns.doomed_step {phase : Bool → Duel.Phase} {l : Duel.Phase}
    (h : DuelRuns Duel.Doomed g phase c) (hi : c.procs i = .call op next)
    (hm : DuelMove g c.store (phase i) op l) :
    DuelRuns Duel.Doomed g (Function.update phase i l) (c.step (handle env) i) := by
  apply h.step hi hm
  · intro p p' q s _ hh _ hst
    exact hh.sound.confirm hst
  · intro p q q' s _ hh _ hst
    exact hh.sound.reject hst

/-- What both parties have come to, once they have ended. -/
theorem DuelRuns.ended {phase : Bool → Duel.Phase} (h : DuelRuns R g phase c)
    (hended : ∀ i, (phase i).Ended) :
    ∃ p q, p.Ended ∧ q.Ended ∧ c.store.Meets g ∧ R p q (c.store.duel g) := by
  obtain ⟨p, q, rfl, hh⟩ := h
  exact ⟨p, q, hended false, hended true, hh.meets, hh.sound⟩

end Run

theorem World.Meets.agreed_iff {w : World} {g : Parties} (h : w.Meets g) :
    w.Agreed g.rideId g.driverId ↔ Duel.Agreed g.driverId (w.duel g) := by
  obtain ⟨r, hr, -⟩ := h.ride
  unfold World.Agreed Duel.Agreed World.driverOf World.statusOf
  simp only [duel_of_find hr, hr, Option.map_some, Option.bind_some, Option.some.injEq, Duel.mk.injEq]
  constructor
  · rintro (⟨hs, hd, ha⟩ | ⟨hs, hd, ha⟩)
    · exact .inl ⟨hd, hs, ha⟩
    · exact .inr ⟨hd, hs, ha⟩
  · rintro (⟨hd, hs, ha⟩ | ⟨hd, hs, ha⟩)
    · exact .inl ⟨hs, hd, ha⟩
    · exact .inr ⟨hs, hd, ha⟩

variable (env : Environment) in
theorem duels_start (g : Parties) (reason : Option String) (confirmedAt rejectedAt : Time) (b : Bool) :
    Duels env g (if b then .reject .opening else .confirm .opening)
      ((confirmAndReject g.rideId g.riderId g.driverId reason confirmedAt rejectedAt b).program env) := by
  cases b with
  | true =>
    have hp : Duels env g (.reject .opening) (rejectRideByDriver g.rideId g.driverId reason rejectedAt) :=
      duels_rejectRideByDriver reason rejectedAt
    exact hp.bind (fun _ _ he => he) (fun _ _ he => he)
  | false =>
    have hp : Duels env g (.confirm .opening) (confirmDriverAcceptance g.rideId g.riderId confirmedAt) :=
      duels_confirmDriverAcceptance confirmedAt
    exact hp.bind (fun _ _ he => he) (fun _ _ he => he)

/-- Exactly the runs in which every step is an agreeing one end in an outcome that the
rider and the driver agree on. -/
theorem confirm_reject_agree_iff (env : Environment) (w : World) (r : Ride) (d : Id)
    (reason : Option String) (confirmedAt rejectedAt : Time) (hr : w.rides.find r.id = some r)
    (hs : r.status = .accepted) (hd : r.driverId = some d) (ha : w.answers r.id d = some .accepted)
    (sched : List Bool)
    (hended : ((Pool.start (lifecycleCalls env
      (confirmAndReject r.id r.riderId d reason confirmedAt rejectedAt)) w).exec (handle env)
        sched).Ended) :
    ((Pool.start (lifecycleCalls env (confirmAndReject r.id r.riderId d reason confirmedAt rejectedAt))
        w).exec (handle env) sched).store.Agreed r.id d ↔
      Pool.Meets (handle env) (Agreeing r.id d) (Pool.start (lifecycleCalls env
        (confirmAndReject r.id r.riderId d reason confirmedAt rejectedAt)) w) sched := by
  obtain ⟨x, hx, hxs⟩ : ∃ x, w.findCandidate r.id d = some x ∧ x.status = .accepted := by
    simpa [World.answers] using ha
  let g : Parties := ⟨r.id, r.riderId, d, x.id, w.seats⟩
  let ops := confirmAndReject r.id r.riderId d reason confirmedAt rejectedAt
  let start := Pool.start (lifecycleCalls env ops) w
  let done (_ : Bool) (l : Duel.Phase) (_ : Except ServiceError Unit) : Prop := l.Ended
  let o (_ : Bool) := duelOutline g
  have hmeets : w.Meets g := ⟨⟨r, hr, rfl⟩, rfl, ⟨x, hx, rfl⟩⟩
  have hopen : DuelRuns (Duel.Sound d) g (fun b => if b then .reject .opening else .confirm .opening)
      start := by
    refine ⟨.opening, .opening, rfl, hmeets, ?_, rfl, rfl, rfl, rfl⟩
    have hduel : w.duel g = ⟨some d, .accepted, some .accepted⟩ := by
      rw [duel_of_find (g := g) hr, hs, hd]
      exact congrArg (Duel.mk (some d) .accepted) ha
    change Duel.Sound d .opening .opening (w.duel g)
    rw [hduel]
    exact .fresh trivial trivial
  have hstart : Outline.Holds o (handle env) done (DuelRuns (Duel.Sound d) g) start :=
    ⟨_, hopen, duels_start env g reason confirmedAt rejectedAt⟩
  have hsplit : (Pool.Meets (handle env) (Agreeing r.id d) start sched →
        Outline.Holds o (handle env) done (DuelRuns (Duel.Sound d) g) (start.exec (handle env) sched)) ∧
      (¬ Pool.Meets (handle env) (Agreeing r.id d) start sched →
        Outline.Holds o (handle env) done (DuelRuns Duel.Doomed g) (start.exec (handle env) sched)) := by
    refine Outline.exec_splits agreeing_ended ?_ ?_ ?_ ?_ sched hstart
    · exact fun _ _ i hJ => hJ.pre (fun _ _ _ hR => ⟨hR.sees_confirm, hR.sees_reject⟩) i
    · exact fun _ _ i hJ => hJ.pre (fun _ _ _ hR => hR.sees) i
    · intro phase c i op next l hJ hi hmv
      exact hJ.agreeing_step hi hmv
    · intro phase c i op next l hJ hi hmv
      exact hJ.doomed_step hi hmv
  have hends {phase : Bool → Duel.Phase} {c : RidePool Bool} (hc : c.Ended)
      (hQ : ∀ i a, (c.procs i).outcome = some a → done i (phase i) a) (i : Bool) : (phase i).Ended := by
    obtain ⟨a, ha⟩ := hc.outcome i
    exact hQ i a ha
  constructor
  · intro hagreed
    by_contra hm
    obtain ⟨phase, hJ, hQ⟩ := (hsplit.2 hm).outcome
    obtain ⟨p, q, hp, hq, hm', hdoomed⟩ := hJ.ended (hends hended hQ)
    exact hdoomed.not_agreed hp hq (hm'.agreed_iff.mp hagreed)
  · intro hm
    obtain ⟨phase, hJ, hQ⟩ := (hsplit.1 hm).outcome
    obtain ⟨p, q, hp, hq, hm', hsound⟩ := hJ.ended (hends hended hQ)
    exact hm'.agreed_iff.mpr (hsound.agreed hp hq)

def acceptedWorld : World := (World.initial []).after (.around [7, 8]) acceptedRun

def acceptedRide : Ride := (acceptedWorld.rides.find 1).get (by decide +kernel)

theorem confirm_reject_agree_in_turn :
    ((Pool.start (lifecycleCalls (.around [7, 8])
      (confirmAndReject acceptedRide.id acceptedRide.riderId 7 none 2 2)) acceptedWorld).exec
        (handle (.around [7, 8])) (List.replicate 40 false ++ List.replicate 40 true)).store.Agreed
          acceptedRide.id 7 :=
  (confirm_reject_agree_iff (.around [7, 8]) acceptedWorld acceptedRide 7 none 2 2 (by decide +kernel)
    (by decide +kernel) (by decide +kernel) (by decide +kernel)
    (List.replicate 40 false ++ List.replicate 40 true) (by decide +kernel)).mpr (by decide +kernel)

/-- The rejection takes the driver off the ride after the confirmation has passed its
guards and before its transition reads the ride. -/
theorem confirmed_without_driver :
    (acceptedWorld.rides.find acceptedRide.id = some acceptedRide ∧ acceptedRide.status = .accepted ∧
      acceptedRide.driverId = some 7 ∧ acceptedWorld.answers acceptedRide.id 7 = some .accepted) ∧
    ((Pool.start (lifecycleCalls (.around [7, 8])
      (confirmAndReject acceptedRide.id acceptedRide.riderId 7 none 2 2)) acceptedWorld).exec
        (handle (.around [7, 8])) ([false, false] ++ List.replicate 5 true ++ List.replicate 40 false ++
          List.replicate 40 true)).Ended ∧
    ¬ ((Pool.start (lifecycleCalls (.around [7, 8])
      (confirmAndReject acceptedRide.id acceptedRide.riderId 7 none 2 2)) acceptedWorld).exec
        (handle (.around [7, 8])) ([false, false] ++ List.replicate 5 true ++ List.replicate 40 false ++
          List.replicate 40 true)).store.Agreed acceptedRide.id 7 := by
  decide +kernel

end NebLite
