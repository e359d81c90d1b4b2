import NebLite.Rides.AcceptRace
import NebLite.Rides.Lifecycle

/-! Who wins and who loses when drivers accept one open ride concurrently. -/

namespace NebLite

open Atomic

/-- The ride waits for a driver and no candidate has been accepted. -/
structure World.OpenForAcceptance (w : World) (rid : Id) : Prop where
  ride : ∃ r ∈ w.rides.rows, r.id = rid ∧ r.status = .candidatesComputed ∧ r.driverId = none
  candidates : ∀ c ∈ w.findCandidates rid,
    c.status = .invited ∨ c.status = .declined ∨ c.status = .canceled

/-- The ride is the driver's, and of its candidates only he is accepted or confirmed. -/
structure World.AcceptedBy (w : World) (rid d : Id) : Prop where
  ride : ∃ r ∈ w.rides.rows, r.id = rid ∧ r.status = .accepted ∧ r.driverId = some d
  candidate : w.answers rid d = some .accepted
  others : ∀ c ∈ w.findCandidates rid, c.driverId ≠ d → c.status ≠ .accepted ∧ c.status ≠ .confirmed

variable {env : Environment} {w₀ w : World} {rid : Id} {ι : Type}

/-- Concurrent acceptances of one ride; each call has its driver and its clock reading. -/
def acceptCalls (rid : Id) (calls : ι → Id × Time) (i : ι) : Service Ride :=
  acceptRideByDriver rid (calls i).1 (calls i).2

/-- The pool of the calls after a schedule. -/
abbrev acceptRun (env : Environment) (w : World) (rid : Id) (calls : ι → Id × Time) [DecidableEq ι]
    (sched : List ι) : Pool ι Call Call.Answer ServiceError Ride World :=
  (Pool.start (acceptCalls rid calls) w).exec (handle env) sched

/-- The race, as it stands in a pool of acceptances that began at `w₀`. -/
structure RaceHolds (w₀ : World) (rid : Id) (drv : ι → Id) (phase : ι → Race.Phase) (w : World) :
    Prop where
  race : Race.Inv drv (w₀.race rid) phase (w.race rid)
  raced : w₀.Raced rid w
  rows : ∀ c ∈ w.candidates.rows, c.rideId = rid → c.status = .accepted ∨ c.status = .confirmed →
    (w.race rid).driver = some c.driverId

theorem raceHolds_start (h : w₀.OpenForAcceptance rid) (drv : ι → Id) :
    RaceHolds w₀ rid drv (fun _ => .started) w₀ := by
  obtain ⟨⟨r, hr, hid, hs, hd⟩, hc⟩ := h
  have hf : w₀.rides.find rid = some r := Table.find_some.mpr ⟨hr, hid⟩
  have hno (c : RideDriverCandidate) (hm : c ∈ w₀.candidates.rows) (hcr : c.rideId = rid) :
      c.status ≠ .accepted ∧ c.status ≠ .confirmed := by
    have hst := hc c (by simp [World.findCandidates, Table.mem_select, hm, hcr])
    rcases hst with hst | hst | hst <;> simp [hst]
  refine ⟨Race.inv_init ?_ ?_ fun d => ?_, ⟨⟨r, hf⟩, fun _ => rfl⟩, fun c hm hcr hst => ?_⟩
  · simpa [race_of_find hf] using hd
  · simpa [race_of_find hf] using hs
  · constructor
    all_goals
      intro ha
      obtain ⟨c, hfc, hst⟩ := Option.map_eq_some_iff.mp ha
      obtain ⟨hm, hcr, -⟩ := World.mem_of_findCandidate hfc
      simp [hno c hm hcr] at hst
  · obtain ⟨h1, h2⟩ := hno c hm hcr
    exact absurd hst (not_or.mpr ⟨h1, h2⟩)

theorem RaceHolds.pre {drv : ι → Id} {phase : ι → Race.Phase} (h : RaceHolds w₀ rid drv phase w)
    (i : ι) : (acceptOutline env w₀ rid (drv i)).pre (phase i) w :=
  ⟨h.raced, h.race.status, (h.race.fits i).mine, h.race.unconfirmed (drv i)⟩

variable [DecidableEq ι]

theorem RaceHolds.step {drv : ι → Id} {phase : ι → Race.Phase} {w' : World} {i : ι} {op : Call}
    {p : Race.Phase} (h : RaceHolds w₀ rid drv phase w)
    (ha : Advances w₀ rid (drv i) (phase i) op w p w') :
    RaceHolds w₀ rid drv (Function.update phase i p) w' := by
  have hrace := h.race.step ha.step
  refine ⟨hrace, ha.raced, fun c hc hcr hst => ?_⟩
  rcases ha.rows c hc with hm | ⟨hd, hans⟩
  · exact ha.step.driver_stays (h.race.fits i) _ (h.rows c hm hcr hst)
  · have hcand : (w'.race rid).cand c.driverId = some c.status := hd ▸ hans
    rcases hst with hst | hst
    · exact hrace.answered _ (hst ▸ hcand)
    · exact absurd (hst ▸ hcand) (hrace.unconfirmed _)

/-- The race's invariant in every pool that a schedule of acceptances reaches. -/
theorem acceptCalls_hold (env : Environment) (h : w₀.OpenForAcceptance rid) (calls : ι → Id × Time)
    (sched : List ι) :
    Outline.Holds (fun i => acceptOutline env w₀ rid (calls i).1) (handle env) (fun _ => AcceptDone)
      (fun phase c => RaceHolds w₀ rid (fun i => (calls i).1) phase c.store)
      (acceptRun env w₀ rid calls sched) := by
  refine Outline.exec_holds (fun phase c i hJ => hJ.pre i)
    (fun phase c i op next p hJ _ hi hm => ?_) ?_ (Runs.meets_true _ sched)
  · rw [Pool.step_call _ hi]
    exact hJ.step hm
  · exact ⟨fun _ => .started, raceHolds_start h _, fun i => follows_acceptRideByDriver _⟩

theorem AcceptDone.ended {p : Race.Phase} {r : Except ServiceError Ride} (h : AcceptDone p r) :
    p.Ended := by
  rcases h with ⟨h, -⟩ | ⟨h, -⟩ | ⟨h, -⟩ | ⟨h, -⟩ <;> simp [h, Race.Phase.Ended]

theorem AcceptDone.settled_iff {p : Race.Phase} {r : Except ServiceError Ride} (h : AcceptDone p r) :
    p = .settled ↔ ∃ ride, r = .ok ride := by
  rcases h with ⟨rfl, x, rfl⟩ | ⟨rfl, rfl⟩ | ⟨rfl, rfl⟩ | ⟨rfl, e, rfl⟩ <;> simp

/-- However the calls interleave, they return for one driver at most; and once
all have ended, an invited caller or more leave the ride with one winner. -/
theorem one_driver_wins (env : Environment) (w : World) (rid : Id) (hw : w.OpenForAcceptance rid)
    (calls : ι → Id × Time) (sched : List ι) :
    (∀ i j x y, ((acceptRun env w rid calls sched).procs i).outcome = some (.ok x) →
      ((acceptRun env w rid calls sched).procs j).outcome = some (.ok y) →
      (calls i).1 = (calls j).1) ∧
    ((acceptRun env w rid calls sched).Ended → (∃ i, w.answers rid (calls i).1 = some .invited) →
      ∃ i ride, ((acceptRun env w rid calls sched).procs i).outcome = some (.ok ride) ∧
        (acceptRun env w rid calls sched).store.AcceptedBy rid (calls i).1) := by
  obtain ⟨phase, hJ, hout⟩ := (acceptCalls_hold env hw calls sched).outcome
  have hdriver (i : ι) (x : Ride) (hi : ((acceptRun env w rid calls sched).procs i).outcome = some (.ok x)) :
      ((acceptRun env w rid calls sched).store.race rid).driver = some (calls i).1 := by
    have hs := (hout i _ hi).settled_iff.mpr ⟨x, rfl⟩
    exact (hJ.race.fits i).mine (.inr (.inr hs))
  refine ⟨fun i j x y hi hj => ?_, fun hend ⟨i, hi⟩ => ?_⟩
  · exact Option.some.inj ((hdriver i x hi).symm.trans (hdriver j y hj))
  · have hended (j : ι) : (phase j).Ended := by
      obtain ⟨r, hr⟩ := hend.outcome j
      exact (hout j r hr).ended
    obtain ⟨j, hj, hd, hs, hc⟩ := hJ.race.ended hended hi
    obtain ⟨r, hr⟩ := hend.outcome j
    obtain ⟨ride, rfl⟩ := (hout j r hr).settled_iff.mp hj
    obtain ⟨row, hrow⟩ := hJ.raced.ride
    obtain ⟨hm, hid⟩ := Table.find_some.mp hrow
    rw [race_of_find hrow] at hd hs
    refine ⟨j, ride, hr, ⟨row, hm, hid, hs, hd⟩, hc, fun x hx hne => not_or.mp fun hst => hne ?_⟩
    obtain ⟨hxm, hxr⟩ : x ∈ (acceptRun env w rid calls sched).store.candidates.rows ∧ x.rideId = rid := by
      simpa [World.findCandidates, Table.mem_select] using hx
    have hxd := hJ.rows x hxm hxr hst
    rw [race_of_find hrow, hd] at hxd
    exact (Option.some.inj hxd).symm

/-- A ride that drivers 7 and 8 are invited to, and nothing else. -/
def twoInvited : World :=
  (World.initial []).after (.around [7, 8])
    [.createRide (some 1) ⟨⟨1, 1⟩, ⟨2, 2⟩, none, none⟩ 0]

/-- Drivers 7 and 8 call once each. -/
def twoCalls (b : Bool) : Id × Time := if b then (7, 1) else (8, 1)

instance (w : World) (rid : Id) : Decidable (w.OpenForAcceptance rid) :=
  decidable_of_iff
    ((∃ r ∈ w.rides.rows, r.id = rid ∧ r.status = .candidatesComputed ∧ r.driverId = none) ∧
      ∀ c ∈ w.findCandidates rid, c.status = .invited ∨ c.status = .declined ∨ c.status = .canceled)
    ⟨fun h => ⟨h.1, h.2⟩, fun h => ⟨h.ride, h.candidates⟩⟩

/-- Both calls step by step in turn. -/
def inTurn : List Bool := (List.replicate 30 [true, false]).flatten

theorem one_driver_wins_in_turn : ∃ i ride,
    ((acceptRun (.around [7, 8]) twoInvited 1 twoCalls inTurn).procs i).outcome = some (.ok ride) ∧
    (acceptRun (.around [7, 8]) twoInvited 1 twoCalls inTurn).store.AcceptedBy 1 (twoCalls i).1 :=
  (one_driver_wins (.around [7, 8]) twoInvited 1 (by decide +kernel) twoCalls inTurn).2
    (by decide +kernel) ⟨true, by decide +kernel⟩

/-- What is owed to driver `d` whose call has ended in `r` without the ride:
a conflict, a canceled invitation and one notification. -/
structure Dismissed (w w' : World) (rid d : Id) (r : Option (Except ServiceError Ride)) : Prop where
  conflict : ∃ message, r = some (.error (.conflict message))
  canceled : w'.answers rid d = some .canceled
  told : w'.supersededCount rid d = w.supersededCount rid d + 1

/-- The call that process `i` makes next is no claim of a ride that has a driver. -/
def ClaimsUntaken (c : Pool ι Call Call.Answer ServiceError Ride World) (i : ι) : Prop :=
  match (c.procs i).pending with
  | some (.claimDriver rideId _) => (c.store.rides.find rideId).bind (·.driverId) = none
  | _ => True

instance (c : Pool ι Call Call.Answer ServiceError Ride World) (i : ι) :
    Decidable (ClaimsUntaken c i) := by
  unfold ClaimsUntaken
  split <;> infer_instance

/-- The race of pairwise different invited drivers in which no claim was lost. -/
structure FairRace (w₀ : World) (rid : Id) (drv : ι → Id) (phase : ι → Race.Phase) (w : World) :
    Prop where
  holds : RaceHolds w₀ rid drv phase w
  rivals : ∀ i, Race.Rival (w₀.race rid) (drv i) (phase i) (w.race rid)
  noCollision : ∀ i, phase i ≠ .collided

theorem FairRace.step {drv : ι → Id} {phase : ι → Race.Phase}
    {c : Pool ι Call Call.Answer ServiceError Ride World} {w' : World} {i : ι} {op : Call}
    {p : Race.Phase} (hdrv : Function.Injective drv) (h : FairRace w₀ rid drv phase c.store)
    (hpend : (c.procs i).pending = some op) (hok : ClaimsUntaken c i)
    (ha : Advances w₀ rid (drv i) (phase i) op c.store p w') :
    FairRace w₀ rid drv (Function.update phase i p) w' := by
  refine ⟨h.holds.step ha, Race.rivals_step hdrv h.rivals ha.step, fun j => ?_⟩
  by_cases hj : j = i
  · subst hj
    rw [Function.update_self]
    rintro rfl
    obtain ⟨hcl, hd⟩ := ha.step.collided_iff.mp rfl
    rw [ClaimsUntaken, hpend, ha.claims hcl] at hok
    exact hd hok
  · rw [Function.update_of_ne hj]
    exact h.noCollision j

/-- A caller whose claim was lost makes no further step. -/
theorem collided_stays (env : Environment) {calls : ι → Id × Time}
    {c : Pool ι Call Call.Answer ServiceError Ride World} {i : ι}
    (hc : Outline.Holds (fun i => acceptOutline env w₀ rid (calls i).1) (handle env)
      (fun _ => AcceptDone)
      (fun phase c => RaceHolds w₀ rid (fun i => (calls i).1) phase c.store ∧ phase i = .collided) c)
    (sched : List ι) {r : Except ServiceError Ride}
    (hr : ((c.exec (handle env) sched).procs i).outcome = some r) :
    r = .error (.error "Ride already claimed") := by
  have hend := Outline.exec_holds (fun _ _ j hJ => hJ.1.pre j)
    (fun phase c j op next q hJ _ hj ha => ?_) hc (Runs.meets_true _ sched)
  · obtain ⟨_, ⟨-, hlab⟩, hout⟩ := hend.outcome
    have hdone := hout i r hr
    rw [hlab] at hdone
    simpa [AcceptDone] using hdone
  · rw [Pool.step_call _ hj]
    refine ⟨hJ.1.step ha, ?_⟩
    by_cases hji : j = i
    · subst hji
      have hs := Advances.step ha
      rw [hJ.2] at hs
      exact absurd hs Race.not_step_collided
    · rw [Function.update_of_ne (Ne.symm hji)]
      exact hJ.2

/-- In a run with a lost claim some caller ends with the error of the claim itself. -/
theorem lost_claim_surfaces (hw : w₀.OpenForAcceptance rid) (calls : ι → Id × Time) {sched : List ι}
    (hm : ¬ Pool.Meets (handle env) ClaimsUntaken (Pool.start (acceptCalls rid calls) w₀) sched) :
    ∃ i, ∀ r, ((acceptRun env w₀ rid calls sched).procs i).outcome = some r →
      r = .error (.error "Ride already claimed") := by
  obtain ⟨before, i, after, rfl, -, hno⟩ := Runs.exists_of_not_meets hm
  obtain ⟨phase, hJ, hf⟩ := acceptCalls_hold env hw calls before
  unfold acceptRun at hJ hf ⊢
  rw [Pool.exec_append, Pool.exec_cons]
  change ¬ ClaimsUntaken ((Pool.start (acceptCalls rid calls) w₀).exec (handle env) before) i at hno
  generalize (Pool.start (acceptCalls rid calls) w₀).exec (handle env) before = c at hJ hf hno ⊢
  cases hi : c.procs i with
  | call op next =>
    simp only [ClaimsUntaken, hi, Program.pending] at hno
    obtain ⟨x, y, rfl, hd⟩ : ∃ x y, op = .claimDriver x y ∧
        (c.store.rides.find x).bind (·.driverId) ≠ none := by
      cases op with
      | claimDriver x y => exact ⟨x, y, rfl, hno⟩
      | _ => exact absurd trivial hno
    obtain ⟨p, hmv, hf'⟩ := Outline.follows_step hf (hJ.pre i) hi
    have ha : Advances w₀ rid (calls i).1 (phase i) (.claimDriver x y) c.store p
      (handle env (.claimDriver x y) c.store).2 := hmv
    obtain ⟨rfl, hph⟩ := ha.claimsOnly x y rfl
    refine ⟨i, fun r hr => collided_stays env ⟨_, ⟨?_, ?_⟩, hf'⟩ after hr⟩
    · rw [Pool.step_call _ hi]
      exact hJ.step ha
    · rw [Function.update_self]
      exact ha.step.collided_iff.mpr ⟨hph, hd⟩
  | _ => simp [ClaimsUntaken, hi, Program.pending] at hno

theorem fairRace_holds (hw : w₀.OpenForAcceptance rid) {calls : ι → Id × Time}
    (hdrv : Function.Injective fun i => (calls i).1)
    (hinv : ∀ i, w₀.answers rid (calls i).1 = some .invited) {sched : List ι}
    (hm : Pool.Meets (handle env) ClaimsUntaken (Pool.start (acceptCalls rid calls) w₀) sched) :
    Outline.Holds (fun i => acceptOutline env w₀ rid (calls i).1) (handle env) (fun _ => AcceptDone)
      (fun phase c => FairRace w₀ rid (fun i => (calls i).1) phase c.store)
      (acceptRun env w₀ rid calls sched) := by
  refine Outline.exec_holds (fun phase c j hJ => hJ.holds.pre j)
    (fun phase c j op next q hJ hok hj ha => ?_) ?_ hm
  · rw [Pool.step_call _ hj]
    exact hJ.step hdrv (by simp [hj, Program.pending]) hok ha
  · refine ⟨fun _ => .started, ⟨raceHolds_start hw _, fun i => ?_, by simp⟩,
      fun i => follows_acceptRideByDriver _⟩
    exact ⟨fun _ => hinv i, by simp, by simp [Pool.start], by simp⟩

/-- All callers are invited and each driver calls once. Then every call that
does not get the ride dismisses its driver exactly when no claim was lost. -/
theorem losers_dismissed_iff (env : Environment) (w : World) (rid : Id) (hw : w.OpenForAcceptance rid)
    (calls : ι → Id × Time) (hdrv : Function.Injective fun i => (calls i).1)
    (hinv : ∀ i, w.answers rid (calls i).1 = some .invited) (sched : List ι)
    (hend : (acceptRun env w rid calls sched).Ended) :
    (∀ i, (¬ ∃ ride, ((acceptRun env w rid calls sched).procs i).outcome = some (.ok ride)) →
      Dismissed w (acceptRun env w rid calls sched).store rid (calls i).1
        ((acceptRun env w rid calls sched).procs i).outcome) ↔
    Pool.Meets (handle env) ClaimsUntaken (Pool.start (acceptCalls rid calls) w) sched := by
  constructor
  · intro hall
    by_contra hm
    obtain ⟨i, hi⟩ := lost_claim_surfaces hw calls hm
    obtain ⟨r, hr⟩ := hend.outcome i
    obtain rfl := hi r hr
    obtain ⟨message, hmsg⟩ := (hall i (by simp [hr])).conflict
    simp [hr] at hmsg
  · intro hm i hlost
    obtain ⟨phase, hJ, hout⟩ := (fairRace_holds hw hdrv hinv hm).outcome
    obtain ⟨r, hr⟩ := hend.outcome i
    rw [hr] at hlost ⊢
    obtain ⟨hi, hc, ht, ha⟩ := hJ.rivals i
    rcases hout i r hr with ⟨-, ride, rfl⟩ | ⟨hp, rfl⟩ | ⟨hp, -⟩ | ⟨hp, -⟩
    · exact absurd ⟨ride, rfl⟩ hlost
    · rw [hp, if_pos rfl] at ht
      exact ⟨⟨_, rfl⟩, hc (.inr hp), ht⟩
    · exact absurd hp (hJ.noCollision i)
    · exact absurd hp ha

/-- Both drivers have read the open ride before either claims it. -/
theorem lost_claim_not_dismissed :
    (acceptRun (.around [7, 8]) twoInvited 1 twoCalls inTurn).Ended ∧
    (¬ ∃ ride, ((acceptRun (.around [7, 8]) twoInvited 1 twoCalls inTurn).procs false).outcome =
      some (.ok ride)) ∧
    ¬ Dismissed twoInvited (acceptRun (.around [7, 8]) twoInvited 1 twoCalls inTurn).store 1
      (twoCalls false).1 ((acceptRun (.around [7, 8]) twoInvited 1 twoCalls inTurn).procs false).outcome := by
  have hout : ((acceptRun (.around [7, 8]) twoInvited 1 twoCalls inTurn).procs false).outcome =
      some (.error (.error "Ride already claimed")) := by decide +kernel
  refine ⟨by decide +kernel, by simp [hout], fun h => ?_⟩
  obtain ⟨message, hm⟩ := h.conflict
  simp [hout] at hm

/-- One driver has finished before the other begins. -/
def oneByOne : List Bool := List.replicate 30 true ++ List.replicate 30 false

theorem losers_dismissed_one_by_one :
    Dismissed twoInvited (acceptRun (.around [7, 8]) twoInvited 1 twoCalls oneByOne).store 1 8
      ((acceptRun (.around [7, 8]) twoInvited 1 twoCalls oneByOne).procs false).outcome := by
  have hlost : ((acceptRun (.around [7, 8]) twoInvited 1 twoCalls oneByOne).procs false).outcome =
      some (.error (.conflict "Ride already accepted by another driver")) := by decide +kernel
  exact (losers_dismissed_iff (.around [7, 8]) twoInvited 1 (by decide +kernel) twoCalls (by decide)
    (by decide +kernel) oneByOne (by decide +kernel)).mpr (by decide +kernel) false (by simp [hlost])

end NebLite
