import NebLite.Rides.Interrupted
import NebLite.Payment.LedgerRuns

/-! When a ride that a completion has left half done can still be billed. -/

namespace NebLite

open Atomic

/-- The money fields of the ride are what `calculateFare` has calculated. -/
def World.Priced (env : Environment) (w : World) (rid : Id) : Prop :=
  ∃ r km discountAmount fare, w.rides.find rid = some r ∧
    env.fareEngine.calculateFare km discountAmount = .ok fare ∧ r.Charged fare

/-- The fare of the completion of a ride: what the call itself calculates, and for a
ride that is completed already, what a call before it has calculated. -/
inductive CompletionFare (env : Environment) (w : World) (rid : Id) (location : ParticipantLocation)
    (discountAmount : Option JsNumber) (fare : FareCalculationResult) : Prop
  | calculated {r} : w.rides.find rid = some r → r.status ≠ .completed →
      env.fareEngine.calculateFare (billedDistanceKm r (w.drivenMeters env rid location)) discountAmount = .ok fare →
      CompletionFare env w rid location discountAmount fare
  | earlier {km amount} : w.statusOf rid = some .completed → env.fareEngine.calculateFare km amount = .ok fare →
      CompletionFare env w rid location discountAmount fare

/-- After some operations another completion by the same requester gives the ride its fare. -/
def World.StillPriced (env : Environment) (v : World) (rid : Id) (requester : RequestingClient) : Prop :=
  ∃ later : Environment, later.fareEngine = env.fareEngine ∧ ∃ ops location discountAmount,
    (v.after later (ops ++ [.completeRide rid requester location discountAmount])).Priced env rid

/-- What `v` holds of the ride after a completion that has begun in `w`: it is not
completed, or it carries the fare, or a later completion still gives it one. -/
def Billable (env : Environment) (w : World) (rid : Id) (requester : RequestingClient)
    (location : ParticipantLocation) (discountAmount : Option JsNumber) (v : World) : Prop :=
  v.statusOf rid ≠ some .completed ∨
    (∃ r fare, v.rides.find rid = some r ∧ CompletionFare env w rid location discountAmount fare ∧ r.Charged fare) ∨
    v.StillPriced env rid requester

/-- The number of calls that come before the UPDATE of the status. -/
def statusWrite : ℕ := 10

/-- The number of calls that come before the UPDATE of the fare. -/
def World.fareWrite (w : World) (rid : Id) : ℕ := statusWrite + 4 + w.markCalls rid

/-- The completion passes its checks, and the call that fails comes after the
UPDATE of the status and not after the one of the fare. -/
def CutShort (env : Environment) (w : World) (rid : Id) (requester : RequestingClient)
    (location : ParticipantLocation) (discountAmount : Option JsNumber) (n : ℕ) : Prop :=
  (∃ r, Completes env w rid requester location discountAmount r) ∧ statusWrite < n ∧ n ≤ w.fareWrite rid

section Rows

variable {env : Environment} {w : World} {r : Ride}

/-- The row of a ride that an operation is not about. -/
theorem find_others {lop : LifecycleOp} (hr : w.rides.find r.id = some r) (hop : lop.ride ≠ some r.id) :
    (lop.step env w).rides.find r.id = some r := by
  have hmove (t : Trail) (c : Call) (v : World) (t' : Trail) (hv : v.rides.find r.id = some r)
      (hm : (trailOutline env lop.Tends).move t c v t') : (handle env c v).2.rides.find r.id = some r := by
    obtain ⟨-, htends⟩ := hm
    have hrow : c.onRide r = r := by
      cases c with
      | updateRideRow m =>
        have hne : m.id ≠ r.id := fun he => hop (he ▸ htends.1)
        simp only [Call.onRide, if_neg hne]
      | claimDriver rideId driverId =>
        have hride : lop.ride = some rideId := htends
        have hne : rideId ≠ r.id := fun he => hop (he ▸ hride)
        simp only [Call.onRide, hne, false_and, if_false]
      | updatePaymentState | saveDetailWithRideUpdate =>
        obtain ⟨k, hk⟩ := LifecycleOp.attends_some htends
        exact hk.elim
      | _ => rfl
    rw [find_handle env c hv, hrow]
  obtain ⟨-, -, hend⟩ := (lop.trails env).run_keeps (fun _ _ _ => trivial) hmove hr
  exact hend

/-- A completed ride stays as it is. -/
theorem find_completed (hr : w.rides.find r.id = some r) (hs : r.status = .completed) (ops : List LifecycleOp) :
    (w.after env ops).rides.find r.id = some r := by
  induction ops generalizing w with
  | nil => exact hr
  | cons lop ops ih =>
    refine ih (w := lop.step env w) ?_
    by_cases hop : lop.ride = some r.id
    · have hrests : lop.step env w = w := rests_terminal hr (.inl hs) hop
      rw [hrests]
      exact hr
    · exact find_others hr hop

theorem charged_finished (r : Ride) (fare : FareCalculationResult) : r.finished.Charged fare ↔ r.Charged fare := by
  simp [Ride.Charged, Ride.finished, Ride.rewrite, Ride.writeColumns, withStatus]

theorem charged_charged (r : Ride) (fare : FareCalculationResult) : (r.charged fare).Charged fare :=
  charged_withFare r.finished r.finished fare

theorem priced_congr {v : World} {rid : Id} (h : v.rides.find rid = w.rides.find rid) :
    v.Priced env rid ↔ w.Priced env rid := by
  unfold World.Priced
  rw [h]

/-- No later completion prices a ride that is completed. -/
theorem stillPriced_iff {requester : RequestingClient} {rid : Id} (hr : w.rides.find rid = some r)
    (hs : r.status = .completed) : w.StillPriced env rid requester ↔ w.Priced env rid := by
  obtain rfl : r.id = rid := Table.key_of_find hr
  constructor
  · rintro ⟨later, -, ops, location, discountAmount, hpriced⟩
    refine (priced_congr ?_).mp hpriced
    rw [find_completed hr hs, hr]
  · intro hpriced
    refine ⟨env, rfl, [], ⟨⟨0, 0⟩, none, ""⟩, none, (priced_congr ?_).mpr hpriced⟩
    rw [find_completed hr hs, hr]

end Rows

section Billable

variable {env : Environment} {w : World} {rid : Id} {requester : RequestingClient} {location : ParticipantLocation}
  {discountAmount : Option JsNumber} {r : Ride} {fare : FareCalculationResult}

theorem CompletionFare.result (h : CompletionFare env w rid location discountAmount fare) :
    ∃ km amount, env.fareEngine.calculateFare km amount = .ok fare := by
  cases h with
  | calculated _ _ hf => exact ⟨_, _, hf⟩
  | earlier _ hf => exact ⟨_, _, hf⟩

/-- A completed ride that has not been given a fare by the call is billable only with one from before. -/
theorem billable_completed {v : World} {x : Ride} (hx : v.rides.find rid = some x) (hs : x.status = .completed) :
    Billable env w rid requester location discountAmount v → v.Priced env rid := by
  rintro (hstatus | ⟨y, fare, hy, hfare, hcharged⟩ | hstill)
  · refine absurd ?_ hstatus
    rw [World.statusOf, hx, Option.map_some, hs]
  · obtain ⟨km, amount, hf⟩ := hfare.result
    exact ⟨y, km, amount, fare, hy, hf, hcharged⟩
  · exact (stillPriced_iff hx hs).mp hstill

theorem priced_finished {v : World} (hr : w.rides.find rid = some r) (hv : v.rides.find rid = some r.finished) :
    v.Priced env rid ↔ w.Priced env rid := by
  constructor
  · rintro ⟨x, km, amount, fare, hx, hf, hcharged⟩
    obtain rfl := Option.some.inj (hv.symm.trans hx)
    exact ⟨r, km, amount, fare, hr, hf, (charged_finished r fare).mp hcharged⟩
  · rintro ⟨x, km, amount, fare, hx, hf, hcharged⟩
    obtain rfl := Option.some.inj (hr.symm.trans hx)
    exact ⟨r.finished, km, amount, fare, hv, hf, (charged_finished r fare).mpr hcharged⟩

end Billable

/-- Whichever call of a completion fails, the ride stays billable exactly if it was and
the failure does not come between the UPDATE of the status and the end of that of the fare. -/
theorem completion_billable_iff (env : Environment) (w : World) (rid : Id) (requester : RequestingClient)
    (location : ParticipantLocation) (discountAmount : Option JsNumber) (e : ServiceError) (n : ℕ) :
    Billable env w rid requester location discountAmount
        ((completeRide env rid requester location discountAmount).run (failing e Call.fallible (handle env))
          ⟨w, some n⟩).2.store ↔
      w.Priced env rid ∨
        w.statusOf rid ≠ some .completed ∧ ¬ CutShort env w rid requester location discountAmount n := by
  have hstore : ((completeRide env rid requester location discountAmount).run (failing e Call.fallible (handle env))
      ⟨w, some n⟩).2.store = Partway env (completeRide env rid requester location discountAmount) n w :=
    straight_completeRide.failing_store e n w
  rw [hstore]
  rcases completeRide_partway env w rid requester location discountAmount with
    ⟨r, fare, hcompletes, hf, hrow⟩ | ⟨hno, hrow⟩
  · obtain ⟨rider, hopen, -⟩ := id hcompletes
    have hr := hopen.ride
    have hstatus : r.status ≠ .completed := by
      rintro hs
      have hadmitted := hopen.status
      simp [hs] at hadmitted
    have hbefore : w.statusOf rid ≠ some .completed := by
      rw [World.statusOf, hr, Option.map_some]
      simpa using hstatus
    have hcut : CutShort env w rid requester location discountAmount n ↔
        ¬ n - 8 ≤ 2 ∧ n - 8 ≤ 6 + w.markCalls rid := by
      have hcut : CutShort env w rid requester location discountAmount n ↔
          statusWrite < n ∧ n ≤ w.fareWrite rid := and_iff_right ⟨r, hcompletes⟩
      rw [hcut, World.fareWrite, statusWrite]
      omega
    have hv := hrow n
    unfold Ride.settled at hv
    rw [hcut]
    split at hv
    · next hle =>
      refine iff_of_true (.inl ?_) (.inr ⟨hbefore, fun h => h.1 hle⟩)
      rw [World.statusOf, hv, Option.map_some]
      simpa using hstatus
    · next hlate =>
      split at hv
      · next hle =>
        have hpriced : (Partway env (completeRide env rid requester location discountAmount) n w).Priced env rid ↔
            w.Priced env rid := priced_finished hr hv
        constructor
        · exact fun h => .inl (hpriced.mp (billable_completed hv rfl h))
        · rintro (h | ⟨-, h⟩)
          · exact .inr (.inr ((stillPriced_iff hv rfl).mpr (hpriced.mpr h)))
          · exact absurd ⟨hlate, hle⟩ h
      · next hdone =>
        refine iff_of_true (.inr (.inl ⟨r.charged fare, fare, hv, .calculated hr hstatus hf, charged_charged r fare⟩))
          (.inr ⟨hbefore, fun h => hdone h.2⟩)
  · have hcut : ¬ CutShort env w rid requester location discountAmount n := by
      rintro ⟨⟨r, hr⟩, -⟩
      exact hno r hr
    rcases hrow n with hsame | ⟨hbefore, hafter⟩
    · have hstatus : (Partway env (completeRide env rid requester location discountAmount) n w).statusOf rid =
          w.statusOf rid := by rw [World.statusOf, hsame, World.statusOf]
      by_cases hs : w.statusOf rid = some .completed
      · obtain ⟨r, hr, hrs⟩ := Option.map_eq_some_iff.mp hs
        have hv := hsame.trans hr
        constructor
        · exact fun h => .inl ((priced_congr hsame).mp (billable_completed hv hrs h))
        · rintro (h | ⟨h, -⟩)
          · exact .inr (.inr ((stillPriced_iff hv hrs).mpr ((priced_congr hsame).mpr h)))
          · exact absurd hs h
      · exact iff_of_true (.inl (hstatus ▸ hs)) (.inr ⟨hs, hcut⟩)
    · exact iff_of_true (.inl hafter) (.inr ⟨hbefore, hcut⟩)

/-- Driver 7 and rider 1 are at the destination of the started trip. -/
def arrivedWorld : World :=
  (World.initial []).after (.around [7, 8])
    (startedRun ++ [.recordTripLocation 1 ⟨some 1, some .rider⟩ ⟨⟨2, 2⟩, none, "10:10"⟩])

/-- Redis fails when the completed ride is about to be marked. -/
def unmarkedWorld : World :=
  ((completeRide (.around [7, 8]) 1 ⟨some 7, some .driver⟩ ⟨⟨2, 2⟩, none, "10:11"⟩ none).run
    (failing (.error "Connection is closed.") Call.fallible (handle (.around [7, 8]))) ⟨arrivedWorld, some 13⟩).2.store

theorem completion_unbilled :
    ¬ Billable (.around [7, 8]) arrivedWorld 1 ⟨some 7, some .driver⟩ ⟨⟨2, 2⟩, none, "10:11"⟩ none unmarkedWorld := by
  intro h
  have hrow : ∃ x, unmarkedWorld.rides.find 1 = some x ∧ x.status = .completed ∧ x.fareFinal = none := by
    obtain ⟨x, hx⟩ : ∃ x, unmarkedWorld.rides.find 1 = some x := Option.isSome_iff_exists.mp (by decide +kernel)
    have hfields : (unmarkedWorld.rides.find 1).map (fun x => (x.status, x.fareFinal)) = some (.completed, none) := by
      decide +kernel
    rw [hx, Option.map_some] at hfields
    obtain ⟨hs, hf⟩ := Prod.mk.inj (Option.some.inj hfields)
    exact ⟨x, hx, hs, hf⟩
  obtain ⟨x, hx, hs, hnone⟩ := hrow
  obtain ⟨y, km, amount, fare, hy, -, hfinal, -⟩ := billable_completed hx hs h
  obtain rfl := Option.some.inj (hx.symm.trans hy)
  rw [hnone] at hfinal
  cases hfinal

end NebLite
